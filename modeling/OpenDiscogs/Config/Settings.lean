import OpenDiscogs.Library.CommandLine
import OpenDiscogs.Library.Duration
import OpenDiscogs.Library.Ip
import OpenDiscogs.Library.Outcome

/-! The settings of the service: their names, their defaults, and where each is read from. -/
namespace OpenDiscogs.Configuration
open Utf8 Strconv Duration CommandLine

def flagAddress := "address"
def flagManagementAddress := "management-address"
def flagServerURL := "server-url"
def flagCacheControl := "cache-control"
def flagAccessLog := "access-log"
def flagMaxProcs := "max-procs"
def flagMemoryLimitMiB := "memory-limit-mib"
def flagLogLevel := "log-level"
def flagQueryTimeout := "query-timeout"
def flagShutdownTimeout := "shutdown-timeout"
def flagDatabaseURL := "database-url"
def flagDatabaseSchema := "database-schema"
def flagDatabaseHost := "db-host"
def flagDatabaseUsername := "db-username"
def flagDatabasePassword := "db-password"
def flagDatabaseName := "db-database"
def flagDatabaseSSLMode := "db-sslmode"
def flagDatabaseMaxConns := "db-max-conns"
def flagDatabaseMinConns := "db-min-conns"
def flagStatementCache := "db-statement-cache"
def flagMetricsEnabled := "metrics-enabled"
def flagTracingEnabled := "tracing-enabled"
def flagOTLPEndpoint := "otlp-endpoint"
def flagTraceSampleRatio := "trace-sample-ratio"
def flagHealthcheck := "healthcheck"
def flagVersion := "version"

def envAddress := "API_ADDRESS"
def envManagementAddress := "API_MANAGEMENT_ADDRESS"
def envServerURL := "API_SERVER_URL"
def envCacheControl := "API_CACHE_CONTROL"
def envAccessLog := "API_ACCESS_LOG"
def envMaxProcs := "API_MAX_PROCS"
def envMemoryLimitMiB := "API_MEMORY_LIMIT_MIB"
def envLogLevel := "API_LOG_LEVEL"
def envQueryTimeout := "API_QUERY_TIMEOUT"
def envShutdownTimeout := "API_SHUTDOWN_TIMEOUT"
def envDatabaseURL := "API_DATABASE_URL"
def envDatabaseSchema := "API_DATABASE_SCHEMA"
def envDatabaseHost := "API_DB_HOST"
def envDatabaseUsername := "API_DB_USERNAME"
def envDatabasePassword := "API_DB_PASSWORD"
def envDatabaseName := "API_DB_DATABASE"
def envDatabaseSSLMode := "API_DB_SSLMODE"
def envDatabaseMaxConns := "API_DB_MAX_CONNS"
def envDatabaseMinConns := "API_DB_MIN_CONNS"
def envStatementCache := "API_DB_STATEMENT_CACHE"
def envMetricsEnabled := "API_METRICS_ENABLED"
def envTracingEnabled := "API_TRACING_ENABLED"
def envOTLPEndpoint := "OTEL_EXPORTER_OTLP_ENDPOINT"
def envTraceSampleRatio := "OTEL_TRACES_SAMPLER_ARG"

def defaultAddress := ":8080"
def defaultManagementAddress := "127.0.0.1:8081"
def defaultServerURL := "http://localhost:8080"
def defaultCacheControl := "public, max-age=60, stale-while-revalidate=300"
def defaultLogLevel := "info"
def defaultDatabaseName := "discogs"
def defaultDatabaseSchema := "public"
def defaultDatabaseSSLMode := "prefer"
def defaultDatabaseMaxConns : Int := 10
def defaultDatabaseMinConns : Int := 0
def defaultStatementCacheSize : Int := 128
/-- The number nearest to a tenth. -/
def defaultTraceSampleRatio := Float64.round false 1 10
def defaultShutdownTimeout : Int := 30*second
def defaultQueryTimeout : Int := 10*second

inductive ValueType where
  | string | boolean | integer | duration | float
deriving DecidableEq

inductive Requirement where
  | optional | conditional
deriving DecidableEq

/-- The values of a type. Integers and durations have 64 bits in the source; whatever reads one
refuses what does not fit. -/
@[reducible] def ValueType.Value : ValueType → Type
  | string => Bytes
  | boolean => Bool
  | integer => Int
  | duration => Int
  | float => Float64

/-- The value that a variable of a type starts with. -/
def ValueType.zero : (type : ValueType) → type.Value
  | string => ([] : Bytes)
  | boolean => false
  | integer => (0 : Int)
  | duration => (0 : Int)
  | float => Float64.zero false

structure Definition where
  flag : String
  environment : String
  type : ValueType
  default : String := ""
  requirement : Requirement
  sensitive : Bool := false
deriving DecidableEq

def inventory : List Definition := [
  { flag := flagAddress, environment := envAddress, type := .string, default := defaultAddress,
    requirement := .optional },
  { flag := flagManagementAddress, environment := envManagementAddress, type := .string,
    default := defaultManagementAddress, requirement := .optional },
  { flag := flagServerURL, environment := envServerURL, type := .string,
    default := defaultServerURL, requirement := .optional },
  { flag := flagCacheControl, environment := envCacheControl, type := .string,
    default := defaultCacheControl, requirement := .optional },
  { flag := flagAccessLog, environment := envAccessLog, type := .boolean, default := "false",
    requirement := .optional },
  { flag := flagMaxProcs, environment := envMaxProcs, type := .integer, default := "0",
    requirement := .optional },
  { flag := flagMemoryLimitMiB, environment := envMemoryLimitMiB, type := .integer,
    default := "0", requirement := .optional },
  { flag := flagLogLevel, environment := envLogLevel, type := .string,
    default := defaultLogLevel, requirement := .optional },
  { flag := flagQueryTimeout, environment := envQueryTimeout, type := .duration,
    default := "10s", requirement := .optional },
  { flag := flagShutdownTimeout, environment := envShutdownTimeout, type := .duration,
    default := "30s", requirement := .optional },
  { flag := flagDatabaseURL, environment := envDatabaseURL, type := .string,
    requirement := .conditional, sensitive := true },
  { flag := flagDatabaseSchema, environment := envDatabaseSchema, type := .string,
    default := defaultDatabaseSchema, requirement := .optional },
  { flag := flagDatabaseHost, environment := envDatabaseHost, type := .string,
    requirement := .conditional },
  { flag := flagDatabaseUsername, environment := envDatabaseUsername, type := .string,
    requirement := .conditional },
  { flag := flagDatabasePassword, environment := envDatabasePassword, type := .string,
    requirement := .conditional, sensitive := true },
  { flag := flagDatabaseName, environment := envDatabaseName, type := .string,
    default := defaultDatabaseName, requirement := .optional },
  { flag := flagDatabaseSSLMode, environment := envDatabaseSSLMode, type := .string,
    default := defaultDatabaseSSLMode, requirement := .optional },
  { flag := flagDatabaseMaxConns, environment := envDatabaseMaxConns, type := .integer,
    default := "10", requirement := .optional },
  { flag := flagDatabaseMinConns, environment := envDatabaseMinConns, type := .integer,
    default := "0", requirement := .optional },
  { flag := flagStatementCache, environment := envStatementCache, type := .integer,
    default := "128", requirement := .optional },
  { flag := flagMetricsEnabled, environment := envMetricsEnabled, type := .boolean,
    default := "true", requirement := .optional },
  { flag := flagTracingEnabled, environment := envTracingEnabled, type := .boolean,
    default := "false", requirement := .optional },
  { flag := flagOTLPEndpoint, environment := envOTLPEndpoint, type := .string,
    requirement := .conditional },
  { flag := flagTraceSampleRatio, environment := envTraceSampleRatio, type := .float,
    default := "0.1", requirement := .optional }]

/-- The fields of the raw values, one for each setting. -/
inductive Setting where
  | address | managementAddress | serverURL | cacheControl | accessLog | maxProcs
  | memoryLimitMiB | logLevel | queryTimeout | shutdownTimeout | databaseURL | databaseSchema
  | databaseHost | databaseUsername | databasePassword | databaseName | databaseSSLMode
  | databaseMaxConns | databaseMinConns | statementCache | metricsEnabled | tracingEnabled
  | otlpEndpoint | traceSampleRatio
deriving DecidableEq

@[reducible] def Setting.type : Setting → ValueType
  | accessLog | metricsEnabled | tracingEnabled => .boolean
  | maxProcs | memoryLimitMiB | databaseMaxConns | databaseMinConns | statementCache => .integer
  | queryTimeout | shutdownTimeout => .duration
  | traceSampleRatio => .float
  | _ => .string

/-- The settings as they were given, not validated: a value for every field. -/
structure RawValues where
  get : (s : Setting) → s.type.Value

namespace RawValues

def zero : RawValues := ⟨fun s => s.type.zero⟩

def address (v : RawValues) : Bytes := v.get .address
def managementAddress (v : RawValues) : Bytes := v.get .managementAddress
def serverURL (v : RawValues) : Bytes := v.get .serverURL
def cacheControl (v : RawValues) : Bytes := v.get .cacheControl
def accessLog (v : RawValues) : Bool := v.get .accessLog
def maxProcs (v : RawValues) : Int := v.get .maxProcs
def memoryLimitMiB (v : RawValues) : Int := v.get .memoryLimitMiB
def logLevel (v : RawValues) : Bytes := v.get .logLevel
def queryTimeout (v : RawValues) : Int := v.get .queryTimeout
def shutdownTimeout (v : RawValues) : Int := v.get .shutdownTimeout
def databaseURL (v : RawValues) : Bytes := v.get .databaseURL
def databaseSchema (v : RawValues) : Bytes := v.get .databaseSchema
def databaseHost (v : RawValues) : Bytes := v.get .databaseHost
def databaseUsername (v : RawValues) : Bytes := v.get .databaseUsername
def databasePassword (v : RawValues) : Bytes := v.get .databasePassword
def databaseName (v : RawValues) : Bytes := v.get .databaseName
def databaseSSLMode (v : RawValues) : Bytes := v.get .databaseSSLMode
def databaseMaxConns (v : RawValues) : Int := v.get .databaseMaxConns
def databaseMinConns (v : RawValues) : Int := v.get .databaseMinConns
def statementCache (v : RawValues) : Int := v.get .statementCache
def metricsEnabled (v : RawValues) : Bool := v.get .metricsEnabled
def tracingEnabled (v : RawValues) : Bool := v.get .tracingEnabled
def otlpEndpoint (v : RawValues) : Bytes := v.get .otlpEndpoint
def traceSampleRatio (v : RawValues) : Float64 := v.get .traceSampleRatio

@[ext] theorem ext {v w : RawValues} (h : ∀ s, v.get s = w.get s) : v = w := by
  obtain ⟨f⟩ := v
  obtain ⟨g⟩ := w
  rw [show f = g from funext h]

/-- One field changed. -/
def put (v : RawValues) (s : Setting) (x : s.type.Value) : RawValues :=
  ⟨Function.update v.get s x⟩

variable {v w : RawValues} {s t : Setting}

@[simp] theorem get_put (v : RawValues) (s : Setting) (x : s.type.Value) : (v.put s x).get s = x := by
  simp only [put, Function.update_self]

theorem get_put_ne (h : t ≠ s) (v : RawValues) (x : s.type.Value) : (v.put s x).get t = v.get t := by
  simp only [put, Function.update_of_ne h]

theorem put_get (v : RawValues) (s : Setting) : v.put s (v.get s) = v := by
  simp only [put, Function.update_eq_self]

theorem put_put (v : RawValues) (s : Setting) (x y : s.type.Value) :
    (v.put s x).put s y = v.put s y := by
  rw [put, put, put, Function.update_idem]

theorem put_comm (h : s ≠ t) (v : RawValues) (x : s.type.Value) (y : t.type.Value) :
    (v.put s x).put t y = (v.put t y).put s x := by
  simp only [put, Function.update_comm h]

end RawValues

/-- Looks a variable of the environment up. -/
abbrev LookupEnv := String → Option Bytes

/-- An error of the configuration: a text that names the setting, and what it wraps. -/
inductive Failure where
  | text (message : String)
  | named (name : String) (cause : Failure)
  | address (e : Ip.AddrError)
  | positional (argument : Bytes)
  | flags (failure : CommandLine.Failure)

def value (lookup : LookupEnv) (name : String) (fallback : Bytes) : Bytes :=
  match lookup name with
  | some configured => configured
  | none => fallback

/-- A variable read as a value of a type; a blank one counts as missing. -/
def environmentValue {α : Type} (parser : Bytes → Option α) (expected : String)
    (lookup : LookupEnv) (name : String) (fallback : α) : Except Failure α :=
  let raw := trimSpace (value lookup name [])
  if raw = [] then .ok fallback
  else match parser raw with
    | some parsed => .ok parsed
    | none => .error (.text s!"{name} must be {expected}")

def environmentBool := environmentValue parseBool "a boolean"
def environmentInt := environmentValue atoi "an integer"
def environmentInt64 := environmentValue (parseInt · 10 64) "an integer"
def environmentFloat := environmentValue parseFloat "a float"
def environmentDuration := environmentValue parseDuration "a duration"

def environmentValues (lookup : LookupEnv) : Except Failure RawValues := do
  let accessLog ← environmentBool lookup envAccessLog false
  let maxProcs ← environmentInt lookup envMaxProcs 0
  let memoryLimitMiB ← environmentInt lookup envMemoryLimitMiB 0
  let queryTimeout ← environmentDuration lookup envQueryTimeout defaultQueryTimeout
  let shutdownTimeout ← environmentDuration lookup envShutdownTimeout defaultShutdownTimeout
  let databaseMaxConns ← environmentInt64 lookup envDatabaseMaxConns defaultDatabaseMaxConns
  let databaseMinConns ← environmentInt64 lookup envDatabaseMinConns defaultDatabaseMinConns
  let statementCache ← environmentInt lookup envStatementCache defaultStatementCacheSize
  let metricsEnabled ← environmentBool lookup envMetricsEnabled true
  let tracingEnabled ← environmentBool lookup envTracingEnabled false
  let traceSampleRatio ← environmentFloat lookup envTraceSampleRatio defaultTraceSampleRatio
  return ⟨fun
    | .address => value lookup envAddress (lit defaultAddress)
    | .managementAddress => value lookup envManagementAddress (lit defaultManagementAddress)
    | .serverURL => value lookup envServerURL (lit defaultServerURL)
    | .cacheControl => value lookup envCacheControl (lit defaultCacheControl)
    | .accessLog => accessLog
    | .maxProcs => maxProcs
    | .memoryLimitMiB => memoryLimitMiB
    | .logLevel => value lookup envLogLevel (lit defaultLogLevel)
    | .queryTimeout => queryTimeout
    | .shutdownTimeout => shutdownTimeout
    | .databaseURL => value lookup envDatabaseURL []
    | .databaseSchema => value lookup envDatabaseSchema (lit defaultDatabaseSchema)
    | .databaseHost => value lookup envDatabaseHost []
    | .databaseUsername => value lookup envDatabaseUsername []
    | .databasePassword => value lookup envDatabasePassword []
    | .databaseName => value lookup envDatabaseName (lit defaultDatabaseName)
    | .databaseSSLMode => value lookup envDatabaseSSLMode (lit defaultDatabaseSSLMode)
    | .databaseMaxConns => databaseMaxConns
    | .databaseMinConns => databaseMinConns
    | .statementCache => statementCache
    | .metricsEnabled => metricsEnabled
    | .tracingEnabled => tracingEnabled
    | .otlpEndpoint => value lookup envOTLPEndpoint []
    | .traceSampleRatio => traceSampleRatio⟩

/-- The raw values, and the two flags that are no settings. -/
structure FlagValues where
  values : RawValues
  healthcheck : Bool := false
  version : Bool := false

def FlagValues.put (v : FlagValues) (s : Setting) (x : s.type.Value) : FlagValues :=
  { v with values := v.values.put s x }

/-- How a flag reads the values of a type: an integer in the base of its prefix. -/
def ValueType.parseFlag : (type : ValueType) → Bytes → Option type.Value
  | string, v => some v
  | boolean, v => parseBool v
  | integer, v => parseInt v 0 64
  | duration, v => parseDuration v
  | float, v => parseFloat v

/-- A flag that is read into a field. -/
def settingVar (s : Setting) (name : String) : Flag FlagValues where
  name := lit name
  isBoolFlag := s.type = .boolean
  set v values := (s.type.parseFlag v).map (values.put s)

def healthcheckVar : Flag FlagValues where
  name := lit flagHealthcheck
  isBoolFlag := true
  set v values := (parseBool v).map fun b => { values with healthcheck := b }

def versionVar : Flag FlagValues where
  name := lit flagVersion
  isBoolFlag := true
  set v values := (parseBool v).map fun b => { values with version := b }

def bindFlags : FlagSet FlagValues := [
  settingVar .address flagAddress,
  settingVar .managementAddress flagManagementAddress,
  settingVar .serverURL flagServerURL,
  settingVar .cacheControl flagCacheControl,
  settingVar .accessLog flagAccessLog,
  settingVar .maxProcs flagMaxProcs,
  settingVar .memoryLimitMiB flagMemoryLimitMiB,
  settingVar .logLevel flagLogLevel,
  settingVar .queryTimeout flagQueryTimeout,
  settingVar .shutdownTimeout flagShutdownTimeout,
  settingVar .databaseURL flagDatabaseURL,
  settingVar .databaseSchema flagDatabaseSchema,
  settingVar .databaseHost flagDatabaseHost,
  settingVar .databaseUsername flagDatabaseUsername,
  settingVar .databasePassword flagDatabasePassword,
  settingVar .databaseName flagDatabaseName,
  settingVar .databaseSSLMode flagDatabaseSSLMode,
  settingVar .databaseMaxConns flagDatabaseMaxConns,
  settingVar .databaseMinConns flagDatabaseMinConns,
  settingVar .statementCache flagStatementCache,
  settingVar .metricsEnabled flagMetricsEnabled,
  settingVar .tracingEnabled flagTracingEnabled,
  settingVar .otlpEndpoint flagOTLPEndpoint,
  settingVar .traceSampleRatio flagTraceSampleRatio,
  healthcheckVar,
  versionVar]

end OpenDiscogs.Configuration
