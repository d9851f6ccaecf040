import OpenDiscogs.Config.Settings
import OpenDiscogs.Library.Url

/-! The configuration: the checks that make one of raw values, and its way from arguments and
environment. -/
namespace OpenDiscogs.Configuration
open Utf8 Strconv Duration CommandLine

def defaultReadHeaderTimeout : Int := 5*second
def defaultReadTimeout : Int := 15*second
def defaultWriteTimeout : Int := 30*second
def defaultIdleTimeout : Int := 90*second
def defaultMaxConnectionIdle : Int := 5*minute
def defaultMaxConnectionLife : Int := 30*minute
def defaultHealthCheckPeriod : Int := 30*second
def maximumConnections : Int := 1024
def maximumStatementCacheSize : Int := 65536
def maximumSchemaNameLength := 63
def maxInt64 : Int := 2^63-1
def maxInt32 : Int := 2^31-1

structure Tracing where
  enabled : Bool := false
  endpoint : Bytes := []
  sampleRatio : Float64 := Float64.zero false

structure Database where
  url : Bytes := []
  schema : Bytes := []
  maxConnections : Int := 0
  minConnections : Int := 0
  maxConnectionIdle : Int := 0
  maxConnectionLife : Int := 0
  healthCheckPeriod : Int := 0
  statementCacheSize : Int := 0

structure Config where
  publicAddress : Bytes := []
  managementAddress : Bytes := []
  serverURL : Bytes := []
  cacheControl : Bytes := []
  accessLog : Bool := false
  maxProcs : Int := 0
  memoryLimitBytes : Int := 0
  logLevel : Int := 0
  readHeaderTimeout : Int := 0
  readTimeout : Int := 0
  writeTimeout : Int := 0
  idleTimeout : Int := 0
  shutdownTimeout : Int := 0
  queryTimeout : Int := 0
  metricsEnabled : Bool := false
  tracing : Tracing := {}
  database : Database := {}

structure Result where
  config : Config := {}
  checkReadiness : Bool := false
  showVersion : Bool := false

/-- Resolves the address of a listener, or says what is wrong with it. -/
abbrev Resolver := Bytes → Option Failure

def absoluteHTTPURL (raw : Bytes) : Except Failure Bytes :=
  match Url.parse (trimSpace raw) with
  | some parsed =>
    if (parsed.scheme ≠ lit "http" ∧ parsed.scheme ≠ lit "https") ∨ parsed.host = [] then
      .error (.text "must be an absolute HTTP(S) URL")
    else .ok (parsed.string.rdropWhile (· == 0x2F))
  | none => .error (.text "must be an absolute HTTP(S) URL")

def validateAddress (resolve : Resolver) (name : String) (address : Bytes) : Except Failure Unit :=
  match resolve address with
  | some e => .error (.named name e)
  | none => .ok ()

/-- The small letter of a rune, as far as it is one of ASCII. -/
def lowerRune : Rune → Char
  | .char c => if c = 'İ' then 'i' else if c = 'K' then 'k' else c.toLower
  | .bad _ => Char.ofNat 0xFFFD

/-- The capital letter of a character, as far as it is one of ASCII. -/
def upperRune (c : Char) : Char := if c = 'ı' then 'I' else if c = 'ſ' then 'S' else c.toUpper

def levelNames : List (List Char × Int) :=
  [("DEBUG".toList, -4), ("INFO".toList, 0), ("WARN".toList, 4), ("ERROR".toList, 8)]

/-- A name in any case, and an offset that is added to its level in 64 bits. -/
def unmarshalLevel (cs : List Char) : Option Int :=
  let name := cs.takeWhile fun c => c != '+' && c != '-'
  let offset := cs.drop name.length
  match levelNames.lookup (name.map upperRune), if offset = [] then some 0 else atoi (encode offset) with
  | some level, some n => some ((level+n).bmod (2^64))
  | _, _ => none

def logLevel (raw : Bytes) : Except Failure Int :=
  match unmarshalLevel ((runes (trimSpace raw)).map lowerRune) with
  | some level => .ok level
  | none => .error (.text s!"{flagLogLevel} must be debug, info, warn, or error")

/-- `^[a-z_][a-z0-9_]*$`, of one character to the longest name. -/
def validSchemaName (name : Bytes) : Bool :=
  0 < name.length && name.length ≤ maximumSchemaNameLength &&
    match name with
    | [] => false
    | b::s => (0x61 ≤ b && b ≤ 0x7A || b == 0x5F) &&
        s.all fun c => 0x61 ≤ c && c ≤ 0x7A || 0x30 ≤ c && c ≤ 0x39 || c == 0x5F

def nameSSLMode := "sslmode"

/-- A complete URL is used as it is; without one the split settings make it. -/
def buildDatabaseURL (values : RawValues) : Except Failure Bytes :=
  let raw := trimSpace values.databaseURL
  if raw ≠ [] then
    match Url.parse raw with
    | some parsed =>
      if (parsed.scheme ≠ lit "postgres" ∧ parsed.scheme ≠ lit "postgresql") ∨ parsed.host = [] then
        .error (.text s!"{flagDatabaseURL} must be an absolute PostgreSQL URL")
      else .ok raw
    | none => .error (.text s!"{flagDatabaseURL} must be an absolute PostgreSQL URL")
  else
    let host := trimSpace values.databaseHost
    let username := trimSpace values.databaseUsername
    let password := values.databasePassword
    let database := trimSpace values.databaseName
    if host = [] ∨ username = [] ∨ password = [] ∨ database = [] then
      .error (.text s!"set {flagDatabaseURL} or the split database settings")
    else match Ip.splitHostPort host with
      | .error e => .error (.named s!"{flagDatabaseHost} must include host and port" (.address e))
      | .ok _ =>
        if 0x2F ∈ database then .error (.text s!"{flagDatabaseName} must be a database name")
        else
          let sslmode := trimSpace values.databaseSSLMode
          .ok (Url.URL.string
            { scheme := lit "postgres", host := host, path := database,
              user := some ⟨username, some password⟩,
              rawQuery := Url.escape (lit nameSSLMode) .queryComponent ++
                0x3D::Url.escape sslmode .queryComponent })

def errorSchemaName := s!"{flagDatabaseSchema} must be 1 to {maximumSchemaNameLength} lowercase letters, digits, or underscores and start with a letter or underscore"

/-- An error under the name of what it is about. -/
def under {α : Type} (name : String) : Except Failure α → Except Failure α
  | .ok a => .ok a
  | .error e => .error (.named name e)

/-- Fails with a text unless a condition holds. -/
def require (condition : Bool) (message : String) : Except Failure Unit :=
  if condition then .ok () else .error (.text message)

/-- Only with tracing does the endpoint matter. -/
def validateEndpoint (tracingEnabled : Bool) (otlpEndpoint : Bytes) : Except Failure Unit :=
  if tracingEnabled then do
    let _ ← under s!"{flagOTLPEndpoint} is required when tracing is enabled"
      (absoluteHTTPURL otlpEndpoint)
    return ()
  else .ok ()

/-- A configuration of raw values. The shift of the memory limit and the narrowing of the
connection counts drop what does not fit. -/
def validate (resolve : Resolver) (values : RawValues) : Except Failure Config := do
  let serverURL ← under flagServerURL (absoluteHTTPURL values.serverURL)
  validateAddress resolve flagAddress values.address
  validateAddress resolve flagManagementAddress values.managementAddress
  let level ← logLevel values.logLevel
  let databaseURL ← buildDatabaseURL values
  require (!(values.maxProcs < 0)) s!"{flagMaxProcs} must be zero or positive"
  require (validSchemaName values.databaseSchema) errorSchemaName
  require (!(values.memoryLimitMiB < 0)) s!"{flagMemoryLimitMiB} must be zero or positive"
  require (!(values.memoryLimitMiB > maxInt64/2^20))
    s!"{flagMemoryLimitMiB} is too large to represent in bytes"
  require (!(values.databaseMaxConns > maxInt32 ∨ values.databaseMinConns > maxInt32))
    s!"{flagDatabaseMaxConns} and {flagDatabaseMinConns} must fit signed 32-bit PostgreSQL connection counts"
  require (!(values.databaseMaxConns < 1 ∨ values.databaseMaxConns > maximumConnections))
    s!"{flagDatabaseMaxConns} must be between 1 and {maximumConnections}"
  require (!(values.databaseMinConns < 0 ∨
      values.databaseMinConns > values.databaseMaxConns))
    s!"{flagDatabaseMinConns} must be between 0 and {flagDatabaseMaxConns}"
  require (!(values.statementCache < 0 ∨
      values.statementCache > maximumStatementCacheSize))
    s!"{flagStatementCache} must be between 0 and {maximumStatementCacheSize}"
  require (!(values.queryTimeout ≤ 0 ∨ values.shutdownTimeout ≤ 0))
    "timeouts must be positive"
  require (!(values.traceSampleRatio.lt (Float64.ofNat 0) ||
      (Float64.ofNat 1).lt values.traceSampleRatio))
    s!"{flagTraceSampleRatio} must be between 0 and 1"
  validateEndpoint values.tracingEnabled values.otlpEndpoint
  return {
    publicAddress := values.address
    managementAddress := values.managementAddress
    serverURL := serverURL
    cacheControl := values.cacheControl
    accessLog := values.accessLog
    maxProcs := values.maxProcs
    memoryLimitBytes := (values.memoryLimitMiB*2^20).bmod (2^64)
    logLevel := level
    readHeaderTimeout := defaultReadHeaderTimeout
    readTimeout := defaultReadTimeout
    writeTimeout := defaultWriteTimeout
    idleTimeout := defaultIdleTimeout
    shutdownTimeout := values.shutdownTimeout
    queryTimeout := values.queryTimeout
    metricsEnabled := values.metricsEnabled
    tracing := {
      enabled := values.tracingEnabled
      endpoint := values.otlpEndpoint
      sampleRatio := values.traceSampleRatio }
    database := {
      url := databaseURL
      schema := values.databaseSchema
      maxConnections := values.databaseMaxConns.bmod (2^32)
      minConnections := values.databaseMinConns.bmod (2^32)
      maxConnectionIdle := defaultMaxConnectionIdle
      maxConnectionLife := defaultMaxConnectionLife
      healthCheckPeriod := defaultHealthCheckPeriod
      statementCacheSize := values.statementCache } }

def hasArgument (arguments : List Bytes) (candidates : List String) : Bool :=
  arguments.any fun argument => candidates.any fun candidate => argument = lit candidate

def emptyLookup : LookupEnv := fun _ => none

def parseFlags (arguments : List Bytes) (values : RawValues) :
    Except Failure (FlagValues × List Bytes) :=
  match parse bindFlags arguments { values := values } with
  | .ok parsed => .ok parsed
  | .error e => .error (.flags e)

/-- A token that asks for help, for the version or for a probe counts wherever it stands. -/
def load (resolve : Resolver) (arguments : List Bytes) (lookup : LookupEnv) :
    Except Failure Result :=
  if hasArgument arguments ["--" ++ flagVersion, "-" ++ flagVersion] then
    .ok { showVersion := true }
  else if hasArgument arguments ["--" ++ flagHealthcheck, "-" ++ flagHealthcheck] then
    .ok { checkReadiness := true }
  else if hasArgument arguments ["--help", "-help", "-h"] then do
    let values := match environmentValues emptyLookup with
      | .ok values => values
      | .error _ => RawValues.zero
    let _ ← parseFlags arguments values
    return {}
  else do
    let values ← environmentValues lookup
    let (values, positional) ← parseFlags arguments values
    match positional with
    | argument::_ => .error (.positional argument)
    | [] =>
      let config ← validate resolve values.values
      return { config := config }

end OpenDiscogs.Configuration
