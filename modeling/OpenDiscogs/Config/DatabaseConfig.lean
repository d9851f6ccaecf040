import OpenDiscogs.Config.Load

/-! The pool of connections that a configuration asks for. -/
namespace OpenDiscogs.Configuration
open Utf8

def databaseApplicationName := "go-open-discogs-api"
def connectionParameterName := "application_name"
def databaseSearchPathName := "search_path"
def databaseConnectionPrefix := "configure PostgreSQL"

/-- How a statement is sent: prepared and kept, described and kept, described, or at once. -/
inductive QueryExecMode where
  | cacheStatement | cacheDescribe | describeExec | exec | simpleProtocol
deriving DecidableEq

structure ConnConfig (τ : Type) where
  defaultQueryExecMode : QueryExecMode
  statementCacheCapacity : Int
  descriptionCacheCapacity : Int
  runtimeParams : String → Option Bytes
  tracer : Option τ

structure PoolConfig (τ : Type) where
  connConfig : ConnConfig τ
  maxConns : Int
  minConns : Int
  maxConnIdleTime : Int
  maxConnLifetime : Int
  healthCheckPeriod : Int

/-- The driver of the database: the pool that a URL describes, and the modes that connections of a
configuration support. -/
structure Driver (τ : Type) where
  parseConfig : Bytes → Except Failure (PoolConfig τ)
  supports : ConnConfig τ → QueryExecMode → Prop

/-- The path to the tables: the one schema, in quotes. -/
def searchPath (cfg : Config) : Bytes := lit "\"" ++ cfg.database.schema ++ lit "\""

variable {τ : Type}

def databaseConfig (driver : Driver τ) (cfg : Config) (queryTracer : Option τ) :
    Except Failure (PoolConfig τ) := do
  let poolConfig ← under databaseConnectionPrefix (driver.parseConfig cfg.database.url)
  return {
    maxConns := cfg.database.maxConnections
    minConns := cfg.database.minConnections
    maxConnIdleTime := cfg.database.maxConnectionIdle
    maxConnLifetime := cfg.database.maxConnectionLife
    healthCheckPeriod := cfg.database.healthCheckPeriod
    connConfig := { poolConfig.connConfig with
      statementCacheCapacity := cfg.database.statementCacheSize
      runtimeParams := Function.update
        (Function.update poolConfig.connConfig.runtimeParams connectionParameterName
          (some (lit databaseApplicationName)))
        databaseSearchPathName (some (searchPath cfg))
      tracer := match queryTracer with
        | some tracer => some tracer
        | none => poolConfig.connConfig.tracer } }

end OpenDiscogs.Configuration
