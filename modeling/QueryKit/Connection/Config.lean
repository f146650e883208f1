import QueryKit.Error
import QueryKit.Json.Decode

/-!
# Settings of a connection

- `ConnectionConfig`: the settings, each with a default.
- `ConnectionConfig.ofJson`: settings from a document that may leave out any of them. Unknown
  settings are ignored; a setting of a wrong type is a failure.
-/

namespace QueryKit

/-- The settings of a connection. -/
structure ConnectionConfig where
  dsn : String := ""
  /-- Stands for `%` in table names between braces. -/
  tablePrefix : String := ""
  /-- The data sources of the masters; without any the primary one is the master. -/
  masters : List String := []
  /-- The data sources of the replicas that serve reads. -/
  slaves : List String := []
  enableSlaves : Bool := true
  shuffleMasters : Bool := true
  enableSavepoint : Bool := true
  /-- For how many seconds a server that failed is skipped. -/
  serverRetryInterval : Nat := 600
  enableQueryCache : Bool := true
  enableSchemaCache : Bool := false
  schemaCacheExclude : List String := []
  enableLogging : Bool := true
  /-- Statements of this many bytes or more are not logged; 0 stands for no bound. -/
  maxLog : Nat := 0
  poolName : String := "db"
  /-- Connections go back to their pools after each statement outside a transaction. -/
  autoRelease : Bool := true
  /-- The most attempts at a statement, whatever the retry handler says. -/
  maxRetryCeiling : Option Nat := none
  maxConnections : Nat := 10
deriving Inhabited

namespace ConnectionConfig

/-- The names of the settings in a document. -/
def names : List String :=
  ["dsn", "table_prefix", "masters", "slaves", "enable_slaves", "shuffle_masters",
    "enable_savepoint", "server_retry_interval", "enable_query_cache", "enable_schema_cache",
    "schema_cache_exclude", "enable_logging", "max_log", "pool_name", "auto_release",
    "max_retry_ceiling", "max_connections"]

/-- The settings that a document gives. -/
def ofJson? (j : Json) : Option ConnectionConfig := do
  let j ← j.asRecord? names
  let names? := Json.decodeList Json.asString?
  return {
    dsn := ← j.field "dsn" Json.asString? ""
    tablePrefix := ← j.field "table_prefix" Json.asString? ""
    masters := ← j.field "masters" names? []
    slaves := ← j.field "slaves" names? []
    enableSlaves := ← j.field "enable_slaves" Json.asBool? true
    shuffleMasters := ← j.field "shuffle_masters" Json.asBool? true
    enableSavepoint := ← j.field "enable_savepoint" Json.asBool? true
    serverRetryInterval := ← j.field "server_retry_interval" Json.asNat64? 600
    enableQueryCache := ← j.field "enable_query_cache" Json.asBool? true
    enableSchemaCache := ← j.field "enable_schema_cache" Json.asBool? false
    schemaCacheExclude := ← j.field "schema_cache_exclude" names? []
    enableLogging := ← j.field "enable_logging" Json.asBool? true
    maxLog := ← j.field "max_log" Json.asNat64? 0
    poolName := ← j.field "pool_name" Json.asString? "db"
    autoRelease := ← j.field "auto_release" Json.asBool? true
    maxRetryCeiling := ← j.field "max_retry_ceiling" (Json.decodeOption (Json.asNat? 32)) none
    maxConnections := ← j.field "max_connections" (Json.asNat? 32) 10 }

/-- The settings that a document gives, or the failure to read it. -/
def ofJson (j : Json) : Result ConnectionConfig :=
  match ofJson? j with
  | some config => .ok config
  | none => .error .serialization

/-- The settings as a document. -/
def toJson (c : ConnectionConfig) : Json :=
  .object (names.zip
    [.string c.dsn, .string c.tablePrefix, .ofStrings c.masters, .ofStrings c.slaves,
      .bool c.enableSlaves, .bool c.shuffleMasters, .bool c.enableSavepoint,
      .ofNat c.serverRetryInterval, .bool c.enableQueryCache, .bool c.enableSchemaCache,
      .ofStrings c.schemaCacheExclude, .bool c.enableLogging, .ofNat c.maxLog,
      .string c.poolName, .bool c.autoRelease, .ofOption .ofNat c.maxRetryCeiling,
      .ofNat c.maxConnections])

/-- Whether a message of a statement is short enough to be logged. -/
def logs (c : ConnectionConfig) (message : String) : Bool :=
  c.enableLogging && (c.maxLog == 0 || decide (message.utf8ByteSize < c.maxLog))

end ConnectionConfig

end QueryKit
