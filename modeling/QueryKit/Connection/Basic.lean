import QueryKit.Cache.Memory
import QueryKit.Compile.Query
import QueryKit.Connection.Config
import QueryKit.Connection.Dsn
import QueryKit.Dialect.Quoting
import QueryKit.Retry

/-!
# Connections

A connection is one logical database: a primary server, or masters that take its place, and replicas
that serve reads.

- `Pool`: the source of the physical connections to one server.
- `Connection`: the settings and the servers, with what follows from them.
- `Connection.build`: a connection from its settings. It needs the name of a data source with a
  driver in it.
-/

namespace QueryKit

/-- The place of a server in a connection. -/
inductive PoolId where
  | primary
  | master (index : Nat)
  | replica (index : Nat)
deriving DecidableEq, Repr

/-- The source of the physical connections to a server. -/
structure Pool where
  id : PoolId
  dsn : String
deriving DecidableEq, Repr

/-- Whether a server takes writes. -/
def Pool.isMain (p : Pool) : Bool :=
  match p.id with
  | .replica _ => false
  | _ => true

/-- A logical database. -/
structure Connection where
  config : ConnectionConfig
  dsn : String
  driver : String
  dialect : Dialect
  primary : Option Pool
  masters : List Pool
  replicas : List Pool
  retry : Option RetryHandler
  /-- The capacity of the query cache, if there is one. -/
  cacheCapacity : Option Nat

/-- What a connection is made of. -/
structure ConnectionParts where
  config : ConnectionConfig
  primary : Option String
  masters : List String
  replicas : List String
  /-- The dialect to use in place of the driver's. -/
  dialect : Option Dialect
  retry : Option RetryHandler
  /-- The capacity of the query cache to use in place of the standard one. -/
  cacheCapacity : Option Nat

namespace Connection

/-- The data source of a connection: the settings', or else the first server's. -/
def sourceOf (parts : ConnectionParts) : Result String :=
  if parts.config.dsn ≠ "" then .ok parts.config.dsn
  else
    match parts.primary.or parts.masters.head? with
    | some dsn => .ok dsn
    | none => .error (.invalidArgument .noDsn)

/-- The pools of servers of one kind. -/
def numberedPools (id : Nat → PoolId) (dsns : List String) : List Pool :=
  dsns.zipIdx.map fun (dsn, i) => ⟨id i, dsn⟩

/-- A connection from its parts. -/
def build (parts : ConnectionParts) : Result Connection := do
  let dsn ← sourceOf parts
  match Dsn.driver? dsn with
  | none => .error (.invalidArgument (.malformedDsn (Dsn.short dsn)))
  | some driver =>
    return {
      config := parts.config
      dsn, driver
      dialect := parts.dialect.getD (.ofDriver driver)
      primary := parts.primary.map (Pool.mk .primary)
      masters := numberedPools .master parts.masters
      replicas := numberedPools .replica parts.replicas
      retry := parts.retry
      cacheCapacity := parts.cacheCapacity.or
        (if parts.config.enableQueryCache then some MemoryCache.standardCapacity else none) }

/-- The name of the data source as it is logged. -/
def shortDsn (c : Connection) : String :=
  Dsn.short c.dsn

/-- Nested transactions need a dialect with savepoints, and may be switched off. -/
def supportsSavepoint (c : Connection) : Bool :=
  c.config.enableSavepoint && c.dialect.supportsSavepoint

/-- Expand the quoting tokens of a text. -/
def quoteSql (c : Connection) (sql : String) : String :=
  c.dialect.quoteTokens c.config.tablePrefix sql

def compiler (c : Connection) : Compiler :=
  .ofDialect c.dialect

/-- The pools of a connection. -/
def pools (c : Connection) : List Pool :=
  c.primary.toList ++ c.masters ++ c.replicas

end Connection

end QueryKit
