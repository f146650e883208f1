import QueryKit.Error

/-!
# Dialects

- `Dialect`: the databases with syntax of their own, and a generic one for every other driver.
- The tables of their differences: quotes, placeholders, column types, transaction statements.
- `Dialect.ofDriver`: the dialect of a driver's name, letter case ignored.
-/

namespace QueryKit

/-- A kind of database. The generic dialect remembers the driver's name. -/
inductive Dialect where
  | generic (driver : String)
  | mysql
  | postgres
  | sqlite
deriving DecidableEq, Repr

/-- How an insert is told what to do with an existing row. -/
inductive UpsertSyntax where
  | onDuplicateKey
  | onConflict
deriving DecidableEq, Repr

/-- Transaction isolation levels. -/
inductive IsolationLevel where
  | readUncommitted
  | readCommitted
  | repeatableRead
  | serializable
deriving DecidableEq, Repr

namespace IsolationLevel

def sql : IsolationLevel → String
  | readUncommitted => "READ UNCOMMITTED"
  | readCommitted => "READ COMMITTED"
  | repeatableRead => "REPEATABLE READ"
  | serializable => "SERIALIZABLE"

def name : IsolationLevel → String
  | readUncommitted => "ReadUncommitted"
  | readCommitted => "ReadCommitted"
  | repeatableRead => "RepeatableRead"
  | serializable => "Serializable"

def all : List IsolationLevel :=
  [readUncommitted, readCommitted, repeatableRead, serializable]

def ofName? (name : String) : Option IsolationLevel :=
  all.find? fun level => level.name == name

end IsolationLevel

namespace Dialect

/-- The dialect of a driver. -/
def ofDriver (driver : String) : Dialect :=
  let name := String.ofList (driver.toList.map Char.toLower)
  if name = "mysql" ∨ name = "mariadb" then mysql
  else if name = "pgsql" ∨ name = "postgres" ∨ name = "postgresql" then postgres
  else if name = "sqlite" then sqlite
  else generic name

/-- The name of the family of servers that speak a dialect. -/
def family : Dialect → String
  | .generic _ => "Generic"
  | .mysql => "MySql"
  | .postgres => "Postgres"
  | .sqlite => "Sqlite"

def driverName : Dialect → String
  | generic driver => driver
  | mysql => "mysql"
  | postgres => "pgsql"
  | sqlite => "sqlite"

/-- The quote around identifiers. -/
def quoteChar : Dialect → Char
  | mysql | sqlite => '\x60'
  | _ => '"'

/-- Whether a backslash protects the next character inside quotes. -/
def backslashEscapes : Dialect → Bool
  | mysql => true
  | _ => false

/-- The placeholder of the parameter at a place, counted from one. -/
def placeholder (d : Dialect) (place : Nat) : String :=
  match d with
  | postgres => "$" ++ Nat.repr place
  | _ => "?"

/-- The physical types of the abstract column types. -/
def typeMap : Dialect → List (String × String)
  | generic _ => []
  | mysql =>
    [("pk", "int(11) NOT NULL AUTO_INCREMENT PRIMARY KEY"),
      ("upk", "int(10) UNSIGNED NOT NULL AUTO_INCREMENT PRIMARY KEY"),
      ("bigpk", "bigint(20) NOT NULL AUTO_INCREMENT PRIMARY KEY"),
      ("ubigpk", "bigint(20) UNSIGNED NOT NULL AUTO_INCREMENT PRIMARY KEY"),
      ("char", "char(1)"), ("string", "varchar(255)"), ("text", "text"),
      ("tinyint", "tinyint(3)"), ("smallint", "smallint(6)"), ("integer", "int(11)"),
      ("bigint", "bigint(20)"), ("float", "float"), ("double", "double"),
      ("decimal", "decimal(10,0)"), ("datetime", "datetime"), ("timestamp", "timestamp"),
      ("time", "time"), ("date", "date"), ("binary", "blob"), ("boolean", "tinyint(1)"),
      ("money", "decimal(19,4)"), ("json", "json")]
  | postgres =>
    [("pk", "serial NOT NULL PRIMARY KEY"), ("upk", "serial NOT NULL PRIMARY KEY"),
      ("bigpk", "bigserial NOT NULL PRIMARY KEY"), ("ubigpk", "bigserial NOT NULL PRIMARY KEY"),
      ("char", "char(1)"), ("string", "varchar(255)"), ("text", "text"),
      ("tinyint", "smallint"), ("smallint", "smallint"), ("integer", "integer"),
      ("bigint", "bigint"), ("float", "double precision"), ("double", "double precision"),
      ("decimal", "numeric(10,0)"), ("datetime", "timestamp(0)"), ("timestamp", "timestamp(0)"),
      ("time", "time(0)"), ("date", "date"), ("binary", "bytea"), ("boolean", "boolean"),
      ("money", "numeric(19,4)"), ("json", "jsonb")]
  | sqlite =>
    [("pk", "integer PRIMARY KEY AUTOINCREMENT NOT NULL"),
      ("upk", "integer UNSIGNED PRIMARY KEY AUTOINCREMENT NOT NULL"),
      ("bigpk", "integer PRIMARY KEY AUTOINCREMENT NOT NULL"),
      ("ubigpk", "integer UNSIGNED PRIMARY KEY AUTOINCREMENT NOT NULL"),
      ("char", "char(1)"), ("string", "varchar(255)"), ("text", "text"),
      ("tinyint", "tinyint"), ("smallint", "smallint"), ("integer", "integer"),
      ("bigint", "bigint"), ("float", "float"), ("double", "double"),
      ("decimal", "decimal(10,0)"), ("datetime", "datetime"), ("timestamp", "timestamp"),
      ("time", "time"), ("date", "date"), ("binary", "blob"), ("boolean", "boolean"),
      ("money", "decimal(19,4)"), ("json", "text")]

/-- Every dialect of this library has savepoints. -/
def supportsSavepoint (_ : Dialect) : Bool :=
  true

def beginSql : Dialect → String
  | mysql => "START TRANSACTION"
  | _ => "BEGIN"

/-- The statement that sets the isolation level of a transaction. -/
def isolationSql (d : Dialect) (level : IsolationLevel) : Result String :=
  match d, level with
  | sqlite, .serializable => .ok "PRAGMA read_uncommitted = False;"
  | sqlite, .readUncommitted => .ok "PRAGMA read_uncommitted = True;"
  | sqlite, _ => .error (.unsupported .isolationLevel)
  | _, level => .ok ("SET TRANSACTION ISOLATION LEVEL " ++ level.sql)

/-- What follows each part of a LIKE condition. -/
def likeEscapeSql : Dialect → String
  | sqlite => " ESCAPE '\\'"
  | _ => ""

def upsertSyntax : Dialect → Option UpsertSyntax
  | generic _ => none
  | mysql => some .onDuplicateKey
  | postgres | sqlite => some .onConflict

end Dialect

end QueryKit
