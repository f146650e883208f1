import QueryKit.Connection.Basic
import QueryKit.Params.Placeholder

/-!
# Commands

A command is one statement with the values bound to its placeholders.

- `Command.setSql`, `Command.setRawSql`: another statement. A different text forgets the values and
  the prepared form; the same text keeps them.
- `Command.prepare`: the statement with the placeholders of the dialect and the values in their
  places. It is kept until something that forgets it.
- `Command.rawSql`: the statement with its values written as literals, for logs and keys.
-/

namespace QueryKit

/-- A statement as it is sent to a server. -/
structure Prepared where
  sql : String
  values : List Value

/-- A statement with its values. -/
structure Command where
  sql : String
  params : Params
  cache : Option CachePolicy
  share : Bool
  /-- The table whose definition the statement changes. -/
  refreshTable : Option String
  prepared : Option Prepared

namespace Command

def empty : Command where
  sql := ""
  params := .empty
  cache := none
  share := false
  refreshTable := none
  prepared := none

/-- Forget the prepared form; the values stay bound. -/
def cancel (cmd : Command) : Command :=
  { cmd with prepared := none }

/-- Replace the statement by a text as it is. -/
def setRawSql (cmd : Command) (sql : String) : Command :=
  if sql = cmd.sql then cmd
  else { cmd with sql, params := .empty, refreshTable := none, prepared := none }

/-- Replace the statement by a text whose quoting tokens are expanded. -/
def setSql (conn : Connection) (cmd : Command) (sql : String) : Command :=
  cmd.setRawSql (conn.quoteSql sql)

/-- A command for a statement. -/
def create (conn : Connection) (sql : String) : Command :=
  empty.setSql conn sql

/-- Bind a named value. -/
def bindValue (cmd : Command) (name : String) (v : Value) : Command :=
  { cmd with params := cmd.params.set name (.ofValue v), prepared := none }

/-- Bind a value to the next placeholder. -/
def bindPositional (cmd : Command) (v : Value) : Command :=
  { cmd with params := cmd.params.push (.ofValue v), prepared := none }

/-- Bind the values of a list of parameters. -/
def bindValues (cmd : Command) (params : Params) : Command :=
  { cmd with params := cmd.params.extend params, prepared := none }

/-- The settings of a read. -/
def withReading (cmd : Command) (share : Bool) (cache : Option CachePolicy) : Command :=
  { cmd with share, cache }

/-- A value as it is shown in logs. -/
def shownLiteral (conn : Connection) (v : Value) : String :=
  match v with
  | .bool b => if b then "TRUE" else "FALSE"
  | v => conn.compiler.literal v

/-- The statement with its values written as literals. A statement that misses values is shown as
it is. -/
def rawSql (conn : Connection) (cmd : Command) : String :=
  if cmd.params.size = 0 then cmd.sql
  else
    match cmd.params.bindSql cmd.sql conn.dialect.backslashEscapes
        (fun p _ => shownLiteral conn p.value) with
    | .ok (sql, _) => sql
    | .error _ => cmd.sql

/-- The statement with the placeholders of the dialect, and the values in their places. -/
def bound (conn : Connection) (cmd : Command) : Result Prepared := do
  let (sql, bound) ← cmd.params.bindSql cmd.sql conn.dialect.backslashEscapes
    fun _ place => conn.dialect.placeholder place
  return ⟨sql, bound.map (·.value)⟩

/-- The prepared form: the one that is kept, or else a new one. -/
def preparation (conn : Connection) (cmd : Command) : Result Prepared :=
  match cmd.prepared with
  | some p => .ok p
  | none => cmd.bound conn

/-- Prepare the command. -/
def prepare (conn : Connection) (cmd : Command) : Result Command := do
  let p ← cmd.preparation conn
  return { cmd with prepared := some p }

/-- Take a statement with its values from a builder. -/
def setBuilt (conn : Connection) (cmd : Command) (built : String × Params) : Command :=
  { cmd.setSql conn built.1 with params := built.2 }

/-- Take a statement that changes the definition of a table. -/
def setDefinition (conn : Connection) (cmd : Command) (sql table : String) : Command :=
  { cmd.setSql conn sql with refreshTable := some table }

end Command

end QueryKit
