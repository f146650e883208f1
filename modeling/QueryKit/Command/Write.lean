import QueryKit.Command.Run
import QueryKit.Statement.Definition
import QueryKit.Statement.Upsert

/-!
# Commands that write

- `Command.define`: a command for a change of the structure of the database.
- `Client.insert`, `update`, `delete`, `batchInsert`, `upsert`: a command for a statement that writes
  rows. The schema of the table is loaded first, because values are brought to the kinds of their
  columns. When one fails the command stays as it was.
-/

namespace QueryKit

namespace Command

/-- Take the statement of a definition. -/
def define (conn : Connection) (cmd : Command) (d : Definition) : Result Command := do
  let sql ← d.sql conn.compiler
  let cmd := if d.isComplete then cmd.setRawSql sql else cmd.setSql conn sql
  return { cmd with refreshTable := d.changes.or cmd.refreshTable }

/-- Take a statement that deletes rows. -/
def delete (conn : Connection) (cmd : Command) (table : String) (condition : Operand)
    (params : Params) : Result Command := do
  let built ← (conn.compiler.delete table condition).into params
  return cmd.setBuilt conn built

end Command

namespace Client

variable {σ : Type} (c : Client σ)

/-- Take a statement that is built with the schema of a table. -/
def buildWith (cmd : Command) (table : String)
    (build : Option TableSchema → Result (String × Params)) : Run σ Command := do
  let schema ← c.tableSchema table
  let built ← Run.ofResult (build schema)
  return cmd.setBuilt c.connection built

/-- Take a statement that inserts a row or the rows of a query. -/
def insert (cmd : Command) (table : String) (source : InsertSource) (withUpdate : Bool) :
    Run σ Command :=
  c.buildWith cmd table fun schema =>
    (c.connection.compiler.insert table source schema withUpdate).run

/-- Take a statement that updates rows. -/
def update (cmd : Command) (table : String) (columns : List (String × Operand))
    (condition : Operand) (params : Params) : Run σ Command :=
  c.buildWith cmd table fun schema =>
    (c.connection.compiler.update table columns condition schema).into params

/-- Take a statement that inserts a row or updates the one that is there. -/
def upsert (cmd : Command) (table : String) (source : InsertSource) (update : UpsertUpdate)
    (params : Params) : Run σ Command :=
  c.buildWith cmd table fun schema =>
    (c.connection.compiler.upsert table source update schema).into params

/-- Take a statement that inserts many rows. Its text holds the values, so it is taken as it is. -/
def batchInsert (cmd : Command) (table : String) (columns : List String)
    (rows : List (List Operand)) : Run σ Command := do
  let schema ← c.tableSchema table
  let (sql, params) ← Run.ofResult
    (c.connection.compiler.batchInsert table columns rows schema).run
  return { cmd.setRawSql sql with params }

/-- Take a statement that resets the sequence of a table, of which the cached schema tells the
names. -/
def resetSequence (cmd : Command) (table : String) (value : Option Int) : Run σ Command := do
  let schema := (← Run.state).schemas.get? table
  Run.ofResult (cmd.define c.connection
    (.resetSequence table (schema.bind (·.sequenceName)) (schema.bind (·.primaryKey.head?)) value))

end Client

end QueryKit
