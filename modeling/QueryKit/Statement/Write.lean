import QueryKit.Compile.Query
import QueryKit.Schema.Basic

/-!
# Statements that write

- `Compiler.insert`, `update`, `delete`, `batchInsert`: each yields the text of one statement and
  binds its values. Values are brought to the kinds of the columns they go into.
- A batch insert writes its values into the text as literals.
-/

namespace QueryKit

/-- The rows of an insert: columns with their values, or the rows of a query. -/
inductive InsertSource where
  | values (pairs : List (String × Operand))
  | query (q : Query)

/-- A value brought to the kind of the column it goes into. -/
def castInto (schema : Option TableSchema) (name : String) (o : Operand) : Result Operand :=
  match schema.bind (·.column? name) with
  | some column => column.cast o
  | none => .ok o

namespace Compiler

/-- The name under which a query yields an item of its select list. -/
def selectedName (item : ColumnItem) : Result String :=
  match item.label, item.column with
  | some label, _ => .ok label
  | none, .name field =>
    match selectAlias? field.toList with
    | some (_, label) => .ok (String.ofList label)
    | none => .ok field
  | none, .expr _ => .error (.invalidArgument .namelessSelect)

/-- The quoted columns that an insert of a query's rows fills. Every column must have a name. -/
def insertSelectNames (c : Compiler) (q : Query) : Result (List String) :=
  if q.select.isEmpty || q.select.any (fun item => item.column.asName == some "*") then
    .error (.invalidArgument .namelessSelect)
  else do
    let names ← q.select.mapM selectedName
    return names.map c.dialect.quoteColumnName

/-- Bind the values of columns, each brought to the kind of its column. -/
def bindColumns (c : Compiler) (schema : Option TableSchema) :
    List (String × Operand) → Compile (List String)
  | [] => .pure []
  | (name, o) :: pairs => do
    let o ← Compile.ofResult (castInto schema name o)
    let place ← renderOperand c .bound o
    let places ← bindColumns c schema pairs
    return place :: places

/-- The columns and the rows of an insert. -/
def insertParts (c : Compiler) (source : InsertSource) (schema : Option TableSchema) :
    Compile (List String × String) :=
  match source with
  | .query q => do
    let names ← Compile.ofResult (c.insertSelectNames q)
    let sql ← renderQuery c q
    return (names, " " ++ sql)
  | .values [] => .pure ([], " DEFAULT VALUES")
  | .values pairs => do
    let places ← bindColumns c schema pairs
    return (pairs.map fun p => c.dialect.quoteColumnName p.1,
      " VALUES (" ++ Text.joinWith ", " places ++ ")")

/-- Overwrite every inserted column of a row that exists. -/
def overwriteText (names : List String) : String :=
  " ON DUPLICATE KEY UPDATE " ++
    Text.joinWith ", " (names.map fun n => n ++ "=VALUES(" ++ n ++ ")")

/-- An INSERT; with `overwrite`, existing rows take the new values. -/
def insert (c : Compiler) (table : String) (source : InsertSource) (schema : Option TableSchema)
    (overwrite : Bool) : Compile String := do
  let (names, values) ← c.insertParts source schema
  let columns := if names.isEmpty then "" else " (" ++ Text.joinWith ", " names ++ ")"
  let suffix := if overwrite && !names.isEmpty then overwriteText names else ""
  return "INSERT INTO " ++ c.dialect.quoteTableName table ++ columns ++ values ++ suffix

/-- The assignments of an update. -/
def updateSets (c : Compiler) (schema : Option TableSchema) :
    List (String × Operand) → Compile (List String)
  | [] => .pure []
  | (name, o) :: pairs => do
    let o ← Compile.ofResult (castInto schema name o)
    let place ← renderOperand c .bound o
    let sets ← updateSets c schema pairs
    return (c.dialect.quoteColumnName name ++ "=" ++ place) :: sets

/-- A statement with a WHERE clause behind it, if the condition has a text. -/
def withWhere (c : Compiler) (sql : String) (condition : Operand) : Compile String := do
  let text ← renderOperand c .condition condition
  return if text = "" then sql else sql ++ " WHERE " ++ text

/-- An UPDATE. -/
def update (c : Compiler) (table : String) (columns : List (String × Operand))
    (condition : Operand) (schema : Option TableSchema) : Compile String := do
  let sets ← c.updateSets schema columns
  c.withWhere
    ("UPDATE " ++ c.dialect.quoteTableName table ++ " SET " ++ Text.joinWith ", " sets) condition

/-- A DELETE. -/
def delete (c : Compiler) (table : String) (condition : Operand) : Compile String :=
  c.withWhere ("DELETE FROM " ++ c.dialect.quoteTableName table) condition

/-- One cell of a batch insert: a literal, or an expression. -/
def batchCell (c : Compiler) : Operand → Compile String
  | .value v => .pure (c.literal v)
  | .expr e => renderExpression c e
  | _ => .fault .batchValue

/-- The cells of a row; cells beyond the named columns are taken as they are. -/
def batchRow (c : Compiler) (schema : Option TableSchema) :
    List String → List Operand → Compile (List String)
  | _, [] => .pure []
  | [], o :: os => do
    let cell ← c.batchCell o
    let cells ← batchRow c schema [] os
    return cell :: cells
  | name :: names, o :: os => do
    let o ← Compile.ofResult (castInto schema name o)
    let cell ← c.batchCell o
    let cells ← batchRow c schema names os
    return cell :: cells

def batchRows (c : Compiler) (schema : Option TableSchema) (columns : List String) :
    List (List Operand) → Compile (List String)
  | [] => .pure []
  | row :: rows => do
    let cells ← c.batchRow schema columns row
    let tuples ← batchRows c schema columns rows
    return ("(" ++ Text.joinWith ", " cells ++ ")") :: tuples

/-- One INSERT for many rows, with the values in its text. Without rows there is no statement. -/
def batchInsert (c : Compiler) (table : String) (columns : List String)
    (rows : List (List Operand)) (schema : Option TableSchema) : Compile String :=
  if rows.isEmpty then .pure ""
  else do
    let tuples ← c.batchRows schema columns rows
    return "INSERT INTO " ++ c.dialect.quoteTableName table ++ " (" ++
      Text.joinWith ", " (columns.map c.dialect.quoteColumnName) ++ ") VALUES " ++
      Text.joinWith ", " tuples

end Compiler

end QueryKit
