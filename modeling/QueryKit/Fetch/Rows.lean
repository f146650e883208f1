import QueryKit.Command.Fetch
import QueryKit.Query.Aggregate
import QueryKit.Query.Keyed
import QueryKit.Query.Tables

/-!
# Running queries

Each operation compiles a query, runs it as a command of the session and returns what a caller wants
of its rows: all of them, the first one, a cell, a column, an aggregate. A query whose execution is
emulated touches no connection and has no rows.
-/

namespace QueryKit.Client

variable {σ α : Type} (c : Client σ)

/-- A command for a statement with the settings of a query. -/
def commandFor (q : Query) (built : String × Params) : Command :=
  ((Command.create c.connection built.1).bindValues built.2).withReading q.share q.cache

/-- Compile a query into a command. -/
def command (q : Query) : Run σ Command := do
  let built ← Run.ofResult (c.connection.compiler.build q .empty)
  return c.commandFor q built

/-- Take the result of an operation on a command that is not needed any more. -/
def resultOf (x : Run σ (Result α × Command)) : Run σ α := do
  let (result, _) ← x
  Run.ofResult result

/-- Run a query, unless its execution is emulated. -/
def fetching (q : Query) (emulated : α) (read : Command → Run σ (Result α × Command)) :
    Run σ α := do
  if q.emulateExecution then return emulated
  else resultOf (read (← c.command q))

def all (q : Query) : Run σ (List Row) :=
  c.fetching q [] c.queryAll

/-- The rows under their keys. -/
def allIndexed (q : Query) : Run σ (List (String × Row)) := do
  return q.populate (← c.all q)

/-- The first row. -/
def one (q : Query) : Run σ (Option Row) :=
  c.fetching (q.withLimit (some 1)) none c.queryOne

/-- The rows as structures. -/
def allAs (decode : Row → Result α) (q : Query) : Run σ (List α) := do
  Run.ofResult ((← c.all q).mapM decode)

/-- The first row as a structure. -/
def oneAs (decode : Row → Result α) (q : Query) : Run σ (Option α) := do
  match ← c.one q with
  | none => return none
  | some row => return some (← Run.ofResult (decode row))

/-- The first cell of the first row. -/
def scalar (q : Query) : Run σ (Option Value) :=
  c.fetching q none c.queryScalar

/-- The first cell of each row. -/
def column (q : Query) : Run σ (List Value) :=
  c.fetching q [] c.queryColumn

/-! ## Keyed columns -/

/-- A query that also selects the column of its keys, if it selects one column. The column of the
first table is meant, unless a table is named. -/
def withKeyColumn (q : Query) (key : String) : Result Query := do
  if q.select.length = 1 then
    let tables ← q.tablesUsed
    let name := match tables with
      | (label, _) :: _ => if Text.hasChar '.' key then key else label ++ "." ++ key
      | [] => key
    return { q with select := q.select ++ [.ofName name] }
  else return q

/-- The first cells under the keys of their rows. -/
def columnIndexed (q : Query) : Run σ (List (String × Value)) := do
  if q.emulateExecution then return []
  else
    match q.indexBy with
    | none => return numbered (← c.column q)
    | some index =>
      let q ← Run.ofResult (match index with
        | .column key => withKeyColumn q key
        | .closure _ => .ok q)
      let rows ← resultOf (c.queryAll (← c.command q))
      return keyed (rows.map fun row => (index.key row, row.first?.getD .null))

/-! ## Aggregates -/

/-- The value of an expression over the rows of a query. -/
def aggregate (q : Query) (function argument : String) : Run σ (Option Value) := do
  if q.emulateExecution then return none
  else
    let q := q.scalarQuery (function ++ "(" ++ argument ++ ")")
    resultOf (c.queryScalar (← c.command q))

/-- The number of rows; what is not a number counts as 0. -/
def count (q : Query) (argument : String) : Run σ Int64 := do
  return ((← c.aggregate q "COUNT" argument).bind Value.asInt64).getD 0

def sum (q : Query) (argument : String) : Run σ Double := do
  return ((← c.aggregate q "SUM" argument).bind Value.asDouble).getD (.zero false)

def average (q : Query) (argument : String) : Run σ Double := do
  return ((← c.aggregate q "AVG" argument).bind Value.asDouble).getD (.zero false)

def least (q : Query) (argument : String) : Run σ (Option Value) :=
  c.aggregate q "MIN" argument

def greatest (q : Query) (argument : String) : Run σ (Option Value) :=
  c.aggregate q "MAX" argument

/-- Whether a query has rows. -/
def hasRows (q : Query) : Run σ Bool := do
  if q.emulateExecution then return false
  else
    let (sql, params) ← Run.ofResult (c.connection.compiler.build q .empty)
    let found ← resultOf (c.queryScalar (c.commandFor q (selectExistsText sql, params)))
    return (found.bind Value.asBool).getD false

end QueryKit.Client
