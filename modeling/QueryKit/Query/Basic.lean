import QueryKit.Condition.LikeEscape
import QueryKit.Operator
import QueryKit.Params
import QueryKit.Row

/-!
# The query model

One family of types describes everything that compiles to a piece of a statement.

- `Operand`: a node of the condition language. A list that begins with an operator is the operator
  form; a map is the hash form, column by column.
- `Expression`: a fragment of a statement: raw text, a value with a forced type, an array, a
  document, a subquery or a condition.
- `Condition`: a condition with its parts told apart.
- `Query`: a SELECT statement, clause by clause, with the settings of its execution.
-/

namespace QueryKit

/-- The kinds of joins. -/
inductive JoinType where
  | inner
  | left
  | right
  | full
  | cross
deriving DecidableEq, Repr

inductive SortDirection where
  | asc
  | desc
deriving DecidableEq, Repr

/-- How the result of a read is cached. -/
structure CachePolicy where
  /-- Seconds to live; without a limit an entry stays until it is evicted. -/
  ttl : Option Nat
  /-- The cache to use in place of the connection's. -/
  own : Option Nat
deriving DecidableEq, Repr

/-- How the rows of a result are keyed. -/
inductive IndexBy where
  | column (name : String)
  | closure (key : Row → String)

mutual

/-- A node of the condition language. -/
inductive Operand where
  | value (v : Value)
  | list (items : List Operand)
  | map (entries : List (String × Operand))
  | expr (e : Expression)

/-- A fragment of a statement. -/
inductive Expression where
  | raw (sql : String) (params : Params)
  | typed (v : Value) (type : ParamType)
  | arrayOfValues (values : List Value) (elementType : Option String) (dimension : Nat)
  | arrayOfQuery (q : Query) (elementType : Option String) (dimension : Nat)
  | json (j : Json) (jsonType : Option String)
  | query (q : Query)
  | condition (c : Condition)

/-- A condition of a WHERE or HAVING clause. -/
inductive Condition where
  /-- Columns with the values they must have. -/
  | hash (entries : List (String × Operand))
  | simple (column : Operand) (operator : Operator) (v : Operand)
  | not (condition : Operand)
  | conjunction (c : Conjunction) (operands : List Operand)
  | between (column : Operand) (negated : Bool) (low high : Operand)
  /-- A column, or a list of columns, among values or the rows of a subquery. -/
  | isIn (column : Operand) (negated : Bool) (values : Operand)
  | like (column : Operand) (negated : Bool) (combine : Conjunction) (values : Operand)
      (escape : LikeEscape)
  | isExists (negated : Bool) (q : Query)

/-- A column or table: a name, or an expression such as a subquery. -/
inductive Column where
  | name (n : String)
  | expr (e : Expression)

/-- A column of a select list, or a table of a FROM clause. -/
structure ColumnItem where
  label : Option String
  column : Column

/-- An item of an ORDER BY clause; an expression ignores the direction. -/
structure OrderItem where
  column : Column
  direction : SortDirection

structure Join where
  type : JoinType
  table : ColumnItem
  on : Option Operand

/-- A member of a UNION. -/
structure UnionMember where
  query : Query
  all : Bool

/-- A SELECT statement and the settings of its execution. -/
structure Query where
  select : List ColumnItem
  selectOption : Option String
  distinct : Bool
  tables : List ColumnItem
  joins : List Join
  condition : Option Operand
  groupBy : List Column
  having : Option Operand
  orderBy : List OrderItem
  limit : Option Nat
  offset : Option Nat
  unions : List UnionMember
  params : Params
  indexBy : Option IndexBy
  cache : Option CachePolicy
  share : Bool
  emulateExecution : Bool

end

namespace Query

/-- The query without any clause. -/
def empty : Query where
  select := []
  selectOption := none
  distinct := false
  tables := []
  joins := []
  condition := none
  groupBy := []
  having := none
  orderBy := []
  limit := none
  offset := none
  unions := []
  params := .empty
  indexBy := none
  cache := none
  share := false
  emulateExecution := false

end Query

instance : Inhabited Query := ⟨.empty⟩

instance : Inhabited Operand := ⟨.value .null⟩

namespace Expression

/-- Raw text without parameters. -/
def text (sql : String) : Expression :=
  .raw sql .empty

/-- The subquery that an expression is. -/
def asQuery : Expression → Option Query
  | .query q => some q
  | _ => none

end Expression

namespace Operand

def null : Operand :=
  .value .null

def string (s : String) : Operand :=
  .value (.string s)

/-- Whether an operand holds nothing; the filtering verbs drop such operands. -/
def isEmpty : Operand → Bool
  | .value v => v.isBlank
  | .list items => items.isEmpty
  | .map entries => entries.isEmpty
  | .expr _ => false

def isNull : Operand → Bool
  | .value v => v.isNull
  | _ => false

def asString : Operand → Option String
  | .value v => v.asString
  | _ => none

def asQuery : Operand → Option Query
  | .expr e => e.asQuery
  | _ => none

/-- The value that an operand is. -/
def asValue : Operand → Option Value
  | .value v => some v
  | _ => none

mutual

/-- Every raw string of an operand in order, the keys of maps included. -/
def strings : Operand → List String
  | .value (.string s) => [s]
  | .value _ => []
  | .list items => itemStrings items
  | .map entries => entryStrings entries
  | .expr (.raw sql _) => [sql]
  | .expr _ => []

def itemStrings : List Operand → List String
  | [] => []
  | o :: os => strings o ++ itemStrings os

def entryStrings : List (String × Operand) → List String
  | [] => []
  | (k, o) :: es => k :: (strings o ++ entryStrings es)

end

mutual

/-- The operand that a document writes: arrays are lists and objects are maps. -/
def ofJson : Json → Operand
  | .array items => .list (itemsOfJson items)
  | .object members => .map (entriesOfJson members)
  | .null => .value .null
  | .bool b => .value (.bool b)
  | .number n => .value (Value.ofJsonNumber n)
  | .string s => .value (.string s)

def itemsOfJson : List Json → List Operand
  | [] => []
  | j :: js => ofJson j :: itemsOfJson js

def entriesOfJson : List (String × Json) → List (String × Operand)
  | [] => []
  | (k, j) :: ms => (k, ofJson j) :: entriesOfJson ms

end

end Operand

namespace Column

def asName : Column → Option String
  | .name n => some n
  | .expr _ => none

end Column

namespace IndexBy

/-- The key of a row. A missing cell gives the empty key. -/
def key (i : IndexBy) (row : Row) : String :=
  match i with
  | .column name => ((row.get? name).map Value.toPlainString).getD ""
  | .closure f => f row

end IndexBy

end QueryKit
