import QueryKit.Condition.OperandForm
import QueryKit.Query.Columns

/-!
# Building queries clause by clause

- `withSelect`, `addSelect`: the select list. A plain column that is selected already is skipped.
- `where_`, `andWhere`, `orWhere` and their `having` twins: conditions. AND extends a list that
  begins with AND; OR wraps what is there.
- The `filter` twins of these drop the parts of a condition whose values are empty.
-/

namespace QueryKit

namespace Column

/-- Whether two columns have one name. An expression is the same as nothing. -/
def sameAs : Column → Column → Bool
  | .name a, .name b => a == b
  | _, _ => false

end Column

namespace Query

/-! ## The select list -/

/-- Whether a column of `selected` has the alias and the name of an item. -/
def isSelected (selected : List ColumnItem) (item : ColumnItem) : Bool :=
  selected.any fun s => s.label == item.label && s.column.sameAs item.column

/-- The columns of a list that are not selected yet. A column without an alias is also skipped when
the list itself has it already. -/
def uniqueColumns (selected : List ColumnItem) (columns : List ColumnItem) : List ColumnItem :=
  columns.foldl
    (fun kept item =>
      let seen := if item.label.isSome then selected else selected ++ kept
      if isSelected seen item then kept else kept ++ [item])
    []

/-- Replace the select list. -/
def withSelect (q : Query) (columns : List ColumnItem) : Query :=
  { q with select := uniqueColumns [] columns }

/-- Append columns to the select list, skipping those already there. -/
def addSelect (q : Query) (columns : List ColumnItem) : Query :=
  { q with select := q.select ++ uniqueColumns q.select columns }

/-! ## Tables -/

/-- Replace the tables. -/
def from_ (q : Query) (tables : List ColumnItem) : Query :=
  { q with tables }

/-- Add a table or a subquery under an alias. -/
def fromAliased (q : Query) (label : String) (table : Column) : Query :=
  { q with tables := q.tables ++ [⟨some label, table⟩] }

/-- Add a join; an empty condition is no condition. -/
def join (q : Query) (type : JoinType) (table : ColumnItem) (on : Operand) : Query :=
  { q with joins := q.joins ++ [⟨type, table, if on.isEmpty then none else some on⟩] }

/-! ## Conditions -/

/-- Whether an operand list begins with the word AND. -/
def beginsWithAnd (items : List Operand) : Bool :=
  (items.head?.bind Operand.asString).any fun s => Text.eqIgnoreCase s "and"

/-- A condition that holds where both do. -/
def conjoin (old : Option Operand) (new : Operand) : Operand :=
  match old with
  | none => new
  | some (.list items) =>
    if beginsWithAnd items then .list (items ++ [new])
    else .list [.string "and", .list items, new]
  | some old => .list [.string "and", old, new]

/-- A condition that holds where one of two does. -/
def disjoin (old : Option Operand) (new : Operand) : Operand :=
  match old with
  | none => new
  | some old => .list [.string "or", old, new]

def where_ (q : Query) (o : Operand) : Query :=
  { q with condition := some o }

def andWhere (q : Query) (o : Operand) : Query :=
  { q with condition := some (conjoin q.condition o) }

def orWhere (q : Query) (o : Operand) : Query :=
  { q with condition := some (disjoin q.condition o) }

def withHaving (q : Query) (o : Operand) : Query :=
  { q with having := some o }

def andHaving (q : Query) (o : Operand) : Query :=
  { q with having := some (conjoin q.having o) }

def orHaving (q : Query) (o : Operand) : Query :=
  { q with having := some (disjoin q.having o) }

/-- Apply a verb to what filtering leaves of a condition; an empty condition changes nothing. -/
def filtered (verb : Query → Operand → Query) (q : Query) (o : Operand) : Query :=
  if o.filter.isEmpty then q else verb q o.filter

def filterWhere : Query → Operand → Query := filtered where_

def andFilterWhere : Query → Operand → Query := filtered andWhere

def orFilterWhere : Query → Operand → Query := filtered orWhere

def filterHaving : Query → Operand → Query := filtered withHaving

def andFilterHaving : Query → Operand → Query := filtered andHaving

def orFilterHaving : Query → Operand → Query := filtered orHaving

/-- The comparison operator at the start of a text, and the rest. -/
def splitCompare : List Char → Option (List Char × List Char)
  | '<' :: '>' :: r => some (['<', '>'], r)
  | '>' :: '=' :: r => some (['>', '='], r)
  | '>' :: r => some (['>'], r)
  | '<' :: '=' :: r => some (['<', '='], r)
  | '<' :: r => some (['<'], r)
  | '=' :: r => some (['='], r)
  | _ => none

/-- Compare a column with a value that may begin with its operator, such as `>=10`. -/
def andFilterCompare (q : Query) (name value defaultOperator : String) : Query :=
  let (op, value) :=
    match splitCompare value.toList with
    | some (op, rest) => (String.ofList op, String.ofList rest)
    | none => (defaultOperator, value)
  q.andFilterWhere (.list [.string op, .string name, .string value])

/-! ## The other clauses -/

def withGroupBy (q : Query) (columns : List ColumnItem) : Query :=
  { q with groupBy := columns.map (·.column) }

def addGroupBy (q : Query) (columns : List ColumnItem) : Query :=
  { q with groupBy := q.groupBy ++ columns.map (·.column) }

def withOrderBy (q : Query) (items : List OrderItem) : Query :=
  { q with orderBy := items }

def addOrderBy (q : Query) (items : List OrderItem) : Query :=
  { q with orderBy := q.orderBy ++ items }

def withLimit (q : Query) (limit : Option Nat) : Query :=
  { q with limit }

def withOffset (q : Query) (offset : Option Nat) : Query :=
  { q with offset }

/-- Add a member to the UNION. -/
def union (q : Query) (member : Query) (all : Bool) : Query :=
  { q with unions := q.unions ++ [⟨member, all⟩] }

def addParams (q : Query) (params : Params) : Query :=
  { q with params := q.params.extend params }

/-- Bind a named parameter. -/
def param (q : Query) (name : String) (v : Value) : Query :=
  { q with params := q.params.set name (.ofValue v) }

/-- Cache the result; without a limit it never expires. -/
def withCache (q : Query) (ttl : Option Nat) : Query :=
  { q with cache := some ⟨ttl, none⟩ }

end Query

end QueryKit
