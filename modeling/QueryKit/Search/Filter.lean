import QueryKit.Numeric.Decimal
import QueryKit.Query.Clauses
import QueryKit.Search.Guard
import QueryKit.Search.Verb

/-!
# Filters

A filter is a document whose entries name the clauses of a query, as in
`{"from": "user", "where": {"status": 1}, "limit": 10}`. A key that ends in `[]` applies its verb
to every item of an array.

- `applyVerb`: what a value does to a query under a verb.
- `applyEntries`: the entries of a filter in their order.
- `search`: a whole filter. In `select`, `from` and the verbs of the WHERE clause, `{"query": …}` is
  a filter of its own that makes a subquery, and `{"exp": …}` is raw text.

The definitions up to `applyEntries` take the meaning `sub` of a nested filter as an argument;
`searchWithin` ties the knot as deep as filters are nested.
-/

namespace QueryKit.Search

/-! ## Pieces of a filter -/

/-- Raw text: `"sql"`, or `["sql", {"name": value}]` with its parameters. -/
def rawExpression : Json → Result Expression
  | .string sql => do
    guardText sql
    return .raw sql .empty
  | .array [.string sql] => do
    guardText sql
    return .raw sql .empty
  | .array [.string sql, .object bound] => do
    guardText sql
    return .raw sql (bound.foldl (fun ps e => ps.set e.1 (.ofValue (.ofJson e.2))) .empty)
  | .array _ => .error (.invalidArgument .rawForm)
  | _ => .error (.invalidArgument .rawText)

/-- The direction that a document names: `"desc"` and -1 are descending. -/
def directionOf : Json → SortDirection
  | .string s => if Text.eqIgnoreCase s "desc" then .desc else .asc
  | .number n => if n.asInt64 = some (-1) then .desc else .asc
  | _ => .asc

/-- The parts of a text before and after its last blank. -/
def splitLastBlank (s : List Char) : Option (List Char × List Char) :=
  match s.reverse.dropWhile (!Text.isBlank ·) with
  | [] => none
  | _ :: before => some (before.reverse, (s.reverse.takeWhile (!Text.isBlank ·)).reverse)

/-- The parts of a list between commas, without the blanks around them; empty parts are left
out. -/
def listParts (s : String) : List (List Char) :=
  ((Text.cutAt ',' s.toList).map Text.trimChars).filter (· ≠ [])

/-- An item of an order list written as text: the last word may be a direction. -/
def orderOfPart (part : List Char) : OrderItem :=
  match splitLastBlank part with
  | some (column, word) =>
    if Text.eqIgnoreCase (String.ofList word) "desc" then
      ⟨.name (String.ofList (Text.trimChars column)), .desc⟩
    else if Text.eqIgnoreCase (String.ofList word) "asc" then
      ⟨.name (String.ofList (Text.trimChars column)), .asc⟩
    else ⟨.name (String.ofList part), .asc⟩
  | none => ⟨.name (String.ofList part), .asc⟩

/-- An order list: `"a DESC, b"` or `{"a": "desc", "b": 1}`. -/
def orderItems : Json → Result (List OrderItem)
  | .string s => .ok ((listParts s).map orderOfPart)
  | .object entries => .ok (entries.map fun e => ⟨.name e.1, directionOf e.2⟩)
  | _ => .error (.invalidArgument .orderList)

/-- A list of column names: `"a, b"` or `["a", "b"]`. -/
def nameItems : Json → Result (List ColumnItem)
  | .string s => .ok ((listParts s).map fun part => ⟨none, .name (String.ofList part)⟩)
  | .array items => items.mapM fun item =>
    match item with
    | .string name => do
      guardText name
      return ⟨none, .name name⟩
    | _ => .error (.invalidArgument .columnName)
  | _ => .error (.invalidArgument .columnList)

/-- The natural number that a text of digits writes, if it has 64 bits. A plus sign may lead. -/
def readCount (s : List Char) : Option Nat :=
  let ds := match s with
    | '+' :: r => r
    | s => s
  if ds ≠ [] ∧ ds.all Char.isDigit ∧ Decimal.valueOf ds < twoPow 64 then some (Decimal.valueOf ds)
  else none

/-- The number of a LIMIT or OFFSET clause. Nothing, a blank text and zero stand for no clause. -/
def countOf (clause : String) (j : Json) : Result (Option Nat) :=
  let positive (n : Option Nat) : Result (Option Nat) :=
    match n with
    | some n => .ok (if n = 0 then none else some n)
    | none => .error (.invalidArgument (.notPositive clause))
  match j with
  | .null => .ok none
  | .number n => positive n.asNat64
  | .string s =>
    let text := Text.trimChars s.toList
    if text = [] then .ok none else positive (readCount text)
  | _ => .error (.invalidArgument (.notPositive clause))

/-- Whether a document counts as true. -/
def isTruthy : Json → Bool
  | .null => false
  | .bool b => b
  | .number n => !n.toDouble.isZero
  | .string s => s ≠ "" && s ≠ "0"
  | .array items => !items.isEmpty
  | .object entries => !entries.isEmpty

/-- The arguments of a join, when their number is right. -/
def joinArguments (least most : Nat) : Json → Result (List Json)
  | .array items =>
    if least ≤ items.length ∧ items.length ≤ most then .ok items
    else .error (.invalidArgument (.joinArguments least most))
  | _ => .error (.invalidArgument (.joinArguments least most))

/-! ## Values that may hold filters -/

section Nested

variable (sub : Json → Result Query)

/-- The subquery or raw expression that a value is. -/
def nestedExpression : Json → Result (Option Expression)
  | .object [("query", filter)] => do return some (.query (← sub filter))
  | .object [("exp", raw)] => do return some (← rawExpression raw)
  | _ => .ok none

mutual

/-- The operand that a value writes, with the subqueries and raw expressions in it. -/
def expandedOperand (j : Json) : Result Operand := do
  match ← nestedExpression sub j with
  | some e => pure (.expr e)
  | none =>
    match j with
    | .array items => return .list (← expandedItems items)
    | .object entries => return .map (← expandedEntries entries)
    | scalar => pure (.ofJson scalar)

def expandedItems : List Json → Result (List Operand)
  | [] => .ok []
  | j :: js => do
    let o ← expandedOperand j
    let os ← expandedItems js
    return o :: os

def expandedEntries : List (String × Json) → Result (List (String × Operand))
  | [] => .ok []
  | (k, j) :: es => do
    let o ← expandedOperand j
    let os ← expandedEntries es
    return (k, o) :: os

end

/-- The condition that a value writes. -/
def conditionOf (expands : Bool) (j : Json) : Result Operand := do
  guardCondition j
  if expands then expandedOperand sub j else return .ofJson j

/-- One column or table, under an alias or none. -/
def columnItem (label : Option String) (j : Json) : Result ColumnItem := do
  match ← nestedExpression sub j with
  | some e => return ⟨label, .expr e⟩
  | none =>
    match j with
    | .string name =>
      guardText name
      return ⟨label, .name name⟩
    | _ => .error (.invalidArgument .columnForm)

/-- A list of columns or tables: `"a, b"`, `["a", {"query": …}]` or `{"alias": "a"}`. -/
def columnItems (j : Json) : Result (List ColumnItem) := do
  match j with
  | .string s => return columnsOfText s
  | .array items => items.mapM (columnItem sub none)
  | .object entries =>
    match ← nestedExpression sub j with
    | some e => return [⟨none, .expr e⟩]
    | none => entries.mapM fun e => columnItem sub (some e.1) e.2
  | .null => return []
  | _ => .error (.invalidArgument .columnList)

/-- The table of a join. -/
def joinTable (j : Json) : Result ColumnItem := do
  match ← columnItems sub j with
  | [item] => return item
  | _ => .error (.invalidArgument .joinTable)

/-- The condition of a join; a missing one is empty. -/
def joinCondition (j : Json) : Result Operand :=
  match j with
  | .null => .ok (.string "")
  | .string on => do
    guardText on
    return .string on
  | other => conditionOf sub true other

/-- Add a join whose arguments are a table and perhaps a condition. -/
def applyJoin (q : Query) (type : JoinType) (arguments : List Json) : Result Query := do
  let table ← joinTable sub (arguments.getD 0 .null)
  let on ← joinCondition sub (arguments.getD 1 .null)
  return q.join type table on

/-- Apply a verb that takes a condition. -/
def applyCondition (build : Query → Operand → Query) (q : Query) (verb : FilterVerb) (j : Json) :
    Result Query := do
  return build q (← conditionOf sub verb.expandsNested j)

/-- Apply a verb with its value to a query. -/
def applyVerb (q : Query) (verb : FilterVerb) (j : Json) : Result Query := do
  if let .string s := j then guardText s
  match verb with
  | .select => return q.withSelect (← columnItems sub j)
  | .addSelect => return q.addSelect (← columnItems sub j)
  | .from_ => return q.from_ (← columnItems sub j)
  | .where_ => applyCondition sub Query.where_ q verb j
  | .andWhere => applyCondition sub Query.andWhere q verb j
  | .orWhere => applyCondition sub Query.orWhere q verb j
  | .filterWhere => applyCondition sub Query.filterWhere q verb j
  | .andFilterWhere => applyCondition sub Query.andFilterWhere q verb j
  | .orFilterWhere => applyCondition sub Query.orFilterWhere q verb j
  | .having => applyCondition sub Query.withHaving q verb j
  | .andHaving => applyCondition sub Query.andHaving q verb j
  | .orHaving => applyCondition sub Query.orHaving q verb j
  | .groupBy => return q.withGroupBy (← nameItems j)
  | .orderBy => return q.withOrderBy (← orderItems j)
  | .limit => return q.withLimit (← countOf "limit" j)
  | .offset => return q.withOffset (← countOf "offset" j)
  | .distinct => return { q with distinct := isTruthy j }
  | .join =>
    match ← joinArguments 2 3 j with
    | .string type :: arguments => applyJoin sub q (← JoinType.parse type) arguments
    | _ => .error (.invalidArgument .joinKind)
  | .leftJoin => applyJoin sub q .left (← joinArguments 1 2 j)
  | .innerJoin => applyJoin sub q .inner (← joinArguments 1 2 j)
  | .rightJoin => applyJoin sub q .right (← joinArguments 1 2 j)
  | .indexBy =>
    match j with
    | .string column => return { q with indexBy := some (.column column) }
    | _ => .error (.invalidArgument .indexName)

/-- Apply one entry of a filter. A key that ends in `[]` applies its verb to each item. -/
def applyEntry (q : Query) (entry : String × Json) : Result Query := do
  match Text.dropTextEnd ['[', ']'] entry.1.toList with
  | some name =>
    let verb ← FilterVerb.parse (String.ofList name)
    match entry.2 with
    | .array items => items.foldlM (fun q item => applyVerb sub q verb item) q
    | value => applyVerb sub q verb value
  | none => applyVerb sub q (← FilterVerb.parse entry.1) entry.2

/-- Apply the entries of a filter in their order. -/
def applyEntries (q : Query) (entries : List (String × Json)) : Result Query :=
  entries.foldlM (applyEntry sub) q

end Nested

/-! ## Whole filters -/

mutual

/-- How deep the arrays and objects of a document are nested. -/
def nesting : Json → Nat
  | .array items => itemsNesting items + 1
  | .object entries => entriesNesting entries + 1
  | _ => 0

def itemsNesting : List Json → Nat
  | [] => 0
  | j :: js => max (nesting j) (itemsNesting js)

def entriesNesting : List (String × Json) → Nat
  | [] => 0
  | (_, j) :: es => max (nesting j) (entriesNesting es)

end

/-- Apply a filter in which filters are nested at most `depth` deep. -/
def searchWithin (depth : Nat) (q : Query) (filter : Json) : Result Query :=
  match filter, depth with
  | .null, _ => .ok q
  | .object entries, depth + 1 => applyEntries (searchWithin depth .empty) q entries
  | _, _ => .error (.invalidArgument .filterForm)

/-- Apply a filter to a query. -/
def search (q : Query) (filter : Json) : Result Query :=
  searchWithin (nesting filter) q filter

/-- Apply the entries of a filter to a query. -/
def searchEntries (q : Query) (entries : List (String × Json)) : Result Query :=
  search q (.object entries)

end QueryKit.Search
