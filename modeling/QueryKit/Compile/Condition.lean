import QueryKit.Compile.Registry
import QueryKit.Query.Basic

/-!
# The texts of conditions

How a condition is put together from the texts of its parts, and how plain values are bound on the
way. Nothing here looks inside an operand; `QueryKit.Compile.Query` renders the parts.

- `conjunctionText`, `notText`, `betweenText`, `likeText`: boolean structure and comparisons. A part
  without text is left out, and so is what would stand around it.
- `MemberColumn`: the column side of a membership test.
- `memberText`: membership in a list of values. Null members are tested apart, because no
  comparison finds them.
- `Compiler.negation` and its fellows: the condition of each family from the steps that render its
  parts. A family without a builder fails before any of its parts.
-/

namespace QueryKit

/-- NOT in front of a condition; nothing if the condition has no text. -/
def notText (inner : String) : String :=
  if inner = "" then "" else "NOT (" ++ inner ++ ")"

/-- Conditions joined by AND or OR. Conditions without text are left out, and a single one stands
without parentheses. -/
def conjunctionText (c : Conjunction) (parts : List String) : String :=
  match parts.filter (· ≠ "") with
  | [] => ""
  | [part] => part
  | parts => "(" ++ Text.joinWith (") " ++ c.word ++ " (") parts ++ ")"

def betweenText (column : String) (negated : Bool) (low high : String) : String :=
  column ++ (if negated then " NOT BETWEEN " else " BETWEEN ") ++ low ++ " AND " ++ high

def isExistsText (negated : Bool) (sql : String) : String :=
  (if negated then "NOT EXISTS" else "EXISTS") ++ " (" ++ sql ++ ")"

/-- The result of testing against no values at all: nothing, or a condition that never holds. -/
def emptyText (negated : Bool) : String :=
  if negated then "" else "0=1"

/-! ## Membership -/

/-- The column side of a membership test: one column, with its name if it is a plain one, or the
names of several columns. -/
inductive MemberColumn where
  | single (text : String) (name : Option String)
  | composite (names : List String)

/-- The shape of the values of a membership test. -/
inductive MemberSource where
  | query
  | expression
  | values
deriving DecidableEq

def MemberSource.of : Operand → MemberSource
  | .expr (.query _) => .query
  | .expr _ => .expression
  | _ => .values

/-- Whether a hash tests an operand by membership: lists of values and subqueries. -/
def isListed : Operand → Bool
  | .list _ | .value (.array _) | .expr (.query _) => true
  | _ => false

def inWord (negated : Bool) : String :=
  if negated then "NOT IN" else "IN"

/-- The name that an operand gives a column of a list of columns. -/
def memberName : Operand → String
  | .value v => v.toPlainString
  | _ => ""

def quotedNames (d : Dialect) (names : List String) : String :=
  "(" ++ Text.joinWith ", " (names.map d.columnName) ++ ")"

/-- The text of the column side in front of a subquery. -/
def MemberColumn.text (d : Dialect) : MemberColumn → String
  | .single text _ => text
  | .composite names => quotedNames d names

/-- Membership in the rows of a fragment. -/
def inFragmentText (column : String) (negated : Bool) (sql : String) : String :=
  column ++ " " ++ inWord negated ++ " (" ++ sql ++ ")"

/-- Membership of several columns in a list of tuples. -/
def inTuplesText (d : Dialect) (names : List String) (negated : Bool) (tuples : List String) :
    String :=
  if tuples.isEmpty then emptyText negated
  else
    quotedNames d names ++ " " ++ inWord negated ++ " (" ++ Text.joinWith ", " tuples ++ ")"

/-- A tuple of placeholders; a missing value is NULL. -/
def tupleText (values : List (Option String)) : String :=
  "(" ++ Text.joinWith ", " (values.map fun v => v.getD "NULL") ++ ")"

/-- Membership in a list of placeholders that is not empty. -/
def placedText (column : String) (negated : Bool) (places : List String) : String :=
  match places with
  | [place] => column ++ (if negated then " <> " else " = ") ++ place
  | places => inFragmentText column negated (Text.joinWith ", " places)

/-- Membership of one column in a list of members; `none` is a null member. -/
def memberText (column : String) (negated : Bool) (members : List (Option String)) : String :=
  let places := members.filterMap id
  let hasNull := members.any Option.isNone
  let isNull := if negated then column ++ " IS NOT NULL" else column ++ " IS NULL"
  if places.isEmpty then
    if hasNull then isNull else emptyText negated
  else
    let test := placedText column negated places
    if hasNull then "(" ++ test ++ (if negated then " AND " else " OR ") ++ isNull ++ ")"
    else test

/-! ## Patterns -/

/-- The texts of a LIKE condition's patterns, joined. -/
def likeText (d : Dialect) (column : String) (negated : Bool) (combine : Conjunction)
    (places : List String) : String :=
  let operator := if negated then " NOT LIKE " else " LIKE "
  Text.joinWith (" " ++ combine.word ++ " ")
    (places.map fun place => column ++ operator ++ place ++ d.likeEscapeSql)

/-- The text that a pattern binds. -/
def patternText (escape : LikeEscape) (v : Value) : String :=
  match escape with
  | .disabled => v.toPlainString
  | e => "%" ++ e.apply v.toPlainString ++ "%"

/-! ## Plain values -/

/-- Bind a pattern. -/
def pushPattern (escape : LikeEscape) (v : Value) : Compile String :=
  .push (.string (patternText escape v))

/-- Bind a value unless it is null. -/
def pushMember (v : Value) : Compile (Option String) :=
  if v.isNull then .pure none else do
    let place ← Compile.push v
    return some place

/-- Bind the values of a tuple place by place; a null value binds nothing. -/
def pushTuple : List String → List Value → Compile (List (Option String))
  | [], _ => .pure []
  | _ :: names, [] => do
    let rest ← pushTuple names []
    return none :: rest
  | _ :: names, v :: vs => do
    let place ← pushMember v
    let rest ← pushTuple names vs
    return place :: rest

/-- Bind the rows of a membership test over several columns. A row that is no array has no values. -/
def pushTuples (names : List String) : List Value → Compile (List String)
  | [] => .pure []
  | row :: rows => do
    let places ← pushTuple names ((row.asArray).getD [])
    let rest ← pushTuples names rows
    return tupleText places :: rest

def pushMembers : List Value → Compile (List (Option String))
  | [] => .pure []
  | v :: vs => do
    let place ← pushMember v
    let rest ← pushMembers vs
    return place :: rest

def pushPatterns (escape : LikeEscape) : List Value → Compile (List String)
  | [] => .pure []
  | v :: vs => do
    let place ← pushPattern escape v
    let rest ← pushPatterns escape vs
    return place :: rest

/-- The values of a list of plain operands. -/
def plainValues : List Operand → Option (List Value)
  | [] => some []
  | .value v :: os => (plainValues os).map (v :: ·)
  | _ :: _ => none

/-! ## Arrays and documents -/

/-- The type written behind an array. -/
def arrayTypeText (elementType : Option String) (dimension : Nat) : String :=
  match elementType with
  | some t => "::" ++ t ++ Text.joinWith "" (List.replicate (max dimension 1) "[]")
  | none => ""

def arrayText (elementType : Option String) (dimension : Nat) (places : List String) : String :=
  "ARRAY[" ++ Text.joinWith ", " places ++ "]" ++ arrayTypeText elementType dimension

/-- Bind the items of an array. Below the outermost dimension, nested arrays are written out. -/
def pushArray (elementType : Option String) : Nat → List Value → Compile String
  | 0, vs => do
    let places ← vs.mapM Compile.push
    return arrayText elementType 0 places
  | 1, vs => do
    let places ← vs.mapM Compile.push
    return arrayText elementType 1 places
  | n + 2, vs => do
    let places ← vs.mapM fun
      | .array inner => pushArray elementType (n + 1) inner
      | v => Compile.push v
    return arrayText elementType (n + 2) places

/-- Bind a document as its text, marked as the dialect wants it. -/
def pushJson (cast : JsonCast) (j : Json) (jsonType : Option String) : Compile String := do
  let place ← Compile.push (.string j.render)
  match cast, jsonType with
  | .castAs, _ => return "CAST(" ++ place ++ " AS JSON)"
  | .suffix, some t => return place ++ "::" ++ t
  | _, _ => return place

/-! ## Conditions from their parts -/

namespace Compiler

variable (c : Compiler)

/-- The columns of a hash with their tests. -/
def hash (parts : Compile (List String)) : Compile String :=
  c.through .hash fun _ => do
    let parts ← parts
    return Text.joinWith " AND " parts

/-- NOT in front of a condition. -/
def negation (inner : Compile String) : Compile String :=
  c.through .not fun _ => do
    let inner ← inner
    return notText inner

/-- Conditions joined by AND or OR. -/
def conjunction (conj : Conjunction) (parts : Compile (List String)) : Compile String :=
  c.through .conjunction fun _ => do
    let parts ← parts
    return conjunctionText conj parts

/-- A column between two values. -/
def between (negated : Bool) (column low high : Compile String) : Compile String :=
  c.through .between fun _ => do
    let column ← column
    let low ← low
    let high ← high
    return betweenText column negated low high

/-- A column side with the test that is put to it. -/
def membership (column : Compile MemberColumn) (test : MemberColumn → Compile String) :
    Compile String :=
  c.through .isIn fun _ => do
    let column ← column
    test column

/-- A column against patterns; without any, the column is not rendered. -/
def like (negated : Bool) (combine : Conjunction) (isEmpty : Bool) (column : Compile String)
    (places : Compile (List String)) : Compile String :=
  c.through .like fun _ =>
    if isEmpty then .pure (emptyText negated)
    else do
      let column ← column
      let places ← places
      return likeText c.dialect column negated combine places

/-- A test whether a subquery has rows. -/
def existence (negated : Bool) (sql : Compile String) : Compile String :=
  c.through .isExists fun _ => do
    let sql ← sql
    return isExistsText negated sql

/-- A column compared with a value; null is written out. -/
def comparison (op : Operator) (column : Compile String) (isNull : Bool)
    (place : Compile String) : Compile String :=
  c.through .simple fun _ => do
    let column ← column
    let place ← if isNull then .pure "NULL" else place
    return column ++ " " ++ op.token ++ " " ++ place

end Compiler

end QueryKit
