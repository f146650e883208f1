import QueryKit.Compile.Alias
import QueryKit.Query.Basic
import QueryKit.Text.Join

/-!
# Lists of columns written as text

- `splitColumns`: the parts of a list between commas. A text with a parenthesis is one part.
- `columnsOfText`, `ordersOfText`: a select, table or ORDER BY list written as text.
- `JoinType.parse`: the join that a text such as `left outer join` names.
-/

namespace QueryKit

/-- The parts of a list between commas, without the blanks around them; empty parts are left out. -/
def splitColumns (s : String) : List String :=
  let parts := if s.toList.contains '(' then [s.toList] else Text.cutAt ',' s.toList
  ((parts.map Text.trimChars).filter (· ≠ [])).map String.ofList

/-- A column by its name. -/
def ColumnItem.ofName (name : String) : ColumnItem :=
  ⟨none, .name name⟩

/-- The columns of a list written as text. -/
def columnsOfText (s : String) : List ColumnItem :=
  (splitColumns s).map .ofName

/-- An item of an ORDER BY clause written as text. -/
def orderOfText (part : String) : OrderItem :=
  match orderSuffix? part.toList with
  | some (name, word) =>
    { column := .name (String.ofList name)
      direction := if Text.eqIgnoreCase (String.ofList word) "desc" then .desc else .asc }
  | none => ⟨.name part, .asc⟩

/-- The items of an ORDER BY clause written as text. -/
def ordersOfText (s : String) : List OrderItem :=
  (splitColumns s).map orderOfText

/-- A text without the repetitions of a word at its end; `n` bounds their number. -/
def dropRepeatsEnd (word : List Char) : Nat → List Char → List Char
  | 0, s => s
  | n + 1, s =>
    match Text.dropTextEnd word s with
    | some r => dropRepeatsEnd word n r
    | none => s

/-- The join that a text names. The words JOIN and OUTER may follow the kind of join. -/
def JoinType.parse (s : String) : Result JoinType :=
  let text := (Text.trimChars s.toList).map Char.toUpper
  let head := Text.trimChars ((Text.dropTextEnd "JOIN".toList text).getD text)
  let head := Text.trimChars (dropRepeatsEnd "OUTER".toList head.length head)
  if head = [] ∨ head = "INNER".toList then .ok .inner
  else if head = "LEFT".toList then .ok .left
  else if head = "RIGHT".toList then .ok .right
  else if head = "FULL".toList then .ok .full
  else if head = "CROSS".toList then .ok .cross
  else .error (.invalidArgument (.unknownJoin s))

end QueryKit
