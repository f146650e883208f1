import QueryKit.Text.Join

/-!
# Escaping of LIKE patterns

- `LikeEscape.apply`: the text of a pattern before it is bound. The standard escape puts a backslash
  in front of the backslash, the percent sign and the underscore. A custom escape replaces, from the
  left, the first listed text that stands at the place, and never looks at a replacement again.
-/

namespace QueryKit

/-- How the text of a LIKE pattern is escaped. -/
inductive LikeEscape where
  | standard
  | custom (pairs : List (String × String))
  | disabled
deriving DecidableEq, Repr

namespace LikeEscape

/-- One character under the standard escape. -/
def standardChar (c : Char) : List Char :=
  if c = '\\' ∨ c = '%' ∨ c = '_' then ['\\', c] else [c]

/-- The first pair whose text stands at the start: its replacement and the length of its text. -/
def firstPair (s : List Char) : List (String × String) → Option (List Char × Nat)
  | [] => none
  | (key, value) :: r =>
    if key.toList ≠ [] ∧ (Text.dropText key.toList s).isSome then
      some (value.toList, key.toList.length)
    else firstPair s r

/-- Scan a text from the left; `skip` characters are part of a text already replaced. -/
def applyPairs (pairs : List (String × String)) : Nat → List Char → List Char
  | _, [] => []
  | skip + 1, _ :: r => applyPairs pairs skip r
  | 0, c :: r =>
    match firstPair (c :: r) pairs with
    | some (value, length) => value ++ applyPairs pairs (length - 1) r
    | none => c :: applyPairs pairs 0 r

/-- The text of a pattern under an escape. -/
def apply (e : LikeEscape) (pattern : String) : String :=
  match e with
  | .standard => String.ofList (pattern.toList.flatMap standardChar)
  | .custom pairs => String.ofList (applyPairs pairs 0 pattern.toList)
  | .disabled => pattern

end LikeEscape

end QueryKit
