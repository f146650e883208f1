import QueryKit.Error
import QueryKit.Json.Basic
import QueryKit.Operator

/-!
# Statement separators in filters

A filter comes from outside, so no text of it that is printed into a statement may hold a `;`.
Values that are bound may.

- `guardText`: refuses one text.
- `guardCondition`: refuses a condition for its operators, its columns, the keys of its maps and the
  raw members of AND, OR and NOT.
-/

namespace QueryKit.Search

/-- Refuse a text with a `;`. -/
def guardText (s : String) : Result Unit :=
  if Text.hasChar ';' s then .error (.invalidArgument .semicolon) else .ok ()

mutual

/-- Refuse a condition that would print a `;`. -/
def guardCondition : Json → Result Unit
  | .array (.string op :: operands) => do
    guardText op
    match (Operator.parse op).kind with
    | .not | .conjunction _ => guardMembers operands
    | _ =>
      match operands with
      | .string column :: _ => guardText column
      | _ => pure ()
  | .object entries => entries.forM fun e => guardText e.1
  | _ => .ok ()

def guardMembers : List Json → Result Unit
  | [] => .ok ()
  | .string sql :: r => do
    guardText sql
    guardMembers r
  | j :: r => do
    guardCondition j
    guardMembers r

end

end QueryKit.Search
