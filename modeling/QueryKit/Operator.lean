import QueryKit.Text.Blank
import QueryKit.Text.Case

/-!
# Operators of the condition language

- `Operator.parse`: a token without the blanks around it, in capitals.
- `Operator.kind`: the condition that a token stands for. Every token outside the table is a binary
  comparison.
-/

namespace QueryKit

/-- How two or more operands are combined. -/
inductive Conjunction where
  | and
  | or
deriving DecidableEq, Repr

def Conjunction.word : Conjunction → String
  | .and => "AND"
  | .or => "OR"

/-- The condition that an operator stands for. -/
inductive ConditionKind where
  | not
  | conjunction (c : Conjunction)
  | between (negated : Bool)
  | isIn (negated : Bool)
  | like (negated : Bool) (combine : Conjunction)
  | isExists (negated : Bool)
  | simple
deriving DecidableEq, Repr

namespace ConditionKind

/-- A truth value as text. -/
def flagText (b : Bool) : String :=
  if b then "true" else "false"

def conjunctionText : Conjunction → String
  | .and => "And"
  | .or => "Or"

/-- A kind with its settings as text. -/
def describe : ConditionKind → String
  | not => "Not"
  | conjunction c => "Conjunction(" ++ conjunctionText c ++ ")"
  | between negated => "Between \x7b negated: " ++ flagText negated ++ " \x7d"
  | isIn negated => "In \x7b negated: " ++ flagText negated ++ " \x7d"
  | like negated combine =>
    "Like \x7b negated: " ++ flagText negated ++ ", combine: " ++ conjunctionText combine ++ " \x7d"
  | isExists negated => "Exists \x7b negated: " ++ flagText negated ++ " \x7d"
  | simple => "Simple"

end ConditionKind

/-- A normalized operator token. -/
structure Operator where
  token : String
deriving DecidableEq, Repr

namespace Operator

/-- Normalize a token. -/
def parse (token : String) : Operator :=
  ⟨String.ofList (Text.toUpper (Text.trimChars token.toList))⟩

/-- The condition of a normalized token. -/
def kind (op : Operator) : ConditionKind :=
  match op.token with
  | "NOT" => .not
  | "AND" => .conjunction .and
  | "OR" => .conjunction .or
  | "BETWEEN" => .between false
  | "NOT BETWEEN" => .between true
  | "IN" => .isIn false
  | "NOT IN" => .isIn true
  | "LIKE" => .like false .and
  | "NOT LIKE" => .like true .and
  | "OR LIKE" => .like false .or
  | "OR NOT LIKE" => .like true .or
  | "EXISTS" => .isExists false
  | "NOT EXISTS" => .isExists true
  | _ => .simple

end Operator

end QueryKit
