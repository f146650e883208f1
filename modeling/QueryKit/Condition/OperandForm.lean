import QueryKit.Query.Basic

/-!
# Conditions written as operands

- `Condition.ofOperand`: the condition that an operator list or a hash stands for, or the fault in
  it.
- `Operand.filter`: a condition without the parts whose values are empty.
-/

namespace QueryKit

namespace LikeEscape

/-- The escape that the third operand of a LIKE asks for. -/
def ofOperand : Option Operand → LikeEscape
  | some (.value (.bool false)) => .disabled
  | some (.map entries) => .custom (entries.map fun e => (e.1, e.2.asString.getD ""))
  | _ => .standard

end LikeEscape

namespace Condition

/-- The condition of an operator and its operands. -/
def ofParts (op : Operator) (operands : List Operand) : Result Condition :=
  match op.kind with
  | .not =>
    match operands with
    | [o] => .ok (.not o)
    | _ => .error (.invalidArgument (.oneOperand op.token))
  | .conjunction c => .ok (.conjunction c operands)
  | .between negated =>
    match operands with
    | column :: low :: high :: _ => .ok (.between column negated low high)
    | _ => .error (.invalidArgument (.threeOperands op.token))
  | .isIn negated =>
    match operands with
    | column :: values :: _ => .ok (.isIn column negated values)
    | _ => .error (.invalidArgument (.twoOperands op.token))
  | .like negated combine =>
    match operands with
    | column :: values :: r => .ok (.like column negated combine values (.ofOperand r.head?))
    | _ => .error (.invalidArgument (.twoOperands op.token))
  | .isExists negated =>
    match operands with
    | .expr (.query q) :: _ => .ok (.isExists negated q)
    | _ => .error (.invalidArgument .notASubquery)
  | .simple =>
    match operands with
    | [column, v] => .ok (.simple column op v)
    | _ => .error (.invalidArgument (.twoOperands op.token))

/-- The condition that an operand stands for. -/
def ofOperand : Operand → Result Condition
  | .map entries => .ok (.hash entries)
  | .list (head :: operands) =>
    match head.asString with
    | some token => ofParts (.parse token) operands
    | none => .error (.invalidArgument .missingOperator)
  | .list [] => .error (.invalidArgument .missingOperator)
  | _ => .error (.invalidArgument .notACondition)

end Condition

namespace Operand

mutual

/-- A condition without the parts whose values are empty. What remains of an operator list is the
empty list if nothing meaningful is left; expressions and raw strings are kept. -/
def filter : Operand → Operand
  | .map entries => .map (entries.filter fun e => !e.2.isEmpty)
  | .list (head :: operands) =>
    match head.asString with
    | none => .list (head :: operands)
    | some token =>
      match (Operator.parse token).kind with
      | .not | .conjunction _ =>
        match filterAll operands with
        | [] => .list []
        | kept => .list (head :: kept)
      | .between _ =>
        match operands with
        | _ :: low :: high :: _ =>
          if low.isEmpty || high.isEmpty then .list [] else .list (head :: operands)
        | _ => .list (head :: operands)
      | _ =>
        match operands with
        | _ :: values :: _ => if values.isEmpty then .list [] else .list (head :: operands)
        | _ => .list (head :: operands)
  | o => o

/-- The operands that are not empty after filtering. -/
def filterAll : List Operand → List Operand
  | [] => []
  | o :: os =>
    let kept := filter o
    if kept.isEmpty then filterAll os else kept :: filterAll os

end

end Operand

end QueryKit
