import QueryKit.Proofs.Compile.Steps
import QueryKit.Proofs.Text.Blank

/-!
# The canonical form of a condition

- `Condition.toOperand`: a condition as an operand: a hash as a map, and any other condition as the
  list of its operator, in capitals, and its operands.
- `Operator.parse_parse`: a normalized ASCII token is normalized.
- `Condition.ofParts_canonical`: what an operator and its operands stand for is read again from the
  canonical form, which begins with the operator.
- `Operand.Denotes`: the condition that an operand is, as a list, a map or an expression.
- `Operand.Denotes.render`: such an operand is rendered as the condition.
- `Condition.canonical_agrees`: reading a condition back from its canonical form changes nothing, and
  all three compile alike.
-/

namespace QueryKit

/-! ## Tokens -/

def betweenWord (negated : Bool) : String :=
  if negated then "NOT BETWEEN" else "BETWEEN"

def likeWord : Bool → Conjunction → String
  | false, .and => "LIKE"
  | true, .and => "NOT LIKE"
  | false, .or => "OR LIKE"
  | true, .or => "OR NOT LIKE"

def existsWord (negated : Bool) : String :=
  if negated then "NOT EXISTS" else "EXISTS"

/-- The token of a kind of condition, unless it has any number of them. -/
def ConditionKind.token? : ConditionKind → Option String
  | .not => some "NOT"
  | .conjunction c => some c.word
  | .between negated => some (betweenWord negated)
  | .isIn negated => some (inWord negated)
  | .like negated combine => some (likeWord negated combine)
  | .isExists negated => some (existsWord negated)
  | .simple => none

/-- The operator that an operand begins with. -/
def Operand.operator? : Operand → Option String
  | .list (head :: _) => head.asString
  | _ => none

namespace Operator

theorem token_eq_of_kind {op : Operator} {token : String} (h : op.kind.token? = some token) :
    op.token = token := by
  unfold kind at h
  split at h
  case h_14 => cases h
  all_goals
    cases h
    assumption

/-- Normalizing a token again changes nothing, unless there are letters beyond ASCII in it. -/
theorem parse_parse {token : String} (h : ∀ c ∈ Text.trimChars token.toList, c.toNat < 0x80) :
    parse (parse token).token = parse token := by
  have hcapitals := Text.toUpper_of_ascii h
  rw [parse, parse, String.toList_ofList, hcapitals, Text.trimChars_map_toUpper,
    Text.trimChars_trimChars, ← hcapitals, Text.toUpper_toUpper_of_ascii h]

end Operator

/-! ## Writing conditions back -/

/-- The operands behind the values of a LIKE that ask for an escape. -/
def LikeEscape.toOperands : LikeEscape → List Operand
  | .standard => []
  | .custom pairs => [.map (pairs.map fun p => (p.1, .string p.2))]
  | .disabled => [.value (.bool false)]

theorem LikeEscape.ofOperand_toOperands (e : LikeEscape) : ofOperand e.toOperands.head? = e := by
  cases e with
  | standard | disabled => rfl
  | custom pairs =>
    rw [toOperands, List.head?_cons, ofOperand, List.map_map]
    exact congrArg custom (List.map_id pairs)

namespace Condition

/-- The canonical operand of a condition. -/
def toOperand : Condition → Operand
  | .hash entries => .map entries
  | .simple column op v => .list [.string op.token, column, v]
  | .not o => .list [.string "NOT", o]
  | .conjunction c operands => .list (.string c.word :: operands)
  | .between column negated low high => .list [.string (betweenWord negated), column, low, high]
  | .isIn column negated values => .list [.string (inWord negated), column, values]
  | .like column negated combine values escape =>
    .list (.string (likeWord negated combine) :: column :: values :: escape.toOperands)
  | .isExists negated q => .list [.string (existsWord negated), .expr (.query q)]

/-- The canonical form begins with the operator, and its operands stand for the condition. -/
theorem ofParts_canonical {op : Operator} {operands : List Operand} {cond : Condition}
    (h : ofParts op operands = .ok cond) :
    ∃ written, cond.toOperand = .list (.string op.token :: written) ∧
      ofParts op written = .ok cond := by
  have htoken : ∀ token, op.kind.token? = some token → op.token = token :=
    fun _ => Operator.token_eq_of_kind
  unfold ofParts at h ⊢
  generalize op.kind = kind at h htoken ⊢
  cases kind with
  | not =>
    match operands with
    | [o] =>
      cases h
      exact ⟨[o], by rw [htoken _ rfl]; rfl, rfl⟩
  | conjunction c =>
    cases h
    exact ⟨operands, by rw [htoken _ rfl]; rfl, rfl⟩
  | between negated =>
    match operands with
    | column :: low :: high :: _ =>
      cases h
      exact ⟨[column, low, high], by rw [htoken _ rfl]; rfl, rfl⟩
  | isIn negated =>
    match operands with
    | column :: values :: _ =>
      cases h
      exact ⟨[column, values], by rw [htoken _ rfl]; rfl, rfl⟩
  | like negated combine =>
    match operands with
    | column :: values :: r =>
      cases h
      refine ⟨column :: values :: (LikeEscape.ofOperand r.head?).toOperands, ?_, ?_⟩
      · rw [htoken _ rfl]
        rfl
      · dsimp only
        rw [LikeEscape.ofOperand_toOperands]
  | isExists negated =>
    match operands with
    | .expr (.query q) :: _ =>
      cases h
      exact ⟨[.expr (.query q)], by rw [htoken _ rfl]; rfl, rfl⟩
  | simple =>
    match operands with
    | [column, v] =>
      cases h
      exact ⟨[column, v], rfl, rfl⟩

/-- An operator list that stands for a condition. -/
theorem ofOperand_list {items : List Operand} {cond : Condition}
    (h : ofOperand (.list items) = .ok cond) :
    ∃ head operands token, items = head :: operands ∧ head.asString = some token ∧
      ofParts (.parse token) operands = .ok cond := by
  cases items with
  | nil => cases h
  | cons head operands =>
    rw [ofOperand] at h
    cases ht : head.asString with
    | none =>
      rw [ht] at h
      cases h
    | some token =>
      rw [ht] at h
      exact ⟨head, operands, token, rfl, ht, h⟩

end Condition

/-! ## Compiling them -/

/-- The operand is the condition: as a list or a map, or as an expression. -/
def Operand.Denotes (o : Operand) (cond : Condition) : Prop :=
  Condition.ofOperand o = .ok cond ∨ o = .expr (.condition cond)

section Render

variable {c : Compiler} {cond : Condition}

/-- An operator and its operands are rendered as the condition that they stand for. -/
theorem renderForm_of_ofParts {head : Operand} {operands : List Operand} {token : String}
    (ht : head.asString = some token)
    (h : Condition.ofParts (.parse token) operands = .ok cond) :
    renderForm c (head :: operands) = renderCondition c cond := by
  rw [renderForm_cons ht]
  generalize Operator.parse token = op at h ⊢
  unfold Condition.ofParts at h
  generalize op.kind = kind at h ⊢
  cases kind with
  | not =>
    match operands with
    | [_] =>
      cases h
      rw [renderCondition]
      rfl
  | conjunction _ =>
    cases h
    rw [renderCondition]
  | between _ =>
    match operands with
    | _ :: _ :: _ :: _ =>
      cases h
      rw [renderCondition]
      rfl
  | isIn _ =>
    match operands with
    | _ :: _ :: _ =>
      cases h
      rw [renderCondition]
      rfl
  | like _ _ =>
    match operands with
    | _ :: _ :: _ =>
      cases h
      rw [renderCondition]
      rfl
  | isExists _ =>
    match operands with
    | .expr (.query _) :: _ =>
      cases h
      rw [renderCondition]
      rfl
  | simple =>
    match operands with
    | [_, _] =>
      cases h
      rw [renderCondition]
      rfl

/-- A hash without columns has no text, whether it is a map or a condition. -/
theorem renderCondition_hash_nil (d : Dialect) :
    renderCondition (.ofDialect d) (.hash []) = .pure "" := by
  rw [renderCondition, renderHash]
  cases d <;> rfl

/-- What a condition is written with makes no difference to its text and its values. -/
theorem Operand.Denotes.render {d : Dialect} {o : Operand} (h : o.Denotes cond) :
    renderOperand (.ofDialect d) .condition o = renderCondition (.ofDialect d) cond := by
  rcases h with h | rfl
  · match o with
    | .map [] =>
      cases h
      rw [renderCondition_hash_nil]
      simp only [renderOperand]
      rfl
    | .map (_ :: _) =>
      cases h
      simp only [renderOperand, renderCondition]
      rfl
    | .list items =>
      obtain ⟨_, _, _, rfl, ht, h⟩ := Condition.ofOperand_list h
      simp only [renderOperand]
      exact renderForm_of_ofParts ht h
  · rw [renderOperand, renderExpression]

end Render

/-- If an operand stands for a condition and its operator is ASCII, in any letter case and with any
blanks around it, then the canonical form of the condition begins with the operator and stands for
the same condition. The operand, the canonical form and the condition itself compile to the same
text and parameters, or fail with the same error. -/
theorem Condition.canonical_agrees (d : Dialect) (ps : Params) {o : Operand} {cond : Condition}
    (hascii : ∀ token, o.operator? = some token →
      ∀ ch ∈ Text.trimChars token.toList, ch.toNat < 0x80)
    (h : ofOperand o = .ok cond) :
    ofOperand cond.toOperand = .ok cond ∧
      (∀ token, o.operator? = some token →
        cond.toOperand.operator? = some (Operator.parse token).token) ∧
      (Compiler.ofDialect d).buildCondition o ps =
        (renderExpression (.ofDialect d) (.condition cond)).into ps ∧
      (Compiler.ofDialect d).buildCondition cond.toOperand ps =
        (renderExpression (.ofDialect d) (.condition cond)).into ps := by
  have hread : ofOperand cond.toOperand = .ok cond ∧
      ∀ token, o.operator? = some token →
        cond.toOperand.operator? = some (Operator.parse token).token := by
    match o with
    | .map entries =>
      cases h
      exact ⟨rfl, fun _ hs => nomatch hs⟩
    | .list items =>
      obtain ⟨head, operands, token, rfl, ht, h⟩ := ofOperand_list h
      obtain ⟨written, hform, hparts⟩ := ofParts_canonical h
      rw [hform]
      constructor
      · change ofParts (.parse (Operator.parse token).token) written = _
        rw [Operator.parse_parse (hascii token ht), hparts]
      · intro token' ht'
        rw [← Option.some.inj (ht.symm.trans ht')]
        rfl
  have hbuild : ∀ o' : Operand, ofOperand o' = .ok cond →
      (Compiler.ofDialect d).buildCondition o' ps =
        (renderExpression (.ofDialect d) (.condition cond)).into ps := by
    intro o' ho'
    have hdenotes : o'.Denotes cond := .inl ho'
    rw [Compiler.buildCondition, hdenotes.render, renderExpression]
  exact ⟨hread.1, hread.2, hbuild o h, hbuild cond.toOperand hread.1⟩

/-- Names without a wildcard, escaped in another way than usual. -/
def unlikeNames : Operand :=
  .list [.string "\tOr not Like ", .string "name", .list [.string "a%", .string "b"],
    .map [("%", .string "!%"), ("!", .value (.int32 1))], .string "not looked at"]

def unlikeNamesCondition : Condition :=
  .like (.string "name") true .or (.list [.string "a%", .string "b"])
    (.custom [("%", "!%"), ("!", "")])

theorem unlikeNames_canonical :
    Condition.ofOperand unlikeNames = .ok unlikeNamesCondition ∧
      Condition.ofOperand unlikeNamesCondition.toOperand = .ok unlikeNamesCondition ∧
      (∀ token, unlikeNames.operator? = some token →
        unlikeNamesCondition.toOperand.operator? = some (Operator.parse token).token) ∧
      (Compiler.ofDialect .sqlite).buildCondition unlikeNames .empty =
        (renderExpression (.ofDialect .sqlite) (.condition unlikeNamesCondition)).into .empty ∧
      (Compiler.ofDialect .sqlite).buildCondition unlikeNamesCondition.toOperand .empty =
        (renderExpression (.ofDialect .sqlite) (.condition unlikeNamesCondition)).into .empty := by
  have h : Condition.ofOperand unlikeNames = .ok unlikeNamesCondition := rfl
  have hascii : ∀ token, unlikeNames.operator? = some token →
      ∀ ch ∈ Text.trimChars token.toList, ch.toNat < 0x80 := by
    intro token ht ch hch
    cases ht
    have hall : (Text.trimChars "\tOr not Like ".toList).all fun ch => ch.toNat < 0x80 := by
      decide
    exact of_decide_eq_true (List.all_eq_true.mp hall ch hch)
  exact ⟨h, Condition.canonical_agrees .sqlite .empty hascii h⟩

end QueryKit
