import QueryKit.Proofs.Boolean.Reading
import QueryKit.Proofs.Compile.Done
import QueryKit.Proofs.Compile.Steps
import QueryKit.Proofs.Filter.Pruned

/-!
# Boolean conditions are rendered unambiguously

- `Formula.printed`: the text of a normal form; no text for nothing.
- `renderOperand_formula`: a condition that is a formula is rendered as its normal form is written,
  and binds nothing.
- `Compiler.buildCondition_formula_inj`: two such conditions have one text exactly if they have one
  normal form, because the normal form is read back from the text.
-/

namespace QueryKit

/-! ## Texts of the parts -/

namespace Formula

/-- The text of what is left of a formula. -/
def printed : Option Formula → String
  | none => ""
  | some g => g.text

theorem text_raw (s : String) : (Formula.raw s).text = s := by
  rw [text, lexemes, spell_cons, spell_nil, List.append_nil]
  exact String.ofList_toList

theorem printed_raw (s : String) : printed (raw s).normal = s := by
  rw [normal]
  split
  · next hs => rw [hs, printed]
  · rw [printed, text_raw]

theorem spell_lexemes_ne_nil {f : Formula} (h : f.IsNormal) : spell f.lexemes ≠ [] := by
  cases h with
  | raw hs => simpa [lexemes, Lexeme.text] using hs
  | not _ => simp [lexemes, Lexeme.text]
  | junction c _ => simp [lexemes, enclose, Lexeme.text]

theorem text_ne_empty {f : Formula} (h : f.IsNormal) : f.text ≠ "" := by
  rw [text, ne_eq, String.ofList_eq_empty_iff]
  exact spell_lexemes_ne_nil h

/-- The text of a formula is read as the normal form of the formula. -/
theorem readFormula_printed {f : Formula} (hp : ∀ s ∈ f.raws, ParenFree s) :
    readFormula (printed f.normal) = f.normal := by
  cases hf : f.normal with
  | none => rfl
  | some g => exact readFormula_text (isNormal_normal hf) fun s hs => hp s (mem_raws_normal hf hs)

end Formula

open Formula

theorem notText_printed (f : Formula) :
    notText (printed f.normal) = printed (Formula.not f).normal := by
  rw [normal]
  cases h : f.normal with
  | none => rfl
  | some g =>
    rw [printed, notText, if_neg (text_ne_empty (isNormal_normal h)), ← String.toList_inj]
    simp [printed, text, lexemes, enclose, Lexeme.text]

/-- Texts between parentheses with a word between each two of them. -/
theorem joinWith_text (c : Conjunction) : ∀ (f : Formula) (fs : List Formula),
    '(' :: ((Text.joinWith (") " ++ c.word ++ " (") (f.text :: fs.map text)).toList ++ [')']) =
      spell (enclose f.lexemes ++ moreLexemes c fs)
  | f, [] => by
    simp [Text.joinWith, moreLexemes, enclose, text, Lexeme.text]
  | f, g :: gs => by
    rw [List.map_cons, Text.joinWith, moreLexemes, spell_append, spell_cons,
      ← joinWith_text c g gs, spell_enclose]
    simp [text, Lexeme.text]

theorem conjunctionText_eq (c : Conjunction) {parts : List String} {fs : List Formula}
    (h : parts.filter (· ≠ "") = fs.map text) :
    conjunctionText c parts = printed (collapse c fs) := by
  rw [conjunctionText, h]
  match fs with
  | [] | [_] => rfl
  | f :: g :: fs =>
    change "(" ++ Text.joinWith (") " ++ c.word ++ " (") (f.text :: (g :: fs).map text) ++ ")" =
      String.ofList (spell (enclose f.lexemes ++ moreLexemes c (g :: fs)))
    rw [← joinWith_text, ← String.toList_inj]
    simp

/-- Operands without text are those that say nothing. -/
theorem filter_printed (fs : List Formula) :
    (fs.map fun f => printed f.normal).filter (· ≠ "") = (normals fs).map text := by
  induction fs with
  | nil => rfl
  | cons f fs ih =>
    rw [List.map_cons, normals]
    cases hf : f.normal with
    | none => exact ih
    | some g =>
      have hkept : decide (printed (some g) ≠ "") = true :=
        decide_eq_true (text_ne_empty (isNormal_normal hf))
      rw [List.filter_cons, if_pos hkept, ih]
      rfl

/-! ## Conditions -/

variable (d : Dialect)

/-- Every dialect has a builder for NOT. -/
theorem negation_ofDialect (inner : Compile String) :
    (Compiler.ofDialect d).negation inner = inner >>= fun s => .pure (notText s) :=
  Compiler.through_condition d rfl _

/-- Every dialect has a builder for AND and OR. -/
theorem conjunction_ofDialect (c : Conjunction) (parts : Compile (List String)) :
    (Compiler.ofDialect d).conjunction c parts =
      parts >>= fun ps => .pure (conjunctionText c ps) :=
  Compiler.through_condition d rfl _

/-- If an operand is a formula, then it is rendered as its normal form is written. -/
def Operand.RendersFormula (o : Operand) : Prop :=
  ∀ f, o.formula? = some f →
    renderOperand (.ofDialect d) .condition o = .pure (printed f.normal)

variable {d}

theorem renderConditions_formulas : ∀ {os : List Operand} {fs : List Formula},
    (∀ o ∈ os, o.RendersFormula d) → Operand.formulas? os = some fs →
    renderConditions (.ofDialect d) os = .pure (fs.map fun f => printed f.normal)
  | [], fs, _, h => by
    cases h
    rfl
  | o :: os, fs, hall, h => by
    obtain ⟨ho, hos⟩ := List.forall_mem_cons.mp hall
    obtain ⟨g, gs, rfl, hg, hgs⟩ := Operand.formulas?_cons h
    rw [renderConditions, ho g hg, renderConditions_formulas hos hgs]
    rfl

theorem negationForm_formula {op : Operator} {operands : List Operand} {g : Formula}
    (hall : ∀ o ∈ operands, o.RendersFormula d) (h : Operand.formulas? operands = some [g]) :
    negationForm (.ofDialect d) op operands = .pure (printed (Formula.not g).normal) := by
  obtain ⟨o, rfl, hg⟩ := Operand.formulas?_singleton h
  rw [negationForm, negation_ofDialect, hall o List.mem_cons_self g hg, ← notText_printed]
  rfl

/-- A condition that is a formula is rendered as its normal form is written. -/
theorem renderOperand_formula (o : Operand) : o.RendersFormula d := by
  induction o using Operand.form_induction with
  | value v =>
    intro f h
    cases v with
    | string s =>
      cases h
      rw [printed_raw]
      rfl
    | _ => cases h
  | expr e | map entries | empty =>
    intro f h
    cases h
  | form head operands ih =>
    intro f h
    obtain ⟨token, fs, ht, hfs, hf⟩ := Operand.formula?_list h
    change renderForm _ _ = _
    rw [renderForm_cons ht]
    -- as a variable: matching on the kind itself would compute the token's capitals
    generalize (Operator.parse token).kind = kind at hf ⊢
    cases kind with
    | not =>
      obtain ⟨g, rfl, rfl⟩ := ConditionKind.formula?_not hf
      exact negationForm_formula ih hfs
    | conjunction c =>
      cases hf
      dsimp only
      rw [conjunction_ofDialect, renderConditions_formulas ih hfs]
      exact congrArg Compile.pure (conjunctionText_eq c (filter_printed fs))
    | _ => cases hf

/-- Two conditions over raw texts without parentheses have one text exactly if they have one normal
form, which is read back from the text. -/
theorem Compiler.buildCondition_formula_inj (d : Dialect) (ps : Params) {o₁ o₂ : Operand}
    {f₁ f₂ : Formula} (h₁ : o₁.formula? = some f₁) (h₂ : o₂.formula? = some f₂)
    (hp₁ : ∀ s ∈ f₁.raws, ParenFree s) (hp₂ : ∀ s ∈ f₂.raws, ParenFree s) :
    ∃ s₁ s₂, (ofDialect d).buildCondition o₁ ps = .ok (s₁, ps) ∧
      (ofDialect d).buildCondition o₂ ps = .ok (s₂, ps) ∧
      readFormula s₁ = f₁.normal ∧ readFormula s₂ = f₂.normal ∧
      (s₁ = s₂ ↔ f₁.normal = f₂.normal) := by
  have hread₁ := readFormula_printed hp₁
  have hread₂ := readFormula_printed hp₂
  refine ⟨printed f₁.normal, printed f₂.normal, ?_, ?_, hread₁, hread₂, ?_, ?_⟩
  · rw [buildCondition, renderOperand_formula o₁ f₁ h₁]
    rfl
  · rw [buildCondition, renderOperand_formula o₂ f₂ h₂]
    rfl
  · intro h
    rw [← hread₁, ← hread₂, h]
  · exact congrArg printed

/-- Visits by country, with an OR that has one operand left. -/
def nestedVisits : Operand :=
  .list [.string "and", .string "visits > 3",
    .list [.string "or", .list [.string "and"], .string "country = 5"],
    .list [.string "not", .string "blocked"]]

def nestedFormula : Formula :=
  .junction .and [.raw "visits > 3", .junction .or [.junction .and [], .raw "country = 5"],
    .not (.raw "blocked")]

/-- The same operands in other groups. -/
def regroupedVisits : Operand :=
  .list [.string "Or", .list [.string "AND", .string "visits > 3", .string "country = 5"],
    .list [.string "Not", .string "blocked"]]

def regroupedFormula : Formula :=
  .junction .or [.junction .and [.raw "visits > 3", .raw "country = 5"], .not (.raw "blocked")]

example : (Compiler.ofDialect .mysql).buildCondition nestedVisits .empty =
    .ok ("(visits > 3) AND (country = 5) AND (NOT (blocked))", .empty) := by
  rfl

theorem visits_formula_inj :
    nestedVisits.formula? = some nestedFormula ∧ regroupedVisits.formula? = some regroupedFormula ∧
      ∃ s₁ s₂, (Compiler.ofDialect .mysql).buildCondition nestedVisits .empty = .ok (s₁, .empty) ∧
        (Compiler.ofDialect .mysql).buildCondition regroupedVisits .empty = .ok (s₂, .empty) ∧
        readFormula s₁ = nestedFormula.normal ∧ readFormula s₂ = regroupedFormula.normal ∧
        (s₁ = s₂ ↔ nestedFormula.normal = regroupedFormula.normal) := by
  have hnested : nestedVisits.formula? = some nestedFormula := rfl
  have hregrouped : regroupedVisits.formula? = some regroupedFormula := rfl
  exact ⟨hnested, hregrouped, Compiler.buildCondition_formula_inj .mysql .empty hnested hregrouped
    (by decide) (by decide)⟩

end QueryKit
