import QueryKit.Proofs.Boolean.Rendered
import QueryKit.Proofs.Compile.Clauses

/-!
# Chains of conditions

- `Assertion`: a condition over raw texts that says something, with the formula that it says.
- `Assertion.exists_of_text`: a condition over raw texts that is rendered to some text is one.
- `Query.whereVerb`, `Query.havingVerb`, `Query.chain`: calls that add a condition to a clause, one
  after the other.
- `Operand.States.combine`: one call. AND is put into a list that begins with AND, and wraps
  anything else; either way, the new condition is joined with all that was there.
- `Assertion.foldl_combine`: a chain of calls.
- `Compiler.renderClause_chain`: the clause that is rendered for a chain holds where the calls do,
  taken from the left.
-/

namespace QueryKit

namespace Formula

variable {c : Conjunction} {f : Formula} {fs : List Formula}

/-- One more operand of what is left of an AND or OR. -/
theorem eval_concat (h : collapse c fs = some f) (g : Formula) (v : String → Bool) :
    (junction c (fs ++ [g])).eval v = c.join [f.eval v, g.eval v] := by
  rw [eval, evals_eq, List.map_append, List.map_singleton, Conjunction.join_concat, ← evals_eq,
    ← eval_collapse h]

theorem raws_concat (h : collapse c fs = some f) (g : Formula) :
    (junction c (fs ++ [g])).raws = f.raws ++ g.raws := by
  rw [raws, raws_collapse h, rawsAll_eq, rawsAll_eq, List.flatMap_append, List.flatMap_singleton]

end Formula

open Formula

/-! ## One call -/

/-- A condition over raw texts, and the formula that is left of it. -/
def Operand.States (o : Operand) (g : Formula) : Prop :=
  ∃ f, o.formula? = some f ∧ f.normal = some g

namespace Operand

variable {a b : Operand} {f g : Formula}

theorem formulas?_concat {o : Operand} {f : Formula} (ho : o.formula? = some f) :
    ∀ {os : List Operand} {fs : List Formula}, formulas? os = some fs →
      formulas? (os ++ [o]) = some (fs ++ [f])
  | [], fs, h => by
    cases h
    rw [List.nil_append, formulas?, ho]
    rfl
  | m :: os, _, h => by
    obtain ⟨g, gs, rfl, hg, hgs⟩ := formulas?_cons h
    rw [List.cons_append, formulas?, hg, formulas?_concat ho hgs]
    rfl

/-- AND and OR of operands that are formulas. -/
theorem states_junction {head : Operand} {operands : List Operand} {token : String}
    {c : Conjunction} {fs : List Formula} (ht : head.asString = some token)
    (hk : (Operator.parse token).kind = .conjunction c) (hfs : formulas? operands = some fs) :
    (list (head :: operands)).States g ↔ collapse c (normals fs) = some g := by
  have hf : (list (head :: operands)).formula? = some (.junction c fs) := by
    rw [formula?, ht, Option.bind_eq_bind, Option.bind_some, hfs, Option.bind_eq_bind,
      Option.bind_some, hk]
    rfl
  constructor
  · rintro ⟨f', hf', hg⟩
    rw [hf] at hf'
    cases hf'
    exact hg
  · exact fun hg => ⟨_, hf, hg⟩

/-- An AND that says something, and its operands. -/
theorem States.operands_of_and {items : List Operand} (hand : Query.beginsWithAnd items = true)
    (h : (list items).States f) :
    ∃ head operands token fs, items = head :: operands ∧ head.asString = some token ∧
      (Operator.parse token).kind = .conjunction .and ∧ formulas? operands = some fs ∧
      collapse .and (normals fs) = some f := by
  obtain ⟨tree, htree, hf⟩ := h
  cases items with
  | nil => cases hand
  | cons head operands =>
    obtain ⟨token, fs, ht, hfs, hkind⟩ := formula?_list htree
    have hk : (Operator.parse token).kind = .conjunction .and :=
      kind_of_eqIgnoreCase (by simpa [Query.beginsWithAnd, ht] using hand)
    rw [hk] at hkind
    cases hkind
    exact ⟨head, operands, token, fs, rfl, ht, hk, hfs, hf⟩

/-- Two conditions under a new AND or OR. -/
theorem States.wrapped {token : String} {c : Conjunction}
    (hk : (Operator.parse token).kind = .conjunction c) (ha : a.States f) (hb : b.States g) :
    (list [.string token, a, b]).States (.junction c [f, g]) := by
  obtain ⟨f', hf', hf⟩ := ha
  obtain ⟨g', hg', hg⟩ := hb
  have hoperands : formulas? [a, b] = some [f', g'] := by
    rw [formulas?, formulas?, formulas?, hf', hg']
    rfl
  refine (states_junction rfl hk hoperands).mpr ?_
  rw [normals, normals, hf, hg]
  rfl

/-- AND with one more condition. What was there is all that the condition is put behind. -/
theorem States.conjoin (ha : a.States f) (hb : b.States g) :
    ∃ fs, collapse .and fs = some f ∧
      (Query.conjoin (some a) b).States (.junction .and (fs ++ [g])) := by
  have hwrapped : (list [.string "and", a, b]).States (.junction .and ([f] ++ [g])) :=
    ha.wrapped (kind_of_eqIgnoreCase (by decide)) hb
  unfold Query.conjoin
  split
  · next h => cases h
  · next items h =>
    cases h
    split
    · next hand =>
      -- the list is extended: its operands that say something are those of what it said
      obtain ⟨head, operands, token, fs, rfl, ht, hk, hfs, hf⟩ := ha.operands_of_and hand
      obtain ⟨g', hg', hg⟩ := hb
      refine ⟨normals fs, hf, (states_junction ht hk (formulas?_concat hg' hfs)).mpr ?_⟩
      rw [normals_eq, List.filterMap_append, ← normals_eq, List.filterMap_cons_some hg]
      exact collapse_concat hf g
    · exact ⟨[f], rfl, hwrapped⟩
  · next h =>
    cases h
    exact ⟨[f], rfl, hwrapped⟩

end Operand

/-! ## Chains of calls -/

/-- A condition that says something. -/
structure Assertion where
  operand : Operand
  formula : Formula
  states : operand.States formula

namespace Query

/-- A clause with one more condition. -/
def combine : Conjunction → Option Operand → Operand → Operand
  | .and => conjoin
  | .or => disjoin

def whereVerb : Conjunction → Query → Operand → Query
  | .and => andWhere
  | .or => orWhere

def havingVerb : Conjunction → Query → Operand → Query
  | .and => andHaving
  | .or => orHaving

/-- The calls of a verb, one after the other. -/
def chain (verb : Conjunction → Query → Operand → Query) (q : Query)
    (calls : List (Conjunction × Assertion)) : Query :=
  calls.foldl (fun q call => verb call.1 q call.2.operand) q

end Query

open Query

/-- One call joins the condition with all that was there. -/
theorem Operand.States.combine {a b : Operand} {f g : Formula} (c : Conjunction) (ha : a.States f)
    (hb : b.States g) :
    ∃ fs, collapse c fs = some f ∧
      (Query.combine c (some a) b).States (.junction c (fs ++ [g])) := by
  cases c with
  | and => exact ha.conjoin hb
  | or => exact ⟨[f], rfl, ha.wrapped or_kind hb⟩

namespace Assertion

/-- A condition over raw texts that is rendered to some text is an assertion. If nothing is left out
of it, then the assertion has the truth value of the condition itself. -/
theorem exists_of_text {d : Dialect} {o : Operand} {f : Formula} {text : String}
    (hf : o.formula? = some f)
    (htext : renderOperand (.ofDialect d) .condition o = .pure text) (hne : text ≠ "") :
    ∃ a : Assertion, a.operand = o ∧ f.normal = some a.formula ∧
      (f.IsFull → ∀ v, a.formula.eval v = f.eval v) := by
  cases hg : f.normal with
  | none =>
    rw [renderOperand_formula o f hf, hg] at htext
    cases htext
    exact absurd rfl hne
  | some g =>
    refine ⟨⟨o, g, f, hf, hg⟩, rfl, rfl, fun hfull v => ?_⟩
    obtain ⟨g', hg', heval⟩ := eval_normal hfull
    rw [hg] at hg'
    cases hg'
    exact heval v

/-- What a clause says after a call. -/
theorem combine (a b : Assertion) (c : Conjunction) :
    ∃ r : Assertion, r.operand = Query.combine c (some a.operand) b.operand ∧
      r.formula.raws = a.formula.raws ++ b.formula.raws ∧
      ∀ v, r.formula.eval v = c.join [a.formula.eval v, b.formula.eval v] := by
  obtain ⟨fs, hfs, hstates⟩ := a.states.combine c b.states
  exact ⟨⟨_, _, hstates⟩, rfl, raws_concat hfs b.formula, eval_concat hfs b.formula⟩

/-- What a clause says after a chain of calls: the calls from the left, over their raw texts in
order. -/
theorem foldl_combine : ∀ (calls : List (Conjunction × Assertion)) (first : Assertion),
    ∃ r : Assertion,
      r.operand = calls.foldl (fun o call => Query.combine call.1 (some o) call.2.operand)
        first.operand ∧
      r.formula.raws = first.formula.raws ++ calls.flatMap (·.2.formula.raws) ∧
      ∀ v, r.formula.eval v =
        calls.foldl (fun b call => call.1.join [b, call.2.formula.eval v]) (first.formula.eval v)
  | [], first => ⟨first, rfl, (List.append_nil _).symm, fun _ => rfl⟩
  | (c, call) :: calls, first => by
    obtain ⟨second, hoperand, hraws, heval⟩ := first.combine call c
    obtain ⟨r, hr, hrraws, hreval⟩ := foldl_combine calls second
    refine ⟨r, ?_, ?_, fun v => ?_⟩
    · rw [hr, hoperand]
      rfl
    · rw [hrraws, hraws, List.flatMap_cons, List.append_assoc]
    · rw [hreval, heval]
      rfl

end Assertion

/-- A verb that adds a condition to a clause adds the conditions of a chain. -/
theorem clause_chain {clause : Query → Option Operand}
    {verb : Conjunction → Query → Operand → Query}
    (hverb : ∀ c q o, clause (verb c q o) = some (combine c (clause q) o)) :
    ∀ (calls : List (Conjunction × Assertion)) {q : Query} {o : Operand}, clause q = some o →
      clause (chain verb q calls) =
        some (calls.foldl (fun o call => combine call.1 (some o) call.2.operand) o)
  | [], _, _, h => h
  | (c, call) :: calls, q, o, h => by
    have hcall : clause (verb c q call.operand) = some (combine c (some o) call.operand) := by
      rw [hverb, h]
    exact clause_chain hverb calls hcall

theorem condition_whereVerb (c : Conjunction) (q : Query) (o : Operand) :
    (whereVerb c q o).condition = some (combine c q.condition o) := by
  cases c <;> rfl

theorem having_havingVerb (c : Conjunction) (q : Query) (o : Operand) :
    (havingVerb c q o).having = some (combine c q.having o) := by
  cases c <;> rfl

/-- The clause of a chain of calls holds where the calls do, taken from the left. Its text consists
of lexemes that read so. They are found in the text unless a raw text has parentheses of its own. -/
theorem Compiler.renderClause_chain (d : Dialect) (q : Query) (first : Assertion)
    (calls : List (Conjunction × Assertion)) :
    ∃ text ls,
      renderClause (.ofDialect d) (chain whereVerb (q.where_ first.operand) calls).condition =
        .pure text ∧
      renderClause (.ofDialect d) (chain havingVerb (q.withHaving first.operand) calls).having =
        .pure text ∧
      text = String.ofList (spell ls) ∧
      ls.filterMap Lexeme.raw? = first.formula.raws ++ calls.flatMap (·.2.formula.raws) ∧
      ((∀ s ∈ first.formula.raws ++ calls.flatMap (·.2.formula.raws), ParenFree s) →
        lex text = ls) ∧
      ∀ v, (readLexemes ls).map (eval v) = some
        (calls.foldl (fun b call => call.1.join [b, call.2.formula.eval v])
          (first.formula.eval v)) := by
  obtain ⟨r, hoperand, hraws, heval⟩ := Assertion.foldl_combine calls first
  obtain ⟨tree, htree, hnormal⟩ := r.states
  have hrender : renderClause (.ofDialect d) (some r.operand) = .pure r.formula.text := by
    rw [renderClause, renderOperand_formula r.operand tree htree, hnormal]
    rfl
  have hform := isNormal_normal hnormal
  refine ⟨r.formula.text, r.formula.lexemes, ?_, ?_, rfl, ?_, fun hp => ?_, fun v => ?_⟩
  · rw [clause_chain condition_whereVerb calls rfl, ← hoperand, hrender]
  · rw [clause_chain having_havingVerb calls rfl, ← hoperand, hrender]
  · rw [raws_lexemes, hraws]
  · exact lex_text hform (hraws ▸ hp)
  · rw [readLexemes_lexemes hform, Option.map_some, heval]

example :
    renderClause (.ofDialect .mysql)
        (disjoin (some (conjoin (some (.list [.string "And", .string "a", .string "b"]))
          (.list [.string "AND", .string "c", .string "d"]))) (.string "e")) =
      .pure "((a) AND (b) AND ((c) AND (d))) OR (e)" := by
  rfl

end QueryKit
