import QueryKit.Proofs.Boolean.Formula

/-!
# Restrictions

- `Restriction`: membership tests among values under AND, OR and NOT.
- `Restriction.eval`: the truth of a restriction in ordinary logic.
- `Restriction.said`: what is left of a restriction if NOT IN without values says nothing. NOT of
  nothing says nothing, and AND and OR say what those of their operands say that say something.
- `Restriction.Faithful`: conditions on a restriction under which what is left of it agrees with
  ordinary logic, one for the rows that are kept and one for those that are not
  (`Restriction.Faithful.eval_eq`).
-/

namespace QueryKit

/-- Membership tests under AND, OR and NOT. -/
inductive Restriction where
  | among (column : String) (negated : Bool) (values : List Value)
  | not (r : Restriction)
  | junction (c : Conjunction) (rs : List Restriction)

namespace Restriction

section Induction

variable {motive : Restriction → Prop}

mutual

/-- What holds of NOT, AND and OR if it holds of their operands holds of every restriction. -/
@[elab_as_elim]
theorem operand_induction
    (among : ∀ column negated values, motive (.among column negated values))
    (not : ∀ r, motive r → motive (.not r))
    (junction : ∀ c rs, (∀ r ∈ rs, motive r) → motive (.junction c rs)) : ∀ r, motive r
  | .among column negated values => among column negated values
  | .not r => not r (operand_induction among not junction r)
  | .junction c rs => junction c rs (operands_induction among not junction rs)

theorem operands_induction
    (among : ∀ column negated values, motive (.among column negated values))
    (not : ∀ r, motive r → motive (.not r))
    (junction : ∀ c rs, (∀ r ∈ rs, motive r) → motive (.junction c rs)) :
    ∀ rs : List Restriction, ∀ r ∈ rs, motive r
  | [], _, hr => nomatch hr
  | s :: rs, r, hr => by
    rcases List.mem_cons.mp hr with hs | hr
    · rw [hs]
      exact operand_induction among not junction s
    · exact operands_induction among not junction rs r hr

end

end Induction

/-! ## What it says -/

section Says

variable (same : Value → Value → Bool) (cells : String → Value)

mutual

/-- The truth of a restriction in ordinary logic. A cell is never among no values. -/
def eval : Restriction → Bool
  | .among column negated vs => vs.any (same (cells column)) != negated
  | .not r => !r.eval
  | .junction c rs => c.join (evals rs)

def evals : List Restriction → List Bool
  | [] => []
  | r :: rs => r.eval :: evals rs

end

mutual

/-- What the clause of a restriction says, if it says anything. -/
def said : Restriction → Option Bool
  | .among column negated vs =>
    if negated && vs.isEmpty then none else some (vs.any (same (cells column)) != negated)
  | .not r => r.said.map (!·)
  | .junction c rs =>
    match saids rs with
    | [] => none
    | bs => some (c.join bs)

/-- What is said by those that say something. -/
def saids : List Restriction → List Bool
  | [] => []
  | r :: rs => r.said.toList ++ saids rs

end

end Says

mutual

/-- Whether a restriction says nothing. -/
def silent : Restriction → Bool
  | .among _ negated vs => negated && vs.isEmpty
  | .not r => r.silent
  | .junction _ rs => allSilent rs

def allSilent : List Restriction → Bool
  | [] => true
  | r :: rs => r.silent && allSilent rs

end

/-! ## Ordinary logic -/

section Logic

variable {same : Value → Value → Bool} {cells : String → Value} {r : Restriction}
  {rs : List Restriction} {c : Conjunction}

theorem allSilent_iff : allSilent rs = true ↔ ∀ r ∈ rs, r.silent = true := by
  induction rs with
  | nil => simp [allSilent]
  | cons r rs ih => rw [allSilent, Bool.and_eq_true, ih, List.forall_mem_cons]

theorem saids_eq : ∀ rs : List Restriction, saids same cells rs = rs.filterMap (said same cells)
  | [] => rfl
  | r :: rs => by
    rw [saids, saids_eq rs]
    cases h : r.said same cells with
    | none => rw [List.filterMap_cons_none h]; rfl
    | some b => rw [List.filterMap_cons_some h]; rfl

theorem evals_eq : ∀ rs : List Restriction, evals same cells rs = rs.map (eval same cells)
  | [] => rfl
  | r :: rs => by rw [evals, evals_eq rs, List.map_cons]

theorem said_junction (h : saids same cells rs ≠ []) :
    (junction c rs).said same cells = some (c.join (saids same cells rs)) := by
  rw [said]
  cases hs : saids same cells rs with
  | nil => exact absurd hs h
  | cons b bs => rfl

theorem saids_eq_nil : saids same cells rs = [] ↔ ∀ r ∈ rs, r.said same cells = none := by
  rw [saids_eq, List.filterMap_eq_nil_iff]

/-- Which restrictions say nothing does not depend on the row. -/
theorem said_eq_none : r.said same cells = none ↔ r.silent = true := by
  induction r using operand_induction with
  | among column negated vs =>
    rw [said, silent]
    cases negated && vs.isEmpty <;> simp
  | not r ih => rw [said, silent, Option.map_eq_none_iff, ih]
  | junction c rs ih =>
    have hsaid : (junction c rs).said same cells = none ↔ saids same cells rs = [] := by
      rw [said]
      cases saids same cells rs <;> simp
    rw [hsaid, saids_eq_nil, silent, allSilent_iff]
    exact forall₂_congr ih

/-- Where what is left of a restriction is `b`, it is `b` in ordinary logic. The parts that are left
out stand for what they are in ordinary logic: a whole condition and an operand of AND that say
nothing are true, and an operand of OR that says nothing beside others is false. -/
inductive Faithful : Bool → Restriction → Prop where
  | among (b : Bool) (column : String) (negated : Bool) (vs : List Value) :
      Faithful b (.among column negated vs)
  | silent {b : Bool} {r : Restriction} : r.silent = true →
      (b = true → ∀ same cells, r.eval same cells = true) → Faithful b r
  | not {b : Bool} {r : Restriction} : r.silent = false → Faithful (!b) r → Faithful b (.not r)
  | and {b : Bool} {rs : List Restriction} : (∀ r ∈ rs, Faithful b r) →
      Faithful b (.junction .and rs)
  | or {b : Bool} {rs : List Restriction} : (∃ r ∈ rs, r.silent = false) →
      (∀ r ∈ rs, r.silent = false → Faithful b r) →
      (b = false → ∀ r ∈ rs, r.silent = true → ∀ same cells, r.eval same cells = false) →
      Faithful b (.junction .or rs)

theorem getD_said_among (column : String) (negated : Bool) (vs : List Value) :
    ((among column negated vs).said same cells).getD true =
      (among column negated vs).eval same cells := by
  rw [said, eval]
  split
  · next h =>
    rw [Bool.and_eq_true, List.isEmpty_iff] at h
    rw [h.1, h.2]
    rfl
  · rfl

/-- AND keeps a row if all its operands do. -/
theorem getD_said_and :
    ((junction .and rs).said same cells).getD true = true ↔
      ∀ r ∈ rs, (r.said same cells).getD true = true := by
  have hsaids : ((junction .and rs).said same cells).getD true =
      Conjunction.join .and (saids same cells rs) := by
    rw [said]
    cases saids same cells rs <;> rfl
  rw [hsaids, Conjunction.join, List.all_eq_true, saids_eq]
  constructor
  · intro h r hr
    cases hb : r.said same cells with
    | none => rfl
    | some b => exact h b (List.mem_filterMap.mpr ⟨r, hr, hb⟩)
  · intro h b hb
    obtain ⟨r, hr, hb⟩ := List.mem_filterMap.mp hb
    have hr := h r hr
    rwa [hb] at hr

/-- An OR in which something is said holds if one of its operands says so. -/
theorem getD_said_or (h : saids same cells rs ≠ []) :
    ((junction .or rs).said same cells).getD true = true ↔
      ∃ r ∈ rs, r.said same cells = some true := by
  rw [said_junction h, Option.getD_some, Conjunction.join, List.any_eq_true, saids_eq]
  simp

theorem eval_and : (junction .and rs).eval same cells = true ↔
    ∀ r ∈ rs, r.eval same cells = true := by
  rw [eval, evals_eq, Conjunction.join]
  simp

theorem eval_or : (junction .or rs).eval same cells = true ↔
    ∃ r ∈ rs, r.eval same cells = true := by
  rw [eval, evals_eq, Conjunction.join]
  simp

theorem exists_said (h : r.silent = false) : ∃ b, r.said same cells = some b := by
  rw [← Option.ne_none_iff_exists', ne_eq, said_eq_none, h]
  exact Bool.false_ne_true

/-- Whether a row is kept or not, ordinary logic agrees with a faithful restriction. -/
theorem Faithful.eval_eq {b : Bool} (h : Faithful b r)
    (hsaid : (r.said same cells).getD true = b) : r.eval same cells = b := by
  induction h with
  | among b column negated vs => rwa [getD_said_among] at hsaid
  | silent hs htrue =>
    rw [said_eq_none.mpr hs] at hsaid
    cases hsaid
    exact htrue rfl same cells
  | @not b r hs _ ih =>
    obtain ⟨x, hx⟩ : ∃ x, r.said same cells = some x := exists_said hs
    rw [said, hx] at hsaid
    have hr : r.eval same cells = !b := by
      refine ih ?_
      rw [hx, ← hsaid]
      exact (Bool.not_not x).symm
    rw [eval, hr, Bool.not_not]
  | @and b rs _ ih =>
    cases b with
    | true => exact eval_and.mpr fun r hr => ih r hr (getD_said_and.mp hsaid r hr)
    | false =>
      by_cases hall : ∀ r ∈ rs, (r.said same cells).getD true = true
      · rw [getD_said_and.mpr hall] at hsaid
        cases hsaid
      · rw [Bool.eq_false_iff, ne_eq, eval_and]
        intro heval
        refine hall fun r hr => ?_
        rw [← Bool.not_eq_false]
        intro hfalse
        exact Bool.false_ne_true ((ih r hr hfalse).symm.trans (heval r hr))
  | @or b rs hloud _ hfalse ih =>
    have hsome : saids same cells rs ≠ [] := by
      obtain ⟨r, hr, hs⟩ := hloud
      intro hnil
      have hsilent := said_eq_none.mp (saids_eq_nil.mp hnil r hr)
      exact Bool.false_ne_true (hs.symm.trans hsilent)
    cases b with
    | true =>
      obtain ⟨r, hr, hx⟩ := (getD_said_or hsome).mp hsaid
      have hs : r.silent = false := by
        rw [Bool.eq_false_iff]
        intro hsilent
        exact Option.some_ne_none true (hx.symm.trans (said_eq_none.mpr hsilent))
      exact eval_or.mpr ⟨r, hr, ih r hr hs (by rw [hx]; rfl)⟩
    | false =>
      rw [Bool.eq_false_iff, ne_eq, eval_or]
      rintro ⟨r, hr, heval⟩
      cases hs : r.silent with
      | true => exact Bool.false_ne_true ((hfalse rfl r hr hs same cells).symm.trans heval)
      | false =>
        obtain ⟨x, hx⟩ : ∃ x, r.said same cells = some x := exists_said hs
        cases x with
        | true =>
          rw [(getD_said_or hsome).mpr ⟨r, hr, hx⟩] at hsaid
          cases hsaid
        | false =>
          have hr := ih r hr hs (by rw [hx]; rfl)
          exact Bool.false_ne_true (hr.symm.trans heval)

/-- What is said by a restriction that is faithful both ways. -/
theorem getD_said_eq (htrue : r.Faithful true) (hfalse : r.Faithful false) :
    (r.said same cells).getD true = r.eval same cells := by
  cases hsaid : (r.said same cells).getD true with
  | true => exact (htrue.eval_eq hsaid).symm
  | false => exact (hfalse.eval_eq hsaid).symm

end Logic

end Restriction

end QueryKit
