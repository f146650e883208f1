import QueryKit.Proofs.Boolean.Formula

/-!
# Truth values of search conditions

- `Truth`: a condition holds of a row, fails, or is unknown. Only rows of which it holds are kept.
- `Conjunction.joinTruth`: AND and OR. Where nothing is unknown they are those of `Bool`
  (`Conjunction.joinTruth_ofBool`).
- `Truth.equal`: equality of values, which is unknown as soon as one of them is null. What it is for
  other values differs between servers, so it is a parameter.
- `CellTest`: a cell is among some values, or it is null. `CellTest.among_holds` and
  `CellTest.notAmong_holds` say when the first kind holds.
-/

namespace QueryKit

/-- The truth values of a search condition. -/
inductive Truth where
  | holds
  | fails
  | unknown
deriving DecidableEq, Repr

namespace Truth

def ofBool (b : Bool) : Truth :=
  if b then holds else fails

def not : Truth → Truth
  | holds => fails
  | fails => holds
  | unknown => unknown

/-- AND: what fails on one side fails. -/
def and : Truth → Truth → Truth
  | fails, _ | _, fails => fails
  | holds, holds => holds
  | _, _ => unknown

/-- OR: what holds on one side holds. -/
def or : Truth → Truth → Truth
  | holds, _ | _, holds => holds
  | fails, fails => fails
  | _, _ => unknown

variable {s t : Truth} {a b : Bool}

theorem not_eq_holds : t.not = holds ↔ t = fails := by
  cases t <;> simp [not]

theorem and_eq_holds : s.and t = holds ↔ s = holds ∧ t = holds := by
  cases s <;> cases t <;> simp [and]

theorem or_eq_holds : s.or t = holds ↔ s = holds ∨ t = holds := by
  cases s <;> cases t <;> simp [or]

theorem or_eq_fails : s.or t = fails ↔ s = fails ∧ t = fails := by
  cases s <;> cases t <;> simp [or]

theorem and_holds (t : Truth) : t.and holds = t := by
  cases t <;> rfl

theorem or_fails (t : Truth) : t.or fails = t := by
  cases t <;> rfl

theorem ofBool_eq_holds : ofBool b = holds ↔ b = true := by
  cases b <;> simp [ofBool]

theorem not_ofBool : (ofBool b).not = ofBool !b := by
  cases b <;> rfl

theorem and_ofBool : (ofBool a).and (ofBool b) = ofBool (a && b) := by
  cases a <;> cases b <;> rfl

theorem or_ofBool : (ofBool a).or (ofBool b) = ofBool (a || b) := by
  cases a <;> cases b <;> rfl

end Truth

/-- AND and OR of truth values. -/
def Conjunction.joinTruth : Conjunction → List Truth → Truth
  | .and, ts => ts.foldr Truth.and .holds
  | .or, ts => ts.foldr Truth.or .fails

namespace Conjunction

variable {ts : List Truth}

theorem joinTruth_singleton (c : Conjunction) (t : Truth) : c.joinTruth [t] = t := by
  cases c with
  | and => exact t.and_holds
  | or => exact t.or_fails

theorem joinTruth_or_holds : joinTruth .or ts = .holds ↔ .holds ∈ ts := by
  induction ts with
  | nil => simp [joinTruth]
  | cons t ts ih =>
    change t.or (joinTruth .or ts) = .holds ↔ _
    rw [Truth.or_eq_holds, ih, List.mem_cons, eq_comm]

theorem joinTruth_and_holds : joinTruth .and ts = .holds ↔ ∀ t ∈ ts, t = .holds := by
  induction ts with
  | nil => simp [joinTruth]
  | cons t ts ih =>
    change t.and (joinTruth .and ts) = .holds ↔ _
    rw [Truth.and_eq_holds, ih, List.forall_mem_cons]

theorem joinTruth_or_fails : joinTruth .or ts = .fails ↔ ∀ t ∈ ts, t = .fails := by
  induction ts with
  | nil => simp [joinTruth]
  | cons t ts ih =>
    change t.or (joinTruth .or ts) = .fails ↔ _
    rw [Truth.or_eq_fails, ih, List.forall_mem_cons]

theorem joinTruth_ofBool (c : Conjunction) (bs : List Bool) :
    c.joinTruth (bs.map .ofBool) = .ofBool (c.join bs) := by
  induction bs with
  | nil => cases c <;> rfl
  | cons b bs ih =>
    cases c with
    | and =>
      change (Truth.ofBool b).and (joinTruth .and (bs.map .ofBool)) = _
      rw [ih, Truth.and_ofBool]
      rfl
    | or =>
      change (Truth.ofBool b).or (joinTruth .or (bs.map .ofBool)) = _
      rw [ih, Truth.or_ofBool]
      rfl

end Conjunction

/-! ## Tests of cells -/

/-- Whether two values are equal, if `same` says so of values that are not null. -/
def Truth.equal (same : Value → Value → Bool) (a b : Value) : Truth :=
  if a.isNull || b.isNull then unknown else ofBool (same a b)

/-- Whether a value is among others: OR of equalities. -/
def Truth.among (same : Value → Value → Bool) (a : Value) (vs : List Value) : Truth :=
  Conjunction.joinTruth .or (vs.map (equal same a))

/-- A test of a cell. A comparison with `=` or `<>` is a test among one value. -/
inductive CellTest where
  | among (negated : Bool) (places : Nat)
  | isNull (negated : Bool)
deriving DecidableEq, Repr

namespace CellTest

/-- How many values the test is put to. -/
def places : CellTest → Nat
  | among _ places => places
  | isNull _ => 0

/-- NOT IN is NOT of IN. -/
def truth (same : Value → Value → Bool) (cell : Value) : CellTest → List Value → Truth
  | among negated _, vs =>
    if negated then (Truth.among same cell vs).not else Truth.among same cell vs
  | isNull negated, _ => .ofBool (cell.isNull != negated)

end CellTest

variable {same : Value → Value → Bool} {cell v : Value} {vs : List Value} {places : Nat}

theorem Truth.equal_eq_holds : Truth.equal same cell v = .holds ↔
    cell.isNull = false ∧ v.isNull = false ∧ same cell v = true := by
  unfold Truth.equal
  split
  · next h =>
    rw [Bool.or_eq_true] at h
    rcases h with h | h <;> simp [h]
  · next h =>
    rw [Bool.not_eq_true, Bool.or_eq_false_iff] at h
    rw [Truth.ofBool_eq_holds]
    simp [h]

theorem Truth.equal_eq_fails : Truth.equal same cell v = .fails ↔
    cell.isNull = false ∧ v.isNull = false ∧ same cell v = false := by
  unfold Truth.equal
  split
  · next h =>
    rw [Bool.or_eq_true] at h
    rcases h with h | h <;> simp [h]
  · next h =>
    rw [Bool.not_eq_true, Bool.or_eq_false_iff] at h
    rw [← Truth.not_eq_holds, Truth.not_ofBool, Truth.ofBool_eq_holds]
    simp [h]

theorem Truth.equal_of_not_null (hcell : cell.isNull = false) (hv : v.isNull = false) :
    Truth.equal same cell v = .ofBool (same cell v) := by
  rw [Truth.equal, hcell, hv]
  rfl

namespace CellTest

/-- A cell is among values if it equals one of them. -/
theorem among_holds : (among false places).truth same cell vs = .holds ↔
    cell.isNull = false ∧ ∃ v ∈ vs, v.isNull = false ∧ same cell v = true := by
  change Truth.among same cell vs = .holds ↔ _
  rw [Truth.among, Conjunction.joinTruth_or_holds, List.mem_map]
  constructor
  · rintro ⟨v, hv, h⟩
    obtain ⟨hcell, hnull, hsame⟩ := Truth.equal_eq_holds.mp h
    exact ⟨hcell, v, hv, hnull, hsame⟩
  · rintro ⟨hcell, v, hv, hnull, hsame⟩
    exact ⟨v, hv, Truth.equal_eq_holds.mpr ⟨hcell, hnull, hsame⟩⟩

/-- A cell is not among values if it differs from all of them. Null differs from no value. -/
theorem notAmong_holds (hne : vs ≠ []) : (among true places).truth same cell vs = .holds ↔
    cell.isNull = false ∧ ∀ v ∈ vs, v.isNull = false ∧ same cell v = false := by
  change (Truth.among same cell vs).not = .holds ↔ _
  rw [Truth.not_eq_holds, Truth.among, Conjunction.joinTruth_or_fails, List.forall_mem_map]
  constructor
  · intro h
    obtain ⟨v, hv⟩ := List.exists_mem_of_ne_nil vs hne
    refine ⟨(Truth.equal_eq_fails.mp (h v hv)).1, fun v hv => ?_⟩
    exact (Truth.equal_eq_fails.mp (h v hv)).2
  · rintro ⟨hcell, h⟩ v hv
    exact Truth.equal_eq_fails.mpr ⟨hcell, h v hv⟩

/-- Where nothing is null, the test is an ordinary one. -/
theorem among_eq_ofBool (negated : Bool) (hcell : cell.isNull = false)
    (hvs : ∀ v ∈ vs, v.isNull = false) :
    (among negated places).truth same cell vs = .ofBool (vs.any (same cell) != negated) := by
  have hequal : vs.map (Truth.equal same cell) = (vs.map (same cell)).map .ofBool := by
    rw [List.map_map]
    exact List.map_congr_left fun v hv => Truth.equal_of_not_null hcell (hvs v hv)
  have hfound : Truth.among same cell vs = .ofBool (vs.any (same cell)) := by
    rw [Truth.among, hequal, Conjunction.joinTruth_ofBool, Conjunction.join, List.any_map]
    rfl
  cases negated with
  | false =>
    rw [Bool.bne_false]
    exact hfound
  | true =>
    rw [Bool.bne_true, ← Truth.not_ofBool, ← hfound]
    rfl

end CellTest

end QueryKit
