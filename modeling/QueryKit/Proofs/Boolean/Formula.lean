import QueryKit.Query.Basic

/-!
# Boolean formulas over raw conditions

- `Formula`: NOT, AND and OR over raw texts. `Operand.formula?` is the formula that a condition is.
- `Formula.operand_induction`: induction on formulas, through the operands of AND and OR.
- `Formula.eval`: the truth value under an assignment to the raw texts.
- `Formula.normal`: a formula without what says nothing. The empty text says nothing, nor do NOT,
  AND and OR with nothing left in them; an AND or OR with one operand left is that operand.
- `Formula.IsNormal`: nothing in a formula says nothing, and AND and OR have two operands or more.
- `Formula.eval_normal`: if nothing is left out, then the normal form has the same truth value.
-/

namespace QueryKit

/-- AND and OR of truth values. -/
def Conjunction.join : Conjunction → List Bool → Bool
  | .and, bs => bs.all id
  | .or, bs => bs.any id

@[simp] theorem Conjunction.join_singleton (c : Conjunction) (b : Bool) : c.join [b] = b := by
  cases c <;> simp [join]

theorem Conjunction.join_concat (c : Conjunction) (bs : List Bool) (b : Bool) :
    c.join (bs ++ [b]) = c.join [c.join bs, b] := by
  cases c <;> simp [join]

/-- Conditions that are made of raw texts with NOT, AND and OR. -/
inductive Formula where
  | raw (s : String)
  | not (f : Formula)
  | junction (c : Conjunction) (fs : List Formula)

namespace Formula

section Induction

variable {motive : Formula → Prop}

mutual

/-- What holds of NOT, AND and OR if it holds of their operands holds of every formula. -/
@[elab_as_elim]
theorem operand_induction (raw : ∀ s, motive (.raw s)) (not : ∀ f, motive f → motive (.not f))
    (junction : ∀ c fs, (∀ f ∈ fs, motive f) → motive (.junction c fs)) : ∀ f, motive f
  | .raw s => raw s
  | .not f => not f (operand_induction raw not junction f)
  | .junction c fs => junction c fs (operands_induction raw not junction fs)

theorem operands_induction (raw : ∀ s, motive (.raw s)) (not : ∀ f, motive f → motive (.not f))
    (junction : ∀ c fs, (∀ f ∈ fs, motive f) → motive (.junction c fs)) :
    ∀ fs : List Formula, ∀ f ∈ fs, motive f
  | [], _, hf => nomatch hf
  | g :: fs, f, hf => by
    rcases List.mem_cons.mp hf with hg | hf
    · rw [hg]
      exact operand_induction raw not junction g
    · exact operands_induction raw not junction fs f hf

end

end Induction

/-! ## Truth -/

mutual

/-- The truth value of a formula under an assignment to the raw texts. -/
def eval (v : String → Bool) : Formula → Bool
  | .raw s => v s
  | .not f => !f.eval v
  | .junction c fs => c.join (evals v fs)

def evals (v : String → Bool) : List Formula → List Bool
  | [] => []
  | f :: fs => f.eval v :: evals v fs

end

theorem evals_eq (v : String → Bool) : ∀ fs : List Formula, evals v fs = fs.map (eval v)
  | [] => rfl
  | f :: fs => by rw [evals, evals_eq v fs, List.map_cons]

mutual

/-- The raw texts in a formula. -/
def raws : Formula → List String
  | .raw s => [s]
  | .not f => f.raws
  | .junction _ fs => rawsAll fs

def rawsAll : List Formula → List String
  | [] => []
  | f :: fs => f.raws ++ rawsAll fs

end

theorem rawsAll_eq : ∀ fs : List Formula, rawsAll fs = fs.flatMap raws
  | [] => rfl
  | f :: fs => by rw [rawsAll, rawsAll_eq fs, List.flatMap_cons]

theorem mem_rawsAll {s : String} {fs : List Formula} : s ∈ rawsAll fs ↔ ∃ f ∈ fs, s ∈ f.raws := by
  rw [rawsAll_eq, List.mem_flatMap]

/-! ## Normal forms -/

/-- Formulas that are left of an AND or OR. -/
def collapse (c : Conjunction) : List Formula → Option Formula
  | [] => none
  | [f] => some f
  | fs => some (.junction c fs)

mutual

/-- A formula without what says nothing; nothing if nothing is left. -/
def normal : Formula → Option Formula
  | .raw s => if s = "" then none else some (.raw s)
  | .not f => f.normal.map .not
  | .junction c fs => collapse c (normals fs)

/-- What is left of each formula that something is left of. -/
def normals : List Formula → List Formula
  | [] => []
  | f :: fs => f.normal.toList ++ normals fs

end

theorem normals_eq : ∀ fs : List Formula, normals fs = fs.filterMap normal
  | [] => rfl
  | f :: fs => by
    rw [normals, normals_eq fs]
    cases h : f.normal with
    | none => rw [List.filterMap_cons_none h]; rfl
    | some g => rw [List.filterMap_cons_some h]; rfl

theorem mem_normals {g : Formula} {fs : List Formula} :
    g ∈ normals fs ↔ ∃ f ∈ fs, f.normal = some g := by
  rw [normals_eq, List.mem_filterMap]

/-- Nothing in the formula says nothing, and every AND and OR has two operands or more. -/
inductive IsNormal : Formula → Prop where
  | raw {s : String} : s ≠ "" → IsNormal (.raw s)
  | not {f : Formula} : f.IsNormal → IsNormal (.not f)
  | junction (c : Conjunction) {f g : Formula} {fs : List Formula} :
      (∀ h ∈ f :: g :: fs, h.IsNormal) → IsNormal (.junction c (f :: g :: fs))

variable {c : Conjunction} {f g : Formula} {fs : List Formula}

theorem exists_collapse (c : Conjunction) (h : fs ≠ []) : ∃ f, collapse c fs = some f := by
  match fs, h with
  | [f], _ => exact ⟨f, rfl⟩
  | f :: g :: fs, _ => exact ⟨.junction c (f :: g :: fs), rfl⟩

/-- One more operand of an AND or OR. -/
theorem collapse_concat (h : collapse c fs = some f) (g : Formula) :
    collapse c (fs ++ [g]) = some (.junction c (fs ++ [g])) := by
  match fs, h with
  | [_], _ => rfl
  | _ :: _ :: _, _ => rfl

theorem eval_collapse (h : collapse c fs = some f) (v : String → Bool) :
    f.eval v = c.join (evals v fs) := by
  match fs, h with
  | [_], h =>
    cases h
    simp [evals]
  | _ :: _ :: _, h =>
    cases h
    rw [eval]

theorem isNormal_collapse (h : collapse c fs = some f) (hfs : ∀ g ∈ fs, g.IsNormal) :
    f.IsNormal := by
  match fs, h with
  | [_], h =>
    cases h
    exact hfs _ List.mem_cons_self
  | _ :: _ :: _, h =>
    cases h
    exact .junction c hfs

theorem raws_collapse (h : collapse c fs = some f) : f.raws = rawsAll fs := by
  match fs, h with
  | [_], h =>
    cases h
    simp [rawsAll]
  | _ :: _ :: _, h =>
    cases h
    rw [raws]

theorem isNormal_normal (h : f.normal = some g) : g.IsNormal := by
  induction f using operand_induction generalizing g with
  | raw s =>
    rw [normal] at h
    split at h
    · cases h
    · next hs =>
      cases h
      exact .raw hs
  | not f ih =>
    rw [normal] at h
    obtain ⟨f', hf, rfl⟩ := Option.map_eq_some_iff.mp h
    exact .not (ih hf)
  | junction c fs ih =>
    refine isNormal_collapse h fun g hg => ?_
    obtain ⟨f, hf, hfg⟩ := mem_normals.mp hg
    exact ih f hf hfg

theorem IsNormal.ne_empty {s : String} (h : f.IsNormal) (hs : s ∈ f.raws) : s ≠ "" := by
  induction h with
  | raw hne =>
    rw [List.mem_singleton.mp hs]
    exact hne
  | not _ ih => exact ih hs
  | junction c _ ih =>
    obtain ⟨g, hg, hs⟩ := mem_rawsAll.mp hs
    exact ih g hg hs

/-- No raw text of the formula is empty, and every AND and OR has an operand. -/
inductive IsFull : Formula → Prop where
  | raw {s : String} : s ≠ "" → IsFull (.raw s)
  | not {f : Formula} : f.IsFull → IsFull (.not f)
  | junction (c : Conjunction) {fs : List Formula} :
      fs ≠ [] → (∀ f ∈ fs, f.IsFull) → IsFull (.junction c fs)

theorem normals_of_some : ∀ {fs : List Formula},
    (∀ f ∈ fs, ∃ g, f.normal = some g ∧ ∀ v, g.eval v = f.eval v) →
    (normals fs).length = fs.length ∧ ∀ v, evals v (normals fs) = evals v fs
  | [], _ => ⟨rfl, fun _ => rfl⟩
  | f :: fs, h => by
    obtain ⟨⟨g, hg, heval⟩, h⟩ := List.forall_mem_cons.mp h
    obtain ⟨hlength, hevals⟩ := normals_of_some h
    rw [normals, hg]
    refine ⟨congrArg (· + 1) hlength, fun v => ?_⟩
    rw [evals, ← heval v, ← hevals v]
    rfl

/-- If nothing is left out of a formula, then its normal form has its truth value. -/
theorem eval_normal (h : f.IsFull) : ∃ g, f.normal = some g ∧ ∀ v, g.eval v = f.eval v := by
  induction h with
  | @raw s hs => exact ⟨.raw s, by rw [normal, if_neg hs], fun _ => rfl⟩
  | not _ ih =>
    obtain ⟨g, hg, heval⟩ := ih
    exact ⟨.not g, by rw [normal, hg]; rfl, fun v => by rw [eval, eval, heval v]⟩
  | @junction c fs hne _ ih =>
    obtain ⟨hlength, hevals⟩ := normals_of_some ih
    have hne' : normals fs ≠ [] := by
      intro hn
      rw [hn] at hlength
      exact hne (List.length_eq_zero_iff.mp hlength.symm)
    obtain ⟨g, hg⟩ := exists_collapse c hne'
    exact ⟨g, hg, fun v => by rw [eval_collapse hg, hevals, eval]⟩

/-- The normal form is made of raw texts of the formula. -/
theorem mem_raws_normal {s : String} (h : f.normal = some g) (hs : s ∈ g.raws) : s ∈ f.raws := by
  induction f using operand_induction generalizing g with
  | raw t =>
    rw [normal] at h
    split at h
    · cases h
    · cases h
      exact hs
  | not f ih =>
    rw [normal] at h
    obtain ⟨f', hf, rfl⟩ := Option.map_eq_some_iff.mp h
    rw [raws] at hs ⊢
    exact ih hf hs
  | junction c fs ih =>
    rw [raws_collapse h] at hs
    obtain ⟨g, hg, hs⟩ := mem_rawsAll.mp hs
    obtain ⟨f, hf, hfg⟩ := mem_normals.mp hg
    exact mem_rawsAll.mpr ⟨f, hf, ih f hf hfg hs⟩

end Formula

/-! ## Conditions that are formulas -/

/-- NOT of one formula; AND and OR of any number of them. -/
def ConditionKind.formula? : ConditionKind → List Formula → Option Formula
  | .not, [f] => some (.not f)
  | .conjunction c, fs => some (.junction c fs)
  | _, _ => none

theorem ConditionKind.formula?_not {fs : List Formula} {f : Formula}
    (h : ConditionKind.not.formula? fs = some f) : ∃ g, fs = [g] ∧ f = .not g := by
  unfold formula? at h
  split at h
  · next g _ => exact ⟨g, rfl, (Option.some.inj h).symm⟩
  · next hk => cases hk
  · cases h

namespace Operand

mutual

/-- The formula that a condition is, if it is made of raw texts with NOT, AND and OR. -/
def formula? : Operand → Option Formula
  | .value (.string s) => some (.raw s)
  | .list (head :: operands) => do
    let token ← head.asString
    let fs ← formulas? operands
    (Operator.parse token).kind.formula? fs
  | _ => none

def formulas? : List Operand → Option (List Formula)
  | [] => some []
  | o :: os => do
    let f ← formula? o
    let fs ← formulas? os
    return f :: fs

end

theorem formula?_list {head : Operand} {operands : List Operand} {f : Formula}
    (h : (list (head :: operands)).formula? = some f) :
    ∃ token fs, head.asString = some token ∧ formulas? operands = some fs ∧
      (Operator.parse token).kind.formula? fs = some f := by
  rw [formula?] at h
  obtain ⟨token, ht, h⟩ := Option.bind_eq_some_iff.mp h
  obtain ⟨fs, hfs, h⟩ := Option.bind_eq_some_iff.mp h
  exact ⟨token, fs, ht, hfs, h⟩

theorem formulas?_cons {o : Operand} {os : List Operand} {fs : List Formula}
    (h : formulas? (o :: os) = some fs) :
    ∃ g gs, fs = g :: gs ∧ o.formula? = some g ∧ formulas? os = some gs := by
  rw [formulas?] at h
  obtain ⟨g, hg, h⟩ := Option.bind_eq_some_iff.mp h
  obtain ⟨gs, hgs, h⟩ := Option.bind_eq_some_iff.mp h
  exact ⟨g, gs, (Option.some.inj h).symm, hg, hgs⟩

theorem formulas?_singleton {os : List Operand} {f : Formula} (h : formulas? os = some [f]) :
    ∃ o, os = [o] ∧ o.formula? = some f := by
  cases os with
  | nil => cases h
  | cons o os =>
    obtain ⟨g, gs, hcons, hg, hgs⟩ := formulas?_cons h
    obtain ⟨rfl, rfl⟩ := List.cons.inj hcons
    cases os with
    | nil => exact ⟨o, rfl, hg⟩
    | cons p os =>
      obtain ⟨_, _, hcons, -⟩ := formulas?_cons hgs
      cases hcons

end Operand

end QueryKit
