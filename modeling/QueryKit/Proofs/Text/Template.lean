import Mathlib.Data.List.Count
import QueryKit.Text.Template

/-!
# What templates stand for

- `HasReference`: the template has a reference in it.
- `fillTemplate_of_not_hasReference`: a template without references stands for itself.
- `expandTemplate_eq_self_iff`: no other does, if the text that is being replaced has no dollar
  sign. Every reference that is filled in takes a dollar sign away.
-/

namespace QueryKit.Text

variable {whole s r : List Char} {c : Char}

/-- The template has a reference in it. -/
def HasReference (s : List Char) : Prop :=
  ∃ before after, s = before ++ '$' :: after ∧ (readReference [] after).isSome = true

/-- Whether there is a reference does not depend on what it stands for. -/
theorem isSome_readReference (whole s : List Char) :
    (readReference whole s).isSome = (readReference [] s).isSome := by
  unfold readReference
  split
  · rfl
  · split <;> rfl
  · dsimp only
    split <;> rfl

theorem hasReference_cons : HasReference (c :: s) ↔
    (c = '$' ∧ (readReference [] s).isSome = true) ∨ HasReference s := by
  constructor
  · rintro ⟨before, after, heq, hafter⟩
    cases before with
    | nil =>
      obtain ⟨rfl, rfl⟩ := List.cons.inj heq
      exact .inl ⟨rfl, hafter⟩
    | cons x before =>
      obtain ⟨-, rfl⟩ := List.cons.inj heq
      exact .inr ⟨before, after, rfl, hafter⟩
  · rintro (⟨rfl, hs⟩ | ⟨before, after, rfl, hafter⟩)
    · exact ⟨[], s, rfl, hs⟩
    · exact ⟨c :: before, after, rfl, hafter⟩

theorem not_hasReference_of_not_mem (h : '$' ∉ s) : ¬HasReference s := by
  rintro ⟨before, after, rfl, -⟩
  exact h (List.mem_append_right before List.mem_cons_self)

/-- A template without references stands for itself. -/
theorem fillTemplate_of_not_hasReference (h : ¬HasReference s) : fillTemplate whole 0 s = s := by
  induction s with
  | nil => rfl
  | cons c s ih =>
    rw [hasReference_cons, not_or] at h
    have hrest := ih h.2
    rw [fillTemplate]
    split
    · next hc =>
      have hnone : readReference whole s = none := by
        rw [← Option.not_isSome_iff_eq_none, isSome_readReference]
        exact fun hsome => h.1 ⟨hc, hsome⟩
      rw [hnone, hrest]
    · rw [hrest]

/-! ## Dollar signs -/

section Dollars

variable (hwhole : '$' ∉ whole)

include hwhole

theorem not_mem_referenced (name : List Char) : '$' ∉ referenced whole name := by
  unfold referenced
  split
  · exact hwhole
  · exact List.not_mem_nil

/-- A reference stands for a dollar sign, which is then its whole name, or for no dollar sign. -/
theorem readReference_cases {text : List Char} {length : Nat}
    (h : readReference whole s = some (text, length)) :
    (text = ['$'] ∧ length = 1 ∧ ∃ r, s = '$' :: r) ∨ '$' ∉ text := by
  unfold readReference at h
  split at h
  · next r =>
    cases h
    exact .inl ⟨rfl, rfl, r, rfl⟩
  · split at h
    · cases h
      exact .inr (not_mem_referenced hwhole _)
    · cases h
  · dsimp only at h
    split at h
    · cases h
    · cases h
      exact .inr (not_mem_referenced hwhole _)

/-- Filling in a template adds no dollar signs. -/
theorem count_fillTemplate_le (s : List Char) (skip : Nat) :
    (fillTemplate whole skip s).count '$' ≤ s.count '$' := by
  induction s generalizing skip with
  | nil => simp [fillTemplate]
  | cons c s ih =>
    cases skip with
    | succ skip =>
      have hrest := ih skip
      rw [fillTemplate, List.count_cons]
      omega
    | zero =>
      have hrest := ih 0
      rw [fillTemplate]
      split
      · next hc =>
        rw [hc, List.count_cons_self]
        split
        · next text length href =>
          have hbehind := ih length
          rw [List.count_append]
          rcases readReference_cases hwhole href with ⟨rfl, -, -⟩ | htext
          · rw [List.count_singleton_self]
            omega
          · rw [List.count_eq_zero_of_not_mem htext]
            omega
        · rw [List.count_cons_self]
          omega
      · rw [List.count_cons, List.count_cons]
        omega

/-- A reference that is filled in has no more dollar signs than the text behind its own. -/
theorem count_reference_le {text : List Char} {length : Nat}
    (h : readReference whole s = some (text, length)) :
    (text ++ fillTemplate whole length s).count '$' ≤ s.count '$' := by
  rw [List.count_append]
  rcases readReference_cases hwhole h with ⟨rfl, rfl, r, rfl⟩ | htext
  · have hrest := count_fillTemplate_le hwhole r 0
    rw [fillTemplate, List.count_singleton_self, List.count_cons_self]
    omega
  · have hrest := count_fillTemplate_le hwhole s length
    rw [List.count_eq_zero_of_not_mem htext]
    omega

theorem count_fillTemplate_lt (h : HasReference s) :
    (fillTemplate whole 0 s).count '$' < s.count '$' := by
  induction s with
  | nil =>
    obtain ⟨before, after, heq, -⟩ := h
    simp at heq
  | cons c s ih =>
    rw [fillTemplate]
    rcases hasReference_cons.mp h with ⟨hc, hs⟩ | hs
    · rw [if_pos hc, hc, List.count_cons_self]
      rw [← isSome_readReference whole, Option.isSome_iff_exists] at hs
      obtain ⟨⟨text, length⟩, href⟩ := hs
      have hfilled := count_reference_le hwhole href
      rw [href]
      exact Nat.lt_succ_of_le hfilled
    · have hrest := ih hs
      split
      · next hc =>
        rw [hc, List.count_cons_self]
        split
        · next text length href =>
          have hfilled := count_reference_le hwhole href
          exact Nat.lt_succ_of_le hfilled
        · rw [List.count_cons_self]
          omega
      · rw [List.count_cons, List.count_cons]
        omega

/-- Templates without references are the ones that stand for themselves. -/
theorem expandTemplate_eq_self_iff : expandTemplate whole s = s ↔ ¬HasReference s := by
  constructor
  · intro heq href
    have hcount := count_fillTemplate_lt hwhole href
    rw [show fillTemplate whole 0 s = s from heq] at hcount
    exact Nat.lt_irrefl _ hcount
  · exact fillTemplate_of_not_hasReference

end Dollars

end QueryKit.Text
