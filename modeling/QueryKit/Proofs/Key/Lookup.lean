import QueryKit.Query.Keyed

/-!
# Finding an entry by its key

What `List.lookup` finds in front (`lookup_cons_if`), after an entry was put in its place
(`lookup_putKeyed`), taken out (`lookup_filter_ne`) or put at the end (`lookup_append_single`).
-/

namespace QueryKit

variable {α κ : Type} [BEq κ] [LawfulBEq κ] [DecidableEq κ]

theorem lookup_cons_if (k : κ) (a : α) (l : List (κ × α)) (i : κ) :
    ((k, a) :: l).lookup i = if i = k then some a else l.lookup i := by
  by_cases hi : i = k
  · simp [hi]
  · simp [List.lookup_cons, beq_eq_false_iff_ne.mpr hi, hi]

theorem lookup_putKeyed (id : String) (a : α) (i : String) :
    ∀ l : List (String × α),
      (putKeyed id a l).lookup i = if i = id then some a else l.lookup i
  | [] => lookup_cons_if id a [] i
  | (k, c) :: l => by
    have ih := lookup_putKeyed id a i l
    unfold putKeyed
    by_cases hk : k = id
    · rw [if_pos hk, lookup_cons_if, lookup_cons_if, hk]
      split <;> rfl
    · rw [if_neg hk, lookup_cons_if, lookup_cons_if, ih]
      by_cases hi : i = k
      · rw [if_pos hi, if_pos hi, if_neg (hi ▸ hk)]
      · rw [if_neg hi, if_neg hi]

theorem lookup_filter_ne (id i : String) : ∀ l : List (String × α),
    (l.filter fun e => e.1 != id).lookup i = if i = id then none else l.lookup i
  | [] => by simp
  | (k, c) :: l => by
    have ih := lookup_filter_ne id i l
    by_cases hk : k = id
    · rw [List.filter_cons_of_neg (by simpa using hk), ih, lookup_cons_if, hk]
      split <;> rfl
    · rw [List.filter_cons_of_pos (by simpa using hk), lookup_cons_if, lookup_cons_if, ih]
      by_cases hi : i = k
      · rw [if_pos hi, if_pos hi, if_neg (hi ▸ hk)]
      · rw [if_neg hi, if_neg hi]

theorem lookup_append_single (id : String) (a : α) (i : String) (l : List (String × α)) :
    (l ++ [(id, a)]).lookup i = (l.lookup i).or (if i = id then some a else none) := by
  rw [List.lookup_append, lookup_cons_if, List.lookup_nil]

end QueryKit
