import QueryKit.Proofs.Text.Case
import QueryKit.Text.Blank
import QueryKit.Text.Word
import Mathlib.Data.List.DropRight

/-!
# Texts without blanks at their ends

- `trimChars_trimChars`: trimming once is enough.
- `trimChars_map_toUpper`: blanks have no capitals, so that it does not matter whether a text is
  trimmed first or put into capitals first.
- `not_isBlank_of_isWord`: no blank stands in a word.
-/

namespace QueryKit.Text

theorem isBlank_iff {c : Char} : isBlank c = true ↔
    9 ≤ c.toNat ∧ c.toNat ≤ 13 ∨ c.toNat = 0x20 ∨ c.toNat = 0x85 ∨ c.toNat = 0xA0 ∨
      c.toNat = 0x1680 ∨ 0x2000 ≤ c.toNat ∧ c.toNat ≤ 0x200A ∨ c.toNat = 0x2028 ∨
      c.toNat = 0x2029 ∨ c.toNat = 0x202F ∨ c.toNat = 0x205F ∨ c.toNat = 0x3000 := by
  simp [isBlank, or_assoc]

theorem isBlank_toUpper (c : Char) : isBlank c.toUpper = isBlank c := by
  rcases toNat_toUpper c with h | ⟨hlow, hhigh, hcapital⟩
  · rw [h]
  · rw [Bool.eq_iff_iff, isBlank_iff, isBlank_iff]
    omega

/-- The word characters beyond ASCII lie between the blanks. -/
theorem wordRanges_apart : ∀ r ∈ wordRanges, 0xA0 < r.1 ∧
    (r.2 < 0x1680 ∨ 0x1680 < r.1 ∧ r.2 < 0x2000 ∨ 0x200A < r.1 ∧ r.2 < 0x2028 ∨
      0x2029 < r.1 ∧ r.2 < 0x202F ∨ 0x202F < r.1 ∧ r.2 < 0x205F ∨ 0x205F < r.1 ∧ r.2 < 0x3000 ∨
      0x3000 < r.1) := by
  decide +kernel

theorem toNat_of_isAlphanum {c : Char} (h : c.isAlphanum = true) : 0x30 ≤ c.toNat := by
  have hsmall : ∀ n < 0x30, (Char.ofNat n).isAlphanum = false := by decide
  by_contra hlow
  have hnot := hsmall c.toNat (Nat.not_le.mp hlow)
  rw [Char.ofNat_toNat] at hnot
  exact Bool.false_ne_true (hnot.symm.trans h)

theorem not_isBlank_of_isWord {c : Char} (h : isWord c = true) : isBlank c = false := by
  rw [Bool.eq_false_iff, Ne, isBlank_iff]
  unfold isWord at h
  split at h
  · next hascii =>
    rw [Bool.or_eq_true, beq_iff_eq] at h
    rcases h with h | rfl
    · have hlow := toNat_of_isAlphanum h
      omega
    · decide
  · obtain ⟨r, hr, hin⟩ := List.any_eq_true.mp h
    have hapart := wordRanges_apart r hr
    simp only [Bool.and_eq_true, decide_eq_true_eq] at hin
    omega

theorem trimEnd_eq (s : List Char) : trimEnd s = s.rdropWhile isBlank :=
  rfl

theorem isBlank_of_trimStart {s r : List Char} {c : Char} (h : trimStart s = c :: r) :
    isBlank c = false := by
  have hfirst := List.head?_dropWhile_not isBlank s
  rw [← trimStart, h] at hfirst
  exact hfirst

/-- The end of a text is trimmed without touching its start. -/
theorem trimStart_trimEnd_trimStart (s : List Char) :
    trimStart (trimEnd (trimStart s)) = trimEnd (trimStart s) := by
  obtain ⟨t, ht⟩ := List.rdropWhile_prefix isBlank (trimStart s)
  rw [← trimEnd_eq] at ht
  cases hs : trimEnd (trimStart s) with
  | nil => rfl
  | cons c r =>
    rw [hs] at ht
    exact List.dropWhile_cons_of_neg (by simp [isBlank_of_trimStart ht.symm])

/-- What is trimmed from the end of a text are blanks. -/
theorem exists_trimEnd (s : List Char) : ∃ b, (∀ c ∈ b, isBlank c = true) ∧ s = trimEnd s ++ b :=
  ⟨s.rtakeWhile isBlank, fun _ => List.mem_rtakeWhile_imp,
    List.rdropWhile_append_rtakeWhile.symm⟩

/-- Blanks at the end do not count. -/
theorem trimEnd_append {s b : List Char} (hb : ∀ c ∈ b, isBlank c = true) :
    trimEnd (s ++ b) = trimEnd s := by
  rw [trimEnd, List.reverse_append, List.dropWhile_append_of_pos fun c hc =>
    hb c (List.mem_reverse.mp hc)]
  rfl

theorem trimEnd_concat {s : List Char} {c : Char} (hc : isBlank c = false) :
    trimEnd (s ++ [c]) = s ++ [c] :=
  List.rdropWhile_concat_neg isBlank s c (Bool.eq_false_iff.mp hc)

/-- A text without blanks at its start has none at the start of a part in front. -/
theorem trimStart_left {s t : List Char} (h : trimStart (s ++ t) = s ++ t) : trimStart s = s := by
  cases s with
  | nil => rfl
  | cons c s => exact List.dropWhile_cons_of_neg (by simp [isBlank_of_trimStart h])

theorem trimChars_trimChars (s : List Char) : trimChars (trimChars s) = trimChars s := by
  unfold trimChars
  rw [trimStart_trimEnd_trimStart]
  exact List.rdropWhile_idempotent isBlank (trimStart s)

theorem trimStart_of_trimChars {s : List Char} (h : trimChars s = s) : trimStart s = s := by
  have htwice := trimStart_trimEnd_trimStart s
  rwa [← trimChars, h] at htwice

theorem trimEnd_of_trimChars {s : List Char} (h : trimChars s = s) : trimEnd s = s := by
  rwa [trimChars, trimStart_of_trimChars h] at h

theorem trimChars_map_toUpper (s : List Char) :
    trimChars (s.map Char.toUpper) = (trimChars s).map Char.toUpper := by
  have hblank : isBlank ∘ Char.toUpper = isBlank := funext isBlank_toUpper
  rw [trimChars, trimEnd, trimStart, List.dropWhile_map, ← List.map_reverse, List.dropWhile_map,
    ← List.map_reverse, hblank]
  rfl

end QueryKit.Text
