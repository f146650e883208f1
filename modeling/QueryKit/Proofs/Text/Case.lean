import QueryKit.Text.Case

/-!
# Letters and their case

- `eq_or_eq_toUpper`: what a letter can be whose small form is known.
- `toNat_toUpper`, `toNat_toLower`: where the capital and the small form of a character stand.
- `mem_toUpper`: characters below the letters come into a text in capitals only from the text
  itself.
- `toUpper_of_ascii`: the capitals of an ASCII text, letter by letter.
-/

namespace QueryKit.Text

theorem eq_or_eq_toUpper (c : Char) : c = c.toLower ∨ c = c.toLower.toUpper := by
  unfold Char.toLower
  split
  · next h =>
    right
    have hlow : 65 ≤ c.val.toNat := by simpa [UInt32.le_iff_toNat_le] using h.1
    have hhigh : c.val.toNat ≤ 90 := by simpa [UInt32.le_iff_toNat_le] using h.2
    have hdown : ('a'.val - 'A'.val).toNat = 32 := by decide
    have hup : ('A'.val - 'a'.val).toNat = 4294967264 := by decide
    have hsmall : (c.val + ('a'.val - 'A'.val)).toNat = c.val.toNat + 32 := by
      rw [UInt32.toNat_add, hdown]
      omega
    apply Char.ext
    unfold Char.toUpper
    rw [dif_pos]
    · apply UInt32.toNat.inj
      rw [UInt32.toNat_add, hsmall, hup]
      omega
    · constructor
      · rw [UInt32.le_iff_toNat_le, hsmall]
        change 97 ≤ _
        omega
      · rw [UInt32.le_iff_toNat_le, hsmall]
        change _ ≤ 122
        omega
  · exact .inl rfl

/-- A text whose small form is known, letter by letter. -/
theorem eqIgnoreCase_iff {s t : String} :
    eqIgnoreCase s t = true ↔ s.toList.map Char.toLower = t.toList.map Char.toLower :=
  beq_iff_eq

/-! ## Capitals and small letters -/

/-- A small letter has its capital 32 places below it; any other character is its own capital. -/
theorem toNat_toUpper (c : Char) : c.toUpper = c ∨
    97 ≤ c.toNat ∧ c.toNat ≤ 122 ∧ c.toUpper.toNat + 32 = c.toNat := by
  unfold Char.toUpper
  split
  · next h =>
    have hlow : 97 ≤ c.val.toNat := by simpa [UInt32.le_iff_toNat_le] using h.1
    have hhigh : c.val.toNat ≤ 122 := by simpa [UInt32.le_iff_toNat_le] using h.2
    have hup : ('A'.val - 'a'.val).toNat = 4294967264 := by decide
    have hsum : (c.val + ('A'.val - 'a'.val)).toNat + 32 = c.val.toNat := by
      rw [UInt32.toNat_add, hup]
      omega
    exact .inr ⟨hlow, hhigh, hsum⟩
  · exact .inl rfl

/-- A capital is its own capital. -/
theorem toUpper_toUpper (c : Char) : c.toUpper.toUpper = c.toUpper := by
  rcases toNat_toUpper c with h | ⟨_, _, hcapital⟩
  · rw [h, h]
  · rcases toNat_toUpper c.toUpper with h | ⟨_, _, _⟩
    · exact h
    · omega

/-- A capital has its small letter 32 places above it; any other character is its own small form. -/
theorem toNat_toLower (c : Char) : c.toLower = c ∨
    65 ≤ c.toNat ∧ c.toNat ≤ 90 ∧ c.toLower.toNat = c.toNat + 32 := by
  rcases eq_or_eq_toUpper c with h | h
  · exact .inl h.symm
  · rcases toNat_toUpper c.toLower with hself | ⟨_, _, hcapital⟩
    · exact .inl (hself ▸ h).symm
    · rw [← h] at hcapital
      exact .inr ⟨by omega, by omega, hcapital.symm⟩

/-- A character below the letters is the small form of itself only. -/
theorem toLower_eq_iff {c d : Char} (hlow : c.toNat < 0x41) : d.toLower = c ↔ d = c := by
  rcases toNat_toLower d with h | ⟨_, _, _⟩
  · rw [h]
  · constructor
    · rintro rfl
      omega
    · rintro rfl
      omega

/-- Such a character is in the small form of a text only if it is in the text. -/
theorem mem_map_toLower {c : Char} {s : List Char} (hlow : c.toNat < 0x41) :
    c ∈ s.map Char.toLower ↔ c ∈ s := by
  simp [toLower_eq_iff hlow]

theorem map_toLower_eq_iff {s t : List Char} (hlow : ∀ c ∈ t, c.toNat < 0x41) :
    s.map Char.toLower = t ↔ s = t := by
  induction t generalizing s with
  | nil => exact List.map_eq_nil_iff
  | cons c t ih =>
    obtain ⟨hc, ht⟩ := List.forall_mem_cons.mp hlow
    cases s with
    | nil => simp
    | cons d s => rw [List.map_cons, List.cons.injEq, List.cons.injEq, toLower_eq_iff hc, ih ht]

/-- A text of such characters occurs in the small form of a text only if it occurs in the text. -/
theorem isInfix_of_map_toLower {s t : List Char} (hlow : ∀ c ∈ t, c.toNat < 0x41)
    (h : t <:+: s.map Char.toLower) : t <:+: s := by
  obtain ⟨before, after, htext⟩ := h
  obtain ⟨front, behind, rfl, hfront, -⟩ := List.append_eq_map_iff.mp htext
  obtain ⟨start, inner, rfl, -, hinner⟩ := List.append_eq_map_iff.mp hfront.symm
  rw [(map_toLower_eq_iff hlow).mp hinner]
  exact List.infix_append start t behind

/-- The number of a character that is made from a number, if it is not the null character. -/
theorem toNat_ofNat {n : Nat} {c : Char} (h : Char.ofNat n = c) (hc : c.toNat ≠ 0) :
    c.toNat = n := by
  subst h
  unfold Char.ofNat at hc ⊢
  by_cases hv : n.isValidChar
  · rw [dif_pos hv]
    rfl
  · rw [dif_neg hv] at hc
    exact absurd rfl hc

theorem upperSpecials_above : ∀ p ∈ upperSpecials, ∀ u ∈ p.2, 0x41 ≤ u := by
  decide +kernel

theorem upperRuns_above : ∀ r ∈ upperRuns, 0x41 ≤ (r.1 : Int) + r.2.2.2 := by
  decide +kernel

/-- A character below the letters is the capital of itself only. -/
theorem mem_upperChars {c d : Char} (hzero : c.toNat ≠ 0) (hlow : c.toNat < 0x41)
    (h : c ∈ upperChars d) : c = d := by
  unfold upperChars at h
  split at h
  · rw [List.mem_singleton] at h
    rcases toNat_toUpper d with hd | ⟨_, _, hcapital⟩
    · rw [h, hd]
    · rw [← h] at hcapital
      omega
  · split at h
    · next us hus =>
      obtain ⟨before, after, hspecials, -⟩ := List.lookup_eq_some_iff.mp hus
      have hmem : (d.toNat, us) ∈ upperSpecials := by simp [hspecials]
      obtain ⟨u, hu, hc⟩ := List.mem_map.mp h
      have habove := upperSpecials_above _ hmem u hu
      have hnumber := toNat_ofNat hc hzero
      omega
    · split at h
      · next lo hi step distance hrun =>
        have habove := upperRuns_above _ (List.mem_of_find?_eq_some hrun)
        have hin := List.find?_some hrun
        simp only [Bool.and_eq_true, decide_eq_true_eq] at hin
        have hnumber := toNat_ofNat (List.mem_singleton.mp h).symm hzero
        dsimp only at habove
        omega
      · exact List.mem_singleton.mp h

theorem mem_toUpper {c : Char} {s : List Char} (hzero : c.toNat ≠ 0) (hlow : c.toNat < 0x41)
    (h : c ∈ toUpper s) : c ∈ s := by
  obtain ⟨d, hd, hc⟩ := List.mem_flatMap.mp h
  exact mem_upperChars hzero hlow hc ▸ hd

/-- The capitals of a text without characters beyond ASCII. -/
theorem toUpper_of_ascii {s : List Char} (h : ∀ c ∈ s, c.toNat < 0x80) :
    toUpper s = s.map Char.toUpper := by
  induction s with
  | nil => rfl
  | cons c s ih =>
    obtain ⟨hc, hs⟩ := List.forall_mem_cons.mp h
    have hone : upperChars c = [c.toUpper] := if_pos hc
    rw [toUpper, List.flatMap_cons, hone, ← toUpper, ih hs]
    rfl

/-- The capitals of an ASCII text are their own capitals. -/
theorem toUpper_toUpper_of_ascii {s : List Char} (h : ∀ c ∈ s, c.toNat < 0x80) :
    toUpper (toUpper s) = toUpper s := by
  have hcapitals : ∀ c ∈ s.map Char.toUpper, c.toNat < 0x80 := by
    intro c hc
    obtain ⟨d, hd, rfl⟩ := List.mem_map.mp hc
    have hlow := h d hd
    rcases toNat_toUpper d with hself | ⟨_, _, hcapital⟩
    · rwa [hself]
    · omega
  rw [toUpper_of_ascii h, toUpper_of_ascii hcapitals, List.map_map]
  exact List.map_congr_left fun c _ => toUpper_toUpper c

end QueryKit.Text
