import QueryKit.Dialect.Quoting

/-!
# Texts that show where they end

- `Stops p u`: a text that does not begin with a character of `p`, so that a run of such characters
  in front of it ends there.
- `append_cancel`, `intRepr_cancel`, `replaceChar_cancel`, `quoteValue_cancel`: a run of characters,
  a number, a text with a doubled character and a quoted text can be told from what follows them.
-/

namespace QueryKit

variable {p : Char → Bool} {s t u v : List Char}

/-- The text does not begin with a character of `p`. -/
def Stops (p : Char → Bool) (u : List Char) : Prop :=
  ∀ c ∈ u.head?, p c = false

theorem Stops.nil : Stops p [] :=
  fun _ h => by cases h

theorem stops_cons {c : Char} (h : p c = false) : Stops p (c :: u) := by
  rintro d hd
  cases hd
  exact h

theorem Stops.head {c : Char} (h : Stops p (c :: u)) : p c = false :=
  h c rfl

/-- Two runs of characters that stop where the rest begins are the same if the whole texts are. -/
theorem append_cancel (hs : ∀ c ∈ s, p c = true) (ht : ∀ c ∈ t, p c = true) (hu : Stops p u)
    (hv : Stops p v) (h : s ++ u = t ++ v) : s = t ∧ u = v := by
  induction s generalizing t with
  | nil =>
    cases t with
    | nil => exact ⟨rfl, h⟩
    | cons d t =>
      rw [List.nil_append, List.cons_append] at h
      have hd := (h ▸ hu).head
      rw [ht d List.mem_cons_self] at hd
      cases hd
  | cons c s ih =>
    obtain ⟨hc, hs⟩ := List.forall_mem_cons.mp hs
    cases t with
    | nil =>
      rw [List.nil_append, List.cons_append] at h
      have hc' := (h ▸ hv).head
      rw [hc] at hc'
      cases hc'
    | cons d t =>
      obtain ⟨rfl, hrest⟩ := List.cons.inj h
      obtain ⟨rfl, huv⟩ := ih hs (List.forall_mem_cons.mp ht).2 hrest
      exact ⟨rfl, huv⟩

theorem Stops.append (h : Stops p u) (hne : u ≠ []) : Stops p (u ++ v) := by
  obtain ⟨c, r, rfl⟩ := List.exists_cons_of_ne_nil hne
  exact stops_cons h.head

theorem Stops.dropWhile (h : Stops p u) : u.dropWhile p = u := by
  cases u with
  | nil => rfl
  | cons c u => exact List.dropWhile_cons_of_neg (Bool.eq_false_iff.mp h.head)

theorem Stops.takeWhile (h : Stops p u) : u.takeWhile p = [] := by
  cases u with
  | nil => rfl
  | cons c u => exact List.takeWhile_cons_of_neg (Bool.eq_false_iff.mp h.head)

theorem dropWhile_append (hs : ∀ c ∈ s, p c = true) (hu : Stops p u) :
    (s ++ u).dropWhile p = u := by
  rw [List.dropWhile_append_of_pos hs, hu.dropWhile]

theorem takeWhile_append (hs : ∀ c ∈ s, p c = true) (hu : Stops p u) :
    (s ++ u).takeWhile p = s := by
  rw [List.takeWhile_append_of_pos hs, hu.takeWhile, List.append_nil]

theorem Text.dropText_eq_some {start rest : List Char} :
    Text.dropText start s = some rest ↔ s = start ++ rest := by
  induction start generalizing s with
  | nil => simp [Text.dropText]
  | cons c start ih =>
    cases s with
    | nil => simp [Text.dropText]
    | cons d s =>
      rw [Text.dropText]
      by_cases hc : c = d
      · simp [hc, ih]
      · simp [hc, Ne.symm hc]

theorem Text.dropTextEnd_eq_some {e r : List Char} :
    Text.dropTextEnd e s = some r ↔ s = r ++ e := by
  rw [Text.dropTextEnd, Option.map_eq_some_iff]
  constructor
  · rintro ⟨t, ht, rfl⟩
    rw [Text.dropText_eq_some] at ht
    rw [← List.reverse_reverse s, ht, List.reverse_append, List.reverse_reverse]
  · rintro rfl
    exact ⟨r.reverse, Text.dropText_eq_some.mpr (by simp), List.reverse_reverse r⟩

/-! ## Numbers -/

theorem isDigit_of_mem_natRepr {n : Nat} {c : Char} (h : c ∈ (Nat.repr n).toList) :
    c.isDigit = true := by
  rw [Nat.repr, String.toList_ofList] at h
  exact Nat.isDigit_of_mem_toDigits (by decide) (by decide) h

theorem natRepr_inj {m n : Nat} (h : (Nat.repr m).toList = (Nat.repr n).toList) : m = n := by
  have hdigits := congrArg (Nat.ofDigitChars 10 · 0) h
  simpa using hdigits

theorem natRepr_cancel {m n : Nat} (hu : Stops Char.isDigit u) (hv : Stops Char.isDigit v)
    (h : (Nat.repr m).toList ++ u = (Nat.repr n).toList ++ v) : m = n ∧ u = v := by
  obtain ⟨hmn, huv⟩ := append_cancel (fun _ => isDigit_of_mem_natRepr)
    (fun _ => isDigit_of_mem_natRepr) hu hv h
  exact ⟨natRepr_inj hmn, huv⟩

/-- A natural number begins with a digit. -/
theorem natRepr_cons (n : Nat) : ∃ c r, (Nat.repr n).toList = c :: r ∧ c.isDigit = true := by
  cases h : (Nat.repr n).toList with
  | nil =>
    rw [Nat.repr, String.toList_ofList] at h
    exact absurd h Nat.toDigits_ne_nil
  | cons c r => exact ⟨c, r, rfl, isDigit_of_mem_natRepr (h ▸ List.mem_cons_self)⟩

/-- An integer is a natural number, or a sign and a natural number. -/
theorem intRepr_cases (n : Int) : (0 ≤ n ∧ (Int.repr n).toList = (Nat.repr n.toNat).toList) ∨
    (n < 0 ∧ (Int.repr n).toList = '-' :: (Nat.repr (-n).toNat).toList) := by
  rw [Int.repr_eq_if]
  by_cases hn : 0 ≤ n
  · rw [if_pos hn]
    exact .inl ⟨hn, rfl⟩
  · rw [if_neg hn, String.toList_append]
    exact .inr ⟨Int.not_le.mp hn, rfl⟩

theorem minus_not_natRepr {m : Nat} : (Nat.repr m).toList ++ u ≠ '-' :: v := by
  obtain ⟨c, r, hm, hc⟩ := natRepr_cons m
  rw [hm]
  intro h
  rw [(List.cons.inj h).1] at hc
  cases hc

theorem intRepr_cancel {m n : Int} (hu : Stops Char.isDigit u) (hv : Stops Char.isDigit v)
    (h : (Int.repr m).toList ++ u = (Int.repr n).toList ++ v) : m = n ∧ u = v := by
  rcases intRepr_cases m with ⟨hm, htext⟩ | ⟨hm, htext⟩ <;>
    rcases intRepr_cases n with ⟨hn, htext'⟩ | ⟨hn, htext'⟩ <;> rw [htext, htext'] at h
  · obtain ⟨hmn, huv⟩ := natRepr_cancel hu hv h
    exact ⟨by omega, huv⟩
  · exact absurd h minus_not_natRepr
  · exact absurd h.symm minus_not_natRepr
  · obtain ⟨hmn, huv⟩ := natRepr_cancel hu hv (List.cons.inj h).2
    exact ⟨by omega, huv⟩

/-! ## Quoted texts -/

theorem replaceChar_cons (c d : Char) (r s : List Char) :
    Text.replaceChar c r (d :: s) = (if d = c then r else [d]) ++ Text.replaceChar c r s :=
  rfl

theorem replaceChar_of_not_mem {c : Char} {r : List Char} (h : c ∉ s) :
    Text.replaceChar c r s = s := by
  induction s with
  | nil => rfl
  | cons d s ih =>
    have hd : d ≠ c := fun hd => h (hd ▸ List.mem_cons_self)
    rw [replaceChar_cons, if_neg hd, ih fun hs => h (List.mem_cons_of_mem d hs),
      List.singleton_append]

/-- A text in which a character is doubled ends where this character is single. -/
theorem replaceChar_cancel {c : Char} (hu : Stops (· == c) u) (hv : Stops (· == c) v)
    (h : Text.replaceChar c [c, c] s ++ c :: u = Text.replaceChar c [c, c] t ++ c :: v) :
    s = t ∧ u = v := by
  -- a text that goes on with the doubled character does not end there
  have hopen : ∀ {w : List Char} {d : Char} {r x : List Char}, Stops (· == c) w →
      c :: w ≠ Text.replaceChar c [c, c] (d :: r) ++ x := by
    intro w d r x hw heq
    rw [replaceChar_cons] at heq
    split at heq
    · have hhead := ((List.cons.inj heq).2 ▸ hw).head
      simp at hhead
    · next hd => exact hd (List.cons.inj heq).1.symm
  induction s generalizing t with
  | nil =>
    cases t with
    | nil => exact ⟨rfl, (List.cons.inj h).2⟩
    | cons d t => exact absurd h (hopen hu)
  | cons e s ih =>
    cases t with
    | nil => exact absurd h.symm (hopen hv)
    | cons d t =>
      rw [replaceChar_cons, replaceChar_cons, List.append_assoc, List.append_assoc] at h
      by_cases he : e = c <;> by_cases hd : d = c
      · rw [if_pos he, if_pos hd] at h
        obtain ⟨rfl, huv⟩ := ih (List.append_cancel_left h)
        exact ⟨by rw [he, hd], huv⟩
      · rw [if_pos he, if_neg hd] at h
        exact absurd (List.cons.inj h).1.symm hd
      · rw [if_neg he, if_pos hd] at h
        exact absurd (List.cons.inj h).1 he
      · rw [if_neg he, if_neg hd] at h
        obtain ⟨rfl, huv⟩ := ih (List.cons.inj h).2
        exact ⟨by rw [(List.cons.inj h).1], huv⟩

theorem replaceChar_inj {c : Char}
    (h : Text.replaceChar c [c, c] s = Text.replaceChar c [c, c] t) : s = t :=
  (replaceChar_cancel Stops.nil Stops.nil (congrArg (· ++ [c]) h)).1

/-- A string literal ends with a quote behind which there is no other. -/
theorem quoteValue_cancel {d : Dialect} {a b : String} (hu : Stops (· == '\'') u)
    (hv : Stops (· == '\'') v)
    (h : (d.quoteValue a).toList ++ u = (d.quoteValue b).toList ++ v) : a = b ∧ u = v := by
  simp only [Dialect.quoteValue, String.toList_ofList, List.cons_append, List.append_assoc,
    List.nil_append, List.cons.injEq, true_and] at h
  obtain ⟨hab, huv⟩ := replaceChar_cancel hu hv h
  refine ⟨?_, huv⟩
  split at hab
  · exact String.toList_inj.mp (replaceChar_inj hab)
  · exact String.toList_inj.mp hab

end QueryKit
