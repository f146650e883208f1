import QueryKit.Proofs.Condition.Substring
import QueryKit.Proofs.Text.Delimited
import Mathlib.Logic.Relation

/-!
# A pattern is escaped in a single pass

- `AppliesAt`: a pair of a custom escape applies where its text stands, unless that text is empty.
- `Turn`: one turn of a scan. What is written is only added to, and what is left of the pattern gets
  shorter (`Turn.length_lt`), so that a replacement is never looked at again and every scan ends.
- `Turn.written`: what is written and what is still to be made of the rest are the same text after
  each turn (`turns_iff` for a whole scan).
- `firstPair_standard`: the three standard pairs do in any order what the standard escape does.
-/

namespace QueryKit

namespace LikeEscape

/-- The text of a pair is not empty and stands at the start. -/
def AppliesAt (s : List Char) (pair : String × String) : Prop :=
  pair.1.toList ≠ [] ∧ pair.1.toList <+: s

/-- What has been written and what is left of the pattern. -/
abbrev Stage := List Char × List Char

/-- One turn of a scan. -/
inductive Turn (pairs : List (String × String)) : Stage → Stage → Prop
  /-- The first pair that applies. -/
  | replace {before after : List (String × String)} {key value : String} {out rest : List Char}
    (hpairs : pairs = before ++ (key, value) :: after)
    (hbefore : ∀ pair ∈ before, ¬AppliesAt (key.toList ++ rest) pair) (hkey : key.toList ≠ []) :
    Turn pairs (out, key.toList ++ rest) (out ++ value.toList, rest)
  /-- One character where no pair applies. -/
  | copy {c : Char} {out rest : List Char} (hnone : ∀ pair ∈ pairs, ¬AppliesAt (c :: rest) pair) :
    Turn pairs (out, c :: rest) (out ++ [c], rest)

/-- The pairs that do what the standard escape does. -/
def standardPairs : List (String × String) :=
  [("\\", "\\\\"), ("%", "\\%"), ("_", "\\_")]

variable {pairs : List (String × String)} {s t : List Char} {x y z : Stage}

/-! ## The first pair -/

theorem appliesAt_iff {key value : String} :
    AppliesAt s (key, value) ↔ key.toList ≠ [] ∧ (Text.dropText key.toList s).isSome := by
  refine and_congr_right fun _ => ?_
  rw [Option.isSome_iff_exists]
  exact exists_congr fun r => eq_comm.trans Text.dropText_eq_some.symm

theorem firstPair_eq_none :
    firstPair s pairs = none ↔ ∀ pair ∈ pairs, ¬AppliesAt s pair := by
  induction pairs with
  | nil => simp [firstPair]
  | cons pair pairs ih =>
    obtain ⟨key, value⟩ := pair
    rw [firstPair, List.forall_mem_cons, appliesAt_iff, ← ih]
    by_cases h : key.toList ≠ [] ∧ (Text.dropText key.toList s).isSome
    · rw [if_pos h]
      exact ⟨nofun, fun hnone => absurd h hnone.1⟩
    · rw [if_neg h]
      exact ⟨fun hnone => ⟨h, hnone⟩, And.right⟩

theorem firstPair_eq_some {key value : String} {before after : List (String × String)}
    (hbefore : ∀ pair ∈ before, ¬AppliesAt s pair) (h : AppliesAt s (key, value)) :
    firstPair s (before ++ (key, value) :: after) = some (value.toList, key.toList.length) := by
  induction before with
  | nil => exact if_pos (appliesAt_iff.mp h)
  | cons pair before ih =>
    obtain ⟨hpair, hbefore⟩ := List.forall_mem_cons.mp hbefore
    rw [List.cons_append, firstPair, if_neg (appliesAt_iff.not.mp hpair), ih hbefore]

/-- Where some pair applies there is a first one. -/
theorem exists_first (h : ∃ pair ∈ pairs, AppliesAt s pair) :
    ∃ before key value after, pairs = before ++ (key, value) :: after ∧
      (∀ pair ∈ before, ¬AppliesAt s pair) ∧ AppliesAt s (key, value) := by
  induction pairs with
  | nil => simp at h
  | cons pair pairs ih =>
    by_cases hpair : AppliesAt s pair
    · exact ⟨[], pair.1, pair.2, pairs, rfl, List.forall_mem_nil _, hpair⟩
    · obtain ⟨p, hp, happlies⟩ := h
      have hrest : p ∈ pairs := by
        rcases List.mem_cons.mp hp with rfl | hrest
        · exact absurd happlies hpair
        · exact hrest
      obtain ⟨before, key, value, after, rfl, hbefore, hfirst⟩ := ih ⟨p, hrest, happlies⟩
      exact ⟨pair :: before, key, value, after, rfl, List.forall_mem_cons.mpr ⟨hpair, hbefore⟩,
        hfirst⟩

/-- A pair without a text is passed over. -/
theorem firstPair_filter :
    firstPair s (pairs.filter fun pair => pair.1 ≠ "") = firstPair s pairs := by
  induction pairs with
  | nil => rfl
  | cons pair pairs ih =>
    obtain ⟨key, value⟩ := pair
    by_cases hkey : key = ""
    · subst hkey
      simpa [firstPair] using ih
    · rw [List.filter_cons_of_pos (by simpa using hkey), firstPair, firstPair, ih]

/-! ## Turns -/

theorem applyPairs_filter (n : Nat) :
    applyPairs (pairs.filter fun pair => pair.1 ≠ "") n s = applyPairs pairs n s := by
  induction s generalizing n with
  | nil => cases n <;> rfl
  | cons c s ih =>
    cases n with
    | succ n => exact ih n
    | zero => simp only [applyPairs, firstPair_filter, ih]

theorem applyPairs_drop (n : Nat) : applyPairs pairs n s = applyPairs pairs 0 (s.drop n) := by
  induction n generalizing s with
  | zero => rfl
  | succ n ih =>
    cases s with
    | nil => rfl
    | cons c s => rw [applyPairs, ih, List.drop_succ_cons]

/-- Where a pair is the first that applies, its replacement is written. -/
theorem applyPairs_replace {key value : String} {before after : List (String × String)}
    (hpairs : pairs = before ++ (key, value) :: after)
    (hbefore : ∀ pair ∈ before, ¬AppliesAt (key.toList ++ s) pair) (hkey : key.toList ≠ []) :
    applyPairs pairs 0 (key.toList ++ s) = value.toList ++ applyPairs pairs 0 s := by
  have hfirst : firstPair (key.toList ++ s) pairs = some (value.toList, key.toList.length) :=
    hpairs ▸ firstPair_eq_some hbefore ⟨hkey, List.prefix_append _ _⟩
  obtain ⟨c, r, hcons⟩ := List.exists_cons_of_ne_nil hkey
  rw [hcons, List.cons_append] at hfirst ⊢
  rw [applyPairs, hfirst]
  dsimp only
  rw [List.length_cons, Nat.add_sub_cancel, applyPairs_drop, List.drop_left]

theorem applyPairs_copy {c : Char} (hnone : ∀ pair ∈ pairs, ¬AppliesAt (c :: s) pair) :
    applyPairs pairs 0 (c :: s) = c :: applyPairs pairs 0 s := by
  rw [applyPairs, firstPair_eq_none.mpr hnone]

namespace Turn

/-- What is left gets shorter. -/
theorem length_lt (h : Turn pairs x y) : y.2.length < x.2.length := by
  cases h with
  | replace _ _ hkey =>
    have hlength := List.length_pos_of_ne_nil hkey
    simp only [List.length_append]
    omega
  | copy => exact Nat.lt_succ_self _

/-- A turn keeps the text that the scan comes to. -/
theorem written (h : Turn pairs x y) :
    y.1 ++ applyPairs pairs 0 y.2 = x.1 ++ applyPairs pairs 0 x.2 := by
  cases h with
  | replace hpairs hbefore hkey =>
    rw [applyPairs_replace hpairs hbefore hkey, List.append_assoc]
  | copy hnone =>
    rw [applyPairs_copy hnone, List.append_assoc]
    rfl

/-- There is a turn as long as something is left. -/
theorem exists_iff {out : List Char} : (∃ y, Turn pairs (out, s) y) ↔ s ≠ [] := by
  constructor
  · rintro ⟨y, hy⟩ rfl
    exact absurd hy.length_lt (Nat.not_lt_zero _)
  · intro hne
    by_cases h : ∃ pair ∈ pairs, AppliesAt s pair
    · obtain ⟨before, key, value, after, hpairs, hbefore, hkey, rest, rfl⟩ := exists_first h
      exact ⟨_, .replace hpairs hbefore hkey⟩
    · obtain ⟨c, rest, rfl⟩ := List.exists_cons_of_ne_nil hne
      exact ⟨_, .copy fun pair hpair happlies => h ⟨pair, hpair, happlies⟩⟩

/-- The pair that a turn takes is the one that is found in the list. -/
theorem firstPair_eq (h : Turn pairs x y) :
    (firstPair x.2 pairs = none ∧ ∃ c, x.2 = c :: y.2 ∧ y.1 = x.1 ++ [c]) ∨
    ∃ value n, firstPair x.2 pairs = some (value, n) ∧ y = (x.1 ++ value, x.2.drop n) := by
  cases h with
  | @replace before after key value out rest hpairs hbefore hkey =>
    have hfirst : firstPair (key.toList ++ rest) pairs = some (value.toList, key.toList.length) :=
      hpairs ▸ firstPair_eq_some hbefore ⟨hkey, List.prefix_append _ _⟩
    exact .inr ⟨_, _, hfirst, by rw [List.drop_left]⟩
  | copy hnone => exact .inl ⟨firstPair_eq_none.mpr hnone, _, rfl, rfl⟩

/-- There is one way to go on. -/
theorem unique (hy : Turn pairs x y) (hz : Turn pairs x z) : y = z := by
  rcases hy.firstPair_eq with ⟨hnone, c, hc, hout⟩ | ⟨value, n, hsome, rfl⟩
  · rcases hz.firstPair_eq with ⟨-, d, hd, hout'⟩ | ⟨value, n, hsome, -⟩
    · obtain ⟨rfl, hrest⟩ := List.cons.inj (hc.symm.trans hd)
      exact Prod.ext (hout.trans hout'.symm) hrest
    · rw [hnone] at hsome
      cases hsome
  · rcases hz.firstPair_eq with ⟨hnone, -⟩ | ⟨value', n', hsome', rfl⟩
    · rw [hnone] at hsome
      cases hsome
    · obtain ⟨rfl, rfl⟩ := Prod.mk.inj (Option.some.inj (hsome.symm.trans hsome'))
      rfl

end Turn

/-- Every scan comes to its end. -/
theorem turns_to_end (out : List Char) :
    Relation.ReflTransGen (Turn pairs) (out, s) (out ++ applyPairs pairs 0 s, []) := by
  induction hn : s.length using Nat.strong_induction_on generalizing out s with
  | _ n ih =>
    by_cases hs : s = []
    · subst hs
      rw [applyPairs, List.append_nil]
    · have hnext : ∃ y, Turn pairs (out, s) y := Turn.exists_iff.mpr hs
      obtain ⟨⟨out', rest⟩, hturn⟩ := hnext
      have hrest := ih rest.length (hn ▸ hturn.length_lt) out' rfl
      rw [hturn.written] at hrest
      exact .head hturn hrest

/-- A scan comes to one text. -/
theorem turns_iff {out t : List Char} :
    Relation.ReflTransGen (Turn pairs) (out, s) (t, []) ↔ t = out ++ applyPairs pairs 0 s := by
  constructor
  · intro h
    have hwritten : ∀ {x y : Stage}, Relation.ReflTransGen (Turn pairs) x y →
        y.1 ++ applyPairs pairs 0 y.2 = x.1 ++ applyPairs pairs 0 x.2 := by
      intro x y hxy
      induction hxy with
      | refl => rfl
      | tail _ hturn ih => exact hturn.written.trans ih
    simpa [applyPairs] using hwritten h
  · rintro rfl
    exact turns_to_end out

/-! ## The standard pairs -/

/-- A standard pair applies in front of its one character. -/
theorem appliesAt_standardPairs {c : Char} {pair : String × String} (hpair : pair ∈ standardPairs) :
    (AppliesAt (c :: s) pair ↔ pair.1.toList = [c]) ∧
      pair.2.toList = '\\' :: pair.1.toList ∧ ∃ d, pair.1.toList = [d] := by
  have hone : ∀ {key : List Char} {d : Char}, key = [d] →
      ((key ≠ [] ∧ key <+: c :: s) ↔ key = [c]) := by
    rintro key d rfl
    simp
  simp only [standardPairs, List.mem_cons, List.not_mem_nil, or_false] at hpair
  rcases hpair with rfl | rfl | rfl <;> exact ⟨hone rfl, rfl, _, rfl⟩

/-- In any order, the standard pairs take the characters that the standard escape takes. -/
theorem firstPair_standard (h : pairs.Perm standardPairs) (c : Char) :
    firstPair (c :: s) pairs =
      if c = '\\' ∨ c = '%' ∨ c = '_' then some (['\\', c], 1) else none := by
  have hkeys : (∃ pair ∈ pairs, AppliesAt (c :: s) pair) ↔ c = '\\' ∨ c = '%' ∨ c = '_' := by
    have hstandard : (∃ pair ∈ standardPairs, pair.1.toList = [c]) ↔
        c = '\\' ∨ c = '%' ∨ c = '_' := by
      simp [standardPairs, eq_comm]
    rw [← hstandard]
    refine exists_congr fun pair => ?_
    rw [h.mem_iff]
    exact and_congr_right fun hpair => (appliesAt_standardPairs hpair).1
  split
  · next hc =>
    obtain ⟨before, key, value, after, rfl, hbefore, hfirst⟩ := exists_first (hkeys.mpr hc)
    have hmem : (key, value) ∈ standardPairs := h.mem_iff.mp (by simp)
    obtain ⟨hiff, hvalue, -⟩ := appliesAt_standardPairs (c := c) (s := s) hmem
    have hkey := hiff.mp hfirst
    dsimp only at hvalue hkey
    rw [firstPair_eq_some hbefore hfirst, hvalue, hkey]
    rfl
  · next hc =>
    rw [firstPair_eq_none]
    exact fun pair hpair happlies => hc (hkeys.mp ⟨pair, hpair, happlies⟩)

theorem applyPairs_standard (h : pairs.Perm standardPairs) :
    applyPairs pairs 0 s = s.flatMap standardChar := by
  induction s with
  | nil => rfl
  | cons c s ih =>
    rw [applyPairs, firstPair_standard h, List.flatMap_cons, standardChar, ← ih]
    by_cases hc : c = '\\' ∨ c = '%' ∨ c = '_'
    · rw [if_pos hc, if_pos hc]
    · rw [if_neg hc, if_neg hc]
      rfl

/-! ## Escapes -/

/-- The standard escape replaces three characters one after the other, which comes to the same as a
custom escape with the three pairs in any order. Any custom escape writes what a scan comes to that
takes the first pair that applies at each place or else copies a character; there is one way to go
on as long as something of the pattern is left, and what is left gets shorter with each turn. -/
theorem apply_single_pass (pairs : List (String × String)) (pattern : String) :
    ((standard.apply pattern).toList =
      Text.replaceChar '_' ['\\', '_']
        (Text.replaceChar '%' ['\\', '%'] (Text.replaceChar '\\' ['\\', '\\'] pattern.toList))) ∧
    (pairs.Perm standardPairs → (custom pairs).apply pattern = standard.apply pattern) ∧
    (∀ out, Relation.ReflTransGen (Turn pairs) ([], pattern.toList) (out, []) ↔
      out = ((custom pairs).apply pattern).toList) ∧
    (∀ out s, s ≠ [] ↔ ∃! next, Turn pairs (out, s) next) ∧
    (∀ x y, Turn pairs x y → y.2.length < x.2.length) ∧
    (custom (pairs.filter fun pair => pair.1 ≠ "")).apply pattern =
      (custom pairs).apply pattern := by
  refine ⟨escape_eq_replacements pattern, fun hperm => ?_, fun out => ?_, fun out s => ?_,
    fun x y => Turn.length_lt, ?_⟩
  · exact congrArg String.ofList (applyPairs_standard hperm)
  · rw [turns_iff, List.nil_append, apply, String.toList_ofList]
  · have hnext : (∃ y, Turn pairs (out, s) y) ↔ s ≠ [] := Turn.exists_iff
    rw [← hnext]
    refine ⟨?_, ExistsUnique.exists⟩
    rintro ⟨y, hy⟩
    exact ⟨y, hy, fun z hz => hz.unique hy⟩
  · exact congrArg String.ofList (applyPairs_filter 0)

/-- A replacement that holds the text of another pair is kept, and so is one that holds its own. -/
theorem bangEscape_single_pass :
    (custom [("_", "\\_"), ("\\", "\\\\"), ("%", "\\%")]).apply "10%_a\\" =
        standard.apply "10%_a\\" ∧
      (custom [("", "?"), ("%", "!%"), ("!", "!!")]).apply "a%!" = "a!%!!" ∧
      Relation.ReflTransGen (Turn [("%", "!%"), ("!", "!!")]) ([], "a%!".toList)
        ("a!%!!".toList, []) := by
  have hperm : [("_", "\\_"), ("\\", "\\\\"), ("%", "\\%")].Perm standardPairs := by decide
  obtain ⟨-, -, hscan, -, -, -⟩ := apply_single_pass [("%", "!%"), ("!", "!!")] "a%!"
  exact ⟨(apply_single_pass _ _).2.1 hperm, by decide, (hscan _).mpr (by decide)⟩

end LikeEscape

end QueryKit
