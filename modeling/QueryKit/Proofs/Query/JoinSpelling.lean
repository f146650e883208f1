import QueryKit.Proofs.Text.Blank
import QueryKit.Proofs.Text.Delimited
import QueryKit.Query.Columns

/-!
# Texts that are taken for a join

`JoinType.parse` cuts JOIN and every OUTER off the end of a text, whatever stands in front of them,
and compares the rest with the kinds of joins.

- `JoinType.Spelling`: a text that is taken for a join, by its parts.
- `Spelling.text_inj`: a text has one spelling.
- `Spelling.kindText_text`, `exists_spelling`: what is read are the spellings and nothing else.
- `parse_ok_iff`: a text names a join if and only if it is a spelling of it.
-/

namespace QueryKit

open Text

/-! ## Cutting words off the end -/

section Cut

variable {word s : List Char}

/-- A text does not end with a word whose last character is another one. -/
theorem dropTextEnd_concat (word : List Char) {c d : Char} (h : c ≠ d) :
    dropTextEnd (word ++ [c]) (s ++ [d]) = none := by
  simp [dropTextEnd, dropText, h]

/-- A word that is written several times. -/
def repeated (word : List Char) (n : Nat) : List Char :=
  (List.replicate n word).flatten

theorem repeated_zero (word : List Char) : repeated word 0 = [] :=
  rfl

theorem repeated_succ (word : List Char) (n : Nat) :
    repeated word (n + 1) = repeated word n ++ word := by
  rw [repeated, List.replicate_succ', List.flatten_append, List.flatten_singleton]
  rfl

theorem length_repeated (word : List Char) (n : Nat) :
    (repeated word n).length = n * word.length := by
  simp [repeated]

/-- All repetitions of a word are cut off, if there is room to count them. -/
theorem dropRepeatsEnd_append (hs : dropTextEnd word s = none) : ∀ {n k : Nat}, n ≤ k →
    dropRepeatsEnd word k (s ++ repeated word n) = s
  | 0, 0, _ => List.append_nil s
  | 0, k + 1, _ => by
    rw [repeated_zero, List.append_nil, dropRepeatsEnd, hs]
  | n + 1, k + 1, h => by
    have hcut : dropTextEnd word (s ++ repeated word (n + 1)) = some (s ++ repeated word n) := by
      rw [dropTextEnd_eq_some, repeated_succ, List.append_assoc]
    rw [dropRepeatsEnd, hcut]
    exact dropRepeatsEnd_append hs (Nat.le_of_succ_le_succ h)

/-- What is cut off are repetitions of the word. -/
theorem exists_repeated (word : List Char) : ∀ (k : Nat) (s : List Char),
    ∃ n, s = dropRepeatsEnd word k s ++ repeated word n
  | 0, s => ⟨0, (List.append_nil s).symm⟩
  | k + 1, s => by
    rw [dropRepeatsEnd]
    cases h : dropTextEnd word s with
    | none => exact ⟨0, (List.append_nil s).symm⟩
    | some r =>
      obtain ⟨n, hn⟩ := exists_repeated word k r
      refine ⟨n + 1, ?_⟩
      dsimp only
      rw [repeated_succ, ← List.append_assoc, ← hn]
      exact dropTextEnd_eq_some.mp h

end Cut

namespace JoinType

/-- A text in capitals without the blanks around it. -/
def normal (s : String) : List Char :=
  (trimChars s.toList).map Char.toUpper

/-! ## Spellings -/

/-- The words for the kinds of joins. -/
def kinds : List (String × JoinType) :=
  [("", .inner), ("INNER", .inner), ("LEFT", .left), ("RIGHT", .right), ("FULL", .full),
    ("CROSS", .cross)]

/-- A text that is taken for a join. -/
@[ext]
structure Spelling where
  kind : String
  type : JoinType
  /-- The blanks in front of OUTER. -/
  gap : List Char
  /-- How often OUTER is repeated. -/
  outers : Nat
  /-- The blanks in front of JOIN. -/
  behind : List Char
  join : Bool
  known : (kind, type) ∈ kinds
  blank_gap : ∀ c ∈ gap, isBlank c = true
  blank_behind : ∀ c ∈ behind, isBlank c = true
  gap_eq_nil : outers = 0 → gap = []
  behind_eq_nil : join = false → behind = []

namespace Spelling

variable (w : Spelling)

def stem : List Char :=
  w.kind.toList ++ w.gap

def core : List Char :=
  w.stem ++ repeated "OUTER".toList w.outers

def text : List Char :=
  w.core ++ (w.behind ++ if w.join then "JOIN".toList else [])

variable {w}

/-- What is true of each kind is true of the kind of a spelling. -/
theorem forall_kind {P : String → Prop} (h : ∀ k ∈ kinds, P k.1) : P w.kind :=
  h _ w.known

theorem trimEnd_stem : trimEnd w.stem = w.kind.toList := by
  rw [stem, trimEnd_append w.blank_gap]
  exact forall_kind (P := fun k => trimEnd k.toList = k.toList) (by decide)

theorem dropTextEnd_stem : dropTextEnd "OUTER".toList w.stem = none := by
  rcases List.eq_nil_or_concat w.gap with hgap | ⟨g, b, hgap⟩
  · rw [stem, hgap, List.append_nil]
    exact forall_kind (P := fun k => dropTextEnd "OUTER".toList k.toList = none) (by decide)
  · have hb : 'R' ≠ b := by
      rintro rfl
      have hblank := w.blank_gap 'R' (by simp [hgap])
      exact absurd hblank (by decide)
    rw [stem, hgap, List.concat_eq_append, ← List.append_assoc]
    exact dropTextEnd_concat "OUTE".toList hb

/-- A core without OUTER is a kind. -/
theorem core_of_zero (h : w.outers = 0) : w.core = w.kind.toList := by
  rw [core, stem, w.gap_eq_nil h, h, List.append_nil, repeated_zero, List.append_nil]

theorem core_of_one (h : w.outers = 1) :
    w.core = w.kind.toList ++ (w.gap ++ "OUTER".toList) := by
  rw [core, stem, h, repeated_succ, repeated_zero, List.nil_append, List.append_assoc]

/-- A core is a kind or ends with OUTER. -/
theorem core_cases : w.core = w.kind.toList ∨ ∃ r, w.core = r ++ ['R'] := by
  cases h : w.outers with
  | zero => exact .inl (core_of_zero h)
  | succ n =>
    refine .inr ⟨w.stem ++ (repeated "OUTER".toList n ++ "OUTE".toList), ?_⟩
    rw [core, h, repeated_succ, List.append_assoc, List.append_assoc]
    rfl

theorem trimEnd_core : trimEnd w.core = w.core := by
  rcases core_cases (w := w) with h | ⟨r, h⟩
  · rw [h]
    exact forall_kind (P := fun k => trimEnd k.toList = k.toList) (by decide)
  · rw [h, trimEnd_concat (by decide)]

theorem dropTextEnd_core : dropTextEnd "JOIN".toList w.core = none := by
  rcases core_cases (w := w) with h | ⟨r, h⟩
  · rw [h]
    exact forall_kind (P := fun k => dropTextEnd "JOIN".toList k.toList = none) (by decide)
  · rw [h]
    exact dropTextEnd_concat "JOI".toList (by decide)

theorem dropTextEnd_text : dropTextEnd "JOIN".toList w.text =
    if w.join then some (w.core ++ w.behind) else none := by
  cases h : w.join with
  | false =>
    rw [text, h, w.behind_eq_nil h]
    simpa using dropTextEnd_core
  | true =>
    rw [if_pos rfl, dropTextEnd_eq_some, text, h, List.append_assoc]
    rfl

theorem getD_text : (dropTextEnd "JOIN".toList w.text).getD w.text = w.core ++ w.behind := by
  rw [dropTextEnd_text]
  cases h : w.join with
  | true => rfl
  | false =>
    rw [text, h]
    exact congrArg (w.core ++ ·) (List.append_nil w.behind)

theorem dropRepeatsEnd_core : dropRepeatsEnd "OUTER".toList w.core.length w.core = w.stem := by
  refine dropRepeatsEnd_append dropTextEnd_stem ?_
  have hfive : "OUTER".toList.length = 5 := rfl
  rw [core, List.length_append, length_repeated, hfive]
  omega

/-! ## A spelling in a trimmed text -/

section Trimmed

variable {w w' : Spelling} (h : trimStart w.text = w.text)

include h

theorem trimChars_core : trimChars (w.core ++ w.behind) = w.core := by
  have hstart : trimStart (w.core ++ w.behind) = w.core ++ w.behind := by
    refine trimStart_left (t := if w.join then "JOIN".toList else []) ?_
    rwa [List.append_assoc]
  rw [trimChars, hstart, trimEnd_append w.blank_behind, trimEnd_core]

theorem trimChars_stem : trimChars w.stem = w.kind.toList := by
  have hstart : trimStart w.stem = w.stem := by
    refine trimStart_left (t := repeated "OUTER".toList w.outers) ?_
    exact trimStart_left h
  rw [trimChars, hstart, trimEnd_stem]

/-- A text has one spelling. -/
theorem text_inj (heq : w'.text = w.text) : w' = w := by
  have h' : trimStart w'.text = w'.text := heq ▸ h
  have hjoin : w'.join = w.join := by
    have hcut := congrArg (fun t => (dropTextEnd "JOIN".toList t).isSome) heq
    simp only [dropTextEnd_text] at hcut
    cases hw : w.join <;> cases hw' : w'.join <;> simp [hw, hw'] at hcut ⊢
  have hboth : w'.core ++ w'.behind = w.core ++ w.behind := by
    rw [← getD_text, ← getD_text, heq]
  have hcore : w'.core = w.core := by
    rw [← trimChars_core h', ← trimChars_core h, hboth]
  have hbehind : w'.behind = w.behind := List.append_cancel_left (hcore ▸ hboth)
  have hstem : w'.stem = w.stem := by
    rw [← dropRepeatsEnd_core, ← dropRepeatsEnd_core, hcore]
  have hkind : w'.kind = w.kind := by
    rw [← String.toList_inj, ← trimChars_stem h', ← trimChars_stem h, hstem]
  have hgap : w'.gap = w.gap := by
    rw [stem, stem, hkind] at hstem
    exact List.append_cancel_left hstem
  have houters : w'.outers = w.outers := by
    have hlength := congrArg List.length hcore
    rw [core, core, List.length_append, List.length_append, hstem, length_repeated,
      length_repeated, Nat.add_left_cancel_iff] at hlength
    exact Nat.eq_of_mul_eq_mul_right (by decide) hlength
  have htype : w'.type = w.type := by
    have hkinds : ∀ k ∈ kinds, ∀ l ∈ kinds, k.1 = l.1 → k.2 = l.2 := by decide
    exact hkinds _ w'.known _ w.known hkind
  exact Spelling.ext hkind htype hgap houters hbehind hjoin

end Trimmed

end Spelling

/-! ## Reading -/

/-- The text that is compared with the kinds of joins. -/
def kindText (t : List Char) : List Char :=
  let head := trimChars ((dropTextEnd "JOIN".toList t).getD t)
  trimChars (dropRepeatsEnd "OUTER".toList head.length head)

/-- The join of a kind. -/
def named (s : String) (head : List Char) : Result JoinType :=
  if head = [] ∨ head = "INNER".toList then .ok .inner
  else if head = "LEFT".toList then .ok .left
  else if head = "RIGHT".toList then .ok .right
  else if head = "FULL".toList then .ok .full
  else if head = "CROSS".toList then .ok .cross
  else .error (.invalidArgument (.unknownJoin s))

theorem parse_eq (s : String) : JoinType.parse s = named s (kindText (normal s)) :=
  rfl

theorem named_ok_iff {s : String} {head : List Char} {type : JoinType} :
    named s head = .ok type ↔ ∃ k, (k, type) ∈ kinds ∧ head = k.toList := by
  constructor
  · intro h
    unfold named at h
    split_ifs at h with hinner hleft hright hfull hcross <;> cases h
    · rcases hinner with hinner | hinner
      · exact ⟨"", by decide, hinner⟩
      · exact ⟨"INNER", by decide, hinner⟩
    · exact ⟨"LEFT", by decide, hleft⟩
    · exact ⟨"RIGHT", by decide, hright⟩
    · exact ⟨"FULL", by decide, hfull⟩
    · exact ⟨"CROSS", by decide, hcross⟩
  · rintro ⟨k, hk, rfl⟩
    simp only [kinds, List.mem_cons, List.not_mem_nil, or_false, Prod.mk.injEq] at hk
    rcases hk with ⟨rfl, rfl⟩ | ⟨rfl, rfl⟩ | ⟨rfl, rfl⟩ | ⟨rfl, rfl⟩ | ⟨rfl, rfl⟩ | ⟨rfl, rfl⟩ <;>
      rfl

theorem named_error {s : String} {head : List Char} {e : Error} (h : named s head = .error e) :
    e = .invalidArgument (.unknownJoin s) := by
  unfold named at h
  split_ifs at h
  cases h
  rfl

theorem trimChars_normal (s : String) : trimChars (normal s) = normal s := by
  rw [normal, trimChars_map_toUpper, trimChars_trimChars]

theorem trimStart_normal (s : String) : trimStart (normal s) = normal s :=
  trimStart_of_trimChars (trimChars_normal s)

theorem Spelling.kindText_text {w : Spelling} (h : trimStart w.text = w.text) :
    kindText w.text = w.kind.toList := by
  rw [kindText, getD_text, trimChars_core h, dropRepeatsEnd_core, trimChars_stem h]

/-- JOIN and the blanks in front of it are cut off. -/
theorem exists_core {t : List Char} (ht : trimChars t = t) :
    ∃ (c behind : List Char) (join : Bool),
      t = c ++ (behind ++ if join then "JOIN".toList else []) ∧
      (∀ d ∈ behind, isBlank d = true) ∧ (join = false → behind = []) ∧
      trimChars ((dropTextEnd "JOIN".toList t).getD t) = c ∧ trimChars c = c := by
  cases h : dropTextEnd "JOIN".toList t with
  | none =>
    refine ⟨t, [], false, (List.append_nil t).symm, ?_, fun _ => rfl, ht, ht⟩
    exact List.forall_mem_nil _
  | some r =>
    rw [dropTextEnd_eq_some] at h
    have hstart : trimStart r = r := trimStart_left (h ▸ trimStart_of_trimChars ht)
    obtain ⟨behind, hblank, hr⟩ := exists_trimEnd r
    have hcut : trimChars r = trimEnd r := by rw [trimChars, hstart]
    refine ⟨trimEnd r, behind, true, ?_, hblank, fun h => Bool.noConfusion h, hcut, ?_⟩
    · rw [← List.append_assoc, ← hr, h]
      rfl
    · rw [← hcut, trimChars_trimChars]

/-- A text without blanks around it is a spelling of its kind. -/
theorem exists_spelling {t : List Char} {k : String} {type : JoinType} (ht : trimChars t = t)
    (hk : (k, type) ∈ kinds) (h : kindText t = k.toList) :
    ∃ w : Spelling, w.text = t ∧ w.type = type := by
  obtain ⟨c, behind, join, hsplit, hblank, hbehind, hcut, hc⟩ := exists_core ht
  rw [kindText, hcut] at h
  obtain ⟨n, hn⟩ := exists_repeated "OUTER".toList c.length c
  generalize dropRepeatsEnd "OUTER".toList c.length c = stem at h hn
  have hstem : trimStart stem = stem :=
    trimStart_left (hn ▸ trimStart_of_trimChars hc)
  rw [trimChars, hstem] at h
  obtain ⟨gap, hgap, hstem⟩ := exists_trimEnd stem
  rw [h] at hstem
  have hnone : n = 0 → gap = [] := by
    rintro rfl
    rw [repeated_zero, List.append_nil] at hn
    have hend := trimEnd_of_trimChars hc
    rw [hn, h, hstem] at hend
    exact List.self_eq_append_right.mp hend
  refine ⟨⟨k, type, gap, n, behind, join, hk, hgap, hblank, hnone, hbehind⟩, ?_, rfl⟩
  rw [hsplit, hn, hstem]
  rfl

/-- A text names a join if and only if it is a spelling of this join. -/
theorem parse_ok_iff {s : String} {type : JoinType} :
    JoinType.parse s = .ok type ↔ ∃ w : Spelling, w.text = normal s ∧ w.type = type := by
  rw [parse_eq, named_ok_iff]
  constructor
  · rintro ⟨k, hk, hkind⟩
    exact exists_spelling (trimChars_normal s) hk hkind
  · rintro ⟨w, htext, rfl⟩
    refine ⟨w.kind, w.known, ?_⟩
    rw [← htext]
    exact Spelling.kindText_text (htext ▸ trimStart_normal s)

theorem parse_error {s : String} {e : Error} (h : JoinType.parse s = .error e) :
    e = .invalidArgument (.unknownJoin s) :=
  named_error h

end JoinType

end QueryKit
