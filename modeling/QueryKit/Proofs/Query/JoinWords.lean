import QueryKit.Proofs.Query.JoinSpelling

/-!
# The words of a join

- `JoinType.wordings`, `JoinType.Asks`: the texts that ask for a join, as words with blanks between
  them.
- `Spelling.Slips`: the spellings that no wording has: OUTER is repeated, it is written for a join
  that has no sides, or a word is glued to the one in front of it.
- `asks_iff`: the wordings are the other spellings.
- `parse_asks_iff`: reading agrees with the wordings except where a spelling slips.
-/

namespace QueryKit.JoinType

open Text

/-! ## Wordings -/

/-- The words in front of JOIN, and the join that they ask for. -/
def sides : List (List String × JoinType) :=
  [([], .inner), (["INNER"], .inner), (["LEFT"], .left), (["LEFT", "OUTER"], .left),
    (["RIGHT"], .right), (["RIGHT", "OUTER"], .right), (["FULL"], .full), (["FULL", "OUTER"], .full),
    (["CROSS"], .cross)]

/-- The words that ask for a join. The word JOIN may be left out. -/
def wordings : List (List String × JoinType) :=
  sides ++ sides.map fun (words, type) => (words ++ ["JOIN"], type)

/-- A text consists of words with one or more blanks between each two of them. -/
def Separated : List String → List Char → Prop
  | [], t => t = []
  | [w], t => t = w.toList
  | w :: v :: ws, t => ∃ gap r, gap ≠ [] ∧ (∀ c ∈ gap, isBlank c = true) ∧ Separated (v :: ws) r ∧
      t = w.toList ++ (gap ++ r)

/-- A text asks for a join. -/
def Asks (t : List Char) (type : JoinType) : Prop :=
  ∃ words, (words, type) ∈ wordings ∧ Separated words t

namespace Spelling

variable (w : Spelling)

/-- OUTER is repeated, it is glued to the kind, or the kind has no sides. -/
def SlipsOuter : Prop :=
  1 < w.outers ∨ w.outers = 1 ∧ (w.gap = [] ∨ w.type = .inner ∨ w.type = .cross)

/-- JOIN is glued to what stands in front of it, or OUTER stands where it should not. -/
def Slips : Prop :=
  w.SlipsOuter ∨ w.join = true ∧ w.behind = [] ∧ w.core ≠ []

end Spelling

/-! ## Wordings without slips -/

/-- The last of several words stands behind blanks. -/
theorem separated_concat {v : String} : ∀ {words : List String} {t : List Char}, words ≠ [] →
    (Separated (words ++ [v]) t ↔ ∃ r gap, Separated words r ∧ gap ≠ [] ∧
      (∀ c ∈ gap, isBlank c = true) ∧ t = r ++ (gap ++ v.toList))
  | [w], t, _ => by
    constructor
    · rintro ⟨gap, _, hne, hblank, rfl, rfl⟩
      exact ⟨w.toList, gap, rfl, hne, hblank, rfl⟩
    · rintro ⟨_, gap, rfl, hne, hblank, rfl⟩
      exact ⟨gap, v.toList, hne, hblank, rfl, rfl⟩
  | w :: w' :: words, t, _ => by
    have ih (r : List Char) := separated_concat (v := v) (t := r) (List.cons_ne_nil w' words)
    constructor
    · rintro ⟨gap, r, hne, hblank, hr, rfl⟩
      obtain ⟨front, last, hfront, hlast, hblank', rfl⟩ := (ih r).mp hr
      refine ⟨w.toList ++ (gap ++ front), last, ⟨gap, front, hne, hblank, hfront, rfl⟩, hlast,
        hblank', ?_⟩
      simp only [List.append_assoc]
    · rintro ⟨_, last, ⟨gap, front, hne, hblank, hfront, rfl⟩, hlast, hblank', rfl⟩
      refine ⟨gap, front ++ (last ++ v.toList), hne, hblank,
        (ih _).mpr ⟨front, last, hfront, hlast, hblank', rfl⟩, ?_⟩
      simp only [List.append_assoc]

/-- The word for a kind, if it has one. -/
def kindWords (k : String) : List String :=
  if k = "" then [] else [k]

theorem separated_kindWords {k : String} {t : List Char} :
    Separated (kindWords k) t ↔ t = k.toList := by
  unfold kindWords
  split
  · next h =>
    subst h
    exact Iff.rfl
  · exact Iff.rfl

/-- In front of JOIN stands a kind, or a kind that has sides and OUTER. -/
theorem mem_sides {words : List String} {type : JoinType} : (words, type) ∈ sides ↔
    ∃ k, (k, type) ∈ kinds ∧
      (words = kindWords k ∨ words = [k, "OUTER"] ∧ type ≠ .inner ∧ type ≠ .cross) := by
  constructor
  · intro h
    have hall : ∀ p ∈ sides, ∃ q ∈ kinds, q.2 = p.2 ∧
        (p.1 = kindWords q.1 ∨ p.1 = [q.1, "OUTER"] ∧ p.2 ≠ .inner ∧ p.2 ≠ .cross) := by
      decide
    obtain ⟨⟨k, type'⟩, hk, rfl, hwords⟩ := hall _ h
    exact ⟨k, hk, hwords⟩
  · rintro ⟨k, hk, rfl | ⟨rfl, hinner, hcross⟩⟩
    · have hall : ∀ q ∈ kinds, (kindWords q.1, q.2) ∈ sides := by decide
      exact hall _ hk
    · have hall : ∀ q ∈ kinds, q.2 ≠ .inner → q.2 ≠ .cross → ([q.1, "OUTER"], q.2) ∈ sides := by
        decide
      exact hall _ hk hinner hcross

theorem mem_wordings {words : List String} {type : JoinType} : (words, type) ∈ wordings ↔
    (words, type) ∈ sides ∨ ∃ front, (front, type) ∈ sides ∧ words = front ++ ["JOIN"] := by
  simp [wordings, eq_comm, and_comm]

namespace Spelling

/-- What stands in front of JOIN in a wording is a core of a spelling. -/
theorem exists_of_side {words : List String} {type : JoinType} {c : List Char}
    (h : (words, type) ∈ sides) (hc : Separated words c) :
    ∃ w : Spelling, w.join = false ∧ w.type = type ∧ w.core = c ∧ ¬w.SlipsOuter := by
  obtain ⟨k, hk, rfl | ⟨rfl, hinner, hcross⟩⟩ := mem_sides.mp h
  · rw [separated_kindWords] at hc
    refine ⟨⟨k, type, [], 0, [], false, hk, List.forall_mem_nil _, List.forall_mem_nil _,
      fun _ => rfl, fun _ => rfl⟩, rfl, rfl, ?_, ?_⟩
    · exact (core_of_zero rfl).trans hc.symm
    · simp [SlipsOuter]
  · obtain ⟨gap, _, hne, hblank, rfl, rfl⟩ := hc
    refine ⟨⟨k, type, gap, 1, [], false, hk, hblank, List.forall_mem_nil _,
      fun h => absurd h Nat.one_ne_zero, fun _ => rfl⟩, rfl, rfl, ?_, ?_⟩
    · exact core_of_one rfl
    · simp [SlipsOuter, hne, hinner, hcross]

theorem exists_side {w : Spelling} (h : ¬w.SlipsOuter) :
    ∃ words, (words, w.type) ∈ sides ∧ Separated words w.core := by
  unfold SlipsOuter at h
  push Not at h
  obtain ⟨hle, hone⟩ := h
  obtain hzero | hone' : w.outers = 0 ∨ w.outers = 1 := by omega
  · refine ⟨kindWords w.kind, mem_sides.mpr ⟨w.kind, w.known, .inl rfl⟩, ?_⟩
    rw [separated_kindWords, core_of_zero hzero]
  · obtain ⟨hgap, hinner, hcross⟩ := hone hone'
    refine ⟨[w.kind, "OUTER"], mem_sides.mpr ⟨w.kind, w.known, .inr ⟨rfl, hinner, hcross⟩⟩, ?_⟩
    exact ⟨w.gap, "OUTER".toList, hgap, w.blank_gap, rfl, core_of_one hone'⟩

/-- The spelling with JOIN behind it. -/
def joined (w : Spelling) (behind : List Char) (h : ∀ c ∈ behind, isBlank c = true) : Spelling :=
  { w with behind := behind, join := true, blank_behind := h, behind_eq_nil := nofun }

theorem text_joined {w : Spelling} {behind : List Char} (h : ∀ c ∈ behind, isBlank c = true) :
    (w.joined behind h).text = w.core ++ (behind ++ "JOIN".toList) :=
  rfl

theorem slips_joined {w : Spelling} {behind : List Char} (h : ∀ c ∈ behind, isBlank c = true) :
    (w.joined behind h).Slips ↔ w.SlipsOuter ∨ behind = [] ∧ w.core ≠ [] := by
  simp [Slips, joined, SlipsOuter, core, stem]

theorem text_of_not_join {w : Spelling} (h : w.join = false) : w.text = w.core := by
  simp [text, h, w.behind_eq_nil h]

theorem text_of_join (w : Spelling) (h : w.join = true) :
    w.text = w.core ++ (w.behind ++ "JOIN".toList) := by
  rw [text, h]
  rfl

/-- If nothing stands in front of JOIN, it is all of the text. -/
theorem text_of_core_nil {w : Spelling} (ht : trimStart w.text = w.text) (h : w.join = true)
    (hcore : w.core = []) : w.text = "JOIN".toList := by
  rw [text_of_join w h, hcore, List.nil_append] at ht ⊢
  rw [trimStart, List.dropWhile_append_of_pos w.blank_behind] at ht
  exact ht.symm

theorem type_of_core_nil {w : Spelling} (hcore : w.core = []) : w.type = .inner := by
  have hkind : w.kind.toList = [] := by
    rcases core_cases (w := w) with h | ⟨r, h⟩
    · rw [← h, hcore]
    · simp [hcore] at h
  have hall : ∀ q ∈ kinds, q.1.toList = [] → q.2 = .inner := by decide
  exact hall _ w.known hkind

theorem slips_of_not_join {w : Spelling} (h : w.join = false) : w.Slips ↔ w.SlipsOuter := by
  simp [Slips, h]

end Spelling

/-- The wordings are the spellings that do not slip. -/
theorem asks_iff {t : List Char} {type : JoinType} (ht : trimStart t = t) :
    Asks t type ↔ ∃ w : Spelling, ¬w.Slips ∧ w.text = t ∧ w.type = type := by
  constructor
  · rintro ⟨words, hwords, hsep⟩
    rcases mem_wordings.mp hwords with hside | ⟨front, hside, rfl⟩
    · obtain ⟨w, hjoin, htype, hcore, hslips⟩ := Spelling.exists_of_side hside hsep
      refine ⟨w, ?_, ?_, htype⟩
      · rwa [Spelling.slips_of_not_join hjoin]
      · rw [Spelling.text_of_not_join hjoin, hcore]
    · by_cases hfront : front = []
      · subst hfront
        obtain ⟨w, -, htype, hcore, hslips⟩ := Spelling.exists_of_side (c := []) hside rfl
        refine ⟨w.joined [] (List.forall_mem_nil _), ?_, ?_, htype⟩
        · rw [Spelling.slips_joined]
          simp [hslips, hcore]
        · rw [Spelling.text_joined, hcore]
          exact hsep.symm
      · obtain ⟨c, gap, hc, hne, hblank, rfl⟩ := (separated_concat hfront).mp hsep
        obtain ⟨w, -, htype, hcore, hslips⟩ := Spelling.exists_of_side hside hc
        refine ⟨w.joined gap hblank, ?_, ?_, htype⟩
        · rw [Spelling.slips_joined]
          simp [hslips, hne]
        · rw [Spelling.text_joined, hcore]
  · rintro ⟨w, hslips, rfl, rfl⟩
    have houter : ¬w.SlipsOuter := fun h => hslips (.inl h)
    obtain ⟨words, hside, hsep⟩ := Spelling.exists_side houter
    cases hjoin : w.join with
    | false =>
      rw [Spelling.text_of_not_join hjoin]
      exact ⟨words, mem_wordings.mpr (.inl hside), hsep⟩
    | true =>
      by_cases hcore : w.core = []
      · rw [Spelling.text_of_core_nil ht hjoin hcore, Spelling.type_of_core_nil hcore]
        exact ⟨["JOIN"], by decide, rfl⟩
      · have hwords : words ≠ [] := by
          rintro rfl
          exact hcore hsep
        have hbehind : w.behind ≠ [] := fun h => hslips (.inr ⟨hjoin, h, hcore⟩)
        refine ⟨words ++ ["JOIN"], mem_wordings.mpr (.inr ⟨words, hside, rfl⟩), ?_⟩
        rw [separated_concat hwords]
        exact ⟨w.core, w.behind, hsep, hbehind, w.blank_behind, w.text_of_join hjoin⟩

/-- A text names a join if and only if it is one of its spellings. A text that asks for a join by a
wording names that join, and no other text names one unless it has a spelling that slips. -/
theorem parse_asks_iff (s : String) :
    (∀ type, JoinType.parse s = .ok type ↔ ∃ w : Spelling, w.text = normal s ∧ w.type = type) ∧
    (∀ type, Asks (normal s) type → JoinType.parse s = .ok type) ∧
    ((∀ type, JoinType.parse s = .ok type ↔ Asks (normal s) type) ↔
      ¬∃ w : Spelling, w.text = normal s ∧ w.Slips) ∧
    ∀ e, JoinType.parse s = .error e → e = .invalidArgument (.unknownJoin s) := by
  have hstart := trimStart_normal s
  refine ⟨fun _ => parse_ok_iff, ?_, ⟨?_, ?_⟩, fun _ h => parse_error h⟩
  · intro type hasks
    obtain ⟨w, -, htext, htype⟩ := (asks_iff hstart).mp hasks
    exact parse_ok_iff.mpr ⟨w, htext, htype⟩
  · rintro hagree ⟨w, htext, hslips⟩
    have hasks := (hagree w.type).mp (parse_ok_iff.mpr ⟨w, htext, rfl⟩)
    obtain ⟨w', hslips', htext', -⟩ := (asks_iff hstart).mp hasks
    -- the two spellings of the text are the same one
    have hsame : w' = w := Spelling.text_inj (htext ▸ hstart) (htext'.trans htext.symm)
    exact hslips' (hsame ▸ hslips)
  · intro hnone type
    rw [parse_ok_iff, asks_iff hstart]
    constructor
    · rintro ⟨w, htext, htype⟩
      exact ⟨w, fun hslips => hnone ⟨w, htext, hslips⟩, htext, htype⟩
    · rintro ⟨w, -, htext, htype⟩
      exact ⟨w, htext, htype⟩

/-- An outer join without a side names an inner join, and no wording asks for one. -/
theorem outerJoin_inner : JoinType.parse "outer join" = .ok .inner ∧
    (∀ type, ¬Asks (normal "outer join") type) ∧
    JoinType.parse " left  outer join" = .ok .left := by
  obtain ⟨hparse, hasks, hagree, -⟩ := parse_asks_iff "outer join"
  obtain ⟨w, htext, htype, hslips⟩ :
      ∃ w : Spelling, w.text = normal "outer join" ∧ w.type = .inner ∧ w.Slips :=
    ⟨⟨"", .inner, [], 1, [' '], true, by decide, List.forall_mem_nil _,
      List.forall_mem_singleton.mpr rfl, fun _ => rfl, fun h => Bool.noConfusion h⟩, by decide, rfl,
      .inl (.inr ⟨rfl, .inl rfl⟩)⟩
  have hinner : JoinType.parse "outer join" = .ok .inner := (hparse .inner).mpr ⟨w, htext, htype⟩
  refine ⟨hinner, fun type h => ?_, ?_⟩
  · have honly : ∀ type', JoinType.parse "outer join" = .ok type' → type' = type := fun type' h' =>
      Except.ok.inj (h'.symm.trans (hasks type h))
    -- with a wording for it, reading would agree with the wordings
    refine hagree.mp (fun type' => ⟨fun h' => ?_, hasks type'⟩) ⟨w, htext, hslips⟩
    exact honly type' h' ▸ h
  · refine (parse_asks_iff " left  outer join").2.1 .left ?_
    refine ⟨["LEFT", "OUTER", "JOIN"], by decide, ?_⟩
    refine ⟨"  ".toList, "OUTER JOIN".toList, by decide, List.all_eq_true.mp rfl, ?_, by decide⟩
    exact ⟨" ".toList, "JOIN".toList, by decide, List.all_eq_true.mp rfl, rfl, by decide⟩

end QueryKit.JoinType
