import QueryKit.Proofs.Placeholder.Quoting

/-!
# Quoted parts and nothing else

What a reader of statement text does with colons and names has no bearing on where quoted parts
begin and end.

- `Scan.Inside`, `Scan.turn`: a reader that only follows quotes. It stands where the reader of
  placeholders stands (`Scan.step_view`).
- `Scan.Avoids`: a character does not occur outside quotes. Without a `?` there a statement binds no
  value and is kept as it is (`Params.bindSql_of_avoids`).
- `Sealed`: texts without a `?` outside quotes that leave no quoted part open. They may be put behind
  one another, and into the places of a statement (`Scan.Walk.fill`).
- `Scan.cutOutside`: a text cut at a character, but not inside quotes.
-/

namespace QueryKit

namespace Scan

/-- The quote that a reader is inside, and whether a backslash protects the next character. -/
abbrev Inside := Option (Char × Bool)

def State.inside : State → Inside
  | .quoted q => some (q, false)
  | .escaped q => some (q, true)
  | _ => none

/-- What a reader remembers are quotes and the characters of a name. -/
def State.Sound : State → Prop
  | .quoted q | .escaped q | .closing q => isQuote q = true
  | .name read => ∀ c ∈ read, isNameChar c = true
  | _ => True

/-- Read one character with an eye on quotes only. Behind a quote that closes, the same quote opens a
part again. -/
def turn (escapes : Bool) (c : Char) : Inside → Inside
  | none => if isQuote c then some (c, false) else none
  | some (q, true) => some (q, false)
  | some (q, false) =>
    if escapes && c == '\\' then some (q, true) else if c = q then none else some (q, false)

/-- Where a reader stands behind a text. -/
def behind (escapes : Bool) : Inside → List Char → Inside
  | i, [] => i
  | i, c :: r => behind escapes (turn escapes c i) r

/-- A character does not occur outside quotes. -/
def Avoids (escapes : Bool) (sep : Char) : Inside → List Char → Prop
  | _, [] => True
  | i, c :: r => (i = none → c ≠ sep) ∧ Avoids escapes sep (turn escapes c i) r

/-- The pieces that a reader yields between two places, with an eye on quotes only. -/
inductive Walk (escapes : Bool) : Inside → List Piece → Inside → Prop
  | nil {i : Inside} : Walk escapes i [] i
  | verbatim {i j : Inside} {c : Char} {ps : List Piece} (hc : i = none → c ≠ '?')
      (hps : Walk escapes (turn escapes c i) ps j) :
    Walk escapes i (.verbatim c :: ps) j
  | positional {j : Inside} {ps : List Piece} (hps : Walk escapes none ps j) :
    Walk escapes none (.positional :: ps) j
  | named {j : Inside} {name : List Char} {ps : List Piece}
    (hname : ∀ c ∈ name, isNameChar c = true) (hps : Walk escapes none ps j) :
    Walk escapes none (.named name :: ps) j

variable {escapes : Bool} {i j : Inside} {c sep : Char} {s t : List Char} {state : State}

theorem behind_append : behind escapes i (s ++ t) = behind escapes (behind escapes i s) t := by
  induction s generalizing i with
  | nil => rfl
  | cons c s ih => exact ih

theorem avoids_append :
    Avoids escapes sep i (s ++ t) ↔
      Avoids escapes sep i s ∧ Avoids escapes sep (behind escapes i s) t := by
  induction s generalizing i with
  | nil => simp [Avoids, behind]
  | cons c s ih => simp only [List.cons_append, Avoids, behind, ih, and_assoc]

theorem turn_plain (h : isQuote c = false) : turn escapes c none = none := by
  simp [turn, h]

/-- Outside quotes, characters that are no quotes mean nothing. -/
theorem behind_plain (h : ∀ c ∈ s, isQuote c = false) : behind escapes none s = none := by
  induction s with
  | nil => rfl
  | cons c s ih =>
    obtain ⟨hc, hs⟩ := List.forall_mem_cons.mp h
    rw [behind, turn_plain hc, ih hs]

theorem avoids_plain (h : ∀ c ∈ s, isQuote c = false ∧ c ≠ sep) :
    Avoids escapes sep none s := by
  induction s with
  | nil => trivial
  | cons c s ih =>
    obtain ⟨⟨hc, hne⟩, hs⟩ := List.forall_mem_cons.mp h
    refine ⟨fun _ => hne, ?_⟩
    rw [turn_plain hc]
    exact ih hs

/-! ## The two readers -/

theorem Walk.append {ps qs : List Piece} {k : Inside} (hps : Walk escapes i ps j)
    (hqs : Walk escapes j qs k) : Walk escapes i (ps ++ qs) k := by
  induction hps with
  | nil => exact hqs
  | verbatim hc _ ih => exact .verbatim hc (ih hqs)
  | positional _ ih => exact .positional (ih hqs)
  | named hname _ ih => exact .named hname (ih hqs)

/-- A character that is kept. -/
theorem Walk.keep (hc : i = none → c ≠ '?') :
    Walk escapes i [.verbatim c] (turn escapes c i) :=
  .verbatim hc .nil

/-- What a step of one reader says about the other: where it stands, and whether it meets a
placeholder. -/
structure View (escapes : Bool) (c : Char) (i : Inside) (ps : List Piece) (next : State) : Prop where
  sound : next.Sound
  inside : next.inside = turn escapes c i
  walk : Walk escapes i ps next.inside
  positional : .positional ∈ ps ↔ i = none ∧ c = '?'

/-- A step that keeps the character. -/
theorem View.keep {next : State} (hsound : next.Sound) (hinside : next.inside = turn escapes c i)
    (hc : i = none → c ≠ '?') : View escapes c i [.verbatim c] next := by
  refine ⟨hsound, hinside, hinside ▸ .keep hc, ?_⟩
  simpa using hc

theorem ne_of_isQuote (h : isQuote c = true) : c ≠ '?' := by
  rintro rfl
  cases h

theorem isQuote_of_isNameChar (h : isNameChar c = true) : isQuote c = false ∧ c ≠ '?' := by
  constructor
  · rw [Bool.eq_false_iff]
    intro hq
    simp only [isQuote, Bool.or_eq_true, beq_iff_eq] at hq
    rcases hq with (rfl | rfl) | rfl <;> exact absurd h (by decide)
  · rintro rfl
    exact absurd h (by decide)

theorem isNameChar_of_isNameStart (h : isNameStart c = true) : isNameChar c = true := by
  simp only [isNameStart, isNameChar, Char.isAlphanum, Bool.or_eq_true] at h ⊢
  exact h.imp_left .inl

theorem stepPlain_view (escapes : Bool) (c : Char) :
    View escapes c none (stepPlain c).1 (stepPlain c).2 := by
  unfold stepPlain
  by_cases hq : isQuote c = true
  · have hne := ne_of_isQuote hq
    rw [if_pos hq]
    exact .keep hq (by simp [State.inside, turn, hq]) fun _ => hne
  · rw [Bool.not_eq_true] at hq
    have hturn : turn escapes c none = none := turn_plain hq
    rw [hq, if_neg Bool.false_ne_true]
    by_cases hp : c = '?'
    · rw [if_pos hp]
      exact ⟨trivial, hturn.symm, .positional .nil, by simp [hp]⟩
    · rw [if_neg hp]
      by_cases hn : c = ':'
      · rw [if_pos hn]
        exact ⟨trivial, hturn.symm, .nil, by simp [hp]⟩
      · rw [if_neg hn]
        exact .keep trivial hturn.symm fun _ => hp

/-- A character of a name yields no piece. -/
theorem view_of_isNameChar (read : List Char) (hread : ∀ c ∈ read, isNameChar c = true)
    (h : isNameChar c = true) : View escapes c none [] (.name (read ++ [c])) := by
  obtain ⟨hq, hne⟩ := isQuote_of_isNameChar h
  have hturn : turn escapes c none = none := turn_plain hq
  refine ⟨?_, hturn.symm, .nil, by simp [hne]⟩
  exact List.forall_mem_append.mpr ⟨hread, List.forall_mem_singleton.mpr h⟩

theorem step_view (escapes : Bool) (c : Char) (h : state.Sound) :
    View escapes c state.inside (step escapes c state).1 (step escapes c state).2 := by
  cases state with
  | plain => exact stepPlain_view escapes c
  | quoted q =>
    refine View.keep ?_ ?_ fun h => absurd h (Option.some_ne_none _)
    · dsimp only [step]
      split
      · exact h
      · split <;> exact h
    · dsimp only [step, turn]
      cases escapes && c == '\\' with
      | true => rfl
      | false => by_cases hc : c = q <;> simp [hc, State.inside]
  | escaped q => exact .keep h rfl fun h => absurd h (Option.some_ne_none _)
  | closing q =>
    simp only [step]
    by_cases hc : c = q
    · subst hc
      have hne := ne_of_isQuote h
      have hq : isQuote c = true := h
      rw [if_pos rfl]
      exact .keep h (by simp [State.inside, turn, hq]) fun _ => hne
    · rw [if_neg hc]
      exact stepPlain_view escapes c
  | colon =>
    obtain ⟨hsound, hinside, hwalk, hpositional⟩ := stepPlain_view escapes c
    simp only [step]
    split
    · next hc =>
      subst hc
      exact ⟨trivial, rfl, .verbatim (fun _ => by decide) (.keep fun _ => by decide), by simp⟩
    · split
      · next hname =>
        exact view_of_isNameChar [] (List.forall_mem_nil _) (isNameChar_of_isNameStart hname)
      · exact ⟨hsound, hinside, .verbatim (fun _ => by decide) hwalk,
          by simpa [State.inside] using hpositional⟩
  | name read =>
    obtain ⟨hsound, hinside, hwalk, hpositional⟩ := stepPlain_view escapes c
    simp only [step]
    split
    · next hname => exact view_of_isNameChar read h hname
    · exact ⟨hsound, hinside, .named h hwalk, by simpa [State.inside] using hpositional⟩

theorem plain_sound : State.plain.Sound :=
  trivial

theorem scan_view (escapes : Bool) (s : List Char) (h : state.Sound) :
    (scan escapes state s).2.inside = behind escapes state.inside s ∧
      Walk escapes state.inside (scan escapes state s).1 (behind escapes state.inside s) ∧
      (.positional ∉ (scan escapes state s).1 ↔ Avoids escapes '?' state.inside s) := by
  induction s generalizing state with
  | nil => exact ⟨rfl, .nil, by simp [scan, Avoids]⟩
  | cons c s ih =>
    have hview := step_view escapes c h
    obtain ⟨hbehind, hwalk, havoids⟩ := ih hview.sound
    have hwalk := hview.walk.append hwalk
    rw [hview.inside] at hbehind hwalk havoids
    refine ⟨hbehind, hwalk, ?_⟩
    simp only [scan, List.mem_append, not_or, havoids, hview.positional, Avoids, not_and]

/-- A reader that is settled is outside quotes. -/
theorem inside_settled (h : Settled state) : state.inside = none := by
  cases state <;> first | rfl | cases h

/-! ## The text that is read -/

/-- The text that a piece stands for. -/
def Piece.written : Piece → List Char
  | .verbatim c => [c]
  | .positional => ['?']
  | .named name => ':' :: name

/-- What a reader has read that is in no piece yet. -/
def State.pending : State → List Char
  | .colon => [':']
  | .name read => ':' :: read
  | _ => []

theorem stepPlain_written (c : Char) :
    (stepPlain c).1.flatMap Piece.written ++ (stepPlain c).2.pending = [c] := by
  unfold stepPlain
  split
  · rfl
  · split
    · next hc => simp [Piece.written, State.pending, hc]
    · split
      · next hc => simp [State.pending, hc]
      · rfl

theorem step_written (escapes : Bool) (c : Char) (state : State) :
    (step escapes c state).1.flatMap Piece.written ++ (step escapes c state).2.pending =
      state.pending ++ [c] := by
  cases state with
  | plain => exact stepPlain_written c
  | quoted q =>
    simp only [step]
    split
    · rfl
    · split <;> rfl
  | escaped q => rfl
  | closing q =>
    simp only [step]
    split
    · rfl
    · exact stepPlain_written c
  | colon =>
    simp only [step]
    split
    · next hc => simp [Piece.written, State.pending, hc]
    · split
      · rfl
      · exact congrArg (':' :: ·) (stepPlain_written c)
  | name read =>
    simp only [step]
    split
    · rfl
    · rw [List.flatMap_cons, List.append_assoc, stepPlain_written]
      rfl

/-- The pieces of a text make the text again. -/
theorem run_written (escapes : Bool) : ∀ (state : State) (s : List Char),
    (run escapes state s).flatMap Piece.written = state.pending ++ s
  | state, [] => by cases state <;> simp [run, finish, Piece.written, State.pending]
  | state, c :: s => by
    rw [run, List.flatMap_append, run_written, ← List.append_assoc, step_written,
      List.append_assoc]
    rfl

end Scan

open Scan

/-- Without values, a text without places is kept. -/
theorem fillPieces_written (emit : Param → Nat → String) : ∀ (ps : List Piece) (place : Nat),
    .positional ∉ ps →
      Params.empty.fillPieces emit ps [] place = some (ps.flatMap Piece.written, [])
  | [], _, _ => rfl
  | .verbatim c :: ps, place, h => by
    rw [Params.fillPieces, fillPieces_written emit ps place (not_or.mp (h ∘ List.mem_cons.mpr)).2]
    rfl
  | .named name :: ps, place, h => by
    have hname : Params.empty.named (String.ofList name) = none := rfl
    rw [Params.fillPieces, hname]
    dsimp only
    rw [fillPieces_written emit ps place (not_or.mp (h ∘ List.mem_cons.mpr)).2]
    rfl
  | .positional :: _, _, h => absurd List.mem_cons_self h

/-- A statement without a `?` outside quotes binds no value and is kept as it is, whatever names
stand in it. -/
theorem Params.bindSql_of_avoids {escapes : Bool} {sql : String}
    (h : Avoids escapes '?' none sql.toList) (emit : Param → Nat → String) :
    Params.empty.bindSql sql escapes emit = .ok (sql, []) := by
  have hscan : .positional ∉ (scan escapes .plain sql.toList).1 :=
    (scan_view escapes sql.toList plain_sound).2.2.mpr h
  have hpieces : .positional ∉ pieces escapes sql := by
    rw [pieces, run_eq_scan, List.mem_append, not_or]
    refine ⟨hscan, ?_⟩
    cases (scan escapes .plain sql.toList).2 <;> simp [finish]
  have hfill := fillPieces_written emit (pieces escapes sql) 1 hpieces
  rw [pieces, run_written] at hfill
  rw [Params.bindSql, pieces, show Params.empty.positional = [] from rfl, hfill]
  exact congrArg (fun s => Except.ok (s, [])) String.ofList_toList

/-! ## Texts that may be put anywhere -/

/-- A text without a `?` outside quotes that leaves no quoted part open. -/
structure Sealed (escapes : Bool) (s : List Char) : Prop where
  avoids : Avoids escapes '?' none s
  behind : Scan.behind escapes none s = none

namespace Sealed

variable {escapes : Bool} {s t : List Char}

theorem nil : Sealed escapes [] :=
  ⟨trivial, rfl⟩

theorem append (hs : Sealed escapes s) (ht : Sealed escapes t) : Sealed escapes (s ++ t) := by
  refine ⟨avoids_append.mpr ⟨hs.avoids, ?_⟩, ?_⟩
  · rw [hs.behind]
    exact ht.avoids
  · rw [behind_append, hs.behind, ht.behind]

theorem of_plain (h : ∀ c ∈ s, isQuote c = false ∧ c ≠ '?') : Sealed escapes s :=
  ⟨avoids_plain h, behind_plain fun c hc => (h c hc).1⟩

/-- A text that is read by itself and has no place for a value. -/
theorem of_reads (h : Reads escapes 0 s) : Sealed escapes s := by
  obtain ⟨hbehind, -, havoids⟩ := scan_view escapes s plain_sound
  exact ⟨havoids.mp (List.count_eq_zero.mp h.holes), hbehind.symm.trans (inside_settled h.settled)⟩

theorem of_unmarked (h : Unmarked s) : Sealed escapes s :=
  .of_reads (.of_unmarked h)

end Sealed

/-- Sealed texts may stand in all the places of a statement. -/
theorem Scan.Walk.fill {escapes : Bool} {i j : Inside} {ps : List Piece} {ls : List String}
    (h : Walk escapes i ps j) (hls : ∀ l ∈ ls, Sealed escapes l.toList)
    (hcount : ps.count .positional = ls.length) :
    Avoids escapes '?' i (fillText ps ls) ∧ behind escapes i (fillText ps ls) = j := by
  induction h generalizing ls with
  | nil => exact ⟨trivial, rfl⟩
  | verbatim hc _ ih =>
    rw [List.count_cons_of_ne (by simp)] at hcount
    obtain ⟨havoids, hbehind⟩ := ih hls hcount
    exact ⟨⟨hc, havoids⟩, hbehind⟩
  | @named j name ps hname _ ih =>
    rw [List.count_cons_of_ne (by simp)] at hcount
    obtain ⟨havoids, hbehind⟩ := ih hls hcount
    have hplain : Sealed escapes (':' :: name) := by
      refine .of_plain (List.forall_mem_cons.mpr ⟨by decide, fun c hc => ?_⟩)
      exact isQuote_of_isNameChar (hname c hc)
    have htext : fillText (.named name :: ps) ls = ':' :: name ++ fillText ps ls := rfl
    rw [htext, avoids_append, behind_append, hplain.behind]
    exact ⟨⟨hplain.avoids, havoids⟩, hbehind⟩
  | positional _ ih =>
    rw [List.count_cons_self] at hcount
    cases ls with
    | nil => cases hcount
    | cons l ls =>
      obtain ⟨hl, hls⟩ := List.forall_mem_cons.mp hls
      obtain ⟨havoids, hbehind⟩ := ih hls (Nat.succ.inj hcount)
      rw [fillText, avoids_append, behind_append, hl.behind]
      exact ⟨⟨hl.avoids, havoids⟩, hbehind⟩

/-- A text whose places hold sealed texts is sealed. -/
theorem Reads.fill {escapes : Bool} {n : Nat} {sql : String} {ls : List String}
    (h : Reads escapes n sql.toList) (hls : ∀ l ∈ ls, Sealed escapes l.toList)
    (hcount : ls.length = n) : Sealed escapes (fillText (pieces escapes sql) ls) := by
  obtain ⟨hbehind, hwalk, -⟩ := scan_view escapes sql.toList plain_sound
  rw [← hbehind, inside_settled h.settled] at hwalk
  obtain ⟨havoids, hend⟩ := hwalk.fill hls (by rw [h.holes, hcount])
  rw [h.pieces_eq]
  exact ⟨havoids, hend⟩

/-! ## Texts that are cut -/

namespace Scan

/-- The parts of a text between the occurrences of a character outside quotes. -/
def cutOutside (escapes : Bool) (sep : Char) : Inside → List Char → List (List Char)
  | _, [] => [[]]
  | i, c :: r =>
    let parts := cutOutside escapes sep (turn escapes c i) r
    if i = none ∧ c = sep then [] :: parts
    else (c :: parts.headD []) :: parts.tail

variable {escapes : Bool} {i : Inside} {sep : Char} {s t : List Char}

theorem cutOutside_ne_nil : cutOutside escapes sep i s ≠ [] := by
  cases s with
  | nil => exact List.cons_ne_nil _ _
  | cons c s =>
    unfold cutOutside
    dsimp only
    split <;> exact List.cons_ne_nil _ _

/-- A text that does not hold the character is one part. -/
theorem cutOutside_of_avoids (h : Avoids escapes sep i s) : cutOutside escapes sep i s = [s] := by
  induction s generalizing i with
  | nil => rfl
  | cons c s ih =>
    have hc : ¬(i = none ∧ c = sep) := fun hsep => h.1 hsep.1 hsep.2
    rw [cutOutside, ih h.2, if_neg hc]
    rfl

/-- The part in front of an occurrence of the character. -/
theorem cutOutside_append (hsep : isQuote sep = false) (h : Avoids escapes sep i s)
    (hs : behind escapes i s = none) :
    cutOutside escapes sep i (s ++ sep :: t) = s :: cutOutside escapes sep none t := by
  induction s generalizing i with
  | nil =>
    rw [behind] at hs
    subst hs
    rw [List.nil_append, cutOutside, turn_plain hsep, if_pos ⟨rfl, rfl⟩]
  | cons c s ih =>
    have hc : ¬(i = none ∧ c = sep) := fun hsep => h.1 hsep.1 hsep.2
    rw [List.cons_append, cutOutside, ih h.2 hs, if_neg hc]
    rfl

end Scan

end QueryKit
