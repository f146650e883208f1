import QueryKit.Params.Placeholder
import QueryKit.Proofs.Compile.Fragment

/-!
# Reading statement text part by part

- `Scan.scan`: the pieces of a part of a text, and where a reader stands behind it.
- `Reads escapes n s`: a text that is read by itself. It holds `n` positional placeholders and no
  named one, and it ends outside quotes or with a quote that closes. What follows a fixed text is
  then read as if it stood at the start (`Reads.glue`).
- `Unmarked`: texts without quotes, placeholders and backslashes.
- `bindSql_ok`: a text with as many placeholders as there are positional values takes all of them.
- `fillText`: the text with literals in the places (`fillPieces_positional`).
-/

namespace QueryKit

namespace Scan

/-- The pieces that a reader yields over a part of a text, and where it stands behind it. -/
def scan (escapes : Bool) : State → List Char → List Piece × State
  | state, [] => ([], state)
  | state, c :: r =>
    let (ps, next) := step escapes c state
    let (qs, last) := scan escapes next r
    (ps ++ qs, last)

variable {escapes : Bool} {state : State} {c : Char} {s t : List Char}

theorem scan_append : scan escapes state (s ++ t) =
    ((scan escapes state s).1 ++ (scan escapes (scan escapes state s).2 t).1,
      (scan escapes (scan escapes state s).2 t).2) := by
  induction s generalizing state with
  | nil => rfl
  | cons c s ih =>
    rw [List.cons_append]
    simp only [scan]
    rw [ih, List.append_assoc]

theorem run_eq_scan :
    run escapes state s = (scan escapes state s).1 ++ finish (scan escapes state s).2 := by
  induction s generalizing state with
  | nil => rfl
  | cons c s ih =>
    simp only [run, scan]
    rw [ih, List.append_assoc]

theorem run_append : run escapes state (s ++ t) =
    (scan escapes state s).1 ++ run escapes (scan escapes state s).2 t := by
  rw [run_eq_scan, scan_append, List.append_assoc, run_eq_scan]

/-- Outside quotes, or behind a quote that closes. -/
def Settled : State → Prop
  | .plain => True
  | .closing q => isQuote q = true
  | _ => False

theorem finish_settled (h : Settled state) : finish state = [] := by
  cases state <;> first | rfl | cases h

/-- A character that is no quote is read behind a closing quote as it is outside quotes. -/
theorem step_settled (h : Settled state) (hc : isQuote c = false) :
    step escapes c state = stepPlain c := by
  cases state with
  | plain => rfl
  | closing q =>
    have hne : c ≠ q := by
      rintro rfl
      exact Bool.false_ne_true (hc.symm.trans h)
    exact if_neg hne
  | _ => cases h

theorem scan_settled (h : Settled state) (hc : isQuote c = false) :
    scan escapes state (c :: s) = scan escapes .plain (c :: s) := by
  simp only [scan]
  rw [step_settled h hc]
  rfl

/-- A character that neither opens a quoted part nor begins a placeholder. -/
theorem stepPlain_eq (hq : isQuote c = false) (hp : c ≠ '?') (hn : c ≠ ':') :
    stepPlain c = ([.verbatim c], .plain) := by
  rw [stepPlain, hq, if_neg Bool.false_ne_true, if_neg hp, if_neg hn]

theorem scan_plain (h : ∀ c ∈ s, isQuote c = false ∧ c ≠ '?' ∧ c ≠ ':') :
    scan escapes .plain s = (s.map .verbatim, .plain) := by
  induction s with
  | nil => rfl
  | cons c s ih =>
    obtain ⟨⟨hq, hp, hn⟩, hs⟩ := List.forall_mem_cons.mp h
    simp only [scan, step]
    rw [stepPlain_eq hq hp hn, ih hs]
    rfl

end Scan

open Scan

/-! ## Texts read by themselves -/

/-- A text with `n` positional placeholders and no named one that leaves no quoted part open. -/
structure Reads (escapes : Bool) (n : Nat) (s : List Char) : Prop where
  holes : (scan escapes .plain s).1.count .positional = n
  unnamed : ∀ name, .named name ∉ (scan escapes .plain s).1
  settled : Settled (scan escapes .plain s).2

/-- What cannot be told from its place: quotes, placeholders and backslashes. -/
def isMark (c : Char) : Bool :=
  isQuote c || c == '?' || c == ':' || c == '\\'

/-- A text without marks. -/
def Unmarked (s : List Char) : Prop :=
  s.all (fun c => !isMark c) = true

instance (s : List Char) : Decidable (Unmarked s) :=
  inferInstanceAs (Decidable (_ = true))

namespace Reads

variable {escapes : Bool} {n m : Nat} {s t g : List Char}

theorem nil : Reads escapes 0 [] :=
  ⟨rfl, nofun, trivial⟩

theorem place : Reads escapes 1 ['?'] := by
  refine ⟨rfl, fun name h => ?_, trivial⟩
  cases List.mem_singleton.mp h

/-- A text that is kept as it is. -/
theorem of_scan (state : State) (h : scan escapes .plain s = (s.map .verbatim, state))
    (hs : Settled state) : Reads escapes 0 s := by
  refine ⟨?_, fun name => ?_, ?_⟩
  · rw [h, List.count_eq_zero]
    simp
  · rw [h]
    simp
  · rw [h]
    exact hs

/-- Characters that mean nothing outside quotes. -/
theorem of_plain (h : ∀ c ∈ s, isQuote c = false ∧ c ≠ '?' ∧ c ≠ ':') : Reads escapes 0 s :=
  of_scan .plain (scan_plain h) trivial

theorem append_of_scan (hs : Reads escapes n s)
    (hscan : scan escapes (scan escapes .plain s).2 t = scan escapes .plain t)
    (ht : Reads escapes m t) : Reads escapes (n + m) (s ++ t) := by
  refine ⟨?_, fun name => ?_, ?_⟩
  · rw [scan_append, hscan, List.count_append, hs.holes, ht.holes]
  · rw [scan_append, hscan, List.mem_append, not_or]
    exact ⟨hs.unnamed name, ht.unnamed name⟩
  · rw [scan_append, hscan]
    exact ht.settled

/-- A text behind which another one begins that does not begin with a quote. -/
theorem append {c : Char} (hs : Reads escapes n s) (hc : isQuote c = false)
    (ht : Reads escapes m (c :: t)) : Reads escapes (n + m) (s ++ c :: t) :=
  hs.append_of_scan (scan_settled hs.settled hc) ht

theorem plain_of_glue {c : Char} (h : isGlueChar c = true) :
    isQuote c = false ∧ c ≠ '?' ∧ c ≠ ':' := by
  refine ⟨?_, ?_, ?_⟩
  · rw [Bool.eq_false_iff]
    intro hq
    simp only [isQuote, Bool.or_eq_true, beq_iff_eq] at hq
    rcases hq with (rfl | rfl) | rfl <;> exact absurd h (by decide)
  · rintro rfl
    exact absurd h (by decide)
  · rintro rfl
    exact absurd h (by decide)

/-- A fixed text between two texts separates them. -/
theorem glue (hs : Reads escapes n s) (hne : g ≠ []) (hg : ∀ c ∈ g, isGlueChar c = true)
    (ht : Reads escapes m t) : Reads escapes (n + m) (s ++ g ++ t) := by
  have hplain : ∀ c ∈ g, isQuote c = false ∧ c ≠ '?' ∧ c ≠ ':' := fun c hc =>
    plain_of_glue (hg c hc)
  have hgt : Reads escapes m (g ++ t) := by
    have hg : Reads escapes 0 g := of_plain hplain
    have hscan : scan escapes (scan escapes .plain g).2 t = scan escapes .plain t := by
      rw [scan_plain hplain]
    have h := hg.append_of_scan hscan ht
    rwa [Nat.zero_add] at h
  obtain ⟨c, r, rfl⟩ := List.exists_cons_of_ne_nil hne
  rw [List.append_assoc]
  exact hs.append (hplain c List.mem_cons_self).1 hgt

/-- A cast: the double colon is no placeholder. -/
theorem cast (hs : Reads escapes n s) (ht : Reads escapes m t) :
    Reads escapes (n + m) (s ++ ':' :: ':' :: t) := by
  refine hs.append rfl ⟨?_, fun name h => ?_, ?_⟩
  · exact ht.holes
  · exact ht.unnamed name (by simpa [scan, step, stepPlain, isQuote] using h)
  · exact ht.settled

theorem of_unmarked (h : Unmarked s) : Reads escapes 0 s := by
  refine of_plain fun c hc => ?_
  have hmark := List.all_eq_true.mp h c hc
  simp only [isMark, Bool.not_eq_true', Bool.or_eq_false_iff, beq_eq_false_iff_ne] at hmark
  exact ⟨hmark.1.1.1, hmark.1.1.2, hmark.1.2⟩

/-- Nothing is left to be written at the end of such a text. -/
theorem pieces_eq {sql : String} (h : Reads escapes n sql.toList) :
    pieces escapes sql = (scan escapes .plain sql.toList).1 := by
  rw [pieces, run_eq_scan, finish_settled h.settled, List.append_nil]

end Reads

/-! ## Quoted parts -/

namespace Scan

variable {escapes : Bool} {q : Char} {s : List Char}

/-- Inside quotes, characters other than the quote and the backslash mean nothing. -/
theorem scan_quoted (h : ∀ c ∈ s, c ≠ q ∧ c ≠ '\\') :
    scan escapes (.quoted q) s = (s.map .verbatim, .quoted q) := by
  induction s with
  | nil => rfl
  | cons c s ih =>
    obtain ⟨⟨hq, hb⟩, hs⟩ := List.forall_mem_cons.mp h
    have hstep : step escapes c (.quoted q) = ([.verbatim c], .quoted q) := by
      simp [step, hq, hb]
    simp only [scan]
    rw [hstep, ih hs]
    rfl

end Scan

/-- A text in quotes. -/
theorem Reads.quoted {escapes : Bool} {q : Char} {s : List Char} (hq : isQuote q = true)
    (hb : q ≠ '\\') (h : ∀ c ∈ s, c ≠ q ∧ c ≠ '\\') : Reads escapes 0 (q :: (s ++ [q])) := by
  have hopen : stepPlain q = ([.verbatim q], .quoted q) := if_pos hq
  have hclose : scan escapes (.quoted q) [q] = ([.verbatim q], .closing q) := by
    simp [scan, step, hb]
  refine of_scan (.closing q) ?_ hq
  simp only [scan, step]
  rw [hopen, scan_append, scan_quoted h, hclose]
  simp

/-! ## Binding -/

/-- The value of a positional binding. -/
def Binding.asPositional (b : Binding) : Option Param :=
  match b.key with
  | .positional => some b.param
  | .named _ => none

/-- The values that bindings append to the positional ones. -/
def positionals (bs : List Binding) : List Param :=
  bs.filterMap Binding.asPositional

@[simp] theorem positionals_nil : positionals [] = [] := rfl

theorem positionals_append (bs cs : List Binding) :
    positionals (bs ++ cs) = positionals bs ++ positionals cs :=
  List.filterMap_append

namespace Params

theorem positionals_bindings (ps : Params) : positionals ps.bindings = ps.positional := by
  unfold positionals bindings positional
  rw [List.filterMap_map]
  congr 1
  funext e
  obtain ⟨k, p⟩ := e
  cases k <;> rfl

/-- Setting a name leaves the positional values alone. -/
theorem positional_setEntry (name : String) (p : Param) : ∀ es : List (ParamKey × Param),
    (⟨setEntry name p es⟩ : Params).positional = (⟨es⟩ : Params).positional
  | [] => rfl
  | (k, q) :: es => by
    unfold setEntry
    split
    · next hk =>
      subst hk
      rfl
    · have ih := positional_setEntry name p es
      unfold positional at ih ⊢
      rw [List.filterMap_cons, List.filterMap_cons, ih]

theorem positional_bind (ps : Params) (b : Binding) :
    (ps.bind b.key b.param).positional = ps.positional ++ positionals [b] := by
  obtain ⟨k, p⟩ := b
  cases k with
  | positional => simp [bind, push, positional, positionals, Binding.asPositional]
  | named name =>
    exact (positional_setEntry (bareName name) p ps.entries).trans (List.append_nil _).symm

theorem positional_bindAll (ps : Params) (bs : List Binding) :
    (ps.bindAll bs).positional = ps.positional ++ positionals bs := by
  induction bs generalizing ps with
  | nil => exact (List.append_nil _).symm
  | cons b bs ih =>
    have hcons : positionals (b :: bs) = positionals [b] ++ positionals bs :=
      positionals_append [b] bs
    have hrest := ih (ps.bind b.key b.param)
    rw [positional_bind, List.append_assoc, ← hcons] at hrest
    exact hrest

/-- A text that is kept stands in front of what is made of the pieces behind it. -/
theorem fillPieces_verbatim (emit : Param → Nat → String) (ps : Params) (pieces : List Piece)
    (left : List Param) (place : Nat) : ∀ s : List Char,
    ps.fillPieces emit (s.map .verbatim ++ pieces) left place =
      (ps.fillPieces emit pieces left place).map fun (text, bound) => (s ++ text, bound)
  | [] => by cases h : ps.fillPieces emit pieces left place <;> simp [h]
  | c :: s => by
    rw [List.map_cons, List.cons_append, fillPieces, fillPieces_verbatim emit ps pieces left place s,
      Option.map_map]
    rfl

end Params

/-! ## Texts with literals in the places -/

/-- The text with literals in its places, as far as there are literals. -/
def fillText : List Piece → List String → List Char
  | [], _ | .positional :: _, [] => []
  | .verbatim c :: ps, ls => c :: fillText ps ls
  | .named name :: ps, ls => ':' :: (name ++ fillText ps ls)
  | .positional :: ps, l :: ls => l.toList ++ fillText ps ls

/-- Where the names are not bound, the places take the values in their order. -/
theorem fillPieces_positional {ps : Params} (literal : Param → String) :
    ∀ (pieces : List Piece) (left : List Param) (place : Nat),
      (∀ name, .named name ∈ pieces → ps.named (String.ofList name) = none) →
      pieces.count .positional = left.length →
      ps.fillPieces (fun p _ => literal p) pieces left place =
        some (fillText pieces (left.map literal), left)
  | [], left, _, _, hcount => by
    have hleft : left = [] := List.eq_nil_of_length_eq_zero hcount.symm
    rw [hleft]
    rfl
  | .verbatim c :: pieces, left, place, hnamed, hcount => by
    rw [List.count_cons_of_ne (by simp)] at hcount
    rw [Params.fillPieces, fillPieces_positional literal pieces left place
      (fun name h => hnamed name (List.mem_cons_of_mem _ h)) hcount, fillText]
    rfl
  | .named name :: pieces, left, place, hnamed, hcount => by
    rw [List.count_cons_of_ne (by simp)] at hcount
    rw [Params.fillPieces, hnamed name List.mem_cons_self]
    dsimp only
    rw [fillPieces_positional literal pieces left place
      (fun name h => hnamed name (List.mem_cons_of_mem _ h)) hcount, fillText]
    rfl
  | .positional :: pieces, left, place, hnamed, hcount => by
    rw [List.count_cons_self] at hcount
    cases left with
    | nil => cases hcount
    | cons p left =>
      rw [Params.fillPieces, fillPieces_positional literal pieces left (place + 1)
        (fun name h => hnamed name (List.mem_cons_of_mem _ h)) (Nat.succ.inj hcount)]
      rfl

end QueryKit
