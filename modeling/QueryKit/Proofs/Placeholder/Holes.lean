import QueryKit.Proofs.Placeholder.Inside

/-!
# Places outside quotes

- `Scan.holes`: the number of `?` outside quotes, as a reader sees them that only follows quotes.
- `Scan.count_pieces_eq`: there is a positional placeholder for each of them.
- `Scan.scan_blank`: a text that ends with a blank outside quotes leaves nothing to be written, so
  that what follows is read as if it stood at the start.
-/

namespace QueryKit

namespace Scan

/-- The number of `?` outside quotes. -/
def holes (escapes : Bool) : Inside → List Char → Nat
  | _, [] => 0
  | i, c :: r => (if i = none ∧ c = '?' then 1 else 0) + holes escapes (turn escapes c i) r

variable {escapes : Bool} {i j : Inside} {c : Char} {s t : List Char} {state : State}
  {ps : List Piece}

theorem holes_append :
    holes escapes i (s ++ t) = holes escapes i s + holes escapes (behind escapes i s) t := by
  induction s generalizing i with
  | nil => exact (Nat.zero_add _).symm
  | cons c s ih => rw [List.cons_append, holes, ih, holes, behind, Nat.add_assoc]

theorem holes_of_avoids (h : Avoids escapes '?' i s) : holes escapes i s = 0 := by
  induction s generalizing i with
  | nil => rfl
  | cons c s ih => rw [holes, if_neg (not_and.mpr h.1), ih h.2]

/-- The places that a reader of placeholders finds are those outside quotes. -/
theorem Walk.holes_written (h : Walk escapes i ps j) :
    holes escapes i (ps.flatMap Piece.written) = ps.count .positional := by
  induction h with
  | nil => rfl
  | verbatim hc _ ih =>
    rw [List.count_cons_of_ne (by simp), ← ih]
    simp only [List.flatMap_cons, Piece.written, List.cons_append, List.nil_append, holes]
    rw [if_neg (not_and.mpr hc), Nat.zero_add]
  | positional _ ih =>
    have hturn : turn escapes '?' none = none := rfl
    rw [List.count_cons_self, ← ih, Nat.add_comm]
    simp only [List.flatMap_cons, Piece.written, List.cons_append, List.nil_append, holes]
    rw [hturn, if_pos (by simp)]
  | @named j name ps hname _ ih =>
    have hplain : Sealed escapes (':' :: name) := by
      refine .of_plain (List.forall_mem_cons.mpr ⟨by decide, fun c hc => ?_⟩)
      exact isQuote_of_isNameChar (hname c hc)
    rw [List.count_cons_of_ne (by simp), ← ih, List.flatMap_cons, Piece.written, holes_append,
      holes_of_avoids hplain.avoids, hplain.behind, Nat.zero_add]

theorem scan_sound (escapes : Bool) (s : List Char) (h : state.Sound) :
    (scan escapes state s).2.Sound := by
  induction s generalizing state with
  | nil => exact h
  | cons c s ih => exact ih (step_view escapes c h).sound

/-- What is written at the end stands outside quotes. -/
theorem finish_walk (escapes : Bool) (h : state.Sound) :
    Walk escapes state.inside (finish state) state.inside := by
  cases state with
  | colon => exact .keep fun _ => by decide
  | name read => exact .named h .nil
  | _ => exact .nil

theorem count_pieces_eq (escapes : Bool) (sql : String) :
    (pieces escapes sql).count .positional = holes escapes none sql.toList := by
  have hwalk := (scan_view escapes sql.toList plain_sound).2.1
  have hend := finish_walk escapes (scan_sound escapes sql.toList plain_sound)
  rw [(scan_view escapes sql.toList plain_sound).1] at hend
  have hrun : Walk escapes none (run escapes .plain sql.toList) _ := run_eq_scan ▸ hwalk.append hend
  rw [pieces, ← hrun.holes_written, run_written]
  rfl

/-- A reader that is outside quotes behind a blank has nothing left to write. -/
theorem step_blank (h : state.Sound) (hout : turn escapes ' ' state.inside = none) :
    (step escapes ' ' state).2 = .plain := by
  have hinside := (step_view escapes ' ' h).inside.trans hout
  cases state with
  | quoted q =>
    have hq : ' ' ≠ q := by
      rintro rfl
      cases h
    simp [step, hq, State.inside] at hinside
  | escaped q => cases hinside
  | closing q =>
    have hq : ' ' ≠ q := by
      rintro rfl
      cases h
    rw [step, if_neg hq]
    rfl
  | _ => rfl

theorem scan_blank (hlast : s.getLast? = some ' ') (hout : behind escapes none s = none) :
    (scan escapes .plain s).2 = .plain := by
  obtain ⟨r, rfl⟩ := List.getLast?_eq_some_iff.mp hlast
  have hview : (scan escapes .plain r).2.inside = behind escapes none r :=
    (scan_view escapes r plain_sound).1
  rw [behind_append, ← hview] at hout
  rw [scan_append]
  exact step_blank (scan_sound escapes r plain_sound) hout

end Scan

end QueryKit
