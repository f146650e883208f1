import QueryKit.Proofs.Placeholder.Literal

/-!
# String literals

- `Scan.pieces_quoteValue`: a string literal is kept as it is, and the text behind it is read as if
  it stood alone. Only a quote could go on with the literal, so that the text must not begin with
  one.
- `Dialect.unquoteValue`: the text that a string literal stands for. It gives back what was quoted
  (`unquoteValue_quoteValue`).
- `Dialect.quoteValue_agrees`: the values of a statement are bound behind a literal as they are
  bound without it.
-/

namespace QueryKit

namespace Scan

variable {escapes : Bool} {q : Char}

/-- Behind a closing quote a text without a quote in front is read as it is outside quotes. -/
theorem run_closing : ∀ {t : List Char}, t.head? ≠ some q →
    run escapes (.closing q) t = run escapes .plain t
  | [], _ => rfl
  | c :: t, h => by
    have hc : c ≠ q := fun hc => h (congrArg some hc)
    have hstep : step escapes c (.closing q) = step escapes c .plain := if_neg hc
    rw [run, run, hstep]

open Dialect

/-- A character of a text in quotes is kept, and the reader stays in the quotes. -/
theorem scan_quotedChar (escapes : Bool) (c : Char) :
    scan escapes (.quoted '\'') (quotedChar escapes c) =
      ((quotedChar escapes c).map .verbatim, .quoted '\'') := by
  unfold quotedChar
  cases hb : escapes && c == '\\' with
  | true =>
    obtain ⟨rfl, -⟩ := Bool.and_eq_true_iff.mp hb
    rfl
  | false =>
    rw [if_neg Bool.false_ne_true]
    by_cases hc : c = '\''
    · rw [if_pos hc]
      cases escapes <;> rfl
    · have hstep : step escapes c (.quoted '\'') = ([.verbatim c], .quoted '\'') := by
        simp [step, hb, hc]
      rw [if_neg hc, scan, hstep]
      rfl

theorem scan_quotedText (escapes : Bool) (s : List Char) :
    scan escapes (.quoted '\'') (s.flatMap (quotedChar escapes)) =
      ((s.flatMap (quotedChar escapes)).map .verbatim, .quoted '\'') := by
  induction s with
  | nil => rfl
  | cons c s ih => rw [List.flatMap_cons, scan_append, scan_quotedChar, ih, List.map_append]

/-- A string literal is kept, and its last quote closes it. -/
theorem scan_quoteValue (d : Dialect) (s : String) :
    scan d.backslashEscapes .plain (d.quoteValue s).toList =
      ((d.quoteValue s).toList.map .verbatim, .closing '\'') := by
  have hclose : scan d.backslashEscapes (.quoted '\'') ['\''] =
      ([.verbatim '\''], .closing '\'') := by cases d <;> rfl
  have hopen : step d.backslashEscapes '\'' .plain = ([.verbatim '\''], .quoted '\'') := rfl
  rw [quoteValue_toList, scan, hopen]
  dsimp only
  rw [scan_append, scan_quotedText, hclose, List.map_cons, List.map_append]
  rfl

theorem pieces_quoteValue (d : Dialect) (s : String) {t : String}
    (ht : t.toList.head? ≠ some '\'') :
    pieces d.backslashEscapes (d.quoteValue s ++ t) =
      (d.quoteValue s).toList.map .verbatim ++ pieces d.backslashEscapes t := by
  rw [pieces, String.toList_append, run_append, scan_quoteValue, run_closing ht, pieces]

end Scan

namespace Dialect

/-- What stands in quotes, up to the closing quote at the end: a doubled quote is one quote, and
where a backslash escapes, it stands for the character behind it. -/
def unescape (escapes : Bool) : List Char → Option (List Char)
  | [] => none
  | [c] => if c = '\'' then some [] else none
  | c :: d :: r =>
    if escapes && c == '\\' then (unescape escapes r).map (d :: ·)
    else if c = '\'' then if d = '\'' then (unescape escapes r).map ('\'' :: ·) else none
    else (unescape escapes (d :: r)).map (c :: ·)

/-- The text that a string literal stands for; nothing if the text is not one string literal. -/
def unquoteValue (d : Dialect) (literal : String) : Option String :=
  match literal.toList with
  | '\'' :: r => (unescape d.backslashEscapes r).map String.ofList
  | _ => none

variable {escapes : Bool} {r s : List Char}

/-- Each character of a text in quotes is one character of the text. -/
theorem unescape_quotedChar (c : Char) :
    unescape escapes (quotedChar escapes c ++ r) = (unescape escapes r).map (c :: ·) := by
  unfold quotedChar
  cases hb : escapes && c == '\\' with
  | true =>
    obtain ⟨rfl, hc⟩ := Bool.and_eq_true_iff.mp hb
    rw [beq_iff_eq.mp hc]
    rfl
  | false =>
    rw [if_neg Bool.false_ne_true]
    by_cases hc : c = '\''
    · rw [if_pos hc, hc]
      cases escapes <;> rfl
    · rw [if_neg hc]
      cases r with
      | nil => exact if_neg hc
      | cons d r =>
        rw [List.singleton_append, unescape, hb, if_neg Bool.false_ne_true, if_neg hc]

theorem unescape_quotedText :
    unescape escapes (s.flatMap (quotedChar escapes) ++ ['\'']) = some s := by
  induction s with
  | nil => rfl
  | cons c s ih => rw [List.flatMap_cons, List.append_assoc, unescape_quotedChar, ih]; rfl

/-- Undoing the escapes of a string literal gives back what was quoted. -/
theorem unquoteValue_quoteValue (d : Dialect) (s : String) :
    d.unquoteValue (d.quoteValue s) = some s := by
  rw [unquoteValue, quoteValue_toList]
  change (unescape _ _).map String.ofList = some s
  rw [unescape_quotedText, Option.map_some, String.ofList_toList]

/-- What the values of a statement make of a text behind a string literal. -/
theorem fillPieces_quoteValue (d : Dialect) (s : String) {t : String}
    (ht : t.toList.head? ≠ some '\'') (ps : Params) (emit : Param → Nat → String) :
    ps.fillPieces emit (Scan.pieces d.backslashEscapes (d.quoteValue s ++ t)) ps.positional 1 =
      (ps.fillPieces emit (Scan.pieces d.backslashEscapes t) ps.positional 1).map
        fun (text, bound) => ((d.quoteValue s).toList ++ text, bound) := by
  rw [Scan.pieces_quoteValue d s ht, Params.fillPieces_verbatim]

/-- String literals and the reader of placeholders agree. In front of any text that does not begin
with a quote a literal is kept, and takes no value: binding fails if and only if it fails for the
text behind it, and otherwise takes the same values and gives the literal and what the text behind
it gives. The literal says which text it stands for. -/
theorem quoteValue_agrees (d : Dialect) (s t : String) (ps : Params) (emit : Param → Nat → String)
    (ht : t.toList.head? ≠ some '\'') :
    ((∃ e, ps.bindSql (d.quoteValue s ++ t) d.backslashEscapes emit = .error e) ↔
        ∃ e, ps.bindSql t d.backslashEscapes emit = .error e) ∧
      (∀ text bound, ps.bindSql t d.backslashEscapes emit = .ok (text, bound) →
        ps.bindSql (d.quoteValue s ++ t) d.backslashEscapes emit =
          .ok (d.quoteValue s ++ text, bound)) ∧
      d.unquoteValue (d.quoteValue s) = some s ∧
      ∀ s', d.quoteValue s = d.quoteValue s' → s = s' := by
  have hfill := fillPieces_quoteValue d s ht ps emit
  refine ⟨?_, ?_, unquoteValue_quoteValue d s, fun s' heq => ?_⟩
  · unfold Params.bindSql
    rw [hfill]
    cases ps.fillPieces emit (Scan.pieces d.backslashEscapes t) ps.positional 1 <;> simp
  · intro text bound h
    unfold Params.bindSql at h ⊢
    rw [hfill]
    cases hrest : ps.fillPieces emit (Scan.pieces d.backslashEscapes t) ps.positional 1 with
    | none =>
      rw [hrest] at h
      cases h
    | some filled =>
      obtain ⟨chars, values⟩ := filled
      rw [hrest] at h
      cases h
      simp [String.ofList_append]
  · have hundone := unquoteValue_quoteValue d s
    rw [heq, unquoteValue_quoteValue d s'] at hundone
    exact (Option.some.inj hundone).symm

/-- A path that ends in a backslash, and a quote in the middle of it, in front of a value. -/
theorem quotedPath_agrees :
    Dialect.mysql.quoteValue "it's \\" = "'it''s \\\\'" ∧
      (Params.empty.push (.ofValue (.int32 7))).bindSql "'it''s \\\\' AND id = ?" true
          (fun _ n => "$" ++ Nat.repr n) =
        .ok ("'it''s \\\\' AND id = $1", [.ofValue (.int32 7)]) ∧
      Dialect.mysql.unquoteValue "'it''s \\\\'" = some "it's \\" := by
  obtain ⟨-, hbound, hundone, -⟩ := quoteValue_agrees .mysql "it's \\" " AND id = ?"
    (Params.empty.push (.ofValue (.int32 7))) (fun _ n => "$" ++ Nat.repr n) (by decide)
  exact ⟨rfl, hbound _ _ rfl, hundone⟩

end Dialect

end QueryKit
