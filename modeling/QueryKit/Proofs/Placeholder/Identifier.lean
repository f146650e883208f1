import Mathlib.Algebra.Group.Nat.Even
import Mathlib.Data.List.DropRight
import QueryKit.Proofs.Placeholder.StringLiteral

/-!
# Identifiers

- `Dialect.Kept`: a text that binding leaves alone in front of a text that could not go on with it.
- `Dialect.ClosesQuote`: names whose last character does not protect the quote behind it. In quotes
  such a name is read to its end (`scan_inQuotes_closed`), and any other name is not
  (`scan_inQuotes_open`): the reader takes the text behind it for a part of it.
- `quotedName_kept_iff`: exactly these names are kept in quotes.
- `kept_quoteTableChars`, `kept_quoteColumnChars`: names of several parts are kept if each part is.
-/

namespace QueryKit

theorem Text.hasText_iff {t : List Char} : ∀ {s : List Char}, hasText t s = true ↔ t <:+: s
  | [] => by simp [hasText]
  | c :: s => by
    rw [hasText, Bool.or_eq_true, hasText_iff, List.infix_cons_iff, Option.isSome_iff_exists]
    exact or_congr_left (exists_congr fun r => dropText_eq_some.trans eq_comm)

namespace Dialect

/-- The quote behind the name ends it: where a backslash protects the next character, the name ends
with an even number of backslashes. -/
def ClosesQuote (d : Dialect) (name : List Char) : Prop :=
  d.backslashEscapes = true → Even (name.rtakeWhile (· == '\\')).length

/-- In front of the text, binding keeps the name and takes no value for it: it fails if and only if
it fails for the text, and otherwise takes the same values. -/
def KeptBefore (d : Dialect) (name : List Char) (t : String) : Prop :=
  ∀ (ps : Params) (emit : Param → Nat → String),
    ((∃ e, ps.bindSql (String.ofList name ++ t) d.backslashEscapes emit = .error e) ↔
        ∃ e, ps.bindSql t d.backslashEscapes emit = .error e) ∧
      ∀ text bound, ps.bindSql t d.backslashEscapes emit = .ok (text, bound) →
        ps.bindSql (String.ofList name ++ t) d.backslashEscapes emit =
          .ok (String.ofList name ++ text, bound)

/-- Binding keeps the name in front of every text that does not begin with the quote. -/
def Kept (d : Dialect) (name : List Char) : Prop :=
  ∀ t : String, t.toList.head? ≠ some d.quoteChar → d.KeptBefore name t

theorem quoteChar_ne_backslash (d : Dialect) : d.quoteChar ≠ '\\' := by
  cases d <;> simp [quoteChar]

end Dialect

/-! ## Reading a name -/

namespace Scan

open Dialect

variable {escapes : Bool} {state : State} {q c : Char} {n : List Char} {d : Dialect}

theorem scan_singleton : scan escapes state [c] = step escapes c state := by
  simp [scan]

/-- Where a reader stands behind the characters of a quoted name. -/
def nameState (escapes : Bool) (q : Char) (n : List Char) : State :=
  if escapes = true ∧ ¬Even (n.rtakeWhile (· == '\\')).length then .escaped q else .quoted q

/-- One more character of a name. A backslash is protected by the one in front of it. -/
theorem step_nameState (hc : c ≠ q) :
    step escapes c (nameState escapes q n) = ([.verbatim c], nameState escapes q (n ++ [c])) := by
  unfold nameState
  rw [List.rtakeWhile_concat]
  cases escapes with
  | false => simp [step, hc]
  | true =>
    by_cases hb : c = '\\'
    · subst hb
      by_cases heven : Even (n.rtakeWhile (· == '\\')).length <;>
        simp [step, heven, Nat.even_add_one]
    · by_cases heven : Even (n.rtakeWhile (· == '\\')).length <;> simp [step, heven, hb, hc]

/-- The characters of a name are kept. -/
theorem scan_name (hn : q ∉ n) :
    scan escapes (.quoted q) n = (n.map .verbatim, nameState escapes q n) := by
  induction n using List.reverseRecOn with
  | nil => simp [scan, nameState]
  | append_singleton n c ih =>
    rw [List.mem_append, List.mem_singleton, not_or] at hn
    rw [scan_append, ih hn.1, scan_singleton, step_nameState (Ne.symm hn.2), List.map_append]
    rfl

theorem scan_inQuotes (hn : d.quoteChar ∉ n) :
    scan d.backslashEscapes .plain (d.inQuotes n) =
      ((d.inQuotes n).map .verbatim,
        (step d.backslashEscapes d.quoteChar (nameState d.backslashEscapes d.quoteChar n)).2) := by
  have hopen : step d.backslashEscapes d.quoteChar .plain =
      ([.verbatim d.quoteChar], .quoted d.quoteChar) := if_pos d.isQuote_quoteChar
  have hlast : ∀ state : State, state = .quoted d.quoteChar ∨ state = .escaped d.quoteChar →
      (step d.backslashEscapes d.quoteChar state).1 = [.verbatim d.quoteChar] := by
    rintro _ (rfl | rfl) <;> rfl
  have hstate : nameState d.backslashEscapes d.quoteChar n = .quoted d.quoteChar ∨
      nameState d.backslashEscapes d.quoteChar n = .escaped d.quoteChar := by
    unfold nameState
    split
    · exact .inr rfl
    · exact .inl rfl
  rw [inQuotes, scan, hopen]
  dsimp only
  rw [scan_append, scan_name hn, scan_singleton, hlast _ hstate]
  simp

/-- The quote behind such a name closes it. -/
theorem scan_inQuotes_closed (hn : d.quoteChar ∉ n) (h : d.ClosesQuote n) :
    scan d.backslashEscapes .plain (d.inQuotes n) =
      ((d.inQuotes n).map .verbatim, .closing d.quoteChar) := by
  have hstate : nameState d.backslashEscapes d.quoteChar n = .quoted d.quoteChar :=
    if_neg fun hodd => hodd.2 (h hodd.1)
  rw [scan_inQuotes hn, hstate]
  simp [step, d.quoteChar_ne_backslash]

/-- The quote behind any other name is protected, and leaves the reader within quotes. -/
theorem scan_inQuotes_open (hn : d.quoteChar ∉ n) (h : ¬d.ClosesQuote n) :
    scan d.backslashEscapes .plain (d.inQuotes n) =
      ((d.inQuotes n).map .verbatim, .quoted d.quoteChar) := by
  have hstate : nameState d.backslashEscapes d.quoteChar n = .escaped d.quoteChar :=
    if_pos (Classical.not_imp.mp h)
  rw [scan_inQuotes hn, hstate]
  rfl

end Scan

/-! ## Names that are kept -/

namespace Dialect

open Scan

variable {d : Dialect} {a b n s : List Char}

theorem KeptBefore.of_pieces {t : String} (h : pieces d.backslashEscapes (String.ofList s ++ t) =
    s.map .verbatim ++ pieces d.backslashEscapes t) : d.KeptBefore s t := by
  intro ps emit
  have hfill := Params.fillPieces_verbatim emit ps (pieces d.backslashEscapes t) ps.positional 1 s
  unfold Params.bindSql
  rw [h, hfill]
  cases ps.fillPieces emit (pieces d.backslashEscapes t) ps.positional 1 with
  | none => simp
  | some filled => simp [String.ofList_append]

theorem KeptBefore.append {t : String} (ha : d.KeptBefore a (String.ofList b ++ t))
    (hb : d.KeptBefore b t) : d.KeptBefore (a ++ b) t := by
  intro ps emit
  obtain ⟨hfails, hbinds⟩ := ha ps emit
  obtain ⟨hfails', hbinds'⟩ := hb ps emit
  rw [String.ofList_append, String.append_assoc]
  refine ⟨hfails.trans hfails', fun text bound h => ?_⟩
  rw [hbinds _ _ (hbinds' text bound h), String.append_assoc]

/-- A text is kept if it is read as it stands and what follows is read as if it stood alone. -/
theorem Kept.of_scan {state : State}
    (hscan : scan d.backslashEscapes .plain s = (s.map .verbatim, state))
    (hrest : ∀ t : List Char, t.head? ≠ some d.quoteChar →
      run d.backslashEscapes state t = run d.backslashEscapes .plain t) : d.Kept s := by
  refine fun t ht => .of_pieces ?_
  rw [pieces, String.toList_append, String.toList_ofList, run_append, hscan]
  exact congrArg (_ ++ ·) (hrest t.toList ht)

/-- A point separates what is in front of it from what is behind it. -/
theorem Kept.point (ha : d.Kept a) (hb : d.Kept b) : d.Kept (a ++ '.' :: b) := by
  intro t ht
  have hquote : d.quoteChar ≠ '.' := by cases d <;> simp [quoteChar]
  have hpoint : d.KeptBefore ['.'] (String.ofList b ++ t) := by
    refine .of_pieces ?_
    rw [pieces, String.toList_append]
    rfl
  refine (ha _ fun hhead => hquote ?_).append (hpoint.append (hb t ht))
  rw [String.toList_append, String.toList_ofList] at hhead
  exact (Option.some.inj hhead).symm

theorem kept_inQuotes (hn : d.quoteChar ∉ n) (h : d.ClosesQuote n) : d.Kept (d.inQuotes n) :=
  .of_scan (scan_inQuotes_closed hn h) fun _ => run_closing

/-- A name that leaves the reader within quotes hides a placeholder behind it. -/
theorem not_kept_inQuotes (hn : d.quoteChar ∉ n) (h : ¬d.ClosesQuote n) :
    ¬d.Kept (d.inQuotes n) := by
  intro hkept
  have hquote : d.quoteChar ≠ '?' := by cases d <;> simp [quoteChar]
  have hhead : "?".toList.head? ≠ some d.quoteChar := fun hhead =>
    hquote (Option.some.inj hhead).symm
  obtain ⟨hfails, -⟩ := hkept "?" hhead .empty fun _ _ => "?"
  obtain ⟨e, he⟩ := hfails.mpr ⟨_, rfl⟩
  have hhidden : run d.backslashEscapes (.quoted d.quoteChar) ['?'] = [.verbatim '?'] := by
    simp [run, step, finish, Ne.symm hquote]
  have hpieces : pieces d.backslashEscapes (String.ofList (d.inQuotes n) ++ "?") =
      (d.inQuotes n).map .verbatim ++ [.verbatim '?'] := by
    rw [pieces, String.toList_append, String.toList_ofList, run_append, scan_inQuotes_open hn h]
    exact congrArg (_ ++ ·) hhidden
  rw [Params.bindSql, hpieces, Params.fillPieces_verbatim] at he
  cases he

theorem kept_inQuotes_iff (hn : d.quoteChar ∉ n) : d.Kept (d.inQuotes n) ↔ d.ClosesQuote n :=
  ⟨fun h => by_contra fun hopen => not_kept_inQuotes hn hopen h, kept_inQuotes hn⟩

/-- The wildcard is kept without quotes. -/
theorem kept_wildcard (d : Dialect) : d.Kept ['*'] := by
  have hscan : scan d.backslashEscapes .plain ['*'] = (['*'].map .verbatim, .plain) := rfl
  exact .of_scan hscan fun _ _ => rfl

theorem kept_quoteTablePart_iff (hn : d.quoteChar ∉ n) :
    d.Kept (d.quoteTablePart n) ↔ d.ClosesQuote n := by
  rw [quoteTablePart, if_neg fun hc => hn (List.contains_iff_mem.mp hc), kept_inQuotes_iff hn]

theorem kept_quoteColumnPart_iff (hn : d.quoteChar ∉ n) :
    d.Kept (d.quoteColumnPart n) ↔ d.ClosesQuote n := by
  by_cases hstar : n = ['*']
  · subst hstar
    have hbare : d.quoteColumnPart ['*'] = ['*'] := by simp [quoteColumnPart]
    rw [hbare]
    exact iff_of_true d.kept_wildcard fun _ => by decide
  · have hquoted : d.quoteColumnPart n = d.inQuotes n := by simp [quoteColumnPart, hn, hstar]
    rw [hquoted, kept_inQuotes_iff hn]

/-! ## Names of several parts -/

/-- A table name that is put in quotes is kept if each of its parts is. -/
theorem kept_quoteTableChars (hq : d.quoteChar ∉ s) (hparen : '(' ∉ s)
    (hbraces : Text.hasText openBraces s = false) (h : ∀ p ∈ Text.cutAt '.' s, d.ClosesQuote p) :
    d.Kept (d.quoteTableChars s) := by
  have hjoin : ∀ ps : List (List Char), ps ≠ [] → (∀ p ∈ ps, d.Kept p) →
      d.Kept (['.'].intercalate ps) := by
    intro ps hne hps
    induction ps with
    | nil => exact absurd rfl hne
    | cons p ps ih =>
      obtain ⟨hp, hps⟩ := List.forall_mem_cons.mp hps
      cases ps with
      | nil =>
        rw [List.intercalate_singleton]
        exact hp
      | cons r ps =>
        rw [List.intercalate_cons_cons, List.append_assoc]
        exact hp.point (ih (List.cons_ne_nil r ps) hps)
  rw [quoteTableChars, if_neg (by simp [hparen, hbraces])]
  refine hjoin _ (by simpa using Text.cutAt_ne_nil) (List.forall_mem_map.mpr fun p hp => ?_)
  exact (kept_quoteTablePart_iff fun hc => hq (Text.subset_of_mem_cutAt hp hc)).mpr (h p hp)

/-- A column name that is put in quotes is kept if each of its parts is. -/
theorem kept_quoteColumnChars (hq : d.quoteChar ∉ s) (hparen : '(' ∉ s)
    (hbraces : Text.hasText openBraces s = false) (hbrackets : Text.hasText ['[', '['] s = false)
    (h : ∀ p ∈ Text.cutAt '.' s, d.ClosesQuote p) : d.Kept (d.quoteColumnChars s) := by
  unfold quoteColumnChars
  rw [if_neg (by simp [hparen, hbrackets])]
  cases hsplit : Text.splitLast '.' s with
  | none =>
    rw [Text.cutAt_of_not_mem (Text.splitLast_none hsplit)] at h
    dsimp only
    rw [hbraces, if_neg Bool.false_ne_true]
    exact (kept_quoteColumnPart_iff hq).mpr (h s (List.mem_singleton_self s))
  | some r =>
    obtain ⟨table, column⟩ := r
    obtain ⟨rfl, hcolumn⟩ := Text.splitLast_some hsplit
    rw [Text.cutAt_append, Text.cutAt_of_not_mem hcolumn, List.forall_mem_append] at h
    rw [List.mem_append, List.mem_cons, not_or, not_or] at hq hparen
    have hwithin : ∀ {t : List Char}, t <:+: table ++ '.' :: column →
        Text.hasText openBraces t = false := fun ht =>
      Bool.eq_false_iff.mpr fun hin => Bool.eq_false_iff.mp hbraces
        (Text.hasText_iff.mpr ((Text.hasText_iff.mp hin).trans ht))
    have htable : d.Kept (d.quoteTableChars table) :=
      kept_quoteTableChars hq.1 hparen.1 (hwithin (List.prefix_append _ _).isInfix) h.1
    have hlast : d.Kept (d.quoteColumnPart column) :=
      (kept_quoteColumnPart_iff hq.2.2).mpr (h.2 column (List.mem_singleton_self column))
    dsimp only
    rw [hwithin ⟨table ++ ['.'], [], by simp⟩, if_neg Bool.false_ne_true]
    exact htable.point hlast

/-- Quoted names and the reader of placeholders agree on exactly the names that end where their
quote does: no other name without a quote is kept in quotes, as a table or as a column. -/
theorem quotedName_kept_iff (d : Dialect) (n : List Char) (hn : d.quoteChar ∉ n) :
    (d.Kept (d.quoteTablePart n) ↔ d.ClosesQuote n) ∧
      (d.Kept (d.quoteColumnPart n) ↔ d.ClosesQuote n) :=
  ⟨kept_quoteTablePart_iff hn, kept_quoteColumnPart_iff hn⟩

/-- A name that ends in a backslash hides the value behind it from the reader where backslashes
protect. A second backslash shows it again. -/
theorem backslashName_kept :
    Dialect.mysql.quoteChar ∉ "path\\".toList ∧
      ¬Dialect.mysql.Kept (Dialect.mysql.quoteColumnPart "path\\".toList) ∧
      (Params.empty.push (.ofValue (.int32 7))).bindSql "\x60path\\\x60 = ?" true
          (fun _ n => "$" ++ Nat.repr n) = .ok ("\x60path\\\x60 = ?", []) ∧
      Dialect.mysql.Kept (Dialect.mysql.quoteColumnPart "path\\\\".toList) ∧
      Dialect.postgres.Kept (Dialect.postgres.quoteColumnPart "path\\".toList) := by
  refine ⟨by decide, fun h => ?_, rfl, ?_, ?_⟩
  · have heven := (quotedName_kept_iff .mysql _ (by decide)).2.mp h rfl
    revert heven
    decide
  · exact (quotedName_kept_iff .mysql _ (by decide)).2.mpr fun _ => by decide
  · exact (quotedName_kept_iff .postgres _ (by decide)).2.mpr nofun

end Dialect

end QueryKit
