import QueryKit.Proofs.Compile.Repeats
import QueryKit.Proofs.Placeholder.Alignment

/-!
# Placeholders in a computed column

A membership test and a LIKE condition may have an expression for a column, and the expression may
bind values. They are bound when the column is compiled, which happens once, whatever is done with
its text afterwards.

- `Counts escapes n s`: a text with `n` positional placeholders that leaves nothing open. It may
  hold named ones.
- `countingLaw`: a fragment holds as many placeholders as it binds positional values.
- `ColumnTest.placeholders_eq_iff`: a test over a computed column holds as many placeholders as it
  binds values if and only if the column binds none or is written as often as it is bound.

So placeholders and values go apart for a column that binds values, and no members, members with and
without null, or several patterns.
-/

namespace QueryKit

open Scan FragmentLaw

/-! ## Counting placeholders -/

/-- A text with `n` positional placeholders that leaves no quoted part and no name open. -/
structure Counts (escapes : Bool) (n : Nat) (s : List Char) : Prop where
  holes : (scan escapes .plain s).1.count .positional = n
  settled : Settled (scan escapes .plain s).2

namespace Counts

variable {escapes : Bool} {n m : Nat} {s t g : List Char}

theorem of_reads (h : Reads escapes n s) : Counts escapes n s :=
  ⟨h.holes, h.settled⟩

theorem append_of_scan (hs : Counts escapes n s)
    (hscan : scan escapes (scan escapes .plain s).2 t = scan escapes .plain t)
    (ht : Counts escapes m t) : Counts escapes (n + m) (s ++ t) := by
  constructor
  · rw [scan_append, hscan, List.count_append, hs.holes, ht.holes]
  · rw [scan_append, hscan]
    exact ht.settled

/-- A text behind which another one begins that does not begin with a quote. -/
theorem append {c : Char} (hs : Counts escapes n s) (hc : isQuote c = false)
    (ht : Counts escapes m (c :: t)) : Counts escapes (n + m) (s ++ c :: t) :=
  hs.append_of_scan (scan_settled hs.settled hc) ht

/-- A fixed text between two texts separates them. -/
theorem glue (hs : Counts escapes n s) (hne : g ≠ []) (hg : ∀ c ∈ g, isGlueChar c = true)
    (ht : Counts escapes m t) : Counts escapes (n + m) (s ++ g ++ t) := by
  have hplain : ∀ c ∈ g, isQuote c = false ∧ c ≠ '?' ∧ c ≠ ':' := fun c hc =>
    Reads.plain_of_glue (hg c hc)
  have hgt : Counts escapes m (g ++ t) := by
    have hscan : scan escapes (scan escapes .plain g).2 t = scan escapes .plain t := by
      rw [scan_plain hplain]
    have h := (of_reads (.of_plain hplain)).append_of_scan hscan ht
    rwa [Nat.zero_add] at h
  obtain ⟨c, r, rfl⟩ := List.exists_cons_of_ne_nil hne
  rw [List.append_assoc]
  exact hs.append (hplain c List.mem_cons_self).1 hgt

/-- A cast: the double colon is no placeholder. -/
theorem cast (hs : Counts escapes n s) (ht : Counts escapes m t) :
    Counts escapes (n + m) (s ++ ':' :: ':' :: t) :=
  hs.append rfl ⟨ht.holes, ht.settled⟩

/-- The pieces of the whole text. -/
theorem count_pieces {sql : String} (h : Counts escapes n sql.toList) :
    (pieces escapes sql).count .positional = n := by
  rw [pieces, run_eq_scan, finish_settled h.settled, List.append_nil, h.holes]

end Counts

/-- A fragment holds as many placeholders as it binds positional values. -/
def countingLaw (d : Dialect) : FragmentLaw d where
  Holds s bs := Counts d.backslashEscapes (positionals bs).length s.toList
  name := (placeholderLaw d).name
  word := (placeholderLaw d).word
  raw s ps := Counts d.backslashEscapes ps.positional.length s.toList
  params ps := ps.positional = []
  nil := .of_reads .nil
  glue {s t g bs cs} hg hs ht := by
    have hne : g.toList ≠ [] := fun he => hg.1 (by simpa using he)
    have hcount := hs.glue hne (fun c hc => List.all_eq_true.mp hg.2 c hc) ht
    simpa [positionals_append] using hcount
  place p := .of_reads ((placeholderLaw d).place p)
  cast {s t bs} hs ht := by
    have hcount := hs.cast ht
    simpa [positionals] using hcount
  escape {s bs} hs := by
    cases d with
    | sqlite =>
      have hescape : Counts false 0 (' ' :: "ESCAPE '\\'".toList) :=
        .of_reads (.of_scan (.closing '\'') (by decide) rfl)
      rw [String.toList_append]
      exact hs.append rfl hescape
    | _ => simpa [Dialect.likeEscapeSql] using hs
  word_holds h := .of_reads ((placeholderLaw d).word_holds h)
  raw_holds {s ps} h := by rwa [Params.positionals_bindings]
  raw_of_holds h := h
  name_holds h := .of_reads ((placeholderLaw d).name_holds h)
  column_holds h := .of_reads ((placeholderLaw d).column_holds h)
  table_holds h := .of_reads ((placeholderLaw d).table_holds h)
  requoted_holds h := .of_reads ((placeholderLaw d).requoted_holds h)
  name_within := (placeholderLaw d).name_within
  empty_idle {bs} h s as cs := by
    have hnone : positionals bs = [] := List.eq_nil_of_length_eq_zero h.holes.symm
    simp only [positionals_append, hnone, List.nil_append]
  params_idle {ps} h s as cs := by
    simp only [positionals_append, Params.positionals_bindings, h, List.nil_append]

/-! ## Columns and their values -/

theorem length_positionals_replicate (n : Nat) (bs : List Binding) :
    (positionals (List.replicate n bs).flatten).length = n * (positionals bs).length := by
  induction n with
  | zero => simp
  | succ n ih =>
    rw [List.replicate_succ, List.flatten_cons, positionals_append, List.length_append, ih,
      Nat.succ_mul, Nat.add_comm]

/-- A text that asks for the values of a column `n` times has a placeholder for each of them. -/
theorem FragmentLaw.Asks.count {d : Dialect} {n : Nat} {column s : String} {bs cs : List Binding}
    (h : (countingLaw d).Asks n column s bs cs) :
    (pieces d.backslashEscapes s).count .positional =
      n * (positionals bs).length + (positionals cs).length := by
  obtain ⟨ws, hws, hperm⟩ := h.wants
  have hlength := (hperm.filterMap Binding.asPositional).length_eq
  change (positionals ws).length = (positionals (_ ++ cs)).length at hlength
  rw [Counts.count_pieces hws, hlength, positionals_append, List.length_append,
    length_positionals_replicate]

namespace ColumnTest

variable {c : Compiler}

/-- A column that is written once is bound once. -/
theorem binds_of_writes {test : ColumnTest} {values : Operand} (h : test.writes values = 1) :
    test.binds values = 1 := by
  cases test with
  | membership negated => rfl
  | patterns negated combine escape =>
    change (if values.isEmpty then 0 else values.patternCount) = 1 at h
    split at h
    · cases h
    · next hempty => exact if_neg hempty

/-- The operator form of a membership test is the test. -/
theorem membership_form {token : String} {negated : Bool}
    (h : (Operator.parse token).kind = .isIn negated) (column values : Operand) :
    renderOperand c .condition (.list [.string token, column, values]) =
      renderCondition c ((membership negated).condition column values) := by
  simp only [renderOperand]
  rw [renderForm_cons rfl, h]
  rfl

/-- The operator form of a LIKE condition is the test, with patterns escaped as is usual. -/
theorem patterns_form {token : String} {negated : Bool} {combine : Conjunction}
    (h : (Operator.parse token).kind = .like negated combine) (column values : Operand) :
    renderOperand c .condition (.list [.string token, column, values]) =
      renderCondition c ((patterns negated combine (.ofOperand none)).condition column values) := by
  simp only [renderOperand]
  rw [renderForm_cons rfl, h]
  rfl

/-- A test over a computed column holds as many placeholders as it binds values if and only if the
column binds none or is written as often as it is bound. If it is written once, it stands in front
with its own values, and the text behind it holds a placeholder for each of the other values. -/
theorem placeholders_eq_iff (c : Compiler) (test : ColumnTest) (e : Expression) (values : Operand)
    (column sql : String) (cs bs : List Binding) (he : renderExpression c e = .ok (column, cs))
    (hc : Counts c.dialect.backslashEscapes (positionals cs).length column.toList)
    (hvalues : values.Fits c (countingLaw c.dialect) .bound)
    (h : renderCondition c (test.condition (.expr e) values) = .ok (sql, bs)) :
    ((pieces c.dialect.backslashEscapes sql).count .positional = (positionals bs).length ↔
        positionals cs = [] ∨ test.writes values = test.binds values) ∧
      (test.writes values = 1 → ∃ rest ds, sql = column ++ rest ∧ bs = cs ++ ds ∧
        (pieces c.dialect.backslashEscapes rest).count .positional = (positionals ds).length) := by
  obtain ⟨ds, rfl, hasks⟩ :=
    renderCondition_asks (L := countingLaw c.dialect) test he hc hvalues sql bs h
  constructor
  · rw [hasks.count, positionals_append, List.length_append, length_positionals_replicate,
      Nat.add_right_cancel_iff]
    by_cases hnone : positionals cs = []
    · simp [hnone]
    · have hlength : (positionals cs).length ≠ 0 := fun he => hnone (List.length_eq_zero_iff.mp he)
      rw [Nat.mul_left_inj hlength]
      exact (or_iff_right hnone).symm
  · intro hone
    obtain ⟨rest, hsql, hrest⟩ := hasks.once hone
    refine ⟨rest, ds, hsql, ?_, Counts.count_pieces hrest⟩
    simp [binds_of_writes hone]

/-- A function of a value that is bound. -/
def computedColumn : Expression :=
  .raw "f(?)" ⟨[(.positional, .ofValue (.int32 7))]⟩

/-- Among a value and null, a computed column is written twice and bound once. -/
theorem computedColumn_among_null :
    renderCondition (.ofDialect .mysql)
        ((membership false).condition (.expr computedColumn)
          (.list [.value (.int32 1), .value .null])) =
      .ok ("(f(?) = ? OR f(?) IS NULL)",
        [⟨.positional, .ofValue (.int32 7)⟩, ⟨.positional, .ofValue (.int32 1)⟩]) ∧
    (pieces true "(f(?) = ? OR f(?) IS NULL)").count .positional ≠ 2 := by
  have hcounts : Counts true 1 "f(?)".toList := ⟨by decide, trivial⟩
  refine ⟨rfl, fun hcount => ?_⟩
  have haligned := placeholders_eq_iff (.ofDialect .mysql) (membership false) computedColumn
    (.list [.value (.int32 1), .value .null]) "f(?)" _ _ _ rfl hcounts ⟨trivial, trivial, trivial⟩
    rfl
  rcases haligned.1.mp hcount with hnone | honce
  · cases hnone
  · exact absurd honce (by decide)

end ColumnTest

end QueryKit
