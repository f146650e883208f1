import Mathlib.Data.List.Forall2
import QueryKit.Command.Basic
import QueryKit.Proofs.Json.Render
import QueryKit.Proofs.Placeholder.Scan
import QueryKit.Proofs.Text.Utf8

/-!
# Statements with their values written out

- `Value.SameKind`: values of one kind. The kinds of floating-point numbers are left out.
- `Value.Legible`: values whose plain text says which value of its kind it is
  (`Value.toPlainString_inj`). Bytes that are no text and arrays are not legible.
- `shownLiteral_cancel`: a literal can be told from a text behind it that does not go on with a
  digit or a quote, as far as its plain text goes.
- `Scan.apart`: no placeholder stands directly in front of another one, a digit or a quote, unless
  it is the last one. The texts of such a statement show the plain text of every value
  (`fillText_plain`).
- `Command.Binds`: a command with values for its placeholders; `Command.rawSql_binds` is its text.
-/

namespace QueryKit

namespace Value

/-- Values of one kind that is not floating-point. -/
inductive SameKind : Value → Value → Prop
  | null : SameKind .null .null
  | bool (a b : Bool) : SameKind (.bool a) (.bool b)
  | int32 (m n : Int32) : SameKind (.int32 m) (.int32 n)
  | int64 (m n : Int64) : SameKind (.int64 m) (.int64 n)
  | string (s t : String) : SameKind (.string s) (.string t)
  | bytes (b d : List UInt8) : SameKind (.bytes b) (.bytes d)
  | json (j k : Json) : SameKind (.json j) (.json k)
  | array (vs ws : List Value) : SameKind (.array vs) (.array ws)

/-- The plain text of the value says which value of its kind it is. -/
def Legible : Value → Prop
  | .null | .bool _ | .int32 _ | .int64 _ | .string _ => True
  | .bytes b => ∃ s : String, b = s.toUTF8.toList
  | .json j => j.Integral
  | .single _ | .double _ | .array _ => False

theorem intRepr_inj {m n : Int} (h : Int.repr m = Int.repr n) : m = n :=
  (intRepr_cancel Stops.nil Stops.nil (congrArg (·.toList ++ []) h)).1

theorem boolText_inj {a b : Bool} (h : (if a then "1" else "0") = if b then "1" else "0") :
    a = b := by
  revert h
  cases a <;> cases b <;> decide

/-- Legible values of one kind are the same if their plain texts are. -/
theorem toPlainString_inj {v w : Value} (hkind : SameKind v w) (hv : v.Legible) (hw : w.Legible)
    (h : v.toPlainString = w.toPlainString) : v = w := by
  cases hkind with
  | null => rfl
  | bool a b => exact congrArg Value.bool (boolText_inj h)
  | int32 m n => exact congrArg Value.int32 (Int32.toInt_inj.mp (intRepr_inj h))
  | int64 m n => exact congrArg Value.int64 (Int64.toInt_inj.mp (intRepr_inj h))
  | string s t => exact congrArg Value.string h
  | bytes b d =>
    obtain ⟨s, rfl⟩ := hv
    obtain ⟨t, rfl⟩ := hw
    have htext : s = t := by
      rw [← Text.decodeLossy_toUTF8 s, ← Text.decodeLossy_toUTF8 t]
      exact h
    rw [htext]
  | json j k => exact congrArg Value.json (Json.render_inj hv hw h)
  | array vs ws => exact hv.elim

end Value

/-! ## Literals -/

/-- A literal may go on with this character. -/
def goesOn (c : Char) : Bool :=
  c.isDigit || c == '\''

variable {conn : Connection} {v w : Value} {vs ws : List Value} {s t u : List Char}

theorem Stops.of_goesOn {p : Char → Bool} (h : Stops goesOn u)
    (hp : ∀ c, p c = true → goesOn c = true) : Stops p u := by
  intro c hc
  have hgoes := h c hc
  cases hpc : p c with
  | false => rfl
  | true =>
    rw [hp c hpc] at hgoes
    cases hgoes

theorem Stops.digit (h : Stops goesOn u) : Stops Char.isDigit u :=
  h.of_goesOn fun c hc => by simp [goesOn, hc]

theorem Stops.quote (h : Stops goesOn u) : Stops (· == '\'') u :=
  h.of_goesOn fun c hc => by simp [goesOn, hc]

namespace Command

open Value (SameKind Legible)

/-- Literals of one kind that stand where the texts agree show the same. -/
theorem shownLiteral_cancel (hkind : SameKind v w) (hs : Stops goesOn s) (ht : Stops goesOn t)
    (h : (shownLiteral conn v).toList ++ s = (shownLiteral conn w).toList ++ t) :
    v.toPlainString = w.toPlainString ∧ s = t := by
  cases hkind with
  | null => exact ⟨rfl, List.append_cancel_left h⟩
  | bool a b =>
    cases a <;> cases b
    · exact ⟨rfl, List.append_cancel_left h⟩
    · simp [shownLiteral] at h
    · simp [shownLiteral] at h
    · exact ⟨rfl, List.append_cancel_left h⟩
  | int32 m n =>
    obtain ⟨hmn, hst⟩ := intRepr_cancel hs.digit ht.digit h
    exact ⟨congrArg Int.repr hmn, hst⟩
  | int64 m n =>
    obtain ⟨hmn, hst⟩ := intRepr_cancel hs.digit ht.digit h
    exact ⟨congrArg Int.repr hmn, hst⟩
  | string a b | bytes a b | json a b | array a b => exact quoteValue_cancel hs.quote ht.quote h

/-- Values of one kind with one plain text are written alike. -/
theorem shownLiteral_congr (hkind : SameKind v w) (h : v.toPlainString = w.toPlainString) :
    shownLiteral conn v = shownLiteral conn w := by
  cases hkind with
  | null => rfl
  | bool a b => rw [Value.boolText_inj h]
  | int32 m n | int64 m n => exact h
  | string a b | bytes a b | json a b | array a b => exact congrArg conn.dialect.quoteValue h

end Command

/-! ## Texts with literals in the places -/

open Scan

namespace Scan

/-- What stands behind a placeholder ends its literal. -/
def fenced : List Piece → Bool
  | .positional :: _ => false
  | .verbatim c :: _ => !goesOn c
  | _ => true

/-- Every placeholder but the last one is followed by something that ends its literal. -/
def apart : List Piece → Bool
  | [] => true
  | .positional :: ps => (!ps.contains .positional || fenced ps) && apart ps
  | _ :: ps => apart ps

end Scan

theorem stops_fillText {ps : List Piece} (h : fenced ps = true) (ls : List String) :
    Stops goesOn (fillText ps ls) := by
  cases ps with
  | nil => exact Stops.nil
  | cons p ps =>
    cases p with
    | positional => cases h
    | verbatim c => exact stops_cons (by simpa [fenced] using h)
    | named name => exact stops_cons (by decide)

/-- Values of one kind that are written into the same text with the same result have the same plain
texts, if the places stand apart. -/
theorem fillText_plain : ∀ (ps : List Piece) {vs ws : List Value}, apart ps = true →
    List.Forall₂ Value.SameKind vs ws → ps.count .positional = vs.length →
    fillText ps (vs.map (Command.shownLiteral conn)) =
      fillText ps (ws.map (Command.shownLiteral conn)) →
    vs.map Value.toPlainString = ws.map Value.toPlainString
  | [], vs, ws, _, hkinds, hcount, _ => by
    have hvs : vs = [] := List.eq_nil_of_length_eq_zero hcount.symm
    subst hvs
    cases hkinds
    rfl
  | .verbatim c :: ps, vs, ws, hapart, hkinds, hcount, h => by
    rw [List.count_cons_of_ne (by simp)] at hcount
    rw [fillText, fillText] at h
    exact fillText_plain ps hapart hkinds hcount (List.cons.inj h).2
  | .named name :: ps, vs, ws, hapart, hkinds, hcount, h => by
    rw [List.count_cons_of_ne (by simp)] at hcount
    rw [fillText, fillText] at h
    exact fillText_plain ps hapart hkinds hcount
      (List.append_cancel_left (List.cons.inj h).2)
  | .positional :: ps, vs, ws, hapart, hkinds, hcount, h => by
    rw [List.count_cons_self] at hcount
    cases hkinds with
    | nil => cases hcount
    | @cons v w vs ws hkind hkinds =>
      have hcount := Nat.succ.inj hcount
      rw [apart, Bool.and_eq_true, Bool.or_eq_true] at hapart
      rw [List.map_cons, List.map_cons, fillText, fillText] at h
      rw [List.map_cons, List.map_cons]
      rcases hapart.1 with hlast | hfenced
      · -- the last place: what follows it is the same on both sides
        have hnone : ps.count .positional = 0 := List.count_eq_zero.mpr (by simpa using hlast)
        have hvs : vs = [] := List.eq_nil_of_length_eq_zero (hcount.symm.trans hnone)
        subst hvs
        cases hkinds
        have hliteral := congrArg (· ++ []) (List.append_cancel_right h)
        rw [(Command.shownLiteral_cancel hkind Stops.nil Stops.nil hliteral).1]
      · obtain ⟨hplain, hrest⟩ := Command.shownLiteral_cancel hkind (stops_fillText hfenced _)
          (stops_fillText hfenced _) h
        rw [hplain, fillText_plain ps hapart.2 hkinds hcount hrest]

/-- The plain texts of values of one kind say how they are written. -/
theorem map_shownLiteral_congr (hkinds : List.Forall₂ Value.SameKind vs ws)
    (h : vs.map Value.toPlainString = ws.map Value.toPlainString) :
    vs.map (Command.shownLiteral conn) = ws.map (Command.shownLiteral conn) := by
  induction hkinds with
  | nil => rfl
  | cons hkind _ ih =>
    rw [List.map_cons, List.map_cons, List.cons.injEq] at h
    rw [List.map_cons, List.map_cons, Command.shownLiteral_congr hkind h.1, ih h.2]

/-- Legible values of one kind are the same if their plain texts are. -/
theorem map_toPlainString_inj (hkinds : List.Forall₂ Value.SameKind vs ws)
    (hvs : ∀ v ∈ vs, v.Legible) (hws : ∀ w ∈ ws, w.Legible)
    (h : vs.map Value.toPlainString = ws.map Value.toPlainString) : vs = ws := by
  induction hkinds with
  | nil => rfl
  | cons hkind _ ih =>
    obtain ⟨hv, hvs⟩ := List.forall_mem_cons.mp hvs
    obtain ⟨hw, hws⟩ := List.forall_mem_cons.mp hws
    rw [List.map_cons, List.map_cons, List.cons.injEq] at h
    rw [Value.toPlainString_inj hkind hv hw h.1, ih hvs hws h.2]

/-! ## Commands with values in their places -/

namespace Command

variable {cmd : Command} {sql : String}

/-- The command is the statement with these values for its placeholders, and no others. -/
structure Binds (cmd : Command) (sql : String) (vs : List Value) : Prop where
  sql : cmd.sql = sql
  entries : cmd.params.entries = vs.map fun v => (.positional, .ofValue v)

theorem Binds.empty (sql : String) : (Command.empty.setRawSql sql).Binds sql [] := by
  unfold setRawSql
  split
  · next h => exact ⟨h.symm, rfl⟩
  · exact ⟨rfl, rfl⟩

theorem Binds.bindPositional (h : cmd.Binds sql vs) (v : Value) :
    (cmd.bindPositional v).Binds sql (vs ++ [v]) := by
  refine ⟨h.sql, ?_⟩
  rw [List.map_append, ← h.entries]
  rfl

theorem Binds.positional (h : cmd.Binds sql vs) :
    cmd.params.positional = vs.map Param.ofValue := by
  unfold Params.positional
  rw [h.entries, List.filterMap_map]
  exact congrFun List.filterMap_eq_map vs

theorem Binds.named (h : cmd.Binds sql vs) (name : String) : cmd.params.named name = none := by
  unfold Params.named
  rw [h.entries, List.lookup_eq_none_iff]
  intro e he
  obtain ⟨v, -, rfl⟩ := List.mem_map.mp he
  simp

/-- The number of placeholders of a statement. -/
def places (conn : Connection) (sql : String) : Nat :=
  (pieces conn.dialect.backslashEscapes sql).count .positional

/-- The text of a command with a value for each placeholder. -/
theorem rawSql_binds (h : cmd.Binds sql vs) (hcount : vs.length = places conn sql) :
    cmd.rawSql conn = if vs = [] then sql else
      String.ofList (fillText (pieces conn.dialect.backslashEscapes sql)
        (vs.map (shownLiteral conn))) := by
  have hsize : cmd.params.size = vs.length := by
    rw [Params.size, h.entries, List.length_map]
  unfold rawSql
  rw [hsize]
  by_cases hvs : vs = []
  · rw [if_pos hvs, if_pos (by rw [hvs]; rfl), h.sql]
  · have hfill := fillPieces_positional (fun p => shownLiteral conn p.value)
      (pieces conn.dialect.backslashEscapes sql) (vs.map Param.ofValue) 1
      (fun name _ => h.named (String.ofList name)) (by rw [List.length_map, hcount]; rfl)
    rw [if_neg hvs, if_neg (by simpa using hvs), Params.bindSql, h.sql, h.positional, hfill]
    simp [Function.comp_def, Param.ofValue]

/-- Values of one kind give one text exactly if they have the same plain texts, provided that the
places stand apart. -/
theorem rawSql_eq_iff {cmd' : Command} (hcmd : cmd.Binds sql vs) (hcmd' : cmd'.Binds sql ws)
    (hplaces : vs.length = places conn sql) (hkinds : List.Forall₂ Value.SameKind vs ws)
    (hapart : apart (pieces conn.dialect.backslashEscapes sql) = true) :
    cmd.rawSql conn = cmd'.rawSql conn ↔
      vs.map Value.toPlainString = ws.map Value.toPlainString := by
  have hlength := hkinds.length_eq
  rw [rawSql_binds hcmd hplaces, rawSql_binds hcmd' (hlength ▸ hplaces)]
  cases hkinds with
  | nil => simp
  | cons hkind hkinds =>
    rw [if_neg (List.cons_ne_nil _ _), if_neg (List.cons_ne_nil _ _)]
    refine ⟨fun h => ?_, fun h => ?_⟩
    · exact fillText_plain _ hapart (.cons hkind hkinds) hplaces.symm (String.ofList_injective h)
    · rw [map_shownLiteral_congr (.cons hkind hkinds) h]

end Command

end QueryKit
