import QueryKit.Compile.Query
import QueryKit.Proofs.Placeholder.Inside
import QueryKit.Proofs.Text.Delimited

/-!
# Literals among other text

- `Numeral`: texts of letters, digits, signs and points. The literals of numbers, truth values and
  NULL are such texts; every other literal is a text in quotes (`Compiler.literal_cases`).
- `Dialect.quoteValue_outside`: whatever a text holds, in quotes it shows no character but quotes, and
  its quoted part ends where the text in quotes ends. `Compiler.literal_sealed` follows from it.
- `Compiler.valuesText`: rows of literals as they stand behind VALUES. `readValues` cuts such a text
  at parentheses and commas outside quotes, and finds the literals again
  (`Compiler.readValues_valuesText`).
-/

namespace QueryKit

open Scan

/-! ## Numbers and words -/

def isNumeralChar (c : Char) : Bool :=
  c.isAlphanum || c == '-' || c == '.'

/-- A text of numbers and words. -/
def Numeral (s : List Char) : Prop :=
  s ≠ [] ∧ ∀ c ∈ s, isNumeralChar c = true

instance (s : List Char) : Decidable (Numeral s) :=
  decidable_of_iff (s ≠ [] ∧ s.all isNumeralChar = true) (and_congr_right' List.all_eq_true)

namespace Numeral

variable {s t : List Char} {c : Char}

theorem of_isDigit (h : c.isDigit = true) : isNumeralChar c = true := by
  simp [isNumeralChar, Char.isAlphanum, h]

theorem append (hs : Numeral s) (ht : Numeral t) : Numeral (s ++ t) :=
  ⟨List.append_ne_nil_of_left_ne_nil hs.1 t, List.forall_mem_append.mpr ⟨hs.2, ht.2⟩⟩

theorem cons (hc : isNumeralChar c = true) (hs : Numeral s) : Numeral (c :: s) :=
  ⟨List.cons_ne_nil c s, List.forall_mem_cons.mpr ⟨hc, hs.2⟩⟩

theorem natRepr (n : Nat) : Numeral (Nat.repr n).toList := by
  obtain ⟨c, r, htext, -⟩ := natRepr_cons n
  exact ⟨by rw [htext]; exact List.cons_ne_nil c r,
    fun _ h => of_isDigit (isDigit_of_mem_natRepr h)⟩

theorem intRepr (n : Int) : Numeral (Int.repr n).toList := by
  rcases intRepr_cases n with ⟨-, htext⟩ | ⟨-, htext⟩
  · rw [htext]
    exact natRepr _
  · rw [htext]
    exact (natRepr _).cons (by decide)

theorem withPoint (h : Numeral s) (k : Nat) : Numeral (Decimal.withPoint s k) := by
  have htake : ∀ c ∈ s.take k, isNumeralChar c = true := fun c hc => h.2 c (List.mem_of_mem_take hc)
  unfold Decimal.withPoint
  split
  · next hdrop =>
    refine ⟨fun hnil => h.1 ?_, htake⟩
    rw [← List.take_append_drop k s, hnil, hdrop]
    rfl
  · refine ⟨by simp, List.forall_mem_append.mpr ⟨htake, List.forall_mem_cons.mpr ⟨by decide, ?_⟩⟩⟩
    exact fun c hc => h.2 c (List.mem_of_mem_drop hc)

/-- Digits without an exponent. -/
theorem positional (style : Decimal.DecimalStyle) (d : Decimal) :
    Numeral (Decimal.positional style d) := by
  have hdigits := natRepr d.digits
  have hzeros : ∀ n, ∀ c ∈ List.replicate n '0', isNumeralChar c = true := by
    intro n c hc
    rw [List.eq_of_mem_replicate hc]
    rfl
  unfold Decimal.positional
  dsimp only
  split
  · rw [List.append_assoc]
    refine ⟨List.append_ne_nil_of_left_ne_nil hdigits.1 _,
      List.forall_mem_append.mpr ⟨hdigits.2, ?_⟩⟩
    refine List.forall_mem_append.mpr ⟨hzeros _, ?_⟩
    split <;> exact List.all_eq_true.mp rfl
  · split
    · exact hdigits.withPoint _
    · refine ⟨List.cons_ne_nil _ _, ?_⟩
      refine List.forall_mem_cons.mpr ⟨rfl, List.forall_mem_cons.mpr ⟨rfl, ?_⟩⟩
      exact List.forall_mem_append.mpr ⟨hzeros _, hdigits.2⟩

/-- The plain text of a floating-point number. -/
theorem binary {f : BinaryFormat} (x : Binary f) : Numeral x.toPlainString.toList := by
  cases x with
  | nan => exact (by decide : Numeral "NaN".toList)
  | infinite negative =>
    cases negative with
    | false => exact (by decide : Numeral "inf".toList)
    | true => exact (by decide : Numeral "-inf".toList)
  | finite negative m e =>
    have hbody : Numeral (if m = 0 then Decimal.positional Decimal.plain ⟨0, 0⟩
        else Decimal.writeDigits Decimal.plain (Decimal.shortest f Decimal.plain.tie m e)) := by
      split
      · exact positional _ _
      · exact positional _ _
    unfold Binary.toPlainString Decimal.writeFinite
    rw [String.toList_ofList]
    cases negative with
    | false => exact hbody
    | true => exact hbody.cons rfl

end Numeral

/-! ## Texts in quotes -/

namespace Dialect

/-- A character of a text in quotes. -/
def quotedChar (escapes : Bool) (c : Char) : List Char :=
  if escapes && c == '\\' then ['\\', '\\'] else if c = '\'' then ['\'', '\''] else [c]

theorem quoteValue_toList (d : Dialect) (s : String) : (d.quoteValue s).toList =
    '\'' :: (s.toList.flatMap (quotedChar d.backslashEscapes) ++ ['\'']) := by
  unfold quoteValue Text.replaceChar quotedChar
  rw [String.toList_ofList]
  cases d.backslashEscapes with
  | false => rfl
  | true =>
    rw [if_pos rfl, List.flatMap_assoc]
    congr 3
    funext c
    by_cases hc : c = '\\' <;> simp [hc]

variable {sep : Char}

/-- A character in quotes does not end the quoted part. -/
theorem quotedChar_inside (escapes : Bool) (hsep : isQuote sep = false) (c : Char) :
    Avoids escapes sep (some ('\'', false)) (quotedChar escapes c) ∧
      behind escapes (some ('\'', false)) (quotedChar escapes c) = some ('\'', false) := by
  have hquote : '\'' ≠ sep := by
    rintro rfl
    cases hsep
  unfold quotedChar
  cases hb : escapes && c == '\\' with
  | true =>
    obtain ⟨rfl, hc⟩ := Bool.and_eq_true_iff.mp hb
    simp [Avoids, behind, turn]
  | false =>
    by_cases hc : c = '\''
    · subst hc
      simp [Avoids, behind, turn, isQuote, hquote]
    · rw [if_neg Bool.false_ne_true, if_neg hc]
      simp [Avoids, behind, turn, hb, hc]

theorem quotedText_inside (escapes : Bool) (hsep : isQuote sep = false) (s : List Char) :
    Avoids escapes sep (some ('\'', false)) (s.flatMap (quotedChar escapes)) ∧
      behind escapes (some ('\'', false)) (s.flatMap (quotedChar escapes)) =
        some ('\'', false) := by
  induction s with
  | nil => exact ⟨trivial, rfl⟩
  | cons c s ih =>
    obtain ⟨havoids, hbehind⟩ := quotedChar_inside escapes hsep c
    rw [List.flatMap_cons, avoids_append, behind_append, hbehind]
    exact ⟨⟨havoids, ih.1⟩, ih.2⟩

/-- A text in quotes shows no character but quotes, and ends outside of them. -/
theorem quoteValue_outside (d : Dialect) (hsep : isQuote sep = false) (s : String) :
    Avoids d.backslashEscapes sep none (d.quoteValue s).toList ∧
      behind d.backslashEscapes none (d.quoteValue s).toList = none := by
  have hquote : '\'' ≠ sep := by
    rintro rfl
    cases hsep
  have hopen : turn d.backslashEscapes '\'' none = some ('\'', false) := rfl
  have hclose : turn d.backslashEscapes '\'' (some ('\'', false)) = none := by simp [turn]
  obtain ⟨havoids, hbehind⟩ := quotedText_inside d.backslashEscapes hsep s.toList
  rw [quoteValue_toList, Avoids, behind, hopen, avoids_append, behind_append, hbehind]
  have hinside : some ('\'', false) = none → '\'' ≠ sep := fun _ => hquote
  exact ⟨⟨fun _ => hquote, havoids, hinside, trivial⟩, hclose⟩

end Dialect

/-! ## Literals -/

namespace Compiler

/-- A literal is a number, a word or a text in quotes. -/
theorem literal_cases (c : Compiler) (v : Value) :
    Numeral (c.literal v).toList ∨ c.literal v = c.dialect.quoteValue v.toPlainString := by
  cases v with
  | null => exact .inl (by decide : Numeral "NULL".toList)
  | bool b =>
    cases b with
    | false => exact .inl (by decide : Numeral "0".toList)
    | true => exact .inl (by decide : Numeral "1".toList)
  | int32 n | int64 n => exact .inl (.intRepr n.toInt)
  | single x | double x => exact .inl (.binary x)
  | string | bytes | json | array => exact .inr rfl

variable {sep : Char}

theorem isQuote_of_isNumeralChar {x : Char} (h : isNumeralChar x = true) : isQuote x = false := by
  rw [Bool.eq_false_iff]
  intro hq
  simp only [isQuote, Bool.or_eq_true, beq_iff_eq] at hq
  rcases hq with (rfl | rfl) | rfl <;> exact absurd h (by decide)

/-- Outside quotes a literal shows quotes, numbers and words, and it leaves no quoted part open. -/
theorem literal_outside (c : Compiler) (v : Value) (hsep : isQuote sep = false)
    (hnumeral : isNumeralChar sep = false) :
    Avoids c.dialect.backslashEscapes sep none (c.literal v).toList ∧
      behind c.dialect.backslashEscapes none (c.literal v).toList = none := by
  rcases c.literal_cases v with h | h
  · have hplain : ∀ x ∈ (c.literal v).toList, isQuote x = false ∧ x ≠ sep := by
      refine fun x hx => ⟨isQuote_of_isNumeralChar (h.2 x hx), ?_⟩
      rintro rfl
      rw [h.2 x hx] at hnumeral
      cases hnumeral
    exact ⟨avoids_plain hplain, behind_plain fun x hx => (hplain x hx).1⟩
  · rw [h]
    exact c.dialect.quoteValue_outside hsep _

theorem literal_sealed (c : Compiler) (v : Value) :
    Sealed c.dialect.backslashEscapes (c.literal v).toList := by
  obtain ⟨havoids, hbehind⟩ := c.literal_outside v (rfl : isQuote '?' = false) rfl
  exact ⟨havoids, hbehind⟩

/-- A literal does not begin with a blank. -/
theorem literal_cons (c : Compiler) (v : Value) :
    ∃ x r, (c.literal v).toList = x :: r ∧ x ≠ ' ' := by
  rcases c.literal_cases v with ⟨hne, hall⟩ | h
  · obtain ⟨x, r, htext⟩ := List.exists_cons_of_ne_nil hne
    refine ⟨x, r, htext, ?_⟩
    rintro rfl
    have hblank := hall ' ' (htext ▸ List.mem_cons_self)
    cases hblank
  · exact ⟨'\'', _, by rw [h, Dialect.quoteValue_toList], by decide⟩

end Compiler

/-! ## Rows of literals -/

/-- What stands behind the first opening parenthesis. -/
def afterOpening : List Char → List Char
  | [] => []
  | c :: r => if c = '(' then r else afterOpening r

/-- The cells of a row, of which the closing parenthesis is cut off. -/
def readCells (escapes : Bool) (row : List Char) : List (List Char) :=
  match afterOpening row with
  | [] => []
  | cells => (cutOutside escapes ',' none cells).map (List.dropWhile (· == ' '))

/-- The cells of the rows behind VALUES. -/
def readValues (escapes : Bool) (s : List Char) : List (List (List Char)) :=
  ((cutOutside escapes ')' none s).map (readCells escapes)).dropLast

/-- A character between two parts of a text that is dropped with the blanks around them. -/
theorem Scan.cutOutside_skip {escapes : Bool} {sep x : Char} {α : Type} {f : List Char → α}
    (hx : isQuote x = false) (hne : x ≠ sep) (hf : ∀ s, f (x :: s) = f s) (s : List Char) :
    (cutOutside escapes sep none (x :: s)).map f = (cutOutside escapes sep none s).map f := by
  have hne' : cutOutside escapes sep none s ≠ [] := cutOutside_ne_nil
  obtain ⟨part, parts, htext⟩ := List.exists_cons_of_ne_nil hne'
  rw [cutOutside, turn_plain hx, if_neg fun h => hne h.2, htext, List.map_cons, List.map_cons, hf]
  rfl

namespace Compiler

def rowText (c : Compiler) (row : List Value) : String :=
  "(" ++ Text.joinWith ", " (row.map c.literal) ++ ")"

/-- Rows of literals as they stand behind VALUES. -/
def valuesText (c : Compiler) (rows : List (List Value)) : String :=
  Text.joinWith ", " (rows.map c.rowText)

variable {c : Compiler}

/-- The literals of a row do not show a parenthesis, and they leave no quoted part open. -/
theorem cells_outside (row : List Value) :
    Avoids c.dialect.backslashEscapes ')' none
        (Text.joinWith ", " (row.map c.literal)).toList ∧
      behind c.dialect.backslashEscapes none
        (Text.joinWith ", " (row.map c.literal)).toList = none := by
  induction row with
  | nil => exact ⟨trivial, rfl⟩
  | cons v row ih =>
    obtain ⟨havoids, hbehind⟩ := c.literal_outside v (rfl : isQuote ')' = false) rfl
    cases row with
    | nil => exact ⟨havoids, hbehind⟩
    | cons w row =>
      have htext : (Text.joinWith ", " ((v :: w :: row).map c.literal)).toList =
          (c.literal v).toList ++
            ([',', ' '] ++ (Text.joinWith ", " ((w :: row).map c.literal)).toList) := by
        simp [Text.joinWith]
      rw [htext, avoids_append, behind_append, hbehind]
      exact ⟨⟨havoids, by decide, fun _ => by decide, ih.1⟩, ih.2⟩

/-- Cutting a row at the commas outside quotes gives its literals back. -/
theorem cutOutside_cells {row : List Value} (hrow : row ≠ []) :
    (cutOutside c.dialect.backslashEscapes ',' none
        (Text.joinWith ", " (row.map c.literal)).toList).map (List.dropWhile (· == ' ')) =
      row.map fun v => (c.literal v).toList := by
  have hstrip : ∀ v, (c.literal v).toList.dropWhile (· == ' ') = (c.literal v).toList := by
    intro v
    obtain ⟨x, r, htext, hx⟩ := c.literal_cons v
    rw [htext, List.dropWhile_cons_of_neg (by simpa using hx)]
  induction row with
  | nil => exact absurd rfl hrow
  | cons v row ih =>
    obtain ⟨havoids, hbehind⟩ := c.literal_outside v (rfl : isQuote ',' = false) rfl
    cases row with
    | nil =>
      have hcut := cutOutside_of_avoids havoids
      simp only [List.map_cons, List.map_nil, Text.joinWith, hcut, hstrip]
    | cons w row =>
      have htext : (Text.joinWith ", " ((v :: w :: row).map c.literal)).toList =
          (c.literal v).toList ++
            ',' :: ' ' :: (Text.joinWith ", " ((w :: row).map c.literal)).toList := by
        simp [Text.joinWith]
      rw [htext, cutOutside_append rfl havoids hbehind, List.map_cons, hstrip,
        cutOutside_skip rfl (by decide) (fun s => rfl), ih (List.cons_ne_nil _ _)]
      rfl

theorem readCells_rowText (row : List Value) :
    readCells c.dialect.backslashEscapes
        ('(' :: (Text.joinWith ", " (row.map c.literal)).toList) =
      row.map fun v => (c.literal v).toList := by
  cases row with
  | nil => rfl
  | cons v row =>
    have hne : (Text.joinWith ", " ((v :: row).map c.literal)).toList ≠ [] := by
      obtain ⟨x, r, htext, -⟩ := c.literal_cons v
      cases row with
      | nil => simp [Text.joinWith, htext]
      | cons w row => simp [Text.joinWith, htext]
    rw [← cutOutside_cells (List.cons_ne_nil v row)]
    unfold readCells
    rw [afterOpening, if_pos rfl]
    split
    · next h => exact absurd h hne
    · rfl

/-- Rows of literals can be read back: one literal for each cell, in the order of the rows. -/
theorem readValues_valuesText (rows : List (List Value)) :
    readValues c.dialect.backslashEscapes (c.valuesText rows).toList =
      rows.map fun row => row.map fun v => (c.literal v).toList := by
  unfold readValues
  induction rows with
  | nil => rfl
  | cons row rows ih =>
    have hopen : Avoids c.dialect.backslashEscapes ')' none
        ('(' :: (Text.joinWith ", " (row.map c.literal)).toList) ∧
        behind c.dialect.backslashEscapes none
          ('(' :: (Text.joinWith ", " (row.map c.literal)).toList) = none := by
      obtain ⟨havoids, hbehind⟩ := cells_outside (c := c) row
      exact ⟨⟨by decide, havoids⟩, hbehind⟩
    cases rows with
    | nil =>
      have htext : (c.valuesText [row]).toList =
          ('(' :: (Text.joinWith ", " (row.map c.literal)).toList) ++ ')' :: [] := by
        simp [valuesText, rowText, Text.joinWith]
      rw [htext, cutOutside_append rfl hopen.1 hopen.2, List.map_cons, readCells_rowText]
      rfl
    | cons next rows =>
      have htext : (c.valuesText (row :: next :: rows)).toList =
          ('(' :: (Text.joinWith ", " (row.map c.literal)).toList) ++
            ')' :: ',' :: ' ' :: (c.valuesText (next :: rows)).toList := by
        simp [valuesText, rowText, Text.joinWith]
      rw [htext, cutOutside_append rfl hopen.1 hopen.2, List.map_cons, readCells_rowText,
        cutOutside_skip rfl (by decide) (fun s => rfl),
        cutOutside_skip rfl (by decide) (fun s => rfl), List.dropLast_cons_of_ne_nil, ih]
      · rfl
      · exact fun hnil => cutOutside_ne_nil (List.map_eq_nil_iff.mp hnil)

end Compiler

end QueryKit
