import QueryKit.Compile.Query
import QueryKit.Fetch.Rows
import QueryKit.Proofs.Compile.Alias
import QueryKit.Proofs.Dialect.Requoting
import QueryKit.Proofs.Text.Blank
import QueryKit.Proofs.Tokens.Names
import QueryKit.Query.Tables

/-!
# Two readers of a FROM item

- `FromItem`: a table, with or without an alias, and with or without AS in front of the alias.
- `FromItem.shown`: the name by which a statement knows the table. The compiler finds it
  (`tableAlias?_written`), whatever the alias is.
- `FromItem.reported`: the name that the list of tables has (`readTable_written`). It is another one
  exactly if the alias loses the letters AS at its start (`reported_eq_shown_iff`).
- `keyColumn_expanded`: the column of the keys is selected behind the name in the list.
- `tables_listed_iff`: so the list and the statement agree exactly where no alias loses letters.
-/

namespace QueryKit

/-- A name made of word characters. -/
@[ext]
structure WordName where
  text : List Char
  ne_nil : text ≠ []
  isWord : ∀ c ∈ text, Text.isWord c = true

/-- A run of blanks. -/
structure Gap where
  text : List Char
  ne_nil : text ≠ []
  isBlank : ∀ c ∈ text, Text.isBlank c = true

/-- The word AS, in letters of any case. -/
structure AsWord where
  text : List Char
  isAs : Text.dropWord ['a', 's'] text = some []

/-! ## Words -/

section Words

variable {s t : List Char} {c x : Char}

theorem ne_of_isWord (hc : Text.isWord c = true) (hx : Text.isWord x = false) : c ≠ x := by
  rintro rfl
  exact Bool.false_ne_true (hx.symm.trans hc)

theorem not_mem_of_word (h : ∀ c ∈ s, Text.isWord c = true) (hx : Text.isWord x = false) : x ∉ s :=
  fun hmem => ne_of_isWord (h x hmem) hx rfl

theorem stops_blank (h : ∀ c ∈ s, Text.isWord c = true) : Stops Text.isBlank s :=
  fun c hc => Text.not_isBlank_of_isWord (h c (List.mem_of_mem_head? hc))

theorem Text.dropWord_append : ∀ {w s r : List Char}, dropWord w s = some r →
    dropWord w (s ++ t) = some (r ++ t)
  | [], _, _, h => by
    cases h
    rfl
  | _ :: _, [], _, h => by cases h
  | w :: ws, c :: s, r, h => by
    rw [dropWord] at h
    rw [List.cons_append, dropWord]
    split at h
    · next hc =>
      rw [if_pos hc]
      exact dropWord_append h
    · cases h

theorem Text.length_dropWord : ∀ {w s r : List Char}, dropWord w s = some r →
    s.length = w.length + r.length
  | [], _, _, h => by
    cases h
    exact (Nat.zero_add _).symm
  | _ :: _, [], _, h => by cases h
  | w :: ws, c :: s, r, h => by
    rw [dropWord] at h
    split at h
    · rw [List.length_cons, length_dropWord h, List.length_cons, Nat.add_right_comm]
    · cases h

theorem Text.isWord_of_isLetter {l : Char} (hl : l = 'a' ∨ l = 's') (h : isLetter l c = true) :
    isWord c = true := by
  rw [isLetter, Bool.or_eq_true, beq_iff_eq] at h
  rcases h with h | h
  · rcases eq_or_eq_toUpper c with hc | hc <;> rw [hc, h] <;> rcases hl with rfl | rfl <;> decide
  · rw [Bool.and_eq_true, beq_iff_eq, beq_iff_eq] at h
    rw [h.2]
    decide

/-- The word AS is a name as well. -/
def AsWord.name (keyword : AsWord) : WordName where
  text := keyword.text
  ne_nil := by
    intro h
    have hdrop := keyword.isAs
    rw [h] at hdrop
    cases hdrop
  isWord := by
    obtain ⟨s, h⟩ := keyword
    match s, h with
    | [x], h => simp [Text.dropWord] at h
    | x :: y :: s, h =>
      rw [Text.dropWord, Text.dropWord] at h
      split at h
      · next hx =>
        split at h
        · next hy =>
          cases h
          simp [Text.isWord_of_isLetter (.inl rfl) hx, Text.isWord_of_isLetter (.inr rfl) hy]
        · cases h
      · cases h

theorem Gap.cons (gap : Gap) : ∃ c r, gap.text = c :: r ∧ Text.isBlank c = true ∧
    ∀ x ∈ r, Text.isBlank x = true := by
  obtain ⟨c, r, hc⟩ := List.exists_cons_of_ne_nil gap.ne_nil
  exact ⟨c, r, hc, List.forall_mem_cons.mp (hc ▸ gap.isBlank)⟩

theorem AsWord.stops_append (keyword : AsWord) : Stops Text.isBlank (keyword.text ++ t) :=
  (stops_blank keyword.name.isWord).append keyword.name.ne_nil

end Words

/-! ## Quoted names and tokens -/

namespace WordName

variable {d : Dialect} {n m : WordName} {s : List Char}

def quoted (d : Dialect) (n : WordName) : String :=
  String.ofList (d.inQuotes n.text)

/-- The token of the table with this name. -/
def token (n : WordName) : Token :=
  .table false false
    ⟨n.text, n.ne_nil, fun c hc => by simp [Dialect.isTokenChar, n.isWord c hc]⟩

/-- The name as it stands in the list of tables. -/
def listed (n : WordName) : String :=
  String.ofList n.token.text

theorem isName (n : WordName) : Token.IsName n.text :=
  fun c hc => by simp [Dialect.isTokenChar, n.isWord c hc]

theorem dot_not_mem (n : WordName) : '.' ∉ n.text :=
  not_mem_of_word n.isWord (by decide)

theorem token_text (n : WordName) :
    n.token.text = '\x7b' :: '\x7b' :: (n.text ++ ['\x7d', '\x7d']) := by
  simp [token, Token.text, Token.inner, Token.percent, Token.opening, Token.closing]

theorem listed_inj : n.listed = m.listed ↔ n = m := by
  refine ⟨fun h => ?_, fun h => h ▸ rfl⟩
  have htext := String.ofList_injective h
  rw [token_text, token_text] at htext
  exact WordName.ext (List.append_cancel_right (List.cons.inj (List.cons.inj htext).2).2)

theorem quoteTableChars_word (d : Dialect) (n : WordName) :
    d.quoteTableChars n.text = d.inQuotes n.text := by
  have hquote : d.quoteChar ∉ n.text := n.isName.not_mem (Token.isTokenChar_quoteChar d)
  have hparen : n.text.contains '(' = false := n.isName.not_contains (by decide)
  have hbraces : Text.hasText Dialect.openBraces n.text = false :=
    n.isName.not_hasText (by decide)
  rw [Dialect.quoteTableChars, hparen, hbraces, Bool.or_false, if_neg Bool.false_ne_true,
    Text.cutAt_of_not_mem n.dot_not_mem, List.map_singleton, List.intercalate_singleton,
    Token.quoteTablePart_of_not_mem hquote]

theorem quoteTableName_word (d : Dialect) (n : WordName) :
    d.quoteTableName (String.ofList n.text) = n.quoted d := by
  rw [Dialect.quoteTableName, String.toList_ofList, quoteTableChars_word, quoted]

/-- The token of a table stands for the name in quotes, whatever the prefix of tables is. -/
theorem expansion_token (d : Dialect) (tablePrefix : List Char) (n : WordName) :
    n.token.expansion d tablePrefix = d.inQuotes n.text := by
  have hinner : n.token.inner = n.text := by simp [token, Token.inner, Token.percent]
  have hkept : Text.replaceChar '%' tablePrefix n.text = n.text :=
    replaceChar_of_not_mem (not_mem_of_word n.isWord (by decide))
  change d.quoteTableChars (Text.replaceChar '%' tablePrefix n.token.inner) = d.inQuotes n.text
  rw [hinner, hkept, quoteTableChars_word]

/-- A name in quotes in front of a point can be told from what follows. -/
theorem inQuotes_cancel {t : List Char} (h : d.inQuotes n.text ++ s = d.inQuotes m.text ++ t) :
    n = m := by
  have hstop : ∀ u, Stops Text.isWord (d.quoteChar :: u) := fun u =>
    stops_cons (Bool.eq_false_iff.mpr fun hword => by
      have htoken := Token.isTokenChar_quoteChar d
      rw [Dialect.isTokenChar, hword] at htoken
      cases htoken)
  have htail : n.text ++ d.quoteChar :: s = m.text ++ d.quoteChar :: t := by
    simpa [Dialect.inQuotes] using h
  exact WordName.ext (append_cancel n.isWord m.isWord (hstop s) (hstop t) htail).1

theorem braced_word (n : WordName) : braced n.text = n.token.text := by
  have hkeep : (n.text.filter fun c =>
      !(c == '\'' || c == '"' || c == '\x60' || c == '[' || c == ']')) = n.text := by
    refine List.filter_eq_self.mpr fun c hc => ?_
    have hne : ∀ {x : Char}, Text.isWord x = false → c ≠ x := ne_of_isWord (n.isWord c hc)
    have hquotes : c ≠ '\'' ∧ c ≠ '"' ∧ c ≠ '\x60' ∧ c ≠ '[' ∧ c ≠ ']' :=
      ⟨hne (by decide), hne (by decide), hne (by decide), hne (by decide), hne (by decide)⟩
    simp [hquotes]
  have hopen : Text.dropText ['\x7b', '\x7b'] n.text = none := by
    rw [Option.eq_none_iff_forall_ne_some]
    intro r hr
    refine not_mem_of_word n.isWord (x := '\x7b') (by decide) ?_
    rw [Text.dropText_eq_some.mp hr]
    exact List.mem_cons_self
  rw [braced, hkeep, isBraced, hopen]
  simp [n.ne_nil, token_text]

end WordName

/-! ## Names and aliases at their places -/

section Readers

variable {s t : List Char} {c : Char}

theorem openingLength_of_word (h : Text.isWord c = true) : openingLength (c :: s) = none := by
  have hne : ∀ {x : Char}, Text.isWord x = false → c ≠ x := ne_of_isWord h
  unfold openingLength
  split
  · next hc => exact absurd (List.cons.inj hc).1 (hne (by decide))
  · next hc =>
    obtain ⟨rfl, -⟩ := List.cons.inj hc
    rw [if_neg]
    rintro (hc | hc | hc | hc) <;> exact hne (by decide) hc
  · rfl

theorem quotedName_cons {ok : List Char → Bool} (h : Text.isWord c = true) :
    quotedName ok (c :: s) = none := by
  rw [quotedName, openingLength_of_word h, Option.bind_none]

theorem quotedName_of_word {ok : List Char → Bool} (h : ∀ c ∈ s, Text.isWord c = true) :
    quotedName ok s = none := by
  cases s with
  | nil => rfl
  | cons c s => exact quotedName_cons (h c List.mem_cons_self)

theorem trimEnd_word (h : ∀ c ∈ s, Text.isWord c = true) : Text.trimEnd s = s := by
  rw [Text.trimEnd_eq, List.rdropWhile_eq_self_iff]
  intro hne
  simp [Text.not_isBlank_of_isWord (h _ (List.getLast_mem hne))]

theorem splitTable_name (n : WordName) (ht : Stops (fun c => !Text.isBlank c) t) :
    splitTable (n.text ++ t) = (n.text, t) := by
  obtain ⟨c, r, hn⟩ := List.exists_cons_of_ne_nil n.ne_nil
  have hc : Text.isWord c = true := n.isWord c (hn ▸ List.mem_cons_self)
  have hquoted : quotedName endsTable (n.text ++ t) = none := by
    rw [hn, List.cons_append, quotedName_cons hc]
  have hparen : parenthesized endsTable (n.text ++ t) = none := by
    rw [hn, List.cons_append, parenthesized.eq_2]
    rintro x hx
    cases hx
    exact absurd hc (by decide)
  have hword : ∀ x ∈ n.text, (!Text.isBlank x) = true := fun x hx => by
    rw [Text.not_isBlank_of_isWord (n.isWord x hx), Bool.not_false]
  rw [splitTable, hquoted, hparen]
  dsimp only
  rw [takeWhile_append hword ht, dropWhile_append hword ht]

/-- The alias behind a run of blanks. -/
theorem readAlias_gap (gap : Gap) (hs : Stops Text.isBlank s)
    (hlabel : ((Text.dropWord ['a', 's'] s).getD s).dropWhile Text.isBlank = t)
    (ht : ∀ c ∈ t, Text.isWord c = true) : readAlias (gap.text ++ s) = t := by
  rw [readAlias, dropWhile_append gap.isBlank hs, hlabel, quotedName_of_word ht]
  exact trimEnd_word ht

theorem readAlias_label (gap : Gap) (label : WordName) : readAlias (gap.text ++ label.text) =
    (Text.dropWord ['a', 's'] label.text).getD label.text := by
  have hword : ∀ c ∈ (Text.dropWord ['a', 's'] label.text).getD label.text,
      Text.isWord c = true := by
    intro c hc
    cases h : Text.dropWord ['a', 's'] label.text with
    | none =>
      rw [h] at hc
      exact label.isWord c hc
    | some r =>
      rw [h] at hc
      exact label.isWord c (Text.dropWord_subset h hc)
  exact readAlias_gap gap (stops_blank label.isWord) (stops_blank hword).dropWhile hword

theorem readAlias_withAs (gap gap' : Gap) (keyword : AsWord) (label : WordName) :
    readAlias (gap.text ++ (keyword.text ++ (gap'.text ++ label.text))) = label.text := by
  refine readAlias_gap gap keyword.stops_append ?_ label.isWord
  rw [Text.dropWord_append keyword.isAs, Option.getD_some, List.nil_append,
    dropWhile_append gap'.isBlank (stops_blank label.isWord)]

/-- A run of characters in front of a text is no place where an alias could begin. -/
theorem splitBeforeBlank_append {α : Type} {tail : List Char → Option α}
    (h : ∀ c ∈ s, Text.isBlank c = false) : splitBeforeBlank tail (s ++ t) =
      (splitBeforeBlank tail t).map fun (before, a) => (s ++ before, a) := by
  induction s with
  | nil => simp
  | cons c s ih =>
    obtain ⟨hc, hs⟩ := List.forall_mem_cons.mp h
    have hline : c ≠ '\n' := by
      rintro rfl
      exact absurd hc (by decide)
    rw [List.cons_append, splitBeforeBlank.eq_def]
    simp [hc, hline, ih hs, Function.comp_def]

theorem splitBeforeBlank_gap {α : Type} {tail : List Char → Option α} {a : α} (gap : Gap)
    (h : tail (gap.text ++ t) = some a) : splitBeforeBlank tail (gap.text ++ t) = some ([], a) := by
  obtain ⟨c, r, hc, hblank, -⟩ := gap.cons
  rw [hc, List.cons_append] at h ⊢
  rw [splitBeforeBlank.eq_def]
  simp [hblank, h]

theorem afterBlanks_gap (gap : Gap) (ht : Stops Text.isBlank t) :
    afterBlanks (gap.text ++ t) = some t := by
  obtain ⟨c, r, hc, hblank, hr⟩ := gap.cons
  rw [hc, List.cons_append, afterBlanks, if_pos hblank, dropWhile_append hr ht]

theorem afterBlanks_of_word (h : ∀ c ∈ s, Text.isWord c = true) : afterBlanks s = none := by
  cases s with
  | nil => rfl
  | cons c s =>
    rw [afterBlanks, Text.not_isBlank_of_isWord (h c List.mem_cons_self)]
    rfl

theorem tableAliasTail_gap (gap : Gap) (l : WordName) :
    tableAliasTail (gap.text ++ l.text) = some l.text := by
  obtain ⟨c, r, hl⟩ := List.exists_cons_of_ne_nil l.ne_nil
  have hspace : l.text.contains ' ' = false := Bool.eq_false_iff.mpr fun h =>
    not_mem_of_word l.isWord (by decide) (List.contains_iff_mem.mp h)
  unfold tableAliasTail
  rw [afterBlanks_gap gap (stops_blank l.isWord)]
  rw [hl] at hspace ⊢
  simp only [hspace]
  rfl

end Readers

/-! ## Items -/

/-- A table of a FROM clause, as it is written. -/
inductive FromItem where
  | table (name : WordName)
  | bare (name : WordName) (gap : Gap) (label : WordName)
  | withAs (name : WordName) (gap : Gap) (keyword : AsWord) (gap' : Gap) (label : WordName)

namespace FromItem

def name : FromItem → WordName
  | table name | bare name _ _ | withAs name _ _ _ _ => name

def label : FromItem → Option WordName
  | table _ => none
  | bare _ _ label | withAs _ _ _ _ label => some label

/-- What stands behind the name of the table. -/
def rest : FromItem → List Char
  | table _ => []
  | bare _ gap label => gap.text ++ label.text
  | withAs _ gap keyword gap' label => gap.text ++ (keyword.text ++ (gap'.text ++ label.text))

def written (item : FromItem) : List Char :=
  item.name.text ++ item.rest

/-- The item of a query. -/
def columnItem (item : FromItem) : ColumnItem :=
  .ofName (String.ofList item.written)

/-- The name by which a statement knows the table. -/
def shown (item : FromItem) : WordName :=
  item.label.getD item.name

/-- An alias without the letters AS at its start. If there are no others, `name` is the alias. -/
def afterLetters (name label : WordName) : WordName :=
  match h : Text.dropWord ['a', 's'] label.text with
  | none => label
  | some [] => name
  | some (c :: r) =>
    ⟨c :: r, List.cons_ne_nil c r, fun x hx => label.isWord x (Text.dropWord_subset h hx)⟩

/-- The name under which the table is listed. The letters AS at the start of an alias are taken for
the word, if the word is not there. -/
def reported : FromItem → WordName
  | table name => name
  | bare name _ label => afterLetters name label
  | withAs _ _ _ _ label => label

/-- Whether the alias is listed without the letters AS at its start. Instead of an alias of these
letters only the table is listed, and this is right if they are its name. -/
def losesAs : FromItem → Bool
  | bare name _ label =>
    match Text.dropWord ['a', 's'] label.text with
    | none => false
    | some [] => label.text != name.text
    | some (_ :: _) => true
  | _ => false

variable {item : FromItem} {c : Char}

theorem afterLetters_text (n l : WordName) : (afterLetters n l).text =
    if ((Text.dropWord ['a', 's'] l.text).getD l.text).isEmpty then n.text
    else (Text.dropWord ['a', 's'] l.text).getD l.text := by
  unfold afterLetters
  split
  · next h => simp [h, l.ne_nil]
  · next h => simp [h]
  · next h => simp [h]

/-- The list has the name of the statement, unless an alias without AS in front of it begins with
these letters. -/
theorem reported_eq_shown_iff : item.reported = item.shown ↔ item.losesAs = false := by
  cases item with
  | table n => simp [reported, shown, label, name, losesAs]
  | withAs n gap keyword gap' l => simp [reported, shown, label, losesAs]
  | bare n gap l =>
    rw [WordName.ext_iff, reported, afterLetters_text, shown, label, Option.getD_some, losesAs]
    cases h : Text.dropWord ['a', 's'] l.text with
    | none => simp [l.ne_nil]
    | some r =>
      cases r with
      | nil =>
        rw [bne_eq_false_iff_eq]
        exact eq_comm
      | cons c r =>
        -- what is left of the alias is shorter
        have hlength := Text.length_dropWord h
        have hne : c :: r ≠ l.text := fun hl => by
          rw [← hl] at hlength
          simp at hlength
        simp [hne]

/-! ## The list of tables -/

theorem readTable_written : readTable item.written = (item.name.text, item.reported.text) := by
  have hstart : Text.trimStart item.written = item.written :=
    ((stops_blank item.name.isWord).append item.name.ne_nil).dropWhile
  have hrest : Stops (fun c => !Text.isBlank c) item.rest := by
    have hgap : ∀ (gap : Gap) (s : List Char), Stops (fun c => !Text.isBlank c) (gap.text ++ s) :=
      fun gap s => by
        obtain ⟨c, r, hc, hblank, -⟩ := gap.cons
        rw [hc]
        exact stops_cons (by rw [hblank, Bool.not_true])
    cases item with
    | table n => exact Stops.nil
    | bare n gap l => exact hgap gap _
    | withAs n gap keyword gap' l => exact hgap gap _
  rw [readTable, hstart, written, splitTable_name item.name hrest]
  dsimp only
  cases item with
  | table n => rfl
  | bare n gap l => rw [rest, readAlias_label, reported, afterLetters_text, name]
  | withAs n gap keyword gap' l =>
    rw [rest, readAlias_withAs, if_neg (by simp [l.ne_nil])]
    rfl

/-! ## The statement -/

/-- The table and the alias are found where they stand, whatever letters the alias begins with. -/
theorem tableAlias?_written (item : FromItem) :
    tableAlias? item.written = item.label.map fun l => (item.name.text, l.text) := by
  have hname : ∀ c ∈ item.name.text, Text.isBlank c = false := fun c hc =>
    Text.not_isBlank_of_isWord (item.name.isWord c hc)
  rw [written, tableAlias?, splitBeforeBlank_append hname]
  cases item with
  | table n => rfl
  | bare n gap l =>
    -- what is left of the alias behind the letters AS has no blanks in front of it
    have hnone : (afterAs (gap.text ++ l.text)).bind tableAliasTail = none := by
      rw [afterAs, afterBlanks_gap gap (stops_blank l.isWord), Option.bind_some,
        Option.bind_eq_none_iff]
      intro r hr
      rw [tableAliasTail, afterBlanks_of_word fun c hc => l.isWord c (Text.dropWord_subset hr hc)]
    rw [rest, splitBeforeBlank_gap gap (by rw [hnone, Option.none_or, tableAliasTail_gap])]
    simp [label]
  | withAs n gap keyword gap' l =>
    have hsome : (afterAs (gap.text ++ (keyword.text ++ (gap'.text ++ l.text)))).bind
        tableAliasTail = some l.text := by
      rw [afterAs, afterBlanks_gap gap keyword.stops_append, Option.bind_some,
        Text.dropWord_append keyword.isAs, Option.bind_some, List.nil_append, tableAliasTail_gap]
    rw [rest, splitBeforeBlank_gap gap (by rw [hsome, Option.some_or])]
    simp [label]

theorem mem_written (h : c ∈ item.written) : Text.isWord c = true ∨ Text.isBlank c = true := by
  have hrest : ∀ c ∈ item.rest, Text.isWord c = true ∨ Text.isBlank c = true := by
    intro c hc
    cases item with
    | table n => cases hc
    | bare n gap l =>
      exact (List.mem_append.mp hc).elim (fun hc => .inr (gap.isBlank c hc)) fun hc =>
        .inl (l.isWord c hc)
    | withAs n gap keyword gap' l =>
      simp only [rest, List.mem_append] at hc
      rcases hc with hc | hc | hc | hc
      · exact .inr (gap.isBlank c hc)
      · exact .inl (keyword.name.isWord c hc)
      · exact .inr (gap'.isBlank c hc)
      · exact .inl (l.isWord c hc)
  exact (List.mem_append.mp h).elim (fun h => .inl (item.name.isWord c h)) (hrest c)

/-- The item as a statement has it. -/
def text (d : Dialect) (item : FromItem) : String :=
  match item.label with
  | none => item.name.quoted d
  | some l => item.name.quoted d ++ " " ++ l.quoted d

theorem tableNameText_written (d : Dialect) (item : FromItem) :
    tableNameText d none (String.ofList item.written) = item.text d := by
  have hparen : item.written.contains '(' = false := by
    rw [Bool.eq_false_iff, Ne, List.contains_iff_mem]
    intro h
    rcases mem_written h with h | h <;> exact absurd h (by decide)
  rw [tableNameText, String.toList_ofList, hparen, tableAlias?_written, text]
  cases hlabel : item.label with
  | none =>
    have hwritten : item.written = item.name.text := by
      cases item with
      | table n => exact List.append_nil n.text
      | bare n gap l => cases hlabel
      | withAs n gap keyword gap' l => cases hlabel
    rw [hwritten]
    exact WordName.quoteTableName_word d item.name
  | some l =>
    simp [WordName.quoteTableName_word]

theorem renderTables_columnItems (c : Compiler) (items : List FromItem) :
    renderTables c (items.map columnItem) = .pure (items.map (text c.dialect)) := by
  induction items with
  | nil => simp [renderTables]
  | cons item items ih =>
    have hone : renderTable c item.columnItem = .pure (item.text c.dialect) := by
      rw [columnItem, ColumnItem.ofName, renderTable, tableNameText_written]
    rw [List.map_cons, renderTables, hone, ih]
    rfl

theorem tablesUsed_columnItems (items : List FromItem) :
    (items.map columnItem).mapM Query.tableUsed =
      .ok (items.map fun item => (item.reported.listed, .name item.name.listed)) := by
  induction items with
  | nil => rfl
  | cons item items ih =>
    have hone : Query.tableUsed item.columnItem =
        .ok (item.reported.listed, .name item.name.listed) := by
      simp only [Query.tableUsed, columnItem, ColumnItem.ofName, String.toList_ofList,
        readTable_written, WordName.braced_word, WordName.listed]
    rw [List.map_cons, List.mapM_cons, hone, ih]
    rfl

end FromItem

/-! ## The column of the keys -/

namespace WordName

variable {d : Dialect} {n : WordName} {key : List Char}

/-- A token in front of a point keeps its place when a column is quoted. -/
theorem quoteColumnChars_token (hkey : '.' ∉ key) : ∃ behind,
    d.quoteColumnChars (n.token.text ++ '.' :: key) = n.token.text ++ '.' :: behind := by
  have hsplit : Text.splitLast '.' (n.token.text ++ '.' :: key) = some (n.token.text, key) :=
    Text.splitLast_append hkey n.token.text
  unfold Dialect.quoteColumnChars
  split
  · exact ⟨key, rfl⟩
  · rw [hsplit]
    dsimp only
    split
    · exact ⟨key, rfl⟩
    · exact ⟨d.quoteColumnPart key, by rw [Token.quoteTableChars_text n.token trivial]⟩

theorem not_isBlank_of_mem_token {c : Char} (h : c ∈ n.token.text) : Text.isBlank c = false := by
  rw [token_text] at h
  simp only [List.mem_cons, List.mem_append, List.not_mem_nil, or_false] at h
  rcases h with rfl | rfl | h | rfl | rfl
  · decide
  · decide
  · exact Text.not_isBlank_of_isWord (n.isWord c h)
  · decide
  · decide

/-- A key behind a token is selected behind this token, with an alias or without one. -/
theorem selectNameText_token (d : Dialect) (n : WordName) (hkey : '.' ∉ key) : ∃ behind,
    (selectNameText d none (String.ofList (n.token.text ++ '.' :: key))).toList =
      n.token.text ++ '.' :: behind := by
  have hblank : ∀ c ∈ n.token.text ++ ['.'], Text.isBlank c = false :=
    List.forall_mem_append.mpr ⟨fun c => not_isBlank_of_mem_token,
      List.forall_mem_singleton.mpr (by decide)⟩
  -- the first blank of the item, if there is one, stands in the key
  have hlabel : selectAlias? (n.token.text ++ '.' :: key) =
      (selectAlias? key).map fun found => (n.token.text ++ '.' :: found.1, found.2) := by
    rw [selectAlias?, List.append_cons, splitBeforeBlank_append hblank, selectAlias?]
    simp
  unfold selectNameText
  rw [Option.filter_none, String.toList_ofList]
  dsimp only
  split
  · exact ⟨key, String.toList_ofList⟩
  · rw [hlabel]
    cases hsplit : selectAlias? key with
    | none =>
      obtain ⟨behind, hquoted⟩ := quoteColumnChars_token (d := d) (n := n) hkey
      exact ⟨behind, by simp [Dialect.quoteColumnName, hquoted]⟩
    | some r =>
      obtain ⟨before, a⟩ := r
      have hbefore : '.' ∉ before := fun h => hkey ((selectAlias?_subset hsplit).1 h)
      obtain ⟨behind, hquoted⟩ := quoteColumnChars_token (d := d) (n := n) hbefore
      refine ⟨behind ++ (" AS ".toList ++ (d.quoteColumnName (String.ofList a)).toList), ?_⟩
      simp [Dialect.quoteColumnName, hquoted]

theorem expandTokens_token (d : Dialect) (tablePrefix : List Char) (n : WordName) (s : List Char) :
    d.expandTokens tablePrefix 0 (n.token.text ++ '.' :: s) =
      d.inQuotes n.text ++ '.' :: d.expandTokens tablePrefix 0 s := by
  have hpoint : ∀ (tok : Token) (t : List Char), '.' :: s ≠ tok.text ++ t := fun tok t h => by
    have hopening : '.' = tok.opening := (List.cons.inj h).1
    cases tok <;> simp [Token.opening] at hopening
  rw [Token.expandTokens_head, expansion_token, Token.expandTokens_cons hpoint]

/-- Once tokens are expanded, the column that is selected for the keys stands behind one name. -/
theorem keyColumn_expanded (d : Dialect) (n m : WordName) (tablePrefix : String)
    (hkey : '.' ∉ key) :
    (∃ behind, d.quoteTokens tablePrefix
        (selectNameText d none (String.ofList (n.token.text ++ '.' :: key))) =
      m.quoted d ++ ("." ++ behind)) ↔ n = m := by
  obtain ⟨s, hs⟩ := selectNameText_token d n hkey
  rw [Dialect.quoteTokens, hs, expandTokens_token]
  constructor
  · rintro ⟨behind, h⟩
    refine inQuotes_cancel (d := d) (s := '.' :: d.expandTokens tablePrefix.toList 0 s)
      (t := '.' :: behind.toList) ?_
    have htext := congrArg String.toList h
    simpa [quoted] using htext
  · rintro rfl
    refine ⟨String.ofList (d.expandTokens tablePrefix.toList 0 s), ?_⟩
    rw [← String.toList_inj]
    simp [quoted]

end WordName

namespace FromItem

/-- The tables of a FROM clause are listed as the statement has them exactly if no alias without AS
in front of it begins with these letters. Otherwise the alias in the list is not the one of the
statement, and the column that is selected for the keys stands behind a wrong name. -/
theorem tables_listed_iff (c : Compiler) (items : List FromItem) (q : Query)
    (hq : q.tables = items.map columnItem) :
    renderTables c q.tables = .pure (items.map (text c.dialect)) ∧
      (q.tablesUsed =
          .ok (items.map fun item => (item.shown.listed, .name item.name.listed)) ↔
        ∀ item ∈ items, item.losesAs = false) ∧
      ∀ (first : FromItem) (others : List FromItem) (key : String), items = first :: others →
        q.select.length = 1 → '.' ∉ key.toList →
        ∃ column, Client.withKeyColumn q key =
            .ok { q with select := q.select ++ [.ofName column] } ∧
          ∀ tablePrefix, (∃ behind,
              c.dialect.quoteTokens tablePrefix (selectNameText c.dialect none column) =
                first.shown.quoted c.dialect ++ ("." ++ behind)) ↔ first.losesAs = false := by
  have hused : q.tablesUsed =
      .ok (items.map fun item => (item.reported.listed, .name item.name.listed)) := by
    rw [Query.tablesUsed, hq, tablesUsed_columnItems]
  refine ⟨by rw [hq, renderTables_columnItems], ?_, ?_⟩
  · rw [hused, Except.ok.injEq, List.map_inj_left]
    refine forall₂_congr fun item _ => ?_
    rw [← reported_eq_shown_iff, ← WordName.listed_inj]
    simp
  · rintro first others key rfl hselect hkey
    have hpoint : Text.hasChar '.' key = false :=
      Bool.eq_false_iff.mpr fun h => hkey (List.contains_iff_mem.mp h)
    refine ⟨first.reported.listed ++ "." ++ key, ?_, fun tablePrefix => ?_⟩
    · rw [Client.withKeyColumn, if_pos hselect, hused]
      simp [hpoint]
    · have hcolumn : first.reported.listed ++ "." ++ key =
          String.ofList (first.reported.token.text ++ '.' :: key.toList) := by
        rw [← String.toList_inj]
        simp [WordName.listed]
      rw [hcolumn, WordName.keyColumn_expanded _ _ _ _ hkey, reported_eq_shown_iff]

/-- The table `user` with the alias `asset`, and the table `role` with AS in front of its alias. -/
def userAsset : FromItem :=
  .bare ⟨"user".toList, by decide, List.all_eq_true.mp rfl⟩
    ⟨[' '], by decide, List.all_eq_true.mp rfl⟩
    ⟨"asset".toList, by decide, List.all_eq_true.mp rfl⟩

def roleAsAspect : FromItem :=
  .withAs ⟨"role".toList, by decide, List.all_eq_true.mp rfl⟩
    ⟨[' '], by decide, List.all_eq_true.mp rfl⟩ ⟨"AS".toList, rfl⟩
    ⟨[' '], by decide, List.all_eq_true.mp rfl⟩
    ⟨"aspect".toList, by decide, List.all_eq_true.mp rfl⟩

/-- The alias `asset` of the statement is not in the list, and the key does not stand behind it. -/
theorem userAsset_not_listed :
    let items := [userAsset, roleAsAspect]
    let q : Query := { Query.empty with
      select := [.ofName "id"], tables := items.map FromItem.columnItem }
    items.map FromItem.written = ["user asset".toList, "role AS aspect".toList] ∧
      renderTables (.ofDialect .postgres) q.tables =
        .pure ["\"user\" \"asset\"", "\"role\" \"aspect\""] ∧
      q.tablesUsed ≠ .ok [("\x7b\x7basset\x7d\x7d", .name "\x7b\x7buser\x7d\x7d"),
        ("\x7b\x7baspect\x7d\x7d", .name "\x7b\x7brole\x7d\x7d")] ∧
      ∃ column, Client.withKeyColumn q "name" =
          .ok { q with select := [.ofName "id", .ofName column] } ∧
        ¬∃ behind, Dialect.postgres.quoteTokens "" (selectNameText .postgres none column) =
          "\"asset\"" ++ ("." ++ behind) := by
  intro items q
  obtain ⟨hrendered, hlisted, hkey⟩ := tables_listed_iff (.ofDialect .postgres) items q rfl
  obtain ⟨column, hcolumn, hbehind⟩ :=
    hkey userAsset [roleAsAspect] "name" rfl rfl (by decide)
  refine ⟨rfl, hrendered, fun h => ?_, column, hcolumn, fun h => ?_⟩
  · exact absurd (hlisted.mp h userAsset List.mem_cons_self) (by decide)
  · exact absurd ((hbehind "").mp h) (by decide)

end FromItem

end QueryKit
