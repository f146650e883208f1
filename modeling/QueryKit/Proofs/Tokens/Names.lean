import QueryKit.Proofs.Placeholder.Literal
import QueryKit.Proofs.Tokens.Expansion

/-!
# Tokens in the place of names and in literals

- `Token.NamesTable`, `Token.NamesColumn`: the tokens that quoting leaves alone in the place of a table
  and of a column (`quoteTableChars_text`, `quoteColumnChars_text`).
- `expanded_table_iff`, `expanded_column_iff`: these are the tokens that a statement shows as the name
  they stand for, once its tokens are expanded. In a statement that is kept as it is, none is
  (`quoteTableChars_ne_expansion`, `quoteColumnChars_ne_expansion`).
- `expanded_literal_iff`: a literal is still there once tokens are expanded if it holds none.
-/

namespace QueryKit

namespace Token

variable {d : Dialect} {tablePrefix : List Char} {tok : Token} {c x : Char} {a b s t : List Char}

/-- In the place of a table the token is left alone. -/
def NamesTable : Token → Prop
  | table _ _ _ => True
  | column _ => False

/-- In the place of a column the token is left alone. -/
def NamesColumn : Token → Prop
  | table _ _ name => '.' ∉ name.1
  | column _ => True

/-! ## Names that are left alone -/

theorem hasText_append (u : List Char) : ∀ {t : List Char}, t ≠ [] → Text.hasText t (t ++ u) = true
  | [], h => absurd rfl h
  | c :: t, _ => by
    rw [List.cons_append, Text.hasText, Bool.or_eq_true, Option.isSome_iff_exists]
    exact .inl ⟨u, Text.dropText_eq_some.mpr rfl⟩

theorem dot_mem_inner (first last : Bool) (name : TokenName) :
    '.' ∈ (table first last name).inner ↔ '.' ∈ name.1 := by
  cases first <;> cases last <;> simp [inner, percent]

/-- A table name that begins with braces is left alone. -/
theorem quoteTableChars_openBraces (d : Dialect) (s : List Char) :
    d.quoteTableChars (Dialect.openBraces ++ s) = Dialect.openBraces ++ s := by
  have hbraces : Text.hasText Dialect.openBraces (Dialect.openBraces ++ s) = true :=
    hasText_append s (List.cons_ne_nil _ _)
  rw [Dialect.quoteTableChars, hbraces, Bool.or_true, if_pos rfl]

theorem quoteTableChars_text (tok : Token) (h : tok.NamesTable) :
    d.quoteTableChars tok.text = tok.text := by
  cases tok with
  | column name => exact h.elim
  | table first last name => exact quoteTableChars_openBraces d _

theorem quoteColumnChars_text (tok : Token) (h : tok.NamesColumn) :
    d.quoteColumnChars tok.text = tok.text := by
  cases tok with
  | column name =>
    have hbrackets : Text.hasText ['[', '['] (column name).text = true :=
      hasText_append (t := ['[', '[']) _ (List.cons_ne_nil _ _)
    rw [Dialect.quoteColumnChars, hbrackets, Bool.or_true, if_pos rfl]
  | table first last name =>
    have hbraces : Text.hasText Dialect.openBraces (table first last name).text = true :=
      hasText_append _ (List.cons_ne_nil _ _)
    have hdot : '.' ∉ (table first last name).text := by
      rw [mem_text_iff (by decide), dot_mem_inner]
      exact h
    have hbrackets : Text.hasText ['[', '['] (table first last name).text = false :=
      not_hasText_text (.inr rfl) (by simp [opening])
    rw [Dialect.quoteColumnChars, not_contains_text _ (by decide), hbrackets]
    cases hsplit : Text.splitLast '.' (table first last name).text with
    | none => simp [hbraces]
    | some r => exact absurd (by rw [(Text.splitLast_some hsplit).1]; simp) hdot

/-! ## Names that are broken -/

/-- A token ends with its bracket. -/
theorem closing_mem_text : tok.closing ∈ tok.text := by
  simp [text]

/-- A text that is cut off before a closing bracket begins with no token. -/
theorem expandTokens_unclosed (hs : ∀ x ∈ c :: s, x ≠ '\x7d' ∧ x ≠ ']') (hx : isOutside x = true) :
    d.expandTokens tablePrefix 0 (c :: (s ++ x :: t)) =
      c :: d.expandTokens tablePrefix 0 (s ++ x :: t) := by
  refine expandTokens_cons fun tok v htext => ?_
  obtain ⟨u, hu⟩ := Apart.outside (t := t) hx (c :: s) v tok (List.cons_ne_nil c s) htext
  have hmem : tok.closing ∈ c :: s := hu ▸ List.mem_append_left u closing_mem_text
  obtain ⟨hbrace, hbracket⟩ := hs tok.closing hmem
  cases tok with
  | table => exact hbrace rfl
  | column => exact hbracket rfl

/-- A column token in the place of a table: the whole of it is put in quotes, or its parts are. -/
theorem quoteTableChars_column (d : Dialect) (name : TokenName) :
    ('.' ∉ name.1 ∧ d.quoteTableChars (column name).text = d.inQuotes (column name).text) ∨
      ∃ p rest, IsName p ∧
        d.quoteTableChars (column name).text = d.inQuotes ('[' :: '[' :: p) ++ rest := by
  have hname : IsName name.1 := name.2.2
  have hparen : (column name).text.contains '(' = false := not_contains_text _ (by decide)
  have hbraces : Text.hasText Dialect.openBraces (column name).text = false :=
    not_hasText_text (.inl rfl) (by simp [opening])
  have hquote : d.quoteChar ∉ (column name).text := not_mem_text _ (isOutside_quoteChar d)
  unfold Dialect.quoteTableChars
  rw [hparen, hbraces, Bool.or_false, if_neg Bool.false_ne_true]
  by_cases hdot : '.' ∈ name.1
  · obtain ⟨p, r, hsplit, hp⟩ := List.eq_append_cons_of_mem hdot
    have htext : (column name).text = ('[' :: '[' :: p) ++ '.' :: (r ++ [']', ']']) := by
      simp [text, inner, opening, closing, hsplit]
    have hfirst : '.' ∉ '[' :: '[' :: p := by simp [hp]
    have hquoted : d.quoteTablePart ('[' :: '[' :: p) = d.inQuotes ('[' :: '[' :: p) :=
      quoteTablePart_of_not_mem fun h => hquote (htext ▸ List.mem_append_left _ h)
    obtain ⟨rest, hrest⟩ := intercalate_cons ['.'] (d.inQuotes ('[' :: '[' :: p))
      ((Text.cutAt '.' (r ++ [']', ']'])).map d.quoteTablePart)
    refine .inr ⟨p, rest, hname.subset (by rw [hsplit]; simp), ?_⟩
    rw [htext, Text.cutAt_append, Text.cutAt_of_not_mem hfirst, List.singleton_append, List.map_cons,
      hquoted, hrest]
  · have hwhole : '.' ∉ (column name).text := by
      rw [mem_text_iff (by decide)]
      exact hdot
    refine .inl ⟨hdot, ?_⟩
    rw [Text.cutAt_of_not_mem hwhole, List.map_singleton, List.intercalate_singleton,
      quoteTablePart_of_not_mem hquote]

/-- The last point of a table token stands between its brackets. -/
theorem splitLast_text {first last : Bool} {name : TokenName} {before behind : List Char}
    (h : Text.splitLast '.' (table first last name).text = some (before, behind)) :
    ∃ s, before = Dialect.openBraces ++ s ∧ ∃ c, (table first last name).inner = s ++ '.' :: c ∧
      behind = c ++ ['\x7d', '\x7d'] := by
  have htext : '\x7b' :: '\x7b' :: ((table first last name).inner ++ ['\x7d', '\x7d']) =
      before ++ '.' :: behind := (Text.splitLast_some h).1
  match before, htext with
  | [], htext => exact absurd (List.cons.inj htext).1 (by decide)
  | [_], htext => exact absurd (List.cons.inj (List.cons.inj htext).2).1 (by decide)
  | x :: y :: s, htext =>
    obtain ⟨hx, htail⟩ := List.cons.inj htext
    obtain ⟨hy, hrest⟩ := List.cons.inj htail
    refine ⟨s, by rw [← hx, ← hy]; rfl, ?_⟩
    rcases List.append_eq_append_iff.mp hrest with ⟨u, -, hu⟩ | ⟨u, hinner, hu⟩
    · have hdot : '.' ∈ ['\x7d', '\x7d'] := hu ▸ List.mem_append_right u List.mem_cons_self
      simp at hdot
    · cases u with
      | nil => exact absurd (List.cons.inj hu).1 (by decide)
      | cons z c =>
        obtain ⟨hz, hbehind⟩ := List.cons.inj hu
        exact ⟨c, by rw [hz]; exact hinner, hbehind⟩

/-- A table token with a point in the place of a column: what is behind the point is put in
quotes. -/
theorem quoteColumnChars_table (d : Dialect) (first last : Bool) {name : TokenName}
    (hdot : '.' ∈ name.1) : ∃ s rest, (∀ x ∈ '\x7b' :: '\x7b' :: s, x ≠ '\x7d' ∧ x ≠ ']') ∧
      d.quoteColumnChars (table first last name).text =
        '\x7b' :: '\x7b' :: (s ++ d.quoteChar :: rest) := by
  set tok := table first last name with htok
  have hquote : d.quoteChar ∉ tok.text := not_mem_text tok (isOutside_quoteChar d)
  have hparen : tok.text.contains '(' = false := not_contains_text tok (by decide)
  have hbrackets : Text.hasText ['[', '['] tok.text = false :=
    not_hasText_text (.inr rfl) (by simp [htok, opening])
  cases hsplit : Text.splitLast '.' tok.text with
  | none =>
    refine absurd ?_ (Text.splitLast_none hsplit)
    rw [mem_text_iff (by decide)]
    exact (dot_mem_inner first last name).mpr hdot
  | some r =>
    obtain ⟨before, behind⟩ := r
    obtain ⟨s, hbefore, c, hinner, hbehind⟩ := splitLast_text hsplit
    have hnobraces : Text.hasText Dialect.openBraces behind = false := by
      rw [Bool.eq_false_iff]
      intro h
      have hmem : '\x7b' ∈ c ++ ['\x7d', '\x7d'] := hbehind ▸ mem_of_hasText h
      have hbrace : '\x7b' ∉ c := fun h => by
        have hmem : '\x7b' ∈ tok.inner := hinner ▸ List.mem_append_right s (.tail _ h)
        exact (not_bracket_of_mem_inner hmem).1 rfl
      simp [hbrace] at hmem
    have hpart : d.quoteColumnPart behind = d.inQuotes behind := by
      have hstar : behind ≠ ['*'] := by
        rw [hbehind]
        cases c <;> simp
      refine quoteColumnPart_of_not_mem (fun h => hquote ?_) hstar
      rw [(Text.splitLast_some hsplit).1]
      exact List.mem_append_right before (.tail _ h)
    have htable : d.quoteTableChars before = before := by
      rw [hbefore, quoteTableChars_openBraces]
    refine ⟨s ++ ['.'], behind ++ [d.quoteChar], ?_, ?_⟩
    · intro x hx
      have hx : x = '\x7b' ∨ x ∈ s ∨ x = '.' := by simpa using hx
      rcases hx with rfl | hx | rfl
      · decide
      · have hmem : x ∈ tok.inner := hinner ▸ List.mem_append_left _ hx
        obtain ⟨-, hbrace, -, hbracket⟩ := not_bracket_of_mem_inner hmem
        exact ⟨hbrace, hbracket⟩
      · decide
    · unfold Dialect.quoteColumnChars
      rw [hparen, hbrackets, hsplit]
      simp only [Bool.or_false, Bool.false_eq_true, if_false, hnobraces, hpart, htable]
      rw [hbefore]
      simp [Dialect.inQuotes, Dialect.openBraces]

theorem quoteTableChars_column_cons (d : Dialect) (name : TokenName) :
    ∃ rest, d.quoteTableChars (column name).text = d.quoteChar :: '[' :: rest := by
  rcases quoteTableChars_column d name with ⟨-, h⟩ | ⟨p, rest, -, h⟩
  · exact ⟨_, h⟩
  · exact ⟨_, h⟩

/-! ## Statements -/

theorem ne_of_isOutside (hc : isOutside c = true) (hx : isOutside x = false) : c ≠ x := by
  rintro rfl
  exact Bool.false_ne_true (hx.symm.trans hc)

theorem expandTokens_outside (hx : isOutside x = true) :
    d.expandTokens tablePrefix 0 (x :: s) = x :: d.expandTokens tablePrefix 0 s := by
  refine expandTokens_cons fun tok t h => not_mem_text tok hx ?_
  rw [(List.cons.inj h).1]
  exact List.mem_cons_self

/-- In a statement that is kept as it is, no token in the place of a table is the name it stands
for. -/
theorem quoteTableChars_ne_expansion (d : Dialect)
    (hword : ∀ c ∈ tablePrefix, Text.isWord c = true) (tok : Token) :
    d.quoteTableChars tok.text ≠ tok.expansion d tablePrefix := by
  obtain ⟨c, rest, hexpansion, hc⟩ := tok.expansion_cons d hword
  rw [hexpansion]
  cases tok with
  | table first last name =>
    rw [quoteTableChars_text (table first last name) trivial]
    intro h
    exact ne_of_isOutside (isOutside_quoteChar d) (x := '\x7b') rfl (List.cons.inj h).1.symm
  | column name =>
    obtain ⟨rest', hquoted⟩ := quoteTableChars_column_cons d name
    rw [hquoted]
    intro h
    have hbracket : '[' = c := (List.cons.inj (List.cons.inj h).2).1
    rcases hc with hc | hc
    · exact ne_of_isTokenChar hc (by decide) hbracket.symm
    · exact ne_of_isOutside (isOutside_quoteChar d) rfl (hc.symm.trans hbracket.symm)

/-- A token in the place of a table is the name it stands for in exactly the statements that expand
it, if it is a table token. -/
theorem expanded_table_iff (d : Dialect) (hword : ∀ c ∈ tablePrefix, Text.isWord c = true)
    (tok : Token) (a b : List Char) :
    d.expandTokens tablePrefix 0 (a ++ (d.quoteTableChars tok.text ++ b)) =
        d.expandTokens tablePrefix 0 a ++
          (tok.expansion d tablePrefix ++ d.expandTokens tablePrefix 0 b) ↔ tok.NamesTable := by
  have hq := isOutside_quoteChar d
  cases tok with
  | table first last name =>
    rw [quoteTableChars_text (table first last name) trivial, expandTokens_text]
    exact iff_of_true rfl trivial
  | column name =>
    refine iff_of_false (fun h => ?_) id
    rcases quoteTableChars_column d name with ⟨hdot, hquoted⟩ | ⟨p, rest, hp, hquoted⟩
    · -- the name is quoted twice
      obtain ⟨c, r, hname⟩ := List.exists_cons_of_ne_nil name.2.1
      have hexpansion : (column name).expansion d tablePrefix =
          d.quoteChar :: c :: (r ++ [d.quoteChar]) := by
        rw [expansion, IsName.quoteColumnChars_of_not_mem name.2.2 hdot, Dialect.inQuotes, hname]
        rfl
      rw [hquoted, Dialect.inQuotes, List.cons_append, expandTokens_append (.outside hq),
        expandTokens_outside hq, List.append_assoc, expandTokens_head, hexpansion] at h
      have hc : d.quoteChar = c := (List.cons.inj (List.cons.inj (List.append_cancel_left h)).2).1
      have htoken : Dialect.isTokenChar c = true := name.2.2 c (hname ▸ List.mem_cons_self)
      exact ne_of_isTokenChar htoken (isTokenChar_quoteChar d) hc.symm
    · -- the token is torn apart
      have hunclosed : ∀ x ∈ '[' :: '[' :: p, x ≠ '\x7d' ∧ x ≠ ']' := by
        intro x hx
        simp only [List.mem_cons] at hx
        rcases hx with rfl | rfl | hx
        · decide
        · decide
        · exact ⟨ne_of_isTokenChar (hp x hx) (by decide), ne_of_isTokenChar (hp x hx) (by decide)⟩
      obtain ⟨c, rest', hexpansion, hc⟩ := (column name).expansion_cons d hword
      have htext : d.quoteTableChars (column name).text ++ b =
          d.quoteChar :: '[' :: ('[' :: p ++ d.quoteChar :: (rest ++ b)) := by
        rw [hquoted]
        simp [Dialect.inQuotes]
      rw [htext, expandTokens_append (.outside hq), expandTokens_outside hq,
        expandTokens_unclosed hunclosed hq, hexpansion] at h
      have hbracket : '[' = c := (List.cons.inj (List.cons.inj (List.append_cancel_left h)).2).1
      rcases hc with hc | hc
      · exact ne_of_isTokenChar hc (by decide) hbracket.symm
      · exact ne_of_isOutside hq rfl (hc.symm.trans hbracket.symm)

/-- In a statement that is kept as it is, no token in the place of a column is the name it stands
for. -/
theorem quoteColumnChars_ne_expansion (d : Dialect)
    (hword : ∀ c ∈ tablePrefix, Text.isWord c = true) (tok : Token) :
    d.quoteColumnChars tok.text ≠ tok.expansion d tablePrefix := by
  obtain ⟨c, rest, hexpansion, -⟩ := tok.expansion_cons d hword
  have hopening : ∃ rest', d.quoteColumnChars tok.text = tok.opening :: rest' := by
    by_cases hnames : tok.NamesColumn
    · exact ⟨_, quoteColumnChars_text tok hnames⟩
    · cases tok with
      | column name => exact absurd trivial hnames
      | table first last name =>
        obtain ⟨s, rest', -, hquoted⟩ := quoteColumnChars_table d first last
          (not_not.mp hnames)
        exact ⟨_, hquoted⟩
  obtain ⟨rest', hquoted⟩ := hopening
  rw [hexpansion, hquoted]
  intro h
  refine not_mem_text tok (isOutside_quoteChar d) ?_
  rw [← (List.cons.inj h).1]
  exact List.mem_cons_self

/-- A token in the place of a column is the name it stands for in exactly the statements that expand
it, if it is not a table token with a point in its name. -/
theorem expanded_column_iff (d : Dialect) (hword : ∀ c ∈ tablePrefix, Text.isWord c = true)
    (tok : Token) (a b : List Char) :
    d.expandTokens tablePrefix 0 (a ++ (d.quoteColumnChars tok.text ++ b)) =
        d.expandTokens tablePrefix 0 a ++
          (tok.expansion d tablePrefix ++ d.expandTokens tablePrefix 0 b) ↔ tok.NamesColumn := by
  have hq := isOutside_quoteChar d
  by_cases hnames : tok.NamesColumn
  · rw [quoteColumnChars_text tok hnames, expandTokens_text]
    exact iff_of_true rfl hnames
  · refine iff_of_false (fun h => ?_) hnames
    cases tok with
    | column name => exact hnames trivial
    | table first last name =>
      obtain ⟨s, rest, hunclosed, hquoted⟩ := quoteColumnChars_table d first last
        (not_not.mp hnames)
      obtain ⟨c, rest', hexpansion, -⟩ := (table first last name).expansion_cons d hword
      have htext : d.quoteColumnChars (table first last name).text ++ b =
          '\x7b' :: ('\x7b' :: s ++ d.quoteChar :: (rest ++ b)) := by
        rw [hquoted]
        simp
      have hapart : Apart ('\x7b' :: ('\x7b' :: s ++ d.quoteChar :: (rest ++ b))) :=
        .opening (.inl rfl)
      rw [htext, expandTokens_append hapart, expandTokens_unclosed hunclosed hq, hexpansion] at h
      exact ne_of_isOutside hq (x := '\x7b') rfl (List.cons.inj (List.append_cancel_left h)).1.symm

/-- The quotes of a literal and the characters that are doubled in it stand in no token. -/
theorem hasToken_quoteValue (d : Dialect) (value : String) :
    HasToken (d.quoteValue value).toList ↔ HasToken value.toList := by
  have hdoubled (c : Char) : Dialect.quotedChar d.backslashEscapes c = [c] ∨
      isOutside c = true ∧ Dialect.quotedChar d.backslashEscapes c = [c, c] := by
    unfold Dialect.quotedChar
    split
    · next h =>
      obtain rfl := eq_of_beq (Bool.and_eq_true_iff.mp h).2
      exact .inr ⟨by decide, rfl⟩
    · split
      · next h =>
        subst h
        exact .inr ⟨by decide, rfl⟩
      · exact .inl rfl
  rw [d.quoteValue_toList, hasToken_outside (by decide), hasToken_concat (by decide),
    hasToken_doubled hdoubled]

/-- A literal stays as it is when the tokens of its statement are expanded exactly if there is none
in its text. -/
theorem expanded_literal_iff (d : Dialect) (hword : ∀ c ∈ tablePrefix, Text.isWord c = true)
    (value : String) (a b : List Char) :
    d.expandTokens tablePrefix 0 (a ++ ((d.quoteValue value).toList ++ b)) =
        d.expandTokens tablePrefix 0 a ++
          ((d.quoteValue value).toList ++ d.expandTokens tablePrefix 0 b) ↔
      ¬HasToken value.toList := by
  have hq : isOutside '\'' = true := by decide
  obtain ⟨u, hu⟩ : ∃ u, (d.quoteValue value).toList = '\'' :: (u ++ ['\'']) :=
    ⟨_, d.quoteValue_toList value⟩
  have hliteral : d.expandTokens tablePrefix 0 ('\'' :: (u ++ ['\''])) =
      '\'' :: (d.expandTokens tablePrefix 0 u ++ ['\'']) := by
    rw [expandTokens_outside hq, expandTokens_append (.outside hq), expandTokens_outside hq]
    rfl
  have hsplit : d.expandTokens tablePrefix 0 (a ++ ('\'' :: (u ++ ['\'']) ++ b)) =
      d.expandTokens tablePrefix 0 a ++
        (d.expandTokens tablePrefix 0 ('\'' :: (u ++ ['\''])) ++ d.expandTokens tablePrefix 0 b) := by
    rw [hliteral, List.cons_append, expandTokens_append (.outside hq), expandTokens_outside hq,
      List.append_assoc, List.singleton_append, expandTokens_append (.outside hq),
      expandTokens_outside hq]
    simp
  rw [← hasToken_quoteValue d, hu, hsplit, ← expandTokens_eq_self_iff hword,
    List.append_cancel_left_eq, List.append_cancel_right_eq]

end Token

end QueryKit
