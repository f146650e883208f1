import QueryKit.Proofs.Dialect.Requoting
import QueryKit.Proofs.Separator.Text
import QueryKit.Proofs.Tokens.Expansion

/-!
# Expanding tokens once is enough

- `Expands`: how a text is expanded from the left. Each token is replaced by the name that it stands
  for, and a character that begins no token is kept.
- `Inert`: texts that are no part of a token. The name that a token stands for is one, whatever the
  prefix of tables is, as long as there is no bracket in it (`inert_expansion`).
- `Expands.not_hasToken`: so no token comes about where a name is put in, and none is left.
- `quoteTokens_complete`: expanding a text again changes nothing.
-/

namespace QueryKit

namespace Token

/-- The characters with which tokens open and close. -/
def brackets : List Char :=
  ['\x7b', '\x7d', '[', ']']

/-- A text without brackets. -/
def Bracketless (s : List Char) : Prop :=
  ∀ c ∈ s, c ∉ brackets

variable {d : Dialect} {tablePrefix : List Char} {tok : Token} {c : Char} {s t u : List Char}

theorem opening_mem_brackets : tok.opening ∈ brackets := by
  cases tok <;> simp [opening, brackets]

theorem closing_mem_brackets : tok.closing ∈ brackets := by
  cases tok <;> simp [closing, brackets]

theorem bracketless_inner (tok : Token) : Bracketless tok.inner := by
  intro c hc
  obtain ⟨hbrace, hbrace', hbracket, hbracket'⟩ := not_bracket_of_mem_inner hc
  simp [brackets, hbrace, hbrace', hbracket, hbracket']

/-- No token begins in a text without brackets. -/
theorem hasToken_append_of_bracketless : ∀ {s : List Char}, Bracketless s →
    (HasToken (s ++ t) ↔ HasToken t)
  | [], _ => Iff.rfl
  | c :: s, h => by
    obtain ⟨hc, hs⟩ := List.forall_mem_cons.mp h
    rw [List.cons_append, hasToken_cons, hasToken_append_of_bracketless hs]
    refine or_iff_right ?_
    rintro ⟨tok, b, htext⟩
    exact hc ((List.cons.inj htext).1 ▸ opening_mem_brackets)

/-- What is left of a token from some place on ends with a bracket. -/
theorem closing_mem_of_isSuffix (h : t <:+ tok.text) (hne : t ≠ []) : tok.closing ∈ t := by
  have hlast : tok.text = (tok.opening :: tok.opening :: (tok.inner ++ [tok.closing])) ++
      [tok.closing] := by simp [text]
  have hclosing : t.getLast hne = tok.closing := by
    simp only [h.getLast hne, hlast, List.getLast_concat]
  exact hclosing ▸ List.getLast_mem hne

/-! ## Texts that are no part of a token -/

/-- No token begins or ends in the text or lies around it. -/
structure Inert (s : List Char) : Prop where
  bracketless : Bracketless s
  outside : ∃ c ∈ s, isOutside c = true

/-- The rest of a token does not begin a text that begins with an inert one. -/
theorem Inert.not_isPrefix (h : Inert s) (ht : t <:+ tok.text) (hne : t ≠ []) :
    ¬t <+: s ++ u := by
  have hclosing : tok.closing ∈ t := closing_mem_of_isSuffix ht hne
  rintro ⟨v, hv⟩
  -- the rest of the token ends within the text, and so does a bracket, or it covers the text
  rcases List.append_eq_append_iff.mp hv with ⟨w, hs, -⟩ | ⟨w, htext, -⟩
  · exact h.bracketless tok.closing (hs ▸ List.mem_append_left w hclosing) closing_mem_brackets
  · obtain ⟨c, hc, hout⟩ := h.outside
    refine not_mem_text tok hout (ht.subset ?_)
    rw [htext]
    exact List.mem_append_left w hc

theorem not_mem_brackets_of_isOutside (h : isOutside c = true) : c ∉ brackets := by
  simp only [isOutside, Bool.not_eq_true', Bool.or_eq_false_iff, beq_eq_false_iff_ne] at h
  obtain ⟨⟨⟨⟨⟨-, -⟩, hbrace⟩, hbrace'⟩, hbracket⟩, hbracket'⟩ := h
  simp [brackets, hbrace, hbrace', hbracket, hbracket']

/-- Quoting puts no brackets into a name. -/
theorem Bracketless.of_quoted (h : Bracketless s)
    (hmem : ∀ c, c ≠ '.' → c ≠ d.quoteChar → (c ∈ t ↔ c ∈ s)) : Bracketless t := by
  intro c hc
  by_cases hdot : c = '.'
  · rw [hdot]
    decide
  · by_cases hquote : c = d.quoteChar
    · rw [hquote]
      exact not_mem_brackets_of_isOutside (isOutside_quoteChar d)
    · exact h c ((hmem c hdot hquote).mp hc)

/-- Without brackets no tokens open. -/
theorem Bracketless.not_hasText (h : Bracketless s) {o : Char} (ho : o ∈ brackets) :
    Text.hasText (o :: t) s = false :=
  Bool.eq_false_iff.mpr fun htext => h o (mem_of_hasText htext) ho

/-- A table name that quoting leaves as it is has a parenthesis or a quote. -/
theorem exists_outside_of_tableFixed (hs : Bracketless s) (h : d.TableFixed s) :
    ∃ c ∈ s, isOutside c = true := by
  rcases h with hparen | hbraces | hparts
  · exact ⟨'(', hparen, by decide⟩
  · rw [Dialect.openBraces, hs.not_hasText (by decide)] at hbraces
    cases hbraces
  · obtain ⟨p, ps, hcut⟩ := List.exists_cons_of_ne_nil (Text.cutAt_ne_nil (c := '.') (s := s))
    have hp : p ∈ Text.cutAt '.' s := hcut ▸ List.mem_cons_self
    exact ⟨d.quoteChar, Text.subset_of_mem_cutAt hp (hparts p hp), isOutside_quoteChar d⟩

theorem exists_outside_of_columnPartFixed (h : d.ColumnPartFixed s) :
    ∃ c ∈ s, isOutside c = true := by
  rcases h with hquote | rfl
  · exact ⟨d.quoteChar, hquote, isOutside_quoteChar d⟩
  · exact ⟨'*', List.mem_cons_self, by decide⟩

theorem inert_quoteTableChars (h : Bracketless s) : Inert (d.quoteTableChars s) := by
  have hquoted : Bracketless (d.quoteTableChars s) :=
    h.of_quoted fun _ => Dialect.mem_quoteTableChars
  exact ⟨hquoted, exists_outside_of_tableFixed hquoted (d.tableFixed_quoteTableChars s)⟩

theorem inert_quoteColumnChars (h : Bracketless s) : Inert (d.quoteColumnChars s) := by
  have hquoted : Bracketless (d.quoteColumnChars s) :=
    h.of_quoted fun _ => Dialect.mem_quoteColumnChars
  refine ⟨hquoted, ?_⟩
  rcases d.columnFixed_quoteColumnChars s with hparen | hbrackets | hname
  · exact ⟨'(', hparen, by decide⟩
  · rw [hquoted.not_hasText (by decide)] at hbrackets
    cases hbrackets
  · cases hsplit : Text.splitLast '.' (d.quoteColumnChars s) with
    | none =>
      rw [hsplit, Dialect.openBraces, hquoted.not_hasText (by decide)] at hname
      exact exists_outside_of_columnPartFixed (hname.resolve_left Bool.false_ne_true)
    | some r =>
      obtain ⟨table, column⟩ := r
      obtain ⟨hjoined, -⟩ := Text.splitLast_some hsplit
      rw [hjoined] at hquoted ⊢
      obtain ⟨htable, hcolumn⟩ := List.forall_mem_append.mp hquoted
      have hbraces : Text.hasText Dialect.openBraces column = false :=
        Bracketless.not_hasText (List.forall_mem_cons.mp hcolumn).2 (by decide)
      rw [hsplit] at hname
      simp only [hbraces, Bool.false_eq_true, false_or] at hname
      obtain ⟨c, hc, hout⟩ := exists_outside_of_tableFixed htable hname.1
      exact ⟨c, List.mem_append_left _ hc, hout⟩

/-- The name that a token stands for is no part of a token, if the prefix has no brackets. -/
theorem inert_expansion (hplain : Bracketless tablePrefix) (tok : Token) :
    Inert (tok.expansion d tablePrefix) := by
  cases tok with
  | table first last name =>
    refine inert_quoteTableChars fun c hc => ?_
    obtain ⟨x, hx, hc⟩ := List.mem_flatMap.mp hc
    split at hc
    · exact hplain c hc
    · exact List.mem_singleton.mp hc ▸ bracketless_inner _ x hx
  | column name => exact inert_quoteColumnChars (bracketless_inner (.column name))

/-! ## Expansion from the left -/

/-- A text and what it is expanded to. -/
inductive Expands (d : Dialect) (tablePrefix : List Char) : List Char → List Char → Prop
  | nil : Expands d tablePrefix [] []
  | token (tok : Token) {s out : List Char} (rest : Expands d tablePrefix s out) :
      Expands d tablePrefix (tok.text ++ s) (tok.expansion d tablePrefix ++ out)
  | keep {c : Char} {s out : List Char} (hhead : ∀ tok : Token, ¬tok.text <+: c :: s)
      (rest : Expands d tablePrefix s out) : Expands d tablePrefix (c :: s) (c :: out)

theorem expands_expandTokens (d : Dialect) (tablePrefix s : List Char) :
    Expands d tablePrefix s (d.expandTokens tablePrefix 0 s) := by
  match s with
  | [] => exact .nil
  | c :: s =>
    by_cases htok : ∃ tok : Token, tok.text <+: c :: s
    · obtain ⟨tok, u, hs⟩ := htok
      have hlt : u.length < s.length + 1 := by
        rw [← List.length_cons, ← hs, List.length_append]
        simp [text]
      rw [← hs, expandTokens_head]
      exact .token tok (expands_expandTokens d tablePrefix u)
    · have hhead : ∀ tok : Token, ¬tok.text <+: c :: s := fun tok h => htok ⟨tok, h⟩
      rw [expandTokens_cons fun tok u h => hhead tok ⟨u, h.symm⟩]
      exact .keep hhead (expands_expandTokens d tablePrefix s)
termination_by s.length
decreasing_by
  · simpa using hlt
  · exact Nat.lt_succ_self s.length

namespace Expands

variable {out : List Char}

/-- What is left of a token from some place on begins an expanded text only if it began the text. -/
theorem isPrefix (hplain : Bracketless tablePrefix) (h : Expands d tablePrefix s out) :
    ∀ {t : List Char}, t <:+ tok.text → t <+: out → t <+: s := by
  induction h with
  | nil => exact fun _ h => h
  | token tok' rest ih =>
    intro t ht hout
    by_cases hne : t = []
    · exact hne ▸ List.nil_prefix
    · exact absurd hout ((inert_expansion hplain tok').not_isPrefix ht hne)
  | @keep c s out hhead rest ih =>
    intro t ht hout
    cases t with
    | nil => exact List.nil_prefix
    | cons x t =>
      rw [List.cons_prefix_cons] at hout ⊢
      exact ⟨hout.1, ih ((List.suffix_cons x t).trans ht) hout.2⟩

/-- No token is left in an expanded text. -/
theorem not_hasToken (hplain : Bracketless tablePrefix) (h : Expands d tablePrefix s out) :
    ¬HasToken out := by
  induction h with
  | nil =>
    rintro ⟨a, tok, b, h⟩
    simp [text] at h
  | token tok rest ih =>
    rwa [hasToken_append_of_bracketless (inert_expansion hplain tok).bracketless]
  | @keep c s out hhead rest ih =>
    rw [hasToken_cons]
    rintro (⟨tok, b, hout⟩ | hout)
    -- a token at this place would have been there before what follows was expanded
    · exact hhead tok ((Expands.keep hhead rest).isPrefix hplain List.suffix_rfl ⟨b, hout.symm⟩)
    · exact ih hout

/-- A text without tokens is kept. -/
theorem eq_self (h : Expands d tablePrefix s out) (hnone : ¬HasToken s) : out = s := by
  induction h with
  | nil => rfl
  | token tok rest ih => exact absurd ⟨[], tok, _, rfl⟩ hnone
  | keep hhead rest ih =>
    rw [ih fun hs => hnone (hasToken_cons.mpr (.inr hs))]

end Expands

end Token

open Token

namespace Dialect

/-- Expanding the tokens of a text is complete, whatever prefix without brackets the tables have. No
token is left, neither one of the text nor one that comes about where a name is put in, so that
expanding the text again changes nothing. Exactly the texts without tokens stay as they are. -/
theorem quoteTokens_complete (d : Dialect) (tablePrefix sql : String)
    (hplain : Bracketless tablePrefix.toList) :
    ¬HasToken (d.quoteTokens tablePrefix sql).toList ∧
      d.quoteTokens tablePrefix (d.quoteTokens tablePrefix sql) = d.quoteTokens tablePrefix sql ∧
      (d.quoteTokens tablePrefix sql = sql ↔ ¬HasToken sql.toList) := by
  have hkept : ∀ {x : String}, ¬HasToken x.toList → d.quoteTokens tablePrefix x = x := by
    intro x hx
    rw [quoteTokens, (expands_expandTokens d tablePrefix.toList x.toList).eq_self hx,
      String.ofList_toList]
  have hnone : ¬HasToken (d.quoteTokens tablePrefix sql).toList := by
    rw [quoteTokens, String.toList_ofList]
    exact (expands_expandTokens d tablePrefix.toList sql.toList).not_hasToken hplain
  exact ⟨hnone, hkept hnone, fun h => h ▸ hnone, hkept⟩

/-- Tokens between brackets that are left over. The prefix of the tables is no word. -/
theorem leftoverBrackets_complete :
    Dialect.mysql.quoteTokens "(" "\x7b\x7b\x7b\x7b%a\x7d\x7d\x7d\x7d [[[[b]]" =
        "\x7b\x7b(a\x7d\x7d [[\x60b\x60" ∧
      Dialect.mysql.quoteTokens "(" "\x7b\x7b(a\x7d\x7d [[\x60b\x60" =
        "\x7b\x7b(a\x7d\x7d [[\x60b\x60" := by
  have hplain : Bracketless "(".toList := by simp [Bracketless, brackets]
  obtain ⟨-, hagain, -⟩ := quoteTokens_complete .mysql "("
    "\x7b\x7b\x7b\x7b%a\x7d\x7d\x7d\x7d [[[[b]]" hplain
  have hexpanded : Dialect.mysql.quoteTokens "(" "\x7b\x7b\x7b\x7b%a\x7d\x7d\x7d\x7d [[[[b]]" =
      "\x7b\x7b(a\x7d\x7d [[\x60b\x60" := by decide
  rw [hexpanded] at hagain
  exact ⟨hexpanded, hagain⟩

end Dialect

end QueryKit
