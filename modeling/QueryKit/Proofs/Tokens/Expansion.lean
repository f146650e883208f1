import Mathlib.Data.List.TakeWhile
import QueryKit.Proofs.Placeholder.Quoting
import QueryKit.Proofs.Text.Delimited

/-!
# Tokens in statement text

- `Token`: a table token or a column token, with its text and with the quoted name that it stands for.
  `Dialect.expandToken` finds exactly these (`expandToken_text`, `expandToken_some`).
- `Token.Apart`: texts that no token from the text in front of them reaches into. What is in front of
  such a text is expanded by itself (`expandTokens_append`).
- `expandTokens_text`: every token of a text is expanded, whatever stands around it.
- `HasToken`: exactly the texts that hold a token are changed, if the prefix of tables is a word
  (`expandTokens_eq_self_iff`).
-/

namespace QueryKit

/-- The name in a token. -/
def TokenName : Type :=
  { s : List Char // s ≠ [] ∧ ∀ c ∈ s, Dialect.isTokenChar c = true }

/-- A token of a statement. The name of a table may stand between percent signs. -/
inductive Token where
  | table (first last : Bool) (name : TokenName)
  | column (name : TokenName)

namespace Token

def percent (b : Bool) : List Char :=
  if b then ['%'] else []

/-- The bracket with which a token opens. -/
def opening : Token → Char
  | table _ _ _ => '\x7b'
  | column _ => '['

def closing : Token → Char
  | table _ _ _ => '\x7d'
  | column _ => ']'

/-- What stands between the brackets. -/
def inner : Token → List Char
  | table first last name => percent first ++ name.1 ++ percent last
  | column name => name.1

/-- A token as it is written. -/
def text (tok : Token) : List Char :=
  tok.opening :: tok.opening :: (tok.inner ++ [tok.closing, tok.closing])

/-- The quoted name that a token stands for. -/
def expansion (d : Dialect) (tablePrefix : List Char) (tok : Token) : List Char :=
  match tok with
  | table _ _ _ => d.quoteTableChars (Text.replaceChar '%' tablePrefix tok.inner)
  | column name => d.quoteColumnChars name.1

variable {tok : Token} {c x : Char}

theorem ne_of_isTokenChar (hc : Dialect.isTokenChar c = true)
    (hx : Dialect.isTokenChar x = false) : c ≠ x := by
  rintro rfl
  exact Bool.false_ne_true (hx.symm.trans hc)

theorem isTokenChar_of_mem_inner (h : c ∈ tok.inner) : Dialect.isTokenChar c = true ∨ c = '%' := by
  cases tok with
  | table first last name =>
    rcases List.mem_append.mp h with h | h
    · rcases List.mem_append.mp h with h | h
      · cases first with
        | false => cases h
        | true => exact .inr (List.mem_singleton.mp h)
      · exact .inl (name.2.2 c h)
    · cases last with
      | false => cases h
      | true => exact .inr (List.mem_singleton.mp h)
  | column name => exact .inl (name.2.2 c h)

/-- A character that stands in no token. -/
def isOutside (c : Char) : Bool :=
  !(Dialect.isTokenChar c || c == '%' || c == '\x7b' || c == '\x7d' || c == '[' || c == ']')

theorem not_mem_text (tok : Token) (h : isOutside c = true) : c ∉ tok.text := by
  simp only [isOutside, Bool.not_eq_true', Bool.or_eq_false_iff, beq_eq_false_iff_ne] at h
  obtain ⟨⟨⟨⟨⟨htoken, hpercent⟩, hbrace⟩, hbrace'⟩, hbracket⟩, hbracket'⟩ := h
  have hopening : c ≠ tok.opening := by cases tok <;> assumption
  have hclosing : c ≠ tok.closing := by cases tok <;> assumption
  have hinner : c ∉ tok.inner := fun hc => by
    rcases isTokenChar_of_mem_inner hc with hc | hc
    · exact Bool.false_ne_true (htoken.symm.trans hc)
    · exact hpercent hc
  simp [text, hopening, hclosing, hinner]

/-- Brackets apart, a token holds what stands between them. -/
theorem mem_text_iff (h : c ∉ ['\x7b', '\x7d', '[', ']']) : c ∈ tok.text ↔ c ∈ tok.inner := by
  simp only [List.mem_cons, List.not_mem_nil, or_false, not_or] at h
  cases tok <;> simp [text, opening, closing, h]

theorem not_bracket_of_mem_inner (h : c ∈ tok.inner) :
    c ≠ '\x7b' ∧ c ≠ '\x7d' ∧ c ≠ '[' ∧ c ≠ ']' := by
  rcases isTokenChar_of_mem_inner h with hc | rfl
  · exact ⟨ne_of_isTokenChar hc (by decide), ne_of_isTokenChar hc (by decide),
      ne_of_isTokenChar hc (by decide), ne_of_isTokenChar hc (by decide)⟩
  · decide

theorem not_contains_text (tok : Token) (h : isOutside c = true) : tok.text.contains c = false := by
  rw [Bool.eq_false_iff]
  exact fun hc => not_mem_text tok h (List.contains_iff_mem.mp hc)

/-! ## Reading a token -/

theorem takeWhile_stops {p : Char → Bool} {s u : List Char} (hs : ∀ c ∈ s, p c = true)
    (hu : Stops p u) : (s ++ u).takeWhile p = s ∧ (s ++ u).dropWhile p = u := by
  induction s with
  | nil =>
    cases u with
    | nil => exact ⟨rfl, rfl⟩
    | cons c u => simp [hu.head]
  | cons c s ih =>
    obtain ⟨hc, hs⟩ := List.forall_mem_cons.mp hs
    obtain ⟨htake, hdrop⟩ := ih hs
    simp [hc, htake, hdrop]

theorem spanPercent_percent (b : Bool) {s : List Char} (hs : s.head? ≠ some '%') :
    Dialect.spanPercent (percent b ++ s) = (percent b, s) := by
  cases b with
  | true => rfl
  | false =>
    cases s with
    | nil => rfl
    | cons c s =>
      have hc : c ≠ '%' := fun h => hs (congrArg some h)
      unfold percent Dialect.spanPercent
      simp only [Bool.false_eq_true, if_false, List.nil_append]
      split
      · next h => exact absurd (List.cons.inj h).1 hc
      · rfl

theorem spanPercent_eq (s : List Char) :
    ∃ b, (Dialect.spanPercent s).1 = percent b ∧ s = percent b ++ (Dialect.spanPercent s).2 := by
  unfold Dialect.spanPercent
  split
  · exact ⟨true, rfl, rfl⟩
  · exact ⟨false, rfl, rfl⟩

theorem tableToken_text (first last : Bool) (name : TokenName) (t : List Char) :
    Dialect.tableToken ((table first last name).text ++ t) =
      some (percent first ++ name.1 ++ percent last) := by
  have hclosed : (Dialect.spanPercent (percent last ++ '\x7d' :: '\x7d' :: t)) =
      (percent last, '\x7d' :: '\x7d' :: t) := spanPercent_percent last (by simp)
  obtain ⟨htake, hdrop⟩ := takeWhile_stops (u := percent last ++ '\x7d' :: '\x7d' :: t) name.2.2
    (by cases last <;> exact stops_cons (by decide))
  have hfirst : Dialect.spanPercent
      (percent first ++ (name.1 ++ (percent last ++ '\x7d' :: '\x7d' :: t))) =
        (percent first, name.1 ++ (percent last ++ '\x7d' :: '\x7d' :: t)) := by
    obtain ⟨c, r, hname⟩ := List.exists_cons_of_ne_nil name.2.1
    have hc : c ≠ '%' := ne_of_isTokenChar (name.2.2 c (hname ▸ List.mem_cons_self)) (by decide)
    exact spanPercent_percent first (by rw [hname]; simpa using hc)
  have hopen : Text.dropText Dialect.openBraces ((table first last name).text ++ t) =
      some (percent first ++ (name.1 ++ (percent last ++ '\x7d' :: '\x7d' :: t))) := by
    simp [Dialect.openBraces, text, opening, closing, inner, Text.dropText]
  have hclose : Text.dropText ['\x7d', '\x7d'] ('\x7d' :: '\x7d' :: t) = some t := rfl
  unfold Dialect.tableToken
  simp only [Option.bind_eq_bind, hopen, Option.bind_some, hfirst, htake, hdrop, hclosed, hclose]
  rw [List.isEmpty_eq_false_iff.mpr name.2.1]
  rfl

theorem columnToken_text (name : TokenName) (t : List Char) :
    Dialect.columnToken ((column name).text ++ t) = some name.1 := by
  obtain ⟨htake, hdrop⟩ := takeWhile_stops (u := ']' :: ']' :: t) name.2.2
    (stops_cons (by decide))
  have hopen : Text.dropText ['[', '['] ((column name).text ++ t) =
      some (name.1 ++ ']' :: ']' :: t) := by
    simp [text, opening, closing, inner, Text.dropText]
  have hclose : Text.dropText [']', ']'] (']' :: ']' :: t) = some t := rfl
  unfold Dialect.columnToken
  simp only [Option.bind_eq_bind, hopen, Option.bind_some, htake, hdrop, hclose]
  rw [List.isEmpty_eq_false_iff.mpr name.2.1]
  rfl

/-- A token at the start of a text is found. -/
theorem expandToken_text (d : Dialect) (tablePrefix : List Char) (tok : Token) (t : List Char) :
    d.expandToken tablePrefix (tok.text ++ t) =
      some (tok.expansion d tablePrefix, tok.text.length) := by
  cases tok with
  | table first last name =>
    rw [Dialect.expandToken, tableToken_text]
    simp [expansion, inner, text, Nat.add_assoc]
  | column name =>
    have htable : Dialect.tableToken ((column name).text ++ t) = none := by
      simp [Dialect.tableToken, Dialect.openBraces, text, opening, Text.dropText]
    rw [Dialect.expandToken, htable, columnToken_text]
    simp [expansion, inner, text]

theorem tableToken_some {s found : List Char} (h : Dialect.tableToken s = some found) :
    ∃ first last name t, s = (table first last name).text ++ t ∧
      found = (table first last name).inner := by
  simp only [Dialect.tableToken, Option.bind_eq_bind, Option.bind_eq_some_iff] at h
  obtain ⟨r, hopen, r', hclose, h⟩ := h
  split at h
  · cases h
  · next hname =>
    obtain ⟨first, hfirst, hr⟩ := spanPercent_eq r
    obtain ⟨last, hlast, hr'⟩ :=
      spanPercent_eq ((Dialect.spanPercent r).2.dropWhile Dialect.isTokenChar)
    have hsplit := List.takeWhile_append_dropWhile (p := Dialect.isTokenChar)
      (l := (Dialect.spanPercent r).2)
    obtain ⟨name, hname⟩ : ∃ name : TokenName,
        name.1 = (Dialect.spanPercent r).2.takeWhile Dialect.isTokenChar :=
      ⟨⟨_, by simpa using hname, fun c hc => List.mem_takeWhile_imp hc⟩, rfl⟩
    rw [← hname] at hsplit h
    refine ⟨first, last, name, r', ?_, ?_⟩
    · rw [Text.dropText_eq_some.mp hopen, hr, ← hsplit, hr', Text.dropText_eq_some.mp hclose]
      simp [Dialect.openBraces, text, opening, closing, inner]
    · rw [← Option.some.inj h, hfirst, hlast]
      rfl

theorem columnToken_some {s found : List Char} (h : Dialect.columnToken s = some found) :
    ∃ name t, s = (column name).text ++ t ∧ found = name.1 := by
  simp only [Dialect.columnToken, Option.bind_eq_bind, Option.bind_eq_some_iff] at h
  obtain ⟨r, hopen, r', hclose, h⟩ := h
  split at h
  · cases h
  · next hname =>
    have hsplit := List.takeWhile_append_dropWhile (p := Dialect.isTokenChar) (l := r)
    obtain ⟨name, hname⟩ : ∃ name : TokenName, name.1 = r.takeWhile Dialect.isTokenChar :=
      ⟨⟨_, by simpa using hname, fun c hc => List.mem_takeWhile_imp hc⟩, rfl⟩
    rw [← hname] at hsplit h
    refine ⟨name, r', ?_, (Option.some.inj h).symm⟩
    rw [Text.dropText_eq_some.mp hopen, ← hsplit, Text.dropText_eq_some.mp hclose]
    simp [text, opening, closing, inner]

/-- What is found at the start of a text is a token. -/
theorem expandToken_some {d : Dialect} {tablePrefix s x : List Char} {n : Nat}
    (h : d.expandToken tablePrefix s = some (x, n)) :
    ∃ (tok : Token) (t : List Char), s = tok.text ++ t := by
  unfold Dialect.expandToken at h
  split at h
  · next htable =>
    obtain ⟨first, last, name, t, hs, -⟩ := tableToken_some htable
    exact ⟨_, t, hs⟩
  · split at h
    · next hcolumn =>
      obtain ⟨name, t, hs, -⟩ := columnToken_some hcolumn
      exact ⟨_, t, hs⟩
    · cases h

/-! ## Texts around a token -/

/-- No token that begins in front of the text reaches into it. -/
def Apart (t : List Char) : Prop :=
  ∀ (s v : List Char) (tok : Token), s ≠ [] → s ++ t = tok.text ++ v → ∃ u, s = tok.text ++ u

theorem Apart.nil : Apart [] :=
  fun s v _ _ h => ⟨v, (List.append_nil s).symm.trans h⟩

/-- A text is apart if no token can end in a start of it. -/
theorem Apart.of_starts {t : List Char}
    (h : ∀ (s u v : List Char) (tok : Token), s ≠ [] → u ≠ [] → t = u ++ v → tok.text ≠ s ++ u) :
    Apart t := by
  intro s v tok hs htext
  rcases List.append_eq_append_iff.mp htext with ⟨u, hu, ht⟩ | ⟨u, hu, -⟩
  · by_cases hnil : u = []
    · exact ⟨[], by rw [hu, hnil, List.append_nil, List.append_nil]⟩
    · exact absurd hu (h s u v tok hs hnil ht)
  · exact ⟨u, hu⟩

/-- A character that stands in no token keeps the texts on both sides of it apart. -/
theorem Apart.outside {c : Char} {t : List Char} (h : isOutside c = true) : Apart (c :: t) := by
  refine .of_starts fun s u v tok _ hu ht htext => ?_
  obtain ⟨d, u, rfl⟩ := List.exists_cons_of_ne_nil hu
  obtain ⟨rfl, -⟩ := List.cons.inj ht
  exact not_mem_text tok h (htext ▸ List.mem_append_right s List.mem_cons_self)

/-- Two opening brackets do not stand within a token. -/
theorem Apart.opening {o : Char} {t : List Char} (h : o = '\x7b' ∨ o = '[') :
    Apart (o :: o :: t) := by
  -- behind its own brackets a token holds no other opening one
  have hinner : ∀ tok : Token, o ∉ tok.inner ++ [tok.closing, tok.closing] := by
    intro tok hmem
    rcases List.mem_append.mp hmem with hmem | hmem
    · obtain ⟨hbrace, -, hbracket, -⟩ := not_bracket_of_mem_inner hmem
      exact h.elim hbrace hbracket
    · cases tok <;> rcases h with rfl | rfl <;> simp [closing] at hmem
  refine .of_starts fun s u v tok hs hu ht htext => ?_
  obtain ⟨d, u, rfl⟩ := List.exists_cons_of_ne_nil hu
  obtain ⟨c, s, rfl⟩ := List.exists_cons_of_ne_nil hs
  obtain ⟨rfl, hsecond⟩ := List.cons.inj ht
  have hrest := (List.cons.inj htext).2
  cases s with
  | cons c' s =>
    refine hinner tok ?_
    rw [(List.cons.inj hrest).2]
    exact List.mem_append_right s List.mem_cons_self
  | nil =>
    obtain ⟨-, hu⟩ := List.cons.inj hrest
    refine hinner tok ?_
    rw [hu]
    cases u with
    | nil => simp at hu
    | cons d u =>
      have hd : o = d := (List.cons.inj hsecond).1
      exact hd ▸ List.mem_cons_self

theorem apart_text (tok : Token) (t : List Char) : Apart (tok.text ++ t) := by
  cases tok with
  | table first last name => exact .opening (.inl rfl)
  | column name => exact .opening (.inr rfl)

variable {d : Dialect} {tablePrefix : List Char}

theorem expandTokens_skip (s t : List Char) :
    d.expandTokens tablePrefix s.length (s ++ t) = d.expandTokens tablePrefix 0 t := by
  induction s with
  | nil => rfl
  | cons c s ih => exact ih

/-- A token at the start of a text is expanded. -/
theorem expandTokens_head (tok : Token) (t : List Char) :
    d.expandTokens tablePrefix 0 (tok.text ++ t) =
      tok.expansion d tablePrefix ++ d.expandTokens tablePrefix 0 t := by
  have hfound := expandToken_text d tablePrefix tok t
  rw [text, List.cons_append] at hfound ⊢
  rw [Dialect.expandTokens, hfound]
  exact congrArg (_ ++ ·) (expandTokens_skip _ t)

/-- A character that begins no token is kept. -/
theorem expandTokens_cons {s : List Char}
    (h : ∀ (tok : Token) (t : List Char), c :: s ≠ tok.text ++ t) :
    d.expandTokens tablePrefix 0 (c :: s) = c :: d.expandTokens tablePrefix 0 s := by
  rw [Dialect.expandTokens]
  split
  · next hfound =>
    obtain ⟨tok, t, hs⟩ := expandToken_some hfound
    exact absurd hs (h tok t)
  · rfl

/-- What stands in front of a text that is apart is expanded by itself. -/
theorem expandTokens_append {t : List Char} (ht : Apart t) (s : List Char) :
    d.expandTokens tablePrefix 0 (s ++ t) =
      d.expandTokens tablePrefix 0 s ++ d.expandTokens tablePrefix 0 t := by
  match s with
  | [] => rfl
  | c :: s =>
    by_cases htok : ∃ (tok : Token) (u : List Char), c :: s = tok.text ++ u
    · obtain ⟨tok, u, hs⟩ := htok
      have hlt : u.length < s.length + 1 := by
        rw [← List.length_cons, hs, List.length_append]
        simp [text]
      rw [hs, List.append_assoc, expandTokens_head, expandTokens_head, expandTokens_append ht u,
        List.append_assoc]
    · have hhead : ∀ (tok : Token) (u : List Char), c :: s ≠ tok.text ++ u :=
        fun tok u hu => htok ⟨tok, u, hu⟩
      have hnone : ∀ (tok : Token) (v : List Char), c :: (s ++ t) ≠ tok.text ++ v := by
        intro tok v hv
        obtain ⟨u, hu⟩ := ht (c :: s) v tok (List.cons_ne_nil c s) hv
        exact hhead tok u hu
      rw [List.cons_append, expandTokens_cons hnone, expandTokens_cons hhead,
        expandTokens_append ht s]
      rfl
termination_by s.length
decreasing_by
  · simpa using hlt
  · exact Nat.lt_succ_self s.length

/-- Every token of a text is expanded, whatever stands around it. -/
theorem expandTokens_text (a : List Char) (tok : Token) (b : List Char) :
    d.expandTokens tablePrefix 0 (a ++ (tok.text ++ b)) =
      d.expandTokens tablePrefix 0 a ++
        (tok.expansion d tablePrefix ++ d.expandTokens tablePrefix 0 b) := by
  rw [expandTokens_append (apart_text tok b), expandTokens_head]

/-! ## The names that tokens stand for -/

/-- A text that could be the name in a token. -/
def IsName (s : List Char) : Prop :=
  ∀ c ∈ s, Dialect.isTokenChar c = true

theorem isOutside_quoteChar (d : Dialect) : isOutside d.quoteChar = true := by
  have hcases : d.quoteChar = '"' ∨ d.quoteChar = '\x60' := by cases d <;> simp [Dialect.quoteChar]
  rcases hcases with h | h <;> rw [h] <;> decide

theorem isTokenChar_quoteChar (d : Dialect) : Dialect.isTokenChar d.quoteChar = false := by
  have h := isOutside_quoteChar d
  simp only [isOutside, Bool.not_eq_true', Bool.or_eq_false_iff] at h
  exact h.1.1.1.1.1

theorem mem_of_hasText {o : Char} {t : List Char} : ∀ {s : List Char},
    Text.hasText (o :: t) s = true → o ∈ s
  | [], h => by cases h
  | c :: s, h => by
    rw [Text.hasText, Bool.or_eq_true, Option.isSome_iff_exists] at h
    rcases h with ⟨rest, h⟩ | h
    · rw [Text.dropText_eq_some.mp h]
      exact List.mem_cons_self
    · exact List.mem_cons_of_mem c (mem_of_hasText h)

/-- The opening brackets of the other tokens do not stand in a token. -/
theorem not_hasText_text {o : Char} {t : List Char} (ho : o = '\x7b' ∨ o = '[')
    (h : o ≠ tok.opening) : Text.hasText (o :: t) tok.text = false := by
  rw [Bool.eq_false_iff]
  intro htext
  have hmem : o ∈ tok.opening :: tok.opening :: (tok.inner ++ [tok.closing, tok.closing]) :=
    mem_of_hasText htext
  have hinner : o ∉ tok.inner := fun hmem => by
    obtain ⟨hbrace, -, hbracket, -⟩ := not_bracket_of_mem_inner hmem
    exact ho.elim hbrace hbracket
  have hclosing : o ≠ tok.closing := by
    rcases ho with rfl | rfl <;> cases tok <;> simp [closing]
  simp [h, hinner, hclosing] at hmem

/-- A part without the quote is put in quotes. -/
theorem quoteTablePart_of_not_mem {d : Dialect} {p : List Char} (h : d.quoteChar ∉ p) :
    d.quoteTablePart p = d.inQuotes p := by
  rw [Dialect.quoteTablePart, if_neg fun hc => h (List.contains_iff_mem.mp hc)]

theorem quoteColumnPart_of_not_mem {d : Dialect} {p : List Char} (h : d.quoteChar ∉ p)
    (hstar : p ≠ ['*']) : d.quoteColumnPart p = d.inQuotes p := by
  have hcontains : p.contains d.quoteChar = false :=
    Bool.eq_false_iff.mpr fun hc => h (List.contains_iff_mem.mp hc)
  rw [Dialect.quoteColumnPart, hcontains]
  simp [hstar]

theorem intercalate_cons (separator part : List Char) (parts : List (List Char)) :
    ∃ rest, separator.intercalate (part :: parts) = part ++ rest := by
  cases parts with
  | nil => exact ⟨[], by simp⟩
  | cons next parts =>
    exact ⟨_, by rw [List.intercalate_cons_cons, List.append_assoc]⟩

namespace IsName

variable {s : List Char}

theorem not_mem (h : IsName s) {x : Char} (hx : Dialect.isTokenChar x = false) : x ∉ s :=
  fun hmem => ne_of_isTokenChar (h x hmem) hx rfl

theorem not_contains (h : IsName s) {x : Char} (hx : Dialect.isTokenChar x = false) :
    s.contains x = false := by
  rw [Bool.eq_false_iff]
  exact fun hc => h.not_mem hx (List.contains_iff_mem.mp hc)

theorem not_hasText (h : IsName s) {o : Char} {t : List Char} (ho : Dialect.isTokenChar o = false) :
    Text.hasText (o :: t) s = false := by
  rw [Bool.eq_false_iff]
  exact fun ht => h.not_mem ho (mem_of_hasText ht)

theorem subset {t : List Char} (h : IsName s) (ht : t ⊆ s) : IsName t :=
  fun c hc => h c (ht hc)

/-- The first part of a table name is put in quotes. -/
theorem quoteTableChars (h : IsName s) (d : Dialect) :
    ∃ p rest, IsName p ∧ d.quoteTableChars s = d.inQuotes p ++ rest := by
  obtain ⟨p, parts, hparts⟩ := List.exists_cons_of_ne_nil (Text.cutAt_ne_nil (c := '.') (s := s))
  have hp : IsName p := h.subset (Text.subset_of_mem_cutAt (hparts ▸ List.mem_cons_self))
  have hquoted : d.quoteTablePart p = d.inQuotes p :=
    quoteTablePart_of_not_mem (hp.not_mem (isTokenChar_quoteChar d))
  obtain ⟨rest, hrest⟩ := intercalate_cons ['.'] (d.inQuotes p) (parts.map d.quoteTablePart)
  refine ⟨p, rest, hp, ?_⟩
  unfold Dialect.quoteTableChars Dialect.openBraces
  rw [h.not_contains (by decide), h.not_hasText (by decide), hparts, List.map_cons, hquoted]
  exact hrest

/-- A column name without a point is put in quotes. -/
theorem quoteColumnPart (h : IsName s) (d : Dialect) : d.quoteColumnPart s = d.inQuotes s := by
  have hstar : s ≠ ['*'] := by
    rintro rfl
    exact h.not_mem (x := '*') (by decide) List.mem_cons_self
  exact quoteColumnPart_of_not_mem (h.not_mem (isTokenChar_quoteChar d)) hstar

theorem quoteColumnChars_of_not_mem (h : IsName s) (hdot : '.' ∉ s) (d : Dialect) :
    d.quoteColumnChars s = d.inQuotes s := by
  have hlast : Text.splitLast '.' s = none := by
    cases hsplit : Text.splitLast '.' s with
    | none => rfl
    | some r => exact absurd (by rw [(Text.splitLast_some hsplit).1]; simp) hdot
  unfold Dialect.quoteColumnChars Dialect.openBraces
  rw [h.not_contains (by decide), h.not_hasText (by decide), hlast]
  simp only [Bool.or_false, Bool.false_eq_true, if_false, h.not_hasText (o := '\x7b') (by decide)]
  exact h.quoteColumnPart d

/-- The first part of a column name is put in quotes. -/
theorem quoteColumnChars (h : IsName s) (d : Dialect) :
    ∃ p rest, IsName p ∧ d.quoteColumnChars s = d.inQuotes p ++ rest := by
  cases hsplit : Text.splitLast '.' s with
  | none =>
    have hdot := Text.splitLast_none hsplit
    exact ⟨s, [], h, by rw [h.quoteColumnChars_of_not_mem hdot, List.append_nil]⟩
  | some r =>
    obtain ⟨table, column⟩ := r
    obtain ⟨hs, -⟩ := Text.splitLast_some hsplit
    have htable : IsName table := h.subset (by rw [hs]; simp)
    have hcolumn : IsName column := h.subset (by rw [hs]; simp)
    obtain ⟨p, rest, hp, hquoted⟩ := htable.quoteTableChars d
    unfold Dialect.quoteColumnChars Dialect.openBraces
    rw [h.not_contains (by decide), h.not_hasText (by decide), hsplit]
    simp only [Bool.or_false, Bool.false_eq_true, if_false,
      hcolumn.not_hasText (o := '\x7b') (by decide), hquoted]
    exact ⟨p, _, hp, List.append_assoc _ _ _⟩

end IsName

/-- A quoted name begins with a quote, behind which there is a quote or a character of a name. -/
theorem expansion_eq (d : Dialect) {tablePrefix : List Char}
    (hword : ∀ c ∈ tablePrefix, Text.isWord c = true) (tok : Token) :
    ∃ p rest, IsName p ∧ tok.expansion d tablePrefix = d.inQuotes p ++ rest := by
  cases tok with
  | column name => exact IsName.quoteColumnChars name.2.2 d
  | table first last name =>
    refine IsName.quoteTableChars (fun c hc => ?_) d
    obtain ⟨x, hx, hc⟩ := List.mem_flatMap.mp hc
    split at hc
    · simp [Dialect.isTokenChar, hword c hc]
    · next hpercent =>
      rw [List.mem_singleton.mp hc]
      exact (isTokenChar_of_mem_inner hx).resolve_right hpercent

theorem expansion_cons (d : Dialect) {tablePrefix : List Char}
    (hword : ∀ c ∈ tablePrefix, Text.isWord c = true) (tok : Token) :
    ∃ c rest, tok.expansion d tablePrefix = d.quoteChar :: c :: rest ∧
      (Dialect.isTokenChar c = true ∨ c = d.quoteChar) := by
  obtain ⟨p, rest, hp, hexpansion⟩ := tok.expansion_eq d hword
  cases p with
  | nil => exact ⟨d.quoteChar, rest, hexpansion, .inr rfl⟩
  | cons c p =>
    exact ⟨c, _, hexpansion, .inl (hp c List.mem_cons_self)⟩

end Token

open Token

/-- A token stands somewhere in the text. -/
def HasToken (s : List Char) : Prop :=
  ∃ (a : List Char) (tok : Token) (b : List Char), s = a ++ (tok.text ++ b)

theorem hasToken_cons {c : Char} {s : List Char} :
    HasToken (c :: s) ↔ (∃ (tok : Token) (b : List Char), c :: s = tok.text ++ b) ∨ HasToken s := by
  constructor
  · rintro ⟨a, tok, b, h⟩
    cases a with
    | nil => exact .inl ⟨tok, b, h⟩
    | cons d a => exact .inr ⟨a, tok, b, (List.cons.inj h).2⟩
  · rintro (⟨tok, b, h⟩ | ⟨a, tok, b, h⟩)
    · exact ⟨[], tok, b, h⟩
    · exact ⟨c :: a, tok, b, congrArg (c :: ·) h⟩

theorem hasToken_outside {x : Char} {s : List Char} (hx : isOutside x = true) :
    HasToken (x :: s) ↔ HasToken s := by
  rw [hasToken_cons]
  refine or_iff_right ?_
  rintro ⟨tok, b, h⟩
  refine not_mem_text tok hx ?_
  rw [(List.cons.inj h).1]
  exact List.mem_cons_self

theorem hasToken_concat {x : Char} {s : List Char} (hx : isOutside x = true) :
    HasToken (s ++ [x]) ↔ HasToken s := by
  constructor
  · rintro ⟨a, tok, b, h⟩
    rcases List.eq_nil_or_concat b with rfl | ⟨b, y, rfl⟩
    · have hlast : s ++ [x] =
          (a ++ (tok.opening :: tok.opening :: (tok.inner ++ [tok.closing]))) ++ [tok.closing] := by
        rw [h]
        simp [text]
      have hclosing : x = tok.closing := List.singleton_inj.mp (List.append_inj_right' hlast rfl)
      refine absurd ?_ (not_mem_text tok hx)
      simp [hclosing, text]
    · have hlast : s ++ [x] = (a ++ (tok.text ++ b)) ++ [y] := by
        rw [h]
        simp
      exact ⟨a, tok, b, List.append_inj_left' hlast rfl⟩
  · rintro ⟨a, tok, b, rfl⟩
    exact ⟨a, tok, b ++ [x], by simp⟩

section Doubled

variable {f : Char → List Char} (hf : ∀ c, f c = [c] ∨ isOutside c = true ∧ f c = [c, c])
include hf

/-- A text that could be part of a token begins a text in which other characters are doubled if it
begins the text. -/
theorem isPrefix_doubled : ∀ {t s : List Char}, (∀ x ∈ t, isOutside x = false) →
    (t <+: s.flatMap f ↔ t <+: s)
  | [], _, _ => iff_of_true List.nil_prefix List.nil_prefix
  | _ :: _, [], _ => Iff.rfl
  | x :: t, c :: s, ht => by
    obtain ⟨hx, ht⟩ := List.forall_mem_cons.mp ht
    rw [List.flatMap_cons]
    rcases hf c with hc | ⟨hc, hdouble⟩
    · rw [hc, List.singleton_append, List.cons_prefix_cons, List.cons_prefix_cons,
        isPrefix_doubled ht]
    · have hne : x ≠ c := fun h => Bool.false_ne_true (hx.symm.trans (h ▸ hc))
      rw [hdouble]
      simp [List.cons_prefix_cons, hne]

theorem hasToken_doubled (s : List Char) : HasToken (s.flatMap f) ↔ HasToken s := by
  induction s with
  | nil => rfl
  | cons c s ih =>
    have hhead : (∃ (tok : Token) (b : List Char), (c :: s).flatMap f = tok.text ++ b) ↔
        ∃ (tok : Token) (b : List Char), c :: s = tok.text ++ b := by
      refine exists_congr fun tok => ?_
      have htext : ∀ x ∈ tok.text, isOutside x = false := fun x hx =>
        Bool.eq_false_iff.mpr fun hout => not_mem_text tok hout hx
      simpa only [List.IsPrefix, eq_comm] using isPrefix_doubled hf (s := c :: s) htext
    rw [List.flatMap_cons] at hhead ⊢
    rcases hf c with hc | ⟨hc, hdouble⟩
    · rw [hc, List.singleton_append] at hhead ⊢
      rw [hasToken_cons, hasToken_cons, hhead, ih]
    · rw [hdouble, List.cons_append, List.singleton_append, hasToken_outside hc,
        hasToken_outside hc, hasToken_outside hc, ih]

end Doubled

/-- Exactly the texts without a token stay as they are. -/
theorem expandTokens_eq_self_iff {d : Dialect} {tablePrefix : List Char}
    (hword : ∀ c ∈ tablePrefix, Text.isWord c = true) {s : List Char} :
    d.expandTokens tablePrefix 0 s = s ↔ ¬HasToken s := by
  induction s with
  | nil =>
    refine ⟨fun _ => ?_, fun _ => rfl⟩
    rintro ⟨a, tok, b, h⟩
    simp [text] at h
  | cons c s ih =>
    rw [hasToken_cons]
    by_cases hhead : ∃ (tok : Token) (b : List Char), c :: s = tok.text ++ b
    · obtain ⟨tok, b, hs⟩ := hhead
      refine iff_of_false (fun h => ?_) fun h => h (.inl ⟨tok, b, hs⟩)
      -- a quoted name does not begin with a bracket
      obtain ⟨x, rest, hexpansion, -⟩ := tok.expansion_cons d hword
      rw [hs, expandTokens_head, hexpansion] at h
      refine not_mem_text tok (isOutside_quoteChar d) ?_
      rw [(List.cons.inj h).1]
      exact List.mem_cons_self
    · have hnone : ∀ (tok : Token) (t : List Char), c :: s ≠ tok.text ++ t :=
        fun tok t h => hhead ⟨tok, t, h⟩
      rw [expandTokens_cons hnone, List.cons.injEq, or_iff_right hhead, ← ih]
      exact and_iff_right rfl

end QueryKit
