import QueryKit.Proofs.Boolean.Rendered
import QueryKit.Proofs.Where.Search

/-!
# Reading search conditions

- `CellTest.text`, `Predicate.text`: how predicates are written. `Predicate.read?_text`: they are read
  from their texts, if their columns are in quotes (`Dialect.IsColumnText`).
- `Predicate.finds`: such predicates are found wherever they stand. In particular, no quoted name is
  taken for a word, and a list is not taken for a group.
- `searchTruth_text`: the truth of a text that is written for a normal formula is that of the
  formula.
- `searchTruth_predicate`, `searchTruth_pair`: one predicate, and two of them with a word between
  them.
-/

namespace QueryKit

/-! ## Predicates are found where they stand -/

/-- The text of so many places. -/
def placesText (n : Nat) : String :=
  Text.joinWith ", " (List.replicate n "?")

/-- The word in front of a list of places. -/
def listWord (negated : Bool) : String :=
  if negated then " NOT IN (" else " IN ("

/-- How a test is written behind a column. -/
def CellTest.text : CellTest → String
  | .among negated 1 => if negated then " <> ?" else " = ?"
  | .among negated n => listWord negated ++ placesText n ++ ")"
  | .isNull negated => if negated then " IS NOT NULL" else " IS NULL"

def Predicate.text : Predicate → String
  | .zeroIsOne => "0=1"
  | .cell column test => column ++ test.text

/-- A column that is written in quotes, part by part. -/
def Dialect.IsColumnText (d : Dialect) (column : String) : Prop :=
  ∃ path, path ≠ [] ∧ (∀ part ∈ path, d.quoteChar ∉ part) ∧
    column.toList = ['.'].intercalate (path.map d.inQuotes)

section Found

variable {d : Dialect} {run s rest : List Char} {depth : Nat}

theorem Dialect.dot_ne_quoteChar (d : Dialect) : '.' ≠ d.quoteChar := by
  cases d <;> simp [quoteChar]

theorem Dialect.closing_ne_quoteChar (d : Dialect) : ')' ≠ d.quoteChar := by
  cases d <;> simp [quoteChar]

/-- Inside quotes, characters other than the quote mean nothing. -/
theorem searchFrom_quoted {q : Char} (h : q ∉ s) :
    searchFrom q run depth true (s ++ rest) = searchFrom q (s.reverse ++ run) depth true rest := by
  induction s generalizing run with
  | nil => rfl
  | cons ch s ih =>
    obtain ⟨hch, hs⟩ := List.ne_and_not_mem_of_not_mem_cons h
    have hquoted : (ch != q) = true := bne_iff_ne.mpr (Ne.symm hch)
    rw [List.cons_append, searchFrom, hquoted, ih hs, List.reverse_cons, List.append_assoc]
    rfl

theorem searchFrom_inQuotes (h : d.quoteChar ∉ s) :
    searchFrom d.quoteChar run 0 false (d.inQuotes s ++ rest) =
      searchFrom d.quoteChar ((d.inQuotes s).reverse ++ run) 0 false rest := by
  rw [Dialect.inQuotes, List.cons_append, searchFrom, if_pos rfl, List.append_assoc,
    searchFrom_quoted h, List.singleton_append, searchFrom, bne_self_eq_false]
  simp

/-- A column in quotes is read as a whole. -/
theorem searchFrom_path : ∀ {path : List (List Char)} {run : List Char},
    (∀ part ∈ path, d.quoteChar ∉ part) →
    searchFrom d.quoteChar run 0 false (['.'].intercalate (path.map d.inQuotes) ++ rest) =
      searchFrom d.quoteChar ((['.'].intercalate (path.map d.inQuotes)).reverse ++ run) 0 false rest
  | [], _, _ => rfl
  | [part], run, h => by
    rw [List.map_singleton, List.intercalate_singleton]
    exact searchFrom_inQuotes (h part List.mem_cons_self)
  | part :: next :: path, run, h => by
    obtain ⟨hpart, hpath⟩ := List.forall_mem_cons.mp h
    rw [List.map_cons, List.map_cons, List.intercalate_cons_cons, ← List.map_cons,
      List.append_assoc, List.append_assoc, searchFrom_inQuotes hpart, List.singleton_append,
      searchFrom, if_neg d.dot_ne_quoteChar, if_neg (by decide), if_neg (by decide),
      if_neg (by decide), searchFrom_path hpath]
    simp

/-! The texts of tests -/

theorem placesText_cons (n : Nat) :
    (placesText (n + 2)).toList = '?' :: ',' :: ' ' :: (placesText (n + 1)).toList := by
  change ("?" ++ ", " ++ placesText (n + 1)).toList = _
  rw [String.toList_append]
  rfl

theorem mem_placesText : ∀ {n : Nat} {ch : Char}, ch ∈ (placesText n).toList →
    ch = '?' ∨ ch = ',' ∨ ch = ' '
  | 0, _, h => nomatch h
  | 1, _, h => .inl (List.mem_singleton.mp h)
  | n + 2, ch, h => by
    rw [placesText_cons, List.mem_cons, List.mem_cons, List.mem_cons] at h
    rcases h with h | h | h | h
    · exact .inl h
    · exact .inr (.inl h)
    · exact .inr (.inr h)
    · exact mem_placesText h

/-- Inside the parentheses of a list, all but quotes and parentheses is read on. -/
theorem searchFrom_list {q : Char} (h : ∀ ch ∈ s, ch ≠ q ∧ ch ≠ '(' ∧ ch ≠ ')') :
    searchFrom q run (depth + 1) false (s ++ rest) =
      searchFrom q (s.reverse ++ run) (depth + 1) false rest := by
  induction s generalizing run with
  | nil => rfl
  | cons ch s ih =>
    obtain ⟨⟨hq, ho, hc⟩, hs⟩ := List.forall_mem_cons.mp h
    rw [List.cons_append, searchFrom, if_neg hq, if_neg ho, if_neg hc, ih hs, List.reverse_cons,
      List.append_assoc]
    rfl

theorem CellTest.text_list {negated : Bool} {places : Nat} (h : places ≠ 1) :
    (among negated places).text = listWord negated ++ placesText places ++ ")" := by
  match places with
  | 0 | _ + 2 => rfl

/-- The shapes in which a test is written: a test for null, a comparison and a list. -/
theorem CellTest.shape_cases {motive : CellTest → Prop}
    (isNull : ∀ negated, motive (.isNull negated)) (one : ∀ negated, motive (.among negated 1))
    (list : ∀ negated places, places ≠ 1 → motive (.among negated places)) : ∀ test, motive test
  | .isNull negated => isNull negated
  | .among negated places => by
    by_cases hone : places = 1
    · rw [hone]
      exact one negated
    · exact list negated places hone

/-- A test is read as a whole behind a column in quotes. -/
theorem searchFrom_test (test : CellTest) :
    searchFrom d.quoteChar (d.quoteChar :: run) 0 false (test.text.toList ++ rest) =
      searchFrom d.quoteChar (test.text.toList.reverse ++ d.quoteChar :: run) 0 false rest := by
  cases test using CellTest.shape_cases with
  | isNull negated => cases negated <;> cases d <;> rfl
  | one negated => cases negated <;> cases d <;> rfl
  | list negated places hone =>
    -- the word up to its parenthesis, the places in the list, and the parenthesis behind them
    have hword : ∀ t, searchFrom d.quoteChar (d.quoteChar :: run) 0 false
        ((listWord negated).toList ++ t) =
        searchFrom d.quoteChar ((listWord negated).toList.reverse ++ d.quoteChar :: run) 1 false
          t := by
      intro t
      cases negated <;> cases d <;> rfl
    have hplaces : ∀ ch ∈ (placesText places).toList,
        ch ≠ d.quoteChar ∧ ch ≠ '(' ∧ ch ≠ ')' := by
      intro ch hch
      rcases mem_placesText hch with rfl | rfl | rfl <;> cases d <;> simp [Dialect.quoteChar]
    rw [CellTest.text_list hone, String.toList_append, String.toList_append, List.append_assoc,
      List.append_assoc, hword, searchFrom_list hplaces]
    change searchFrom _ _ 1 false (')' :: rest) = _
    rw [searchFrom, if_neg d.closing_ne_quoteChar, if_neg (by decide), if_pos rfl]
    simp

end Found

/-! The texts of predicates -/

/-- A test that is put to some value, if it is put to values. -/
def CellTest.IsPut : CellTest → Prop
  | .among _ places => places ≠ 0
  | .isNull _ => True

/-- A predicate over a column in quotes. -/
def Predicate.IsPlain (d : Dialect) : Predicate → Prop
  | .zeroIsOne => True
  | .cell column test => d.IsColumnText column ∧ test.IsPut

section Columns

variable {d : Dialect} {s rest : List Char}

/-- The end of a quoted column is its quote. -/
theorem exists_path_concat (d : Dialect) : ∀ {path : List (List Char)}, path ≠ [] →
    ∃ s, ['.'].intercalate (path.map d.inQuotes) = s ++ [d.quoteChar]
  | [], h => absurd rfl h
  | [part], _ => ⟨d.quoteChar :: part, by simp [Dialect.inQuotes]⟩
  | part :: next :: path, _ => by
    have hne : next :: path ≠ [] := List.cons_ne_nil _ _
    obtain ⟨s, hs⟩ := exists_path_concat d hne
    refine ⟨d.inQuotes part ++ '.' :: s, ?_⟩
    rw [List.map_cons, List.map_cons, List.intercalate_cons_cons, ← List.map_cons, hs]
    simp

theorem exists_path_cons (d : Dialect) : ∀ {path : List (List Char)}, path ≠ [] →
    ∃ s, ['.'].intercalate (path.map d.inQuotes) = d.quoteChar :: s
  | [], h => absurd rfl h
  | [_], _ => ⟨_, rfl⟩
  | _ :: _ :: _, _ => ⟨_, rfl⟩

theorem spanColumn_quoted {q : Char} (h : q ∉ s) :
    spanColumn q true (s ++ rest) = (spanColumn q true rest).map (s ++ ·) id := by
  induction s with
  | nil => rfl
  | cons ch s ih =>
    obtain ⟨hch, hs⟩ := List.ne_and_not_mem_of_not_mem_cons h
    rw [List.cons_append, spanColumn, if_neg (by simp), if_neg (Ne.symm hch), ih hs]
    rfl

theorem spanColumn_inQuotes (h : d.quoteChar ∉ s) :
    spanColumn d.quoteChar false (d.inQuotes s ++ rest) =
      (spanColumn d.quoteChar false rest).map (d.inQuotes s ++ ·) id := by
  have hblank : ¬(d.quoteChar = ' ' ∧ false = false) := by
    cases d <;> simp [Dialect.quoteChar]
  rw [Dialect.inQuotes, List.cons_append, spanColumn, if_neg hblank, if_pos rfl, List.append_assoc,
    Bool.not_false, spanColumn_quoted h, List.singleton_append, spanColumn, if_neg (by simp),
    if_pos rfl]
  simp [Prod.map]

/-- The column of a predicate ends where the blank of the test stands. -/
theorem spanColumn_path : ∀ {path : List (List Char)}, (∀ part ∈ path, d.quoteChar ∉ part) →
    spanColumn d.quoteChar false (['.'].intercalate (path.map d.inQuotes) ++ ' ' :: rest) =
      (['.'].intercalate (path.map d.inQuotes), ' ' :: rest)
  | [], _ => rfl
  | [part], h => by
    rw [List.map_singleton, List.intercalate_singleton,
      spanColumn_inQuotes (h part List.mem_cons_self)]
    simp [spanColumn]
  | part :: next :: path, h => by
    obtain ⟨hpart, hpath⟩ := List.forall_mem_cons.mp h
    rw [List.map_cons, List.map_cons, List.intercalate_cons_cons, ← List.map_cons,
      List.append_assoc, List.append_assoc, spanColumn_inQuotes hpart, List.singleton_append,
      spanColumn, if_neg (by simp), if_neg d.dot_ne_quoteChar, spanColumn_path hpath]
    simp

end Columns

namespace CellTest

theorem placesOf?_placesText : ∀ n : Nat,
    placesOf? ((placesText (n + 1)).toList ++ [')']) = some (n + 1)
  | 0 => rfl
  | n + 1 => by
    rw [placesText_cons]
    change (placesOf? ((placesText (n + 1)).toList ++ [')'])).map (· + 1) = _
    rw [placesOf?_placesText n]
    rfl

theorem read?_list (negated : Bool) (s : List Char) :
    read? ((listWord negated).toList ++ s) = (placesOf? s).map (among negated) := by
  cases negated <;> rfl

/-- A test is read from its text. -/
theorem read?_text {test : CellTest} (h : test.IsPut) : read? test.text.toList = some test := by
  cases test using shape_cases with
  | isNull negated => cases negated <;> rfl
  | one negated => cases negated <;> rfl
  | list negated places hone =>
    obtain ⟨n, rfl⟩ := Nat.exists_eq_succ_of_ne_zero h
    rw [text_list hone, String.toList_append, String.toList_append, List.append_assoc, read?_list]
    change (placesOf? ((placesText (n + 1)).toList ++ [')'])).map _ = _
    rw [placesOf?_placesText]
    rfl

/-- A test stands behind its column with a blank between them. -/
theorem exists_text (test : CellTest) : ∃ s, test.text.toList = ' ' :: s := by
  cases test using shape_cases with
  | isNull negated => cases negated <;> exact ⟨_, rfl⟩
  | one negated => cases negated <;> exact ⟨_, rfl⟩
  | list negated places hone =>
    rw [text_list hone, String.toList_append, String.toList_append, List.append_assoc]
    cases negated <;> exact ⟨_, rfl⟩

end CellTest

namespace Predicate

variable {d : Dialect} {p : Predicate} {rest : List Char}

/-- A predicate is read from its text. -/
theorem read?_text (h : p.IsPlain d) : read? d.quoteChar p.text = some p := by
  cases p with
  | zeroIsOne => rfl
  | cell column test =>
    obtain ⟨⟨path, hne, hpath, hcolumn⟩, htest⟩ := h
    obtain ⟨s, hs⟩ := test.exists_text
    have hread : (cell column test).text.toList =
        ['.'].intercalate (path.map d.inQuotes) ++ ' ' :: s := by
      rw [text, String.toList_append, hcolumn, hs]
    have hnot : (cell column test).text ≠ "0=1" := by
      intro h
      obtain ⟨t, ht⟩ := exists_path_cons d hne
      rw [← String.toList_inj, hread, ht] at h
      have hhead : d.quoteChar = '0' := (List.cons.inj h).1
      cases d <;> simp [Dialect.quoteChar] at hhead
    rw [read?, if_neg hnot, hread, spanColumn_path hpath]
    dsimp only
    rw [← hs, CellTest.read?_text htest, ← hcolumn, String.ofList_toList]
    rfl

theorem searchFrom_text (h : p.IsPlain d) :
    searchFrom d.quoteChar [] 0 false (p.text.toList ++ rest) =
      searchFrom d.quoteChar p.text.toList.reverse 0 false rest := by
  cases p with
  | zeroIsOne => cases d <;> rfl
  | cell column test =>
    obtain ⟨⟨path, hne, hpath, hcolumn⟩, _⟩ := h
    obtain ⟨s, hs⟩ := exists_path_concat d hne
    rw [text, String.toList_append, hcolumn, List.append_assoc, searchFrom_path hpath, hs,
      List.reverse_concat, List.append_nil, searchFrom_test]
    simp

theorem wordBehind_text (p : Predicate) : wordBehind p.text.toList.reverse = none := by
  cases p with
  | zeroIsOne => rfl
  | cell column test =>
    rw [text, String.toList_append, List.reverse_append]
    cases test using CellTest.shape_cases with
    | isNull negated => cases negated <;> rfl
    | one negated => cases negated <;> rfl
    | list negated places hone =>
      rw [CellTest.text_list hone, String.toList_append, List.reverse_append]
      rfl

theorem text_ne_empty (h : p.IsPlain d) : p.text ≠ "" := by
  cases p with
  | zeroIsOne => decide
  | cell column test =>
    obtain ⟨s, hs⟩ := test.exists_text
    rw [ne_eq, ← String.toList_inj, text, String.toList_append, hs]
    simp

theorem rawBehind_text (h : p.IsPlain d) : rawBehind p.text.toList.reverse = [.raw p.text] := by
  have hne : p.text.toList.reverse ≠ [] := by
    simpa using text_ne_empty h
  rw [rawBehind, if_neg hne, List.reverse_reverse, String.ofList_toList]

/-- Behind a run that does not end with a word, AND and OR are words. -/
theorem searchFrom_conjunction {run : List Char} (h : wordBehind run = none) (c : Conjunction) :
    searchFrom d.quoteChar run 0 false ((Lexeme.conjunction c).text ++ rest) =
      rawBehind run ++ .conjunction c :: searchFrom d.quoteChar [] 0 false rest := by
  have hblank : ∀ t, searchFrom d.quoteChar run 0 false (' ' :: t) =
      searchFrom d.quoteChar (' ' :: run) 0 false t := by
    intro t
    have hquote : ' ' ≠ d.quoteChar := by cases d <;> simp [Dialect.quoteChar]
    rw [searchFrom, if_neg hquote, if_neg (by decide), if_neg (by decide), if_pos rfl, h]
  rw [Lexeme.text, List.cons_append, hblank]
  cases c <;> cases d <;> rfl

/-- Between two predicates, AND and OR are words. -/
theorem searchFrom_connective (h : p.IsPlain d) (c : Conjunction) :
    searchFrom d.quoteChar [] 0 false (p.text.toList ++ ((Lexeme.conjunction c).text ++ rest)) =
      .raw p.text :: .conjunction c :: searchFrom d.quoteChar [] 0 false rest := by
  rw [searchFrom_text h, searchFrom_conjunction (wordBehind_text p), rawBehind_text h]
  rfl

/-- Predicates are found wherever they stand. -/
theorem finds (d : Dialect) :
    Finds (searchFrom d.quoteChar [] 0 false) fun s =>
      ∃ p : Predicate, p.IsPlain d ∧ s = p.text where
  opening s := by cases d <;> rfl
  closing s := by cases d <;> rfl
  not s := by cases d <;> rfl
  conjunction c s := by cases c <;> cases d <;> rfl
  raw := by
    rintro _ rest ⟨p, hp, rfl⟩ _ hrest
    rw [searchFrom_text hp]
    cases rest with
    | nil => exact rawBehind_text hp
    | cons ch rest =>
      cases hrest ch rfl
      rw [searchFrom, if_neg d.closing_ne_quoteChar, if_neg (by decide), if_pos rfl,
        rawBehind_text hp]
      cases d <;> rfl

end Predicate

/-! ## The truth of what is read -/

section Read

variable {d : Dialect} {same : Value → Value → Bool} {row : String → Value} {p : Predicate}
  {vs ws : List Value} {t : Truth} {f : Formula}

/-- A predicate takes its values from the front. -/
theorem Formula.truth_raw (hp : p.IsPlain d) (hvs : vs.length = p.places) :
    (Formula.raw p.text).truth d.quoteChar same row (vs ++ ws) =
      some (p.truth same row vs, ws) := by
  rw [Formula.truth, Predicate.read?_text hp, Option.bind_eq_bind, Option.bind_some, ← hvs,
    if_neg (by simp), List.take_left, List.drop_left]

theorem Formula.truth_not {us : List Value}
    (h : f.truth d.quoteChar same row vs = some (t, us)) :
    (Formula.not f).truth d.quoteChar same row vs = some (t.not, us) := by
  rw [Formula.truth, h]
  rfl

/-- The operands of AND and OR take their values one after the other. -/
theorem Formula.truths_cons {fs : List Formula} {ts : List Truth} {us : List Value}
    (hf : f.truth d.quoteChar same row vs = some (t, ws))
    (hfs : Formula.truths d.quoteChar same row fs ws = some (ts, us)) :
    Formula.truths d.quoteChar same row (f :: fs) vs = some (t :: ts, us) := by
  rw [Formula.truths, hf, Option.bind_eq_bind, Option.bind_some]
  dsimp only
  rw [hfs]
  rfl

theorem Formula.truth_junction {fs : List Formula} {ts : List Truth} (c : Conjunction)
    (h : Formula.truths d.quoteChar same row fs vs = some (ts, ws)) :
    (Formula.junction c fs).truth d.quoteChar same row vs = some (c.joinTruth ts, ws) := by
  rw [Formula.truth, h]
  rfl

theorem searchTruth_of_read {text : String} (hne : text ≠ "")
    (hread : readLexemes (searchFrom d.quoteChar [] 0 false text.toList) = some f)
    (htruth : f.truth d.quoteChar same row vs = some (t, [])) :
    searchTruth d.quoteChar same row text vs = some t := by
  rw [searchTruth, if_neg hne, hread, Option.bind_eq_bind, Option.bind_some, htruth]

/-- A normal formula over predicates is read from its text. -/
theorem searchTruth_text (hf : f.IsNormal)
    (hraws : ∀ s ∈ f.raws, ∃ p : Predicate, p.IsPlain d ∧ s = p.text)
    (htruth : f.truth d.quoteChar same row vs = some (t, [])) :
    searchTruth d.quoteChar same row f.text vs = some t := by
  have hlexemes := (Predicate.finds d).lexemes hf hraws [] (by rintro _ ⟨⟩)
  rw [List.append_nil] at hlexemes
  have hread : readLexemes (searchFrom d.quoteChar [] 0 false f.text.toList) = some f := by
    rw [Formula.text, String.toList_ofList, hlexemes]
    change readLexemes (f.lexemes ++ []) = some f
    rw [List.append_nil, Formula.readLexemes_lexemes hf]
  exact searchTruth_of_read (Formula.text_ne_empty hf) hread htruth

example :
    searchTruth '\x60' (fun _ _ => true) (fun column => if column = "`a`" then .null else .int32 2)
        "(NOT (`a` NOT IN (?, ?))) OR ((`b` <> ? AND `b` IS NOT NULL))"
        [.int32 1, .int32 3, .int32 2] =
      some .unknown := by
  rfl

/-- One predicate. -/
theorem searchTruth_predicate (hp : p.IsPlain d) (hvs : vs.length = p.places) :
    searchTruth d.quoteChar same row p.text vs = some (p.truth same row vs) := by
  have hnormal : (Formula.raw p.text).IsNormal := .raw (p.text_ne_empty hp)
  have htruth : (Formula.raw p.text).truth d.quoteChar same row (vs ++ []) =
      some (p.truth same row vs, []) := Formula.truth_raw hp hvs
  rw [List.append_nil] at htruth
  rw [← Formula.text_raw p.text]
  exact searchTruth_text hnormal (by simpa [Formula.raws] using ⟨p, hp, rfl⟩) htruth

/-- Two predicates in parentheses, with a word between them. -/
theorem searchTruth_pair {p' : Predicate} (c : Conjunction) (hp : p.IsPlain d)
    (hp' : p'.IsPlain d) (hvs : vs.length = p.places) (hws : ws.length = p'.places) :
    searchTruth d.quoteChar same row
        ("(" ++ p.text ++ (" " ++ c.word ++ " ") ++ p'.text ++ ")") (vs ++ ws) =
      some (c.joinTruth [p.truth same row vs, p'.truth same row ws]) := by
  have hchars : ("(" ++ p.text ++ (" " ++ c.word ++ " ") ++ p'.text ++ ")").toList =
      '(' :: (p.text.toList ++ ((Lexeme.conjunction c).text ++ (p'.text.toList ++ [')']))) := by
    simp [Lexeme.text]
  have hread : readLexemes (searchFrom d.quoteChar [] 0 false
      ("(" ++ p.text ++ (" " ++ c.word ++ " ") ++ p'.text ++ ")").toList) =
      some (.junction c [.raw p.text, .raw p'.text]) := by
    rw [hchars, (Predicate.finds d).opening, Predicate.searchFrom_connective hp,
      (Predicate.finds d).raw ⟨p', hp', rfl⟩ (p'.text_ne_empty hp') (isClosed_closing []),
      (Predicate.finds d).closing]
    cases c <;> rfl
  have htruth' : (Formula.raw p'.text).truth d.quoteChar same row (ws ++ []) =
      some (p'.truth same row ws, []) := Formula.truth_raw hp' hws
  rw [List.append_nil] at htruth'
  refine searchTruth_of_read ?_ hread ?_
  · rw [ne_eq, ← String.toList_inj, hchars]
    exact List.cons_ne_nil _ _
  · exact Formula.truth_junction c
      (Formula.truths_cons (Formula.truth_raw hp hvs) (Formula.truths_cons htruth' rfl))

end Read

end QueryKit
