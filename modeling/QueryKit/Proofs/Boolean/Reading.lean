import QueryKit.Proofs.Boolean.Formula

/-!
# Boolean texts and their reading

- `Lexeme`: raw texts, NOT, AND, OR and parentheses. `Formula.lexemes` is how a formula is written,
  every operand in parentheses.
- `lex`: the lexemes of a text. What stands between two parentheses is one lexeme.
- `Reader`: a reader of lexemes that knows no formula beforehand. It keeps a stack of groups that
  are open; in a group, NOT binds closer than AND, and AND closer than OR.
- `Finds`: what a way of finding lexemes has to do. `Finds.lexemes`: it then finds what is written for
  a normal formula.
- `readLexemes_lexemes`: a normal formula is read back from its lexemes.
- `lex_text`: the lexemes of a normal formula are found in its text, unless a raw text has
  parentheses of its own.
-/

namespace QueryKit

/-! ## Lexemes -/

/-- What boolean texts consist of. -/
inductive Lexeme where
  | raw (s : String)
  | not
  | conjunction (c : Conjunction)
  | opening
  | closing
deriving DecidableEq

def Lexeme.text : Lexeme → List Char
  | .raw s => s.toList
  | .not => "NOT ".toList
  | .conjunction c => ' ' :: (c.word.toList ++ [' '])
  | .opening => ['(']
  | .closing => [')']

/-- The text of a raw lexeme. -/
def Lexeme.raw? : Lexeme → Option String
  | .raw s => some s
  | _ => none

/-- The text of lexemes. -/
def spell (ls : List Lexeme) : List Char :=
  ls.flatMap Lexeme.text

@[simp] theorem spell_nil : spell [] = [] :=
  rfl

@[simp] theorem spell_cons (l : Lexeme) (ls : List Lexeme) : spell (l :: ls) = l.text ++ spell ls :=
  rfl

@[simp] theorem spell_append (ls ms : List Lexeme) : spell (ls ++ ms) = spell ls ++ spell ms :=
  List.flatMap_append

/-- Lexemes in parentheses. -/
def enclose (ls : List Lexeme) : List Lexeme :=
  .opening :: (ls ++ [.closing])

theorem spell_enclose (ls : List Lexeme) (rest : List Char) :
    spell (enclose ls) ++ rest = '(' :: (spell ls ++ ')' :: rest) := by
  simp [enclose, Lexeme.text]

namespace Formula

mutual

/-- A formula as it is written. Operands stand in parentheses; nothing else does. -/
def lexemes : Formula → List Lexeme
  | .raw s => [.raw s]
  | .not f => .not :: enclose f.lexemes
  | .junction _ [] => []
  | .junction c (f :: fs) => enclose f.lexemes ++ moreLexemes c fs

/-- The further operands of AND or OR, each after the word. -/
def moreLexemes (c : Conjunction) : List Formula → List Lexeme
  | [] => []
  | f :: fs => .conjunction c :: (enclose f.lexemes ++ moreLexemes c fs)

end

theorem raws_enclose (ls : List Lexeme) :
    (enclose ls).filterMap Lexeme.raw? = ls.filterMap Lexeme.raw? := by
  rw [enclose, List.filterMap_cons_none rfl, List.filterMap_append]
  exact List.append_nil _

theorem raws_moreLexemes (c : Conjunction) : ∀ {fs : List Formula},
    (∀ f ∈ fs, f.lexemes.filterMap Lexeme.raw? = f.raws) →
    (moreLexemes c fs).filterMap Lexeme.raw? = rawsAll fs
  | [], _ => rfl
  | f :: fs, h => by
    obtain ⟨hf, hfs⟩ := List.forall_mem_cons.mp h
    rw [moreLexemes, List.filterMap_cons_none rfl, List.filterMap_append, raws_enclose, hf,
      raws_moreLexemes c hfs, rawsAll]

/-- The raw texts of a formula are written in their order. -/
theorem raws_lexemes (f : Formula) : f.lexemes.filterMap Lexeme.raw? = f.raws := by
  induction f using operand_induction with
  | raw s => rfl
  | not f ih => rw [lexemes, List.filterMap_cons_none rfl, raws_enclose, ih, raws]
  | junction c fs ih =>
    cases fs with
    | nil => rfl
    | cons f fs =>
      obtain ⟨hf, hfs⟩ := List.forall_mem_cons.mp ih
      rw [lexemes, List.filterMap_append, raws_enclose, hf, raws_moreLexemes c hfs, raws, rawsAll]

/-- The text of a formula. -/
def text (f : Formula) : String :=
  String.ofList (spell f.lexemes)

end Formula

/-! ## Finding lexemes -/

/-- What a text between two parentheses is. -/
def lexemeOf (run : List Char) : Lexeme :=
  ([.not, .conjunction .and, .conjunction .or].find? fun l => l.text == run).getD
    (.raw (String.ofList run))

/-- The lexemes of a text, of which `run` has been read since the last parenthesis. A word stands in
front of an opening parenthesis and nowhere else. -/
def lexFrom (run : List Char) : List Char → List Lexeme
  | [] => if run = [] then [] else [.raw (String.ofList run)]
  | ch :: s =>
    if ch = '(' then (if run = [] then [] else [lexemeOf run]) ++ .opening :: lexFrom [] s
    else if ch = ')' then
      (if run = [] then [] else [.raw (String.ofList run)]) ++ .closing :: lexFrom [] s
    else lexFrom (run ++ [ch]) s

def lex (s : String) : List Lexeme :=
  lexFrom [] s.toList

/-- A text without parentheses. -/
def ParenFree (s : String) : Prop :=
  '(' ∉ s.toList ∧ ')' ∉ s.toList

instance : DecidablePred ParenFree := fun s =>
  inferInstanceAs (Decidable ('(' ∉ s.toList ∧ ')' ∉ s.toList))

theorem lexFrom_append {rest : List Char} : ∀ {s run : List Char}, '(' ∉ s → ')' ∉ s →
    lexFrom run (s ++ rest) = lexFrom (run ++ s) rest
  | [], run, _, _ => by rw [List.append_nil, List.nil_append]
  | ch :: s, run, ho, hc => by
    obtain ⟨ho, hos⟩ := List.ne_and_not_mem_of_not_mem_cons ho
    obtain ⟨hc, hcs⟩ := List.ne_and_not_mem_of_not_mem_cons hc
    rw [List.cons_append, lexFrom, if_neg (Ne.symm ho), if_neg (Ne.symm hc),
      lexFrom_append hos hcs, List.append_assoc]
    rfl

/-- A text that ends, or goes on after the end of a group. -/
def IsClosed (s : List Char) : Prop :=
  ∀ ch ∈ s.head?, ch = ')'

theorem isClosed_closing (s : List Char) : IsClosed (')' :: s) := by
  rintro _ ⟨⟩
  rfl

theorem lexFrom_opening (s : List Char) : lexFrom [] ('(' :: s) = .opening :: lexFrom [] s := by
  rw [lexFrom, if_pos rfl]
  rfl

theorem lexFrom_closing (s : List Char) : lexFrom [] (')' :: s) = .closing :: lexFrom [] s := by
  rw [lexFrom, if_neg (by decide), if_pos rfl]
  rfl

theorem lexFrom_raw {s : String} (hs : ParenFree s) (hne : s ≠ "") {rest : List Char}
    (hrest : IsClosed rest) : lexFrom [] (s.toList ++ rest) = .raw s :: lexFrom [] rest := by
  have hne' : s.toList ≠ [] := by simpa using hne
  rw [lexFrom_append hs.1 hs.2, List.nil_append]
  cases rest with
  | nil => simp [lexFrom, hne']
  | cons ch rest =>
    cases hrest ch rfl
    rw [lexFrom_closing, lexFrom, if_neg (by decide), if_pos rfl, if_neg hne', String.ofList_toList]
    rfl

theorem lexFrom_not (s : List Char) :
    lexFrom [] (Lexeme.not.text ++ '(' :: s) = .not :: lexFrom [] ('(' :: s) := by
  rw [lexFrom_append (by decide) (by decide), lexFrom, if_pos rfl, lexFrom_opening]
  rfl

theorem lexFrom_conjunction (c : Conjunction) (s : List Char) :
    lexFrom [] ((Lexeme.conjunction c).text ++ '(' :: s) =
      .conjunction c :: lexFrom [] ('(' :: s) := by
  cases c with
  | and | or =>
    rw [lexFrom_append (by decide) (by decide), lexFrom, if_pos rfl, lexFrom_opening]
    rfl

/-- A way of finding lexemes that finds words, parentheses and the raw texts of a kind. A word is
found in front of a group, and a raw text where its own group ends. -/
structure Finds (find : List Char → List Lexeme) (Whole : String → Prop) : Prop where
  opening (s : List Char) : find ('(' :: s) = .opening :: find s
  closing (s : List Char) : find (')' :: s) = .closing :: find s
  not (s : List Char) : find (Lexeme.not.text ++ '(' :: s) = .not :: find ('(' :: s)
  conjunction (c : Conjunction) (s : List Char) :
    find ((Lexeme.conjunction c).text ++ '(' :: s) = .conjunction c :: find ('(' :: s)
  raw {s : String} {rest : List Char} (hs : Whole s) (hne : s ≠ "") (hrest : IsClosed rest) :
    find (s.toList ++ rest) = .raw s :: find rest

/-- Raw texts without parentheses are found by looking for parentheses. -/
theorem finds_lexFrom : Finds (lexFrom []) ParenFree :=
  ⟨lexFrom_opening, lexFrom_closing, lexFrom_not, lexFrom_conjunction,
    fun hs hne hrest => lexFrom_raw hs hne hrest⟩

namespace Finds

variable {find : List Char → List Lexeme} {Whole : String → Prop} {ls : List Lexeme}
  {c : Conjunction} {f : Formula}

/-- What is found in a text whose group ends behind it is found in parentheses. -/
theorem enclosed (hfind : Finds find Whole)
    (h : ∀ rest, IsClosed rest → find (spell ls ++ rest) = ls ++ find rest) (rest : List Char) :
    find ('(' :: (spell ls ++ ')' :: rest)) = enclose ls ++ find rest := by
  rw [hfind.opening, h _ (isClosed_closing rest), hfind.closing]
  simp [enclose]

theorem moreLexemes (hfind : Finds find Whole) (rest : List Char) : ∀ {fs : List Formula},
    (∀ f ∈ fs, ∀ rest, IsClosed rest →
      find (spell f.lexemes ++ rest) = f.lexemes ++ find rest) →
    find (spell (Formula.moreLexemes c fs) ++ rest) = Formula.moreLexemes c fs ++ find rest
  | [], _ => rfl
  | f :: fs, h => by
    obtain ⟨hf, hfs⟩ := List.forall_mem_cons.mp h
    rw [Formula.moreLexemes, spell_cons, spell_append, List.append_assoc, List.append_assoc,
      spell_enclose, hfind.conjunction, hfind.enclosed hf, hfind.moreLexemes rest hfs,
      List.cons_append, List.append_assoc]

/-- What is written for a normal formula over raw texts of the kind is found. -/
theorem lexemes (hfind : Finds find Whole) (h : f.IsNormal) (hp : ∀ s ∈ f.raws, Whole s)
    (rest : List Char) (hrest : IsClosed rest) :
    find (spell f.lexemes ++ rest) = f.lexemes ++ find rest := by
  -- behind an operand the text goes on with its closing parenthesis, behind the formula with `rest`
  induction h generalizing rest with
  | @raw s hne =>
    rw [Formula.lexemes, spell_cons, spell_nil, List.append_nil]
    exact hfind.raw (hp s List.mem_cons_self) hne hrest
  | @not f _ ih =>
    rw [Formula.lexemes, spell_cons, List.append_assoc, spell_enclose, hfind.not,
      hfind.enclosed (ih hp)]
    rfl
  | @junction c f g fs _ ih =>
    have hall : ∀ h ∈ f :: g :: fs, ∀ rest, IsClosed rest →
        find (spell h.lexemes ++ rest) = h.lexemes ++ find rest := fun h hh rest hrest =>
      ih h hh (fun s hs => hp s (Formula.mem_rawsAll.mpr ⟨h, hh, hs⟩)) rest hrest
    obtain ⟨hf, hmore⟩ := List.forall_mem_cons.mp hall
    rw [Formula.lexemes, spell_append, List.append_assoc, spell_enclose, hfind.enclosed hf,
      hfind.moreLexemes rest hmore, List.append_assoc]

end Finds

namespace Formula

variable {f : Formula} {c : Conjunction}

/-- What is written for the formula is found in its text. -/
def Lexes (f : Formula) : Prop :=
  ∀ rest, IsClosed rest → lexFrom [] (spell f.lexemes ++ rest) = f.lexemes ++ lexFrom [] rest

theorem lexes_of_isNormal (h : f.IsNormal) (hp : ∀ s ∈ f.raws, ParenFree s) : f.Lexes :=
  finds_lexFrom.lexemes h hp

/-- The lexemes of a normal formula are found in its text. -/
theorem lex_text (h : f.IsNormal) (hp : ∀ s ∈ f.raws, ParenFree s) : lex f.text = f.lexemes := by
  have hall := lexes_of_isNormal h hp [] (by rintro _ ⟨⟩)
  rw [List.append_nil] at hall
  rw [lex, text, String.toList_ofList, hall]
  exact List.append_nil _

end Formula

/-! ## Reading lexemes -/

/-- A formula behind some NOTs. -/
def Formula.negated (f : Formula) : Nat → Formula
  | 0 => f
  | n + 1 => .not (f.negated n)

/-- A group as far as it has been read. -/
structure Group where
  /-- the operands of OR that are complete -/
  disjuncts : List Formula
  /-- the operands of AND that are complete, since the last OR -/
  conjuncts : List Formula
  /-- how many NOTs stand in front of the operand that has to come; nothing after an operand -/
  awaited : Option Nat

namespace Group

/-- Nothing has been read. -/
def start : Group :=
  ⟨[], [], some 0⟩

def operand (g : Group) (f : Formula) : Option Group :=
  g.awaited.map fun nots => ⟨g.disjuncts, g.conjuncts ++ [f.negated nots], none⟩

def negation (g : Group) : Option Group :=
  g.awaited.map fun nots => ⟨g.disjuncts, g.conjuncts, some (nots + 1)⟩

/-- AND goes on with the operands of AND; OR completes them. -/
def connective (g : Group) (c : Conjunction) : Option Group :=
  match g.awaited, c with
  | some _, _ => none
  | none, .and => some ⟨g.disjuncts, g.conjuncts, some 0⟩
  | none, .or => do
    let f ← Formula.collapse .and g.conjuncts
    return ⟨g.disjuncts ++ [f], [], some 0⟩

/-- What the group says, unless it breaks off. -/
def finish (g : Group) : Option Formula :=
  match g.awaited with
  | some _ => none
  | none => do
    let f ← Formula.collapse .and g.conjuncts
    Formula.collapse .or (g.disjuncts ++ [f])

end Group

/-- The group that is being read, and those around it from the inside out. -/
structure Reader where
  group : Group
  outer : List Group

namespace Reader

def step (r : Reader) : Lexeme → Option Reader
  | .raw s => do
    let g ← r.group.operand (.raw s)
    return ⟨g, r.outer⟩
  | .not => do
    let g ← r.group.negation
    return ⟨g, r.outer⟩
  | .conjunction c => do
    let g ← r.group.connective c
    return ⟨g, r.outer⟩
  | .opening => some ⟨.start, r.group :: r.outer⟩
  | .closing =>
    match r.outer with
    | [] => none
    | g :: outer => do
      let f ← r.group.finish
      let g ← g.operand f
      return ⟨g, outer⟩

end Reader

/-- The formula that lexemes are, if they are one. -/
def readLexemes (ls : List Lexeme) : Option Formula := do
  let r ← ls.foldlM Reader.step ⟨.start, []⟩
  match r.outer with
  | [] => r.group.finish
  | _ => none

/-- The formula that a text is, if it is one. -/
def readFormula (s : String) : Option Formula :=
  readLexemes (lex s)

namespace Formula

variable {f : Formula} {c : Conjunction}

/-- Reading what is written for the formula completes a group of it. -/
def Reads (f : Formula) : Prop :=
  ∀ outer, ∃ g : Group, g.finish = some f ∧
    f.lexemes.foldlM Reader.step ⟨.start, outer⟩ = some ⟨g, outer⟩

/-- A group that reads an AND or OR, behind some operands and the word. -/
def pending (c : Conjunction) (fs : List Formula) : Group :=
  match c with
  | .and => ⟨[], fs, some 0⟩
  | .or => ⟨fs, [], some 0⟩

/-- A group that reads an AND or OR, behind one more operand. -/
def supplied (c : Conjunction) (fs : List Formula) (f : Formula) : Group :=
  match c with
  | .and => ⟨[], fs ++ [f], none⟩
  | .or => ⟨fs, [f], none⟩

theorem start_eq_pending (c : Conjunction) : Group.start = pending c [] := by
  cases c <;> rfl

theorem operand_pending (c : Conjunction) (fs : List Formula) (f : Formula) :
    (pending c fs).operand f = some (supplied c fs f) := by
  cases c <;> rfl

theorem connective_supplied (c : Conjunction) (fs : List Formula) (f : Formula) :
    (supplied c fs f).connective c = some (pending c (fs ++ [f])) := by
  cases c <;> rfl

theorem finish_supplied (c : Conjunction) (fs : List Formula) (f : Formula) :
    (supplied c fs f).finish = collapse c (fs ++ [f]) := by
  cases c with
  | and => exact Option.bind_fun_some _
  | or => rfl

/-- An operand in parentheses is put into the group around it. -/
theorem Reads.enclosed (h : f.Reads) {g g' : Group} (hg : g.operand f = some g')
    (outer : List Group) :
    (enclose f.lexemes).foldlM Reader.step ⟨g, outer⟩ = some ⟨g', outer⟩ := by
  obtain ⟨inner, hfinish, hread⟩ := h (g :: outer)
  rw [enclose, List.foldlM_cons, Reader.step, Option.bind_eq_bind, Option.bind_some,
    List.foldlM_append, hread, Option.bind_eq_bind, Option.bind_some, List.foldlM_cons]
  simp [Reader.step, hfinish, hg]

/-- The further operands of AND or OR. Those that have been read stand in two places: AND keeps them
together, and OR has completed all but the last one. -/
theorem foldlM_moreLexemes (outer : List Group) : ∀ {fs : List Formula} (gs : List Formula)
    (f : Formula), (∀ f ∈ fs, f.Reads) → ∃ gs' f', gs' ++ [f'] = gs ++ f :: fs ∧
      (moreLexemes c fs).foldlM Reader.step ⟨supplied c gs f, outer⟩ =
        some ⟨supplied c gs' f', outer⟩
  | [], gs, f, _ => ⟨gs, f, rfl, rfl⟩
  | h :: fs, gs, f, hall => by
    obtain ⟨hh, hfs⟩ := List.forall_mem_cons.mp hall
    obtain ⟨gs', f', heq, hread⟩ := foldlM_moreLexemes outer (gs ++ [f]) h hfs
    refine ⟨gs', f', by rw [heq, List.append_assoc]; rfl, ?_⟩
    rw [moreLexemes, List.foldlM_cons, Reader.step, connective_supplied]
    change List.foldlM _ _ _ = _
    rw [List.foldlM_append, hh.enclosed (operand_pending c _ h)]
    exact hread

/-- A normal formula is read with every operator over its own operands. -/
theorem reads_of_isNormal (h : f.IsNormal) : f.Reads := by
  induction h with
  | @raw s _ => exact fun outer => ⟨⟨[], [.raw s], none⟩, rfl, rfl⟩
  | @not f _ ih =>
    intro outer
    refine ⟨⟨[], [.not f], none⟩, rfl, ?_⟩
    rw [lexemes, List.foldlM_cons]
    exact ih.enclosed rfl outer
  | @junction c f g fs _ ih =>
    intro outer
    obtain ⟨hf, hmore⟩ := List.forall_mem_cons.mp ih
    obtain ⟨gs', f', heq, hread⟩ := foldlM_moreLexemes outer [] f hmore
    refine ⟨supplied c gs' f', ?_, ?_⟩
    · rw [finish_supplied, heq]
      rfl
    · rw [lexemes, List.foldlM_append, start_eq_pending c, hf.enclosed (operand_pending c [] f)]
      exact hread

/-- A normal formula is read back from what is written for it. -/
theorem readLexemes_lexemes (h : f.IsNormal) : readLexemes f.lexemes = some f := by
  obtain ⟨g, hfinish, hread⟩ := reads_of_isNormal h []
  rw [readLexemes, hread]
  exact hfinish

theorem readFormula_text (h : f.IsNormal) (hp : ∀ s ∈ f.raws, ParenFree s) :
    readFormula f.text = some f := by
  rw [readFormula, lex_text h hp, readLexemes_lexemes h]

example : readFormula "(a) OR (b) AND (NOT (c))" =
    some (.junction .or [.raw "a", .junction .and [.raw "b", .not (.raw "c")]]) := by
  rfl

end Formula

end QueryKit
