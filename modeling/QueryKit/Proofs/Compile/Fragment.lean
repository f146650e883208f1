import QueryKit.Compile.Query
import QueryKit.Proofs.Compile.Alias
import QueryKit.Proofs.Compile.Yields

/-!
# Laws of fragments

A fragment of a statement is a text with the values it binds. A `FragmentLaw` is a property of
fragments that survives putting them together with the fixed words between them, together with what
it asks of the names and texts that a query is made of. Whatever the compiler makes of a query
whose names and texts are as asked then has the property; that induction is in
`QueryKit.Proofs.Compile.Render`, and this file holds its leaves.

- `IsGlue`: the fixed texts between fragments. They hold neither quotes nor placeholders.
- `FragmentLaw.Same`, `FragmentLaw.Idle`: values that may stand for one another, and values that may
  be added or left out. A text that drops a part or writes it twice keeps the law where the values
  of that part are idle.
- `conjunctionText_holds`, `likeText_holds`, `memberText_holds`, …: each text of
  `QueryKit.Compile.Condition` from its parts.
-/

namespace QueryKit

/-- The characters of the fixed texts between fragments. -/
def isGlueChar (c : Char) : Bool :=
  c.isAlphanum || [' ', '(', ')', ',', '=', '<', '>', '.', '*', '[', ']', '_', '-', '+'].contains c

/-- A fixed text between fragments. -/
def IsGlue (g : String) : Prop :=
  g ≠ "" ∧ g.toList.all isGlueChar = true

instance (g : String) : Decidable (IsGlue g) :=
  inferInstanceAs (Decidable (_ ∧ _))

theorem IsGlue.append {s t : String} (hs : IsGlue s) (ht : IsGlue t) : IsGlue (s ++ t) := by
  refine ⟨fun he => hs.1 ?_, ?_⟩
  · rw [String.append_eq_empty_iff] at he
    exact he.1
  · rw [String.toList_append, List.all_append, hs.2, ht.2, Bool.and_self]

/-- Members that let the column be written exactly once: there are some, and either all of them are
null or none is. -/
def WrittenOnce (nulls : List Bool) : Prop :=
  nulls ≠ [] ∧ ((∀ b ∈ nulls, b = true) ∨ ∀ b ∈ nulls, b = false)

theorem writtenOnce_singleton (b : Bool) : WrittenOnce [b] := by
  cases b <;> simp [WrittenOnce]

/-- A property of fragments in a dialect, and what it asks of names, of words written as they are,
of raw fragments and of the parameters of a query. -/
structure FragmentLaw (d : Dialect) where
  Holds : String → List Binding → Prop
  name : String → Prop
  word : String → Prop
  raw : String → Params → Prop
  params : Params → Prop
  nil : Holds "" []
  glue : ∀ {s t g : String} {bs cs : List Binding}, IsGlue g → Holds s bs → Holds t cs →
    Holds (s ++ g ++ t) (bs ++ cs)
  place : ∀ p : Param, Holds "?" [⟨.positional, p⟩]
  cast : ∀ {s t : String} {bs : List Binding}, Holds s bs → Holds t [] → Holds (s ++ "::" ++ t) bs
  escape : ∀ {s : String} {bs : List Binding}, Holds s bs → Holds (s ++ d.likeEscapeSql) bs
  word_holds : ∀ {s : String}, word s → Holds s []
  raw_holds : ∀ {s : String} {ps : Params}, raw s ps → Holds s ps.bindings
  raw_of_holds : ∀ {s : String}, Holds s [] → raw s .empty
  name_holds : ∀ {n : String}, name n → Holds n []
  column_holds : ∀ {n : String}, name n → Holds (d.quoteColumnName n) []
  table_holds : ∀ {n : String}, name n → Holds (d.quoteTableName n) []
  /-- A quoted name may be quoted again. -/
  requoted_holds : ∀ {n : String}, name n → Holds (d.quoteColumnName (d.quoteColumnName n)) []
  /-- A text within a name is a name. -/
  name_within : ∀ {n m : String}, name n → m.toList ⊆ n.toList → name m
  /-- The values of a fragment without a text may be added anywhere. -/
  empty_idle : ∀ {bs : List Binding}, Holds "" bs →
    ∀ s as cs, Holds s (as ++ (bs ++ cs)) ↔ Holds s (as ++ cs)
  params_idle : ∀ {ps : Params}, params ps →
    ∀ s as cs, Holds s (as ++ (ps.bindings ++ cs)) ↔ Holds s (as ++ cs)

namespace FragmentLaw

variable {d : Dialect} (L : FragmentLaw d) {s t g : String} {as bs cs ds : List Binding}

/-- Values that may stand for one another. -/
def Same (bs cs : List Binding) : Prop :=
  ∀ s as ds, L.Holds s (as ++ (bs ++ ds)) ↔ L.Holds s (as ++ (cs ++ ds))

/-- Values that may be added or left out. -/
def Idle (bs : List Binding) : Prop :=
  L.Same bs []

/-- A member of a list of values; a null member binds nothing. -/
def Member : Option String → List Binding → Prop
  | none, bs => bs = []
  | some s, bs => L.Holds s bs

/-- The column side of a membership test. A column that is known by its name binds nothing. -/
def Column : MemberColumn → List Binding → Prop
  | .single text name, bs => L.Holds text bs ∧ (name.isSome → bs = [])
  | .composite names, bs => (∀ n ∈ names, L.name n) ∧ bs = []

variable {L}

theorem Same.refl : L.Same bs bs :=
  fun _ _ _ => Iff.rfl

theorem Same.append (hb : L.Same as bs) (hc : L.Same cs ds) : L.Same (as ++ cs) (bs ++ ds) := by
  intro s xs ys
  rw [List.append_assoc, hb, ← List.append_assoc xs, hc, List.append_assoc, List.append_assoc]

theorem Same.holds (h : L.Same bs cs) : L.Holds s bs ↔ L.Holds s cs := by
  simpa using h s [] []

theorem Same.holds_append (h : L.Same bs cs) : L.Holds s (bs ++ ds) ↔ L.Holds s (cs ++ ds) := by
  simpa using h s [] ds

theorem idle_nil : L.Idle [] :=
  Same.refl

theorem idle_of_empty (h : L.Holds "" bs) : L.Idle bs := by
  intro s as ds
  rw [L.empty_idle h, List.nil_append]

theorem idle_of_params {ps : Params} (h : L.params ps) : L.Idle ps.bindings := by
  intro s as ds
  rw [L.params_idle h, List.nil_append]

theorem Idle.holds (hi : L.Idle bs) : L.Holds s bs ↔ L.Holds s [] :=
  Same.holds hi

theorem Idle.holds_append (hi : L.Idle bs) : L.Holds s (bs ++ cs) ↔ L.Holds s cs := by
  simpa using Same.holds_append hi

/-! ## Glue -/

theorem holds_after_glue (hg : IsGlue g) (h : L.Holds s bs) : L.Holds (g ++ s) bs := by
  simpa using L.glue hg L.nil h

theorem holds_before_glue (hg : IsGlue g) (h : L.Holds s bs) : L.Holds (s ++ g) bs := by
  simpa using L.glue hg h L.nil

theorem holds_glue (hg : IsGlue g) : L.Holds g [] := by
  simpa using holds_after_glue (L := L) hg L.nil

theorem holds_between {g h : String} (hg : IsGlue g) (hh : IsGlue h) (hs : L.Holds s bs) :
    L.Holds (g ++ s ++ h) bs :=
  holds_before_glue hh (holds_after_glue hg hs)

/-- Fragments with a separator between them. -/
theorem joinWith_holds (hg : IsGlue g) {parts : List String} (h : Together L.Holds parts bs) :
    L.Holds (Text.joinWith g parts) bs := by
  induction h with
  | nil => exact L.nil
  | @cons a as bs cs ha has ih =>
    cases as with
    | nil =>
      rw [Together.nil_iff] at has
      subst has
      simpa [Text.joinWith] using ha
    | cons b as => exact L.glue hg ha ih

/-- Fragments without a text may be left out: what remains binds values of the same effect. -/
theorem filter_holds {parts : List String} (h : Together L.Holds parts bs) :
    ∃ cs, Together L.Holds (parts.filter (· ≠ "")) cs ∧ L.Same bs cs := by
  induction h with
  | nil => exact ⟨[], .nil, .refl⟩
  | @cons a as bs ds ha _ ih =>
    obtain ⟨cs, hcs, hsame⟩ := ih
    by_cases he : a = ""
    · subst he
      have hidle : L.Same bs [] := idle_of_empty ha
      exact ⟨cs, by simpa using hcs, hidle.append hsame⟩
    · refine ⟨bs ++ cs, ?_, Same.refl.append hsame⟩
      rw [List.filter_cons_of_pos (by simpa using he)]
      exact .cons ha hcs

/-! ## Conditions -/

theorem columnName_holds {n : String} (h : L.name n) : L.Holds (d.columnName n) [] := by
  unfold Dialect.columnName
  split
  · exact L.name_holds h
  · exact L.column_holds h

theorem notText_holds (h : L.Holds s bs) : L.Holds (notText s) bs := by
  unfold notText
  split
  · next he => rwa [he] at h
  · exact holds_between (by decide) (by decide) h

theorem conjunctionText_holds (c : Conjunction) {parts : List String}
    (h : Together L.Holds parts bs) : L.Holds (conjunctionText c parts) bs := by
  obtain ⟨cs, hcs, hsame⟩ := filter_holds h
  rw [hsame.holds]
  unfold conjunctionText
  split
  · next he =>
    rw [he, Together.nil_iff] at hcs
    rw [hcs]
    exact L.nil
  · next part he =>
    rw [he, Together.singleton_iff] at hcs
    exact hcs
  · have hsep : IsGlue (") " ++ c.word ++ " (") := by cases c <;> decide
    exact holds_between (by decide) (by decide) (joinWith_holds hsep hcs)

theorem betweenText_holds (negated : Bool) {column low high : String} (hc : L.Holds column as)
    (hl : L.Holds low bs) (hh : L.Holds high cs) :
    L.Holds (betweenText column negated low high) (as ++ (bs ++ cs)) := by
  have hg : IsGlue (if negated then " NOT BETWEEN " else " BETWEEN ") := by
    cases negated <;> decide
  have hand := L.glue (g := " AND ") (by decide) hl hh
  simpa [betweenText, String.append_assoc] using L.glue hg hc hand

theorem isExistsText_holds (negated : Bool) (h : L.Holds s bs) :
    L.Holds (isExistsText negated s) bs := by
  have hg : IsGlue ((if negated then "NOT EXISTS" else "EXISTS") ++ " (") := by
    cases negated <;> decide
  exact holds_between hg (by decide) h

theorem emptyText_holds (negated : Bool) : L.Holds (emptyText negated) [] := by
  cases negated
  · exact holds_glue (by decide)
  · exact L.nil

theorem comparisonText_holds {column token place : String} (ht : L.word token)
    (hc : L.Holds column bs) (hp : L.Holds place cs) :
    L.Holds (column ++ " " ++ token ++ " " ++ place) (bs ++ cs) := by
  have hleft := L.glue (g := " ") (by decide) hc (L.word_holds ht)
  simpa using L.glue (g := " ") (by decide) hleft hp

/-! ## Membership -/

theorem quotedNames_holds {names : List String} (h : ∀ n ∈ names, L.name n) :
    L.Holds (quotedNames d names) [] := by
  have hnames : Together L.Holds (names.map d.columnName) [] := by
    apply Together.of_forall
    intro s hs
    obtain ⟨n, hn, rfl⟩ := List.mem_map.mp hs
    exact columnName_holds (h n hn)
  exact holds_between (by decide) (by decide) (joinWith_holds (by decide) hnames)

theorem column_text_holds {column : MemberColumn} (h : L.Column column bs) :
    L.Holds (column.text d) bs := by
  cases column with
  | single text name => exact h.1
  | composite names =>
    obtain ⟨hnames, rfl⟩ := h
    exact quotedNames_holds hnames

theorem isGlue_inWord (negated : Bool) : IsGlue (" " ++ inWord negated ++ " (") := by
  cases negated <;> decide

theorem inFragmentText_holds (negated : Bool) {column : String} (hc : L.Holds column bs)
    (h : L.Holds s cs) : L.Holds (inFragmentText column negated s) (bs ++ cs) := by
  have hin := holds_before_glue (g := ")") (by decide) (L.glue (isGlue_inWord negated) hc h)
  simpa [inFragmentText, String.append_assoc] using hin

theorem tupleText_holds {values : List (Option String)} (h : Together L.Member values bs) :
    L.Holds (tupleText values) bs := by
  refine holds_between (by decide) (by decide) (joinWith_holds (by decide) (h.map ?_))
  intro v bs hv
  cases v with
  | none =>
    rw [show bs = [] from hv]
    exact holds_glue (by decide)
  | some s => exact hv

theorem inTuplesText_holds (negated : Bool) {names tuples : List String}
    (hn : ∀ n ∈ names, L.name n) (h : Together L.Holds tuples bs) :
    L.Holds (inTuplesText d names negated tuples) bs := by
  unfold inTuplesText
  split
  · next he =>
    rw [List.isEmpty_iff.mp he, Together.nil_iff] at h
    rw [h]
    exact emptyText_holds negated
  · exact inFragmentText_holds negated (quotedNames_holds hn) (joinWith_holds (by decide) h)

theorem places_holds {members : List (Option String)} (h : Together L.Member members bs) :
    Together L.Holds (members.filterMap id) bs := by
  induction h with
  | nil => exact .nil
  | @cons m ms bs cs hm _ ih =>
    cases m with
    | none =>
      rw [show bs = [] from hm]
      exact ih
    | some s => exact .cons hm ih

theorem placedText_holds (negated : Bool) {column : String} {places : List String}
    (hc : L.Holds column bs) (h : Together L.Holds places cs) :
    L.Holds (placedText column negated places) (bs ++ cs) := by
  unfold placedText
  split
  · have hg : IsGlue (if negated then " <> " else " = ") := by cases negated <;> decide
    rw [Together.singleton_iff] at h
    exact L.glue hg hc h
  · exact inFragmentText_holds negated hc (joinWith_holds (by decide) h)

theorem isNullText_holds (negated : Bool) {column : String} (hc : L.Holds column bs) :
    L.Holds (if negated then column ++ " IS NOT NULL" else column ++ " IS NULL") bs := by
  cases negated
  · exact holds_before_glue (by decide) hc
  · exact holds_before_glue (by decide) hc

/-- The test of a column in members keeps the law if the column is written once or its values are
idle. -/
theorem memberText_holds (negated : Bool) {column : String} {members : List (Option String)}
    (hc : L.Holds column bs) (h : Together L.Member members cs)
    (honce : L.Idle bs ∨ WrittenOnce (members.map Option.isNone)) :
    L.Holds (memberText column negated members) (bs ++ cs) := by
  have hplaces := places_holds h
  unfold memberText
  dsimp only
  split
  · next he =>
    rw [List.isEmpty_iff.mp he, Together.nil_iff] at hplaces
    subst hplaces
    rw [List.append_nil]
    split
    · exact isNullText_holds negated hc
    · next hnull =>
      have hidle : L.Idle bs := by
        refine honce.resolve_right fun hw => hw.1 ?_
        cases members with
        | nil => rfl
        | cons m ms => cases m <;> simp_all
      rw [hidle.holds]
      exact emptyText_holds negated
  · next he =>
    have htest := placedText_holds negated hc hplaces
    split
    · next hnull =>
      have hidle : L.Idle bs := by
        refine honce.resolve_right fun hw => ?_
        obtain ⟨m, hm, hnone⟩ := List.any_eq_true.mp hnull
        rcases hw.2 with hall | hall
        · apply he
          rw [List.isEmpty_iff, List.filterMap_eq_nil_iff]
          intro o ho
          simpa using hall _ (List.mem_map_of_mem ho)
        · rw [hall _ (List.mem_map_of_mem hm)] at hnone
          cases hnone
      rw [hidle.holds_append] at htest ⊢
      have hnil := isNullText_holds negated (hidle.holds.mp hc)
      have hg : IsGlue (if negated then " AND " else " OR ") := by cases negated <;> decide
      have hboth := L.glue hg htest hnil
      simpa [String.append_assoc] using holds_between (by decide) (by decide) hboth
    · exact htest

/-! ## Patterns, arrays and documents -/

/-- The test of a column against patterns keeps the law if there is one pattern or the values of
the column are idle. -/
theorem likeText_holds (negated : Bool) (combine : Conjunction) {column : String}
    {places : List String} (hc : L.Holds column bs) (h : Together L.Holds places cs)
    (honce : L.Idle bs ∨ places.length = 1) :
    L.Holds (likeText d column negated combine places) (bs ++ cs) := by
  have hg : IsGlue (if negated then " NOT LIKE " else " LIKE ") := by cases negated <;> decide
  have hsep : IsGlue (" " ++ combine.word ++ " ") := by cases combine <;> decide
  rcases honce with hidle | hone
  · rw [hidle.holds_append]
    refine joinWith_holds hsep (h.map fun place bs hp => ?_)
    exact L.escape (L.glue hg (hidle.holds.mp hc) hp)
  · obtain ⟨place, rfl⟩ := List.length_eq_one_iff.mp hone
    rw [Together.singleton_iff] at h
    exact L.escape (L.glue hg hc h)

theorem isGlue_brackets (n : Nat) : IsGlue (Text.joinWith "" (List.replicate (n + 1) "[]")) := by
  induction n with
  | zero => decide
  | succ n ih => simpa [List.replicate_succ, Text.joinWith] using IsGlue.append (by decide) ih

theorem arrayTypeText_holds {elementType : Option String} (dimension : Nat)
    (ht : ∀ t ∈ elementType, L.word t) (h : L.Holds s bs) :
    L.Holds (s ++ arrayTypeText elementType dimension) bs := by
  unfold arrayTypeText
  split
  · next t =>
    obtain ⟨n, hn⟩ : ∃ n, max dimension 1 = n + 1 := ⟨max dimension 1 - 1, by omega⟩
    have htype := holds_before_glue (isGlue_brackets n) (L.word_holds (ht t rfl))
    rw [hn]
    simpa [String.append_assoc] using L.cast h htype
  · simpa using h

theorem arrayText_holds {elementType : Option String} (dimension : Nat) {places : List String}
    (ht : ∀ t ∈ elementType, L.word t) (h : Together L.Holds places bs) :
    L.Holds (arrayText elementType dimension places) bs :=
  arrayTypeText_holds dimension ht
    (holds_between (by decide) (by decide) (joinWith_holds (by decide) h))

/-! ## Clauses -/

theorem selectNameText_holds {label : Option String} {n : String} (hl : ∀ a ∈ label, L.name a)
    (hn : L.name n) : L.Holds (selectNameText d label n) [] := by
  unfold selectNameText
  split
  · next a ha =>
    have hlabel := L.column_holds (hl a (Option.eq_some_of_filter_eq_some ha))
    exact L.glue (g := " AS ") (by decide) (columnName_holds hn) hlabel
  · split
    · exact L.name_holds hn
    · split
      · next column a hsplit =>
        obtain ⟨hc, ha⟩ := selectAlias?_subset hsplit
        have hcolumn := L.name_within (m := String.ofList column) hn (by simpa using hc)
        have halias := L.name_within (m := String.ofList a) hn (by simpa using ha)
        exact L.glue (g := " AS ") (by decide) (L.column_holds hcolumn) (L.column_holds halias)
      · exact L.column_holds hn

theorem selectExprText_holds {label : Option String} (hl : ∀ a ∈ label, L.name a)
    (h : L.Holds s bs) : L.Holds (selectExprText d label s) bs := by
  cases label with
  | none => exact h
  | some a =>
    have hlabel := L.column_holds (hl a rfl)
    simpa [selectExprText] using L.glue (g := " AS ") (by decide) h hlabel

theorem tableName_holds {n : String} (hn : L.name n) : L.Holds (tableName d n) [] := by
  unfold tableName
  split
  · exact L.name_holds hn
  · exact L.table_holds hn

theorem tableNameText_holds {label : Option String} {n : String} (hl : ∀ a ∈ label, L.name a)
    (hn : L.name n) : L.Holds (tableNameText d label n) [] := by
  unfold tableNameText
  split
  · next a => exact L.glue (g := " ") (by decide) (tableName_holds hn) (L.table_holds (hl a rfl))
  · split
    · exact L.name_holds hn
    · split
      · next table a hsplit =>
        obtain ⟨ht, ha⟩ := tableAlias?_subset hsplit
        have htable := L.name_within (m := String.ofList table) hn (by simpa using ht)
        have halias := L.name_within (m := String.ofList a) hn (by simpa using ha)
        exact L.glue (g := " ") (by decide) (L.table_holds htable) (L.table_holds halias)
      · exact L.table_holds hn

theorem tableExprText_holds {label : Option String} (hl : ∀ a ∈ label, L.name a)
    (h : L.Holds s bs) : L.Holds (tableExprText d label s) bs := by
  cases label with
  | none => exact h
  | some a =>
    have hlabel := L.table_holds (hl a rfl)
    simpa [tableExprText] using L.glue (g := " ") (by decide) h hlabel

theorem orderNameText_holds {n : String} (direction : SortDirection) (hn : L.name n) :
    L.Holds (orderNameText d n direction) [] := by
  cases direction with
  | asc => exact columnName_holds hn
  | desc => exact holds_before_glue (by decide) (columnName_holds hn)

theorem clauseText_holds (keyword : String) (hk : IsGlue (keyword ++ " ")) (h : L.Holds s bs) :
    L.Holds (clauseText keyword s) bs := by
  unfold clauseText
  split
  · next he => rwa [he] at h
  · exact holds_after_glue hk h

theorem listClauseText_holds (keyword : String) (hk : IsGlue (keyword ++ " "))
    {items : List String} (h : Together L.Holds items bs) :
    L.Holds (listClauseText keyword items) bs := by
  unfold listClauseText
  split
  · next he =>
    rw [List.isEmpty_iff.mp he, Together.nil_iff] at h
    rw [h]
    exact L.nil
  · exact holds_after_glue hk (joinWith_holds (by decide) h)

theorem selectText_holds (distinct : Bool) {option : Option String} {columns : List String}
    (ho : ∀ o ∈ option, L.word o) (h : Together L.Holds columns bs) :
    L.Holds (selectText distinct option columns) bs := by
  have hselect : IsGlue (if distinct then "SELECT DISTINCT" else "SELECT") := by
    cases distinct <;> decide
  have hcolumns : L.Holds (if columns.isEmpty then "*" else Text.joinWith ", " columns) bs := by
    split
    · next he =>
      rw [List.isEmpty_iff.mp he, Together.nil_iff] at h
      rw [h]
      exact holds_glue (by decide)
    · exact joinWith_holds (by decide) h
  unfold selectText
  cases option with
  | none =>
    have hhead := hselect.append (t := " ") (by decide)
    simpa using holds_after_glue hhead hcolumns
  | some o =>
    have hword := L.glue (g := " ") (by decide) (L.word_holds (ho o rfl)) hcolumns
    have hhead := hselect.append (t := " ") (by decide)
    simpa [String.append_assoc] using holds_after_glue hhead hword

theorem joinText_holds (type : JoinType) {table condition : String} (ht : L.Holds table bs)
    (hc : L.Holds condition cs) : L.Holds (joinText type table condition) (bs ++ cs) := by
  have hword : IsGlue (type.word ++ " JOIN ") := by cases type <;> decide
  unfold joinText
  split
  · next he =>
    rw [he] at hc
    have hsame : L.Same (bs ++ cs) (bs ++ []) := Same.refl.append (idle_of_empty hc)
    rw [hsame.holds, List.append_nil, String.append_empty]
    exact holds_after_glue hword ht
  · have hon := L.glue (g := " ON ") (by decide) ht hc
    simpa [String.append_assoc] using holds_after_glue hword hon

theorem unionText_holds (all : Bool) (h : L.Holds s bs) : L.Holds (unionText all s) bs := by
  have hg : IsGlue ((if all then "UNION ALL" else "UNION") ++ " ( ") := by cases all <;> decide
  exact holds_between hg (by decide) h

theorem statementText_holds {clauses unions : List String} (hc : Together L.Holds clauses bs)
    (hu : Together L.Holds unions cs) : L.Holds (statementText clauses unions) (bs ++ cs) := by
  obtain ⟨ds, hds, hsame⟩ := filter_holds hc
  have hsql := joinWith_holds (g := " ") (by decide) hds
  rw [hsame.holds_append]
  unfold statementText
  dsimp only
  split
  · next he =>
    rw [List.isEmpty_iff.mp he, Together.nil_iff] at hu
    rw [hu, List.append_nil]
    exact hsql
  · have hopen := holds_after_glue (g := "(") (by decide) hsql
    simpa [String.append_assoc] using
      L.glue (g := ") ") (by decide) hopen (joinWith_holds (g := " ") (by decide) hu)

theorem isGlue_repr (n : Nat) : IsGlue (Nat.repr n) := by
  refine ⟨Nat.repr_ne_empty, ?_⟩
  rw [Nat.toList_repr, List.all_eq_true]
  intro c hc
  have hdigit := Nat.isDigit_of_mem_toDigits (by decide) (by decide) hc
  simp [isGlueChar, Char.isAlphanum, hdigit]

theorem limitText_holds (limit offset : Option Nat) : L.Holds (limitText d limit offset) [] := by
  unfold limitText
  split
  · next l o _ =>
    have hlimit := IsGlue.append (s := "LIMIT ") (by decide) (isGlue_repr l)
    have hoffset := IsGlue.append (s := " OFFSET ") (by decide) (isGlue_repr o)
    simpa [String.append_assoc] using holds_glue (hlimit.append hoffset)
  · next l _ => exact holds_glue (IsGlue.append (by decide) (isGlue_repr l))
  · next o _ =>
    split
    · have hlimit := IsGlue.append (s := "LIMIT ") (by decide) (isGlue_repr o)
      exact holds_glue (hlimit.append (t := ", 18446744073709551615") (by decide))
    · exact holds_glue (IsGlue.append (by decide) (isGlue_repr o))
    · exact holds_glue (IsGlue.append (by decide) (isGlue_repr o))
  · exact L.nil

end FragmentLaw

end QueryKit
