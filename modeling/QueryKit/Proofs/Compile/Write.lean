import QueryKit.Proofs.Compile.Render
import QueryKit.Proofs.Upsert.Columns

/-!
# What the compiler makes of statements that write

`insert_holds`, `update_holds`, `delete_holds`, `upsert_holds`: a statement whose names, values,
condition and query fit a law of fragments compiles to a fragment that keeps the law. The schema of
the table may be any: it brings values to the kinds of their columns, and a value fits whatever its
kind.
-/

namespace QueryKit

variable (c : Compiler) (L : FragmentLaw c.dialect)

/-- Columns with values to write. -/
def PairsFit (pairs : List (String × Operand)) : Prop :=
  ∀ p ∈ pairs, L.name p.1 ∧ p.2.Fits c L .bound

/-- The rows of an insert. -/
def InsertSource.Fits : InsertSource → Prop
  | .values pairs => PairsFit c L pairs
  | .query q => q.Fits c L

/-- What an upsert does to a row that exists. -/
def UpsertUpdate.Fits : UpsertUpdate → Prop
  | .columns pairs => PairsFit c L pairs
  | _ => True

variable {c} {L}

open FragmentLaw

/-! ## Values on their way into columns -/

theorem ColumnSchema.cast_fits {column : ColumnSchema} {o o' : Operand}
    (h : column.cast o = .ok o') (ho : o.Fits c L .bound) : o'.Fits c L .bound := by
  have hvalue : ∀ r : Result Value, r.map Operand.value = .ok o' → o'.Fits c L .bound := by
    intro r hr
    cases r with
    | error e => cases hr
    | ok v =>
      cases hr
      trivial
  unfold ColumnSchema.cast at h
  split at h
  · split at h
    · cases h
      trivial
    · exact hvalue _ h
  · exact hvalue _ h
  · cases h
    exact ho

theorem castInto_fits {schema : Option TableSchema} {name : String} {o o' : Operand}
    (h : castInto schema name o = .ok o') (ho : o.Fits c L .bound) : o'.Fits c L .bound := by
  unfold castInto at h
  split at h
  · exact ColumnSchema.cast_fits h ho
  · cases h
    exact ho

namespace Compiler

theorem bindColumns_holds {schema : Option TableSchema} : ∀ {pairs : List (String × Operand)},
    PairsFit c L pairs → (c.bindColumns schema pairs).Yields (Together L.Holds)
  | [], _ => .pure .nil
  | (name, o) :: pairs, h => by
    obtain ⟨⟨_, ho⟩, hpairs⟩ := List.forall_mem_cons.mp h
    refine .ofResult_bind fun o' hcast => ?_
    refine (renderOperand_holds .bound (castInto_fits hcast ho)).bind fun _ _ hplace => ?_
    exact (bindColumns_holds hpairs).bind_pure fun _ _ hplaces => .cons hplace hplaces

/-- Assignments. The columns need only have quoted forms that keep the law. -/
theorem updateSets_holds {schema : Option TableSchema} : ∀ {pairs : List (String × Operand)},
    (∀ p ∈ pairs, L.Holds (c.dialect.quoteColumnName p.1) [] ∧ p.2.Fits c L .bound) →
    (c.updateSets schema pairs).Yields (Together L.Holds)
  | [], _ => .pure .nil
  | (name, o) :: pairs, h => by
    obtain ⟨⟨hname, ho⟩, hpairs⟩ := List.forall_mem_cons.mp h
    refine .ofResult_bind fun o' hcast => ?_
    refine (renderOperand_holds .bound (castInto_fits hcast ho)).bind fun _ _ hplace => ?_
    refine (updateSets_holds hpairs).bind_pure fun _ _ hsets => ?_
    exact .cons (by simpa using L.glue (g := "=") (by decide) hname hplace) hsets

/-! ## INSERT -/

theorem selectedName_holds {item : ColumnItem} {n : String} (h : selectedName item = .ok n)
    (hitem : item.Fits c L) : L.name n := by
  obtain ⟨label, column⟩ := item
  obtain ⟨hlabel, hcolumn⟩ := hitem
  cases label with
  | some a =>
    cases h
    exact hlabel _ rfl
  | none =>
    cases column with
    | expr e => cases h
    | name field =>
      unfold selectedName at h
      dsimp only at h
      split at h
      · next hsplit =>
        cases h
        exact L.name_within hcolumn (by simpa using (selectAlias?_subset hsplit).2)
      · cases h
        exact hcolumn

theorem select_fits : ∀ {q : Query}, q.Fits c L → ColumnItemsFit c L q.select
  | ⟨_, _, _, _, _, _, _, _, _, _, _, _, _, _, _, _, _⟩, h => h.2.2.1

theorem mapM_selectedName_holds : ∀ {items : List ColumnItem} {names : List String},
    items.mapM selectedName = .ok names → ColumnItemsFit c L items → ∀ n ∈ names, L.name n
  | [], names, h, _ => by
    rw [List.mapM_nil] at h
    cases h
    exact fun _ hn => nomatch hn
  | item :: items, names, h, ⟨hitem, hitems⟩ => by
    rw [List.mapM_cons] at h
    cases hname : selectedName item with
    | error e =>
      rw [hname] at h
      cases h
    | ok n =>
      cases hnames : items.mapM selectedName with
      | error e =>
        rw [hname, hnames] at h
        cases h
      | ok ns =>
        rw [hname, hnames] at h
        cases h
        refine List.forall_mem_cons.mpr ⟨selectedName_holds hname hitem, ?_⟩
        exact mapM_selectedName_holds hnames hitems

/-- The columns that an insert fills are quoted names. -/
def QuotedNames (c : Compiler) (L : FragmentLaw c.dialect) (names : List String) : Prop :=
  ∀ s ∈ names, ∃ n, L.name n ∧ s = c.dialect.quoteColumnName n

theorem insertSelectNames_quoted {q : Query} {names : List String}
    (h : c.insertSelectNames q = .ok names) (hq : q.Fits c L) : QuotedNames c L names := by
  unfold insertSelectNames at h
  split at h
  · cases h
  · cases hnames : q.select.mapM selectedName with
    | error e =>
      rw [hnames] at h
      cases h
    | ok ns =>
      rw [hnames] at h
      cases h
      intro s hs
      obtain ⟨n, hn, rfl⟩ := List.mem_map.mp hs
      exact ⟨n, mapM_selectedName_holds hnames (select_fits hq) n hn, rfl⟩

theorem QuotedNames.holds {names : List String} (h : QuotedNames c L names) :
    Together L.Holds names [] := by
  apply Together.of_forall
  intro s hs
  obtain ⟨n, hn, rfl⟩ := h s hs
  exact L.column_holds hn

theorem QuotedNames.of_pairs {pairs : List (String × Operand)} (h : PairsFit c L pairs) :
    QuotedNames c L (pairs.map fun p => c.dialect.quoteColumnName p.1) := by
  intro s hs
  obtain ⟨p, hp, rfl⟩ := List.mem_map.mp hs
  exact ⟨p.1, (h p hp).1, rfl⟩

/-- The rows of an insert are written behind a blank. -/
theorem insertParts_holds {source : InsertSource} (schema : Option TableSchema)
    (h : source.Fits c L) :
    (c.insertParts source schema).Yields fun parts bs =>
      QuotedNames c L parts.1 ∧ ∃ rows, parts.2 = " " ++ rows ∧ L.Holds rows bs := by
  cases source with
  | query q =>
    refine .ofResult_bind fun names hnames => ?_
    refine (renderQuery_holds h).bind_pure fun sql _ hs => ?_
    exact ⟨insertSelectNames_quoted hnames h, sql, rfl, hs⟩
  | values pairs =>
    cases pairs with
    | nil => exact .pure ⟨nofun, "DEFAULT VALUES", rfl, holds_glue (by decide)⟩
    | cons p ps =>
      refine (bindColumns_holds h).bind_pure fun places bs hplaces => ⟨.of_pairs h, ?_⟩
      have hrows := joinWith_holds (g := ", ") (by decide) hplaces
      refine ⟨"VALUES (" ++ Text.joinWith ", " places ++ ")", ?_, ?_⟩
      · simp [← String.append_assoc]
      · exact holds_between (by decide) (by decide) hrows

theorem columnList_holds {names : List String} (h : QuotedNames c L names) {s : String}
    {bs : List Binding} (hs : L.Holds s bs) :
    L.Holds (s ++ if names.isEmpty then "" else " (" ++ Text.joinWith ", " names ++ ")") bs := by
  split
  · simpa using hs
  · have hnames := joinWith_holds (g := ", ") (by decide) h.holds
    have hopen := L.glue (g := " (") (by decide) hs hnames
    have hlist := holds_before_glue (g := ")") (by decide) hopen
    simpa [String.append_assoc] using hlist

theorem overwriteText_holds (overwrite : Bool) {names : List String} (h : QuotedNames c L names)
    {s : String} {bs : List Binding} (hs : L.Holds s bs) :
    L.Holds (s ++ if overwrite && !names.isEmpty then overwriteText names else "") bs := by
  split
  · have hsets : Together L.Holds (names.map fun n => n ++ "=VALUES(" ++ n ++ ")") [] := by
      apply Together.of_forall
      intro t ht
      obtain ⟨n, hn, rfl⟩ := List.mem_map.mp ht
      obtain ⟨m, hm, rfl⟩ := h n hn
      have hname := L.column_holds hm
      have hvalue := L.glue (g := "=VALUES(") (by decide) hname hname
      exact holds_before_glue (g := ")") (by decide) hvalue
    have hjoined := joinWith_holds (g := ", ") (by decide) hsets
    have hall := L.glue (g := " ON DUPLICATE KEY UPDATE ") (by decide) hs hjoined
    rw [List.append_nil, String.append_assoc] at hall
    exact hall
  · simpa using hs

/-- An INSERT of rows that fit. -/
theorem insert_holds {table : String} {source : InsertSource} (schema : Option TableSchema)
    (overwrite : Bool) (ht : L.name table) (h : source.Fits c L) :
    (c.insert table source schema overwrite).Yields L.Holds := by
  refine (insertParts_holds schema h).bind ?_
  rintro ⟨names, values⟩ bs ⟨hnames, rows, hrows, hs⟩
  subst hrows
  refine .pure ?_
  have hinto := holds_after_glue (g := "INSERT INTO ") (by decide) (L.table_holds ht)
  have hrows := L.glue (g := " ") (by decide) (columnList_holds hnames hinto) hs
  have hall := overwriteText_holds overwrite hnames hrows
  simpa only [String.append_assoc, List.append_nil, List.nil_append] using hall

/-! ## UPDATE and DELETE -/

theorem pairs_fit {pairs : List (String × Operand)} (h : PairsFit c L pairs) :
    ∀ p ∈ pairs, L.Holds (c.dialect.quoteColumnName p.1) [] ∧ p.2.Fits c L .bound :=
  fun p hp => (h p hp).imp_left L.column_holds

theorem withWhere_holds {sql : String} {condition : Operand} {bs : List Binding}
    (hs : L.Holds sql bs) (hc : condition.Fits c L .condition) :
    (c.withWhere sql condition).Yields fun s cs => L.Holds s (bs ++ cs) := by
  refine (renderOperand_holds .condition hc).bind_pure fun text cs ht => ?_
  split
  · next he =>
    rw [he] at ht
    have hsame : L.Same (bs ++ cs) (bs ++ []) := Same.refl.append (idle_of_empty ht)
    rwa [hsame.holds, List.append_nil]
  · exact L.glue (g := " WHERE ") (by decide) hs ht

/-- An UPDATE of columns and a condition that fit. -/
theorem update_holds {table : String} {columns : List (String × Operand)} {condition : Operand}
    (schema : Option TableSchema) (ht : L.name table) (hcolumns : PairsFit c L columns)
    (hc : condition.Fits c L .condition) :
    (c.update table columns condition schema).Yields L.Holds := by
  refine (updateSets_holds (pairs_fit hcolumns)).bind fun sets bs hsets => withWhere_holds ?_ hc
  have htable := holds_after_glue (g := "UPDATE ") (by decide) (L.table_holds ht)
  simpa using L.glue (g := " SET ") (by decide) htable (joinWith_holds (by decide) hsets)

/-- A DELETE under a condition that fits. -/
theorem delete_holds {table : String} {condition : Operand} (ht : L.name table)
    (hc : condition.Fits c L .condition) : (c.delete table condition).Yields L.Holds := by
  have htable := holds_after_glue (g := "DELETE FROM ") (by decide) (L.table_holds ht)
  exact withWhere_holds htable hc

/-! ## Inserting or updating -/

theorem QuotedNames.mono {names more : List String} (h : QuotedNames c L more)
    (hs : names ⊆ more) : QuotedNames c L names :=
  fun n hn => h n (hs hn)

theorem insertedColumns_quoted {source : InsertSource} {inserted : List String}
    (h : c.insertedColumns source = .ok inserted) (hs : source.Fits c L) :
    QuotedNames c L inserted := by
  cases source with
  | query q => exact insertSelectNames_quoted h hs
  | values pairs =>
    cases h
    exact .of_pairs hs

theorem upsertColumns_quoted {source : InsertSource} {update : UpsertUpdate}
    {schema : Option TableSchema} {columns : UpsertColumns}
    (h : c.upsertColumns source update schema = .ok columns) (hs : source.Fits c L) :
    QuotedNames c L columns.unique ∧ ∀ names ∈ columns.updated, QuotedNames c L names := by
  obtain ⟨hsource, hcolumns⟩ := upsertColumns_ok h
  have hinserted := insertedColumns_quoted hsource hs
  rw [hcolumns]
  refine ⟨hinserted.mono splitColumns_unique_subset, fun names hn => hinserted.mono ?_⟩
  exact splitColumns_updated_subset hn

/-- An assignment of a text to a column of an insert. -/
theorem assignText_fits {names : List String} (h : QuotedNames c L names) {f : String → String}
    (hf : ∀ n ∈ names, L.Holds (f n) []) :
    ∀ p ∈ names.map (fun n => assignText n (f n)),
      L.Holds (c.dialect.quoteColumnName p.1) [] ∧ p.2.Fits c L .bound := by
  intro p hp
  obtain ⟨n, hn, rfl⟩ := List.mem_map.mp hp
  obtain ⟨m, hm, heq⟩ := h n hn
  constructor
  · rw [heq]
    exact L.requoted_holds hm
  · exact L.raw_of_holds (hf n hn)

theorem duplicateAssignments_fit {table : String} {update : UpsertUpdate}
    {columns : UpsertColumns} {pairs : List (String × Operand)} (ht : L.name table)
    (hu : update.Fits c L) (hunique : QuotedNames c L columns.unique)
    (hupdated : ∀ names ∈ columns.updated, QuotedNames c L names)
    (h : c.duplicateAssignments table update columns = some pairs) :
    ∀ p ∈ pairs, L.Holds (c.dialect.quoteColumnName p.1) [] ∧ p.2.Fits c L .bound := by
  have hkey : ∀ first rest, columns.unique = first :: rest → QuotedNames c L [first] :=
    fun first rest hcons => hunique.mono fun _ hn =>
      hcons ▸ List.mem_cons.mpr (.inl (List.mem_singleton.mp hn))
  unfold duplicateAssignments at h
  split at h
  · cases h
  · split at h
    · next first rest hcons =>
      cases h
      have hfirst := hkey first rest hcons
      refine assignText_fits (f := fun n => c.dialect.quoteTableName table ++ "." ++ n) hfirst ?_
      intro n hn
      obtain ⟨m, hm, rfl⟩ := hfirst n hn
      exact L.glue (g := ".") (by decide) (L.table_holds ht) (L.column_holds hm)
    · cases h
  · next names _ _ hnames =>
    cases h
    refine assignText_fits (hupdated names hnames) fun n hn => ?_
    obtain ⟨m, hm, rfl⟩ := hupdated names hnames n hn
    exact holds_between (g := "VALUES(") (h := ")") (by decide) (by decide) (L.column_holds hm)
  · cases h
    exact pairs_fit hu
  · cases h

theorem conflictAssignments_fit {update : UpsertUpdate} {columns : UpsertColumns}
    (hu : update.Fits c L) (hupdated : ∀ names ∈ columns.updated, QuotedNames c L names) :
    ∀ p ∈ conflictAssignments update columns,
      L.Holds (c.dialect.quoteColumnName p.1) [] ∧ p.2.Fits c L .bound := by
  unfold conflictAssignments
  split
  · exact nofun
  · next names _ hnames =>
    refine assignText_fits (hupdated names hnames) fun n hn => ?_
    obtain ⟨m, hm, rfl⟩ := hupdated names hnames n hn
    exact holds_after_glue (g := "EXCLUDED.") (by decide) (L.column_holds hm)
  · exact pairs_fit hu
  · exact nofun

/-- The clause is written behind an INSERT. -/
theorem conflictClause_holds (syntax_ : UpsertSyntax) {table : String} {update : UpsertUpdate}
    {columns : UpsertColumns} (schema : Option TableSchema) (ht : L.name table)
    (hu : update.Fits c L) (hunique : QuotedNames c L columns.unique)
    (hupdated : ∀ names ∈ columns.updated, QuotedNames c L names) {sql : String}
    {bs : List Binding} (hs : L.Holds sql bs) :
    (c.conflictClause syntax_ table update columns schema).Yields fun clause cs =>
      L.Holds (sql ++ clause) (bs ++ cs) := by
  cases syntax_ with
  | onDuplicateKey =>
    unfold conflictClause
    dsimp only
    split
    · exact .pure (by simpa using hs)
    · next pairs hpairs =>
      have hfit := duplicateAssignments_fit ht hu hunique hupdated hpairs
      refine (updateSets_holds hfit).bind_pure fun sets cs hsets => ?_
      have hsets := joinWith_holds (g := ", ") (by decide) hsets
      rw [← String.append_assoc]
      exact L.glue (g := " ON DUPLICATE KEY UPDATE ") (by decide) hs hsets
  | onConflict =>
    have hfit := conflictAssignments_fit hu hupdated
    unfold conflictClause
    dsimp only
    split
    · refine .pure ?_
      rw [List.append_nil]
      exact holds_before_glue (g := " ON CONFLICT DO NOTHING") (by decide) hs
    · refine (updateSets_holds hfit).bind_pure fun sets cs hsets => ?_
      have hkeys := joinWith_holds (g := ", ") (by decide) hunique.holds
      have hopen := L.glue (g := " ON CONFLICT (") (by decide) hs hkeys
      have hsets := joinWith_holds (g := ", ") (by decide) hsets
      have hall := L.glue (g := ") DO UPDATE SET ") (by decide) hopen hsets
      simpa only [String.append_assoc, List.append_nil] using hall

/-- An upsert of rows and assignments that fit. -/
theorem upsert_holds {table : String} {source : InsertSource} {update : UpsertUpdate}
    (schema : Option TableSchema) (ht : L.name table) (hs : source.Fits c L)
    (hu : update.Fits c L) : (c.upsert table source update schema).Yields L.Holds := by
  unfold upsert
  split
  · exact .ofResult nofun
  · next syntax_ _ =>
    refine .ofResult_bind fun columns hcolumns => ?_
    obtain ⟨hunique, hupdated⟩ := upsertColumns_quoted hcolumns hs
    refine (insert_holds schema false ht hs).bind fun sql bs hsql => ?_
    split
    · exact .pure (by simpa using hsql)
    · exact (conflictClause_holds syntax_ schema ht hu hunique hupdated hsql).bind_pure
        fun _ _ hclause => hclause

end Compiler

end QueryKit
