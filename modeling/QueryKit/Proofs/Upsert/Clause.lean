import QueryKit.Proofs.Compile.Yields
import QueryKit.Proofs.Upsert.Columns

/-!
# What stands behind the INSERT of an upsert

- `ConflictClause`: the clauses of both syntaxes, with their assignments. A clause is complete if it
  says what happens to a row that exists.
- `Compiler.upsert_ok`: an upsert is its INSERT and a clause that follows from the columns
  (`Compiler.Closes`).
- `upsert_complete_iff`: the clause is complete if and only if a key is covered, unless rows are to
  be kept, or given no assignments, behind ON DUPLICATE KEY UPDATE.
- `upsert_target_iff`: the target of ON CONFLICT is a key of the table if and only if one covered
  key has the columns of all of them.
-/

namespace QueryKit

/-- A column and what is assigned to it. -/
structure Assignment where
  column : String
  value : String

def Assignment.text (a : Assignment) : String :=
  a.column ++ "=" ++ a.value

/-- What an INSERT says about rows that exist. -/
inductive ConflictClause where
  /-- Nothing, so that such a row is a failure. -/
  | absent
  | duplicateKey (sets : List Assignment)
  | doNothing
  | doUpdate (target : List String) (sets : List Assignment)

namespace ConflictClause

def setsText (sets : List Assignment) : String :=
  Text.joinWith ", " (sets.map Assignment.text)

def text : ConflictClause → String
  | absent => ""
  | duplicateKey sets => " ON DUPLICATE KEY UPDATE " ++ setsText sets
  | doNothing => " ON CONFLICT DO NOTHING"
  | doUpdate target sets =>
    " ON CONFLICT (" ++ (Text.joinWith ", " target ++ ") DO UPDATE SET " ++ setsText sets)

theorem text_duplicateKey (sets : List Assignment) :
    (duplicateKey sets).text = " ON DUPLICATE KEY UPDATE " ++ setsText sets :=
  rfl

theorem text_doUpdate (target : List String) (sets : List Assignment) :
    (doUpdate target sets).text =
      " ON CONFLICT (" ++ (Text.joinWith ", " target ++ ") DO UPDATE SET " ++ setsText sets) :=
  rfl

/-- Rows that exist are kept or updated, and an update assigns to a column. -/
def Complete : ConflictClause → Prop
  | absent => False
  | duplicateKey sets => sets ≠ []
  | doNothing => True
  | doUpdate target sets => target ≠ [] ∧ sets ≠ []

/-- A text that names a target is an update of rows that exist. -/
theorem text_eq_target {clause : ConflictClause} {rest : String}
    (h : clause.text = " ON CONFLICT (" ++ rest) : ∃ target sets, clause = doUpdate target sets ∧
      rest = Text.joinWith ", " target ++ ") DO UPDATE SET " ++ setsText sets := by
  -- the clauses of a fixed text differ from it where the target begins
  have hopen : clause.text.toList[13]? = some '(' := by
    rw [h, String.toList_append, List.getElem?_append_left (by decide)]
    decide
  cases clause with
  | doUpdate target sets =>
    rw [text_doUpdate, String.append_right_inj] at h
    exact ⟨target, sets, rfl, h.symm⟩
  | absent | doNothing => exact absurd hopen (by decide)
  | duplicateKey sets =>
    rw [text_duplicateKey, String.toList_append, List.getElem?_append_left (by decide)] at hopen
    exact absurd hopen (by decide)

end ConflictClause

namespace Compiler

variable {c : Compiler} {table : String} {source : InsertSource} {update : UpsertUpdate}
  {schema : Option TableSchema} {columns : UpsertColumns} {inserted : List String}
  {pairs : List (String × Operand)} {bs : List Binding}

/-! ## The clause of an upsert -/

/-- The assignments go to the columns of these pairs. -/
def Assigns (c : Compiler) (pairs : List (String × Operand)) (sets : List Assignment) : Prop :=
  sets.map Assignment.column = pairs.map fun p => c.dialect.quoteColumnName p.1

theorem Assigns.eq_nil_iff {sets : List Assignment} (h : c.Assigns pairs sets) :
    sets = [] ↔ pairs = [] := by
  have hlength := congrArg List.length h
  rw [List.length_map, List.length_map] at hlength
  rw [← List.length_eq_zero_iff, hlength, List.length_eq_zero_iff]

theorem updateSets_ok : ∀ {pairs : List (String × Operand)} {texts : List String}
    {bs : List Binding}, c.updateSets schema pairs = .ok (texts, bs) →
    ∃ sets, c.Assigns pairs sets ∧ texts = sets.map Assignment.text
  | [], _, _, h => by
    cases h
    exact ⟨[], rfl, rfl⟩
  | (name, o) :: pairs, _, _, h => by
    rw [updateSets] at h
    obtain ⟨o', _, _, -, h, -⟩ := Compile.bind_ok h
    obtain ⟨place, _, _, -, h, -⟩ := Compile.bind_ok h
    obtain ⟨texts, _, _, htexts, h, -⟩ := Compile.bind_ok h
    cases h
    obtain ⟨sets, hsets, rfl⟩ := updateSets_ok htexts
    exact ⟨⟨c.dialect.quoteColumnName name, place⟩ :: sets, congrArg (_ :: ·) hsets, rfl⟩

/-- The clause of an upsert in a syntax, from its columns. -/
inductive Closes (c : Compiler) (table : String) (update : UpsertUpdate) (columns : UpsertColumns) :
    UpsertSyntax → ConflictClause → Prop
  | kept (h : c.duplicateAssignments table update columns = none) :
    Closes c table update columns .onDuplicateKey .absent
  | duplicateKey {pairs : List (String × Operand)} {sets : List Assignment}
    (h : c.duplicateAssignments table update columns = some pairs) (hsets : c.Assigns pairs sets) :
    Closes c table update columns .onDuplicateKey (.duplicateKey sets)
  | doNothing (h : conflictAssignments update columns = []) :
    Closes c table update columns .onConflict .doNothing
  | doUpdate {sets : List Assignment} (h : conflictAssignments update columns ≠ [])
    (hsets : c.Assigns (conflictAssignments update columns) sets) :
    Closes c table update columns .onConflict (.doUpdate columns.unique sets)

theorem conflictClause_ok {syntax_ : UpsertSyntax} {text : String}
    (h : c.conflictClause syntax_ table update columns schema = .ok (text, bs)) :
    ∃ clause, c.Closes table update columns syntax_ clause ∧ text = clause.text := by
  unfold conflictClause at h
  cases syntax_ with
  | onDuplicateKey =>
    dsimp only at h
    split at h
    · next hnone =>
      cases h
      exact ⟨.absent, .kept hnone, rfl⟩
    · next pairs hpairs =>
      obtain ⟨texts, _, _, htexts, h, -⟩ := Compile.bind_ok h
      cases h
      obtain ⟨sets, hsets, rfl⟩ := updateSets_ok htexts
      exact ⟨.duplicateKey sets, .duplicateKey hpairs hsets, rfl⟩
  | onConflict =>
    dsimp only at h
    split at h
    · next hnil =>
      cases h
      exact ⟨.doNothing, .doNothing hnil, rfl⟩
    · next hne =>
      obtain ⟨texts, _, _, htexts, h, -⟩ := Compile.bind_ok h
      cases h
      obtain ⟨sets, hsets, rfl⟩ := updateSets_ok htexts
      exact ⟨.doUpdate columns.unique sets, .doUpdate hne hsets, rfl⟩

/-- An upsert that compiles is its INSERT and a clause. Without a key column there is none. -/
theorem upsert_ok {text : String} (h : c.upsert table source update schema = .ok (text, bs)) :
    ∃ syntax_ columns sql cs clause, c.dialect.upsertSyntax = some syntax_ ∧
      c.upsertColumns source update schema = .ok columns ∧
      c.insert table source schema false = .ok (sql, cs) ∧ text = sql ++ clause.text ∧
      (columns.unique = [] ∧ clause = .absent ∨
        columns.unique ≠ [] ∧ c.Closes table update columns syntax_ clause) := by
  unfold upsert at h
  split at h
  · cases h
  · next syntax_ hsyntax =>
    obtain ⟨columns, _, _, hcolumns, h, -⟩ := Compile.bind_ok h
    obtain ⟨sql, cs, _, hsql, h, -⟩ := Compile.bind_ok h
    obtain ⟨hcolumns, -⟩ := Compile.ofResult_ok hcolumns
    split at h
    · next hnone =>
      cases h
      refine ⟨syntax_, columns, _, cs, .absent, hsyntax, hcolumns, hsql, ?_, .inl ⟨?_, rfl⟩⟩
      · exact String.append_empty.symm
      · exact List.isEmpty_iff.mp hnone
    · next hsome =>
      obtain ⟨clauseText, _, _, hclause, h, -⟩ := Compile.bind_ok h
      cases h
      obtain ⟨clause, hcloses, rfl⟩ := conflictClause_ok hclause
      exact ⟨syntax_, columns, sql, cs, clause, hsyntax, hcolumns, hsql, rfl,
        .inr ⟨fun hnil => hsome (List.isEmpty_iff.mpr hnil), hcloses⟩⟩

/-! ## Complete clauses -/

/-- Behind ON DUPLICATE KEY UPDATE there is something to assign unless rows are to be kept or given
no assignments. -/
theorem duplicateAssignments_cases (table : String)
    (hkey : (c.splitColumns update schema inserted).unique ≠ []) :
    update = .nothing ∧
        c.duplicateAssignments table update (c.splitColumns update schema inserted) = none ∨
      update ≠ .nothing ∧ ∃ pairs, (pairs = [] ↔ update = .columns []) ∧
        c.duplicateAssignments table update (c.splitColumns update schema inserted) =
          some pairs := by
  cases update with
  | nothing => exact .inl ⟨rfl, rfl⟩
  | columns pairs => exact .inr ⟨nofun, pairs, by simp, rfl⟩
  | all =>
    refine .inr ⟨nofun, ?_⟩
    unfold duplicateAssignments
    cases hnames : (c.splitColumns .all schema inserted).updated with
    | none => cases hnames
    | some names =>
      cases names with
      | nil =>
        obtain ⟨first, rest, hfirst⟩ := List.exists_cons_of_ne_nil hkey
        exact ⟨[_], by simp, by rw [hfirst]⟩
      | cons n names => exact ⟨_, by simp, rfl⟩

theorem Closes.complete_iff {syntax_ : UpsertSyntax} {clause : ConflictClause}
    (h : c.Closes table update (c.splitColumns update schema inserted) syntax_ clause)
    (hkey : (c.splitColumns update schema inserted).unique ≠ []) :
    clause.Complete ↔
      ¬(syntax_ = .onDuplicateKey ∧ (update = .nothing ∨ update = .columns [])) := by
  have hcases := duplicateAssignments_cases table hkey
  cases h with
  | kept hnone =>
    rw [hnone] at hcases
    rcases hcases with ⟨rfl, -⟩ | ⟨-, _, -, hsome⟩
    · simp [ConflictClause.Complete]
    · cases hsome
  | duplicateKey hpairs hsets =>
    rw [hpairs] at hcases
    rcases hcases with ⟨-, hnone⟩ | ⟨hne, _, hnil, hsome⟩
    · cases hnone
    · cases hsome
      simp [ConflictClause.Complete, hsets.eq_nil_iff, hnil, hne]
  | doNothing => simp [ConflictClause.Complete]
  | doUpdate hne hsets => simp [ConflictClause.Complete, hsets.eq_nil_iff, hne, hkey]

/-- A key column is a column of a covered key. -/
theorem coveredColumns_ne_nil_iff {t : TableSchema} :
    c.coveredColumns inserted t ≠ [] ↔ ∃ k, c.Covers inserted t k ∧ k ≠ [] := by
  constructor
  · intro hne
    obtain ⟨x, hx⟩ := List.exists_mem_of_ne_nil _ hne
    obtain ⟨k, hk, hx⟩ := mem_coveredColumns.mp hx
    exact ⟨k, hk, fun hnil => by simp [hnil] at hx⟩
  · rintro ⟨k, hk, hne⟩
    obtain ⟨n, hn⟩ := List.exists_mem_of_ne_nil k hne
    exact List.ne_nil_of_mem (mem_coveredColumns.mpr ⟨k, hk, List.mem_map_of_mem hn⟩)

/-- An upsert ends in a complete clause if and only if its insert fills every column of a key,
unless rows are to be kept, or given no assignments, behind ON DUPLICATE KEY UPDATE. -/
theorem upsert_complete_iff (c : Compiler) (table : String) (source : InsertSource)
    (update : UpsertUpdate) (t : TableSchema) (text : String) (bs : List Binding)
    (h : c.upsert table source update (some t) = .ok (text, bs)) :
    ∃ columns sql cs, ∃ clause : ConflictClause,
      c.upsertColumns source update (some t) = .ok columns ∧
      c.insert table source (some t) false = .ok (sql, cs) ∧ text = sql ++ clause.text ∧
      (∀ target sets, clause = .doUpdate target sets → target = columns.unique) ∧
      (clause.Complete ↔ (∃ k, c.Covers columns.inserted t k ∧ k ≠ []) ∧
        ¬(c.dialect.upsertSyntax = some .onDuplicateKey ∧
          (update = .nothing ∨ update = .columns []))) := by
  obtain ⟨syntax_, columns, sql, cs, clause, hsyntax, hcolumns, hsql, htext, hclause⟩ := upsert_ok h
  obtain ⟨-, hsplit⟩ := upsertColumns_ok hcolumns
  refine ⟨columns, sql, cs, clause, hcolumns, hsql, htext, ?_, ?_⟩
  · rintro target sets rfl
    rcases hclause with ⟨-, habsent⟩ | ⟨-, hcloses⟩
    · cases habsent
    · cases hcloses
      rfl
  · rw [← coveredColumns_ne_nil_iff, ← upsertColumns_unique hcolumns, hsyntax,
      Option.some.injEq]
    rcases hclause with ⟨hnone, rfl⟩ | ⟨hsome, hcloses⟩
    · simp [ConflictClause.Complete, hnone]
    · rw [and_iff_right hsome]
      rw [hsplit] at hcloses hsome
      exact hcloses.complete_iff hsome

/-- A member that is to be kept: the key of its address is covered, and there is no clause. -/
theorem keptMember_incomplete :
    ∃ text bs columns sql cs, ∃ clause : ConflictClause,
      (Compiler.ofDialect .mysql).upsert "member" namedMember .nothing (some memberSchema) =
        .ok (text, bs) ∧
      (Compiler.ofDialect .mysql).upsertColumns namedMember .nothing (some memberSchema) =
        .ok columns ∧
      (Compiler.ofDialect .mysql).Covers columns.inserted memberSchema ["email"] ∧
      (Compiler.ofDialect .mysql).insert "member" namedMember (some memberSchema) false =
        .ok (sql, cs) ∧
      text = sql ++ clause.text ∧ ¬clause.Complete := by
  obtain ⟨text, bs, hupsert⟩ : ∃ text bs,
      (Compiler.ofDialect .mysql).upsert "member" namedMember .nothing (some memberSchema) =
        .ok (text, bs) := ⟨_, _, rfl⟩
  obtain ⟨columns, sql, cs, clause, hcolumns, hsql, htext, -, hcomplete⟩ :=
    upsert_complete_iff (.ofDialect .mysql) "member" namedMember .nothing memberSchema _ _ hupsert
  refine ⟨text, bs, columns, sql, cs, clause, hupsert, hcolumns, ?_, hsql, htext,
    fun h => (hcomplete.mp h).2 ⟨rfl, .inl rfl⟩⟩
  cases hcolumns
  exact ⟨memberSchema_email, by decide⟩

/-! ## The target of a clause -/

/-- The columns of the covered keys are those of a key just when they are those of a covered one,
and so of one that has the columns of the others. -/
theorem coveredColumns_key_iff {t : TableSchema} :
    (∃ k, t.UniqueKey k ∧
        ∀ n, n ∈ c.coveredColumns inserted t ↔ n ∈ k.map c.dialect.quoteColumnName) ↔
      ∃ k, c.Covers inserted t k ∧ ∀ r, c.Covers inserted t r →
        r.map c.dialect.quoteColumnName ⊆ k.map c.dialect.quoteColumnName := by
  constructor
  · rintro ⟨k, hk, hcolumns⟩
    refine ⟨k, ⟨hk, fun n hn => ?_⟩, fun r hr x hx => ?_⟩
    · exact coveredColumns_subset ((hcolumns _).mpr (List.mem_map_of_mem hn))
    · exact (hcolumns x).mp (mem_coveredColumns.mpr ⟨r, hr, hx⟩)
  · rintro ⟨k, hk, hlargest⟩
    refine ⟨k, hk.1, fun x => ⟨fun hx => ?_, fun hx => mem_coveredColumns.mpr ⟨k, hk, hx⟩⟩⟩
    obtain ⟨r, hr, hx⟩ := mem_coveredColumns.mp hx
    exact hlargest r hr hx

/-- An upsert that names a target names the columns of the covered keys. They are the columns of a
key of the table if and only if one covered key has the columns of all of them. -/
theorem upsert_target_iff (c : Compiler) (table : String) (source : InsertSource)
    (update : UpsertUpdate) (t : TableSchema) (sql rest : String) (cs bs : List Binding)
    (hinsert : c.insert table source (some t) false = .ok (sql, cs))
    (h : c.upsert table source update (some t) = .ok (sql ++ (" ON CONFLICT (" ++ rest), bs)) :
    ∃ columns sets, c.upsertColumns source update (some t) = .ok columns ∧
      rest = Text.joinWith ", " columns.unique ++ ") DO UPDATE SET " ++
        ConflictClause.setsText sets ∧
      ((∃ k, t.UniqueKey k ∧
          ∀ n, n ∈ columns.unique ↔ n ∈ k.map c.dialect.quoteColumnName) ↔
        ∃ k, c.Covers columns.inserted t k ∧ ∀ r, c.Covers columns.inserted t r →
          r.map c.dialect.quoteColumnName ⊆ k.map c.dialect.quoteColumnName) := by
  obtain ⟨syntax_, columns, sql', cs', clause, -, hcolumns, hsql, htext, hclause⟩ := upsert_ok h
  rw [hinsert] at hsql
  cases hsql
  have hopen := ((String.append_right_inj sql).mp htext).symm
  obtain ⟨target, sets, rfl, hrest⟩ := ConflictClause.text_eq_target hopen
  rcases hclause with ⟨-, habsent⟩ | ⟨-, hcloses⟩
  · cases habsent
  · cases hcloses
    refine ⟨columns, sets, hcolumns, hrest, ?_⟩
    rw [upsertColumns_unique hcolumns]
    exact coveredColumns_key_iff

/-- A member with a number and an address, both of which are keys. -/
def numberedMember : InsertSource :=
  .values [("id", .value (.int32 1)), ("email", .string "e"), ("age", .value (.int32 7))]

/-- The target has the columns of two keys, and is no key itself. -/
theorem numberedMember_target :
    ∃ bs, (Compiler.ofDialect .postgres).upsert "member" numberedMember .all (some memberSchema) =
        .ok ("INSERT INTO \"member\" (\"id\", \"email\", \"age\") VALUES (?, ?, ?)" ++
          (" ON CONFLICT (" ++
            "\"id\", \"email\") DO UPDATE SET \"age\"=EXCLUDED.\"age\""), bs) ∧
      ¬∃ k, memberSchema.UniqueKey k ∧
        ∀ n, n ∈ ["\"id\"", "\"email\""] ↔ n ∈ k.map Dialect.postgres.quoteColumnName := by
  refine ⟨_, rfl, fun hkey => ?_⟩
  obtain ⟨columns, sets, hcolumns, -, hiff⟩ :=
    upsert_target_iff (.ofDialect .postgres) "member" numberedMember .all memberSchema
      "INSERT INTO \"member\" (\"id\", \"email\", \"age\") VALUES (?, ?, ?)"
      "\"id\", \"email\") DO UPDATE SET \"age\"=EXCLUDED.\"age\"" _ _ rfl rfl
  cases hcolumns
  obtain ⟨k, hk, hlargest⟩ := hiff.mp hkey
  have hid : memberSchema.UniqueKey ["id"] := .listed rfl (List.cons_ne_nil _ _)
  have hnumber := hlargest ["id"] ⟨hid, by decide⟩
  have haddress := hlargest ["email"] ⟨memberSchema_email, by decide⟩
  have hmem : k ∈ [["id"], ["email"], ["team", "name"]] := TableSchema.mem_uniqueSets.mpr hk.1
  rcases List.mem_cons.mp hmem with rfl | hmem
  · revert haddress
    decide
  · revert hnumber
    rcases List.mem_cons.mp hmem with rfl | hmem
    · decide
    · cases List.mem_singleton.mp hmem
      decide

end Compiler

end QueryKit
