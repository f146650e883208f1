import QueryKit.Statement.Upsert

/-!
# The columns of an upsert

- `TableSchema.UniqueKey`: the sets of columns that keep the rows of a table apart.
  `TableSchema.AddsCopy`: a schema that states one of them once more, with its columns in any order.
  That leaves the keys as they are, up to the order of their columns (`AddsCopy.hasKeysOf`).
- `distinctSets_perm`: of a set that is passed over, an earlier one has the same columns. So the
  columns of covered keys are those of every covered key (`mem_coveredColumns`).
- `upsertColumns_eq`: the columns of an upsert follow from those that its insert fills.
- `upsertColumns_partition`: the columns of covered keys, and the others.
-/

namespace QueryKit

namespace TableSchema

/-- A set of columns that keeps rows apart: the primary key, of its constraint or else of the
table's own list, a unique index, or a unique constraint. -/
inductive UniqueKey (t : TableSchema) : List String → Prop
  | primary {k : Constraint} (hk : t.constraints.primaryKey = some k) : UniqueKey t k.columns
  | listed (hk : t.constraints.primaryKey = none) (hl : t.primaryKey ≠ []) :
    UniqueKey t t.primaryKey
  | index {i : IndexConstraint} (hi : i ∈ t.constraints.indexes) (hu : i.isUnique = true) :
    UniqueKey t i.columns
  | unique {u : Constraint} (hu : u ∈ t.constraints.uniques) : UniqueKey t u.columns

/-- A key is stated once more, with its columns in any order. A primary key of the table's own list
may be stated as a constraint too, which then stands for the list. -/
inductive AddsCopy (t : TableSchema) : TableSchema → Prop
  | primary {k : Constraint} {r : List String} (hr : t.UniqueKey r) (hp : r.Perm k.columns)
    (hk : t.constraints.primaryKey = none) (hl : t.primaryKey = []) :
    AddsCopy t { t with constraints := { t.constraints with primaryKey := some k } }
  | primaryOfList {k : Constraint} (hp : t.primaryKey.Perm k.columns)
    (hk : t.constraints.primaryKey = none) (hl : t.primaryKey ≠ []) :
    AddsCopy t { t with constraints := { t.constraints with primaryKey := some k } }
  | listed {k r : List String} (hr : t.UniqueKey r) (hp : r.Perm k)
    (hk : t.constraints.primaryKey = none) (hl : t.primaryKey = []) (hne : k ≠ []) :
    AddsCopy t { t with primaryKey := k }
  | index {i : IndexConstraint} {r : List String} {before after : List IndexConstraint}
    (hr : t.UniqueKey r) (hp : r.Perm i.columns) (hu : i.isUnique = true)
    (hi : t.constraints.indexes = before ++ after) :
    AddsCopy t { t with constraints := { t.constraints with indexes := before ++ i :: after } }
  | unique {u : Constraint} {r : List String} {before after : List Constraint}
    (hr : t.UniqueKey r) (hp : r.Perm u.columns) (hu : t.constraints.uniques = before ++ after) :
    AddsCopy t { t with constraints := { t.constraints with uniques := before ++ u :: after } }

variable {t t' : TableSchema} {k : List String}

theorem mem_uniqueSets : k ∈ t.uniqueSets ↔ t.UniqueKey k := by
  unfold uniqueSets
  rw [List.mem_append, List.mem_append, List.mem_map, List.mem_map]
  constructor
  · rintro ((h | ⟨i, hi, rfl⟩) | ⟨u, hu, rfl⟩)
    · cases hk : t.constraints.primaryKey with
      | some c =>
        rw [hk] at h
        cases List.mem_singleton.mp h
        exact .primary hk
      | none =>
        rw [hk] at h
        dsimp only at h
        split at h
        · cases h
        · next hl =>
          cases List.mem_singleton.mp h
          exact .listed hk fun hnil => hl (List.isEmpty_iff.mpr hnil)
    · obtain ⟨hi, hu⟩ := List.mem_filter.mp hi
      exact .index hi hu
    · exact .unique hu
  · rintro (hk | ⟨hk, hl⟩ | ⟨hi, hu⟩ | hu)
    · rw [hk]
      exact .inl (.inl (List.mem_singleton_self _))
    · rw [hk]
      exact .inl (.inl (by simp [hl]))
    · exact .inl (.inr ⟨_, List.mem_filter.mpr ⟨hi, hu⟩, rfl⟩)
    · exact .inr ⟨_, hu, rfl⟩

/-- One list of keys has those of another, with the columns of each in any order. -/
def HasKeysOf (t t' : TableSchema) : Prop :=
  ∀ r, t'.UniqueKey r → ∃ k, t.UniqueKey k ∧ r.Perm k

theorem hasKeysOf_of_added {r copy : List String} (hr : t.UniqueKey r) (hp : r.Perm copy)
    (hkeys : ∀ k, t'.UniqueKey k ↔ k = copy ∨ t.UniqueKey k) :
    t.HasKeysOf t' ∧ t'.HasKeysOf t := by
  refine ⟨fun k hk => ?_, fun k hk => ⟨k, (hkeys k).mpr (.inr hk), .refl k⟩⟩
  rcases (hkeys k).mp hk with rfl | hk
  · exact ⟨r, hr, hp.symm⟩
  · exact ⟨k, hk, .refl k⟩

/-- A copy of a key leaves the keys as they are, up to the order of their columns. -/
theorem AddsCopy.hasKeysOf (h : t.AddsCopy t') : t.HasKeysOf t' ∧ t'.HasKeysOf t := by
  cases h with
  | primary hr hp hk hl =>
    exact hasKeysOf_of_added hr hp fun k => by simp [← mem_uniqueSets, uniqueSets, hk, hl]
  | listed hr hp hk hl hne =>
    exact hasKeysOf_of_added hr hp fun k => by simp [← mem_uniqueSets, uniqueSets, hk, hl, hne]
  | index hr hp hu hi =>
    exact hasKeysOf_of_added hr hp fun k => by
      simp [← mem_uniqueSets, uniqueSets, hi, hu, or_left_comm]
  | unique hr hp hu =>
    exact hasKeysOf_of_added hr hp fun k => by simp [← mem_uniqueSets, uniqueSets, hu, or_left_comm]
  | @primaryOfList c hp hk hl =>
    have hlist : t.UniqueKey t.primaryKey := .listed hk hl
    refine ⟨?_, ?_⟩
    · rintro _ (hc | ⟨hc, -⟩ | ⟨hi, hu⟩ | hu)
      · cases hc
        exact ⟨_, hlist, hp.symm⟩
      · cases hc
      · exact ⟨_, .index hi hu, .refl _⟩
      · exact ⟨_, .unique hu, .refl _⟩
    · rintro _ (hc | - | ⟨hi, hu⟩ | hu)
      · rw [hk] at hc
        cases hc
      · exact ⟨_, .primary rfl, hp⟩
      · exact ⟨_, .index hi hu, .refl _⟩
      · exact ⟨_, .unique hu, .refl _⟩

end TableSchema

namespace Compiler

variable {c : Compiler} {x : String} {inserted : List String} {t : TableSchema}

/-! ## Columns without repetition -/

theorem addNew_cons (names : List String) (n : String) (more : List String) :
    addNew names (n :: more) = addNew (if names.contains n then names else names ++ [n]) more :=
  rfl

theorem mem_addNew : ∀ {more names : List String}, x ∈ addNew names more ↔ x ∈ names ∨ x ∈ more
  | [], _ => by simp [addNew]
  | n :: more, names => by
    rw [addNew_cons, mem_addNew]
    split
    · next hn =>
      rw [List.mem_cons]
      refine ⟨Or.imp_right .inr, ?_⟩
      rintro (hx | rfl | hx)
      · exact .inl hx
      · exact .inl (by simpa using hn)
      · exact .inr hx
    · rw [List.mem_append, List.mem_singleton, List.mem_cons, or_assoc]

theorem nodup_addNew : ∀ (more : List String) {names : List String}, names.Nodup →
    (addNew names more).Nodup
  | [], _, h => h
  | n :: more, names, h => by
    rw [addNew_cons]
    refine nodup_addNew more ?_
    split
    · exact h
    · next hn =>
      rw [List.Perm.nodup_iff List.perm_append_comm, List.singleton_append, List.nodup_cons]
      exact ⟨by simpa using hn, h⟩

theorem mem_foldl_addNew : ∀ {sets : List (List String)} {names : List String},
    x ∈ sets.foldl addNew names ↔ x ∈ names ∨ ∃ s ∈ sets, x ∈ s
  | [], _ => by simp
  | s :: sets, names => by
    rw [List.foldl_cons, mem_foldl_addNew, mem_addNew, or_assoc]
    simp only [List.mem_cons, exists_eq_or_imp]

theorem nodup_foldl_addNew : ∀ (sets : List (List String)) {names : List String}, names.Nodup →
    (sets.foldl addNew names).Nodup
  | [], _, h => h
  | s :: sets, _, h => nodup_foldl_addNew sets (nodup_addNew s h)

/-! ## Sets of columns without copies -/

theorem distinctSets_subset : ∀ {sets seen : List (List String)}, distinctSets seen sets ⊆ sets
  | [], _ => List.Subset.refl _
  | s :: sets, seen => by
    rw [distinctSets]
    split
    · exact List.subset_cons_of_subset s distinctSets_subset
    · exact List.cons_subset_cons s distinctSets_subset

/-- A set that is passed over has the columns of an earlier one. -/
theorem distinctSets_perm {s : List String} : ∀ {sets : List (List String)}
    (seen : List (List String)), s ∈ sets →
    ∃ r, (r ∈ seen ∨ r ∈ distinctSets seen sets) ∧ r.Perm s
  | s' :: sets, seen, h => by
    rw [distinctSets]
    split
    · next hseen =>
      rcases List.mem_cons.mp h with rfl | h
      · obtain ⟨r, hr, hperm⟩ := List.any_eq_true.mp hseen
        exact ⟨r, .inl hr, List.isPerm_iff.mp hperm⟩
      · exact distinctSets_perm seen h
    · rcases List.mem_cons.mp h with rfl | h
      · exact ⟨s, .inr List.mem_cons_self, .refl s⟩
      · obtain ⟨r, hr, hperm⟩ := distinctSets_perm (seen ++ [s']) h
        rw [List.mem_append, List.mem_singleton, or_assoc, ← List.mem_cons] at hr
        exact ⟨r, hr, hperm⟩

/-! ## Covered keys -/

/-- An insert fills every column of a key. -/
def Covers (c : Compiler) (inserted : List String) (t : TableSchema) (k : List String) : Prop :=
  t.UniqueKey k ∧ ∀ n ∈ k, c.dialect.quoteColumnName n ∈ inserted

theorem mem_coveredColumns : x ∈ c.coveredColumns inserted t ↔
    ∃ k, c.Covers inserted t k ∧ x ∈ k.map c.dialect.quoteColumnName := by
  unfold coveredColumns
  rw [mem_foldl_addNew]
  constructor
  · rintro (hx | ⟨s, hs, hx⟩)
    · cases hx
    · obtain ⟨hs, hall⟩ := List.mem_filter.mp hs
      obtain ⟨k, hk, rfl⟩ := List.mem_map.mp hs
      refine ⟨k, ⟨TableSchema.mem_uniqueSets.mp (distinctSets_subset hk), fun n hn => ?_⟩, hx⟩
      simpa using List.all_eq_true.mp hall _ (List.mem_map_of_mem hn)
  · rintro ⟨k, ⟨hk, hcovered⟩, hx⟩
    obtain ⟨r, hr, hperm⟩ := distinctSets_perm [] (TableSchema.mem_uniqueSets.mpr hk)
    have hr := hr.resolve_left List.not_mem_nil
    have hquoted := hperm.map c.dialect.quoteColumnName
    refine .inr ⟨_, List.mem_filter.mpr ⟨List.mem_map_of_mem hr, ?_⟩, hquoted.mem_iff.mpr hx⟩
    rw [List.all_eq_true]
    intro y hy
    obtain ⟨n, hn, rfl⟩ := List.mem_map.mp (hquoted.mem_iff.mp hy)
    simpa using hcovered n hn

theorem nodup_coveredColumns : (c.coveredColumns inserted t).Nodup :=
  nodup_foldl_addNew _ List.nodup_nil

theorem coveredColumns_subset : c.coveredColumns inserted t ⊆ inserted := by
  intro x hx
  obtain ⟨k, ⟨-, hcovered⟩, hx⟩ := mem_coveredColumns.mp hx
  obtain ⟨n, hn, rfl⟩ := List.mem_map.mp hx
  exact hcovered n hn

/-- The order of a key's columns does not matter to what is covered. -/
theorem coveredColumns_mono {t' : TableSchema} (h : t'.HasKeysOf t) :
    c.coveredColumns inserted t ⊆ c.coveredColumns inserted t' := by
  intro x hx
  obtain ⟨r, ⟨hr, hcovered⟩, hx⟩ := mem_coveredColumns.mp hx
  obtain ⟨k, hk, hperm⟩ := h r hr
  refine mem_coveredColumns.mpr ⟨k, ⟨hk, fun n hn => hcovered n (hperm.mem_iff.mpr hn)⟩, ?_⟩
  exact (hperm.map _).mem_iff.mp hx

/-! ## The columns of an upsert -/

/-- The quoted columns that an insert fills. -/
def insertedColumns (c : Compiler) : InsertSource → Result (List String)
  | .query q => c.insertSelectNames q
  | .values pairs => .ok (pairs.map fun p => c.dialect.quoteColumnName p.1)

/-- The columns of an upsert that fills these. -/
def splitColumns (c : Compiler) (update : UpsertUpdate) (schema : Option TableSchema)
    (inserted : List String) : UpsertColumns where
  unique := (schema.map (c.coveredColumns inserted)).getD []
  inserted := inserted
  updated :=
    match update with
    | .all => some (inserted.filter fun n =>
        !((schema.map (c.coveredColumns inserted)).getD []).contains n)
    | _ => none

theorem splitColumns_unique_subset {update : UpsertUpdate} {schema : Option TableSchema} :
    (c.splitColumns update schema inserted).unique ⊆ inserted := by
  cases schema with
  | none => exact List.nil_subset _
  | some t => exact coveredColumns_subset

theorem splitColumns_updated_subset {update : UpsertUpdate} {schema : Option TableSchema}
    {names : List String} (h : names ∈ (c.splitColumns update schema inserted).updated) :
    names ⊆ inserted := by
  cases update <;> cases h
  exact fun _ hn => (List.mem_filter.mp hn).1

theorem upsertColumns_eq (source : InsertSource) (update : UpsertUpdate)
    (schema : Option TableSchema) : c.upsertColumns source update schema =
      (c.insertedColumns source).map (c.splitColumns update schema) := by
  cases source with
  | values pairs => cases update <;> rfl
  | query q =>
    rw [upsertColumns, insertedColumns]
    cases c.insertSelectNames q with
    | error e => rfl
    | ok names => cases update <;> rfl

theorem upsertColumns_ok {source : InsertSource} {update : UpsertUpdate}
    {schema : Option TableSchema} {columns : UpsertColumns}
    (h : c.upsertColumns source update schema = .ok columns) :
    c.insertedColumns source = .ok columns.inserted ∧
      columns = c.splitColumns update schema columns.inserted := by
  rw [upsertColumns_eq] at h
  cases hsource : c.insertedColumns source with
  | error e =>
    rw [hsource] at h
    cases h
  | ok inserted =>
    rw [hsource] at h
    cases h
    exact ⟨rfl, rfl⟩

theorem upsertColumns_unique {source : InsertSource} {update : UpsertUpdate}
    {columns : UpsertColumns} (h : c.upsertColumns source update (some t) = .ok columns) :
    columns.unique = c.coveredColumns columns.inserted t :=
  congrArg UpsertColumns.unique (upsertColumns_ok h).2

/-- The key columns of an upsert are the columns of the covered keys, each once, and no copy of a
key changes them. When everything is to be updated, each column that the insert fills is either a
key column or updated. -/
theorem upsertColumns_partition (c : Compiler) (source : InsertSource) (update : UpsertUpdate)
    (t : TableSchema) (inserted : List String) (h : c.insertedColumns source = .ok inserted) :
    ∃ columns, c.upsertColumns source update (some t) = .ok columns ∧
      columns.inserted = inserted ∧ columns.unique.Nodup ∧
      (∀ n, n ∈ columns.unique ↔
        ∃ k, c.Covers inserted t k ∧ n ∈ k.map c.dialect.quoteColumnName) ∧
      (∀ t', t.AddsCopy t' → ∃ columns', c.upsertColumns source update (some t') = .ok columns' ∧
        ∀ n, n ∈ columns'.unique ↔ n ∈ columns.unique) ∧
      (update = .all → ∃ updated, columns.updated = some updated ∧
        updated = inserted.filter (fun n => !columns.unique.contains n) ∧
        ∀ n ∈ inserted, n ∈ columns.unique ↔ n ∉ updated) := by
  have hcolumns : ∀ t : TableSchema, c.upsertColumns source update (some t) =
      .ok (c.splitColumns update (some t) inserted) := fun t => by
    rw [upsertColumns_eq, h]
    rfl
  refine ⟨_, hcolumns t, rfl, nodup_coveredColumns, fun n => mem_coveredColumns,
    fun t' ht => ⟨_, hcolumns t', fun n => ?_⟩, ?_⟩
  · obtain ⟨hkept, hcopied⟩ := ht.hasKeysOf
    exact ⟨fun hn => coveredColumns_mono hkept hn, fun hn => coveredColumns_mono hcopied hn⟩
  · rintro rfl
    refine ⟨_, rfl, rfl, fun n hn => ?_⟩
    simp [hn, splitColumns]

/-- Members with a number and an address of their own, and a name of their own in each team. -/
def memberSchema : TableSchema :=
  { TableSchema.ofName "member" with
    primaryKey := ["id"]
    constraints := { TableConstraints.empty with
      indexes := [⟨some "uq_email", ["email"], true, false⟩]
      uniques := [⟨some "uq_name", ["team", "name"]⟩] } }

theorem memberSchema_email : memberSchema.UniqueKey ["email"] :=
  .index (i := ⟨some "uq_email", ["email"], true, false⟩) (List.mem_singleton_self _) rfl

/-- The same members with the key of the teams stated in both orders. -/
def membersTwice : TableSchema :=
  { memberSchema with
    constraints := { memberSchema.constraints with
      uniques := [⟨none, ["name", "team"]⟩, ⟨some "uq_name", ["team", "name"]⟩] } }

theorem memberSchema_addsCopy : memberSchema.AddsCopy membersTwice := by
  have hkey : memberSchema.UniqueKey ["team", "name"] :=
    .unique (u := ⟨some "uq_name", ["team", "name"]⟩) (List.mem_singleton_self _)
  have hperm : ["team", "name"].Perm ["name", "team"] := .swap _ _ _
  exact @TableSchema.AddsCopy.unique memberSchema ⟨none, _⟩ _ [] _ hkey hperm rfl

/-- A member without a number: the address and the name in the team are covered. -/
def namedMember : InsertSource :=
  .values [("name", .string "n"), ("team", .string "t"), ("email", .string "e"),
    ("age", .value (.int32 7))]

theorem namedMember_partition :
    ∃ columns, (Compiler.ofDialect .postgres).upsertColumns namedMember .all (some memberSchema) =
        .ok columns ∧
      columns.unique = ["\"email\"", "\"team\"", "\"name\""] ∧
      columns.updated = some ["\"age\""] ∧
      ∃ columns', (Compiler.ofDialect .postgres).upsertColumns namedMember .all
          (some membersTwice) = .ok columns' ∧
        ∀ n, n ∈ columns'.unique ↔ n ∈ columns.unique := by
  obtain ⟨columns, hcolumns, -, -, -, hcopy, -⟩ :=
    upsertColumns_partition (.ofDialect .postgres) namedMember .all memberSchema _ rfl
  refine ⟨columns, hcolumns, ?_, ?_, hcopy _ memberSchema_addsCopy⟩ <;> cases hcolumns <;> rfl

end Compiler

end QueryKit
