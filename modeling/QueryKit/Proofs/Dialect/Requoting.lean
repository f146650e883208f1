import QueryKit.Proofs.Placeholder.Quoting
import QueryKit.Proofs.Upsert.Columns

/-!
# Quoting a name once is enough

- `Dialect.TableFixed`, `Dialect.ColumnFixed`: fragments of statements, and names with the quote in
  every part. Quoting leaves exactly these as they are (`quoteTableChars_eq_self_iff`,
  `quoteColumnChars_eq_self_iff`), and makes one of them of every name.
- `Compiler.requoted_assignments`: the columns that an upsert assigns to have been quoted before.
- `quoteName_idempotent`: a name that is quoted again does not change, and so neither do these.
-/

namespace QueryKit

theorem Text.splitLast_append {c : Char} {t : List Char} (ht : c ∉ t) :
    ∀ s : List Char, splitLast c (s ++ c :: t) = some (s, t)
  | [] => by
    cases h : splitLast c t with
    | none => simp [splitLast, h]
    | some r => exact absurd (by rw [(splitLast_some h).1]; simp) ht
  | d :: s => by rw [List.cons_append, splitLast, splitLast_append ht s]

namespace Dialect

variable {d : Dialect} {p s : List Char}

/-! ## Parts of names -/

theorem quoteChar_mem_inQuotes : d.quoteChar ∈ d.inQuotes p :=
  List.mem_cons_self

theorem quoteChar_mem_quoteTablePart : d.quoteChar ∈ d.quoteTablePart p := by
  unfold quoteTablePart
  split
  · next h => exact List.contains_iff_mem.mp h
  · exact quoteChar_mem_inQuotes

theorem quoteTablePart_of_mem (h : d.quoteChar ∈ p) : d.quoteTablePart p = p :=
  if_pos (List.contains_iff_mem.mpr h)

/-- The part of a column name that quoting leaves alone: it holds the quote, or is the wildcard. -/
def ColumnPartFixed (d : Dialect) (p : List Char) : Prop :=
  d.quoteChar ∈ p ∨ p = ['*']

theorem columnPartFixed_quoteColumnPart : d.ColumnPartFixed (d.quoteColumnPart p) := by
  unfold quoteColumnPart
  split
  · next h => simpa [ColumnPartFixed] using h
  · exact .inl quoteChar_mem_inQuotes

theorem ColumnPartFixed.eq_self (h : d.ColumnPartFixed p) : d.quoteColumnPart p = p :=
  if_pos (by simpa [ColumnPartFixed] using h)

/-! ## Table names -/

/-- A fragment with a parenthesis or a token, or a name with the quote in every part. -/
def TableFixed (d : Dialect) (s : List Char) : Prop :=
  '(' ∈ s ∨ Text.hasText openBraces s = true ∨ ∀ p ∈ Text.cutAt '.' s, d.quoteChar ∈ p

theorem TableFixed.eq_self (h : d.TableFixed s) : d.quoteTableChars s = s := by
  unfold quoteTableChars
  split
  · rfl
  · next hfragment =>
    rw [Bool.or_eq_true, not_or, List.contains_iff_mem] at hfragment
    have hparts := (h.resolve_left hfragment.1).resolve_left hfragment.2
    have hmap : (Text.cutAt '.' s).map d.quoteTablePart = Text.cutAt '.' s :=
      (List.map_congr_left fun p hp => quoteTablePart_of_mem (hparts p hp)).trans (List.map_id' _)
    rw [hmap, Text.intercalate_cutAt]

theorem tableFixed_quoteTableChars (d : Dialect) (s : List Char) :
    d.TableFixed (d.quoteTableChars s) := by
  unfold quoteTableChars
  split
  · next hfragment =>
    rw [Bool.or_eq_true, List.contains_iff_mem] at hfragment
    exact hfragment.imp_right .inl
  · refine .inr (.inr fun p hp => ?_)
    rw [Text.cutAt_intercalate (by simpa using Text.cutAt_ne_nil)] at hp
    · obtain ⟨r, -, rfl⟩ := List.mem_map.mp hp
      exact quoteChar_mem_quoteTablePart
    · intro q hq
      obtain ⟨r, hr, rfl⟩ := List.mem_map.mp hq
      exact not_mem_quoteTablePart (Text.not_mem_of_mem_cutAt hr)

/-- Quoting a table name changes it exactly if it is neither a fragment nor quoted already. -/
theorem quoteTableChars_eq_self_iff : d.quoteTableChars s = s ↔ d.TableFixed s :=
  ⟨fun h => h ▸ d.tableFixed_quoteTableChars s, TableFixed.eq_self⟩

/-! ## Column names -/

/-- A fragment with a parenthesis or a token, or a name with the quote in every part. The last part
may be the wildcard. -/
def ColumnFixed (d : Dialect) (s : List Char) : Prop :=
  '(' ∈ s ∨ Text.hasText ['[', '['] s = true ∨
    match Text.splitLast '.' s with
    | none => Text.hasText openBraces s = true ∨ d.ColumnPartFixed s
    | some (table, column) =>
      Text.hasText openBraces column = true ∨ d.TableFixed table ∧ d.ColumnPartFixed column

theorem ColumnFixed.eq_self (h : d.ColumnFixed s) : d.quoteColumnChars s = s := by
  unfold ColumnFixed at h
  unfold quoteColumnChars
  split
  · rfl
  · next hfragment =>
    rw [Bool.or_eq_true, not_or, List.contains_iff_mem] at hfragment
    have hname := (h.resolve_left hfragment.1).resolve_left hfragment.2
    cases hsplit : Text.splitLast '.' s with
    | none =>
      rw [hsplit] at hname
      dsimp only
      split
      · rfl
      · next hbraces => exact (hname.resolve_left hbraces).eq_self
    | some r =>
      obtain ⟨table, column⟩ := r
      rw [hsplit] at hname
      dsimp only
      split
      · rfl
      · next hbraces =>
        obtain ⟨htable, hcolumn⟩ := hname.resolve_left hbraces
        rw [htable.eq_self, hcolumn.eq_self]
        exact (Text.splitLast_some hsplit).1.symm

theorem columnFixed_quoteColumnChars (d : Dialect) (s : List Char) :
    d.ColumnFixed (d.quoteColumnChars s) := by
  unfold quoteColumnChars
  split
  · next hfragment =>
    rw [Bool.or_eq_true, List.contains_iff_mem] at hfragment
    exact hfragment.imp_right .inl
  · cases hsplit : Text.splitLast '.' s with
    | none =>
      dsimp only
      split
      · next hbraces =>
        refine .inr (.inr ?_)
        rw [hsplit]
        exact .inl hbraces
      · have hpoint : Text.splitLast '.' (d.quoteColumnPart s) = none := by
          cases h : Text.splitLast '.' (d.quoteColumnPart s) with
          | none => rfl
          | some r =>
            refine absurd ?_ (not_mem_quoteColumnPart (d := d) (Text.splitLast_none hsplit))
            rw [(Text.splitLast_some h).1]
            simp
        refine .inr (.inr ?_)
        rw [hpoint]
        exact .inr columnPartFixed_quoteColumnPart
    | some r =>
      obtain ⟨table, column⟩ := r
      dsimp only
      split
      · next hbraces =>
        refine .inr (.inr ?_)
        rw [hsplit]
        exact .inl hbraces
      · have hpoint := Text.splitLast_append
          (not_mem_quoteColumnPart (d := d) (Text.splitLast_some hsplit).2)
          (d.quoteTableChars table)
        refine .inr (.inr ?_)
        rw [hpoint]
        exact .inr ⟨d.tableFixed_quoteTableChars table, columnPartFixed_quoteColumnPart⟩

/-- Quoting a column name changes it exactly if it is neither a fragment nor quoted already. -/
theorem quoteColumnChars_eq_self_iff : d.quoteColumnChars s = s ↔ d.ColumnFixed s :=
  ⟨fun h => h ▸ d.columnFixed_quoteColumnChars s, ColumnFixed.eq_self⟩

theorem quoteTableName_quoteTableName (d : Dialect) (x : String) :
    d.quoteTableName (d.quoteTableName x) = d.quoteTableName x := by
  rw [quoteTableName, quoteTableName, String.toList_ofList,
    (d.tableFixed_quoteTableChars x.toList).eq_self]

theorem quoteColumnName_quoteColumnName (d : Dialect) (x : String) :
    d.quoteColumnName (d.quoteColumnName x) = d.quoteColumnName x := by
  rw [quoteColumnName, quoteColumnName, String.toList_ofList,
    (d.columnFixed_quoteColumnChars x.toList).eq_self]

end Dialect

/-! ## The columns of an upsert -/

namespace Compiler

variable {c : Compiler} {source : InsertSource} {inserted : List String}

/-- The columns that an insert fills are quoted names. -/
theorem insertedColumns_requoted (h : c.insertedColumns source = .ok inserted) :
    ∀ n ∈ inserted, c.dialect.quoteColumnName n = n := by
  cases source with
  | values pairs =>
    cases h
    exact List.forall_mem_map.mpr fun p _ => c.dialect.quoteColumnName_quoteColumnName p.1
  | query q =>
    unfold insertedColumns insertSelectNames at h
    dsimp only at h
    split at h
    · cases h
    · obtain ⟨names, -, h⟩ := Result.bind_ok h
      cases h
      exact List.forall_mem_map.mpr fun n _ => c.dialect.quoteColumnName_quoteColumnName n

/-- The columns that an upsert assigns to, when everything is to be updated, have been quoted
before, and quoting leaves them as they are. -/
theorem requoted_assignments {table : String} {schema : Option TableSchema}
    {columns : UpsertColumns} {pairs : List (String × Operand)}
    (h : c.upsertColumns source .all schema = .ok columns)
    (hpairs : c.duplicateAssignments table .all columns = some pairs ∨
      conflictAssignments .all columns = pairs) :
    ∀ p ∈ pairs, c.dialect.quoteColumnName p.1 = p.1 := by
  obtain ⟨hinserted, hcolumns⟩ := upsertColumns_ok h
  have hunique : columns.unique ⊆ columns.inserted := by
    rw [hcolumns]
    exact splitColumns_unique_subset
  have hupdated : ∀ names, columns.updated = some names → names ⊆ columns.inserted := by
    rw [hcolumns]
    exact fun names hnames => splitColumns_updated_subset hnames
  have hassigned : ∀ p ∈ pairs, p.1 ∈ columns.inserted := by
    rcases hpairs with hpairs | rfl
    · unfold duplicateAssignments at hpairs
      cases hnames : columns.updated with
      | none => simp [hnames] at hpairs
      | some names =>
        rw [hnames] at hpairs
        cases names with
        | nil =>
          cases hfirst : columns.unique with
          | nil => simp [hfirst] at hpairs
          | cons first rest =>
            rw [hfirst] at hpairs
            cases hpairs
            exact List.forall_mem_singleton.mpr (hunique (hfirst ▸ List.mem_cons_self))
        | cons n names =>
          cases hpairs
          exact List.forall_mem_map.mpr fun x hx => hupdated _ hnames hx
    · unfold conflictAssignments
      cases hnames : columns.updated with
      | none => exact nofun
      | some names => exact List.forall_mem_map.mpr fun x hx => hupdated _ hnames hx
  exact fun p hp => insertedColumns_requoted hinserted _ (hassigned p hp)

end Compiler

namespace Dialect

/-- A name that is in quotes does not change when it is quoted again, as a table or as a column. So
the columns that an upsert assigns to stand in its assignments as they stand in its INSERT. -/
theorem quoteName_idempotent (d : Dialect) (x : String) :
    d.quoteTableName (d.quoteTableName x) = d.quoteTableName x ∧
      d.quoteColumnName (d.quoteColumnName x) = d.quoteColumnName x ∧
      ∀ (r : Registry) (table : String) (source : InsertSource) (schema : Option TableSchema)
        (columns : UpsertColumns) (pairs : List (String × Operand)),
        (Compiler.mk d r).upsertColumns source .all schema = .ok columns →
        (Compiler.mk d r).duplicateAssignments table .all columns = some pairs ∨
          Compiler.conflictAssignments .all columns = pairs →
        ∀ p ∈ pairs, d.quoteColumnName p.1 = p.1 :=
  ⟨d.quoteTableName_quoteTableName x, d.quoteColumnName_quoteColumnName x,
    fun r _ _ _ _ _ h hpairs => Compiler.requoted_assignments (c := ⟨d, r⟩) h hpairs⟩

/-- A name with a quoted part, an empty one and a wildcard, and the age of a member who is inserted
or updated. -/
theorem memberAge_requoted :
    Dialect.mysql.quoteColumnName "crm.\x60a b\x60..*" = "\x60crm\x60.\x60a b\x60.\x60\x60.*" ∧
      Dialect.mysql.quoteColumnName "\x60crm\x60.\x60a b\x60.\x60\x60.*" =
        "\x60crm\x60.\x60a b\x60.\x60\x60.*" ∧
      (∃ columns, (Compiler.ofDialect .mysql).upsertColumns Compiler.namedMember .all
          (some Compiler.memberSchema) = .ok columns ∧
        ((Compiler.ofDialect .mysql).duplicateAssignments "member" .all columns).map
          (·.map Prod.fst) = some ["\x60age\x60"]) ∧
      Dialect.mysql.quoteColumnName "\x60age\x60" = "\x60age\x60" := by
  obtain ⟨-, hcolumn, hassigned⟩ := quoteName_idempotent .mysql "crm.\x60a b\x60..*"
  have hquoted : Dialect.mysql.quoteColumnName "crm.\x60a b\x60..*" =
      "\x60crm\x60.\x60a b\x60.\x60\x60.*" := by decide
  obtain ⟨columns, hcolumns, hpairs⟩ : ∃ columns,
      (Compiler.ofDialect .mysql).upsertColumns Compiler.namedMember .all
        (some Compiler.memberSchema) = .ok columns ∧
      (Compiler.ofDialect .mysql).duplicateAssignments "member" .all columns =
        some [Compiler.assignText "\x60age\x60" "VALUES(\x60age\x60)"] := ⟨_, rfl, rfl⟩
  have hage := hassigned (.ofDialect .mysql) "member" Compiler.namedMember
    (some Compiler.memberSchema) columns _ hcolumns (.inl hpairs)
  rw [hquoted] at hcolumn
  refine ⟨hquoted, hcolumn, ⟨columns, hcolumns, by rw [hpairs]; rfl⟩, ?_⟩
  exact hage (Compiler.assignText "\x60age\x60" "VALUES(\x60age\x60)") List.mem_cons_self

end Dialect

end QueryKit
