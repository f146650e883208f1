import QueryKit.Proofs.Compile.Yields
import QueryKit.Statement.Definition
import QueryKit.Statement.Upsert

/-!
# Names in statements

- `Shows`: a text that another one is part of.
- `Quoted`: a name or a text that a builder puts in quotes.
- `Definition.quoted`: those of a definition, which its statement shows (`Definition.sql_shows`).
- `Compiler.insert_shows`, `update_shows`, `delete_shows`, `upsert_shows`, `batchInsert_shows`: the
  same of the statements that write.
-/

namespace QueryKit

/-! ## Parts of a text -/

/-- The text has the other one as a part. -/
def Shows (text part : String) : Prop :=
  ∃ a b, text = a ++ part ++ b

namespace Shows

variable {s t u : String}

theorem self : Shows s s :=
  ⟨"", "", by simp⟩

theorem left (h : Shows t s) : Shows (t ++ u) s := by
  obtain ⟨a, b, rfl⟩ := h
  exact ⟨a, b ++ u, String.append_assoc⟩

theorem right (h : Shows u s) : Shows (t ++ u) s := by
  obtain ⟨a, b, rfl⟩ := h
  exact ⟨t ++ a, b, by simp only [String.append_assoc]⟩

theorem trans (h : Shows u t) (ht : Shows t s) : Shows u s := by
  obtain ⟨a, b, rfl⟩ := h
  exact (ht.right (t := a)).left

theorem joinWith {separator : String} : ∀ {parts : List String}, s ∈ parts →
    Shows (Text.joinWith separator parts) s
  | [p], h => List.mem_singleton.mp h ▸ self
  | p :: q :: parts, h => by
    rcases List.mem_cons.mp h with rfl | h
    · exact self.left.left
    · exact (joinWith h).right

end Shows

/-! ## Names and texts in quotes -/

/-- A name or a text that a builder puts in quotes. -/
inductive Quoted where
  /-- The name of a table, a view or an index. -/
  | table (name : String)
  /-- The name of a column or a constraint. -/
  | column (name : String)
  | literal (text : String)

/-- How it stands in a statement. -/
def Quoted.text (d : Dialect) : Quoted → String
  | table name => d.quoteTableName name
  | column name => d.quoteColumnName name
  | literal text => d.quoteValue text

/-- The statement shows all of them. -/
def ShowsAll (d : Dialect) (parts : List Quoted) (sql : String) : Prop :=
  ∀ p ∈ parts, Shows sql (p.text d)

namespace ShowsAll

variable {d : Dialect} {p : Quoted} {parts more : List Quoted} {sql sql' : String}

theorem nil : ShowsAll d [] sql :=
  nofun

theorem cons (h : Shows sql (p.text d)) (hparts : ShowsAll d parts sql) :
    ShowsAll d (p :: parts) sql :=
  List.forall_mem_cons.mpr ⟨h, hparts⟩

theorem append (h : ShowsAll d parts sql) (hmore : ShowsAll d more sql) :
    ShowsAll d (parts ++ more) sql :=
  List.forall_mem_append.mpr ⟨h, hmore⟩

/-- A statement shows what its parts do. -/
theorem of_shows (h : ShowsAll d parts sql) (hsql : Shows sql' sql) : ShowsAll d parts sql' :=
  fun p hp => hsql.trans (h p hp)

theorem optional {text : Option String} (h : ∀ s ∈ text, Shows sql (d.quoteValue s)) :
    ShowsAll d (text.toList.map .literal) sql :=
  List.forall_mem_map.mpr fun s hs => h s (Option.mem_toList.mp hs)

end ShowsAll

namespace Dialect

variable {d : Dialect}

/-! ## Definitions -/

/-- The columns of a list, unless it is a fragment with a parenthesis. -/
def listed (columns : String) : List Quoted :=
  if columns.toList.contains '(' then [] else (splitColumns columns).map .column

theorem quoteColumns_shows (columns : String) :
    ShowsAll d (listed columns) (d.quoteColumns columns) := by
  unfold listed quoteColumns
  split
  · exact .nil
  · exact List.forall_mem_map.mpr fun n hn => .joinWith (List.mem_map_of_mem hn)

theorem alterTable_shows (table : String) : Shows (d.alterTable table) (d.quoteTableName table) :=
  .right .self

theorem columnLine_shows {name definition : String} (h : name ≠ "") :
    Shows (d.columnLine name definition) (d.quoteColumnName name) := by
  rw [columnLine, if_neg h]
  exact .left (.left (.right .self))

theorem addConstraint_shows (name table : String) {parts : List Quoted} {definition : String}
    (h : ShowsAll d parts definition) :
    ShowsAll d (.table table :: .column name :: parts) (d.addConstraint name table definition) :=
  .cons (.left (.left (.left (.left (alterTable_shows table)))))
    (.cons (.left (.left (.right .self))) (h.of_shows (.right .self)))

theorem createTable_shows (table : String) (columns : List (String × String))
    (options : Option String) :
    ShowsAll d (.table table :: ((columns.map (·.1)).filter (· ≠ "")).map .column)
      (d.createTable table columns options) := by
  refine .cons (.left (.left (.left (.left (.right .self))))) ?_
  refine List.forall_mem_map.mpr fun n hn => ?_
  obtain ⟨hmem, hne⟩ := List.mem_filter.mp hn
  obtain ⟨column, hcolumn, rfl⟩ := List.mem_map.mp hmem
  have hline : Shows (d.columnLine column.1 column.2) (d.quoteColumnName column.1) :=
    columnLine_shows (of_decide_eq_true hne)
  refine .left (.left (.right (.trans (.joinWith ?_) hline)))
  exact List.mem_map_of_mem (f := fun c : String × String => d.columnLine c.1 c.2) hcolumn

theorem renameTable_shows (old new : String) :
    ShowsAll d [.table old, .table new] (d.renameTable old new) := by
  unfold renameTable
  split <;> exact .cons (.left (.left (.right .self))) (.cons (.right .self) .nil)

theorem truncateTable_shows (table : String) :
    ShowsAll d [.table table] (d.truncateTable table) := by
  unfold truncateTable
  split <;> exact .cons (.right .self) .nil

theorem alterColumn_shows {table column type sql : String}
    (h : d.alterColumn table column type = .ok sql) :
    ShowsAll d [.table table, .column column] sql := by
  unfold alterColumn at h
  dsimp only at h
  split at h <;> cases h
  · exact .cons (.left (.left (.left (.left (alterTable_shows table)))))
      (.cons (.left (.left (.right .self))) .nil)
  · exact .cons (.left (.left (.left (.left (.left (.left (alterTable_shows table)))))))
      (.cons (.left (.left (.right .self))) .nil)

theorem addForeignKey_shows (name table columns refTable refColumns : String)
    (onDelete onUpdate : Option ForeignKeyAction) :
    ShowsAll d
      (.table table :: .column name :: .table refTable :: (listed columns ++ listed refColumns))
      (d.addForeignKey name table columns refTable refColumns onDelete onUpdate) := by
  refine addConstraint_shows name table (.cons ?_ (.append ?_ ?_))
  · exact .left (.left (.left (.left (.left (.right .self)))))
  · refine (quoteColumns_shows columns).of_shows ?_
    exact .left (.left (.left (.left (.left (.left (.left (.right .self)))))))
  · exact (quoteColumns_shows refColumns).of_shows (.left (.left (.left (.right .self))))

/-- The columns of a key or of a unique constraint. -/
theorem columnConstraint_shows (name table word columns : String) :
    ShowsAll d (.table table :: .column name :: listed columns)
      (d.addConstraint name table (word ++ d.quoteColumns columns ++ ")")) :=
  addConstraint_shows name table ((quoteColumns_shows columns).of_shows (.left (.right .self)))

theorem createIndex_shows (name table columns : String) (unique : Bool) :
    ShowsAll d (.table name :: .table table :: listed columns)
      (d.createIndex name table columns unique) :=
  .cons (.left (.left (.left (.left (.left (.right .self))))))
    (.cons (.left (.left (.left (.right .self))))
      ((quoteColumns_shows columns).of_shows (.left (.right .self))))

/-- What dropping an index names: the index, and in some dialects the table. -/
def dropIndexQuoted (d : Dialect) (name table : String) : List Quoted :=
  match d with
  | .postgres | .sqlite => [.table name]
  | _ => [.table name, .table table]

theorem dropIndex_shows (name table : String) :
    ShowsAll d (d.dropIndexQuoted name table) (d.dropIndex name table) := by
  cases d with
  | postgres | sqlite => exact .cons (.right .self) .nil
  | mysql | generic => exact .cons (.left (.left (.right .self))) (.cons (.right .self) .nil)

theorem commentOnColumn_shows (table column : String) (comment : Option String) :
    ShowsAll d (.table table :: .column column :: comment.toList.map .literal)
      (d.commentOnColumn table column (Definition.commentText d comment)) := by
  refine .cons (.left (.left (.left (.left (.right .self))))) ?_
  refine .cons (.left (.left (.right .self))) (.optional ?_)
  rintro _ ⟨⟩
  exact .right .self

theorem commentOnTable_shows (table : String) (comment : Option String) :
    ShowsAll d (.table table :: comment.toList.map .literal)
      (d.commentOnTable table (Definition.commentText d comment)) := by
  refine .cons (.left (.left (.right .self))) (.optional ?_)
  rintro _ ⟨⟩
  exact .right .self

/-- What the value of a sequence names, if it comes after the largest key. -/
def sequenceQuoted (table : String) (primaryKey : Option String) (value : Option Int) :
    List Quoted :=
  match value, primaryKey with
  | none, some key => [.column key, .table table]
  | _, _ => []

theorem sequenceValue_shows (table : String) (primaryKey : Option String) (value : Option Int) :
    ShowsAll d (sequenceQuoted table primaryKey value)
      (d.sequenceValue table primaryKey value) := by
  cases value with
  | some v => exact .nil
  | none =>
    cases primaryKey with
    | none => exact .nil
    | some key =>
      exact .cons (.left (.left (.left (.right .self)))) (.cons (.left (.right .self)) .nil)

/-- What resetting a sequence names. -/
def resetSequenceQuoted (d : Dialect) (table : String) (sequence primaryKey : Option String)
    (value : Option Int) : List Quoted :=
  match d with
  | .mysql => [.table table]
  | .postgres =>
    (sequence.map d.quoteTableName).toList.map .literal ++ sequenceQuoted table primaryKey value
  | .sqlite => .literal table :: (if value = none then [.table table] else [])
  | .generic _ => []

theorem resetSequence_shows {table sql : String} {sequence primaryKey : Option String}
    {value : Option Int} (h : d.resetSequence table sequence primaryKey value = .ok sql) :
    ShowsAll d (d.resetSequenceQuoted table sequence primaryKey value) sql := by
  cases d with
  | mysql =>
    cases h
    exact .cons (.left (.left (alterTable_shows table))) .nil
  | postgres =>
    cases sequence with
    | none => cases h
    | some s =>
      cases h
      refine .append (.cons (.left (.left (.left (.right .self)))) .nil) ?_
      exact (sequenceValue_shows table primaryKey value).of_shows (.left (.right .self))
  | sqlite =>
    cases h
    refine .cons (.right .self) ?_
    cases value with
    | some v => exact .nil
    | none => exact .cons (.left (.left (.right (.left (.right .self))))) .nil
  | generic => cases h

/-- What switching the checking of foreign keys names. -/
def checkIntegrityQuoted (d : Dialect) (schema table : String) : List Quoted :=
  match d with
  | .postgres => [.table (if schema = "" then table else schema ++ "." ++ table)]
  | _ => []

theorem checkIntegrity_shows {check : Bool} {schema table sql : String}
    (h : d.checkIntegrity check schema table = .ok sql) :
    ShowsAll d (d.checkIntegrityQuoted schema table) sql := by
  cases d with
  | postgres =>
    cases h
    exact .cons (.left (.left (alterTable_shows _))) .nil
  | mysql | sqlite | generic => exact .nil

end Dialect

namespace Definition

open Dialect

/-- The names and the texts that a definition puts in quotes. -/
def quoted (d : Dialect) : Definition → List Quoted
  | createTable table columns _ =>
    .table table :: ((columns.map (·.1)).filter (· ≠ "")).map .column
  | renameTable table newName => [.table table, .table newName]
  | dropTable table | truncateTable table | createView table _ | dropView table => [.table table]
  | addColumn table column _ | dropColumn table column | alterColumn table column _ =>
    [.table table, .column column]
  | renameColumn table column newName => [.table table, .column column, .column newName]
  | addPrimaryKey name table columns | addUnique name table columns =>
    .table table :: .column name :: listed columns
  | addForeignKey name table columns refTable refColumns _ _ =>
    .table table :: .column name :: .table refTable :: (listed columns ++ listed refColumns)
  | addCheck name table _ | dropConstraint name table => [.table table, .column name]
  | createIndex name table columns _ => .table name :: .table table :: listed columns
  | dropIndex name table => d.dropIndexQuoted name table
  | commentColumn table column comment =>
    .table table :: .column column :: comment.toList.map .literal
  | commentTable table comment => .table table :: comment.toList.map .literal
  | resetSequence table sequence primaryKey value =>
    d.resetSequenceQuoted table sequence primaryKey value
  | checkIntegrity _ schema table => d.checkIntegrityQuoted schema table

/-- The statement of a definition shows them in quotes. -/
theorem sql_shows {c : Compiler} {x : Definition} {text : String} (h : x.sql c = .ok text) :
    ShowsAll c.dialect (x.quoted c.dialect) text := by
  cases x with
  | createTable table columns options =>
    exact Except.ok.inj h ▸ createTable_shows table columns options
  | renameTable table newName => exact Except.ok.inj h ▸ renameTable_shows table newName
  | dropTable | dropView =>
    cases h
    exact .cons (.right .self) .nil
  | truncateTable table => exact Except.ok.inj h ▸ truncateTable_shows table
  | addColumn table =>
    cases h
    exact .cons (.left (.left (.left (.left (alterTable_shows table)))))
      (.cons (.left (.left (.right .self))) .nil)
  | dropColumn table =>
    cases h
    exact .cons (.left (.left (alterTable_shows table))) (.cons (.right .self) .nil)
  | renameColumn table =>
    cases h
    exact .cons (.left (.left (.left (.left (alterTable_shows table)))))
      (.cons (.left (.left (.right .self))) (.cons (.right .self) .nil))
  | alterColumn => exact alterColumn_shows h
  | addPrimaryKey name table columns | addUnique name table columns =>
    cases h
    exact columnConstraint_shows name table _ columns
  | addForeignKey =>
    cases h
    exact addForeignKey_shows _ _ _ _ _ _ _
  | addCheck name table =>
    cases h
    exact addConstraint_shows name table .nil
  | dropConstraint name table =>
    cases h
    exact .cons (.left (.left (alterTable_shows table))) (.cons (.right .self) .nil)
  | createIndex name table columns unique =>
    exact Except.ok.inj h ▸ createIndex_shows name table columns unique
  | dropIndex name table => exact Except.ok.inj h ▸ dropIndex_shows name table
  | commentColumn table column comment =>
    exact Except.ok.inj h ▸ commentOnColumn_shows table column comment
  | commentTable table comment => exact Except.ok.inj h ▸ commentOnTable_shows table comment
  | createView =>
    obtain ⟨built, -, h⟩ := Result.bind_ok h
    obtain ⟨inlined, -, h⟩ := Result.bind_ok h
    cases h
    exact .cons (.left (.left (.right .self))) .nil
  | resetSequence => exact resetSequence_shows h
  | checkIntegrity => exact checkIntegrity_shows h

end Definition

/-! ## Statements that write -/

/-- The columns that an insert names. -/
def InsertSource.columns : InsertSource → List String
  | values pairs => pairs.map (·.1)
  | query q =>
    match q.select.mapM Compiler.selectedName with
    | .ok names => names
    | .error _ => []

namespace Compiler

variable {c : Compiler} {schema : Option TableSchema}

open Compile

theorem insertSelectNames_ok {q : Query} {names : List String}
    (h : c.insertSelectNames q = .ok names) :
    names = (InsertSource.query q).columns.map c.dialect.quoteColumnName := by
  unfold insertSelectNames at h
  split at h
  · cases h
  · obtain ⟨selected, hselected, h⟩ := Result.bind_ok h
    cases h
    rw [InsertSource.columns, hselected]

theorem insertParts_names (source : InsertSource) :
    (c.insertParts source schema).Yields fun parts _ =>
      parts.1 = source.columns.map c.dialect.quoteColumnName := by
  cases source with
  | query q =>
    exact .ofResult_bind fun names hnames => .bind_last fun sql =>
      .pure (insertSelectNames_ok hnames)
  | values pairs =>
    cases pairs with
    | nil => exact .pure rfl
    | cons p pairs =>
      refine .bind_last fun places => .pure ?_
      rw [InsertSource.columns, List.map_map]
      rfl

/-- The table and the columns of a statement. -/
def namesQuoted (table : String) (columns : List String) : List Quoted :=
  .table table :: columns.map .column

theorem insert_shows (table : String) (source : InsertSource) (overwrite : Bool) :
    (c.insert table source schema overwrite).Yields fun sql _ =>
      ShowsAll c.dialect (namesQuoted table source.columns) sql := by
  refine (insertParts_names source).bind ?_
  rintro ⟨names, values⟩ _ rfl
  refine .pure (.cons (.left (.left (.left (.right .self)))) ?_)
  refine List.forall_mem_map.mpr fun n hn => .left (.left (.right ?_))
  rw [if_neg (by simpa using List.ne_nil_of_mem hn)]
  exact .left (.right (.joinWith (List.mem_map_of_mem hn)))

theorem withWhere_shows (sql : String) (condition : Operand) :
    (c.withWhere sql condition).Yields fun text _ => Shows text sql := by
  refine .bind_last fun text => .pure ?_
  split
  · exact .self
  · exact .left (.left .self)

theorem updateSets_shows : ∀ pairs : List (String × Operand),
    (c.updateSets schema pairs).Yields fun sets _ =>
      ∀ p ∈ pairs, ∃ set ∈ sets, Shows set (c.dialect.quoteColumnName p.1)
  | [] => .pure nofun
  | (name, o) :: pairs => by
    refine .ofResult_bind fun o _ => ?_
    refine .bind_last fun place => (updateSets_shows pairs).bind fun sets _ hsets => .pure ?_
    refine List.forall_mem_cons.mpr ⟨⟨_, List.mem_cons_self, .left (.left .self)⟩, fun p hp => ?_⟩
    obtain ⟨set, hset, hshows⟩ := hsets p hp
    exact ⟨set, List.mem_cons_of_mem _ hset, hshows⟩

theorem update_shows (table : String) (pairs : List (String × Operand)) (condition : Operand) :
    (c.update table pairs condition schema).Yields fun sql _ =>
      ShowsAll c.dialect (namesQuoted table (pairs.map (·.1))) sql := by
  refine (updateSets_shows pairs).bind fun sets _ hsets => ?_
  refine (withWhere_shows _ condition).mono fun text _ htext => .of_shows ?_ htext
  refine .cons (.left (.left (.right .self))) ?_
  refine List.forall_mem_map.mpr (List.forall_mem_map.mpr fun p hp => ?_)
  obtain ⟨set, hset, hshows⟩ := hsets p hp
  exact .right (.trans (.joinWith hset) hshows)

theorem delete_shows (table : String) (condition : Operand) :
    (c.delete table condition).Yields fun sql _ => ShowsAll c.dialect (namesQuoted table []) sql :=
  (withWhere_shows _ condition).mono fun _ _ htext => .of_shows (.cons (.right .self) .nil) htext

theorem upsert_shows (table : String) (source : InsertSource) (update : UpsertUpdate) :
    (c.upsert table source update schema).Yields fun sql _ =>
      ShowsAll c.dialect (namesQuoted table source.columns) sql := by
  unfold upsert
  split
  · exact .ofResult nofun
  · refine .ofResult_bind fun columns _ => (insert_shows table source false).bind fun sql _ h => ?_
    split
    · exact .pure h
    · exact .bind_last fun clause => .pure (h.of_shows (.left .self))

/-- Without rows there is no statement. -/
theorem batchInsert_shows (table : String) (columns : List String) (rows : List (List Operand)) :
    (c.batchInsert table columns rows schema).Yields fun sql _ =>
      ShowsAll c.dialect (if rows = [] then [] else namesQuoted table columns) sql := by
  unfold batchInsert
  cases rows with
  | nil => exact .pure .nil
  | cons row rows =>
    refine .bind_last fun tuples => .pure (.cons (.left (.left (.left (.left (.right .self))))) ?_)
    exact List.forall_mem_map.mpr fun n hn =>
      .left (.left (.right (.joinWith (List.mem_map_of_mem hn))))

end Compiler

end QueryKit
