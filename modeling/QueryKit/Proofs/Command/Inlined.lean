import QueryKit.Command.Write
import QueryKit.Proofs.Command.Sent
import QueryKit.Proofs.Placeholder.Alignment
import QueryKit.Proofs.Placeholder.Literal
import QueryKit.Proofs.Session.Meets

/-!
# Statements with their values written into them

- `castRows`: the values of a batch insert, each brought to the kind of its column.
- `Compiler.batchText`, `Compiler.viewText`: the statements of a batch insert and of a view, with
  literals for their values. They are sealed whatever the values are, so that nothing in a literal is
  taken for a place of a value.
- `Client.SentAsBuilt`: a command whose text is sent as it is, without values.
- `Client.inlined_sent_as_built`: batch inserts and views give such commands.
-/

namespace QueryKit

open Scan

/-! ## Values of a batch insert -/

/-- A value brought to the kind of a column. -/
def ColumnSchema.castPlain (c : ColumnSchema) : Value → Result Value
  | .string s => if s = "" ∧ !c.keepsEmpty then .ok .null else c.castValue (.string s)
  | v => c.castValue v

theorem ColumnSchema.cast_value (c : ColumnSchema) (v : Value) :
    c.cast (.value v) = (c.castPlain v).map .value := by
  cases v with
  | string s =>
    unfold cast castPlain
    dsimp only
    split <;> rfl
  | _ => rfl

/-- A value brought to the kind of the column of a name, if there is one. -/
def castCell (schema : Option TableSchema) (name : String) (v : Value) : Result Value :=
  match schema.bind (·.column? name) with
  | some column => column.castPlain v
  | none => .ok v

theorem castInto_value (schema : Option TableSchema) (name : String) (v : Value) :
    castInto schema name (.value v) = (castCell schema name v).map .value := by
  unfold castInto castCell
  cases schema.bind (·.column? name) with
  | none => rfl
  | some column => exact column.cast_value v

/-- The values of a row; those beyond the named columns stay as they are. -/
def castRow (schema : Option TableSchema) : List String → List Value → Result (List Value)
  | _, [] => .ok []
  | [], v :: vs => .ok (v :: vs)
  | name :: names, v :: vs => do
    let v ← castCell schema name v
    let vs ← castRow schema names vs
    return v :: vs

def castRows (schema : Option TableSchema) (columns : List String) :
    List (List Value) → Result (List (List Value))
  | [] => .ok []
  | row :: rows => do
    let row ← castRow schema columns row
    let rows ← castRows schema columns rows
    return row :: rows

variable {schema : Option TableSchema}

theorem castRow_length : ∀ {names : List String} {vs us : List Value},
    castRow schema names vs = .ok us → us.length = vs.length
  | _, [], _, h => by
    rw [castRow] at h
    cases h
    rfl
  | [], v :: vs, _, h => by
    rw [castRow] at h
    cases h
    rfl
  | name :: names, v :: vs, _, h => by
    rw [castRow] at h
    obtain ⟨u, -, h⟩ := Result.bind_ok h
    obtain ⟨us, hus, h⟩ := Result.bind_ok h
    cases h
    exact congrArg Nat.succ (castRow_length hus)

/-- Every row keeps the number of its cells. -/
theorem castRows_length {columns : List String} : ∀ {rows cells : List (List Value)},
    castRows schema columns rows = .ok cells → cells.map List.length = rows.map List.length
  | [], _, h => by
    rw [castRows] at h
    cases h
    rfl
  | row :: rows, _, h => by
    rw [castRows] at h
    obtain ⟨us, hus, h⟩ := Result.bind_ok h
    obtain ⟨cells, hcells, h⟩ := Result.bind_ok h
    cases h
    rw [List.map_cons, List.map_cons, castRow_length hus, castRows_length hcells]

/-! ## Texts with literals in them -/

namespace Compiler

variable (c : Compiler)

/-- The statement of a batch insert in front of its rows. -/
def batchHead (table : String) (columns : List String) : String :=
  "INSERT INTO " ++ c.dialect.quoteTableName table ++ " (" ++
    Text.joinWith ", " (columns.map c.dialect.quoteColumnName) ++ ") VALUES "

/-- The statement of a batch insert; without rows there is none. -/
def batchText (table : String) (columns : List String) (cells : List (List Value)) : String :=
  if cells = [] then "" else c.batchHead table columns ++ c.valuesText cells

/-- The statement of a view over the statement of a query, with literals in its places. -/
def viewText (name sql : String) (values : List Value) : String :=
  "CREATE VIEW " ++ c.dialect.quoteTableName name ++ " AS " ++
    String.ofList (fillText (pieces c.dialect.backslashEscapes sql) (values.map c.literal))

variable {c}

theorem batchRow_values (names : List String) (vs : List Value) :
    c.batchRow schema names (vs.map .value) =
      (castRow schema names vs).map fun us => (us.map c.literal, []) := by
  induction vs generalizing names with
  | nil => cases names <;> rfl
  | cons v vs ih =>
    cases names with
    | nil =>
      have hrest : c.batchRow schema [] (vs.map .value) = .ok (vs.map c.literal, []) := by
        rw [ih]
        cases vs <;> rfl
      rw [List.map_cons, batchRow]
      simp only [batchCell, bind, Compile.bind, Compile.pure, hrest]
      rfl
    | cons name names =>
      rw [List.map_cons, batchRow, castInto_value, castRow]
      cases castCell schema name v with
      | error e => rfl
      | ok u =>
        simp only [Except.map, Compile.ofResult, batchCell, bind, Compile.bind, Compile.pure, ih]
        cases castRow schema names vs <;> rfl

theorem batchRows_values (columns : List String) (rows : List (List Value)) :
    c.batchRows schema columns (rows.map (·.map .value)) =
      (castRows schema columns rows).map fun cells => (cells.map c.rowText, []) := by
  induction rows with
  | nil => rfl
  | cons row rows ih =>
    rw [List.map_cons, batchRows, batchRow_values, castRows]
    cases castRow schema columns row with
    | error e => rfl
    | ok us =>
      simp only [Except.map, bind, Compile.bind, ih]
      cases castRows schema columns rows <;> rfl

/-- A batch insert of values binds none of them. -/
theorem batchInsert_values (table : String) (columns : List String) (rows : List (List Value)) :
    (c.batchInsert table columns (rows.map (·.map .value)) schema).run =
      (castRows schema columns rows).map fun cells =>
        (c.batchText table columns cells, Params.empty) := by
  unfold batchInsert
  rw [List.isEmpty_map, batchRows_values]
  cases rows with
  | nil => rfl
  | cons row rows =>
    rw [castRows]
    cases castRow schema columns row with
    | error e => rfl
    | ok us => cases castRows schema columns rows <;> rfl

/-- The query of a view has a place for each of its values, which are all written into it. -/
theorem createView_fits (c : Compiler) (name : String) {sql : String} {q : Query} {ps : Params}
    (hq : q.Fits c (placeholderLaw c.dialect)) (h : c.build q .empty = .ok (sql, ps)) :
    c.createView name q = .ok (c.viewText name sql (ps.positional.map (·.value))) ∧
      Reads c.dialect.backslashEscapes ps.positional.length sql.toList := by
  cases hrender : renderQuery c q with
  | error e =>
    rw [build, hrender] at h
    cases h
  | ok r =>
    obtain ⟨text, bs⟩ := r
    have hbuild := h
    rw [build, hrender] at h
    cases h
    have hpositional : (Params.empty.bindAll bs).positional = positionals bs :=
      Params.positional_bindAll .empty bs
    have hreads : Reads c.dialect.backslashEscapes (positionals bs).length sql.toList :=
      renderQuery_holds hq sql bs hrender
    rw [← hpositional] at hreads
    refine ⟨?_, hreads⟩
    have hinline : c.inlineParams sql (Params.empty.bindAll bs) =
        .ok (String.ofList (fillText (pieces c.dialect.backslashEscapes sql)
          ((Params.empty.bindAll bs).positional.map fun p => c.literal p.value))) := by
      rw [inlineParams, Params.bindSql, fillPieces_positional fun p => c.literal p.value]
      · rfl
      · exact fun name h => absurd (hreads.pieces_eq ▸ h) (hreads.unnamed name)
      · rw [hreads.pieces_eq, hreads.holes]
    rw [createView, hbuild]
    simp only [bind, Except.bind, hinline]
    rw [viewText, List.map_map]
    rfl

theorem createView_error {name : String} {q : Query} {e : Error}
    (h : c.build q .empty = .error e) : c.createView name q = .error e := by
  rw [createView, h]
  rfl

end Compiler

/-! ## Sealed texts -/

namespace Sealed

variable {escapes : Bool}

/-- Sealed texts with a sealed one between each two of them. -/
theorem joinWith {separator : String} (hs : Sealed escapes separator.toList) :
    ∀ {parts : List String}, (∀ p ∈ parts, Sealed escapes p.toList) →
      Sealed escapes (Text.joinWith separator parts).toList
  | [], _ => .nil
  | [p], h => h p List.mem_cons_self
  | p :: q :: parts, h => by
    obtain ⟨hp, hrest⟩ := List.forall_mem_cons.mp h
    rw [Text.joinWith, String.toList_append, String.toList_append]
    exact (hp.append hs).append (joinWith hs hrest)

theorem tableName {d : Dialect} {name : String} (h : Unmarked name.toList) :
    Sealed escapes (d.quoteTableName name).toList := by
  have hsegments := Dialect.segments_quoteTableChars (d := d) (.of_unmarked h)
  rw [Dialect.quoteTableName, String.toList_ofList]
  exact .of_reads hsegments.reads

theorem columnName {d : Dialect} {name : String} (h : Unmarked name.toList) :
    Sealed escapes (d.quoteColumnName name).toList := by
  have hsegments := Dialect.segments_quoteColumnChars (d := d) (.of_unmarked h)
  rw [Dialect.quoteColumnName, String.toList_ofList]
  exact .of_reads hsegments.reads

end Sealed

namespace Compiler

variable {c : Compiler}

theorem valuesText_sealed (cells : List (List Value)) :
    Sealed c.dialect.backslashEscapes (c.valuesText cells).toList := by
  have hcomma : Sealed c.dialect.backslashEscapes ", ".toList := .of_unmarked (by decide)
  have hopen : Sealed c.dialect.backslashEscapes "(".toList := .of_unmarked (by decide)
  have hclose : Sealed c.dialect.backslashEscapes ")".toList := .of_unmarked (by decide)
  refine .joinWith hcomma (List.forall_mem_map.mpr fun row _ => ?_)
  rw [rowText, String.toList_append, String.toList_append]
  refine (hopen.append (.joinWith hcomma ?_)).append hclose
  exact List.forall_mem_map.mpr fun v _ => c.literal_sealed v

theorem batchText_sealed (c : Compiler) {table : String} {columns : List String}
    (htable : Unmarked table.toList)
    (hcolumns : ∀ n ∈ columns, Unmarked n.toList) (cells : List (List Value)) :
    Sealed c.dialect.backslashEscapes (c.batchText table columns cells).toList := by
  have hcomma : Sealed c.dialect.backslashEscapes ", ".toList := .of_unmarked (by decide)
  have hinsert : Sealed c.dialect.backslashEscapes "INSERT INTO ".toList := .of_unmarked (by decide)
  have hopen : Sealed c.dialect.backslashEscapes " (".toList := .of_unmarked (by decide)
  have hvalues : Sealed c.dialect.backslashEscapes ") VALUES ".toList := .of_unmarked (by decide)
  have hnames : Sealed c.dialect.backslashEscapes
      (Text.joinWith ", " (columns.map c.dialect.quoteColumnName)).toList :=
    .joinWith hcomma (List.forall_mem_map.mpr fun n hn => .columnName (hcolumns n hn))
  unfold batchText batchHead
  split
  · exact .nil
  · simp only [String.toList_append]
    exact (((hinsert.append (.tableName htable)).append hopen).append hnames).append hvalues
      |>.append (valuesText_sealed cells)

theorem viewText_sealed (c : Compiler) {n : Nat} {name sql : String} {values : List Value}
    (hname : Unmarked name.toList) (h : Reads c.dialect.backslashEscapes n sql.toList)
    (hvalues : values.length = n) :
    Sealed c.dialect.backslashEscapes (c.viewText name sql values).toList := by
  have hcreate : Sealed c.dialect.backslashEscapes "CREATE VIEW ".toList := .of_unmarked (by decide)
  have has : Sealed c.dialect.backslashEscapes " AS ".toList := .of_unmarked (by decide)
  simp only [viewText, String.toList_append, String.toList_ofList]
  refine ((hcreate.append (.tableName hname)).append has).append ?_
  refine h.fill (List.forall_mem_map.mpr fun v _ => c.literal_sealed v) ?_
  rw [List.length_map, hvalues]

end Compiler

/-! ## Commands -/

namespace Command

variable {cmd : Command} {conn : Connection}

/-- Nothing is bound to the command, and it is not prepared. -/
structure Unbound (cmd : Command) : Prop where
  params : cmd.params = .empty
  prepared : cmd.prepared = none

theorem Unbound.setRawSql (h : cmd.Unbound) (sql : String) :
    (cmd.setRawSql sql).Unbound := by
  unfold Command.setRawSql
  split
  · exact h
  · exact ⟨rfl, rfl⟩

theorem Unbound.create (conn : Connection) (sql : String) : (Command.create conn sql).Unbound :=
  have hempty : Command.empty.Unbound := ⟨rfl, rfl⟩
  hempty.setRawSql _

theorem Unbound.refreshing (h : cmd.Unbound) (refreshTable : Option String) :
    ({ cmd with refreshTable } : Command).Unbound :=
  ⟨h.params, h.prepared⟩

theorem define_view {name sql : String} {q : Query} (cmd : Command)
    (h : conn.compiler.createView name q = .ok sql) :
    cmd.define conn (.createView name q) =
      .ok { cmd.setRawSql sql with refreshTable := some name } := by
  rw [define, Definition.sql, h]
  rfl

/-- A sealed text is prepared as it is. -/
theorem Unbound.preparation (h : cmd.Unbound)
    (hsql : Sealed conn.dialect.backslashEscapes cmd.sql.toList) :
    cmd.preparation conn = .ok ⟨cmd.sql, []⟩ := by
  rw [Command.preparation, h.prepared]
  dsimp only
  rw [bound, h.params, Params.bindSql_of_avoids hsql.avoids]
  rfl

end Command

namespace Client

variable {σ : Type} (c : Client σ)

/-- Preparing the command binds no value and leaves its text as it is, and this text without values
is all that the command sends. -/
structure SentAsBuilt (cmd : Command) : Prop where
  prepare : cmd.prepare c.connection = .ok { cmd with prepared := some ⟨cmd.sql, []⟩ }
  execute : Run.Sends (fun sql values => sql = cmd.sql ∧ values = []) (c.execute cmd)
  fetch : ∀ method, Run.Sends (fun sql values => sql = cmd.sql ∧ values = [])
    (c.fetchRows cmd method)

variable {c}

theorem SentAsBuilt.of_sealed {cmd : Command} (h : cmd.Unbound)
    (hsql : Sealed c.connection.dialect.backslashEscapes cmd.sql.toList) : c.SentAsBuilt cmd := by
  have hprepared := h.preparation hsql
  have hsent : ∀ sql values, cmd.preparation c.connection = .ok ⟨sql, values⟩ →
      sql = cmd.sql ∧ values = [] := by
    intro sql values heq
    rw [hprepared] at heq
    cases heq
    exact ⟨rfl, rfl⟩
  refine ⟨?_, (execute_sends cmd).mono hsent, fun method => (fetchRows_sends cmd method).mono hsent⟩
  rw [Command.prepare, hprepared]
  rfl

/-- What a batch insert of values makes of a command without values. -/
theorem batchInsert_unbound {cmd : Command} (h : cmd.Unbound) (table : String)
    (columns : List String) (rows : List (List Value)) {w w' : RunState σ}
    (hschema : c.tableSchema table w = (.done schema, w')) :
    c.batchInsert cmd table columns (rows.map (·.map .value)) w =
      match castRows schema columns rows with
      | .error e => (.failed e, w')
      | .ok cells =>
        (.done (cmd.setRawSql (c.connection.compiler.batchText table columns cells)), w') := by
  refine (Run.bind_done hschema).trans ?_
  rw [Compiler.batchInsert_values]
  cases castRows schema columns rows with
  | error e => rfl
  | ok cells =>
    have hunbound := h.setRawSql (c.connection.compiler.batchText table columns cells)
    change (Outcome.done { cmd.setRawSql _ with params := Params.empty }, w') = _
    rw [← hunbound.params]

/-- Statements with their values written into them are sent as they are built, whatever the values
are.

- A batch insert of values fails only if one of them cannot be brought to the kind of its column. Its
  text can be cut into one literal for each cell.
- A view over a query fails only if the query does. Its text has a literal in each place. -/
theorem inlined_sent_as_built (c : Client σ) (text : String) :
    let fresh := Command.create c.connection text
    let compiler := c.connection.compiler
    (∀ table columns rows schema w w', Unmarked table.toList →
      (∀ n ∈ columns, Unmarked n.toList) → c.tableSchema table w = (.done schema, w') →
        (∀ e, castRows schema columns rows = .error e →
          c.batchInsert fresh table columns (rows.map (·.map .value)) w = (.failed e, w')) ∧
        ∀ cells, castRows schema columns rows = .ok cells →
          cells.map List.length = rows.map List.length ∧
          readValues compiler.dialect.backslashEscapes (compiler.valuesText cells).toList =
            cells.map (fun row => row.map fun v => (compiler.literal v).toList) ∧
          ∃ cmd, c.batchInsert fresh table columns (rows.map (·.map .value)) w = (.done cmd, w') ∧
            cmd.sql = compiler.batchText table columns cells ∧ c.SentAsBuilt cmd) ∧
    ∀ name q, Unmarked name.toList → q.Fits compiler (placeholderLaw compiler.dialect) →
      (∀ e, compiler.build q .empty = .error e →
        fresh.define c.connection (.createView name q) = .error e) ∧
      ∀ sql ps, compiler.build q .empty = .ok (sql, ps) →
        (pieces compiler.dialect.backslashEscapes sql).count .positional = ps.positional.length ∧
        ∃ cmd, fresh.define c.connection (.createView name q) = .ok cmd ∧
          cmd.sql = compiler.viewText name sql (ps.positional.map (·.value)) ∧
          c.SentAsBuilt cmd := by
  intro fresh compiler
  have hfresh : fresh.Unbound := .create c.connection text
  refine ⟨fun table columns rows schema w w' htable hcolumns hschema => ?_,
    fun name q hname hq => ?_⟩
  · have hinsert := batchInsert_unbound hfresh table columns rows hschema
    refine ⟨fun e he => by rw [hinsert, he], fun cells hcells => ?_⟩
    have hunbound := hfresh.setRawSql (compiler.batchText table columns cells)
    have hsql := fresh.setRawSql_sql (compiler.batchText table columns cells)
    refine ⟨castRows_length hcells, compiler.readValues_valuesText cells, _,
      by rw [hinsert, hcells], hsql, .of_sealed hunbound ?_⟩
    rw [hsql]
    exact compiler.batchText_sealed htable hcolumns cells
  · refine ⟨fun e he => ?_, fun sql ps hbuild => ?_⟩
    · rw [Command.define, Definition.sql, Compiler.createView_error he]
      rfl
    · obtain ⟨hview, hreads⟩ := compiler.createView_fits name hq hbuild
      have hunbound := hfresh.setRawSql (compiler.viewText name sql (ps.positional.map (·.value)))
      have hsql := fresh.setRawSql_sql (compiler.viewText name sql (ps.positional.map (·.value)))
      refine ⟨by rw [hreads.pieces_eq, hreads.holes], _, fresh.define_view hview, hsql,
        .of_sealed (hunbound.refreshing (some name)) ?_⟩
      have hlength : (ps.positional.map (·.value)).length = ps.positional.length :=
        List.length_map _
      have hsealed := compiler.viewText_sealed hname hreads hlength
      rwa [← hsql] at hsealed

/-- Rows with texts that look like the end of a literal, like a place of a value and like the end of a
row. -/
def noteRows : List (List Value) :=
  [[.int32 1, .string "it's ?"], [.null, .string "\\), (:a"]]

def notesSql : String :=
  "INSERT INTO \"note\" (\"id\", \"text\") VALUES (1, 'it''s ?'), (NULL, '\\), (:a')"

def usersViewSql : String :=
  "CREATE VIEW \"few\" AS SELECT \"id\" FROM \"user\" WHERE (\"status\" IN (1, 2)) " ++
    "AND (\"name\" LIKE '%a%') AND (age + 3 > 18) LIMIT 10"

theorem notes_sent_as_built :
    let fresh := Command.create rehearsal.connection ""
    (∃ cmd w', rehearsal.batchInsert fresh "note" ["id", "text"] (noteRows.map (·.map .value))
        rehearsalState = (.done cmd, w') ∧ cmd.sql = notesSql ∧ rehearsal.SentAsBuilt cmd) ∧
      ∃ cmd, fresh.define rehearsal.connection (.createView "few" Compilable.usersQuery) = .ok cmd ∧
        cmd.sql = usersViewSql ∧ rehearsal.SentAsBuilt cmd := by
  intro fresh
  obtain ⟨hinsert, hview⟩ := inlined_sent_as_built rehearsal ""
  refine ⟨?_, ?_⟩
  · obtain ⟨-, -, cmd, hcmd, hsql, hsent⟩ := (hinsert "note" ["id", "text"] noteRows none
      rehearsalState _ (by decide) (by decide) rfl).2 noteRows rfl
    exact ⟨cmd, _, hcmd, hsql.trans (by decide), hsent⟩
  · obtain ⟨-, cmd, hcmd, hsql, hsent⟩ := (hview "few" Compilable.usersQuery (by decide)
      Compilable.usersQuery_fits).2 Compilable.usersSql _ rfl
    exact ⟨cmd, hcmd, hsql.trans (by decide +kernel), hsent⟩

end Client

end QueryKit
