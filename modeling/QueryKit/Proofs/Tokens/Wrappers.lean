import QueryKit.Proofs.Command.Freshness
import QueryKit.Proofs.Tokens.Names
import QueryKit.Proofs.Tokens.Shown

/-!
# Tokens in the statements of commands

- `Wrapper`: the calls that put the statement of a builder into a command, and `Wrapper.text`: the
  statement as its builder gives it, with names and literals in quotes (`Wrapper.text_shows`).
- `Wrapper.keepsText`: batch inserts and views, whose statements are taken as they are. Everything
  else expands the tokens of its statement (`Wrapper.run_sql`).
- `Client.wrapper_tokens`: which tokens in the place of a name become the name that they stand for,
  and which literals stay as they were.
-/

namespace QueryKit

/-! ## Builders -/

namespace Build

/-- The schema of the table that values are written to. -/
def schema {σ : Type} (c : Client σ) : Build → Run σ (Option TableSchema)
  | insert table _ _ | update table _ _ _ | upsert table _ _ _ | batchInsert table _ _ =>
    c.tableSchema table
  | delete _ _ _ => .pure none

/-- The values that are there before a build. -/
def params : Build → Params
  | update _ _ _ params | delete _ _ params | upsert _ _ _ params => params
  | insert _ _ _ | batchInsert _ _ _ => .empty

/-- What the builder makes of a build, with the schema of its table. -/
def compile (c : Compiler) (schema : Option TableSchema) : Build → Compile String
  | insert table source withUpdate => c.insert table source schema withUpdate
  | update table columns condition _ => c.update table columns condition schema
  | delete table condition _ => c.delete table condition
  | upsert table source existing _ => c.upsert table source existing schema
  | batchInsert table columns rows => c.batchInsert table columns rows schema

/-- The builder's statement and its values. -/
def built {σ : Type} (c : Client σ) (b : Build) : Run σ (String × Params) := do
  let schema ← b.schema c
  Run.ofResult ((b.compile c.connection.compiler schema).into b.params)

/-- Whether the statement is taken as it is. -/
def keepsText : Build → Bool
  | batchInsert _ _ _ => true
  | _ => false

/-- The table and the columns that are written to. -/
def quoted : Build → List Quoted
  | insert table source _ | upsert table source _ _ => Compiler.namesQuoted table source.columns
  | update table columns _ _ => Compiler.namesQuoted table (columns.map (·.1))
  | delete table _ _ => Compiler.namesQuoted table []
  | batchInsert table columns rows =>
    if rows = [] then [] else Compiler.namesQuoted table columns

variable {σ : Type} {c : Client σ}

theorem compile_shows (c : Compiler) (schema : Option TableSchema) : ∀ b : Build,
    (b.compile c schema).Yields fun sql _ => ShowsAll c.dialect b.quoted sql
  | insert table source withUpdate => Compiler.insert_shows table source withUpdate
  | update table columns condition _ => Compiler.update_shows table columns condition
  | delete table condition _ => Compiler.delete_shows table condition
  | upsert table source existing _ => Compiler.upsert_shows table source existing
  | batchInsert table columns rows => Compiler.batchInsert_shows table columns rows

/-- The statement of a build shows its names in quotes. -/
theorem built_meets (b : Build) : Run.Meets (fun _ => True) (fun _ => True) (fun _ => True)
    (b.built c) fun built _ => ShowsAll c.connection.dialect b.quoted built.1 := by
  refine .bind .trivial fun schema => .ofResult ?_ fun _ _ => trivial
  rintro ⟨sql, params⟩ hbuilt _ _
  have hshows := b.compile_shows c.connection.compiler schema
  cases hcompile : b.compile c.connection.compiler schema with
  | error e =>
    rw [hcompile] at hbuilt
    cases hbuilt
  | ok r =>
    rw [hcompile] at hbuilt
    cases hbuilt
    exact hshows r.1 r.2 hcompile

theorem statement_eq (b : Build) :
    b.statement c = do
      let built ← b.built c
      return (if b.keepsText then built.1 else c.connection.quoteSql built.1, built.2) := by
  rw [built, bind_assoc]
  cases b with
  | insert | update | delete | upsert => rfl
  | batchInsert table columns rows => exact bind_congr fun schema => (bind_pure _).symm

end Build

/-! ## Wrappers -/

/-- A call that puts the statement of a builder into a command. -/
inductive Wrapper where
  | build (b : Build)
  | define (x : Definition)
  | resetSequence (table : String) (value : Option Int)

/-- The reset of a sequence, with the names that the cached schema tells. -/
def SchemaCache.resetting (schemas : SchemaCache) (table : String) (value : Option Int) :
    Definition :=
  .resetSequence table ((schemas.get? table).bind (·.sequenceName))
    ((schemas.get? table).bind (·.primaryKey.head?)) value

namespace Wrapper

variable {σ : Type} (c : Client σ)

/-- The command with the statement of a wrapper. -/
def run (cmd : Command) : Wrapper → Run σ Command
  | build b => b.run c cmd
  | define x => .ofResult (cmd.define c.connection x)
  | resetSequence table value => c.resetSequence cmd table value

/-- The statement as its builder gives it. -/
def text : Wrapper → Run σ String
  | build b => do return (← b.built c).1
  | define x => .ofResult (x.sql c.connection.compiler)
  | resetSequence table value => do
    let w ← Run.state
    Run.ofResult ((w.schemas.resetting table value).sql c.connection.compiler)

/-- Whether the statement is taken as it is. -/
def keepsText : Wrapper → Bool
  | build b => b.keepsText
  | define x => x.isComplete
  | resetSequence _ _ => false

/-- The text of the command for a builder's statement. -/
def finish (conn : Connection) (wr : Wrapper) (sql : String) : String :=
  if wr.keepsText then sql else conn.quoteSql sql

/-- The names and the texts that the builder puts in quotes in every case. -/
def quoted (d : Dialect) (schemas : SchemaCache) : Wrapper → List Quoted
  | build b => b.quoted
  | define x => x.quoted d
  | resetSequence table value => (schemas.resetting table value).quoted d

variable {c}

theorem define_sql (conn : Connection) (cmd : Command) (x : Definition) :
    (cmd.define conn x).map (·.sql) = (x.sql conn.compiler).map (finish conn (.define x)) := by
  unfold Command.define
  cases x.sql conn.compiler with
  | error e => rfl
  | ok sql =>
    change Except.ok (if x.isComplete then cmd.setRawSql sql else cmd.setSql conn sql).sql = _
    unfold Command.setSql
    rw [apply_ite Command.sql, Command.setRawSql_sql, Command.setRawSql_sql]
    rfl

theorem ofResult_map {α β : Type} (r : Result α) (f : α → β) :
    (do return f (← (Run.ofResult r : Run σ α))) = Run.ofResult (r.map f) := by
  cases r <;> rfl

/-- The command gets the statement of the builder, with its tokens expanded unless it is taken as it
is, whatever the command was. It fails where the builder does. -/
theorem run_sql (wr : Wrapper) (cmd : Command) :
    (do return (← wr.run c cmd).sql) = do return wr.finish c.connection (← wr.text c) := by
  cases wr with
  | build b =>
    simp only [run, text, Build.run_eq, Build.statement_eq, bind_assoc, pure_bind,
      Command.setRawSql_sql]
    rfl
  | define x =>
    simp only [run, text, ofResult_map]
    exact congrArg _ (define_sql c.connection cmd x)
  | resetSequence table value =>
    have hrun : c.resetSequence cmd table value = Run.state >>= fun w =>
      Run.ofResult (cmd.define c.connection (w.schemas.resetting table value)) := rfl
    simp only [run, text, hrun, bind_assoc, ofResult_map]
    exact bind_congr fun w =>
      congrArg _ (define_sql c.connection cmd (w.schemas.resetting table value))

/-- The statement shows them in quotes. -/
theorem text_shows {wr : Wrapper} {w w' : RunState σ} {sql : String}
    (h : wr.text c w = (.done sql, w')) :
    ShowsAll c.connection.dialect (wr.quoted c.connection.dialect w.schemas) sql := by
  cases wr with
  | build b =>
    have htext : Run.Meets (fun _ => True) (fun _ => True) (fun _ => True) ((build b).text c)
        fun sql _ => ShowsAll c.connection.dialect b.quoted sql :=
      b.built_meets.bind fun built => .pure fun _ hbuilt => hbuilt
    exact htext.done trivial h
  | define x => exact Definition.sql_shows (Run.ofResult_done (congrArg Prod.fst h))
  | resetSequence table value =>
    have hx : (w.schemas.resetting table value).sql c.connection.compiler = .ok sql :=
      Run.ofResult_done (congrArg Prod.fst h)
    exact Definition.sql_shows hx

end Wrapper

/-! ## Tokens -/

/-- A token as it is written. -/
def Token.written (tok : Token) : String :=
  String.ofList tok.text

namespace Connection

variable {conn : Connection}

theorem quoteSql_toList (sql : String) : (conn.quoteSql sql).toList =
    conn.dialect.expandTokens conn.config.tablePrefix.toList 0 sql.toList :=
  String.toList_ofList

theorem quoteSql_written (tok : Token) : (conn.quoteSql tok.written).toList =
    tok.expansion conn.dialect conn.config.tablePrefix.toList := by
  have h : conn.dialect.expandTokens conn.config.tablePrefix.toList 0 ([] ++ (tok.text ++ [])) =
      [] ++ (tok.expansion conn.dialect conn.config.tablePrefix.toList ++ []) :=
    Token.expandTokens_text [] tok []
  rw [quoteSql_toList, Token.written, String.toList_ofList]
  simpa using h

variable (hword : ∀ x ∈ conn.config.tablePrefix.toList, Text.isWord x = true)
include hword

/-- In a statement that is expanded, a token in the place of a table becomes the name that it stands
for exactly if it is a table token. -/
theorem quoteSql_table_iff (tok : Token) (a b : String) :
    conn.quoteSql (a ++ conn.dialect.quoteTableName tok.written ++ b) =
        conn.quoteSql a ++ conn.quoteSql tok.written ++ conn.quoteSql b ↔ tok.NamesTable := by
  rw [← Token.expanded_table_iff conn.dialect hword tok a.toList b.toList, ← String.toList_inj]
  simp only [String.toList_append, quoteSql_written, List.append_assoc]
  simp only [quoteSql_toList, String.toList_append, List.append_assoc, Dialect.quoteTableName,
    Token.written, String.toList_ofList]

/-- In the place of a column, exactly the table tokens with a point in their name do not. -/
theorem quoteSql_column_iff (tok : Token) (a b : String) :
    conn.quoteSql (a ++ conn.dialect.quoteColumnName tok.written ++ b) =
        conn.quoteSql a ++ conn.quoteSql tok.written ++ conn.quoteSql b ↔ tok.NamesColumn := by
  rw [← Token.expanded_column_iff conn.dialect hword tok a.toList b.toList, ← String.toList_inj]
  simp only [String.toList_append, quoteSql_written, List.append_assoc]
  simp only [quoteSql_toList, String.toList_append, List.append_assoc, Dialect.quoteColumnName,
    Token.written, String.toList_ofList]

/-- A literal stays as it is exactly if it holds no token. -/
theorem quoteSql_literal_iff (value a b : String) :
    conn.quoteSql (a ++ conn.dialect.quoteValue value ++ b) =
        conn.quoteSql a ++ conn.dialect.quoteValue value ++ conn.quoteSql b ↔
      ¬HasToken value.toList := by
  rw [← Token.expanded_literal_iff conn.dialect hword value a.toList b.toList,
    ← String.toList_inj]
  simp only [String.toList_append, quoteSql_toList, List.append_assoc]

/-- A name in quotes is never what a token stands for. -/
theorem quoteTableName_ne (tok : Token) :
    conn.dialect.quoteTableName tok.written ≠ conn.quoteSql tok.written := by
  rw [Ne, ← String.toList_inj, quoteSql_written, Dialect.quoteTableName, Token.written,
    String.toList_ofList, String.toList_ofList]
  exact Token.quoteTableChars_ne_expansion conn.dialect hword tok

theorem quoteColumnName_ne (tok : Token) :
    conn.dialect.quoteColumnName tok.written ≠ conn.quoteSql tok.written := by
  rw [Ne, ← String.toList_inj, quoteSql_written, Dialect.quoteColumnName, Token.written,
    String.toList_ofList, String.toList_ofList]
  exact Token.quoteColumnChars_ne_expansion conn.dialect hword tok

end Connection

namespace Client

variable {σ : Type}

/-- What every wrapper does with quoting tokens, if the prefix of tables is a word.

- The command gets the builder's statement. It is taken as it is for batch inserts and views, and its
  tokens are expanded otherwise.
- The names in a statement stand in it in quotes, and so do comments and other literals.
- A token in the place of a table becomes the name that it stands for exactly if the statement is
  expanded and the token is a table token.
- So does a token in the place of a column, if it is not a table token with a point in its name.
- A literal stays as it is exactly if the statement is taken as it is or the text holds no token. -/
theorem wrapper_tokens (c : Client σ)
    (hword : ∀ x ∈ c.connection.config.tablePrefix.toList, Text.isWord x = true) (wr : Wrapper) :
    let conn := c.connection
    let d := conn.dialect
    (∀ cmd, (do return (← wr.run c cmd).sql) = do return wr.finish conn (← wr.text c)) ∧
      (∀ w w' sql, wr.text c w = (.done sql, w') → ShowsAll d (wr.quoted d w.schemas) sql) ∧
      ∀ a b,
        (∀ tok : Token, wr.finish conn (a ++ d.quoteTableName tok.written ++ b) =
          wr.finish conn a ++ conn.quoteSql tok.written ++ wr.finish conn b ↔
            wr.keepsText = false ∧ tok.NamesTable) ∧
          (∀ tok : Token, wr.finish conn (a ++ d.quoteColumnName tok.written ++ b) =
            wr.finish conn a ++ conn.quoteSql tok.written ++ wr.finish conn b ↔
              wr.keepsText = false ∧ tok.NamesColumn) ∧
          ∀ value, wr.finish conn (a ++ d.quoteValue value ++ b) =
            wr.finish conn a ++ d.quoteValue value ++ wr.finish conn b ↔
              wr.keepsText = true ∨ ¬HasToken value.toList := by
  intro conn d
  refine ⟨wr.run_sql, fun w w' sql h => wr.text_shows h, fun a b => ?_⟩
  unfold Wrapper.finish
  cases hkeeps : wr.keepsText with
  | true =>
    simp only [if_true, String.append_left_inj, String.append_right_inj]
    refine ⟨fun tok => iff_of_false ?_ (by simp), fun tok => iff_of_false ?_ (by simp), by simp⟩
    · exact conn.quoteTableName_ne hword tok
    · exact conn.quoteColumnName_ne hword tok
  | false =>
    simp only [Bool.false_eq_true, if_false, true_and, false_or]
    exact ⟨fun tok => conn.quoteSql_table_iff hword tok a b,
      fun tok => conn.quoteSql_column_iff hword tok a b,
      fun value => conn.quoteSql_literal_iff hword value a b⟩

/-- The rehearsal with a prefix for tables. -/
def prefixedRehearsal : Client Recorder where
  connection :=
    { rehearsal.connection with config := { tablePrefix := "tbl_", enableLogging := false } }
  backend := recorder
  patience := 1

/-- The table `user` with its prefix. -/
def userToken : Token :=
  .table true false ⟨"user".toList, by decide, List.all_eq_true.mp rfl⟩

/-- The column `id`. -/
def idToken : Token :=
  .column ⟨"id".toList, by decide, List.all_eq_true.mp rfl⟩

/-- A comment about a column on a table, and a row that is inserted into that table. -/
theorem user_wrapper_tokens :
    let conn := prefixedRehearsal.connection
    let comment := Wrapper.define
      (.commentTable userToken.written (some ("see " ++ idToken.written)))
    let batch := Wrapper.build
      (.batchInsert userToken.written [idToken.written] [[.value (.int32 1)]])
    (∃ w, (do return (← comment.run prefixedRehearsal .empty).sql) rehearsalState =
        (.done "COMMENT ON TABLE \"tbl_user\" IS 'see \"id\"'", w)) ∧
      (∃ w, (do return (← batch.run prefixedRehearsal .empty).sql) rehearsalState =
        (.done "INSERT INTO \x7b\x7b%user\x7d\x7d ([[id]]) VALUES (1)", w)) ∧
      comment.finish conn ("DROP TABLE " ++ conn.dialect.quoteTableName userToken.written ++ "") =
        comment.finish conn "DROP TABLE " ++ conn.quoteSql userToken.written ++
          comment.finish conn "" ∧
      batch.finish conn ("(" ++ conn.dialect.quoteColumnName idToken.written ++ ")") ≠
        batch.finish conn "(" ++ conn.quoteSql idToken.written ++ batch.finish conn ")" := by
  intro conn comment batch
  have hword : ∀ x ∈ conn.config.tablePrefix.toList, Text.isWord x = true :=
    List.all_eq_true.mp (by decide)
  obtain ⟨hcomment, -, hexpanded⟩ := wrapper_tokens prefixedRehearsal hword comment
  obtain ⟨hbatch, -, hkept⟩ := wrapper_tokens prefixedRehearsal hword batch
  have hcommentSql : comment.finish conn
      ("COMMENT ON TABLE " ++ conn.dialect.quoteTableName userToken.written ++ " IS " ++
        conn.dialect.quoteValue ("see " ++ idToken.written)) =
      "COMMENT ON TABLE \"tbl_user\" IS 'see \"id\"'" := by
    decide +kernel
  obtain ⟨w, hbatchText⟩ : ∃ w, batch.text prefixedRehearsal rehearsalState =
      (.done "INSERT INTO \x7b\x7b%user\x7d\x7d ([[id]]) VALUES (1)", w) :=
    ⟨_, rfl⟩
  refine ⟨⟨rehearsalState, ?_⟩, ⟨w, ?_⟩, ?_, fun h => ?_⟩
  · rw [hcomment, ← hcommentSql]
    rfl
  · rw [hbatch, Run.bind_done hbatchText]
    rfl
  · exact ((hexpanded _ _).1 userToken).mpr ⟨rfl, trivial⟩
  · exact Bool.noConfusion (((hkept _ _).2.1 idToken).mp h).1

end Client

end QueryKit
