import QueryKit.Compile.Query
import QueryKit.Params.Placeholder
import QueryKit.Query.Columns
import QueryKit.Text.Template

/-!
# Statements that define

- `Dialect.columnType`: the physical type of an abstract one such as `string(64)` or `pk NOT NULL`.
- Tables, columns, keys, indexes, checks, comments, views and sequences, each as one statement.
- A view keeps the values of its query as literals.
-/

namespace QueryKit

/-- What happens to rows that refer to a row that goes away. -/
inductive ForeignKeyAction where
  | cascade
  | restrict
  | setNull
  | setDefault
  | noAction
deriving DecidableEq, Repr

def ForeignKeyAction.sql : ForeignKeyAction → String
  | cascade => "CASCADE"
  | restrict => "RESTRICT"
  | setNull => "SET NULL"
  | setDefault => "SET DEFAULT"
  | noAction => "NO ACTION"

namespace Dialect

/-! ## Column types -/

/-- The word at the start of a type, its arguments and what follows them. Arguments are not empty,
and all of it stands on one line. -/
def splitTypeArgs (s : List Char) : Option (List Char × List Char × List Char) :=
  let word := s.takeWhile Text.isWord
  match s.dropWhile Text.isWord with
  | '(' :: c :: r =>
    if word.isEmpty || (c :: r).contains '\n' then none
    else (Text.splitFirst ')' r).map fun (args, rest) => (word, c :: args, rest)
  | _ => none

/-- A physical type with the given arguments in the place of its own. -/
def replaceTypeArgs (physical args : List Char) : List Char :=
  match Text.splitFirst '(' physical with
  | none => physical
  | some (before, r) =>
    match Text.splitLast ')' r with
    | none => physical
    | some (inner, rest) =>
      if inner.isEmpty then physical
      else
        before ++ Text.expandTemplate ('(' :: (inner ++ [')'])) ('(' :: (args ++ [')'])) ++ rest

/-- The physical type of an abstract one. Types that are not known stay as they are. -/
def columnType (d : Dialect) (type : String) : String :=
  match d.typeMap.lookup type with
  | some physical => physical
  | none =>
    match splitTypeArgs type.toList with
    | some (word, args, rest) =>
      match d.typeMap.lookup (String.ofList word) with
      | some physical => String.ofList (replaceTypeArgs physical.toList args ++ rest)
      | none => type
    | none =>
      let word := type.toList.takeWhile Text.isWord
      let rest := type.toList.dropWhile Text.isWord
      if rest.head?.any Text.isBlank then
        match d.typeMap.lookup (String.ofList word) with
        | some physical => physical ++ String.ofList rest
        | none => type
      else type

/-! ## Tables -/

/-- The quoted columns of a list; a text with a parenthesis stays as it is. -/
def quoteColumns (d : Dialect) (columns : String) : String :=
  if columns.toList.contains '(' then columns
  else Text.joinWith ", " ((splitColumns columns).map d.quoteColumnName)

/-- A line of a CREATE TABLE; without a name, the definition stands as it is. -/
def columnLine (d : Dialect) (name definition : String) : String :=
  if name = "" then "\t" ++ definition
  else "\t" ++ d.quoteColumnName name ++ " " ++ d.columnType definition

def createTable (d : Dialect) (table : String) (columns : List (String × String))
    (options : Option String) : String :=
  "CREATE TABLE " ++ d.quoteTableName table ++ " (\n" ++
    Text.joinWith ",\n" (columns.map fun c => d.columnLine c.1 c.2) ++ "\n)" ++
    (match options with
      | some o => " " ++ o
      | none => "")

def renameTable (d : Dialect) (old new : String) : String :=
  match d with
  | .mysql | .generic _ => "RENAME TABLE " ++ d.quoteTableName old ++ " TO " ++ d.quoteTableName new
  | .postgres | .sqlite =>
    "ALTER TABLE " ++ d.quoteTableName old ++ " RENAME TO " ++ d.quoteTableName new

def dropTable (d : Dialect) (table : String) : String :=
  "DROP TABLE " ++ d.quoteTableName table

def truncateTable (d : Dialect) (table : String) : String :=
  match d with
  | .sqlite => "DELETE FROM " ++ d.quoteTableName table
  | _ => "TRUNCATE TABLE " ++ d.quoteTableName table

def alterTable (d : Dialect) (table : String) : String :=
  "ALTER TABLE " ++ d.quoteTableName table

/-! ## Columns -/

def addColumn (d : Dialect) (table column type : String) : String :=
  d.alterTable table ++ " ADD " ++ d.quoteColumnName column ++ " " ++ d.columnType type

def dropColumn (d : Dialect) (table column : String) : String :=
  d.alterTable table ++ " DROP COLUMN " ++ d.quoteColumnName column

def renameColumn (d : Dialect) (table old new : String) : String :=
  d.alterTable table ++ " RENAME COLUMN " ++ d.quoteColumnName old ++ " TO " ++
    d.quoteColumnName new

def alterColumn (d : Dialect) (table column type : String) : Result String :=
  let name := d.quoteColumnName column
  match d with
  | .postgres =>
    .ok (d.alterTable table ++ " ALTER COLUMN " ++ name ++ " TYPE " ++ d.columnType type)
  | .sqlite => .error (.unsupported .alterColumn)
  | _ => .ok (d.alterTable table ++ " CHANGE " ++ name ++ " " ++ name ++ " " ++ d.columnType type)

/-! ## Constraints and indexes -/

def addConstraint (d : Dialect) (name table definition : String) : String :=
  d.alterTable table ++ " ADD CONSTRAINT " ++ d.quoteColumnName name ++ " " ++ definition

def dropConstraint (d : Dialect) (name table : String) : String :=
  d.alterTable table ++ " DROP CONSTRAINT " ++ d.quoteColumnName name

def addPrimaryKey (d : Dialect) (name table columns : String) : String :=
  d.addConstraint name table ("PRIMARY KEY (" ++ d.quoteColumns columns ++ ")")

/-- What a foreign key does when the row it refers to goes away or changes. -/
def actionText (word : String) : Option ForeignKeyAction → String
  | some a => " ON " ++ word ++ " " ++ a.sql
  | none => ""

def addForeignKey (d : Dialect) (name table columns refTable refColumns : String)
    (onDelete onUpdate : Option ForeignKeyAction) : String :=
  d.addConstraint name table
    ("FOREIGN KEY (" ++ d.quoteColumns columns ++ ") REFERENCES " ++ d.quoteTableName refTable ++
      " (" ++ d.quoteColumns refColumns ++ ")" ++ actionText "DELETE" onDelete ++
      actionText "UPDATE" onUpdate)

def createIndex (d : Dialect) (name table columns : String) (unique : Bool) : String :=
  (if unique then "CREATE UNIQUE INDEX " else "CREATE INDEX ") ++ d.quoteTableName name ++ " ON " ++
    d.quoteTableName table ++ " (" ++ d.quoteColumns columns ++ ")"

def dropIndex (d : Dialect) (name table : String) : String :=
  match d with
  | .postgres | .sqlite => "DROP INDEX " ++ d.quoteTableName name
  | _ => "DROP INDEX " ++ d.quoteTableName name ++ " ON " ++ d.quoteTableName table

def addUnique (d : Dialect) (name table columns : String) : String :=
  d.addConstraint name table ("UNIQUE (" ++ d.quoteColumns columns ++ ")")

def addCheck (d : Dialect) (name table expression : String) : String :=
  d.addConstraint name table ("CHECK (" ++ expression ++ ")")

/-! ## Comments and views -/

def commentOnColumn (d : Dialect) (table column comment : String) : String :=
  "COMMENT ON COLUMN " ++ d.quoteTableName table ++ "." ++ d.quoteColumnName column ++ " IS " ++
    comment

def commentOnTable (d : Dialect) (table comment : String) : String :=
  "COMMENT ON TABLE " ++ d.quoteTableName table ++ " IS " ++ comment

def dropView (d : Dialect) (name : String) : String :=
  "DROP VIEW " ++ d.quoteTableName name

/-! ## Sequences and integrity checks -/

/-- The value that a sequence is set to: the given one, or the one after the largest key. -/
def sequenceValue (d : Dialect) (table : String) (primaryKey : Option String)
    (value : Option Int) : String :=
  match value, primaryKey with
  | some v, _ => Int.repr v
  | none, some key =>
    "(SELECT COALESCE(MAX(" ++ d.quoteColumnName key ++ "),0) FROM " ++ d.quoteTableName table ++
      ")+1"
  | none, none => "1"

/-- Reset the sequence that numbers the rows of a table. -/
def resetSequence (d : Dialect) (table : String) (sequence primaryKey : Option String)
    (value : Option Int) : Result String :=
  match d with
  | .mysql =>
    .ok (d.alterTable table ++ " AUTO_INCREMENT=" ++ Int.repr (value.getD 1))
  | .postgres =>
    match sequence with
    | none => .error (.invalidArgument (.noSequence table))
    | some s =>
      .ok ("SELECT SETVAL(" ++ d.quoteValue (d.quoteTableName s) ++ "," ++
        d.sequenceValue table primaryKey value ++ ",false)")
  | .sqlite =>
    let seq := match value with
      | some v => "'" ++ Int.repr (v - 1) ++ "'"
      | none => "(SELECT MAX(\x60rowid\x60) FROM " ++ d.quoteTableName table ++ ")"
    .ok ("UPDATE sqlite_sequence SET seq=" ++ seq ++ " WHERE name=" ++ d.quoteValue table)
  | .generic driver => .error (.unsupported (.resetSequence driver))

/-- Switch the checking of foreign keys on or off. -/
def checkIntegrity (d : Dialect) (check : Bool) (schema table : String) : Result String :=
  let flag := if check then "1" else "0"
  match d with
  | .mysql => .ok ("SET FOREIGN_KEY_CHECKS = " ++ flag)
  | .sqlite => .ok ("PRAGMA foreign_keys=" ++ flag)
  | .postgres =>
    let qualified := if schema = "" then table else schema ++ "." ++ table
    .ok (d.alterTable qualified ++ (if check then " ENABLE" else " DISABLE") ++ " TRIGGER ALL")
  | .generic driver => .error (.unsupported (.integrityCheck driver))

end Dialect

namespace Compiler

/-- A statement with its values written as literals. -/
def inlineParams (c : Compiler) (sql : String) (ps : Params) : Result String :=
  (ps.bindSql sql c.dialect.backslashEscapes fun p _ => c.literal p.value).map (·.1)

/-- A view over a query. -/
def createView (c : Compiler) (name : String) (q : Query) : Result String := do
  let (sql, ps) ← c.build q .empty
  let sql ← c.inlineParams sql ps
  return "CREATE VIEW " ++ c.dialect.quoteTableName name ++ " AS " ++ sql

end Compiler

end QueryKit
