import QueryKit.Statement.Define

/-!
# Definitions

- `Definition`: a statement that changes the structure of a database rather than its rows.
- `Definition.sql`: its text in a dialect.
- `Definition.changes`: the table whose schema is out of date afterwards.
-/

namespace QueryKit

/-- A change of the structure of a database. -/
inductive Definition where
  | createTable (table : String) (columns : List (String × String)) (options : Option String)
  | renameTable (table newName : String)
  | dropTable (table : String)
  | truncateTable (table : String)
  | addColumn (table column type : String)
  | dropColumn (table column : String)
  | renameColumn (table column newName : String)
  | alterColumn (table column type : String)
  | addPrimaryKey (name table columns : String)
  | addForeignKey (name table columns refTable refColumns : String)
      (onDelete onUpdate : Option ForeignKeyAction)
  | addUnique (name table columns : String)
  | addCheck (name table expression : String)
  /-- Drop a key, a unique constraint or a check. -/
  | dropConstraint (name table : String)
  | createIndex (name table columns : String) (unique : Bool)
  | dropIndex (name table : String)
  /-- Set the comment of a column, or drop it. -/
  | commentColumn (table column : String) (comment : Option String)
  | commentTable (table : String) (comment : Option String)
  | createView (name : String) (q : Query)
  | dropView (name : String)
  | resetSequence (table : String) (sequence primaryKey : Option String) (value : Option Int)
  | checkIntegrity (check : Bool) (schema table : String)

namespace Definition

/-- A comment as a literal; dropping a comment sets it to NULL. -/
def commentText (d : Dialect) : Option String → String
  | some comment => d.quoteValue comment
  | none => "NULL"

/-- The statement of a definition. -/
def sql (c : Compiler) : Definition → Result String
  | createTable table columns options => .ok (c.dialect.createTable table columns options)
  | renameTable table newName => .ok (c.dialect.renameTable table newName)
  | dropTable table => .ok (c.dialect.dropTable table)
  | truncateTable table => .ok (c.dialect.truncateTable table)
  | addColumn table column type => .ok (c.dialect.addColumn table column type)
  | dropColumn table column => .ok (c.dialect.dropColumn table column)
  | renameColumn table column newName => .ok (c.dialect.renameColumn table column newName)
  | alterColumn table column type => c.dialect.alterColumn table column type
  | addPrimaryKey name table columns => .ok (c.dialect.addPrimaryKey name table columns)
  | addForeignKey name table columns refTable refColumns onDelete onUpdate =>
    .ok (c.dialect.addForeignKey name table columns refTable refColumns onDelete onUpdate)
  | addUnique name table columns => .ok (c.dialect.addUnique name table columns)
  | addCheck name table expression => .ok (c.dialect.addCheck name table expression)
  | dropConstraint name table => .ok (c.dialect.dropConstraint name table)
  | createIndex name table columns unique => .ok (c.dialect.createIndex name table columns unique)
  | dropIndex name table => .ok (c.dialect.dropIndex name table)
  | commentColumn table column comment =>
    .ok (c.dialect.commentOnColumn table column (commentText c.dialect comment))
  | commentTable table comment =>
    .ok (c.dialect.commentOnTable table (commentText c.dialect comment))
  | createView name q => c.createView name q
  | dropView name => .ok (c.dialect.dropView name)
  | resetSequence table sequence primaryKey value =>
    c.dialect.resetSequence table sequence primaryKey value
  | checkIntegrity check schema table => c.dialect.checkIntegrity check schema table

/-- The table whose schema a definition changes. -/
def changes : Definition → Option String
  | createTable table _ _ | renameTable table _ | dropTable table | addColumn table _ _
  | dropColumn table _ | renameColumn table _ _ | alterColumn table _ _
  | addPrimaryKey _ table _ | addForeignKey _ table _ _ _ _ _ | addUnique _ table _
  | addCheck _ table _ | dropConstraint _ table | createIndex _ table _ _ | dropIndex _ table
  | commentColumn table _ _ => some table
  | createView name _ | dropView name => some name
  | truncateTable _ | commentTable _ _ | resetSequence _ _ _ _ | checkIntegrity _ _ _ => none

/-- Whether the text of a definition is complete, so that no quoting token of it is expanded. -/
def isComplete : Definition → Bool
  | createView _ _ => true
  | _ => false

end Definition

end QueryKit
