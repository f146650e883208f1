import QueryKit.Json.Decode
import QueryKit.Schema.Basic
import QueryKit.Value.Stored

/-!
# Table schemas as documents

- `TableSchema.ofJson?`: the schema that a document describes. Every member may be missing, and any
  part may be an array of its members in their order.
- `TableSchema.toJson`: a schema with all its members.
-/

namespace QueryKit

open Json (ofStrings ofOption ofNat)

def strings? : Json → Option (List String) :=
  Json.decodeList Json.asString?

def optionalString? : Json → Option (Option String) :=
  Json.decodeOption Json.asString?

namespace ValueKind

def name : ValueKind → String
  | integer => "integer"
  | boolean => "boolean"
  | double => "double"
  | string => "string"
  | other => "other"

/-- The kind of a name, which may also be the only key of an object over null. -/
def ofJson? (j : Json) : Option ValueKind :=
  let name := match j with
    | .object [(key, .null)] => some key
    | j => j.asString?
  [integer, boolean, double, string, other].find? fun k => name == some k.name

end ValueKind

namespace ColumnSchema

/-- The members of the document in their order. -/
def names : List String :=
  ["name", "allow_null", "type", "kind", "db_type", "default_value", "enum_values", "size",
    "precision", "scale", "is_primary_key", "auto_increment", "unsigned", "comment"]

def ofJson? (j : Json) : Option ColumnSchema := do
  let j ← j.asRecord? names
  let size? := Json.decodeOption (Json.asNat? 32)
  return {
    name := ← j.field "name" Json.asString? ""
    allowNull := ← j.field "allow_null" Json.asBool? false
    type := ← j.field "type" Json.asString? ""
    kind := ← j.field "kind" ValueKind.ofJson? .string
    dbType := ← j.field "db_type" Json.asString? ""
    defaultValue := ← j.field "default_value" (Json.decodeOption Value.ofStored?) none
    enumValues := ← j.field "enum_values" strings? []
    size := ← j.field "size" size? none
    precision := ← j.field "precision" size? none
    scale := ← j.field "scale" size? none
    isPrimaryKey := ← j.field "is_primary_key" Json.asBool? false
    autoIncrement := ← j.field "auto_increment" Json.asBool? false
    unsigned := ← j.field "unsigned" Json.asBool? false
    comment := ← j.field "comment" Json.asString? "" }

def toJson (c : ColumnSchema) : Json :=
  .object (names.zip
    [.string c.name, .bool c.allowNull, .string c.type, .string c.kind.name, .string c.dbType,
      ofOption Value.storedDocument c.defaultValue, ofStrings c.enumValues,
      ofOption ofNat c.size, ofOption ofNat c.precision, ofOption ofNat c.scale,
      .bool c.isPrimaryKey, .bool c.autoIncrement, .bool c.unsigned, .string c.comment])

end ColumnSchema

namespace Constraint

/-- The members of the document in their order. -/
def names : List String :=
  ["name", "column_names"]

def ofJson? (j : Json) : Option Constraint := do
  let j ← j.asRecord? names
  return {
    name := ← j.field "name" optionalString? none
    columns := ← j.field "column_names" strings? [] }

def toJson (c : Constraint) : Json :=
  .object (names.zip
    [ofOption .string c.name, ofStrings c.columns])

end Constraint

namespace IndexConstraint

/-- The members of the document in their order. -/
def names : List String :=
  ["name", "column_names", "is_unique", "is_primary"]

def ofJson? (j : Json) : Option IndexConstraint := do
  let j ← j.asRecord? names
  return {
    name := ← j.field "name" optionalString? none
    columns := ← j.field "column_names" strings? []
    isUnique := ← j.field "is_unique" Json.asBool? false
    isPrimary := ← j.field "is_primary" Json.asBool? false }

def toJson (c : IndexConstraint) : Json :=
  .object (names.zip
    [ofOption .string c.name, ofStrings c.columns, .bool c.isUnique, .bool c.isPrimary])

end IndexConstraint

namespace ForeignKeyConstraint

/-- The members of the document in their order. -/
def names : List String :=
  ["name", "column_names", "foreign_schema_name", "foreign_table_name", "foreign_column_names",
    "on_update", "on_delete"]

def ofJson? (j : Json) : Option ForeignKeyConstraint := do
  let j ← j.asRecord? names
  return {
    name := ← j.field "name" optionalString? none
    columns := ← j.field "column_names" strings? []
    foreignSchema := ← j.field "foreign_schema_name" optionalString? none
    foreignTable := ← j.field "foreign_table_name" Json.asString? ""
    foreignColumns := ← j.field "foreign_column_names" strings? []
    onUpdate := ← j.field "on_update" optionalString? none
    onDelete := ← j.field "on_delete" optionalString? none }

def toJson (c : ForeignKeyConstraint) : Json :=
  .object (names.zip
    [ofOption .string c.name, ofStrings c.columns, ofOption .string c.foreignSchema,
      .string c.foreignTable, ofStrings c.foreignColumns, ofOption .string c.onUpdate,
      ofOption .string c.onDelete])

end ForeignKeyConstraint

namespace CheckConstraint

/-- The members of the document in their order. -/
def names : List String :=
  ["name", "column_names", "expression"]

def ofJson? (j : Json) : Option CheckConstraint := do
  let j ← j.asRecord? names
  return {
    name := ← j.field "name" optionalString? none
    columns := ← j.field "column_names" strings? []
    expression := ← j.field "expression" Json.asString? "" }

def toJson (c : CheckConstraint) : Json :=
  .object (names.zip
    [ofOption .string c.name, ofStrings c.columns, .string c.expression])

end CheckConstraint

namespace TableConstraints

/-- The members of the document in their order. -/
def names : List String :=
  ["primary_key", "indexes", "uniques", "foreign_keys", "checks"]

def ofJson? (j : Json) : Option TableConstraints := do
  let j ← j.asRecord? names
  return {
    primaryKey := ← j.field "primary_key" (Json.decodeOption Constraint.ofJson?) none
    indexes := ← j.field "indexes" (Json.decodeList IndexConstraint.ofJson?) []
    uniques := ← j.field "uniques" (Json.decodeList Constraint.ofJson?) []
    foreignKeys := ← j.field "foreign_keys" (Json.decodeList ForeignKeyConstraint.ofJson?) []
    checks := ← j.field "checks" (Json.decodeList CheckConstraint.ofJson?) [] }

def toJson (c : TableConstraints) : Json :=
  .object (names.zip
    [ofOption Constraint.toJson c.primaryKey, .array (c.indexes.map IndexConstraint.toJson),
      .array (c.uniques.map Constraint.toJson),
      .array (c.foreignKeys.map ForeignKeyConstraint.toJson),
      .array (c.checks.map CheckConstraint.toJson)])

end TableConstraints

namespace TableSchema

/-- The members of the document in their order. -/
def names : List String :=
  ["schema_name", "name", "full_name", "primary_key", "sequence_name", "foreign_keys", "columns",
    "constraints"]

def ofJson? (j : Json) : Option TableSchema := do
  let j ← j.asRecord? names
  return {
    schemaName := ← j.field "schema_name" optionalString? none
    name := ← j.field "name" Json.asString? ""
    fullName := ← j.field "full_name" Json.asString? ""
    primaryKey := ← j.field "primary_key" strings? []
    sequenceName := ← j.field "sequence_name" optionalString? none
    foreignKeys := ← j.field "foreign_keys" (Json.decodeList ForeignKeyConstraint.ofJson?) []
    columns := ← j.field "columns" (Json.decodeList ColumnSchema.ofJson?) []
    constraints := ← j.field "constraints" TableConstraints.ofJson? .empty }

def toJson (t : TableSchema) : Json :=
  .object (names.zip
    [ofOption .string t.schemaName, .string t.name, .string t.fullName, ofStrings t.primaryKey,
      ofOption .string t.sequenceName, .array (t.foreignKeys.map ForeignKeyConstraint.toJson),
      .array (t.columns.map ColumnSchema.toJson), t.constraints.toJson])

end TableSchema

end QueryKit
