import QueryKit.Query.Basic

/-!
# Table schemas

- `ColumnSchema`, `TableSchema`: what is known of a table, its columns and constraints.
- `ColumnSchema.cast`: a value on its way into a column, brought to the column's kind.
-/

namespace QueryKit

/-- The kind of values that a column holds. -/
inductive ValueKind where
  | integer
  | boolean
  | double
  | string
  | other
deriving DecidableEq, Repr

structure ColumnSchema where
  name : String
  allowNull : Bool
  /-- The abstract type. -/
  type : String
  kind : ValueKind
  dbType : String
  defaultValue : Option Value
  enumValues : List String
  size : Option Nat
  precision : Option Nat
  scale : Option Nat
  isPrimaryKey : Bool
  autoIncrement : Bool
  unsigned : Bool
  comment : String

/-- A named set of columns. -/
structure Constraint where
  name : Option String
  columns : List String

structure IndexConstraint where
  name : Option String
  columns : List String
  isUnique : Bool
  isPrimary : Bool

structure ForeignKeyConstraint where
  name : Option String
  columns : List String
  foreignSchema : Option String
  foreignTable : String
  foreignColumns : List String
  onUpdate : Option String
  onDelete : Option String

structure CheckConstraint where
  name : Option String
  columns : List String
  expression : String

structure TableConstraints where
  primaryKey : Option Constraint
  indexes : List IndexConstraint
  uniques : List Constraint
  foreignKeys : List ForeignKeyConstraint
  checks : List CheckConstraint

structure TableSchema where
  schemaName : Option String
  name : String
  fullName : String
  primaryKey : List String
  sequenceName : Option String
  foreignKeys : List ForeignKeyConstraint
  /-- The columns in table order. -/
  columns : List ColumnSchema
  constraints : TableConstraints

namespace ColumnSchema

/-- A column of which nothing is known. -/
def unknown : ColumnSchema where
  name := ""
  allowNull := false
  type := ""
  kind := .string
  dbType := ""
  defaultValue := none
  enumValues := []
  size := none
  precision := none
  scale := none
  isPrimaryKey := false
  autoIncrement := false
  unsigned := false
  comment := ""

/-- Whether the empty string is a value of the column and not a missing one. -/
def keepsEmpty (c : ColumnSchema) : Bool :=
  c.type == "text" || c.type == "string" || c.type == "binary" || c.type == "char"

/-- Whether a string stands for true. -/
def truth (s : String) : Bool :=
  !(s == "" || s == "0" || s == "\x00")

/-- A value that is not null, brought to a kind. -/
def castValue (c : ColumnSchema) (v : Value) : Result Value :=
  match c.kind, v with
  | _, .null => .ok .null
  | .string, .string s => .ok (.string s)
  | .string, .array _ | .string, .json _ => .error (.invalidArgument (.noStringForm c.name))
  | .string, .bytes b => .ok (.bytes b)
  | .string, v => .ok (.string v.toPlainString)
  | .integer, .int32 n => .ok (.int32 n)
  | .integer, .int64 n => .ok (.int64 n)
  | .integer, v => .ok (.int64 (v.asInt64.getD 0))
  | .boolean, .string s => .ok (.bool (truth s))
  | .boolean, v => .ok (.bool (v.asBool.getD false))
  | .double, .single x => .ok (.single x)
  | .double, .double x => .ok (.double x)
  | .double, v => .ok (.double (v.asDouble.getD (.zero false)))
  | .other, v => .ok v

/-- An operand on its way into the column. Only values change; an empty string is null where the
column has no use for it. -/
def cast (c : ColumnSchema) : Operand → Result Operand
  | .value (.string s) =>
    if s = "" ∧ !c.keepsEmpty then .ok (.value .null)
    else (c.castValue (.string s)).map .value
  | .value v => (c.castValue v).map .value
  | o => .ok o

end ColumnSchema

namespace TableConstraints

def empty : TableConstraints := ⟨none, [], [], [], []⟩

end TableConstraints

namespace TableSchema

/-- A table of which only the name is known. -/
def ofName (name : String) : TableSchema where
  schemaName := none
  name
  fullName := name
  primaryKey := []
  sequenceName := none
  foreignKeys := []
  columns := []
  constraints := .empty

/-- Add a column; a primary key column is noted as such. -/
def withColumn (t : TableSchema) (c : ColumnSchema) : TableSchema :=
  { t with
    columns := t.columns ++ [c]
    primaryKey := if c.isPrimaryKey then t.primaryKey ++ [c.name] else t.primaryKey }

/-- The column of a name. -/
def column? (t : TableSchema) (name : String) : Option ColumnSchema :=
  t.columns.find? (·.name == name)

def columnNames (t : TableSchema) : List String :=
  t.columns.map (·.name)

/-- The columns of every constraint that keeps rows apart: the primary key, the unique indexes and
the unique constraints. -/
def uniqueSets (t : TableSchema) : List (List String) :=
  (match t.constraints.primaryKey with
    | some c => [c.columns]
    | none => if t.primaryKey.isEmpty then [] else [t.primaryKey]) ++
  ((t.constraints.indexes.filter (·.isUnique)).map (·.columns)) ++
  t.constraints.uniques.map (·.columns)

end TableSchema

end QueryKit
