import QueryKit.Statement.Write

/-!
# Inserting or updating

- `Compiler.upsertColumns`: the columns that an insert fills, those of them that belong to a covered
  unique constraint, and the others.
- `Compiler.upsert`: an INSERT that tells what to do with a row that exists. Where the insert covers
  no unique constraint, no row can be in the way and it is a plain INSERT.
-/

namespace QueryKit

/-- What happens to a row that exists. -/
inductive UpsertUpdate where
  /-- Every inserted column outside the key takes its new value. -/
  | all
  | nothing
  | columns (pairs : List (String × Operand))

/-- The quoted columns of an upsert. -/
structure UpsertColumns where
  unique : List String
  inserted : List String
  /-- The columns to update, if they follow from the others. -/
  updated : Option (List String)

namespace Compiler

/-- The names of a list that are not in another, added at its end. -/
def addNew (names more : List String) : List String :=
  more.foldl (fun ns n => if ns.contains n then ns else ns ++ [n]) names

/-- The sets of columns without those that repeat an earlier one in any order. -/
def distinctSets : List (List String) → List (List String) → List (List String)
  | _, [] => []
  | seen, s :: ss =>
    if seen.any (·.isPerm s) then distinctSets seen ss else s :: distinctSets (seen ++ [s]) ss

/-- The quoted columns of the unique constraints that an insert covers. -/
def coveredColumns (c : Compiler) (inserted : List String) (schema : TableSchema) : List String :=
  let sets := (distinctSets [] schema.uniqueSets).map (·.map c.dialect.quoteColumnName)
  (sets.filter (·.all inserted.contains)).foldl addNew []

/-- The columns of an upsert. -/
def upsertColumns (c : Compiler) (source : InsertSource) (update : UpsertUpdate)
    (schema : Option TableSchema) : Result UpsertColumns := do
  let inserted ← match source with
    | .query q => c.insertSelectNames q
    | .values pairs => pure (pairs.map fun p => c.dialect.quoteColumnName p.1)
  let unique := (schema.map (c.coveredColumns inserted)).getD []
  let updated := match update with
    | .all => some (inserted.filter fun n => !unique.contains n)
    | _ => none
  return ⟨unique, inserted, updated⟩

/-- A column that takes the value of a fragment. -/
def assignText (name sql : String) : String × Operand :=
  (name, .expr (.text sql))

/-- The assignments after ON DUPLICATE KEY UPDATE, or nothing if the row is to be kept. With no
column to update, a key column is assigned to itself. -/
def duplicateAssignments (c : Compiler) (table : String) (update : UpsertUpdate)
    (columns : UpsertColumns) : Option (List (String × Operand)) :=
  match update, columns.updated with
  | .nothing, _ => none
  | _, some [] =>
    match columns.unique with
    | first :: _ => some [assignText first (c.dialect.quoteTableName table ++ "." ++ first)]
    | [] => none
  | _, some names => some (names.map fun n => assignText n ("VALUES(" ++ n ++ ")"))
  | .columns pairs, none => some pairs
  | .all, none => none

/-- The assignments after DO UPDATE SET. -/
def conflictAssignments (update : UpsertUpdate) (columns : UpsertColumns) :
    List (String × Operand) :=
  match update, columns.updated with
  | .nothing, _ => []
  | _, some names => names.map fun n => assignText n ("EXCLUDED." ++ n)
  | .columns pairs, none => pairs
  | .all, none => []

/-- What follows the INSERT of an upsert. -/
def conflictClause (c : Compiler) (syntax_ : UpsertSyntax) (table : String)
    (update : UpsertUpdate) (columns : UpsertColumns) (schema : Option TableSchema) :
    Compile String :=
  match syntax_ with
  | .onDuplicateKey =>
    match c.duplicateAssignments table update columns with
    | none => .pure ""
    | some pairs => do
      let sets ← c.updateSets schema pairs
      return " ON DUPLICATE KEY UPDATE " ++ Text.joinWith ", " sets
  | .onConflict =>
    match conflictAssignments update columns with
    | [] => .pure " ON CONFLICT DO NOTHING"
    | pairs => do
      let sets ← c.updateSets schema pairs
      return " ON CONFLICT (" ++ Text.joinWith ", " columns.unique ++ ") DO UPDATE SET " ++
        Text.joinWith ", " sets

/-- An INSERT that updates or keeps a row that exists. -/
def upsert (c : Compiler) (table : String) (source : InsertSource) (update : UpsertUpdate)
    (schema : Option TableSchema) : Compile String := do
  match c.dialect.upsertSyntax with
  | none => Compile.ofResult (.error (.unsupported (.upsert c.dialect.driverName)))
  | some syntax_ =>
    let columns ← Compile.ofResult (c.upsertColumns source update schema)
    let sql ← c.insert table source schema false
    if columns.unique.isEmpty then return sql
    else
      let clause ← c.conflictClause syntax_ table update columns schema
      return sql ++ clause

end Compiler

end QueryKit
