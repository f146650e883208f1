import QueryKit.Session.Links

/-!
# Schemas of tables

- `Client.tableSchema`: the schema of a table, from the cache or from the server.
- `Client.refreshTableSchema`: forgets a table, because its definition changes.
-/

namespace QueryKit.Client

variable {σ : Type} (c : Client σ)

/-- The name of a table without quotes, tokens expanded. -/
def bareTableName (name : String) : String :=
  String.ofList ((c.connection.quoteSql name).toList.filter fun ch => ch ≠ '\x60' ∧ ch ≠ '"')

/-- The schema of a table, if there is such a table. -/
def tableSchema (name : String) : Run σ (Option TableSchema) := do
  let bare := c.bareTableName name
  match (← Run.state).schemas.get? bare with
  | some schema => return some schema
  | none =>
    let link ← c.mainLink
    let loaded ← Run.ask (c.backend.tableSchema link bare)
    c.release false
    if let some schema := loaded then
      Run.modify fun w => { w with schemas := w.schemas.insert bare schema }
    return loaded

/-- Forget the schema of a table. -/
def refreshTableSchema (name : String) : Run σ Unit :=
  Run.modify fun w => { w with schemas := w.schemas.refresh (c.bareTableName name) }

end QueryKit.Client
