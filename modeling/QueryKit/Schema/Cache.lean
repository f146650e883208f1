import QueryKit.Schema.Basic

/-!
# Cached table schemas

- `SchemaCache`: the schemas that are known. A cache that is switched off keeps nothing, and no
  cache keeps the tables that are excluded from it.
-/

namespace QueryKit

/-- The schemas that are known under the names of their tables. -/
structure SchemaCache where
  enabled : Bool
  exclude : List String
  tables : List (String × TableSchema)

namespace SchemaCache

def empty (enabled : Bool) (exclude : List String) : SchemaCache :=
  ⟨enabled, exclude, []⟩

def get? (c : SchemaCache) (name : String) : Option TableSchema :=
  c.tables.lookup name

/-- Forget a table. -/
def refresh (c : SchemaCache) (name : String) : SchemaCache :=
  { c with tables := c.tables.filter fun t => t.1 != name }

/-- Keep a schema, unless the cache is off or the table is excluded. -/
def insert (c : SchemaCache) (name : String) (schema : TableSchema) : SchemaCache :=
  if c.enabled && !c.exclude.contains name then
    { c with tables := (name, schema) :: (c.refresh name).tables }
  else c

def clear (c : SchemaCache) : SchemaCache :=
  { c with tables := [] }

end SchemaCache

end QueryKit
