import QueryKit.Value

/-!
# Rows of a result

- `Row`: the cells of a row under their column names, in select order. A name may occur twice, as in
  a join; reading by name gives the first cell of that name.
- `Row.toJson`: the row as a document. Of cells with one name the last one is kept.
-/

namespace QueryKit

/-- A row of a result. -/
structure Row where
  columns : List (String × Value)
deriving Inhabited

namespace Row

/-- The first cell of a name. -/
def get? (r : Row) (name : String) : Option Value :=
  r.columns.lookup name

/-- The cell at a place. -/
def getAt? (r : Row) (i : Nat) : Option Value :=
  r.columns[i]?.map (·.2)

/-- The first cell, which scalar and column reads use. -/
def first? (r : Row) : Option Value :=
  r.getAt? 0

/-- The row as a document, from which structures are decoded. -/
def toJson (r : Row) : Json :=
  .ofAssignments (r.columns.map fun c => (c.1, c.2.toJson))

end Row

end QueryKit
