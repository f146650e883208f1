import QueryKit.Json.Basic

/-!
# JSON texts as trees

A text can be well formed and still write no document: a string may hold half of a pair of units,
and a number may be too large for a double. A reader that passes over a part of a text does not ask
for its value, and a reader of tagged values wants to see a repeated key.

- `JsonTree`: a text as it is written, with the values of its strings and numbers where they have
  one. Objects keep all their members.
- `JsonTree.nesting`: how deep its arrays and objects are nested.
- `JsonTree.document?`: the document that a tree writes.
- `JsonTree.ofJson`: the tree of a document.
-/

namespace QueryKit

/-- A JSON text as it is written. -/
inductive JsonTree where
  | null
  | bool (b : Bool)
  /-- A number that is too large has no value. -/
  | number (n : Option JsonNumber)
  /-- A string with half of a pair of units has no value. -/
  | string (s : Option String)
  | array (items : List JsonTree)
  | object (members : List (Option String × JsonTree))
deriving Inhabited

namespace JsonTree

mutual

/-- How deep the arrays and objects of a tree are nested. -/
def nesting : JsonTree → Nat
  | .array items => itemsNesting items + 1
  | .object members => membersNesting members + 1
  | _ => 0

def itemsNesting : List JsonTree → Nat
  | [] => 0
  | t :: ts => max (nesting t) (itemsNesting ts)

def membersNesting : List (Option String × JsonTree) → Nat
  | [] => 0
  | (_, t) :: ms => max (nesting t) (membersNesting ms)

end

mutual

/-- The document that a tree writes, if every string and number of it has a value. -/
def document? : JsonTree → Option Json
  | .null => some .null
  | .bool b => some (.bool b)
  | .number n => n.map .number
  | .string s => s.map .string
  | .array items => (documents? items).map .array
  | .object members => (assignments? members).map Json.ofAssignments

def documents? : List JsonTree → Option (List Json)
  | [] => some []
  | t :: ts => do
    let j ← document? t
    let js ← documents? ts
    return j :: js

def assignments? : List (Option String × JsonTree) → Option (List (String × Json))
  | [] => some []
  | (key, t) :: ms => do
    let key ← key
    let j ← document? t
    let entries ← assignments? ms
    return (key, j) :: entries

end

mutual

/-- The tree of a document. -/
def ofJson : Json → JsonTree
  | .null => .null
  | .bool b => .bool b
  | .number n => .number (some n)
  | .string s => .string (some s)
  | .array items => .array (ofItems items)
  | .object members => .object (ofMembers members)

def ofItems : List Json → List JsonTree
  | [] => []
  | j :: js => ofJson j :: ofItems js

def ofMembers : List (String × Json) → List (Option String × JsonTree)
  | [] => []
  | (key, j) :: ms => (some key, ofJson j) :: ofMembers ms

end

end JsonTree

end QueryKit
