import QueryKit.Error
import QueryKit.Json.Decode
import QueryKit.Json.Parser
import QueryKit.Row

/-!
# Values and rows at rest

The text in which results are kept by a cache. Every value is written with the name of its type, so
that it is read back as what it was.

- `Value.stored`, `storedRows`: the text of a value and of the rows of a result.
- `readRows`: the rows that a text keeps. A text that keeps none is a failure of serialization.
- `Value.storedDocument`, `Value.ofStored?`: the same for a value within a document.
-/

namespace QueryKit

namespace Value

/-- A content under the name of its type. -/
def tagged (tag content : String) : String :=
  "\x7b" ++ Json.quote tag ++ ":" ++ content ++ "\x7d"

/-- Texts as the items of an array. -/
def bracketed (items : List String) : String :=
  "[" ++ Text.joinWith "," items ++ "]"

mutual

/-- The text that keeps a value. -/
def stored : Value → String
  | .null => Json.quote "Null"
  | .bool b => tagged "Bool" (Json.render (.bool b))
  | .int32 n => tagged "I32" (Int.repr n.toInt)
  | .int64 n => tagged "I64" (Int.repr n.toInt)
  | .single x => tagged "F32" x.toJsonString
  | .double x => tagged "F64" x.toJsonString
  | .string s => tagged "String" (Json.quote s)
  | .bytes b => tagged "Bytes" (bracketed (b.map fun x => Nat.repr x.toNat))
  | .json j => tagged "Json" j.render
  | .array items => tagged "Array" (bracketed (storedItems items))

def storedItems : List Value → List String
  | [] => []
  | v :: vs => stored v :: storedItems vs

end

/-- A number of a document as a number of a format. -/
def numberAs {f : BinaryFormat} : Json → Option (Binary f)
  | .number (.integer n) => some (.ofInt n)
  | .number (.double x) => some x.widen
  | _ => none

mutual

/-- The document that keeps a value. A single is written as a double here. -/
def storedDocument : Value → Json
  | .null => .string "Null"
  | .bool b => .object [("Bool", .bool b)]
  | .int32 n => .object [("I32", .ofInt n.toInt)]
  | .int64 n => .object [("I64", .ofInt n.toInt)]
  | .single x => .object [("F32", .ofDouble x.widen)]
  | .double x => .object [("F64", .ofDouble x)]
  | .string s => .object [("String", .string s)]
  | .bytes b => .object [("Bytes", .array (b.map fun x => .ofInt x.toNat))]
  | .json j => .object [("Json", j)]
  | .array items => .object [("Array", .array (storedDocuments items))]

def storedDocuments : List Value → List Json
  | [] => []
  | v :: vs => storedDocument v :: storedDocuments vs

end

/-- The value that a content keeps under the name of its type; arrays apart. -/
def ofContent? (tag : String) (content : Json) : Option Value :=
  match tag with
  | "Null" =>
    match content with
    | .null => some .null
    | _ => none
  | "Bool" => content.asBool?.map .bool
  | "I32" => (content.asInt? 32).map fun n => .int32 (.ofInt n)
  | "I64" => (content.asInt? 64).map fun n => .int64 (.ofInt n)
  | "F32" => (numberAs content).map .single
  | "F64" => (numberAs content).map .double
  | "String" => content.asString?.map .string
  | "Bytes" =>
    (Json.decodeList (Json.asNat? 8) content).map fun ns => .bytes (ns.map UInt8.ofNat)
  | "Json" => some (.json content)
  | _ => none

mutual

/-- The value that a tree keeps. It has one type, so its object has one member. -/
def ofTree? : JsonTree → Option Value
  | .string (some "Null") => some .null
  | .object [(some "Array", .array items)] => (ofTrees? items).map .array
  | .object [(some tag, content)] => content.document?.bind (ofContent? tag)
  | _ => none

def ofTrees? : List JsonTree → Option (List Value)
  | [] => some []
  | t :: ts => do
    let v ← ofTree? t
    let vs ← ofTrees? ts
    return v :: vs

end

/-- The value that a document keeps. -/
def ofStored? (j : Json) : Option Value :=
  ofTree? (.ofJson j)

end Value

namespace Row

/-- The text that keeps a cell. -/
def storedCell (c : String × Value) : String :=
  Value.bracketed [Json.quote c.1, c.2.stored]

/-- The text that keeps a row. -/
def stored (r : Row) : String :=
  Value.tagged "columns" (Value.bracketed (r.columns.map storedCell))

/-- The cell that a tree keeps. -/
def cellOfTree? : JsonTree → Option (String × Value)
  | .array [.string (some name), t] => (Value.ofTree? t).map fun v => (name, v)
  | _ => none

/-- The cells that a tree keeps. -/
def cellsOfTree? : JsonTree → Option (List (String × Value))
  | .array items => items.mapM cellOfTree?
  | _ => none

/-- The cells of a row: its one member `columns`, or the only item of a row that is written as an
array. Other members are passed over, whatever they hold. -/
def columnsTree? : JsonTree → Option JsonTree
  | .array [columns] => some columns
  | .object members =>
    if members.all fun m => m.1.isSome then
      match members.filter fun m => m.1 == some "columns" with
      | [(_, columns)] => some columns
      | _ => none
    else none
  | _ => none

/-- The row that a tree keeps. The row and the list around it count as levels of nesting. -/
def ofTree? (t : JsonTree) : Option Row := do
  let columns ← columnsTree? t
  if columns.nesting + 2 ≤ Json.nestingLimit then (cellsOfTree? columns).map Row.mk else none

end Row

/-- The text that keeps the rows of a result. -/
def storedRows (rows : List Row) : String :=
  Value.bracketed (rows.map Row.stored)

/-- The rows that a tree keeps. -/
def rowsOfTree? : JsonTree → Option (List Row)
  | .array rows => rows.mapM Row.ofTree?
  | _ => none

/-- The rows that a text keeps. -/
def readRows (text : String) : Result (List Row) :=
  match (JsonTree.parse? text).bind rowsOfTree? with
  | some rows => .ok rows
  | none => .error .serialization

end QueryKit
