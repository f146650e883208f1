import QueryKit.Json.Printer
import QueryKit.Numeric.Integer
import QueryKit.Text.Blank
import QueryKit.Text.Utf8

/-!
# Values of statements and rows

- `Value`: what a parameter binds and what a cell of a row holds.
- `ParamType`: how a driver binds a value when no type is forced.
- Views (`asInt64`, `asDouble`, `asBool`, `isBlank`): readings of a value by its meaning. Numeric
  strings count as numbers, the way drivers return them.
- `Value.toPlainString`: the text used for result keys and for number literals.
- `Value.toJson`, `Value.ofJson`: the passage to documents and back.
-/

namespace QueryKit

/-- How a driver binds a parameter. -/
inductive ParamType where
  | null
  | bool
  | int
  | str
  | lob
deriving DecidableEq, Repr

/-- A value of a statement or of a row. -/
inductive Value where
  | null
  | bool (b : Bool)
  | int32 (n : Int32)
  | int64 (n : Int64)
  | single (x : Single)
  | double (x : Double)
  | string (s : String)
  | bytes (b : List UInt8)
  | json (j : Json)
  | array (items : List Value)
deriving Inhabited

namespace Value

def isNull : Value → Bool
  | .null => true
  | _ => false

/-- The SQL name of the type of a value. -/
def typeName : Value → String
  | .null => "NULL"
  | .bool _ => "BOOLEAN"
  | .int32 _ => "INTEGER"
  | .int64 _ => "BIGINT"
  | .single _ => "REAL"
  | .double _ => "DOUBLE PRECISION"
  | .string _ => "TEXT"
  | .bytes _ => "BYTEA"
  | .json _ => "JSON"
  | .array _ => "ARRAY"

/-- How a value is bound when no type is forced. -/
def paramType : Value → ParamType
  | .null => .null
  | .bool _ => .bool
  | .int32 _ | .int64 _ => .int
  | .bytes _ => .lob
  | _ => .str

def asArray : Value → Option (List Value)
  | .array items => some items
  | _ => none

def asString : Value → Option String
  | .string s => some s
  | _ => none

/-- The integer of a value. Floating-point numbers lose their fraction and are held within range;
strings are read without the blanks around them. -/
def asInt64 : Value → Option Int64
  | .int32 n => some (.ofInt n.toInt)
  | .int64 n => some n
  | .bool b => some (if b then 1 else 0)
  | .single x => some (.ofInt x.toInt64)
  | .double x => some (.ofInt x.toInt64)
  | .string s => (Integer.read 64 (Text.trimChars s.toList)).map Int64.ofInt
  | _ => none

/-- The double of a number or of a numeric string. -/
def asDouble : Value → Option Double
  | .int32 n => some (.ofInt n.toInt)
  | .int64 n => some (.ofInt n.toInt)
  | .single x => some x.widen
  | .double x => some x
  | .string s => Decimal.read .double (Text.trim s)
  | _ => none

/-- The truth of a value: a number is true unless it is zero. -/
def asBool : Value → Option Bool
  | .bool b => some b
  | .null => none
  | v => v.asInt64.map (· != 0)

/-- Whether a value holds nothing: null, a string of blanks only, or an empty array. -/
def isBlank : Value → Bool
  | .null => true
  | .string s => s.toList.all Text.isBlank
  | .array items => items.isEmpty
  | _ => false

mutual

/-- The text of a value; the items of an array stand between commas. -/
def toPlainString : Value → String
  | .null => ""
  | .bool b => if b then "1" else "0"
  | .int32 n => Int.repr n.toInt
  | .int64 n => Int.repr n.toInt
  | .single x => x.toPlainString
  | .double x => x.toPlainString
  | .string s => s
  | .bytes b => Text.decodeLossy b
  | .json j => j.render
  | .array items => Text.joinWith "," (plainStrings items)

def plainStrings : List Value → List String
  | [] => []
  | v :: vs => toPlainString v :: plainStrings vs

end

mutual

/-- The document of a value, from which rows are decoded. -/
def toJson : Value → Json
  | .null => .null
  | .bool b => .bool b
  | .int32 n => .ofInt n.toInt
  | .int64 n => .ofInt n.toInt
  | .single x => .ofDouble x.widen
  | .double x => .ofDouble x
  | .string s => .string s
  | .bytes b => .array (b.map fun x => .ofInt x.toNat)
  | .json j => j
  | .array items => .array (itemsToJson items)

def itemsToJson : List Value → List Json
  | [] => []
  | v :: vs => toJson v :: itemsToJson vs

end

/-- The value of a number: an integer where it fits 64 bits with sign, and a double otherwise. -/
def ofJsonNumber (n : JsonNumber) : Value :=
  match n.asInt64 with
  | some i => .int64 (.ofInt i)
  | none => .double n.toDouble

mutual

/-- The value of a document; an object stays a document. -/
def ofJson : Json → Value
  | .null => .null
  | .bool b => .bool b
  | .number n => ofJsonNumber n
  | .string s => .string s
  | .array items => .array (itemsOfJson items)
  | .object members => .json (.object members)

def itemsOfJson : List Json → List Value
  | [] => []
  | j :: js => ofJson j :: itemsOfJson js

end

/-! ## Host types

The value of each host type that binds directly. An option without a value is null. -/

def ofNat32 (n : UInt32) : Value := .int64 (.ofInt n.toNat)

def ofOption {α : Type} (f : α → Value) : Option α → Value
  | none => .null
  | some a => f a

def ofList {α : Type} (f : α → Value) (items : List α) : Value :=
  .array (items.map f)

end Value

end QueryKit
