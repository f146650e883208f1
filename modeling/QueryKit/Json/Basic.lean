import QueryKit.Numeric.Decimal

/-!
# JSON documents

- `Json`: a document. Objects keep their members in the order in which their keys were first
  written, and no key occurs twice.
- `JsonNumber`: integers that fit 64 bits, signed or unsigned, are exact; every other number is a
  double.
- `Json.insertMember`: a repeated key replaces the value and keeps its place.
-/

namespace QueryKit

/-- A number of a JSON document. -/
inductive JsonNumber where
  | integer (n : Int)
  | double (x : Double)
deriving DecidableEq, Repr

/-- A JSON document. -/
inductive Json where
  | null
  | bool (b : Bool)
  | number (n : JsonNumber)
  | string (s : String)
  | array (items : List Json)
  | object (members : List (String × Json))
deriving Inhabited

namespace JsonNumber

/-- The integer of a number that is a 64-bit signed integer. -/
def asInt64 : JsonNumber → Option Int
  | .integer n => if n < twoPow 63 then some n else none
  | .double _ => none

/-- The natural number of a number that is a 64-bit unsigned integer. -/
def asNat64 : JsonNumber → Option Nat
  | .integer n => if 0 ≤ n then some n.toNat else none
  | .double _ => none

def toDouble : JsonNumber → Double
  | .integer n => .ofInt n
  | .double x => x

end JsonNumber

namespace Json

/-- Set a member: a new key goes to the end, a known key keeps its place. -/
def insertMember (key : String) (value : Json) : List (String × Json) → List (String × Json)
  | [] => [(key, value)]
  | (k, v) :: r => if k = key then (k, value) :: r else (k, v) :: insertMember key value r

/-- The members written by a list of assignments. -/
def ofAssignments (entries : List (String × Json)) : Json :=
  .object (entries.foldl (fun ms e => insertMember e.1 e.2 ms) [])

/-- The member of an object under a key. -/
def get? (key : String) : Json → Option Json
  | .object members => members.lookup key
  | _ => none

def ofInt (n : Int) : Json :=
  .number (.integer n)

/-- A double as a document; what JSON cannot hold is `null`. -/
def ofDouble (x : Double) : Json :=
  if x.isFinite then .number (.double x) else .null

def asString? : Json → Option String
  | .string s => some s
  | _ => none

def asBool? : Json → Option Bool
  | .bool b => some b
  | _ => none

def asInt64? : Json → Option Int
  | .number n => n.asInt64
  | _ => none

def asNat64? : Json → Option Nat
  | .number n => n.asNat64
  | _ => none

end Json

end QueryKit
