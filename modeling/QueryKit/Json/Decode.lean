import QueryKit.Json.Basic
import QueryKit.Numeric.Integer

/-!
# Reading structures from documents

- `Json.asRecord?`: a structure written as an object, or as an array of its members in their order.
- `Json.field`: a member of an object, or its default where the member is missing.
- `Json.decodeList`, `Json.decodeOption`: lists, and values that may be null.
-/

namespace QueryKit.Json

variable {α : Type}

/-- A structure with the given members as an object. An array gives the members in their order and
may leave out the last ones. -/
def asRecord? (names : List String) : Json → Option Json
  | .object members => some (.object members)
  | .array items => if items.length ≤ names.length then some (.object (names.zip items)) else none
  | _ => none

/-- Decode the member of an object; a missing member has its default. -/
def field (j : Json) (key : String) (decode : Json → Option α) (default : α) : Option α :=
  match j.get? key with
  | some m => decode m
  | none => some default

/-- Decode a member that must be there. -/
def required (j : Json) (key : String) (decode : Json → Option α) : Option α :=
  (j.get? key).bind decode

/-- Decode the items of an array. -/
def decodeList (decode : Json → Option α) : Json → Option (List α)
  | .array items => items.mapM decode
  | _ => none

/-- Decode a value that may be null. -/
def decodeOption (decode : Json → Option α) : Json → Option (Option α)
  | .null => some none
  | j => (decode j).map some

/-- A natural number of at most `bits` bits. -/
def asNat? (bits : Nat) (j : Json) : Option Nat :=
  j.asNat64?.filter (· < twoPow bits)

/-- An integer of `bits` bits with sign. -/
def asInt? (bits : Nat) : Json → Option Int
  | .number (.integer n) =>
    if Integer.inRange bits n then some n else none
  | _ => none

/-- A value that may be missing, as a document. -/
def ofOption (f : α → Json) : Option α → Json
  | some a => f a
  | none => .null

def ofStrings (ss : List String) : Json :=
  .array (ss.map .string)

def ofNat (n : Nat) : Json :=
  .ofInt n

end QueryKit.Json
