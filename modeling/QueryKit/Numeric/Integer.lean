import QueryKit.Numeric.Decimal

/-!
# Integers in text and in range

- `Integer.read`: an optional sign and at least one digit, and nothing else.
- `Integer.inRange`: the integers of a signed width.
-/

namespace QueryKit.Integer

/-- Whether `n` is a two's complement integer of `bits` bits. -/
def inRange (bits : Nat) (n : Int) : Bool :=
  decide (-(twoPow (bits - 1) : Int) ≤ n) && decide (n < twoPow (bits - 1))

/-- The integer that `s` writes, if it is one of `bits` bits. -/
def read (bits : Nat) (s : List Char) : Option Int :=
  let (negative, ds) := Decimal.splitSign s
  if ds ≠ [] ∧ ds.all Char.isDigit then
    let n : Int := (Decimal.valueOf ds : Nat)
    let n := if negative then -n else n
    if inRange bits n then some n else none
  else none

end QueryKit.Integer
