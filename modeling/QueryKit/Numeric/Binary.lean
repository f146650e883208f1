import QueryKit.Numeric.Power

/-!
# Binary floating-point numbers

- `Binary f`: the numbers of the format `f`, written as sign, significand and exponent instead of
  as packed bits, so equality of values is decidable and nothing has to be unpacked.
- `Binary.round`: the number nearest to a quotient of naturals, a half going to the even
  neighbour. Every other operation here is an exact rational result followed by `round`.
- `Binary.mul`, `Binary.div`, `Binary.widen`, `Binary.truncate`: the arithmetic the rest of the
  library needs.
-/

namespace QueryKit

/-- The widths that fix a binary interchange format. -/
structure BinaryFormat where
  /-- Significant bits, the leading one included. -/
  precision : Nat
  exponentBits : Nat
deriving DecidableEq, Repr

namespace BinaryFormat

def single : BinaryFormat := ⟨24, 8⟩

def double : BinaryFormat := ⟨53, 11⟩

/-- The largest exponent of the unit in the last place. -/
def maxExponent (f : BinaryFormat) : Int :=
  (twoPow (f.exponentBits - 1) : Int) - f.precision

/-- The smallest exponent of the unit in the last place, shared by all subnormal numbers. -/
def minExponent (f : BinaryFormat) : Int :=
  3 - (twoPow (f.exponentBits - 1) : Int) - f.precision

end BinaryFormat

/-- A number of the format `f`. A finite number is `significand * 2 ^ exponent`. -/
inductive Binary (f : BinaryFormat) where
  | nan
  | infinite (negative : Bool)
  | finite (negative : Bool) (significand : Nat) (exponent : Int)
deriving DecidableEq, Repr

abbrev Single := Binary .single

abbrev Double := Binary .double

namespace Binary

variable {f : BinaryFormat}

def zero (negative : Bool) : Binary f :=
  .finite negative 0 f.minExponent

instance : Inhabited (Binary f) := ⟨zero false⟩

/-- The quotient `num / (den * 2 ^ e)` as numerator and denominator. -/
def scaled (num den : Nat) (e : Int) : Nat × Nat :=
  if 0 ≤ e then (num, den * twoPow e.toNat) else (num * twoPow (-e).toNat, den)

/-- The integer nearest to `num / den`, a half going to the even one. -/
def nearestEven (num den : Nat) : Nat :=
  let q := num / den
  let r := num % den
  if 2 * r < den then q
  else if 2 * r = den then q + q % 2
  else q + 1

/-- The exponent of the unit in the last place for a number near `num / den`. -/
def unitExponent (f : BinaryFormat) (num den : Nat) : Int :=
  let top : Int := (num.log2 : Int) - den.log2
  let (n, d) := scaled num den top
  let top := if n < d then top - 1 else top
  max f.minExponent (top + 1 - f.precision)

/-- The number of the format nearest to `± num / den`; beyond the largest finite number it is
infinite. -/
def round (negative : Bool) (num den : Nat) : Binary f :=
  if num = 0 then zero negative
  else
    let e := unitExponent f num den
    let (n, d) := scaled num den e
    let m := nearestEven n d
    let (m, e) := if m = twoPow f.precision then (m / 2, e + 1) else (m, e)
    if f.maxExponent < e then .infinite negative else .finite negative m e

/-- The nearest number to an integer. -/
def ofInt (i : Int) : Binary f :=
  round (decide (i < 0)) i.natAbs 1

def isNegative : Binary f → Bool
  | .nan => false
  | .infinite negative => negative
  | .finite negative _ _ => negative

def isZero : Binary f → Bool
  | .finite _ m _ => m == 0
  | _ => false

def isFinite : Binary f → Bool
  | .finite _ _ _ => true
  | _ => false

def neg : Binary f → Binary f
  | .nan => .nan
  | .infinite negative => .infinite (!negative)
  | .finite negative m e => .finite (!negative) m e

/-- The product of two finite numbers, rounded once; with any other operand it is `nan`. -/
def mul : Binary f → Binary f → Binary f
  | .finite s m e, .finite s' m' e' =>
    let (n, d) := scaled (m * m') 1 (-(e + e'))
    round (s != s') n d
  | _, _ => .nan

/-- The quotient of two finite numbers, rounded once; the divisor is not zero. -/
def div : Binary f → Binary f → Binary f
  | .finite s m e, .finite s' m' e' =>
    let (n, d) := scaled m m' (-(e - e'))
    round (s != s') n d
  | _, _ => .nan

/-- The number of the format `g` nearest to a number of the format `f`. -/
def widen {g : BinaryFormat} : Binary f → Binary g
  | .nan => .nan
  | .infinite negative => .infinite negative
  | .finite negative m e =>
    let (n, d) := scaled m 1 (-e)
    round negative n d

/-- The integer part of a finite number. -/
def truncate : Binary f → Option Int
  | .finite negative m e =>
    let (n, d) := scaled m 1 (-e)
    let q : Int := (n / d : Nat)
    some (if negative then -q else q)
  | _ => none

/-- The integer part, held within the range of 64-bit integers; `nan` gives zero. -/
def toInt64 (x : Binary f) : Int :=
  match x with
  | .nan => 0
  | .infinite negative => if negative then -(twoPow 63 : Int) else twoPow 63 - 1
  | .finite negative m e =>
    let q := ((Binary.finite negative m e : Binary f).truncate).getD 0
    max (-(twoPow 63 : Int)) (min (twoPow 63 - 1) q)

end Binary

end QueryKit
