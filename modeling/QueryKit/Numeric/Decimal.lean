import QueryKit.Numeric.Binary

/-!
# Decimal text of binary numbers

- `Decimal.shortest`: the fewest decimal digits that read back as the number, and of those the
  nearest to it; an exact tie goes the way the caller's `Tie` says.
- `DecimalStyle`: a format's own decisions, that is which exponents are written positionally,
  whether a whole number keeps a fraction, and which way ties go. `Decimal.write` follows one.
- `Decimal.plain` and `Decimal.json`: the two styles of this library.
- `Decimal.read`: a decimal literal as the nearest number of a format.
-/

namespace QueryKit

/-- Which of two equally near decimals is written. -/
inductive Tie where
  | up
  | even
deriving DecidableEq, Repr

/-- `digits * 10 ^ exponent`. -/
structure Decimal where
  digits : Nat
  exponent : Int
deriving DecidableEq, Repr

namespace Decimal

/-- Scale `num / den` by `10 ^ (-k)`. -/
def shifted (num den : Nat) (k : Int) : Nat × Nat :=
  if 0 ≤ k then (num, den * tenPow k.toNat) else (num * tenPow (-k).toNat, den)

/-- The exponent `k` with `10 ^ k ≤ num / den < 10 ^ (k + 1)`, searched upward from a bound below
it. -/
def leadingExponent (num den : Nat) : Nat → Int → Int
  | 0, k => k
  | fuel + 1, k =>
    let (n, d) := shifted num den (k + 1)
    if d ≤ n then leadingExponent num den fuel (k + 1) else k

/-- The reals that read back as one finite number, between `low / unit` and `high / unit`. -/
structure Reach where
  low : Nat
  value : Nat
  high : Nat
  unit : Nat
  /-- Whether the two ends read back as the number. -/
  closed : Bool

/-- The reach of the finite number `m * 2 ^ e`: halfway to each neighbour. Below a power of two the
lower neighbour is half as far. -/
def reach (f : BinaryFormat) (m : Nat) (e : Int) : Reach :=
  let below := if m = twoPow (f.precision - 1) ∧ f.minExponent < e then 1 else 2
  let (scale, unit) := Binary.scaled 1 1 (2 - e)
  { low := (4 * m - below) * scale
    value := 4 * m * scale
    high := (4 * m + 2) * scale
    unit
    closed := m % 2 == 0 }

/-- Whether the decimal `d * 10 ^ k` reads back as the number. -/
def Reach.holds (r : Reach) (d : Nat) (k : Int) : Bool :=
  let (lo, u) := shifted r.low r.unit k
  let (hi, _) := shifted r.high r.unit k
  if r.closed then decide (lo ≤ d * u) && decide (d * u ≤ hi)
  else decide (lo < d * u) && decide (d * u < hi)

/-- The better of the two grid neighbours `d` and `d + 1` of the number, if one reads back. -/
def Reach.pick (r : Reach) (tie : Tie) (k : Int) : Option Nat :=
  let (v, u) := shifted r.value r.unit k
  let d := v / u
  let rem := v % u
  match r.holds d k && d != 0, r.holds (d + 1) k with
  | false, false => none
  | true, false => some d
  | false, true => some (d + 1)
  | true, true =>
    if 2 * rem < u then some d
    else if 2 * rem = u then
      match tie with
      | .up => some (d + 1)
      | .even => some (d + d % 2)
    else some (d + 1)

/-- Drop trailing zeros from the digits. -/
def trimZeros : Nat → Decimal → Decimal
  | 0, d => d
  | fuel + 1, d =>
    if d.digits ≠ 0 ∧ d.digits % 10 = 0 then
      trimZeros fuel ⟨d.digits / 10, d.exponent + 1⟩
    else d

/-- Try the grids `10 ^ k`, `10 ^ (k - 1)`, … in turn. -/
def Reach.search (r : Reach) (tie : Tie) : Nat → Int → Option Decimal
  | 0, _ => none
  | fuel + 1, k =>
    match r.pick tie k with
    | some d => some ⟨d, k⟩
    | none => r.search tie fuel (k - 1)

/-- The fewest digits that read back as `m * 2 ^ e`. Seventeen digits always do for the formats of
this library. -/
def shortest (f : BinaryFormat) (tie : Tie) (m : Nat) (e : Int) : Decimal :=
  let r := reach f m e
  let below : Int := ((r.value.log2 : Int) - r.unit.log2 - 1) * 30103 / 100000 - 1
  let top := leadingExponent r.value r.unit 8 below
  trimZeros 20 ((r.search tie 18 top).getD ⟨m, e⟩)

/-- How a text format writes numbers. -/
structure DecimalStyle where
  /-- The smallest decimal exponent written without an exponent part. -/
  plainFrom : Option Int
  /-- The first decimal exponent that is too large to be written without an exponent part. -/
  plainBelow : Option Int
  /-- Whether a whole number keeps the fraction `.0`. -/
  keepsFraction : Bool
  tie : Tie

/-- The style with no exponent part at all: `0.001`, `1`, `1000`. -/
def plain : DecimalStyle := ⟨none, none, false, .up⟩

/-- The style of JSON text: `1.0`, `0.00001`, `1e-6`, `1.5e+21`. The format decides where
positional text ends. -/
def json (f : BinaryFormat) : DecimalStyle :=
  if f = .single then ⟨some (-6), some 13, true, .even⟩ else ⟨some (-5), some 16, true, .even⟩

/-- The digits of `n` with the point after the first `k` of them. -/
def withPoint (ds : List Char) (k : Nat) : List Char :=
  match ds.drop k with
  | [] => ds.take k
  | rest => ds.take k ++ '.' :: rest

/-- Digits without an exponent part. -/
def positional (style : DecimalStyle) (d : Decimal) : List Char :=
  let ds := (Nat.repr d.digits).toList
  if 0 ≤ d.exponent then
    ds ++ List.replicate d.exponent.toNat '0' ++ (if style.keepsFraction then ['.', '0'] else [])
  else
    let places := (-d.exponent).toNat
    if places < ds.length then withPoint ds (ds.length - places)
    else '0' :: '.' :: (List.replicate (places - ds.length) '0' ++ ds)

/-- One digit, the others as a fraction, and a signed exponent. -/
def scientific (d : Decimal) (lead : Int) : List Char :=
  withPoint (Nat.repr d.digits).toList 1 ++
    'e' :: (if lead < 0 then '-' else '+') :: (Nat.repr lead.natAbs).toList

/-- The text of a positive decimal. -/
def writeDigits (style : DecimalStyle) (d : Decimal) : List Char :=
  let lead := d.exponent + (((Nat.repr d.digits).length : Nat) : Int) - 1
  let small := style.plainFrom.any (lead < ·)
  let large := style.plainBelow.any (· ≤ lead)
  if small || large then scientific d lead else positional style d

/-- The text of a finite number in a style. -/
def writeFinite (f : BinaryFormat) (style : DecimalStyle) (negative : Bool) (m : Nat) (e : Int) :
    String :=
  let sign := if negative then ['-'] else []
  let body :=
    if m = 0 then positional style ⟨0, 0⟩ else writeDigits style (shortest f style.tie m e)
  String.ofList (sign ++ body)

/-! ## Reading -/

/-- The value of a run of digits. -/
def valueOf (ds : List Char) : Nat :=
  ds.foldl (fun n c => n * 10 + (c.toNat - '0'.toNat)) 0

/-- The number nearest to `± digits * 10 ^ exponent`. Exponents far outside the format are settled
without computing the power. -/
def toBinary (f : BinaryFormat) (negative : Bool) (digits : Nat) (exponent : Int) : Binary f :=
  if digits = 0 then .zero negative
  else
    let length : Int := ((Nat.repr digits).length : Nat)
    if length + exponent < -400 then .zero negative
    else if 400 < length + exponent then .infinite negative
    else
      let (n, d) := shifted digits 1 (-exponent)
      .round negative n d

/-- An optional sign in front of a literal. -/
def splitSign : List Char → Bool × List Char
  | '-' :: r => (true, r)
  | '+' :: r => (false, r)
  | r => (false, r)

/-- The exponent part of a literal: empty, or `e` and a signed run of digits that ends the text. -/
def readExponent : List Char → Option Int
  | [] => some 0
  | c :: r =>
    if c = 'e' ∨ c = 'E' then
      let (negative, ds) := splitSign r
      if ds ≠ [] ∧ ds.all Char.isDigit then
        let n : Int := (valueOf ds : Nat)
        some (if negative then -n else n)
      else none
    else none

/-- The digits before and after the point of a literal, and what follows them. -/
def splitPoint (s : List Char) : List Char × List Char × List Char :=
  let whole := s.takeWhile Char.isDigit
  match s.dropWhile Char.isDigit with
  | '.' :: r => (whole, r.takeWhile Char.isDigit, r.dropWhile Char.isDigit)
  | r => (whole, [], r)

/-- The words for numbers that have no digits, in any letter case. -/
def readWord (f : BinaryFormat) (negative : Bool) (s : List Char) : Option (Binary f) :=
  let w := s.map Char.toLower
  if w = ['n', 'a', 'n'] then some .nan
  else if w = ['i', 'n', 'f'] ∨ w = "infinity".toList then some (.infinite negative)
  else none

/-- Read a decimal literal: a sign, digits with an optional point on either side, an exponent; or
`nan`, `inf`, `infinity`. -/
def read (f : BinaryFormat) (s : String) : Option (Binary f) :=
  let (negative, body) := splitSign s.toList
  let (whole, fraction, rest) := splitPoint body
  if whole = [] ∧ fraction = [] then readWord f negative body
  else
    (readExponent rest).map fun e =>
      toBinary f negative (valueOf (whole ++ fraction)) (e - fraction.length)

end Decimal

namespace Binary

variable {f : BinaryFormat}

/-- The plain text of a number: no exponent part, `NaN`, `inf`, `-inf`. -/
def toPlainString : Binary f → String
  | .nan => "NaN"
  | .infinite negative => if negative then "-inf" else "inf"
  | .finite negative m e => Decimal.writeFinite f Decimal.plain negative m e

/-- The text of a number in a JSON document; what JSON cannot hold is `null`. -/
def toJsonString : Binary f → String
  | .finite negative m e => Decimal.writeFinite f (Decimal.json f) negative m e
  | _ => "null"

end Binary

end QueryKit
