import QueryKit.Json.Tree

/-!
# Reading JSON text

- `JsonTree.parse?`: the tree of a well-formed text.
- `Json.parse?`: the document that a text writes, or nothing if it writes none. Documents nest to a
  depth of 127.
- `Json.readNumber`: the number grammar. Integers that fit 64 bits are exact. Any other number is
  the integer of its digits, as far as they fit 64 bits, times a power of ten, in double arithmetic
  with one rounding for the digits and one for the power.
- `Json.joinPieces`: the characters of a string. One beyond the basic plane may be written as a pair
  of units.
-/

namespace QueryKit

namespace Json

def isSpace (c : Char) : Bool :=
  c == ' ' || c == '\n' || c == '\t' || c == '\r'

def skipSpace (s : List Char) : List Char :=
  s.dropWhile isSpace

/-! ## Numbers -/

/-- Digits gathered into 64 bits: the value of the leading ones, and how many digits did not fit. -/
structure Significand where
  value : Nat
  /-- Digits before the point that were left out. -/
  dropped : Nat
  /-- Digits after the point that were used. -/
  used : Nat
  full : Bool

/-- Use one more digit, unless it does not fit 64 bits. -/
def Significand.push (inFraction : Bool) (s : Significand) (c : Char) : Significand :=
  let value := s.value * 10 + (c.toNat - '0'.toNat)
  if s.full || decide (twoPow 64 ≤ value) then
    { s with full := true, dropped := if inFraction then s.dropped else s.dropped + 1 }
  else { s with value, used := if inFraction then s.used + 1 else s.used }

/-- The power of ten `10 ^ k` as a double, for `k` up to 308. -/
def powerOfTen (k : Nat) : Double :=
  .round false (tenPow k) 1

/-- `x * 10 ^ e`, at most one rounding per factor of `10 ^ 308`; nothing if it is too large. -/
def scaleByTen (x : Double) (e : Int) : Option Double :=
  if e.natAbs ≤ 308 then
    if 0 ≤ e then
      let y := x.mul (powerOfTen e.toNat)
      if y.isFinite then some y else none
    else some (x.div (powerOfTen e.natAbs))
  else if x.isZero then some x
  else if h : 0 ≤ e then none
  else scaleByTen (x.div (powerOfTen 308)) (e + 308)
termination_by (-e).toNat
decreasing_by omega

/-- The longest run of digits at the start of a text, and the rest. -/
def spanDigits (s : List Char) : List Char × List Char :=
  (s.takeWhile Char.isDigit, s.dropWhile Char.isDigit)

/-- The largest exponent that is read digit by digit. -/
def exponentLimit : Int := twoPow 31 - 1

/-- An exponent part after its letter: the exponent and the rest of the text. -/
def readExponentPart (s : List Char) : Option (Int × List Char) :=
  let (negative, s) := Decimal.splitSign s
  match spanDigits s with
  | ([], _) => none
  | (ds, r) =>
    let e : Int := (Decimal.valueOf ds : Nat)
    some (if negative then -e else e, r)

/-- The double written by a sign, digits and a decimal exponent. An exponent beyond the limit makes
the number zero or too large. -/
def makeDouble (negative : Bool) (sig : Significand) (written : Int) : Option Double :=
  let base : Int := (sig.dropped : Int) - sig.used
  let e := max (-exponentLimit - 1) (min exponentLimit (base + written))
  let x : Option Double :=
    if exponentLimit < written.natAbs then
      if 0 < written ∧ sig.value ≠ 0 then none else some (.zero false)
    else scaleByTen (.ofInt sig.value) e
  x.map fun x => if negative then x.neg else x

/-- What follows the digits of a number that is a double: its exponent, if it has one. -/
def readDouble (negative : Bool) (sig : Significand) (s : List Char) :
    Option (Option JsonNumber × List Char) :=
  let finish (e : Int) (r : List Char) := ((makeDouble negative sig e).map JsonNumber.double, r)
  match s with
  | [] => some (finish 0 [])
  | c :: r =>
    if c = 'e' ∨ c = 'E' then (readExponentPart r).map fun (e, r) => finish e r
    else some (finish 0 (c :: r))

/-- A number at the start of a text, after its sign, with its value unless it is too large. -/
def readNumber (negative : Bool) (s : List Char) : Option (Option JsonNumber × List Char) :=
  match spanDigits s with
  | ([], _) => none
  | ('0' :: _ :: _, _) => none
  | (whole, r) =>
    let sig := whole.foldl (Significand.push false) ⟨0, 0, 0, false⟩
    match r with
    | '.' :: r' =>
      match spanDigits r' with
      | ([], _) => none
      | (fraction, r'') =>
        readDouble negative (fraction.foldl (Significand.push true) { sig with full := false }) r''
    | _ =>
      if sig.full || r.head?.any fun c => c == 'e' || c == 'E' then readDouble negative sig r
      else if !negative then some (some (.integer sig.value), r)
      else if sig.value = 0 ∨ twoPow 63 < sig.value then
        some (some (.double ((Binary.ofInt sig.value : Double).neg)), r)
      else some (some (.integer (-sig.value)), r)

/-! ## Strings -/

def hexValue (c : Char) : Option Nat :=
  if c.isDigit then some (c.toNat - '0'.toNat)
  else if 'a' ≤ c ∧ c ≤ 'f' then some (c.toNat - 'a'.toNat + 10)
  else if 'A' ≤ c ∧ c ≤ 'F' then some (c.toNat - 'A'.toNat + 10)
  else none

/-- Four hexadecimal digits at the start of a text. -/
def readHex4 : List Char → Option (Nat × List Char)
  | a :: b :: c :: d :: r => do
    let a ← hexValue a
    let b ← hexValue b
    let c ← hexValue c
    let d ← hexValue d
    return (((a * 16 + b) * 16 + c) * 16 + d, r)
  | _ => none

/-- A piece of a string: a character, or the 16-bit unit of a numeric escape. -/
inductive StringPiece where
  | char (c : Char)
  | unit (n : Nat)
deriving DecidableEq, Repr

/-- The piece of an escape, after its backslash. -/
def readEscape : List Char → Option (StringPiece × List Char)
  | '"' :: r => some (.char '"', r)
  | '\\' :: r => some (.char '\\', r)
  | '/' :: r => some (.char '/', r)
  | 'b' :: r => some (.char '\x08', r)
  | 'f' :: r => some (.char '\x0c', r)
  | 'n' :: r => some (.char '\n', r)
  | 'r' :: r => some (.char '\r', r)
  | 't' :: r => some (.char '\t', r)
  | 'u' :: r => (readHex4 r).map fun (n, r) => (.unit n, r)
  | _ => none

/-- The pieces of a string after its opening quote, and what follows its closing quote. -/
def readPieces : Nat → List Char → Option (List StringPiece × List Char)
  | 0, _ => none
  | _ + 1, [] => none
  | fuel + 1, c :: r =>
    if c = '"' then some ([], r)
    else if c = '\\' then do
      let (piece, r) ← readEscape r
      let (pieces, r) ← readPieces fuel r
      return (piece :: pieces, r)
    else if c.toNat < 0x20 then none
    else do
      let (pieces, r) ← readPieces fuel r
      return (.char c :: pieces, r)

/-- Whether a unit is the first of a pair. -/
def isHighUnit (n : Nat) : Bool :=
  decide (0xD800 ≤ n) && decide (n < 0xDC00)

/-- Whether a unit is the second of a pair. -/
def isLowUnit (n : Nat) : Bool :=
  decide (0xDC00 ≤ n) && decide (n < 0xE000)

/-- The characters of a string. A unit without the other one of its pair writes no character. -/
def joinPieces : List StringPiece → Option (List Char)
  | [] => some []
  | .char c :: ps => (joinPieces ps).map (c :: ·)
  | .unit hi :: ps =>
    if isHighUnit hi then
      match ps with
      | .unit lo :: ps =>
        if isLowUnit lo then
          let c := Char.ofNat (0x10000 + (hi - 0xD800) * 0x400 + (lo - 0xDC00))
          (joinPieces ps).map (c :: ·)
        else none
      | _ => none
    else if isLowUnit hi then none
    else (joinPieces ps).map (Char.ofNat hi :: ·)

/-- The rest of a string after its opening quote, with its value if it has one, and what follows its
closing quote. -/
def readString (s : List Char) : Option (Option String × List Char) :=
  (readPieces (s.length + 1) s).map fun (pieces, r) => ((joinPieces pieces).map String.ofList, r)

/-! ## Documents -/

mutual

/-- A tree at the start of a text. `fuel` bounds the steps; twice the length of the text is
enough. -/
def readTree : Nat → List Char → Option (JsonTree × List Char)
  | 0, _ => none
  | fuel + 1, s =>
    match skipSpace s with
    | 'n' :: 'u' :: 'l' :: 'l' :: r => some (.null, r)
    | 't' :: 'r' :: 'u' :: 'e' :: r => some (.bool true, r)
    | 'f' :: 'a' :: 'l' :: 's' :: 'e' :: r => some (.bool false, r)
    | '"' :: r => (readString r).map fun (s, r) => (.string s, r)
    | '-' :: r => (readNumber true r).map fun (n, r) => (.number n, r)
    | '[' :: r =>
      match skipSpace r with
      | ']' :: r => some (.array [], r)
      | r => (readItems fuel r).map fun (ts, r) => (.array ts, r)
    | '\x7b' :: r =>
      match skipSpace r with
      | '\x7d' :: r => some (.object [], r)
      | r => (readMembers fuel r).map fun (ms, r) => (.object ms, r)
    | r => (readNumber false r).map fun (n, r) => (.number n, r)

/-- The items of an array up to its closing bracket. -/
def readItems : Nat → List Char → Option (List JsonTree × List Char)
  | 0, _ => none
  | fuel + 1, s => do
    let (t, r) ← readTree fuel s
    match skipSpace r with
    | ']' :: r => return ([t], r)
    | ',' :: r =>
      let (ts, r) ← readItems fuel r
      return (t :: ts, r)
    | _ => none

/-- The members of an object up to its closing brace. -/
def readMembers : Nat → List Char → Option (List (Option String × JsonTree) × List Char)
  | 0, _ => none
  | fuel + 1, s =>
    match skipSpace s with
    | '"' :: r => do
      let (key, r) ← readString r
      match skipSpace r with
      | ':' :: r =>
        let (t, r) ← readTree fuel r
        match skipSpace r with
        | '\x7d' :: r => return ([(key, t)], r)
        | ',' :: r =>
          let (ms, r) ← readMembers fuel r
          return ((key, t) :: ms, r)
        | _ => none
      | _ => none
    | _ => none

end

/-- The deepest nesting of what is read of a text. -/
def nestingLimit : Nat := 127

end Json

/-- The tree of a well-formed text. -/
def JsonTree.parse? (s : String) : Option JsonTree := do
  let (t, r) ← Json.readTree (2 * s.length + 2) s.toList
  if Json.skipSpace r = [] then some t else none

/-- The document that a text writes. -/
def Json.parse? (s : String) : Option Json := do
  let t ← JsonTree.parse? s
  if t.nesting ≤ Json.nestingLimit then t.document? else none

end QueryKit
