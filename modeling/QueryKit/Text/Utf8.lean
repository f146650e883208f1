/-!
# Bytes as text

- `decodeLossy`: the text that bytes encode in UTF-8. Each longest run of bytes that begins a
  character without completing it, and each byte that can begin none, is read as U+FFFD.
-/

namespace QueryKit.Text

/-- What the first byte of a character promises: the bounds of the next byte and how many bytes
follow after that one. -/
def utf8Lead (b : Nat) : Option (Nat × Nat × Nat) :=
  if 0xC2 ≤ b ∧ b ≤ 0xDF then some (0x80, 0xBF, 0)
  else if b = 0xE0 then some (0xA0, 0xBF, 1)
  else if b = 0xED then some (0x80, 0x9F, 1)
  else if 0xE1 ≤ b ∧ b ≤ 0xEF then some (0x80, 0xBF, 1)
  else if b = 0xF0 then some (0x90, 0xBF, 2)
  else if 0xF1 ≤ b ∧ b ≤ 0xF3 then some (0x80, 0xBF, 2)
  else if b = 0xF4 then some (0x80, 0x8F, 2)
  else none

/-- The bits that the first byte of a character adds to its code point. -/
def utf8LeadBits (b : Nat) : Nat :=
  if b < 0xE0 then b - 0xC0 else if b < 0xF0 then b - 0xE0 else b - 0xF0

/-- What stands between two bytes: nothing, or a character of which `code` has been read, with the
bounds of the next byte and the number of bytes after it. -/
inductive Utf8State where
  | start
  | inside (code low high after : Nat)

/-- The replacement of bytes that encode no character. -/
def replacement : Char := '\ufffd'

/-- Read one byte that begins a character. -/
def utf8Start (b : Nat) : List Char × Utf8State :=
  if b < 0x80 then ([Char.ofNat b], .start)
  else
    match utf8Lead b with
    | some (low, high, after) => ([], .inside (utf8LeadBits b) low high after)
    | none => ([replacement], .start)

/-- Read one byte. -/
def utf8Step (b : Nat) : Utf8State → List Char × Utf8State
  | .start => utf8Start b
  | .inside code low high after =>
    if low ≤ b ∧ b ≤ high then
      let code := code * 64 + (b - 0x80)
      match after with
      | 0 => ([Char.ofNat code], .start)
      | after + 1 => ([], .inside code 0x80 0xBF after)
    else
      let (cs, state) := utf8Start b
      (replacement :: cs, state)

/-- Read bytes from a state to the end. -/
def utf8Run : Utf8State → List UInt8 → List Char
  | .start, [] => []
  | .inside _ _ _ _, [] => [replacement]
  | state, b :: bs =>
    let (cs, state) := utf8Step b.toNat state
    cs ++ utf8Run state bs

/-- The text that bytes encode, with what encodes no character replaced. -/
def decodeLossy (bytes : List UInt8) : String :=
  String.ofList (utf8Run .start bytes)

end QueryKit.Text
