import QueryKit.Text.Join

/-!
# Replacement templates

- `expandTemplate`: a template with its references filled in. `$0` and `$\x7b0\x7d` stand for the text
  that is being replaced, `$$` for a dollar sign, and a reference by any other name for nothing.
-/

namespace QueryKit.Text

/-- Whether a character can stand in the name of a reference without braces. -/
def isReferenceChar (c : Char) : Bool :=
  c.isAlphanum || c == '_'

/-- What a reference stands for. Zero may be written with any number of digits. -/
def referenced (whole name : List Char) : List Char :=
  if !name.isEmpty && name.all (· == '0') then whole else []

/-- The text of the reference behind a dollar sign, and its length without the sign. -/
def readReference (whole : List Char) : List Char → Option (List Char × Nat)
  | '$' :: _ => some (['$'], 1)
  | '\x7b' :: r =>
    if r.contains '\x7d' then
      let name := r.takeWhile (· != '\x7d')
      let digits := (dropText ['+'] name).getD name
      some (referenced whole digits, name.length + 2)
    else none
  | r =>
    let name := r.takeWhile isReferenceChar
    if name.isEmpty then none else some (referenced whole name, name.length)

/-- Fill in a template from the left; `skip` characters belong to a reference already read. -/
def fillTemplate (whole : List Char) : Nat → List Char → List Char
  | _, [] => []
  | skip + 1, _ :: r => fillTemplate whole skip r
  | 0, c :: r =>
    if c = '$' then
      match readReference whole r with
      | some (text, length) => text ++ fillTemplate whole length r
      | none => c :: fillTemplate whole 0 r
    else c :: fillTemplate whole 0 r

/-- A template with its references filled in. -/
def expandTemplate (whole template : List Char) : List Char :=
  fillTemplate whole 0 template

end QueryKit.Text
