/-!
# Joining, cutting and replacing

- `joinWith`: texts with a separator between them.
- `cutAt`: the pieces of a text between the occurrences of a character; there is always one more
  piece than there are occurrences.
- `replaceChar`: a text with every occurrence of a character replaced.
- `dropText`, `dropTextEnd`, `hasText`: a text at the start, at the end or anywhere in another.
-/

namespace QueryKit.Text

/-- The texts with a separator between each two of them. -/
def joinWith (separator : String) : List String → String
  | [] => ""
  | [s] => s
  | s :: t :: r => s ++ separator ++ joinWith separator (t :: r)

/-- The pieces of a text between the occurrences of a character. -/
def cutAt (c : Char) : List Char → List (List Char)
  | [] => [[]]
  | d :: r =>
    if d = c then [] :: cutAt c r
    else
      match cutAt c r with
      | [] => [[d]]
      | piece :: pieces => (d :: piece) :: pieces

/-- The text with every `c` replaced by `by_`. -/
def replaceChar (c : Char) (by_ : List Char) (s : List Char) : List Char :=
  s.flatMap fun d => if d = c then by_ else [d]

/-- The rest of a text after the given start. -/
def dropText : List Char → List Char → Option (List Char)
  | [], s => some s
  | _ :: _, [] => none
  | p :: ps, c :: s => if p = c then dropText ps s else none

/-- A text without the given end. -/
def dropTextEnd (e s : List Char) : Option (List Char) :=
  (dropText e.reverse s.reverse).map List.reverse

/-- Whether a text occurs in another. -/
def hasText (t : List Char) : List Char → Bool
  | [] => t.isEmpty
  | c :: s => (dropText t (c :: s)).isSome || hasText t s

/-- Whether a character occurs in a text. -/
def hasChar (c : Char) (s : String) : Bool :=
  s.toList.contains c

/-- The part of a text before the last occurrence of a character, and the part after it. -/
def splitLast (c : Char) : List Char → Option (List Char × List Char)
  | [] => none
  | d :: r =>
    match splitLast c r with
    | some (before, after) => some (d :: before, after)
    | none => if d = c then some ([], r) else none

/-- The part of a text before the first occurrence of a character, and the part after it. -/
def splitFirst (c : Char) : List Char → Option (List Char × List Char)
  | [] => none
  | d :: r =>
    if d = c then some ([], r)
    else (splitFirst c r).map fun (before, after) => (d :: before, after)

/-- The part of a text before the first occurrence of another text, and the part after it. -/
def splitText (t : List Char) : List Char → Option (List Char × List Char)
  | [] => if t.isEmpty then some ([], []) else none
  | d :: r =>
    match dropText t (d :: r) with
    | some after => some ([], after)
    | none => (splitText t r).map fun (before, after) => (d :: before, after)

end QueryKit.Text
