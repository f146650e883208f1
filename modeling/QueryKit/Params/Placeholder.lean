import QueryKit.Params

/-!
# Placeholders in statement text

- `Scan.State`, `Scan.step`: reading a statement one character at a time, outside and inside quoted
  parts. A quoted part ends at its quote unless the quote is doubled; a backslash protects the next
  character where the dialect says so.
- `Scan.pieces`: the text as characters to be kept, `?` placeholders and `:name` placeholders. A
  double colon is kept.
- `Params.bindSql`: the text with a value's own form in the place of each placeholder, and the values
  in the order of their places. A name that is not bound stays as it is; a `?` without a value is a
  fault.
-/

namespace QueryKit

namespace Scan

/-- A part of a statement text. -/
inductive Piece where
  | verbatim (c : Char)
  | positional
  | named (name : List Char)
deriving DecidableEq, Repr

/-- Where a reader of statement text stands. -/
inductive State where
  /-- Outside quotes. -/
  | plain
  /-- Inside a part in the given quotes. -/
  | quoted (quote : Char)
  /-- Inside, after a backslash. -/
  | escaped (quote : Char)
  /-- After a quote that ends the part unless it is doubled. -/
  | closing (quote : Char)
  /-- After a colon outside quotes. -/
  | colon
  /-- Inside the name of a placeholder. -/
  | name (read : List Char)
deriving DecidableEq, Repr

/-- Whether a character opens a quoted part. -/
def isQuote (c : Char) : Bool :=
  c == '\'' || c == '"' || c == '\x60'

/-- Whether a character can begin the name of a placeholder. -/
def isNameStart (c : Char) : Bool :=
  c.isAlpha || c == '_'

/-- Whether a character can continue the name of a placeholder. -/
def isNameChar (c : Char) : Bool :=
  c.isAlphanum || c == '_'

/-- Read one character outside quotes. -/
def stepPlain (c : Char) : List Piece × State :=
  if isQuote c then ([.verbatim c], .quoted c)
  else if c = '?' then ([.positional], .plain)
  else if c = ':' then ([], .colon)
  else ([.verbatim c], .plain)

/-- Read one character. -/
def step (escapes : Bool) (c : Char) : State → List Piece × State
  | .plain => stepPlain c
  | .quoted q =>
    ([.verbatim c],
      if escapes && c == '\\' then .escaped q else if c = q then .closing q else .quoted q)
  | .escaped q => ([.verbatim c], .quoted q)
  | .closing q => if c = q then ([.verbatim c], .quoted q) else stepPlain c
  | .colon =>
    if c = ':' then ([.verbatim ':', .verbatim ':'], .plain)
    else if isNameStart c then ([], .name [c])
    else
      let (ps, state) := stepPlain c
      (.verbatim ':' :: ps, state)
  | .name read =>
    if isNameChar c then ([], .name (read ++ [c]))
    else
      let (ps, state) := stepPlain c
      (.named read :: ps, state)

/-- What is still to be written when the text ends. -/
def finish : State → List Piece
  | .colon => [.verbatim ':']
  | .name read => [.named read]
  | _ => []

/-- The pieces of a text read from a state to the end. -/
def run (escapes : Bool) : State → List Char → List Piece
  | state, [] => finish state
  | state, c :: r =>
    let (ps, state) := step escapes c state
    ps ++ run escapes state r

/-- The pieces of a statement text. -/
def pieces (escapes : Bool) (sql : String) : List Piece :=
  run escapes .plain sql.toList

end Scan

namespace Params

/-- Put values in the place of placeholders. `emit` gets each value and its place, counted from
one; nothing comes back if the positional values run out. -/
def fillPieces (emit : Param → Nat → String) (ps : Params) :
    List Scan.Piece → List Param → Nat → Option (List Char × List Param)
  | [], _, _ => some ([], [])
  | .verbatim c :: rest, left, n =>
    (fillPieces emit ps rest left n).map fun (text, bound) => (c :: text, bound)
  | .positional :: _, [], _ => none
  | .positional :: rest, p :: left, n =>
    (fillPieces emit ps rest left (n + 1)).map fun (text, bound) =>
      ((emit p n).toList ++ text, p :: bound)
  | .named name :: rest, left, n =>
    match ps.named (String.ofList name) with
    | some p =>
      (fillPieces emit ps rest left (n + 1)).map fun (text, bound) =>
        ((emit p n).toList ++ text, p :: bound)
    | none =>
      (fillPieces emit ps rest left n).map fun (text, bound) => (':' :: (name ++ text), bound)

/-- Resolve the placeholders of a statement: its final text and the values in their places. -/
def bindSql (ps : Params) (sql : String) (escapes : Bool) (emit : Param → Nat → String) :
    Result (String × List Param) :=
  match fillPieces emit ps (Scan.pieces escapes sql) ps.positional 1 with
  | some (text, bound) => .ok (String.ofList text, bound)
  | none => .error (.invalidArgument (.missingParameter sql))

end Params

end QueryKit
