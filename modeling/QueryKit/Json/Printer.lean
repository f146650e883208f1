import QueryKit.Json.Basic
import QueryKit.Text.Join

/-!
# Compact JSON text

- `Json.quote`: a string in double quotes. The quote, the backslash and the control characters are
  escaped, and nothing else.
- `Json.render`: a document without any blanks, members in their order.
-/

namespace QueryKit.Json

def hexDigit (n : Nat) : Char :=
  if n < 10 then Char.ofNat ('0'.toNat + n) else Char.ofNat ('a'.toNat + (n - 10))

/-- One character of a quoted string. -/
def escapeChar (c : Char) : List Char :=
  match c with
  | '"' => ['\\', '"']
  | '\\' => ['\\', '\\']
  | '\n' => ['\\', 'n']
  | '\r' => ['\\', 'r']
  | '\t' => ['\\', 't']
  | '\x08' => ['\\', 'b']
  | '\x0c' => ['\\', 'f']
  | c =>
    if c.toNat < 0x20 then
      ['\\', 'u', '0', '0', hexDigit (c.toNat / 16), hexDigit (c.toNat % 16)]
    else [c]

/-- A string in quotes. -/
def quote (s : String) : String :=
  String.ofList ('"' :: (s.toList.flatMap escapeChar ++ ['"']))

def renderNumber : JsonNumber → String
  | .integer n => Int.repr n
  | .double x => x.toJsonString

mutual

/-- The compact text of a document. -/
def render : Json → String
  | .null => "null"
  | .bool b => if b then "true" else "false"
  | .number n => renderNumber n
  | .string s => quote s
  | .array items => "[" ++ Text.joinWith "," (renderItems items) ++ "]"
  | .object members => "\x7b" ++ Text.joinWith "," (renderMembers members) ++ "\x7d"

def renderItems : List Json → List String
  | [] => []
  | j :: js => render j :: renderItems js

def renderMembers : List (String × Json) → List String
  | [] => []
  | (k, j) :: ms => (quote k ++ ":" ++ render j) :: renderMembers ms

end

end QueryKit.Json
