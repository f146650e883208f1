import QueryKit.Compile.Alias
import QueryKit.Query.Basic
import QueryKit.Text.Join

/-!
# The tables of a FROM clause

- `readTable`: a FROM item as table and alias. A table may stand in quotes, brackets, braces or
  parentheses; the word AS before the alias may be left out.
- `Query.tablesUsed`: the tables of a query under their aliases, both as `{{name}}` tokens.
-/

namespace QueryKit

/-- The length of what opens a quoted name at the start of a text. -/
def openingLength : List Char → Option Nat
  | '\x7b' :: '\x7b' :: _ => some 2
  | c :: _ => if c = '\'' ∨ c = '"' ∨ c = '\x60' ∨ c = '[' then some 1 else none
  | [] => none

/-- The length of what closes a quoted name at the start of a text. -/
def closingLength : List Char → Option Nat
  | '\x7d' :: '\x7d' :: _ => some 2
  | c :: _ => if c = '\'' ∨ c = '"' ∨ c = '\x60' ∨ c = ']' then some 1 else none
  | [] => none

/-- The part of a text up to the first closing after which `ok` accepts the rest. -/
def upToClosing (closing : List Char → Option Nat) (ok : List Char → Bool) :
    List Char → Option (List Char × List Char)
  | [] => none
  | c :: r =>
    let here := (closing (c :: r)).bind fun n =>
      let rest := (c :: r).drop n
      if ok rest then some ((c :: r).take n, rest) else none
    match here with
    | some found => some found
    | none =>
      (upToClosing closing ok r).map fun (before, rest) => (c :: before, rest)

/-- A quoted name at the start of a text, quotes included, such that `ok` accepts the rest. -/
def quotedName (ok : List Char → Bool) (s : List Char) : Option (List Char × List Char) :=
  (openingLength s).bind fun n =>
    (upToClosing closingLength ok (s.drop n)).map fun (name, rest) => (s.take n ++ name, rest)

/-- A name in parentheses at the start of a text, such that `ok` accepts the rest. -/
def parenthesized (ok : List Char → Bool) : List Char → Option (List Char × List Char)
  | '(' :: r =>
    (upToClosing (fun t => if t.head? = some ')' then some 1 else none) ok r).map
      fun (name, rest) => ('(' :: name, rest)
  | _ => none

/-- Whether a table may end in front of a text: at its end or before a blank. -/
def endsTable (s : List Char) : Bool :=
  s.head?.all Text.isBlank

/-- The table at the start of a FROM item, and the rest. -/
def splitTable (s : List Char) : List Char × List Char :=
  match quotedName endsTable s with
  | some found => found
  | none =>
    match parenthesized endsTable s with
    | some found => found
    | none => (s.takeWhile fun c => !Text.isBlank c, s.dropWhile fun c => !Text.isBlank c)

/-- The alias in the rest of a FROM item, which is empty or begins with a blank. The letters AS at
its start are taken for the word. -/
def readAlias (s : List Char) : List Char :=
  let s := s.dropWhile Text.isBlank
  let s := ((Text.dropWord ['a', 's'] s).getD s).dropWhile Text.isBlank
  match quotedName (fun r => r.all Text.isBlank) s with
  | some (name, _) => name
  | none => Text.trimEnd s

/-- The table and the alias of a FROM item. A table without an alias is its own alias. -/
def readTable (s : List Char) : List Char × List Char :=
  let (table, rest) := splitTable (Text.trimStart s)
  let label := readAlias rest
  (table, if label.isEmpty then table else label)

/-- Whether a name is a table token, on one line. -/
def isBraced (s : List Char) : Bool :=
  match Text.dropText ['\x7b', '\x7b'] s with
  | some r =>
    match Text.dropTextEnd ['\x7d', '\x7d'] r with
    | some name => !name.contains '\n'
    | none => false
  | none => false

/-- A name as a table token, without any quotes. -/
def braced (s : List Char) : List Char :=
  let name := s.filter fun c => !(c == '\'' || c == '"' || c == '\x60' || c == '[' || c == ']')
  if name.isEmpty || isBraced name then name
  else '\x7b' :: '\x7b' :: (name ++ ['\x7d', '\x7d'])

def bracedName (s : String) : String :=
  String.ofList (braced s.toList)

namespace Query

/-- The alias and the table of a FROM item. -/
def tableUsed (item : ColumnItem) : Result (String × Column) :=
  match item.label, item.column with
  | some label, .name table => .ok (bracedName label, .name (bracedName table))
  | some label, .expr e => .ok (bracedName label, .expr e)
  | none, .name definition =>
    let (table, label) := readTable definition.toList
    .ok (String.ofList (braced label), .name (String.ofList (braced table)))
  | none, .expr _ => .error (.invalidArgument .namelessTable)

/-- The tables of a query under their aliases. -/
def tablesUsed (q : Query) : Result (List (String × Column)) :=
  q.tables.mapM tableUsed

end Query

end QueryKit
