import QueryKit.Dialect.Basic
import QueryKit.Text.Word

/-!
# Quoting

- `quoteTableName`, `quoteColumnName`: identifiers in the quotes of a dialect, part by part. Names
  with a parenthesis or an unexpanded token are fragments of statements and stay as they are; so do
  names that hold the quote already.
- `quoteValue`: a text as a string literal.
- `quoteTokens`: a statement with its `{{table}}` and `[[column]]` tokens expanded.
-/

namespace QueryKit.Dialect

/-- A string literal. Quotes are doubled, and backslashes too where they have a meaning. -/
def quoteValue (d : Dialect) (s : String) : String :=
  let cs := if d.backslashEscapes then Text.replaceChar '\\' ['\\', '\\'] s.toList else s.toList
  String.ofList ('\'' :: (Text.replaceChar '\'' ['\'', '\''] cs ++ ['\'']))

/-- A text in the quotes of identifiers. -/
def inQuotes (d : Dialect) (name : List Char) : List Char :=
  d.quoteChar :: (name ++ [d.quoteChar])

/-- A table name of one part. -/
def quoteTablePart (d : Dialect) (name : List Char) : List Char :=
  if name.contains d.quoteChar then name else d.inQuotes name

/-- A column name of one part; the wildcard stays bare. -/
def quoteColumnPart (d : Dialect) (name : List Char) : List Char :=
  if name.contains d.quoteChar || name == ['*'] then name else d.inQuotes name

/-- Two opening braces, as in an unexpanded table token. -/
def openBraces : List Char := ['\x7b', '\x7b']

/-- A table name, schema and all. -/
def quoteTableChars (d : Dialect) (name : List Char) : List Char :=
  if name.contains '(' || Text.hasText openBraces name then name
  else ['.'].intercalate ((Text.cutAt '.' name).map d.quoteTablePart)

/-- A column name with the table in front of it. -/
def quoteColumnChars (d : Dialect) (name : List Char) : List Char :=
  if name.contains '(' || Text.hasText ['[', '['] name then name
  else
    match Text.splitLast '.' name with
    | none => if Text.hasText openBraces name then name else d.quoteColumnPart name
    | some (table, column) =>
      if Text.hasText openBraces column then name
      else d.quoteTableChars table ++ '.' :: d.quoteColumnPart column

/-- A table name in quotes, part by part. -/
def quoteTableName (d : Dialect) (name : String) : String :=
  String.ofList (d.quoteTableChars name.toList)

/-- A column name in quotes, part by part. -/
def quoteColumnName (d : Dialect) (name : String) : String :=
  String.ofList (d.quoteColumnChars name.toList)

/-- A column name, unless it is a fragment with a parenthesis. -/
def columnName (d : Dialect) (name : String) : String :=
  if name.toList.contains '(' then name else d.quoteColumnName name

/-! ## Tokens -/

/-- The characters of the name in a token. -/
def isTokenChar (c : Char) : Bool :=
  Text.isWord c || c == '-' || c == '.' || c == ' '

/-- An optional percent sign at the start of a text. -/
def spanPercent : List Char → List Char × List Char
  | '%' :: r => (['%'], r)
  | r => ([], r)

/-- The inside of a table token at the start of a text, percent signs included. -/
def tableToken (s : List Char) : Option (List Char) := do
  let s ← Text.dropText openBraces s
  let (first, s) := spanPercent s
  let name := s.takeWhile isTokenChar
  let (last, s) := spanPercent (s.dropWhile isTokenChar)
  let _ ← Text.dropText ['\x7d', '\x7d'] s
  if name.isEmpty then none else some (first ++ name ++ last)

/-- The inside of a column token at the start of a text. -/
def columnToken (s : List Char) : Option (List Char) := do
  let s ← Text.dropText ['[', '['] s
  let name := s.takeWhile isTokenChar
  let _ ← Text.dropText [']', ']'] (s.dropWhile isTokenChar)
  if name.isEmpty then none else some name

/-- The quoted form of the token at the start of a text, and the length of the token. Percent signs
stand for the table prefix. -/
def expandToken (d : Dialect) (tablePrefix : List Char) (s : List Char) :
    Option (List Char × Nat) :=
  match tableToken s with
  | some name =>
    some (d.quoteTableChars (Text.replaceChar '%' tablePrefix name), name.length + 4)
  | none =>
    match columnToken s with
    | some name => some (d.quoteColumnChars name, name.length + 4)
    | none => none

/-- Expand tokens from the left; `skip` characters are part of a token already expanded. -/
def expandTokens (d : Dialect) (tablePrefix : List Char) : Nat → List Char → List Char
  | _, [] => []
  | skip + 1, _ :: r => expandTokens d tablePrefix skip r
  | 0, c :: r =>
    match expandToken d tablePrefix (c :: r) with
    | some (name, length) => name ++ expandTokens d tablePrefix (length - 1) r
    | none => c :: expandTokens d tablePrefix 0 r

/-- A statement with every token expanded to the quoted name. -/
def quoteTokens (d : Dialect) (tablePrefix sql : String) : String :=
  String.ofList (expandTokens d tablePrefix.toList 0 sql.toList)

end QueryKit.Dialect
