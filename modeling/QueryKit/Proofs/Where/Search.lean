import QueryKit.Proofs.Boolean.Reading
import QueryKit.Proofs.Where.Truth

/-!
# Search conditions

A search condition has a text and the values that it binds. It is read, and has a truth value for
each row.

- `searchFrom`: the lexemes of a text. AND, OR and NOT are words outside quotes and outside the
  parentheses of a list. What stands between words and the parentheses of groups is a raw text.
- `Predicate`: what a raw text tests. `Predicate.read?` reads it from the text.
- `Formula.truth`: the truth of a formula in a row. Its predicates take their values one after the
  other.
- `searchTruth`: the truth of a text. An empty text is no condition, so it holds of every row.
-/

namespace QueryKit

/-! ## Lexemes -/

/-- The word that ends where a blank stands, and what has been read before it; the characters are in
reverse. NOT is a word only where nothing stands before it. Elsewhere it belongs to a test. -/
def wordBehind : List Char → Option (List Char × Lexeme)
  | ['T', 'O', 'N'] => some ([], .not)
  | 'D' :: 'N' :: 'A' :: ' ' :: before => some (before, .conjunction .and)
  | 'R' :: 'O' :: ' ' :: before => some (before, .conjunction .or)
  | _ => none

/-- The raw text of characters in reverse. -/
def rawBehind (run : List Char) : List Lexeme :=
  if run = [] then [] else [.raw (String.ofList run.reverse)]

/-- The lexemes of a text of which `run` has been read since the last lexeme, in reverse. It is inside
so many parentheses of its own, and inside the quotes `q` or not. A parenthesis behind a run opens a
list; it opens a group otherwise. -/
def searchFrom (q : Char) (run : List Char) : Nat → Bool → List Char → List Lexeme
  | _, _, [] => rawBehind run
  | depth, true, ch :: s => searchFrom q (ch :: run) depth (ch != q) s
  | 0, false, ch :: s =>
    if ch = q then searchFrom q (ch :: run) 0 true s
    else if ch = '(' then
      if run = [] then .opening :: searchFrom q [] 0 false s
      else searchFrom q (ch :: run) 1 false s
    else if ch = ')' then rawBehind run ++ .closing :: searchFrom q [] 0 false s
    else if ch = ' ' then
      match wordBehind run with
      | some (before, word) => rawBehind before ++ word :: searchFrom q [] 0 false s
      | none => searchFrom q (ch :: run) 0 false s
    else searchFrom q (ch :: run) 0 false s
  | depth + 1, false, ch :: s =>
    if ch = q then searchFrom q (ch :: run) (depth + 1) true s
    else if ch = '(' then searchFrom q (ch :: run) (depth + 2) false s
    else if ch = ')' then searchFrom q (ch :: run) depth false s
    else searchFrom q (ch :: run) (depth + 1) false s

/-! ## Predicates -/

/-- What a raw text tests: a cell of the row, by the text of its column, or that zero is one. -/
inductive Predicate where
  | zeroIsOne
  | cell (column : String) (test : CellTest)
deriving DecidableEq, Repr

/-- How many places stand in front of a closing parenthesis. -/
def placesOf? : List Char → Option Nat
  | ['?', ')'] => some 1
  | '?' :: ',' :: ' ' :: s => (placesOf? s).map (· + 1)
  | _ => none

/-- The test behind a column. -/
def CellTest.read? (s : List Char) : Option CellTest :=
  if s = " = ?".toList then some (.among false 1)
  else if s = " <> ?".toList then some (.among true 1)
  else if s = " IS NULL".toList then some (.isNull false)
  else if s = " IS NOT NULL".toList then some (.isNull true)
  else
    match Text.dropText " IN (".toList s, Text.dropText " NOT IN (".toList s with
    | some places, _ => (placesOf? places).map (.among false)
    | none, some places => (placesOf? places).map (.among true)
    | none, none => none

/-- A text up to the first blank outside the quotes `q`, and the rest of it. -/
def spanColumn (q : Char) : Bool → List Char → List Char × List Char
  | _, [] => ([], [])
  | quoted, ch :: s =>
    if ch = ' ' ∧ quoted = false then ([], ch :: s)
    else (spanColumn q (if ch = q then !quoted else quoted) s).map (ch :: ·) id

namespace Predicate

def read? (q : Char) (s : String) : Option Predicate :=
  if s = "0=1" then some .zeroIsOne
  else
    let (column, rest) := spanColumn q false s.toList
    (CellTest.read? rest).map (.cell (String.ofList column))

/-- How many values the predicate takes. -/
def places : Predicate → Nat
  | zeroIsOne => 0
  | cell _ test => test.places

/-- The truth of a predicate in a row, which has a cell for each column. -/
def truth (same : Value → Value → Bool) (row : String → Value) :
    Predicate → List Value → Truth
  | zeroIsOne, _ => .fails
  | cell column test, vs => test.truth same (row column) vs

end Predicate

/-! ## Truth -/

section Truth

variable (q : Char) (same : Value → Value → Bool) (row : String → Value)

mutual

/-- The truth of a formula over predicates, and the values that it leaves. -/
def Formula.truth : Formula → List Value → Option (Truth × List Value)
  | .raw s, vs => do
    let p ← Predicate.read? q s
    if vs.length < p.places then none
    else some (p.truth same row (vs.take p.places), vs.drop p.places)
  | .not f, vs => do
    let (t, vs) ← f.truth vs
    return (t.not, vs)
  | .junction c fs, vs => do
    let (ts, vs) ← Formula.truths fs vs
    return (c.joinTruth ts, vs)

def Formula.truths : List Formula → List Value → Option (List Truth × List Value)
  | [], vs => some ([], vs)
  | f :: fs, vs => do
    let (t, vs) ← f.truth vs
    let (ts, vs) ← Formula.truths fs vs
    return (t :: ts, vs)

end

/-- The truth of the text of a search condition with the values that it binds, if it can be read and
takes all of them. No condition holds of every row. -/
def searchTruth (text : String) (values : List Value) : Option Truth :=
  if text = "" then if values.isEmpty then some .holds else none
  else do
    let f ← readLexemes (searchFrom q [] 0 false text.toList)
    match f.truth q same row values with
    | some (t, []) => some t
    | _ => none

end Truth

end QueryKit
