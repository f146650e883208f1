import QueryKit.Text.Blank
import QueryKit.Text.Case
import QueryKit.Text.Word

/-!
# Aliases and directions written inside names

- `selectAlias?`: `name alias` and `name AS alias` in a select list.
- `tableAlias?`: `table alias` and `table AS alias` in a FROM clause. What follows the last blank
  may be anything without a space.
- `orderSuffix?`: `name ASC` and `name DESC`.

Each looks for the first place where a run of blanks begins what it wants; a line break ends the
search, because a name stands on one line.
-/

namespace QueryKit

/-- The name before the first place where `tail` finds something, and what it finds there. -/
def splitBeforeBlank {α : Type} (tail : List Char → Option α) :
    List Char → Option (List Char × α)
  | [] => none
  | c :: r =>
    match (if Text.isBlank c then tail (c :: r) else none) with
    | some a => some ([], a)
    | none =>
      if c = '\n' then none
      else (splitBeforeBlank tail r).map fun (before, a) => (c :: before, a)

/-- The rest of a text after a run of blanks that is not empty. -/
def afterBlanks (s : List Char) : Option (List Char) :=
  match s with
  | [] => none
  | c :: r => if Text.isBlank c then some (r.dropWhile Text.isBlank) else none

/-- The rest of a text after blanks and the word AS. -/
def afterAs (s : List Char) : Option (List Char) :=
  (afterBlanks s).bind (Text.dropWord ['a', 's'])

/-- The characters of an alias in a select list. -/
def isAliasChar (c : Char) : Bool :=
  Text.isWord c || c == '-' || c == '.'

/-- An alias after blanks, up to the end of the text. -/
def selectAliasTail (s : List Char) : Option (List Char) :=
  match afterBlanks s with
  | some r => if !r.isEmpty && r.all isAliasChar then some r else none
  | none => none

/-- The column and the alias of an item of a select list. -/
def selectAlias? (s : List Char) : Option (List Char × List Char) :=
  splitBeforeBlank (fun t => ((afterAs t).bind selectAliasTail).or (selectAliasTail t)) s

/-- An alias after blanks, up to the end of the text, without any space in it. A text of blanks only
gives its last blank. -/
def tableAliasTail (s : List Char) : Option (List Char) :=
  match afterBlanks s with
  | none => none
  | some [] =>
    match s.reverse with
    | c :: _ :: _ => if c = ' ' then none else some [c]
    | _ => none
  | some r => if r.contains ' ' then none else some r

/-- The table and the alias of an item of a FROM clause. -/
def tableAlias? (s : List Char) : Option (List Char × List Char) :=
  splitBeforeBlank (fun t => ((afterAs t).bind tableAliasTail).or (tableAliasTail t)) s

/-- A direction after blanks, at the end of the text. -/
def directionTail (s : List Char) : Option (List Char) :=
  match afterBlanks s with
  | some r =>
    if Text.dropWord "asc".toList r = some [] ∨ Text.dropWord "desc".toList r = some [] then some r
    else none
  | none => none

/-- The column and the direction of an item of an ORDER BY clause. -/
def orderSuffix? (s : List Char) : Option (List Char × List Char) :=
  splitBeforeBlank directionTail s

end QueryKit
