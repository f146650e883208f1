import QueryKit.Text.Blank
import QueryKit.Text.Case
import QueryKit.Text.Word

/-!
# Statements that read

- `isReadStatement`: whether a replica may serve a statement: its first word is SELECT, SHOW or
  DESCRIBE in any letter case.
-/

namespace QueryKit

/-- Whether a text begins with a word, and the word ends there. -/
def beginsWithWord (word s : List Char) : Bool :=
  match Text.dropWord word s with
  | some rest => Text.isBoundary word.getLast? rest.head?
  | none => false

/-- Whether a replica may serve a statement. -/
def isReadStatement (sql : String) : Bool :=
  let s := Text.trimStart sql.toList
  ["select", "show", "describe"].any fun word => beginsWithWord word.toList s

end QueryKit
