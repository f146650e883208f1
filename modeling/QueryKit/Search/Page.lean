import QueryKit.Fetch.Rows
import QueryKit.Search.Filter

/-!
# Pages of a search

- `SearchPage`: the rows of a page and the number of rows in all.
- `PageWindow.ofEntries`: the limit, the offset and the COUNT argument of a filter, with the entries
  that are left.
- `Client.searchPage`: one page of a query that a filter narrows down.
-/

namespace QueryKit

/-- One page of results. -/
structure SearchPage where
  total : Int64
  data : List Row

/-- The page as a document. -/
def SearchPage.toJson (p : SearchPage) : Json :=
  .object [("total", .ofInt p.total.toInt), ("data", .array (p.data.map Row.toJson))]

namespace Search

/-- The value of a key and the other entries. The last entry moves into the place that is free. -/
def takeEntry (key : String) (entries : List (String × Json)) :
    Option Json × List (String × Json) :=
  match entries.span fun e => e.1 ≠ key with
  | (_, []) => (none, entries)
  | (before, e :: after) =>
    match after.getLast? with
    | none => (some e.2, before)
    | some moved => (some e.2, before ++ moved :: after.dropLast)

/-- The part of a result that a search returns. -/
structure PageWindow where
  limit : Option Nat
  offset : Option Nat
  /-- The argument of COUNT. -/
  counted : String

/-- How many rows a page has by default. -/
def standardLimit : Nat := 20

/-- Where a page begins; offsets are 64-bit numbers. -/
def pageOffset (page limit : Nat) : Nat :=
  (page - 1) * limit % twoPow 64

/-- The argument of COUNT that a value gives. -/
def countedOf : Option Json → Result String
  | none => .ok "1"
  | some (.string s) => do
    guardText s
    return s
  | some (.number n) => .ok (Json.number n).render
  | some _ => .error (.invalidArgument .countForm)

/-- The window of a page and the entries of the filter that do not set it. -/
def PageWindow.ofEntries (page : Nat) (entries : List (String × Json)) :
    Result (PageWindow × List (String × Json)) := do
  let (limit, entries) := takeEntry "limit" entries
  let limit ← match limit with
    | some j => countOf "limit" j
    | none => pure (some standardLimit)
  let (offset, entries) := takeEntry "offset" entries
  let offset ← match offset with
    | some j => countOf "offset" j
    | none => pure (limit.map (pageOffset page))
  let (counted, entries) := takeEntry "count" entries
  let counted ← countedOf counted
  return (⟨limit, offset, counted⟩, entries)

/-- The entries of a filter. -/
def entriesOf : Json → Result (List (String × Json))
  | .object entries => .ok entries
  | .null => .ok []
  | _ => .error (.invalidArgument .filterForm)

/-- A query narrowed down by a filter, with the window of a page. -/
def paged (q : Query) (filter : Json) (page : Nat) (cache : Option CachePolicy) :
    Result (Query × PageWindow) := do
  let (window, entries) ← PageWindow.ofEntries page (← entriesOf filter)
  let q ← searchEntries q entries
  return ({ q with cache := cache.or q.cache }, window)

end Search

namespace Client

variable {σ : Type} (c : Client σ)

/-- One page of a query that a filter narrows down. With a limit the rows are counted by a statement
of their own; without one the page has all of them. -/
def searchPage (q : Query) (filter : Json) (page : Nat) (cache : Option CachePolicy) :
    Run σ SearchPage := do
  let (q, window) ← Run.ofResult (Search.paged q filter page cache)
  let data ← c.all ((q.withLimit window.limit).withOffset window.offset)
  match window.limit with
  | some _ => return ⟨← c.count ((q.withLimit none).withOffset none) window.counted, data⟩
  | none => return ⟨.ofNat data.length, data⟩

end Client

end QueryKit
