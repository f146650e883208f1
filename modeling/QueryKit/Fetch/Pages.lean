import QueryKit.Fetch.Rows

/-!
# Reading page by page

- `Batch`: a query that is read in pages of a size, with the place it has come to. A limit of the
  query bounds the rows of all pages together.
- `Batch.next`: the next page, until there is none. The rows of a query are fetched by a function that
  the caller gives.
- `Each`, `Each.next`: the same row by row.
- `Client.nextPage`, `Client.nextRow`: these with the rows that a session fetches.

Places are 64-bit numbers.
-/

namespace QueryKit

/-- A query read in pages. -/
structure Batch where
  query : Query
  /-- The rows of a full page; at least one. -/
  size : Nat
  nextOffset : Nat
  /-- How many rows may still come, if there is a limit. -/
  remaining : Option Nat
  isDone : Bool

namespace Batch

def ofQuery (q : Query) (size : Nat) : Batch where
  query := q
  size := max size 1
  nextOffset := q.offset.getD 0
  remaining := q.limit
  isDone := false

/-- How many rows the next page asks for. -/
def take (b : Batch) : Nat :=
  match b.remaining with
  | some left => min left b.size
  | none => b.size

/-- The query of the next page. -/
def page (b : Batch) : Query :=
  (b.query.withLimit (some b.take)).withOffset (some b.nextOffset)

/-- Go past the rows of a page. A page that is not full is the last one. -/
def advance (b : Batch) (fetched : Nat) : Batch :=
  { b with
    nextOffset := (b.nextOffset + fetched) % twoPow 64
    remaining := b.remaining.map (· - fetched)
    isDone := decide (fetched < b.take) }

variable {m : Type → Type} [Monad m]

/-- The next page, and the batch after it. -/
def next (fetch : Query → m (List Row)) (b : Batch) : m (Option (List Row) × Batch) := do
  if b.isDone || b.query.emulateExecution then return (none, b)
  else if b.remaining = some 0 then return (none, { b with isDone := true })
  else
    let rows ← fetch b.page
    return (if rows.isEmpty then none else some rows, b.advance rows.length)

end Batch

/-- A query read row by row. -/
structure Each where
  batch : Batch
  /-- Rows that were fetched and not handed out yet. -/
  buffer : List Row

namespace Each

def ofQuery (q : Query) (size : Nat) : Each :=
  ⟨.ofQuery q size, []⟩

variable {m : Type → Type} [Monad m]

/-- The next row, and the reader after it. -/
def next (fetch : Query → m (List Row)) (e : Each) : m (Option Row × Each) := do
  match e.buffer with
  | row :: buffer => return (some row, { e with buffer })
  | [] =>
    match ← e.batch.next fetch with
    | (some (row :: buffer), batch) => return (some row, ⟨batch, buffer⟩)
    | (_, batch) => return (none, ⟨batch, []⟩)

end Each

namespace Client

variable {σ : Type} (c : Client σ)

/-- The next page that a session fetches. -/
def nextPage (b : Batch) : Run σ (Option (List Row) × Batch) :=
  b.next c.all

/-- The next row that a session fetches. -/
def nextRow (e : Each) : Run σ (Option Row × Each) :=
  e.next c.all

/-- The next pages, at most `n` of them, and the batch after them. -/
def nextPages : Nat → Batch → Run σ (List (List Row) × Batch)
  | 0, b => return ([], b)
  | n + 1, b => do
    match ← c.nextPage b with
    | (none, b) => return ([], b)
    | (some page, b) =>
      let (pages, b) ← nextPages n b
      return (page :: pages, b)

/-- The next rows, at most `n` of them, and the reader after them. -/
def nextRows : Nat → Each → Run σ (List Row × Each)
  | 0, e => return ([], e)
  | n + 1, e => do
    match ← c.nextRow e with
    | (none, e) => return ([], e)
    | (some row, e) =>
      let (rows, e) ← nextRows n e
      return (row :: rows, e)

end Client

end QueryKit
