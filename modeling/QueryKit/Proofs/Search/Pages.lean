import Mathlib.Algebra.Group.Nat.Defs
import Mathlib.Data.List.TakeDrop
import Mathlib.Data.List.TakeWhile
import QueryKit.Proofs.Closures.Levels
import QueryKit.Proofs.Command.Sent
import QueryKit.Proofs.Fetch.Counting
import QueryKit.Proofs.Fetch.Listing
import QueryKit.Search.Page

/-!
# The pages of a search

- `Search.narrowed`: what a filter without an offset makes of a query for all pages alike. Only the
  offset depends on the page (`paged_eq`), and it is exact as long as it fits 64 bits
  (`pageOffset_eq_iff`).
- `Client.readPage`: a page and then the COUNT statement, compiled and read; `readPage_sends` says
  that nothing else is sent.
- `Client.Paged`: how the pages of a search are read, with the texts of their statements.
  `Client.searchPage_paged`: a search fails for all pages alike, or reads them so.
-/

namespace QueryKit

/-! ## The window of a page -/

namespace Search

variable {entries : List (String × Json)} {key : String}

/-- The entries in front of the first one of a key, and the others. -/
theorem span_cases (key : String) (entries : List (String × Json)) :
    (∀ e ∈ entries, e.1 ≠ key) ∧ entries.span (fun e => e.1 ≠ key) = (entries, []) ∨
    ∃ before j after, entries = before ++ (key, j) :: after ∧ (∀ e ∈ before, e.1 ≠ key) ∧
      entries.span (fun e => e.1 ≠ key) = (before, (key, j) :: after) := by
  have hsplit := List.takeWhile_append_dropWhile (p := fun e : String × Json => e.1 ≠ key)
    (l := entries)
  have hbefore : ∀ e ∈ entries.takeWhile (fun e => e.1 ≠ key), e.1 ≠ key := fun e he => by
    simpa using List.mem_takeWhile_imp he
  rw [List.span_eq_takeWhile_dropWhile]
  cases hrest : entries.dropWhile (fun e => e.1 ≠ key) with
  | nil =>
    rw [hrest, List.append_nil] at hsplit
    rw [hsplit] at hbefore ⊢
    exact .inl ⟨hbefore, rfl⟩
  | cons e after =>
    have hkey : e.1 = key := by
      have hhead := List.head?_dropWhile_not (fun e : String × Json => e.1 ≠ key) entries
      rw [hrest] at hhead
      simpa using hhead
    subst hkey
    rw [hrest] at hsplit
    exact .inr ⟨_, e.2, after, hsplit.symm, hbefore, rfl⟩

/-- An entry is taken from its place, or there is none. -/
theorem takeEntry_cases (key : String) (entries : List (String × Json)) :
    (∀ e ∈ entries, e.1 ≠ key) ∧ takeEntry key entries = (none, entries) ∨
    ∃ j rest, entries.lookup key = some j ∧ takeEntry key entries = (some j, rest) ∧
      rest ⊆ entries := by
  unfold takeEntry
  rcases span_cases key entries with ⟨habsent, hspan⟩ | ⟨before, j, after, rfl, hbefore, hspan⟩
  · rw [hspan]
    exact .inl ⟨habsent, rfl⟩
  · rw [hspan]
    have hlookup : (before ++ (key, j) :: after).lookup key = some j := by
      rw [List.lookup_eq_some_iff]
      exact ⟨before, after, rfl, fun e he => by simpa using (hbefore e he).symm⟩
    dsimp only
    cases hlast : after.getLast? with
    | none => exact .inr ⟨j, before, hlookup, rfl, List.subset_append_left before _⟩
    | some moved =>
      refine .inr ⟨j, _, hlookup, rfl, ?_⟩
      have hmoved := List.mem_of_getLast? hlast
      have hinit := after.dropLast_subset
      intro e he
      simp only [List.mem_append, List.mem_cons] at he ⊢
      rcases he with he | rfl | he
      · exact .inl he
      · exact .inr (.inr hmoved)
      · exact .inr (.inr (hinit he))

theorem takeEntry_of_absent (h : ∀ e ∈ entries, e.1 ≠ key) :
    takeEntry key entries = (none, entries) := by
  rcases takeEntry_cases key entries with ⟨-, htake⟩ | ⟨j, rest, hlookup, -, -⟩
  · exact htake
  · obtain ⟨before, after, rfl, -⟩ := List.lookup_eq_some_iff.mp hlookup
    exact absurd rfl (h (key, j) (by simp))

theorem takeEntry_snd_subset : (takeEntry key entries).2 ⊆ entries := by
  rcases takeEntry_cases key entries with ⟨-, htake⟩ | ⟨j, rest, -, htake, hrest⟩
  · rw [htake]
    exact List.Subset.refl entries
  · rw [htake]
    exact hrest

theorem takeEntry_fst (key : String) (entries : List (String × Json)) :
    (takeEntry key entries).1 = entries.lookup key := by
  rcases takeEntry_cases key entries with ⟨habsent, htake⟩ | ⟨j, rest, hlookup, htake, -⟩
  · rw [htake, List.lookup_eq_none_iff.mpr fun e he => by simpa using (habsent e he).symm]
  · rw [htake, hlookup]

/-- The limit of every page: that of the filter, or the standard one. -/
def limitOf (entries : List (String × Json)) : Result (Option Nat) :=
  match entries.lookup "limit" with
  | some j => countOf "limit" j
  | none => .ok (some standardLimit)

/-- What a filter without an offset sets for all pages: the argument of COUNT, and the entries that
narrow the query. -/
def countedEntries (entries : List (String × Json)) : Result (String × List (String × Json)) :=
  let (counted, entries) := takeEntry "count" (takeEntry "limit" entries).2
  (countedOf counted).map fun counted => (counted, entries)

/-- Only the offset depends on the page. -/
theorem ofEntries_eq (h : ∀ e ∈ entries, e.1 ≠ "offset") (page : Nat) :
    PageWindow.ofEntries page entries = (do
      let limit ← limitOf entries
      let (counted, rest) ← countedEntries entries
      return (⟨limit, limit.map (pageOffset page), counted⟩, rest)) := by
  have hlimit := takeEntry_fst "limit" entries
  have hoffset : takeEntry "offset" (takeEntry "limit" entries).2 =
      (none, (takeEntry "limit" entries).2) :=
    takeEntry_of_absent fun e he => h e (takeEntry_snd_subset he)
  unfold PageWindow.ofEntries limitOf countedEntries
  rcases hentry : takeEntry "limit" entries with ⟨limit, rest⟩
  rw [hentry] at hlimit hoffset
  dsimp only at hlimit hoffset ⊢
  rw [← hlimit, hoffset]
  have hrest : ∀ l : Option Nat, (do
      let offset ← (Pure.pure (l.map (pageOffset page)) : Result (Option Nat))
      let (counted, entries) := takeEntry "count" rest
      let counted ← countedOf counted
      return ((⟨l, offset, counted⟩, entries) : PageWindow × List (String × Json))) = (do
      let (counted, entries) ← (let (counted, entries) := takeEntry "count" rest
        (countedOf counted).map fun counted => (counted, entries))
      return (⟨l, l.map (pageOffset page), counted⟩, entries)) := by
    intro l
    rcases takeEntry "count" rest with ⟨counted, entries⟩
    dsimp only
    cases countedOf counted <;> rfl
  cases limit with
  | none => exact hrest (some standardLimit)
  | some j => exact bind_congr hrest

/-- The query of every page of a search, its limit, and the argument of COUNT. -/
def narrowed (q : Query) (entries : List (String × Json)) (cache : Option CachePolicy) :
    Result (Query × Option Nat × String) := do
  let limit ← limitOf entries
  let (counted, rest) ← countedEntries entries
  let q ← searchEntries q rest
  return ({ q with cache := cache.or q.cache }, limit, counted)

theorem paged_eq {filter : Json} (hfilter : entriesOf filter = .ok entries)
    (h : ∀ e ∈ entries, e.1 ≠ "offset") (q : Query) (page : Nat) (cache : Option CachePolicy) :
    paged q filter page cache = (narrowed q entries cache).map fun (q, limit, counted) =>
      (q, ⟨limit, limit.map (pageOffset page), counted⟩) := by
  have hofEntries := ofEntries_eq h page
  unfold paged narrowed
  rw [hfilter]
  change (PageWindow.ofEntries page entries >>= _) = _
  rw [hofEntries]
  rcases limitOf entries with e | limit
  · rfl
  · rcases countedEntries entries with e | ⟨counted, rest⟩
    · rfl
    · change (searchEntries q rest >>= _) = (searchEntries q rest >>= _).map _
      rcases searchEntries q rest with e | narrow <;> rfl

/-- A query is narrowed for pages of the limit that the filter has. -/
theorem limitOf_of_narrowed {q narrow : Query} {cache : Option CachePolicy} {limit : Option Nat}
    {argument : String} (h : narrowed q entries cache = .ok (narrow, limit, argument)) :
    limitOf entries = .ok limit := by
  unfold narrowed at h
  obtain ⟨_, hlimit, hrest⟩ := Result.bind_ok h
  obtain ⟨_, -, hrest⟩ := Result.bind_ok hrest
  obtain ⟨_, -, hlast⟩ := Result.bind_ok hrest
  cases hlast
  exact hlimit

/-- Offsets that fit 64 bits are exact. -/
theorem pageOffset_eq_iff (page limit : Nat) :
    pageOffset page limit = (page - 1) * limit ↔ (page - 1) * limit < 2 ^ 64 := by
  unfold pageOffset
  constructor
  · intro h
    rw [← h]
    exact Nat.mod_lt _ (by decide)
  · exact Nat.mod_eq_of_lt

end Search

/-! ## Reading pages -/

theorem unionsText_inj {s t : String} {unions : List String}
    (h : unionsText s unions = unionsText t unions) : s = t := by
  unfold unionsText at h
  split at h
  · exact h
  · have hlist := congrArg String.toList h
    simp only [String.toList_append] at hlist
    exact String.toList_inj.mp
      (List.append_cancel_left (List.append_cancel_right (List.append_cancel_right hlist)))

namespace Client

open Run QueryKit.Search

variable {σ : Type} (c : Client σ) {q : Query} {limit offset : Nat} {argument : String}

/-- The number that a statement counts; what is not a number counts as 0. -/
def readTotal (q : Query) (built : String × Params) : Run σ Int64 := do
  let cell ← resultOf (c.queryScalar (c.commandFor q built))
  return (cell.bind Value.asInt64).getD 0

/-- A page of a query: the page and then the COUNT statement, each compiled and read. -/
def readPage (q : Query) (argument : String) (limit offset : Nat) : Run σ SearchPage := do
  let page ← Run.ofResult (c.connection.compiler.build (q.window limit offset) .empty)
  let data ← c.readText q page
  let counted ← Run.ofResult (c.connection.compiler.build (q.countQuery argument) .empty)
  let total ← c.readTotal (q.countQuery argument) counted
  return ⟨total, data⟩

variable {c}

theorem count_eq (hemulate : q.emulateExecution = false) (argument : String) :
    c.count q.unlimited argument =
      Run.ofResult (c.connection.compiler.build (q.countQuery argument) .empty) >>=
        c.readTotal (q.countQuery argument) := by
  have hunlimited : q.unlimited.emulateExecution = false := hemulate
  unfold count aggregate
  rw [hunlimited, if_neg Bool.false_ne_true]
  unfold command readTotal
  simp only [bind_assoc, pure_bind]
  rfl

/-- What a statement of a query sends is its prepared form. -/
def IsPrepared (c : Client σ) (q : Query) (sql : String) (values : List Value) : Prop :=
  ∃ built, c.connection.compiler.build q .empty = .ok built ∧
    (c.commandFor q built).preparation c.connection = .ok ⟨sql, values⟩

/-- A step taken with the compiled form of a query, if it compiles. -/
theorem built_sends {α : Type} {P : String → List Value → Prop} {q : Query}
    {f : String × Params → Run σ α}
    (h : ∀ built, c.connection.compiler.build q .empty = .ok built → Sends P (f built)) :
    Sends P (Run.ofResult (c.connection.compiler.build q .empty) >>= f) := by
  cases hbuild : c.connection.compiler.build q .empty with
  | error e => exact .fail e
  | ok built => exact h built hbuild

/-- A page sends the statement of its window and the COUNT statement. -/
theorem readPage_sends (c : Client σ) (q : Query) (argument : String) (limit offset : Nat) :
    Sends (fun sql values => c.IsPrepared (q.window limit offset) sql values ∨
      c.IsPrepared (q.countQuery argument) sql values) (c.readPage q argument limit offset) := by
  refine built_sends fun page hpage => ?_
  refine Sends.bind ?_ fun data => built_sends fun counted hcounted => ?_
  · refine ((fetchAs_sends _ _ _).bind fun _ => .ofResult _).mono fun sql values h => ?_
    exact .inl ⟨page, hpage, h⟩
  · refine Sends.bind (Sends.bind ?_ fun _ => .pure _) fun _ => .pure _
    refine ((fetchAs_sends _ _ _).bind fun _ => .ofResult _).mono fun sql values h => ?_
    exact .inr ⟨counted, hcounted, h⟩

/-- What the statements of all pages have in common. -/
theorem window_compiled (c : Compiler) (q : Query) (limit : Nat) (argument : String) :
    (∃ e, ∀ page, c.build (q.window limit (pageOffset page limit)) .empty = .error e) ∨
    ∃ text unions params,
      (∀ page, c.build (q.window limit (pageOffset page limit)) .empty =
          .ok (unionsText (windowText text limit (pageOffset page limit)) unions, params) ∧
        (unionsText (windowText text limit (pageOffset page limit)) unions =
            unionsText (windowText text limit ((page - 1) * limit)) unions ↔
          (page - 1) * limit < 2 ^ 64)) ∧
      ∀ counted params', c.build (q.countQuery argument) .empty = .ok (counted, params') →
        CountText c.dialect q argument text unions counted := by
  cases htext : renderQuery c q.operand with
  | error e =>
    refine .inl ⟨e, fun page => ?_⟩
    rw [Compiler.build_window, Compiler.build, htext]
    rfl
  | ok r =>
    obtain ⟨text, bs⟩ := r
    cases hunions : renderUnions c q.unions with
    | error e =>
      refine .inl ⟨e, fun page => ?_⟩
      rw [Compiler.build_window, Compiler.build, htext, hunions]
      rfl
    | ok r =>
      obtain ⟨unions, cs⟩ := r
      refine .inr ⟨text, unions, (Params.empty.bindAll bs).bindAll cs, fun page => ⟨?_, ?_⟩,
        fun counted params' h => ?_⟩
      · rw [Compiler.build_window, Compiler.build, htext, hunions]
        rfl
      · rw [← pageOffset_eq_iff]
        exact ⟨fun h => (windowText_inj (unionsText_inj h)).2, fun h => by rw [h]⟩
      · obtain ⟨ds, hcount, -⟩ := Compile.into_ok h
        exact countText_of_ok htext hunions hcount

/-- How the pages of a search are read: `run page` is the search for a page, `q` the query that the
filter has narrowed, and `limit` and `argument` are those of all pages. -/
structure Paged (c : Client σ) (run : Nat → Run σ SearchPage) (q : Query) (limit : Nat)
    (argument : String) : Prop where
  /-- An emulated query is neither compiled nor sent. -/
  emulated : q.emulateExecution = true → ∀ page, run page = Run.pure ⟨0, []⟩
  /-- The statement of the page is compiled and read, and then the COUNT statement is. -/
  read : q.emulateExecution = false → ∀ page,
    run page = c.readPage q argument limit (pageOffset page limit)
  /-- No other statement is sent. -/
  sends : ∀ page, Sends (fun sql values =>
    c.IsPrepared (q.window limit (pageOffset page limit)) sql values ∨
      c.IsPrepared (q.countQuery argument) sql values) (run page)
  /-- The texts of the pages differ in the offset only, which is exact if it fits 64 bits. The COUNT
  statement is made of the same text without limit and offset. -/
  compiled :
    (∃ e, ∀ page, c.connection.compiler.build (q.window limit (pageOffset page limit)) .empty =
      .error e) ∨
    ∃ text unions params,
      (∀ page, c.connection.compiler.build (q.window limit (pageOffset page limit)) .empty =
          .ok (unionsText (windowText text limit (pageOffset page limit)) unions, params) ∧
        (unionsText (windowText text limit (pageOffset page limit)) unions =
            unionsText (windowText text limit ((page - 1) * limit)) unions ↔
          (page - 1) * limit < 2 ^ 64)) ∧
      ∀ counted params', c.connection.compiler.build (q.countQuery argument) .empty =
          .ok (counted, params') →
        CountText c.connection.compiler.dialect q argument text unions counted

/-! ## Searches -/

section Searches

variable {filter : Json} {entries : List (String × Json)} {cache : Option CachePolicy}
  {narrow : Query}

/-- The search for a page, once the filter has narrowed the query. -/
theorem searchPage_narrowed (c : Client σ) (hfilter : entriesOf filter = .ok entries)
    (hoffset : ∀ e ∈ entries, e.1 ≠ "offset")
    (hnarrow : narrowed q entries cache = .ok (narrow, some limit, argument)) (page : Nat) :
    c.searchPage q filter page cache = (do
      let data ← c.all (narrow.window limit (pageOffset page limit))
      let total ← c.count narrow.unlimited argument
      return ⟨total, data⟩) := by
  rw [searchPage, paged_eq hfilter hoffset, hnarrow]
  rfl

theorem paged_of_narrowed (c : Client σ) (hfilter : entriesOf filter = .ok entries)
    (hoffset : ∀ e ∈ entries, e.1 ≠ "offset")
    (hnarrow : narrowed q entries cache = .ok (narrow, some limit, argument)) :
    c.Paged (fun page => c.searchPage q filter page cache) narrow limit argument := by
  have hrun := c.searchPage_narrowed hfilter hoffset hnarrow
  have hemulated : narrow.emulateExecution = true → ∀ page,
      c.searchPage q filter page cache = Run.pure ⟨0, []⟩ := by
    intro hemulate page
    have hcount : narrow.unlimited.emulateExecution = true := hemulate
    have hwindow : (narrow.window limit (pageOffset page limit)).emulateExecution = true :=
      hemulate
    rw [hrun, all, fetching, if_pos hwindow, count, aggregate, if_pos hcount]
    rfl
  have hread : narrow.emulateExecution = false → ∀ page,
      c.searchPage q filter page cache =
        c.readPage narrow argument limit (pageOffset page limit) := by
    intro hemulate page
    rw [hrun, all_window hemulate, count_eq hemulate, readPage]
    simp only [bind_assoc]
  refine ⟨hemulated, hread, fun page => ?_,
    window_compiled c.connection.compiler narrow limit argument⟩
  cases hemulate : narrow.emulateExecution with
  | true =>
    rw [hemulated hemulate page]
    exact .pure _
  | false =>
    rw [hread hemulate page]
    exact readPage_sends c narrow argument limit (pageOffset page limit)

/-- A search for pages fails for all of them in the same way, or reads them as pages of one query.
The statement of a page has the limit and the exact offset of the page if this offset fits 64 bits,
and another offset if it does not. -/
theorem searchPage_paged (c : Client σ) (q : Query) (cache : Option CachePolicy)
    (hfilter : entriesOf filter = .ok entries) (hoffset : ∀ e ∈ entries, e.1 ≠ "offset")
    (hlimit : limitOf entries = .ok (some limit)) :
    (∃ e, ∀ page, c.searchPage q filter page cache = Run.fail e) ∨
    ∃ narrow argument,
      c.Paged (fun page => c.searchPage q filter page cache) narrow limit argument := by
  cases hnarrow : narrowed q entries cache with
  | error e =>
    refine .inl ⟨e, fun page => ?_⟩
    rw [searchPage, paged_eq hfilter hoffset, hnarrow]
    rfl
  | ok r =>
    obtain ⟨narrow, l, argument⟩ := r
    cases hlimit.symm.trans (limitOf_of_narrowed hnarrow)
    exact .inr ⟨narrow, argument, c.paged_of_narrowed hfilter hoffset hnarrow⟩

end Searches

/-- Two rows to a page. -/
def twoRows : Json :=
  .object [("limit", .ofInt 2)]

def users : Query :=
  Query.empty.from_ [.ofName "user"]

/-- The page `2 ^ 63 + 1` of two rows each begins at row `2 ^ 64`, but its statement is that of the
first page. -/
theorem users_wrap :
    let pages := fun page => rehearsal.searchPage users twoRows page none
    ((∃ e, ∀ page, pages page = Run.fail e) ∨
      ∃ narrow argument, rehearsal.Paged pages narrow 2 argument) ∧
    ¬(9223372036854775809 - 1) * 2 < 2 ^ 64 ∧
    Journal.texts (rehearsalState.events (pages 9223372036854775809 rehearsalState).2) =
      ["SELECT * FROM \"user\" LIMIT 2", "SELECT COUNT(1) FROM \"user\""] ∧
    Journal.texts (rehearsalState.events (pages 2 rehearsalState).2) =
      ["SELECT * FROM \"user\" LIMIT 2 OFFSET 2", "SELECT COUNT(1) FROM \"user\""] := by
  have hfilter : entriesOf twoRows = .ok [("limit", .ofInt 2)] := rfl
  have hoffset : ∀ e ∈ [("limit", Json.ofInt 2)], e.1 ≠ "offset" := by decide
  have hlimit : limitOf [("limit", .ofInt 2)] = .ok (some 2) := rfl
  have hpaged := searchPage_paged rehearsal users none hfilter hoffset hlimit
  exact ⟨hpaged, by decide, by decide +kernel, by decide +kernel⟩

end Client

end QueryKit
