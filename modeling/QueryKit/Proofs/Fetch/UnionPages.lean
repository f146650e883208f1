import QueryKit.Proofs.Fetch.Batches

/-!
# Reading a UNION ALL in pages

The limit and the offset of a page stand in the first parentheses of a UNION ALL. So a page has some
rows of the first query and then all rows of the other members, and the batch counts them all.

- `Paged`: answers that are a list of rows in pages, with an end.
- `Client.unionPages_iff`: which unions are read in pages. Those whose other members have rows are so
  only if the first page has everything and is the last.
- `Client.unionPages_endless`: unions that are read without an end.
-/

namespace QueryKit

variable {σ : Type}

/-! ## Answers in pages -/

/-- Answers that are a list in pages of at most `size` rows, with an end. -/
def Paged (size : Nat) (rows : List Row) (answers : List (Option (List Row))) : Prop :=
  ∃ (pages : List (List Row)) (ends : Nat), answers = pages.map some ++ List.replicate ends none ∧
    ends ≠ 0 ∧ (∀ page ∈ pages, page.length ≤ size) ∧ pages.flatten = rows

section Paged

variable {size : Nat} {rows page : List Row} {answers : List (Option (List Row))}

/-- If there is no page then there are no rows. -/
theorem Paged.rows_eq_nil (h : Paged size rows (none :: answers)) : rows = [] := by
  obtain ⟨_ | ⟨page, pages⟩, ends, hanswers, -, -, hrows⟩ := h
  · exact hrows.symm
  · cases hanswers

theorem paged_cons : Paged size rows (some page :: answers) ↔
    page.length ≤ size ∧ ∃ rest, rows = page ++ rest ∧ Paged size rest answers := by
  constructor
  · rintro ⟨_ | ⟨page', pages⟩, ends, hanswers, hends, hpages, rfl⟩
    · cases ends <;> cases hanswers
    · obtain ⟨hpage, hrest⟩ := List.cons.inj hanswers
      cases hpage
      obtain ⟨hsize, hpages⟩ := List.forall_mem_cons.mp hpages
      exact ⟨hsize, pages.flatten, rfl, pages, ends, hrest, hends, hpages, rfl⟩
  · rintro ⟨hsize, rest, rfl, pages, ends, rfl, hends, hpages, rfl⟩
    exact ⟨page :: pages, ends, rfl, hends, List.forall_mem_cons.mpr ⟨hsize, hpages⟩, rfl⟩

theorem paged_replicate {ends : Nat} (h : ends ≠ 0) : Paged size [] (List.replicate ends none) :=
  ⟨[], ends, rfl, h, nofun, rfl⟩

end Paged

/-! ## Turns -/

/-- The rows of a window of a UNION ALL: those of the query alone, and then those of its members. -/
def Query.unionWindowOf (own others : List Row) (q : Query) : List Row :=
  q.windowOf own ++ others

namespace Batch

variable {b : Batch} {read : Query → List Row} {own others : List Row} {q : Query}

/-- The batch has come to its end: it is done, or its limit is used up. -/
def Spent (b : Batch) : Prop :=
  b.isDone = true ∨ b.remaining = some 0

theorem turn_spent (h : b.Spent) : (b.turn read).1 = none ∧ (b.turn read).2.Spent := by
  rw [turn_eq]
  split
  · exact ⟨rfl, h⟩
  · next hlive =>
    have hzero : b.remaining = some 0 := h.resolve_left fun hdone => hlive (by rw [hdone]; rfl)
    rw [if_pos hzero]
    exact ⟨rfl, .inl rfl⟩

theorem turns_spent : ∀ {b : Batch} (n : Nat), b.Spent →
    (turns (turn read) n b).1 = List.replicate n none
  | _, 0, _ => rfl
  | _, n + 1, h => by
    obtain ⟨hnone, hspent⟩ := turn_spent h
    rw [turns, hnone, turns_spent n hspent]
    rfl

/-- A page of a union whose other members have rows has all of these. -/
theorem turn_union (own : List Row) (hothers : others ≠ [])
    (hlive : b.query.emulateExecution = false) (hmore : ¬ b.Spent) : ∃ page,
      page = (capped b.remaining (own.drop b.nextOffset)).take b.size ++ others ∧
        b.turn (Query.unionWindowOf own others) = (some page, b.advance page.length) := by
  have hpage : Query.unionWindowOf own others b.page =
      (capped b.remaining (own.drop b.nextOffset)).take b.size ++ others :=
    congrArg (· ++ others) (windowOf_page b own)
  have hsome : (Query.unionWindowOf own others b.page).isEmpty = false := by
    rw [hpage]
    simp [hothers]
  have hdone : b.isDone = false := Bool.eq_false_iff.mpr fun hdone => hmore (.inl hdone)
  refine ⟨_, hpage, ?_⟩
  rw [turn_eq, hdone, hlive, if_neg (by decide), if_neg fun hzero => hmore (.inr hzero), hsome]
  rfl

theorem spent_advance_iff {size fetched : Nat} : ((Batch.ofQuery q size).advance fetched).Spent ↔
    fetched < max size 1 ∨ ∃ limit ∈ q.limit, limit ≤ fetched := by
  unfold Spent advance take ofQuery
  cases q.limit with
  | none => simp
  | some limit =>
    simp only [Option.map_some, Option.mem_def, Option.some.injEq, decide_eq_true_eq,
      exists_eq_left']
    omega

/-- A union whose other members have no rows is read in pages. -/
theorem turns_paged (hemulate : q.emulateExecution = false) (size : Nat)
    (hplace : q.offset.getD 0 + (q.rowsOf own).length < twoPow 64) {n : Nat}
    (hn : (q.rowsOf own).length < n) :
    Paged (max size 1) (q.rowsOf own) (turns (turn (Query.windowOf own)) n (.ofQuery q size)).1 := by
  obtain ⟨pages, ends, hanswers, hpages, -, hends, hlast⟩ :=
    turns_stands n (stands_ofQuery hemulate size hplace)
  exact ⟨pages, ends, hanswers, hlast hn, fun page hpage => (hpages page hpage).2,
    (hends (hlast hn)).1⟩

/-- A union whose other members have rows is read in pages only if the first page has everything, and
nothing is asked for after it. -/
theorem turns_union_iff (hothers : others ≠ []) (hemulate : q.emulateExecution = false) (size : Nat)
    {n : Nat} (hn : (q.rowsOf own ++ others).length < n) :
    Paged (max size 1) (q.rowsOf own ++ others)
        (turns (turn (Query.unionWindowOf own others)) n (.ofQuery q size)).1 ↔
      q.limit ≠ some 0 ∧ (q.rowsOf own ++ others).length ≤ max size 1 ∧
        ((q.rowsOf own ++ others).length < max size 1 ∨
          ∃ limit ∈ q.limit, limit ≤ (q.rowsOf own ++ others).length) := by
  have hsome : 0 < others.length := List.length_pos_iff.mpr hothers
  rw [List.length_append] at hn ⊢
  obtain ⟨n, rfl⟩ : ∃ m, n = m + 2 := ⟨n - 2, by omega⟩
  by_cases hzero : q.limit = some 0
  · -- Nothing is read at all, but there are the rows of the other members.
    rw [turns, (turn_spent (.inr hzero)).1]
    refine ⟨fun h => ?_, fun h => absurd hzero h.1⟩
    exact absurd (List.append_eq_nil_iff.mp h.rows_eq_nil).2 hothers
  · have hlive : ¬ (Batch.ofQuery q size).Spent := by simp [Spent, ofQuery, hzero]
    obtain ⟨page, hpage, hturn⟩ := turn_union own hothers hemulate hlive
    replace hpage : page = (q.rowsOf own).take (max size 1) ++ others := hpage
    have hlength : page.length = min (max size 1) (q.rowsOf own).length + others.length := by
      rw [hpage, List.length_append, List.length_take]
    have hall : page.length ≤ max size 1 → page = q.rowsOf own ++ others := fun hle => by
      rw [hpage, List.take_of_length_le (by omega)]
    rw [turns, hturn, paged_cons, ← List.length_append]
    constructor
    · rintro ⟨hle, rest, hrows, hrest⟩
      have hpage := hall hle
      rw [hpage] at hle hrows hrest
      obtain rfl : rest = [] := List.append_right_eq_self.mp hrows.symm
      refine ⟨hzero, hle, spent_advance_iff.mp (Classical.byContradiction fun hmore => ?_)⟩
      obtain ⟨page', hpage', hturn'⟩ := turn_union own hothers hemulate hmore
      rw [turns, hturn'] at hrest
      obtain ⟨-, rest', hrest', -⟩ := paged_cons.mp hrest
      have hnil := (List.append_eq_nil_iff.mp hrest'.symm).1
      rw [hpage'] at hnil
      exact hothers (List.append_eq_nil_iff.mp hnil).2
    · rintro ⟨-, hle, hend⟩
      rw [List.length_append] at hle
      have hpage := hall (by omega)
      rw [hpage]
      refine ⟨by rwa [List.length_append], [], (List.append_nil _).symm, ?_⟩
      rw [turns_spent _ (spent_advance_iff.mpr hend)]
      exact paged_replicate (Nat.succ_ne_zero n)

/-- A batch without a limit, whose pages are no larger than what each of them has from the other
members of a union. -/
structure Endless (others : List Row) (b : Batch) : Prop where
  live : b.query.emulateExecution = false
  pending : b.isDone = false
  unlimited : b.remaining = none
  size_pos : 0 < b.size
  size_le : b.size ≤ others.length

theorem turn_endless (own : List Row) (h : b.Endless others) : ∃ page,
    (b.turn (Query.unionWindowOf own others)).1 = some page ∧ others <:+ page ∧
      (b.turn (Query.unionWindowOf own others)).2.Endless others := by
  have hothers : others ≠ [] := List.length_pos_iff.mp (Nat.lt_of_lt_of_le h.size_pos h.size_le)
  have hmore : ¬ b.Spent := by simp [Spent, h.pending, h.unlimited]
  obtain ⟨page, hpage, hturn⟩ := turn_union own hothers h.live hmore
  have hsuffix : others <:+ page := hpage ▸ List.suffix_append _ _
  have hfull : b.take ≤ page.length := by
    rw [take, h.unlimited]
    exact Nat.le_trans h.size_le hsuffix.length_le
  rw [hturn]
  refine ⟨page, rfl, hsuffix, h.live, ?_, ?_, h.size_pos, h.size_le⟩
  · exact decide_eq_false (Nat.not_lt.mpr hfull)
  · exact congrArg (Option.map _) h.unlimited

theorem turns_endless (own : List Row) : ∀ {b : Batch} (n : Nat), b.Endless others →
    ∀ answer ∈ (turns (turn (Query.unionWindowOf own others)) n b).1,
      ∃ page, answer = some page ∧ others <:+ page
  | _, 0, _ => nofun
  | _, n + 1, h => by
    obtain ⟨page, hpage, hsuffix, hendless⟩ := turn_endless own h
    refine List.forall_mem_cons.mpr ⟨⟨page, hpage, hsuffix⟩, ?_⟩
    exact turns_endless own n hendless

end Batch

/-! ## Sessions -/

namespace Client

open Run

variable {c : Client σ} {I : RunState σ → Prop} {q : Query} {own others : List Row}

theorem ListsUnion.reads (h : c.ListsUnion I q own others) (hunions : q.unions ≠ [])
    (hall : ∀ member ∈ q.unions, member.all = true) (hemulate : q.emulateExecution = false) :
    c.ReadsWindows I q (Query.unionWindowOf own others) :=
  h.all hunions hall hemulate

/-- Repeated calls read the pages of a UNION ALL. The calls that do not fail hand out the rows of the
whole union once, in pages of at most `size` rows and with an end, just in these cases: the other
members have no rows; or the first page has all rows, and is not full or comes up to the limit. -/
theorem unionPages_iff (c : Client σ) (I : RunState σ → Prop) (q : Query) (size : Nat)
    (own others : List Row) (hunions : q.unions ≠ [])
    (hall : ∀ member ∈ q.unions, member.all = true) (hemulate : q.emulateExecution = false)
    (hlists : c.ListsUnion I q own others)
    (hplace : others = [] → q.offset.getD 0 + (q.rowsOf own).length < twoPow 64) (n : Nat) :
    Meets (fun _ => False) I I (Run.calls c.nextPage n (.ofQuery q size)) fun r w => I w ∧
      r.1.length = n ∧ ((q.rowsOf own ++ others).length < (answered r.1).length →
        (Paged (max size 1) (q.rowsOf own ++ others) (answered r.1) ↔
          others = [] ∨ q.limit ≠ some 0 ∧ (q.rowsOf own ++ others).length ≤ max size 1 ∧
            ((q.rowsOf own ++ others).length < max size 1 ∨
              ∃ limit ∈ q.limit, limit ≤ (q.rowsOf own ++ others).length))) := by
  have hreads := hlists.reads hunions hall hemulate
  refine (nextPage_calls hreads size n).imp fun r w ⟨hlength, hturns, hI⟩ =>
    ⟨hI, hlength, fun hlt => ?_⟩
  have hanswers : answered r.1 = (turns (Batch.turn (Query.unionWindowOf own others))
      (answered r.1).length (.ofQuery q size)).1 := by rw [hturns]
  by_cases hothers : others = []
  · subst hothers
    have hread : Query.unionWindowOf own [] = Query.windowOf own :=
      funext fun q => List.append_nil (q.windowOf own)
    rw [List.append_nil] at hlt ⊢
    rw [hanswers, hread]
    exact ⟨fun _ => .inl rfl, fun _ => Batch.turns_paged hemulate size (hplace rfl) hlt⟩
  · rw [hanswers, Batch.turns_union_iff hothers hemulate size hlt]
    exact ⟨.inr, fun h => h.resolve_left hothers⟩

/-- The query of three rows, with one more row from another member of a UNION ALL. -/
def unionQuery : Query :=
  { seriesQuery with
    unions := [⟨{ Query.empty with tables := [⟨none, .name "more()"⟩] }, true⟩] }

def memberRows : List Row :=
  [⟨[("n", .int64 4)]⟩]

/-- A client of a server that answers two windows of the union. -/
def unionClient : Client Recorder :=
  listing (unionWindowText "SELECT * FROM series()" ["SELECT * FROM more()"])
    (fun limit offset => (seriesRows.drop offset).take limit ++ memberRows) [(3, 0), (3, 4)]

theorem unionQuery_text : (renderMemberQueries rehearsal.connection.compiler unionQuery.unions).into
    .empty = .ok (["SELECT * FROM more()"], .empty) := by
  simp only [unionQuery, Query.empty, renderMemberQueries, renderQuery, renderSelect, renderTables,
    renderTable, renderJoins, renderClause, renderGroups, renderOrders, renderUnions]
  rfl

theorem unionClient_lists :
    unionClient.ListsUnion (fun _ => True) unionQuery seriesRows memberRows :=
  listing_listsUnion [(3, 0), (3, 4)] rfl rfl (by decide) (by decide) seriesQuery_text
    unionQuery_text

/-- Five calls that are all answered do not read the four rows of the union in pages of three. -/
theorem unionClient_pages : ∃ r w,
    Run.calls unionClient.nextPage 5 (.ofQuery unionQuery 3) rehearsalState = (.done r, w) ∧
      ¬ Paged 3 (seriesRows ++ memberRows) (answered r.1) := by
  have hrun : (Run.calls unionClient.nextPage 5 (.ofQuery unionQuery 3) rehearsalState).1.any
      (fun r => decide ((answered r.1).length = 5)) = true := by decide +kernel
  obtain ⟨r, w, hr, hcount⟩ := Outcome.exists_of_any hrun
  have hpages := @unionPages_iff _ unionClient (fun _ => True) unionQuery 3 seriesRows memberRows
    nofun (by decide) rfl unionClient_lists nofun 5
  obtain ⟨-, -, hiff⟩ := hpages.done trivial hr
  have hmore : (unionQuery.rowsOf seriesRows ++ memberRows).length < (answered r.1).length := by
    rw [of_decide_eq_true hcount]
    decide
  refine ⟨r, w, hr, fun hpaged => ?_⟩
  rcases (hiff hmore).mp hpaged with hnone | ⟨-, hlength, -⟩
  · cases hnone
  · exact absurd hlength (by decide)

/-- Without a limit, a union whose other members have rows for a page is read without an end: each
call that does not fail hands out their rows again. -/
theorem unionPages_endless (hunions : q.unions ≠ []) (hall : ∀ member ∈ q.unions, member.all = true)
    (hemulate : q.emulateExecution = false) (hlists : c.ListsUnion I q own others) {size : Nat}
    (hlimit : q.limit = none) (hsize : max size 1 ≤ others.length) (n : Nat) :
    Meets (fun _ => False) I I (Run.calls c.nextPage n (.ofQuery q size)) fun r w => I w ∧
      ∀ answer ∈ answered r.1, ∃ page, answer = some page ∧ others <:+ page := by
  have hendless : (Batch.ofQuery q size).Endless others :=
    ⟨hemulate, rfl, hlimit, Nat.le_max_right size 1, hsize⟩
  refine (nextPage_calls (hlists.reads hunions hall hemulate) size n).imp fun r w h => ⟨h.2.2, ?_⟩
  have hanswers := Batch.turns_endless own (answered r.1).length hendless
  rwa [h.2.1] at hanswers

end Client

end QueryKit
