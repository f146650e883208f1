import QueryKit.Proofs.Fetch.Listing

/-!
# Reading in pages and row by row

- `Run.calls`: a reader that is called again and again. A call that fails leaves it as it is.
- `Batch.turn`, `Each.turn`: a call when a function reads the windows. If the servers read as it
  does, then repeated calls answer as repeated turns do, but for those that fail (`Run.calls_meets`).
- `Batch.Stands`, `Each.Stands`: the rows that are still to come. A turn hands out the first of them
  and goes past these (`Batch.turn_stands`, `Each.turn_stands`).
- `Client.reads_rows`: pages and single rows of a query without UNION.
-/

namespace QueryKit

variable {σ α β : Type}

/-! ## Repeated calls -/

/-- Call a reader a number of times. A call that fails leaves it as it is. -/
def Run.calls (next : β → Run σ (α × β)) : Nat → β → Run σ (List (Result α) × β)
  | 0, b => return ([], b)
  | n + 1, b => do
    match ← (next b).attempt with
    | .ok (a, b) =>
      let (rest, b) ← calls next n b
      return (.ok a :: rest, b)
    | .error e =>
      let (rest, b) ← calls next n b
      return (.error e :: rest, b)

/-- The answers of the calls that did not fail. -/
def answered (calls : List (Result α)) : List α :=
  calls.filterMap Except.toOption

/-- Repeat a turn, which does not fail. -/
def turns (turn : β → α × β) : Nat → β → List α × β
  | 0, b => ([], b)
  | n + 1, b => ((turn b).1 :: (turns turn n (turn b).2).1, (turns turn n (turn b).2).2)

/-- Repeated calls answer as repeated turns do. `K` holds of the reader all along. -/
theorem Run.calls_meets {next : β → Run σ (α × β)} {turn : β → α × β} {I : RunState σ → Prop}
    {K : β → Prop} (hnext : ∀ b, K b → Meets I I I (next b) fun r w => r = turn b ∧ I w)
    (hK : ∀ b, K b → K (turn b).2) : ∀ (n : Nat) (b : β), K b →
      Meets (fun _ => False) I I (Run.calls next n b) fun r w => r.1.length = n ∧
        turns turn (answered r.1).length b = (answered r.1, r.2) ∧ I w
  | 0, _, _ => .pure fun _ hI => ⟨rfl, rfl, hI⟩
  | n + 1, b, hb => by
    refine (hnext b hb).attempt.bind fun r => ?_
    cases r with
    | ok r =>
      refine .of_fact fun hr => ?_
      have hb' : K r.2 := hr ▸ hK b hb
      refine (calls_meets hnext hK n r.2 hb').bind fun rest => .pure fun w h => ?_
      refine ⟨congrArg Nat.succ h.1, ?_, h.2.2⟩
      change turns turn ((answered rest.1).length + 1) b = (r.1 :: answered rest.1, rest.2)
      rw [turns, ← hr, h.2.1]
    | error e =>
      refine (calls_meets hnext hK n b hb).bind fun rest => .pure fun w h => ?_
      exact ⟨congrArg Nat.succ h.1, h.2⟩

/-! ## Pages -/

/-- As many rows as a limit allows. -/
def capped : Option Nat → List Row → List Row
  | none, rows => rows
  | some limit, rows => rows.take limit

namespace Query

/-- The rows of a query: those from its offset on, as many as its limit allows. -/
def rowsOf (q : Query) (rows : List Row) : List Row :=
  capped q.limit (rows.drop (q.offset.getD 0))

/-- The rows of a query with a limit. -/
def windowOf (rows : List Row) (q : Query) : List Row :=
  (rows.drop (q.offset.getD 0)).take (q.limit.getD 0)

end Query

namespace Batch

variable {b : Batch} {read : Query → List Row} {rows left : List Row} {size : Nat}

/-- The next page when a function reads the windows, and the batch after it. -/
def turn (read : Query → List Row) (b : Batch) : Option (List Row) × Batch :=
  Id.run (b.next fun q => (read q : Id (List Row)))

theorem turn_eq : b.turn read =
    if (b.isDone || b.query.emulateExecution) = true then (none, b)
    else if b.remaining = some 0 then (none, { b with isDone := true })
    else (if (read b.page).isEmpty then none else some (read b.page),
      b.advance (read b.page).length) := by
  unfold turn next
  split
  · rfl
  · split <;> rfl

theorem turn_query : (b.turn read).2.query = b.query := by
  rw [turn_eq]
  split
  · rfl
  · split <;> rfl

theorem turn_done (h : b.isDone = true) : b.turn read = (none, b) := by
  rw [turn_eq, h]
  rfl

/-- A batch that is done has nothing more to hand out. -/
theorem turns_done (h : b.isDone = true) : ∀ n : Nat,
    turns (turn read) n b = (List.replicate n none, b)
  | 0 => rfl
  | n + 1 => by rw [turns, turn_done h, turns_done h n]; rfl

/-- The rows `left` of a list are those that the batch has still to read. -/
structure Stands (rows : List Row) (size : Nat) (left : List Row) (b : Batch) : Prop where
  live : b.query.emulateExecution = false
  size_eq : b.size = size
  size_pos : 0 < size
  ended : b.isDone = true → left = []
  window : b.isDone = false → left = capped b.remaining (rows.drop b.nextOffset)
  place : b.nextOffset + left.length < twoPow 64

theorem stands_ofQuery {q : Query} (hemulate : q.emulateExecution = false) (size : Nat)
    (hplace : q.offset.getD 0 + (q.rowsOf rows).length < twoPow 64) :
    Stands rows (max size 1) (q.rowsOf rows) (.ofQuery q size) where
  live := hemulate
  size_eq := rfl
  size_pos := by omega
  ended := nofun
  window _ := rfl
  place := hplace

/-- What the next page asks for is the first of the rows that are left. -/
theorem windowOf_page (b : Batch) (rows : List Row) :
    Query.windowOf rows b.page = (capped b.remaining (rows.drop b.nextOffset)).take b.size := by
  change (rows.drop b.nextOffset).take b.take = _
  unfold take
  cases b.remaining with
  | none => rfl
  | some limit => rw [capped, List.take_take, Nat.min_comm]

/-- What is left after some of the rows. -/
theorem capped_drop (remaining : Option Nat) (offset fetched : Nat) (rows : List Row) :
    capped (remaining.map (· - fetched)) (rows.drop (offset + fetched)) =
      (capped remaining (rows.drop offset)).drop fetched := by
  cases remaining with
  | none => rw [Option.map_none, capped, capped, List.drop_drop]
  | some limit => rw [Option.map_some, capped, capped, List.drop_take, List.drop_drop]

/-- A turn hands out the first rows that are left, or nothing if there are none. -/
theorem turn_stands (h : Stands rows size left b) :
    (b.turn (Query.windowOf rows)).1 = (if left.isEmpty then none else some (left.take size)) ∧
      Stands rows size (left.drop size) (b.turn (Query.windowOf rows)).2 ∧
      (left = [] → (b.turn (Query.windowOf rows)).2.isDone = true) := by
  cases hdone : b.isDone with
  | true =>
    have hleft := h.ended hdone
    subst hleft
    rw [turn_done hdone, List.drop_nil]
    exact ⟨rfl, h, fun _ => hdone⟩
  | false =>
    have hleft := h.window hdone
    have hlive : ¬ (b.isDone || b.query.emulateExecution) = true := by simp [hdone, h.live]
    rw [turn_eq, if_neg hlive]
    split
    · next hzero =>
      rw [hzero, capped, List.take_zero] at hleft
      subst hleft
      rw [List.drop_nil]
      exact ⟨rfl, ⟨h.live, h.size_eq, h.size_pos, fun _ => rfl, nofun, h.place⟩, fun _ => rfl⟩
    · next hmore =>
      have hpage : Query.windowOf rows b.page = left.take size := by
        rw [windowOf_page, ← hleft, h.size_eq]
      have hfetched : (left.take size).length = min size left.length := List.length_take
      have hdrop : left.drop (min size left.length) = left.drop size := by
        rcases Nat.le_total size left.length with hle | hle
        · rw [Nat.min_eq_left hle]
        · rw [Nat.min_eq_right hle, List.drop_length, List.drop_eq_nil_of_le hle]
      have htake : b.take ≤ size := by
        rw [take, h.size_eq]
        split <;> omega
      have hpos := h.size_pos
      have hplace := h.place
      rw [hpage]
      refine ⟨?_, ⟨h.live, h.size_eq, h.size_pos, fun hended => ?_, fun _ => ?_, ?_⟩, ?_⟩
      · have hempty : (left.take size).isEmpty = left.isEmpty := by
          cases left with
          | nil => rw [List.take_nil]
          | cons row left =>
            obtain ⟨n, rfl⟩ := Nat.exists_eq_succ_of_ne_zero (Nat.ne_of_gt hpos)
            rfl
        rw [hempty]
      · have hshort : (left.take size).length < b.take := of_decide_eq_true hended
        exact List.drop_eq_nil_of_le (by omega)
      · change left.drop size = capped (b.remaining.map (· - (left.take size).length))
          (rows.drop ((b.nextOffset + (left.take size).length) % twoPow 64))
        rw [Nat.mod_eq_of_lt (by omega), capped_drop, ← hleft, hfetched, hdrop]
      · change (b.nextOffset + (left.take size).length) % twoPow 64 + (left.drop size).length < _
        rw [Nat.mod_eq_of_lt (by omega), hfetched, List.length_drop]
        omega
      · rintro rfl
        have hasked : 0 < b.take := by
          rw [take, h.size_eq]
          cases hremaining : b.remaining with
          | none => exact hpos
          | some limit =>
            have hlimit : limit ≠ 0 := fun hzero => hmore (hremaining.trans (congrArg some hzero))
            exact Nat.lt_min.mpr ⟨Nat.pos_of_ne_zero hlimit, hpos⟩
        rw [List.take_nil]
        exact decide_eq_true hasked

/-- The answers of repeated turns: pages of the rows, and nothing after them. -/
theorem turns_stands : ∀ {left : List Row} {b : Batch} (n : Nat), Stands rows size left b →
    ∃ (pages : List (List Row)) (ends : Nat), (turns (turn (Query.windowOf rows)) n b).1 =
        pages.map some ++ List.replicate ends none ∧
      (∀ page ∈ pages, page ≠ [] ∧ page.length ≤ size) ∧ pages.flatten <+: left ∧
      (ends ≠ 0 → pages.flatten = left ∧
        (turns (turn (Query.windowOf rows)) n b).2.isDone = true) ∧
      (left.length < n → ends ≠ 0)
  | left, b, 0, _ =>
    ⟨[], 0, rfl, nofun, List.nil_prefix, fun h => absurd rfl h,
      fun h => absurd h (Nat.not_lt_zero _)⟩
  | left, b, n + 1, h => by
    obtain ⟨hpage, hstands, hended⟩ := turn_stands h
    by_cases hleft : left = []
    · have hdone := hended hleft
      subst hleft
      refine ⟨[], n + 1, ?_, nofun, List.nil_prefix, fun _ => ⟨rfl, ?_⟩, fun _ => Nat.succ_ne_zero n⟩
      · rw [turns, hpage, turns_done hdone]
        rfl
      · rw [turns, turns_done hdone]
        exact hdone
    · obtain ⟨pages, ends, hanswers, hpages, hrows, hends, hlast⟩ := turns_stands n hstands
      have hpos := h.size_pos
      have hlength := List.length_pos_iff.mpr hleft
      have hsome : left.isEmpty = false := by simpa using hleft
      have hparts : left.take size ++ left.drop size = left := List.take_append_drop size left
      refine ⟨left.take size :: pages, ends, ?_, ?_, ?_, fun hne => ⟨?_, (hends hne).2⟩,
        fun hlt => ?_⟩
      · rw [turns, hpage, hanswers, hsome]
        rfl
      · refine List.forall_mem_cons.mpr ⟨⟨fun hnil => ?_, List.length_take_le _ _⟩, hpages⟩
        have hzero := congrArg List.length hnil
        rw [List.length_take, List.length_nil] at hzero
        omega
      · have hboth := (List.prefix_append_right_inj (left.take size)).mpr hrows
        rwa [hparts] at hboth
      · rw [List.flatten_cons, (hends hne).1, hparts]
      · refine hlast ?_
        rw [List.length_drop]
        omega

end Batch

/-! ## Single rows -/

namespace Each

variable {e : Each} {read : Query → List Row} {rows left : List Row} {size : Nat}

/-- The next row when a function reads the windows, and the reader after it. -/
def turn (read : Query → List Row) (e : Each) : Option Row × Each :=
  Id.run (e.next fun q => (read q : Id (List Row)))

/-- The rows `left` of a list are those that are kept and those that the batch has still to read. -/
def Stands (rows : List Row) (size : Nat) (left : List Row) (e : Each) : Prop :=
  ∃ more, left = e.buffer ++ more ∧ e.batch.Stands rows size more

/-- The reader has come to the end. -/
def Ended (e : Each) : Prop :=
  e.batch.isDone = true ∧ e.buffer = []

theorem turn_cons {row : Row} {buffer : List Row} (h : e.buffer = row :: buffer) :
    e.turn read = (some row, { e with buffer }) := by
  unfold turn next
  rw [h]
  rfl

theorem turn_nil (h : e.buffer = []) : e.turn read =
    match e.batch.turn read with
    | (some (row :: buffer), batch) => (some row, ⟨batch, buffer⟩)
    | (_, batch) => (none, ⟨batch, []⟩) := by
  unfold turn next
  rw [h]
  rfl

theorem turn_query : (e.turn read).2.batch.query = e.batch.query := by
  cases hbuffer : e.buffer with
  | cons row buffer => rw [turn_cons hbuffer]
  | nil =>
    have hquery : (e.batch.turn read).2.query = e.batch.query := Batch.turn_query
    rw [turn_nil hbuffer, ← hquery]
    split <;> next h => rw [h]

/-- A turn hands out the first row that is left, or nothing if there is none. -/
theorem turn_stands (h : Stands rows size left e) :
    (e.turn (Query.windowOf rows)).1 = left.head? ∧
      Stands rows size left.tail (e.turn (Query.windowOf rows)).2 ∧
      (left = [] → (e.turn (Query.windowOf rows)).2.Ended) := by
  obtain ⟨more, rfl, hmore⟩ := h
  cases hbuffer : e.buffer with
  | cons row buffer =>
    rw [turn_cons hbuffer]
    exact ⟨rfl, ⟨more, rfl, hmore⟩, nofun⟩
  | nil =>
    obtain ⟨hpage, hstands, hended⟩ := Batch.turn_stands hmore
    rw [turn_nil hbuffer]
    rcases hturn : e.batch.turn (Query.windowOf rows) with ⟨page, batch⟩
    rw [hturn] at hpage hstands hended
    cases more with
    | nil =>
      cases hpage
      exact ⟨rfl, ⟨[], rfl, by simpa using hstands⟩, fun _ => ⟨hended rfl, rfl⟩⟩
    | cons row more =>
      obtain ⟨k, rfl⟩ := Nat.exists_eq_succ_of_ne_zero (Nat.ne_of_gt hmore.size_pos)
      cases hpage
      refine ⟨rfl, ⟨more.drop k, ?_, hstands⟩, nofun⟩
      exact (List.take_append_drop k more).symm

theorem turn_ended (h : e.Ended) : e.turn read = (none, e) := by
  obtain ⟨hdone, hbuffer⟩ := h
  rw [turn_nil hbuffer, Batch.turn_done hdone, ← hbuffer]

theorem turns_ended (h : e.Ended) : ∀ n : Nat, turns (turn read) n e = (List.replicate n none, e)
  | 0 => rfl
  | n + 1 => by rw [turns, turn_ended h, turns_ended h n]; rfl

/-- The answers of repeated turns: the rows, and nothing after them. -/
theorem turns_stands : ∀ {left : List Row} {e : Each} (n : Nat), Stands rows size left e →
    (turns (turn (Query.windowOf rows)) n e).1 =
        (left.take n).map some ++ List.replicate (n - left.length) none ∧
      (left.length < n → (turns (turn (Query.windowOf rows)) n e).2.Ended)
  | left, e, 0, _ => by simp [turns]
  | left, e, n + 1, h => by
    obtain ⟨hrow, hstands, hended⟩ := turn_stands h
    cases left with
    | nil =>
      rw [turns, hrow, turns_ended (hended rfl)]
      exact ⟨rfl, fun _ => hended rfl⟩
    | cons row left =>
      obtain ⟨hrows, hlast⟩ := turns_stands n hstands
      rw [turns, hrow, hrows]
      refine ⟨?_, fun hlt => hlast (Nat.lt_of_succ_lt_succ hlt)⟩
      rw [List.length_cons, Nat.succ_sub_succ]
      rfl

end Each

/-! ## Sessions -/

namespace Client

open Run

variable {c : Client σ} {I : RunState σ → Prop} {q : Query} {b : Batch} {e : Each}
  {read : Query → List Row}

/-- The servers answer each window of a query as a function does, if they answer it. -/
def ReadsWindows (c : Client σ) (I : RunState σ → Prop) (q : Query)
    (read : Query → List Row) : Prop :=
  ∀ limit offset, Meets I I I (c.all (q.window limit offset))
    fun rows w => rows = read (q.window limit offset) ∧ I w

theorem nextPage_meets (h : c.ReadsWindows I q read) (hb : b.query = q) :
    Meets I I I (c.nextPage b) fun r w => r = b.turn read ∧ I w := by
  subst hb
  have hpage : Meets I I I (c.all b.page) fun rows w => rows = read b.page ∧ I w :=
    h b.take b.nextOffset
  unfold nextPage Batch.next
  rw [Batch.turn_eq]
  split
  · exact .pure fun _ hI => ⟨rfl, hI⟩
  · split
    · exact .pure fun _ hI => ⟨rfl, hI⟩
    · refine hpage.bind fun rows => .of_fact ?_
      rintro rfl
      exact .pure fun _ hI => ⟨rfl, hI⟩

theorem nextRow_meets (h : c.ReadsWindows I q read) (he : e.batch.query = q) :
    Meets I I I (c.nextRow e) fun r w => r = e.turn read ∧ I w := by
  unfold nextRow Each.next
  cases hbuffer : e.buffer with
  | cons row buffer =>
    rw [Each.turn_cons hbuffer]
    exact .pure fun _ hI => ⟨rfl, hI⟩
  | nil =>
    rw [Each.turn_nil hbuffer]
    refine Meets.bind (nextPage_meets h he) fun r => .of_fact fun hr => ?_
    rw [← hr]
    rcases r with ⟨_ | _ | ⟨row, buffer⟩, batch⟩
    · exact .pure fun _ hI => ⟨rfl, hI⟩
    · exact .pure fun _ hI => ⟨rfl, hI⟩
    · exact .pure fun _ hI => ⟨rfl, hI⟩

/-- Repeated calls for pages answer as repeated turns do. -/
theorem nextPage_calls (h : c.ReadsWindows I q read) (size n : Nat) :
    Meets (fun _ => False) I I (Run.calls c.nextPage n (.ofQuery q size)) fun r w =>
      r.1.length = n ∧ turns (Batch.turn read) (answered r.1).length (.ofQuery q size) =
        (answered r.1, r.2) ∧ I w :=
  Run.calls_meets (K := fun b => b.query = q) (fun _ hb => nextPage_meets h hb)
    (fun _ hb => Batch.turn_query.trans hb) n (.ofQuery q size) rfl

/-- Repeated calls for rows answer as repeated turns do. -/
theorem nextRow_calls (h : c.ReadsWindows I q read) (size n : Nat) :
    Meets (fun _ => False) I I (Run.calls c.nextRow n (.ofQuery q size)) fun r w =>
      r.1.length = n ∧ turns (Each.turn read) (answered r.1).length (.ofQuery q size) =
        (answered r.1, r.2) ∧ I w :=
  Run.calls_meets (K := fun e => e.batch.query = q) (fun _ he => nextRow_meets h he)
    (fun _ he => Each.turn_query.trans he) n (.ofQuery q size) rfl

/-- A batch that is done answers without asking the servers. -/
theorem nextPage_done (h : b.isDone = true) (w : RunState σ) :
    c.nextPage b w = (.done (none, b), w) := by
  unfold nextPage Batch.next
  rw [h]
  rfl

theorem nextRow_ended (h : e.Ended) (w : RunState σ) : c.nextRow e w = (.done (none, e), w) := by
  obtain ⟨batch, buffer⟩ := e
  obtain ⟨hdone, rfl⟩ : batch.isDone = true ∧ buffer = [] := h
  change Run.bind (c.nextPage batch) _ w = _
  rw [Run.bind, nextPage_done hdone]
  rfl

/-- Repeated calls read a list that the servers have, from the offset of the query to the end or to
its limit, page by page or row by row. Calls may fail; those that do are left out of `answered`, and
the others answer as if there had been no failure. Pages are not empty and have at most `size` rows.
When there have been more answers than rows there is none left, and once that is so no call does
anything. -/
theorem reads_rows (c : Client σ) (I : RunState σ → Prop) (q : Query) (size : Nat)
    (rows : List Row) (hunions : q.unions = []) (hemulate : q.emulateExecution = false)
    (hlists : c.Lists I q rows)
    (hplace : q.offset.getD 0 + (q.rowsOf rows).length < twoPow 64) (n : Nat) :
    Meets (fun _ => False) I I (Run.calls c.nextPage n (.ofQuery q size)) (fun r w => I w ∧
      r.1.length = n ∧ ∃ (pages : List (List Row)) (ends : Nat),
        answered r.1 = pages.map some ++ List.replicate ends none ∧
        (∀ page ∈ pages, page ≠ [] ∧ page.length ≤ max size 1) ∧
        pages.flatten <+: q.rowsOf rows ∧
        (ends ≠ 0 → pages.flatten = q.rowsOf rows ∧
          ∀ w', c.nextPage r.2 w' = (.done (none, r.2), w')) ∧
        ((q.rowsOf rows).length < (answered r.1).length → ends ≠ 0)) ∧
    Meets (fun _ => False) I I (Run.calls c.nextRow n (.ofQuery q size)) (fun r w => I w ∧
      r.1.length = n ∧ answered r.1 = ((q.rowsOf rows).take (answered r.1).length).map some ++
        List.replicate ((answered r.1).length - (q.rowsOf rows).length) none ∧
      ((q.rowsOf rows).length < (answered r.1).length →
        ∀ w', c.nextRow r.2 w' = (.done (none, r.2), w'))) := by
  have hreads : c.ReadsWindows I q (Query.windowOf rows) := hlists.all hunions hemulate
  have hstands := Batch.stands_ofQuery hemulate size hplace
  constructor
  · refine (nextPage_calls hreads size n).imp fun r w ⟨hlength, hturns, hI⟩ => ⟨hI, hlength, ?_⟩
    obtain ⟨pages, ends, hanswers, hpages, hrows, hends, hlast⟩ :=
      Batch.turns_stands (answered r.1).length hstands
    rw [hturns] at hanswers hends
    exact ⟨pages, ends, hanswers, hpages, hrows,
      fun hne => ⟨(hends hne).1, nextPage_done (hends hne).2⟩, hlast⟩
  · refine (nextRow_calls hreads size n).imp fun r w ⟨hlength, hturns, hI⟩ => ⟨hI, hlength, ?_⟩
    obtain ⟨hanswers, hlast⟩ :=
      Each.turns_stands (e := .ofQuery q size) (answered r.1).length ⟨_, rfl, hstands⟩
    rw [hturns] at hanswers hlast
    exact ⟨hanswers, fun hlt => nextRow_ended (hlast hlt)⟩

/-- A query of three rows. -/
def seriesQuery : Query :=
  { Query.empty with tables := [⟨none, .name "series()"⟩] }

def seriesRows : List Row :=
  [⟨[("n", .int64 1)]⟩, ⟨[("n", .int64 2)]⟩, ⟨[("n", .int64 3)]⟩]

/-- A client of a server that has these rows and fails for all windows but two. -/
def seriesClient : Client Recorder :=
  listing (windowText "SELECT * FROM series()")
    (fun limit offset => (seriesRows.drop offset).take limit) [(2, 0), (2, 2)]

theorem seriesQuery_text : rehearsal.connection.compiler.build seriesQuery.operand .empty =
    .ok ("SELECT * FROM series()", .empty) := by
  simp only [Compiler.build, seriesQuery, Query.operand, Query.empty, renderQuery, renderSelect,
    renderTables, renderTable, renderJoins, renderClause, renderGroups, renderOrders, renderUnions]
  rfl

theorem seriesClient_lists : seriesClient.Lists (fun _ => True) seriesQuery seriesRows :=
  listing_lists [(2, 0), (2, 2)] rfl rfl (by decide) seriesQuery_text

/-- Four calls that are all answered read the series and then find no more rows. -/
theorem seriesClient_reads_rows :
    (∃ r w, ∃ (pages : List (List Row)) (ends : Nat),
      Run.calls seriesClient.nextPage 4 (.ofQuery seriesQuery 2) rehearsalState = (.done r, w) ∧
        answered r.1 = pages.map some ++ List.replicate ends none ∧
        (∀ page ∈ pages, page ≠ [] ∧ page.length ≤ 2) ∧ pages.flatten = seriesRows) ∧
    ∃ r w, Run.calls seriesClient.nextRow 4 (.ofQuery seriesQuery 2) rehearsalState = (.done r, w) ∧
      answered r.1 = seriesRows.map some ++ [none] := by
  obtain ⟨hpages, hrows⟩ := reads_rows seriesClient (fun _ => True) seriesQuery 2 seriesRows rfl rfl
    seriesClient_lists (by decide) 4
  have hpagesRun : (Run.calls seriesClient.nextPage 4 (.ofQuery seriesQuery 2) rehearsalState).1.any
      (fun r => decide ((answered r.1).length = 4)) = true := by decide +kernel
  have hrowsRun : (Run.calls seriesClient.nextRow 4 (.ofQuery seriesQuery 2) rehearsalState).1.any
      (fun r => decide ((answered r.1).length = 4)) = true := by decide +kernel
  obtain ⟨r, w, hr, hcount⟩ := Outcome.exists_of_any hpagesRun
  obtain ⟨r', w', hr', hcount'⟩ := Outcome.exists_of_any hrowsRun
  obtain ⟨-, -, pages, ends, hanswers, hpage, -, hends, hlast⟩ := hpages.done trivial hr
  obtain ⟨-, -, hanswers', -⟩ := hrows.done trivial hr'
  have hmore : seriesRows.length < (answered r.1).length := by
    rw [of_decide_eq_true hcount]
    decide
  rw [of_decide_eq_true hcount'] at hanswers'
  exact ⟨⟨r, w, pages, ends, hr, hanswers, hpage, (hends (hlast hmore)).1⟩, r', w', hr', hanswers'⟩

end Client

end QueryKit
