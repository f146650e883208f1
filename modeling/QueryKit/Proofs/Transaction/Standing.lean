import QueryKit.Proofs.Transaction.Savepoints
import QueryKit.Session.Event

/-!
# What a physical connection stands at

- `Standing`: whether a transaction is open on a connection, with its savepoints.
- `Journal.standing`: the standing that the statements on a connection have led to.
- `Standing.At level`: the standing that a session at a level relies on.
- `Moves sql level level'`: the statement takes a connection from one level to another
  (`moves_begin`, `moves_savepoint`, `moves_release`, …).
- `Journal.ReleasesIdle`, `Journal.DiscardsFailed`: what a journal must show of the connections that
  went back to their pools, and of statements that failed.
-/

namespace QueryKit

open Client (savepointName)

/-- The state of a physical connection, as far as its statements tell. -/
inductive Standing where
  /-- No transaction is open. -/
  | idle
  /-- A transaction is open. Its savepoints are `saved`; `nesting` are those of the levels that have
  not been ended. What is kept with a savepoint is the number of events before it. -/
  | opened (saved nesting : List (Savepoint Nat))
  /-- A statement failed or made no sense. -/
  | unknown

namespace Standing

/-- What a statement makes of a standing. -/
def after (replaces : Bool) (mark : Nat) : Standing → Control → Standing
  | idle, .begin => opened [] []
  | opened _ _, .commit => idle
  | opened _ _, .rollBack => idle
  | opened saved nesting, .savepoint name =>
    opened (Savepoint.set replaces name mark saved) (⟨name, mark⟩ :: nesting)
  | opened saved nesting, .release name =>
    match Savepoint.find? name saved with
    | some (_, rest) => opened rest nesting.tail
    | none => unknown
  | opened saved nesting, .rollBackTo name =>
    match Savepoint.find? name saved with
    | some (s, rest) => opened (s :: rest) nesting.tail
    | none => unknown
  | _, _ => unknown

/-- What a text makes of a standing, if it has run. -/
def told (replaces : Bool) (mark : Nat) (sql : String) (s : Standing) : Standing :=
  match Control.ofSql sql with
  | some control => s.after replaces mark control
  | none => s

/-- What a text makes of a standing, if it has failed or its answer is not known. -/
def lost (sql : String) (s : Standing) : Standing :=
  if (Control.ofSql sql).isSome then unknown else s

/-- The standing of the connection of a session that is at a level. -/
inductive At : Nat → Standing → Prop
  | idle : At 0 idle
  | opened {level : Nat} {saved nesting : List (Savepoint Nat)} :
    Nested level saved nesting → At level (opened saved nesting)

theorem At.eq_idle {s : Standing} (h : s.At 0) : s = .idle := by
  cases h with
  | idle => rfl
  | opened h => exact absurd h.pos (Nat.lt_irrefl 0)

theorem At.exists_nested {level : Nat} {s : Standing} (h : s.At (level + 1)) :
    ∃ saved nesting, s = .opened saved nesting ∧ Nested (level + 1) saved nesting := by
  cases h with
  | opened h => exact ⟨_, _, rfl, h⟩

theorem told_of_none {replaces : Bool} {mark : Nat} {sql : String} {s : Standing}
    (h : Control.ofSql sql = none) : s.told replaces mark sql = s := by
  rw [told, h]

theorem told_of_some {replaces : Bool} {mark : Nat} {sql : String} {s : Standing}
    {control : Control} (h : Control.ofSql sql = some control) :
    s.told replaces mark sql = s.after replaces mark control := by
  rw [told, h]

theorem lost_of_none {sql : String} {s : Standing} (h : Control.ofSql sql = none) :
    s.lost sql = s := by
  rw [lost, h]
  rfl

end Standing

open Standing

/-! ## Levels -/

/-- A statement that has run takes a connection from one level to another. -/
def Moves (sql : String) (level level' : Nat) : Prop :=
  ∀ replaces mark s, Standing.At level s → Standing.At level' (s.told replaces mark sql)

theorem moves_of_none {sql : String} (h : Control.ofSql sql = none) (level : Nat) :
    Moves sql level level := by
  intro replaces mark s hs
  rwa [told_of_none h]

theorem moves_begin (d : Dialect) : Moves d.beginSql 0 1 := by
  intro replaces mark s hs
  rw [told_of_some (Control.ofSql_beginSql d), hs.eq_idle]
  exact .opened .outermost

theorem moves_commit : Moves "COMMIT" 1 0 := by
  intro replaces mark s hs
  obtain ⟨saved, nesting, rfl, -⟩ := hs.exists_nested
  exact .idle

theorem moves_rollBack : Moves "ROLLBACK" 1 0 := by
  intro replaces mark s hs
  obtain ⟨saved, nesting, rfl, -⟩ := hs.exists_nested
  exact .idle

theorem moves_savepoint (level : Nat) :
    Moves ("SAVEPOINT " ++ savepointName (level + 1)) (level + 1) (level + 2) := by
  intro replaces mark s hs
  obtain ⟨saved, nesting, rfl, hnested⟩ := hs.exists_nested
  rw [told_of_some (Control.ofSql_savepoint _)]
  exact .opened (hnested.set replaces mark)

theorem moves_release (level : Nat) :
    Moves ("RELEASE SAVEPOINT " ++ savepointName (level + 1)) (level + 2) (level + 1) := by
  intro replaces mark s hs
  obtain ⟨saved, nesting, rfl, hnested⟩ := hs.exists_nested
  obtain ⟨s, outer, rest, rfl, hfind, -, hrest⟩ := hnested.find? (Nat.succ_pos level)
  rw [told_of_some (Control.ofSql_release _), after, hfind]
  exact .opened hrest

theorem moves_rollBackTo (level : Nat) :
    Moves ("ROLLBACK TO SAVEPOINT " ++ savepointName (level + 1)) (level + 2) (level + 1) := by
  intro replaces mark s hs
  obtain ⟨saved, nesting, rfl, hnested⟩ := hs.exists_nested
  obtain ⟨s, outer, rest, rfl, hfind, hname, hrest⟩ := hnested.find? (Nat.succ_pos level)
  rw [told_of_some (Control.ofSql_rollBackTo _), after, hfind]
  exact .opened (hrest.stale hname)

/-! ## Journals -/

/-- What an event makes of the standing of a connection. -/
def Event.leave (replaces : Bool) (link : Link) (mark : Nat) (s : Standing) : Event → Standing
  | .sent l sql _ ending =>
    if l = link then if ending = .done then s.told replaces mark sql else s.lost sql else s
  | _ => s

/-- An event by which no statement is sent. -/
def Event.IsSilent : Event → Prop
  | .sent _ _ _ _ => False
  | _ => True

namespace Journal

variable {replaces : Bool} {j : Journal} {link : Link} {e : Event}

/-- The standing of a connection. -/
def standing (replaces : Bool) : Journal → Link → Standing
  | [], _ => .idle
  | e :: j, link => e.leave replaces link j.length (standing replaces j link)

theorem standing_cons_of_isSilent (h : e.IsSilent) :
    standing replaces (e :: j) link = standing replaces j link := by
  cases e with
  | sent => exact h.elim
  | _ => rfl

theorem standing_sent_of_ne {l : Link} {sql : String} {values : List Value} {ending : Ending}
    (h : l ≠ link) : standing replaces (.sent l sql values ending :: j) link
      = standing replaces j link :=
  if_neg h

theorem standing_sent_of_none {l : Link} {sql : String} {values : List Value} {ending : Ending}
    (h : Control.ofSql sql = none) : standing replaces (.sent l sql values ending :: j) link
      = standing replaces j link := by
  rw [standing, Event.leave, told_of_none h, lost_of_none h, ite_self, ite_self]

theorem standing_sent_done {sql : String} {values : List Value} :
    standing replaces (.sent link sql values .done :: j) link
      = (standing replaces j link).told replaces j.length sql := by
  rw [standing, Event.leave, if_pos rfl, if_pos rfl]

/-- A connection of which no statement is in the journal has no open transaction. -/
theorem standing_of_unsent (h : ∀ sql values ending, Event.sent link sql values ending ∉ j) :
    standing replaces j link = .idle := by
  induction j with
  | nil => rfl
  | cons e j ih =>
    have hj := ih fun sql values ending hmem => h sql values ending (List.mem_cons_of_mem e hmem)
    cases e with
    | sent l sql values ending =>
      have hne : l ≠ link := by
        rintro rfl
        exact h sql values ending List.mem_cons_self
      rw [standing_sent_of_ne hne, hj]
    | _ => exact hj

/-- No connection on which a transaction is open was given back to its pool. -/
def ReleasesIdle (replaces : Bool) (j : Journal) : Prop :=
  ∀ link earlier, .released link :: earlier <:+ j → standing replaces earlier link = .idle

/-- A connection on which a statement of a transaction failed was closed at once. -/
def DiscardsFailed (j : Journal) : Prop :=
  ∀ link sql values earlier, .sent link sql values .failed :: earlier <:+ j →
    (Control.ofSql sql).isSome → .discarded link :: .sent link sql values .failed :: earlier <:+ j

theorem ReleasesIdle.nil : ReleasesIdle replaces [] := by
  intro link earlier h
  cases List.suffix_nil.mp h

theorem ReleasesIdle.cons (h : ReleasesIdle replaces j)
    (he : ∀ link, e = .released link → standing replaces j link = .idle) :
    ReleasesIdle replaces (e :: j) := by
  intro link earlier hsuffix
  rcases List.suffix_cons_iff.mp hsuffix with heq | hsuffix
  · cases heq
    exact he link rfl
  · exact h link earlier hsuffix

theorem DiscardsFailed.nil : DiscardsFailed [] := by
  intro link sql values earlier h
  cases List.suffix_nil.mp h

theorem DiscardsFailed.cons (h : DiscardsFailed j)
    (he : ∀ link sql values, e = .sent link sql values .failed → Control.ofSql sql = none) :
    DiscardsFailed (e :: j) := by
  intro link sql values earlier hsuffix hsome
  rcases List.suffix_cons_iff.mp hsuffix with heq | hsuffix
  · cases heq
    rw [he link sql values rfl] at hsome
    cases hsome
  · exact (h link sql values earlier hsuffix hsome).trans (List.suffix_cons e j)

theorem DiscardsFailed.discard (h : DiscardsFailed j) (link : Link) (sql : String)
    (values : List Value) :
    DiscardsFailed (.discarded link :: .sent link sql values .failed :: j) := by
  intro l text vs earlier hsuffix hsome
  rcases List.suffix_cons_iff.mp hsuffix with heq | hsuffix
  · cases heq
  · rcases List.suffix_cons_iff.mp hsuffix with heq | hsuffix
    · cases heq
      exact List.suffix_refl _
    · refine (h l text vs earlier hsuffix hsome).trans ?_
      exact (List.suffix_cons _ _).trans (List.suffix_cons _ _)

end Journal

end QueryKit
