import QueryKit.Proofs.Transaction.Savepoints
import QueryKit.Session.Basic

/-!
# A server with savepoints

- `Server`: the data of a server with the transactions that are open on its connections;
  `Server.tell` is what a statement of a transaction does to it, if it makes sense.
- `Ideal`: a machine with nested transactions. It pushes a copy of the data when a level begins, and
  pops it, or goes back to it, when the level ends.
- `Server.Shows`: the server has the data of the ideal machine, and can go back to every copy that
  the machine keeps.
- `Carries sql m m'`: the statement takes a server from one ideal state to another
  (`carries_begin`, `carries_savepoint`, `carries_release`, …).
-/

namespace QueryKit

open Client (savepointName)

variable {D : Type}

/-! ## Servers -/

/-- What is kept for a level, with the number of levels that began before it. -/
structure Level (D : Type) where
  number : Nat
  kept : D

/-- What a server keeps for an open transaction. -/
structure Txn (D : Type) where
  /-- The data when it began. -/
  start : D
  saved : List (Savepoint (Level D))

/-- The data of a server and the transactions on its connections. -/
structure Server (D : Type) where
  data : D
  txns : Link → Option (Txn D)
  /-- How many transactions have begun and savepoints have been set. -/
  begun : Nat
  /-- The numbers of the savepoints that were released or returned to, the latest one first. -/
  ended : List Nat

namespace Server

/-- A server without open transactions. -/
def new (data : D) : Server D :=
  ⟨data, fun _ => none, 0, []⟩

/-- Replace the transaction of a connection. -/
def setTxn (s : Server D) (link : Link) (t : Option (Txn D)) : Server D :=
  { s with txns := fun l => if l = link then t else s.txns l }

/-- What a statement of a transaction does to a server; nothing comes back if it fails. -/
def tell (replaces : Bool) (link : Link) (s : Server D) : Control → Option (Server D)
  | .begin =>
    match s.txns link with
    | none => some { s.setTxn link (some ⟨s.data, []⟩) with begun := s.begun + 1 }
    | some _ => none
  | .commit => (s.txns link).map fun _ => s.setTxn link none
  | .rollBack => (s.txns link).map fun t => { s.setTxn link none with data := t.start }
  | .savepoint name => (s.txns link).map fun t =>
    { s.setTxn link (some
        { t with saved := Savepoint.set replaces name ⟨s.begun, s.data⟩ t.saved })
      with begun := s.begun + 1 }
  | .release name => do
    let t ← s.txns link
    let (p, rest) ← Savepoint.find? name t.saved
    return { s.setTxn link (some { t with saved := rest }) with ended := p.kept.number :: s.ended }
  | .rollBackTo name => do
    let t ← s.txns link
    let (p, rest) ← Savepoint.find? name t.saved
    return { s.setTxn link (some { t with saved := p :: rest }) with
      data := p.kept.kept
      ended := p.kept.number :: s.ended }

end Server

/-- What the statements of a server do that are not about transactions. Those that set an isolation
level change no data. -/
structure Engine (D : Type) where
  change : String → List Value → D → D
  executed : String → List Value → D → Executed
  rows : String → List Value → D → List Row
  schema : String → D → Option TableSchema
  /-- The failure of a statement that makes no sense. -/
  fault : String → Error
  isolation : ∀ dialect level sql, Dialect.isolationSql dialect level = .ok sql →
    ∀ data, change sql [] data = data

namespace Engine

/-- Run a statement. One of a transaction that makes no sense fails. -/
def execute (e : Engine D) (replaces : Bool) (link : Link) (sql : String) (values : List Value)
    (s : Server D) : Outcome Executed × Server D :=
  match Control.ofSql sql with
  | none => (.done (e.executed sql values s.data), { s with data := e.change sql values s.data })
  | some control =>
    match s.tell replaces link control with
    | some s' => (.done ⟨0, none⟩, s')
    | none => (.failed (e.fault sql), s)

/-- A server as a backend that can always be reached. -/
def backend (e : Engine D) (replaces : Bool) : Backend (Server D) where
  acquire _ s := (.done (), s)
  fetch _ sql values s := (.done (e.rows sql values s.data), s)
  execute := e.execute replaces
  tableSchema _ name s := (.done (e.schema name s.data), s)
  arrange pools s := (pools, s)
  arrange_perm pools _ := List.Perm.refl pools
  await _ s := (.abandoned, s)

end Engine

/-! ## Nested transactions -/

/-- A machine with nested transactions. -/
structure Ideal (D : Type) where
  data : D
  /-- The open levels, the innermost one first. -/
  stack : List (Level D)
  /-- How many levels have begun. -/
  begun : Nat
  /-- The numbers of the inner levels that have ended, the latest one first. -/
  ended : List Nat

namespace Ideal

def new (data : D) : Ideal D :=
  ⟨data, [], 0, []⟩

/-- A level begins. -/
def begin (m : Ideal D) : Ideal D :=
  { m with stack := ⟨m.begun, m.data⟩ :: m.stack, begun := m.begun + 1 }

/-- The innermost level ends; the data may go back to what it was when the level began. -/
def leave (restores : Bool) (m : Ideal D) : Ideal D :=
  match m.stack with
  | [] => m
  | level :: outer =>
    { m with
      data := if restores then level.kept else m.data
      stack := outer
      ended := if outer.isEmpty then m.ended else level.number :: m.ended }

theorem leave_length (m : Ideal D) (restores : Bool) :
    (m.leave restores).stack.length = m.stack.length - 1 := by
  rcases m with ⟨data, _ | ⟨level, outer⟩, begun, ended⟩ <;> rfl

theorem leave_eq_self {m : Ideal D} (h : m.stack = []) (restores : Bool) :
    m.leave restores = m := by
  rw [leave, h]

end Ideal

/-! ## Simulation -/

/-- A transaction can go back to each copy that is kept for an open level: to the outermost one by
its end, and to the others by the savepoints that they began with. -/
structure Txn.Holds (t : Txn D) (stack : List (Level D)) : Prop where
  intro ::
  levels : ∃ inner outermost nesting, stack = inner ++ [outermost] ∧ t.start = outermost.kept ∧
    nesting.map (·.kept) = inner ∧ Nested stack.length t.saved nesting

/-- The open transactions of a server: one on the connection of the session, if it has open levels.
-/
inductive Opened (txns : Link → Option (Txn D)) : Option Link → List (Level D) → Prop
  | none {master : Option Link} : (∀ l, txns l = none) → Opened txns master []
  | some {link : Link} {t : Txn D} {stack : List (Level D)} :
    txns link = some t → (∀ l, l ≠ link → txns l = none) → t.Holds stack →
      Opened txns (some link) stack

/-- A server shows the state of the ideal machine. -/
structure Server.Shows (s : Server D) (master : Option Link) (m : Ideal D) : Prop where
  data : s.data = m.data
  begun : s.begun = m.begun
  ended : s.ended = m.ended
  opened : Opened s.txns master m.stack

namespace Server

variable {s : Server D} {master : Option Link} {link : Link} {m : Ideal D}

theorem new_shows (data : D) (master : Option Link) : (Server.new data).Shows master (.new data) :=
  ⟨rfl, rfl, rfl, .none fun _ => rfl⟩

theorem Shows.txns_eq_none (h : s.Shows master m) (hstack : m.stack = []) (l : Link) :
    s.txns l = none := by
  have hopened := h.opened
  rw [hstack] at hopened
  cases hopened with
  | none hnone => exact hnone l
  | some _ _ hholds =>
    obtain ⟨inner, outermost, nesting, hnil, -⟩ := hholds.levels
    exact absurd hnil.symm (by simp)

/-- Without open levels it does not matter which connection the session holds. -/
theorem Shows.of_nil (h : s.Shows master m) (hstack : m.stack = []) (master' : Option Link) :
    s.Shows master' m := by
  refine ⟨h.data, h.begun, h.ended, ?_⟩
  rw [hstack]
  exact .none (h.txns_eq_none hstack)

/-- With open levels the session holds the connection of the transaction. -/
theorem Shows.exists_txn (h : s.Shows master m) (hstack : m.stack ≠ []) :
    ∃ link t, master = some link ∧ s.txns link = some t ∧ (∀ l, l ≠ link → s.txns l = none) ∧
      t.Holds m.stack := by
  have hopened := h.opened
  generalize m.stack = stack at hopened hstack
  cases hopened with
  | none => exact absurd rfl hstack
  | some ht hother hholds => exact ⟨_, _, rfl, ht, hother, hholds⟩

/-- Without a connection of the session there are no open levels. -/
theorem Shows.stack_eq_nil (h : s.Shows none m) : m.stack = [] := by
  have hopened := h.opened
  generalize m.stack = stack at hopened
  cases hopened
  rfl

/-- A change of the data leaves the transactions as they are. -/
theorem Shows.change (h : s.Shows master m) (data : D) :
    { s with data }.Shows master { m with data } :=
  ⟨rfl, h.begun, h.ended, h.opened⟩

end Server

namespace Txn.Holds

variable {t : Txn D} {stack : List (Level D)} {level : Nat}

/-- A transaction that has just begun. -/
theorem new (level : Level D) : Txn.Holds ⟨level.kept, []⟩ [level] :=
  ⟨[], level, [], rfl, rfl, rfl, .outermost⟩

/-- An inner level begins with a savepoint. -/
theorem set (h : t.Holds stack) (replaces : Bool) (l : Level D) :
    Txn.Holds { t with saved := Savepoint.set replaces (savepointName stack.length) l t.saved }
      (l :: stack) := by
  obtain ⟨inner, outermost, nesting, hstack, hstart, hnesting, hnested⟩ := h.levels
  refine ⟨l :: inner, outermost, ⟨savepointName stack.length, l⟩ :: nesting, congrArg _ hstack,
    hstart, congrArg _ hnesting, ?_⟩
  exact hnested.set replaces l

/-- An inner level ends: the savepoint that it began with is found, and deleted or kept. -/
theorem find? (h : t.Holds stack) (hlevel : stack.length = level + 2) :
    ∃ p rest outer, Savepoint.find? (savepointName (level + 1)) t.saved = some (p, rest) ∧
      stack = p.kept :: outer ∧ outer ≠ [] ∧
      Txn.Holds { t with saved := rest } outer ∧ Txn.Holds { t with saved := p :: rest } outer := by
  obtain ⟨inner, outermost, nesting, hstack, hstart, hnesting, hnested⟩ := h.levels
  rw [hlevel] at hnested
  obtain ⟨p, nesting', rest, rfl, hfind, hname, hrest⟩ := hnested.find? (Nat.succ_pos level)
  rw [List.map_cons] at hnesting
  subst hnesting
  have hlength : (nesting'.map (·.kept) ++ [outermost]).length = level + 1 := by
    rw [hstack] at hlevel
    simpa using hlevel
  refine ⟨p, rest, nesting'.map (·.kept) ++ [outermost], hfind, hstack, by simp, ?_, ?_⟩
  · refine ⟨_, outermost, nesting', rfl, hstart, rfl, ?_⟩
    rwa [hlength]
  · refine ⟨_, outermost, nesting', rfl, hstart, rfl, ?_⟩
    rw [hlength]
    exact hrest.stale hname

/-- The outermost level ends. -/
theorem singleton (h : t.Holds stack) (hlevel : stack.length = 1) :
    ∃ outermost, stack = [outermost] ∧ t.start = outermost.kept := by
  obtain ⟨inner, outermost, nesting, rfl, hstart, -, -⟩ := h.levels
  have hinner : inner = [] := by
    rw [List.length_append, List.length_singleton] at hlevel
    exact List.eq_nil_of_length_eq_zero (by omega)
  rw [hinner]
  exact ⟨outermost, rfl, hstart⟩

end Txn.Holds

/-! ## Statements -/

/-- A statement succeeds and takes a server from one state of the ideal machine to another. -/
def Carries (e : Engine D) (replaces : Bool) (sql : String) (m m' : Ideal D) : Prop :=
  ∀ link (s : Server D), s.Shows (some link) m → ∃ executed s',
    e.execute replaces link sql [] s = (.done executed, s') ∧ s'.Shows (some link) m'

variable {e : Engine D} {replaces : Bool} {m m' : Ideal D} {level : Nat}

theorem carries_of_tell {sql : String} {what : Control} (hsql : Control.ofSql sql = some what)
    (h : ∀ link (s : Server D), s.Shows (some link) m →
      ∃ s', s.tell replaces link what = some s' ∧ s'.Shows (some link) m') :
    Carries e replaces sql m m' := by
  intro link s hs
  obtain ⟨s', htell, hs'⟩ := h link s hs
  refine ⟨⟨0, none⟩, s', ?_, hs'⟩
  rw [Engine.execute, hsql]
  dsimp only
  rw [htell]

theorem carries_isolation {d : Dialect} {isolation : IsolationLevel} {sql : String}
    (h : d.isolationSql isolation = .ok sql) (m : Ideal D) : Carries e replaces sql m m := by
  intro link s hs
  refine ⟨e.executed sql [] s.data, s, ?_, hs⟩
  rw [Engine.execute, Control.ofSql_isolationSql h]
  dsimp only
  rw [e.isolation d isolation sql h]

/-- The connection of a transaction gets another one. -/
theorem opened_setTxn {s : Server D} {link : Link} {t : Txn D} {stack : List (Level D)}
    (hother : ∀ l, l ≠ link → s.txns l = none) (ht : t.Holds stack) :
    Opened (s.setTxn link (some t)).txns (some link) stack :=
  .some (if_pos rfl) (fun l hl => (if_neg hl).trans (hother l hl)) ht

theorem opened_setTxn_none {s : Server D} {link : Link} {master : Option Link}
    (hother : ∀ l, l ≠ link → s.txns l = none) : Opened (s.setTxn link none).txns master [] := by
  refine .none fun l => ?_
  by_cases hl : l = link
  · exact if_pos hl
  · exact (if_neg hl).trans (hother l hl)

theorem carries_begin (d : Dialect) (hm : m.stack = []) :
    Carries e replaces d.beginSql m m.begin := by
  refine carries_of_tell (Control.ofSql_beginSql d) fun link s hs => ?_
  have htxns := hs.txns_eq_none hm
  refine ⟨{ s.setTxn link (some ⟨s.data, []⟩) with begun := s.begun + 1 }, ?_, hs.data,
    congrArg (· + 1) hs.begun, hs.ended, ?_⟩
  · rw [Server.tell, htxns]
  · rw [hs.data, Ideal.begin, hm]
    exact opened_setTxn (fun l _ => htxns l) (.new ⟨m.begun, m.data⟩)

/-- A statement of a transaction that is open on the connection of the session. -/
theorem carries_of_txn {sql : String} {what : Control} (hsql : Control.ofSql sql = some what)
    (hm : m.stack ≠ [])
    (h : ∀ link (s : Server D) t, s.txns link = some t → (∀ l, l ≠ link → s.txns l = none) →
      t.Holds m.stack → s.data = m.data → s.begun = m.begun → s.ended = m.ended →
      ∃ s', s.tell replaces link what = some s' ∧ s'.Shows (some link) m') :
    Carries e replaces sql m m' := by
  refine carries_of_tell hsql fun link s hs => ?_
  obtain ⟨l, t, hl, ht, hother, hholds⟩ := hs.exists_txn hm
  cases hl
  exact h link s t ht hother hholds hs.data hs.begun hs.ended

theorem carries_savepoint (hm : m.stack.length = level + 1) :
    Carries e replaces ("SAVEPOINT " ++ savepointName (level + 1)) m m.begin := by
  refine carries_of_txn (Control.ofSql_savepoint _) (List.ne_nil_of_length_eq_add_one hm) ?_
  intro link s t ht hother hholds hdata hbegun hended
  have hset := hholds.set replaces ⟨s.begun, s.data⟩
  rw [hm] at hset
  refine ⟨_, congrArg (Option.map _) ht, hdata, congrArg (· + 1) hbegun, hended, ?_⟩
  rw [Ideal.begin, ← hbegun, ← hdata]
  exact opened_setTxn hother hset

theorem carries_release (hm : m.stack.length = level + 2) :
    Carries e replaces ("RELEASE SAVEPOINT " ++ savepointName (level + 1)) m (m.leave false) := by
  refine carries_of_txn (Control.ofSql_release _) (List.ne_nil_of_length_eq_add_one hm) ?_
  intro link s t ht hother hholds hdata hbegun hended
  obtain ⟨p, rest, outer, hfind, hstack, houter, hrest, -⟩ := hholds.find? hm
  refine ⟨{ s.setTxn link (some { t with saved := rest }) with
    ended := p.kept.number :: s.ended }, ?_, ?_⟩
  · rw [Server.tell, ht, Option.bind_eq_bind, Option.bind_some, hfind]
    rfl
  · rw [Ideal.leave, hstack]
    refine ⟨hdata, hbegun, ?_, opened_setTxn hother hrest⟩
    dsimp only
    rw [if_neg (by simpa using houter), hended]

theorem carries_rollBackTo (hm : m.stack.length = level + 2) :
    Carries e replaces ("ROLLBACK TO SAVEPOINT " ++ savepointName (level + 1)) m
      (m.leave true) := by
  refine carries_of_txn (Control.ofSql_rollBackTo _) (List.ne_nil_of_length_eq_add_one hm) ?_
  intro link s t ht hother hholds hdata hbegun hended
  obtain ⟨p, rest, outer, hfind, hstack, houter, -, hrest⟩ := hholds.find? hm
  refine ⟨{ s.setTxn link (some { t with saved := p :: rest }) with
    data := p.kept.kept
    ended := p.kept.number :: s.ended }, ?_, ?_⟩
  · rw [Server.tell, ht, Option.bind_eq_bind, Option.bind_some, hfind]
    rfl
  · rw [Ideal.leave, hstack]
    refine ⟨rfl, hbegun, ?_, opened_setTxn hother hrest⟩
    dsimp only
    rw [if_neg (by simpa using houter), hended]

theorem carries_commit (hm : m.stack.length = 1) :
    Carries e replaces "COMMIT" m (m.leave false) := by
  refine carries_of_txn rfl (List.ne_nil_of_length_eq_add_one hm) ?_
  intro link s t ht hother hholds hdata hbegun hended
  obtain ⟨outermost, hstack, hstart⟩ := hholds.singleton hm
  refine ⟨s.setTxn link none, congrArg (Option.map _) ht, ?_⟩
  rw [Ideal.leave, hstack]
  exact ⟨hdata, hbegun, hended, opened_setTxn_none hother⟩

theorem carries_rollBack (hm : m.stack.length = 1) :
    Carries e replaces "ROLLBACK" m (m.leave true) := by
  refine carries_of_txn rfl (List.ne_nil_of_length_eq_add_one hm) ?_
  intro link s t ht hother hholds hdata hbegun hended
  obtain ⟨outermost, hstack, hstart⟩ := hholds.singleton hm
  refine ⟨{ s.setTxn link none with data := t.start }, congrArg (Option.map _) ht, ?_⟩
  rw [Ideal.leave, hstack]
  exact ⟨hstart, hbegun, hended, opened_setTxn_none hother⟩

end QueryKit
