import QueryKit.Proofs.Text.Delimited
import QueryKit.Session.Transaction
import QueryKit.Text.Join

/-!
# Savepoints

What the statements of a transaction do to the savepoints of a server.

- `Control`: a statement that begins or ends a transaction or names a savepoint, and
  `Control.ofSql`, which reads it off the text of the statement.
- `Savepoint`: a named savepoint with what was kept at it. The savepoints of a transaction are a
  list, the latest one first; a name may be in it several times.
- `Nested level saved nesting`: `saved` are the savepoints on the server when a session is at
  a level, and `nesting` are those among them that its open levels began with. The others are stale:
  a return to a savepoint leaves it on the server.
- `Nested.set`, `Nested.find?`: the next level begins with a savepoint of its own, whatever is
  stale; the name of the level finds the savepoint that the level began with.
-/

namespace QueryKit

open Client (savepointName)

/-! ## Statements -/

/-- A statement that begins or ends a transaction or names a savepoint. -/
inductive Control where
  | begin
  | commit
  | rollBack
  | savepoint (name : String)
  | release (name : String)
  | rollBackTo (name : String)
deriving DecidableEq

namespace Control

/-- The name after a keyword. -/
def nameAfter (keyword sql : String) : Option String :=
  (Text.dropText keyword.toList sql.toList).map String.ofList

/-- A statement that is one fixed text. -/
def ofText (sql : String) : Option Control :=
  if sql = "BEGIN" ∨ sql = "START TRANSACTION" then some .begin
  else if sql = "COMMIT" then some .commit
  else if sql = "ROLLBACK" then some .rollBack
  else none

/-- What a text says to the transaction of a connection; nothing if it is another statement. -/
def ofSql (sql : String) : Option Control :=
  ((nameAfter "SAVEPOINT " sql).map savepoint).or <|
    ((nameAfter "RELEASE SAVEPOINT " sql).map release).or <|
      ((nameAfter "ROLLBACK TO SAVEPOINT " sql).map rollBackTo).or (ofText sql)

theorem nameAfter_append (keyword name : String) :
    nameAfter keyword (keyword ++ name) = some name := by
  rw [nameAfter, String.toList_append, Text.dropText_eq_some.mpr rfl, Option.map_some,
    String.ofList_toList]

theorem ofSql_beginSql (d : Dialect) : ofSql d.beginSql = some .begin := by
  unfold Dialect.beginSql
  split <;> rfl

theorem ofSql_savepoint (name : String) :
    ofSql ("SAVEPOINT " ++ name) = some (.savepoint name) := by
  rw [ofSql, nameAfter_append]
  rfl

theorem ofSql_release (name : String) :
    ofSql ("RELEASE SAVEPOINT " ++ name) = some (.release name) := by
  have hset : nameAfter "SAVEPOINT " ("RELEASE SAVEPOINT " ++ name) = none := by
    rw [nameAfter, String.toList_append]
    rfl
  rw [ofSql, hset, nameAfter_append]
  rfl

theorem ofSql_rollBackTo (name : String) :
    ofSql ("ROLLBACK TO SAVEPOINT " ++ name) = some (.rollBackTo name) := by
  have hset : nameAfter "SAVEPOINT " ("ROLLBACK TO SAVEPOINT " ++ name) = none := by
    rw [nameAfter, String.toList_append]
    rfl
  have hrelease : nameAfter "RELEASE SAVEPOINT " ("ROLLBACK TO SAVEPOINT " ++ name) = none := by
    rw [nameAfter, String.toList_append]
    rfl
  rw [ofSql, hset, hrelease, nameAfter_append]
  rfl

/-- Setting the isolation level neither begins nor ends anything. -/
theorem ofSql_isolationSql {d : Dialect} {level : IsolationLevel} {sql : String}
    (h : d.isolationSql level = .ok sql) : ofSql sql = none := by
  unfold Dialect.isolationSql at h
  split at h
  · cases h
    rfl
  · cases h
    rfl
  · cases h
  · cases h
    cases level <;> rfl

end Control

/-! ## Beginning a transaction -/

/-- Statements that lead from one state to another in turn, when `R` says what each of them does. -/
inductive Path {α : Type} (R : String → α → α → Prop) : List String → α → α → Prop
  | nil (a : α) : Path R [] a a
  | cons {sql : String} {statements : List String} {a b c : α} :
    R sql a b → Path R statements b c → Path R (sql :: statements) a c

/-- The isolation level is set before or after the transaction has begun, or not at all. -/
theorem beginStatements_path {α : Type} {R : String → α → α → Prop} {a b : α} {d : Dialect}
    {isolation : Option IsolationLevel} {statements : List String} (hbegin : R d.beginSql a b)
    (hisolation : ∀ level sql, d.isolationSql level = .ok sql → R sql a a ∧ R sql b b)
    (h : Client.beginStatements d isolation = .ok statements) : Path R statements a b := by
  cases isolation with
  | none =>
    cases h
    exact .cons hbegin (.nil b)
  | some level =>
    simp only [Client.beginStatements] at h
    cases hsql : d.isolationSql level with
    | error e =>
      rw [hsql] at h
      cases h
    | ok sql =>
      obtain ⟨ha, hb⟩ := hisolation level sql hsql
      rw [hsql] at h
      cases h
      split
      · exact .cons hbegin (.cons hb (.nil b))
      · exact .cons ha (.cons hbegin (.nil b))

/-! ## Savepoints on a server -/

/-- A named savepoint with what is kept at it. -/
structure Savepoint (α : Type) where
  name : String
  kept : α

namespace Savepoint

variable {α : Type}

/-- Set a savepoint. If the server replaces savepoints, those of the name are deleted. -/
def set (replaces : Bool) (name : String) (kept : α) (saved : List (Savepoint α)) :
    List (Savepoint α) :=
  ⟨name, kept⟩ :: if replaces then saved.filter fun s => s.name != name else saved

/-- The latest savepoint of a name, and those that were set before it. -/
def find? (name : String) : List (Savepoint α) → Option (Savepoint α × List (Savepoint α))
  | [] => none
  | s :: saved => if s.name = name then some (s, saved) else find? name saved

end Savepoint

/-! ## Levels -/

theorem savepointName_inj {m n : Nat} (h : savepointName m = savepointName n) : m = n := by
  unfold savepointName at h
  have hrepr : (Nat.repr m).toList = (Nat.repr n).toList := by
    simpa [String.toList_append] using congrArg String.toList h
  exact natRepr_inj hrepr

theorem savepointName_ne {m n : Nat} (h : m ≠ n) : savepointName m ≠ savepointName n :=
  fun hname => h (savepointName_inj hname)

/-- At a level there are the savepoints `saved` on the server, and the open levels began with
`nesting` among them. -/
inductive Nested {α : Type} : Nat → List (Savepoint α) → List (Savepoint α) → Prop
  | outermost : Nested 1 [] []
  /-- Another level has begun with a savepoint. -/
  | inner {level : Nat} {saved nesting : List (Savepoint α)} {s : Savepoint α} :
    Nested level saved nesting → s.name = savepointName level →
      Nested (level + 1) (s :: saved) (s :: nesting)
  /-- A level has been rolled back, and its savepoint stays. -/
  | stale {level : Nat} {saved nesting : List (Savepoint α)} {s : Savepoint α} :
    Nested level saved nesting → s.name = savepointName level → Nested level (s :: saved) nesting

namespace Nested

variable {α : Type} {level : Nat} {saved nesting : List (Savepoint α)} {s : Savepoint α}

theorem pos (h : Nested level saved nesting) : 0 < level := by
  induction h with
  | outermost => decide
  | inner _ _ _ => omega
  | stale _ _ ih => exact ih

/-- No savepoint on the server has the name of a level above. -/
theorem name_ne {n : Nat} (h : Nested level saved nesting) (hn : level < n) :
    ∀ s ∈ saved, s.name ≠ savepointName n := by
  induction h with
  | outermost => exact nofun
  | inner _ hname ih =>
    intro t ht heq
    rcases List.mem_cons.mp ht with rfl | ht
    · exact savepointName_ne (by omega) (hname.symm.trans heq)
    · exact ih (by omega) t ht heq
  | stale _ hname ih =>
    intro t ht heq
    rcases List.mem_cons.mp ht with rfl | ht
    · exact savepointName_ne (by omega) (hname.symm.trans heq)
    · exact ih hn t ht heq

/-- The savepoints of the open levels are on the server, in the order in which the levels began. -/
theorem sublist (h : Nested level saved nesting) : nesting.Sublist saved := by
  induction h with
  | outermost => exact .slnil
  | inner _ _ ih => exact ih.cons_cons _
  | stale _ _ ih => exact ih.cons _

/-- Each level above the outermost one began with the savepoint that is named for the level below.
-/
theorem names (h : Nested level saved nesting) :
    (nesting.map (·.name)).reverse = (List.range' 1 (level - 1)).map savepointName := by
  induction h with
  | outermost => rfl
  | @inner level saved nesting s h hname ih =>
    have hpos := h.pos
    have hlevel : level + 1 - 1 = (level - 1) + 1 := by omega
    rw [hlevel, List.range'_1_concat, List.map_append, List.map_cons, List.reverse_cons, ih, hname]
    have hlast : 1 + (level - 1) = level := by omega
    rw [List.map_cons, List.map_nil, hlast]
  | stale _ _ ih => exact ih

/-- Savepoints of the name of the current level are stale, and may be deleted. -/
theorem filter (h : Nested level saved nesting) :
    Nested level (saved.filter fun s => s.name != savepointName level) nesting := by
  induction h with
  | outermost => exact .outermost
  | @inner level saved nesting s h hname ih =>
    have hkeep : ∀ t ∈ s :: saved, (t.name != savepointName (level + 1)) = true := by
      intro t ht
      rw [bne_iff_ne]
      rcases List.mem_cons.mp ht with rfl | ht
      · rw [hname]
        exact savepointName_ne (by omega)
      · exact h.name_ne (by omega) t ht
    rw [List.filter_eq_self.mpr hkeep]
    exact h.inner hname
  | stale _ hname ih => rwa [List.filter_cons_of_neg (by simp [hname])]

/-- The next level begins with a savepoint, whether or not the server replaces stale ones. -/
theorem set (h : Nested level saved nesting) (replaces : Bool) (kept : α) :
    Nested (level + 1) (Savepoint.set replaces (savepointName level) kept saved)
      (⟨savepointName level, kept⟩ :: nesting) := by
  cases replaces with
  | false => exact h.inner rfl
  | true => exact h.filter.inner rfl

/-- The name of the level below finds the savepoint that the current level began with. -/
theorem find? (h : Nested (level + 1) saved nesting) (hlevel : 0 < level) :
    ∃ s outer rest, nesting = s :: outer ∧
      Savepoint.find? (savepointName level) saved = some (s, rest) ∧
      s.name = savepointName level ∧ Nested level rest outer := by
  generalize hn : level + 1 = n at h
  induction h with
  | outermost => omega
  | inner h hname ih =>
    cases hn
    exact ⟨_, _, _, rfl, by rw [Savepoint.find?, if_pos hname], hname, h⟩
  | stale h hname ih =>
    obtain ⟨s, outer, rest, hnesting, hfind, hs⟩ := ih hn
    refine ⟨s, outer, rest, hnesting, ?_, hs⟩
    rw [Savepoint.find?, if_neg, hfind]
    rw [hname]
    exact savepointName_ne (by omega)

end Nested

end QueryKit
