import QueryKit.Fetch.Pages
import QueryKit.Proofs.Compile.Accumulator
import QueryKit.Proofs.Session.Changes
import QueryKit.Proofs.Session.Sends

/-!
# Windows of a query

- `windowText`: a statement with LIMIT and OFFSET behind it.
- `renderQuery_window`: the text of a query with a limit and an offset, in every dialect. Both are
  written behind the query's own clauses, before its UNION members.
- `Client.readText`: a statement run with the settings of a query; `Client.all_window` is how a
  session reads a window.
-/

namespace QueryKit

/-- A statement with LIMIT and OFFSET behind it; an offset of zero is left out. -/
def windowText (text : String) (limit offset : Nat) : String :=
  text ++ " LIMIT " ++ Nat.repr limit ++
    if offset = 0 then "" else " OFFSET " ++ Nat.repr offset

/-- A statement with UNION members behind it, if there are any. -/
def unionsText (sql : String) (unions : List String) : String :=
  if unions.isEmpty then sql else "(" ++ sql ++ ") " ++ Text.joinWith " " unions

/-- A window with the texts of UNION ALL members behind it, each in parentheses. -/
def unionWindowText (text : String) (parts : List String) (limit offset : Nat) : String :=
  "(" ++ windowText text limit offset ++ ") " ++ Text.joinWith " " (parts.map (unionText true))

namespace Query

/-- The query with LIMIT and OFFSET. -/
def window (q : Query) (limit offset : Nat) : Query :=
  (q.withLimit (some limit)).withOffset (some offset)

/-- The query alone: without LIMIT, OFFSET and UNION members. -/
def operand (q : Query) : Query :=
  { q with limit := none, offset := none, unions := [] }

end Query

/-! ## Texts -/

theorem joinWith_concat (separator last : String) : ∀ {parts : List String}, parts ≠ [] →
    Text.joinWith separator (parts ++ [last]) = Text.joinWith separator parts ++ separator ++ last
  | [_], _ => rfl
  | s :: t :: parts, _ => by
    have hrest := joinWith_concat separator last (List.cons_ne_nil t parts)
    rw [List.cons_append, List.cons_append, Text.joinWith, ← List.cons_append, hrest, Text.joinWith]
    simp only [String.append_assoc]

theorem limitText_window (d : Dialect) (limit offset : Nat) :
    limitText d (some limit) (some offset) = "LIMIT " ++ Nat.repr limit ++
      if offset = 0 then "" else " OFFSET " ++ Nat.repr offset := by
  cases offset with
  | zero => simp [limitText, Option.filter]
  | succ n => simp [limitText, Option.filter, String.append_assoc]

theorem selectText_ne_empty (distinct : Bool) (option : Option String) (columns : List String) :
    selectText distinct option columns ≠ "" := by
  intro h
  have hlength := congrArg String.length h
  unfold selectText at hlength
  simp only [String.length_append] at hlength
  cases distinct <;> simp at hlength

/-- The clauses of a query that are not empty. -/
def clausesText (clauses : List String) : String :=
  Text.joinWith " " (clauses.filter (· ≠ ""))

theorem clausesText_concat_empty (clauses : List String) :
    clausesText (clauses ++ [""]) = clausesText clauses := by
  simp [clausesText, List.filter_append]

/-- Another clause stands behind those that there are. -/
theorem clausesText_concat {clauses : List String} {first last : String} (hfirst : first ∈ clauses)
    (hne : first ≠ "") (hlast : last ≠ "") :
    clausesText (clauses ++ [last]) = clausesText clauses ++ " " ++ last := by
  have hparts : clauses.filter (· ≠ "") ≠ [] :=
    List.ne_nil_of_mem (List.mem_filter.mpr ⟨hfirst, by simpa using hne⟩)
  have hfilter : (clauses ++ [last]).filter (· ≠ "") = clauses.filter (· ≠ "") ++ [last] := by
    simp [List.filter_append, hlast]
  rw [clausesText, hfilter, joinWith_concat " " last hparts, clausesText]

/-- LIMIT and OFFSET are the last clause of the query itself. -/
theorem statementText_window (d : Dialect) {clauses : List String} {select : String}
    (hselect : select ∈ clauses) (hne : select ≠ "") (unions : List String) (limit offset : Nat) :
    statementText (clauses ++ [limitText d (some limit) (some offset)]) unions =
      unionsText (windowText (statementText (clauses ++ [limitText d none none]) []) limit offset)
        unions := by
  have hlimit : limitText d (some limit) (some offset) ≠ "" := by
    rw [limitText_window]
    intro h
    have hlength := congrArg String.length h
    simp [String.length_append] at hlength
  change unionsText (clausesText (clauses ++ [limitText d (some limit) (some offset)])) unions =
    unionsText (windowText (clausesText (clauses ++ [""])) limit offset) unions
  rw [clausesText_concat hselect hne hlimit, clausesText_concat_empty, limitText_window, windowText]
  simp only [String.append_assoc]
  rfl

/-- The text of a window: LIMIT and OFFSET stand behind the query alone, and UNION members behind
both. -/
theorem renderQuery_window (c : Compiler) (q : Query) (limit offset : Nat) :
    renderQuery c (q.window limit offset) = (do
      let text ← renderQuery c q.operand
      let unions ← renderUnions c q.unions
      return unionsText (windowText text limit offset) unions) := by
  cases q with
  | mk select option distinct tables joins condition groupBy having orderBy l o unions params =>
    simp only [Query.window, Query.withLimit, Query.withOffset, Query.operand, renderQuery,
      renderUnions, bind_assoc]
    refine bind_congr fun _ => bind_congr fun columns => bind_congr fun tables => ?_
    refine bind_congr fun joins => bind_congr fun condition => bind_congr fun groups => ?_
    refine bind_congr fun having => bind_congr fun orders => ?_
    rw [← Compile.pure_eq, pure_bind, pure_bind]
    refine bind_congr fun unions => congrArg Compile.pure ?_
    exact @statementText_window c.dialect [_, _, _, _, _, _, _] _ List.mem_cons_self
      (selectText_ne_empty distinct option columns) unions limit offset

/-- The texts of the members of a UNION. -/
def renderMemberQueries (c : Compiler) : List UnionMember → Compile (List String)
  | [] => .pure []
  | member :: unions => do
    let sql ← renderQuery c member.query
    let parts ← renderMemberQueries c unions
    return sql :: parts

theorem renderMemberQueries_ne_nil (c : Compiler) {unions : List UnionMember} (h : unions ≠ []) :
    (renderMemberQueries c unions).Yields fun parts _ => parts ≠ [] := by
  intro parts bs hparts
  cases unions with
  | nil => exact absurd rfl h
  | cons member unions =>
    obtain ⟨sql, _, _, -, hrest, -⟩ := Compile.bind_ok hparts
    obtain ⟨rest, _, _, -, hpure, -⟩ := Compile.bind_ok hrest
    cases hpure
    exact List.cons_ne_nil _ _

/-- Each member of a UNION ALL stands behind its keyword, in parentheses. -/
theorem renderUnions_all (c : Compiler) : ∀ {unions : List UnionMember},
    (∀ member ∈ unions, member.all = true) →
      renderUnions c unions = (do
        let parts ← renderMemberQueries c unions
        return parts.map (unionText true))
  | [], _ => rfl
  | ⟨q, all⟩ :: unions, h => by
    have hall : all = true := h ⟨q, all⟩ List.mem_cons_self
    have hrest := renderUnions_all c fun member hmem => h member (List.mem_cons_of_mem _ hmem)
    rw [renderUnions, renderMemberQueries, hrest, hall, bind_assoc]
    refine bind_congr fun sql => ?_
    rw [bind_assoc, bind_assoc]
    rfl

namespace Compiler

/-- A window compiles as the query alone and then its UNION members do; it binds the same values. -/
theorem build_window (c : Compiler) (q : Query) (limit offset : Nat) (ps : Params) :
    c.build (q.window limit offset) ps =
      (c.build q.operand ps).bind fun (text, ps) =>
        ((renderUnions c q.unions).into ps).map fun (unions, ps) =>
          (unionsText (windowText text limit offset) unions, ps) := by
  unfold build
  rw [renderQuery_window, Compile.into_bind]
  rcases (renderQuery c q.operand).into ps with e | ⟨text, ps⟩
  · rfl
  · change (renderUnions c q.unions >>= _).into ps = ((renderUnions c q.unions).into ps).map _
    rw [Compile.into_bind]
    rcases (renderUnions c q.unions).into ps with e | ⟨unions, ps⟩ <;> rfl

/-- The members of a UNION ALL stand behind the window, each in parentheses. -/
theorem build_unionWindow (c : Compiler) {q : Query} (hunions : q.unions ≠ [])
    (hall : ∀ member ∈ q.unions, member.all = true) (limit offset : Nat) (ps : Params) :
    c.build (q.window limit offset) ps =
      (c.build q.operand ps).bind fun (text, ps) =>
        ((renderMemberQueries c q.unions).into ps).map fun (parts, ps) =>
          (unionWindowText text parts limit offset, ps) := by
  rw [build_window, renderUnions_all c hall]
  rcases c.build q.operand ps with e | ⟨text, ps⟩
  · rfl
  · change ((renderMemberQueries c q.unions >>= _).into ps).map _
      = ((renderMemberQueries c q.unions).into ps).map _
    rw [Compile.into_bind]
    rcases hparts : renderMemberQueries c q.unions with e | ⟨parts, bs⟩
    · rfl
    · have hne : (parts.map (unionText true)).isEmpty = false := by
        simpa using renderMemberQueries_ne_nil c hunions parts bs hparts
      change Except.ok (unionsText _ (parts.map (unionText true)), _) = Except.ok (_, _)
      rw [unionsText, hne]
      rfl

end Compiler

/-! ## Reading windows -/

namespace Client

open Run

variable {σ : Type} (c : Client σ)

/-- Run a statement with the settings of a query, and take its rows. -/
def readText (q : Query) (built : String × Params) : Run σ (List Row) :=
  resultOf (c.queryAll (c.commandFor q built))

/-- The servers list the rows for a query without UNION: a statement with the query's text, a limit
and an offset is answered by the window of these rows, if it is answered. Then and when it fails `I`
holds again. -/
structure Lists (I : RunState σ → Prop) (q : Query) (rows : List Row) : Prop where
  window : ∀ text params, c.connection.compiler.build q.operand .empty = .ok (text, params) →
    ∀ limit offset, Meets I I I (c.readText q (windowText text limit offset, params))
      fun page w => page = (rows.drop offset).take limit ∧ I w

/-- The same for a query with UNION ALL members: a limit and an offset in the first parentheses apply
to the rows `own` of the query alone, and the rows `others` of the members follow. -/
structure ListsUnion (I : RunState σ → Prop) (q : Query) (own others : List Row) : Prop where
  window : ∀ text params parts params',
    c.connection.compiler.build q.operand .empty = .ok (text, params) →
    (renderMemberQueries c.connection.compiler q.unions).into params = .ok (parts, params') →
      ∀ limit offset, Meets I I I
        (c.readText q (unionWindowText text parts limit offset, params'))
        fun page w => page = (own.drop offset).take limit ++ others ∧ I w

variable {c} {I : RunState σ → Prop} {q : Query}

/-- A window is compiled, and its text is run. -/
theorem all_window (hemulate : q.emulateExecution = false) (limit offset : Nat) :
    c.all (q.window limit offset) =
      Run.ofResult (c.connection.compiler.build (q.window limit offset) .empty) >>=
        c.readText q := by
  have hwindow : (q.window limit offset).emulateExecution = false := hemulate
  unfold all fetching
  rw [hwindow, if_neg Bool.false_ne_true, command, bind_assoc]
  refine bind_congr fun built => ?_
  rw [pure_bind]
  rfl

theorem Lists.all {rows : List Row} (h : c.Lists I q rows) (hunions : q.unions = [])
    (hemulate : q.emulateExecution = false) (limit offset : Nat) :
    Meets I I I (c.all (q.window limit offset))
      fun page w => page = (rows.drop offset).take limit ∧ I w := by
  rw [all_window hemulate, Compiler.build_window, hunions]
  cases hbuild : c.connection.compiler.build q.operand .empty with
  | error e => exact Meets.fail fun _ h => h
  | ok built => exact h.window built.1 built.2 hbuild limit offset

theorem ListsUnion.all {own others : List Row} (h : c.ListsUnion I q own others)
    (hunions : q.unions ≠ []) (hall : ∀ member ∈ q.unions, member.all = true)
    (hemulate : q.emulateExecution = false) (limit offset : Nat) :
    Meets I I I (c.all (q.window limit offset))
      fun page w => page = (own.drop offset).take limit ++ others ∧ I w := by
  rw [all_window hemulate, Compiler.build_unionWindow _ hunions hall]
  rcases hbuild : c.connection.compiler.build q.operand .empty with e | ⟨text, params⟩
  · exact Meets.fail fun _ h => h
  · change Meets I I I (Run.ofResult
      (((renderMemberQueries c.connection.compiler q.unions).into params).map _) >>= _) _
    rcases hparts : (renderMemberQueries c.connection.compiler q.unions).into params with
      e | ⟨parts, params'⟩
    · exact Meets.fail fun _ h => h
    · exact h.window text params parts params' hbuild hparts limit offset

/-! ## Servers that answer windows -/

section Answers

variable {α : Type} {P : α → Prop} {cmd : Command}

/-- What the result of a step satisfies, if it has one. -/
abbrev Answers (x : Run σ α) (P : α → Prop) : Prop :=
  Meets (fun _ => True) (fun _ => True) (fun _ => True) x fun a _ => P a

/-- The rows of every attempt are what a server has answered. -/
theorem retrying_answers {rawSql : String} {x : Run σ α} (hx : Answers x P) :
    ∀ patience attempt, Answers (c.retrying rawSql x patience attempt)
      fun r => ∀ a, r.1 = .ok a → P a
  | 0, _ => .cancel fun _ h => h
  | patience + 1, attempt => by
    refine Meets.bind hx.attempt fun r => ?_
    cases r with
    | ok a => exact .pure fun _ h _ ha => Except.ok.inj ha ▸ h
    | error e =>
      refine Meets.bind (R := fun _ _ => True) .trivial fun s => ?_
      dsimp only
      split
      · exact .pure fun _ _ => nofun
      · refine Meets.bind (R := fun _ _ => True) .trivial fun _ => ?_
        exact Meets.bind (R := fun _ _ => True) .trivial fun _ => retrying_answers hx patience _
      · refine Meets.bind (R := fun _ _ => True) .trivial fun _ => ?_
        refine Meets.bind (R := fun _ _ => True) .trivial fun r => ?_
        split
        · exact retrying_answers hx patience _
        · exact .pure fun _ _ => nofun

/-- The result of a command is what a server has answered to its prepared form. -/
theorem runCommand_answers {call : Link → String → List Value → σ → Outcome α × σ}
    (hcall : ∀ p, cmd.preparation c.connection = .ok p → ∀ link s a s',
      call link p.sql p.values s = (.done a, s') → P a) (rawSql : String) :
    Answers (c.runCommand cmd rawSql call) fun r => ∀ a, r.1 = .ok a → P a := by
  unfold runCommand
  split
  · exact .pure fun _ _ => nofun
  · next p hp =>
    have hsend : ∀ read, Answers (c.sendPrepared read call p) P := fun read => by
      refine Meets.bind (R := fun _ _ => True) .trivial fun link w _ => ?_
      unfold Run.send
      rcases hr : call link p.sql p.values w.servers with ⟨a | e | _, servers⟩
      · exact hcall p hp link w.servers a servers hr
      · trivial
      · trivial
    exact Meets.bind (retrying_answers (hsend _) _ _) fun r => .pure fun _ h => h

/-- Without a cache the rows of a command are what a server has answered. -/
theorem fetchCached_answers {P : List Row → Prop} (hcache : c.cacheOf cmd = none)
    (hfetch : ∀ p, cmd.preparation c.connection = .ok p → ∀ link s rows s',
      c.backend.fetch link p.sql p.values s = (.done rows, s') → P rows) (method rawSql : String) :
    Answers (c.fetchCached cmd method rawSql) fun r => ∀ rows, r.1 = .ok rows → P rows := by
  have hcached : Answers (c.cachedRows cmd (c.resultKey method rawSql))
      fun cached => cached = none ∧ True := by
    unfold cachedRows
    rw [hcache]
    exact .pure fun _ _ => ⟨rfl, trivial⟩
  have hrun : Answers (c.runCommand cmd rawSql c.backend.fetch)
      fun r => (∀ rows, r.1 = .ok rows → P rows) ∧ True :=
    (runCommand_answers hfetch rawSql).imp fun _ _ h => ⟨h, trivial⟩
  refine hcached.bind fun cached => .of_fact ?_
  rintro rfl
  refine Meets.bind (R := fun _ _ => True) .trivial fun _ => ?_
  refine hrun.bind fun r => .of_fact fun hr => ?_
  refine Meets.bind (R := fun _ _ => True) .trivial fun _ => ?_
  dsimp only
  split
  · exact .pure fun _ _ => nofun
  · next rows hok =>
    refine Meets.bind (R := fun _ _ => True) .trivial fun _ => .pure fun _ _ rows' h => ?_
    exact hr rows' (hok.trans h)

end Answers

/-- What is read neither from a cache nor with other callers is what a server has answered. -/
theorem readText_answers {built : String × Params} {P : List Row → Prop} (hshare : q.share = false)
    (hcache : q.cache = none)
    (hfetch : ∀ p, (c.commandFor q built).preparation c.connection = .ok p → ∀ link s rows s',
      c.backend.fetch link p.sql p.values s = (.done rows, s') → P rows) :
    Answers (c.readText q built) P := by
  have hno : (c.commandFor q built).share = false := hshare
  have hnone : c.cacheOf (c.commandFor q built) = none := by
    have hpolicy : (c.commandFor q built).cache = none := hcache
    unfold cacheOf
    rw [hpolicy]
    split <;> rfl
  have hall : Answers (c.queryAll (c.commandFor q built))
      fun r => (∀ rows, r.1 = .ok rows → P rows) ∧ True := by
    unfold queryAll fetchAs fetchRows
    rw [hno, if_neg Bool.false_ne_true]
    refine (fetchCached_answers hnone hfetch _ _).bind fun r => .pure fun _ h => ⟨?_, trivial⟩
    rintro rows hok
    rcases hr : r.1 with e | page
    · rw [hr] at hok
      cases hok
    · rw [hr] at hok
      cases hok
      exact h _ hr
  refine hall.bind fun r => .of_fact fun hr => ?_
  exact .ofResult (fun rows hok _ _ => hr rows hok) fun _ _ => trivial

/-- Servers that answer the text of each window by its rows list them. -/
theorem lists_of_fetch {rows : List Row} (hshare : q.share = false) (hcache : q.cache = none)
    (hfetch : ∀ text params limit offset p,
      c.connection.compiler.build q.operand .empty = .ok (text, params) →
      (c.commandFor q (windowText text limit offset, params)).preparation c.connection = .ok p →
      ∀ link s page s', c.backend.fetch link p.sql p.values s = (.done page, s') →
        page = (rows.drop offset).take limit) :
    c.Lists (fun _ => True) q rows := by
  refine ⟨fun text params hbuild limit offset => ?_⟩
  refine (readText_answers hshare hcache fun p hp link s page s' => ?_).imp fun _ _ h => ⟨h, trivial⟩
  exact hfetch text params limit offset p hbuild hp link s page s'

end Client

end QueryKit
