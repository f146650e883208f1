import QueryKit.Command.Write
import QueryKit.Proofs.Command.Sent

/-!
# Prepared forms that are out of date

A command keeps the prepared form of its statement. It is up to date (`Command.Fresh`) if it is what
preparing the command anew would give.

- `Build`, `Call`: the calls on a command. A build puts a statement with its values into the
  command; its text may be the one that is there already, and then the prepared form stays.
- `Call.Clean`: a build with the text that is there already must find no prepared form, or the one
  that its own values give.
- `Command.sends_bound_iff`: after clean calls, the command sends what its text and values give now;
  after one more call it does so exactly if that call was clean.
-/

namespace QueryKit

/-! ## Calls -/

/-- A call that puts a statement with its values into a command. -/
inductive Build where
  | insert (table : String) (source : InsertSource) (withUpdate : Bool)
  | update (table : String) (columns : List (String × Operand)) (condition : Operand)
      (params : Params)
  | delete (table : String) (condition : Operand) (params : Params)
  | upsert (table : String) (source : InsertSource) (existing : UpsertUpdate) (params : Params)
  | batchInsert (table : String) (columns : List String) (rows : List (List Operand))

namespace Build

variable {σ : Type} (c : Client σ)

/-- The command with the statement of a build. -/
def run (cmd : Command) : Build → Run σ Command
  | insert table source withUpdate => c.insert cmd table source withUpdate
  | update table columns condition params => c.update cmd table columns condition params
  | delete table condition params =>
    Run.ofResult (cmd.delete c.connection table condition params)
  | upsert table source existing params => c.upsert cmd table source existing params
  | batchInsert table columns rows => c.batchInsert cmd table columns rows

/-- The text and the values that a build puts into a command. -/
def statement : Build → Run σ (String × Params)
  | insert table source withUpdate => do
    let schema ← c.tableSchema table
    let built ← Run.ofResult (c.connection.compiler.insert table source schema withUpdate).run
    return (c.connection.quoteSql built.1, built.2)
  | update table columns condition params => do
    let schema ← c.tableSchema table
    let built ← Run.ofResult
      ((c.connection.compiler.update table columns condition schema).into params)
    return (c.connection.quoteSql built.1, built.2)
  | delete table condition params => do
    let built ← Run.ofResult ((c.connection.compiler.delete table condition).into params)
    return (c.connection.quoteSql built.1, built.2)
  | upsert table source existing params => do
    let schema ← c.tableSchema table
    let built ← Run.ofResult
      ((c.connection.compiler.upsert table source existing schema).into params)
    return (c.connection.quoteSql built.1, built.2)
  | batchInsert table columns rows => do
    let schema ← c.tableSchema table
    Run.ofResult (c.connection.compiler.batchInsert table columns rows schema).run

/-- A build replaces the text, and whatever the text was, the values. -/
theorem run_eq (cmd : Command) (b : Build) :
    b.run c cmd = do
      let s ← b.statement c
      return { cmd.setRawSql s.1 with params := s.2 } := by
  cases b with
  | delete table condition params =>
    simp only [run, statement, Command.delete]
    rcases (c.connection.compiler.delete table condition).into params with e | built <;> rfl
  | insert table source withUpdate => simp only [run, statement, bind_assoc, pure_bind]; rfl
  | update table columns condition params =>
    simp only [run, statement, bind_assoc, pure_bind]; rfl
  | upsert table source existing params => simp only [run, statement, bind_assoc, pure_bind]; rfl
  | batchInsert table columns rows => simp only [run, statement, bind_assoc]; rfl

variable {c}

theorem run_done_iff {cmd cmd' : Command} {b : Build} {w : RunState σ} :
    (b.run c cmd w).1 = .done cmd' ↔ ∃ sql params, (b.statement c w).1 = .done (sql, params) ∧
      cmd' = { cmd.setRawSql sql with params } := by
  rw [run_eq]
  change (Run.bind (b.statement c) _ w).1 = .done cmd' ↔ _
  unfold Run.bind
  rcases b.statement c w with ⟨⟨sql, params⟩ | e | _, w'⟩
  · constructor
    · intro h
      cases h
      exact ⟨sql, params, rfl, rfl⟩
    · rintro ⟨_, _, h, rfl⟩
      cases h
      rfl
  · exact iff_of_false nofun nofun
  · exact iff_of_false nofun nofun

theorem run_sends {P : String → List Value → Prop} (cmd : Command) : ∀ b : Build,
    Run.Sends P (b.run c cmd)
  | insert _ _ _ =>
    (Client.tableSchema_sends _).bind fun _ => (Run.Sends.ofResult _).bind fun _ => .pure _
  | update _ _ _ _ =>
    (Client.tableSchema_sends _).bind fun _ => (Run.Sends.ofResult _).bind fun _ => .pure _
  | delete _ _ _ => .ofResult _
  | upsert _ _ _ _ =>
    (Client.tableSchema_sends _).bind fun _ => (Run.Sends.ofResult _).bind fun _ => .pure _
  | batchInsert _ _ _ =>
    (Client.tableSchema_sends _).bind fun _ => (Run.Sends.ofResult _).bind fun _ => .pure _

end Build

/-- A call on a command. -/
inductive Call where
  | setSql (sql : String)
  | setRawSql (sql : String)
  | bindValue (name : String) (v : Value)
  | bindPositional (v : Value)
  | bindValues (params : Params)
  | withReading (share : Bool) (cache : Option CachePolicy)
  | cancel
  | prepare
  | define (d : Definition)
  | resetSequence (table : String) (value : Option Int)
  | build (b : Build)
  | execute
  | queryAll
  | queryOne
  | queryScalar
  | queryColumn

namespace Call

variable {σ : Type} (c : Client σ)

/-- The command after a call. -/
def run (cmd : Command) : Call → Run σ Command
  | setSql sql => .pure (cmd.setSql c.connection sql)
  | setRawSql sql => .pure (cmd.setRawSql sql)
  | bindValue name v => .pure (cmd.bindValue name v)
  | bindPositional v => .pure (cmd.bindPositional v)
  | bindValues params => .pure (cmd.bindValues params)
  | withReading share cache => .pure (cmd.withReading share cache)
  | cancel => .pure cmd.cancel
  | prepare => .ofResult (cmd.prepare c.connection)
  | define d => .ofResult (cmd.define c.connection d)
  | resetSequence table value => c.resetSequence cmd table value
  | build b => b.run c cmd
  | execute => do return (← c.execute cmd).2
  | queryAll => do return (← c.queryAll cmd).2
  | queryOne => do return (← c.queryOne cmd).2
  | queryScalar => do return (← c.queryScalar cmd).2
  | queryColumn => do return (← c.queryColumn cmd).2

/-- A command and what a call makes of it in some state. A call that ends in no result leaves the
command as it was, though it may have been prepared by then. -/
def After (x : Call) (cmd : Command) (w : RunState σ) (cmd' : Command) : Prop :=
  (x.run c cmd w).1 = .done cmd' ∨
    (∀ cmd'', (x.run c cmd w).1 ≠ .done cmd'') ∧
      (cmd' = cmd ∨ cmd.prepare c.connection = .ok cmd')

/-- A build that puts the text into the command that is there already finds no prepared form, or the
one that its values give. -/
def Clean (x : Call) (cmd : Command) (w : RunState σ) : Prop :=
  ∀ b params, x = build b → (b.statement c w).1 = .done (cmd.sql, params) →
    ∀ p ∈ cmd.prepared, { cmd with params }.bound c.connection = .ok p

variable {c} {cmd cmd' : Command} {w : RunState σ}

theorem setDefinition_fresh {conn : Connection} {d : Definition} (hf : cmd.Fresh conn)
    (h : cmd.define conn d = .ok cmd') : cmd'.Fresh conn := by
  unfold Command.define at h
  cases hd : d.sql conn.compiler with
  | error e =>
    rw [hd] at h
    cases h
  | ok sql =>
    rw [hd] at h
    cases h
    -- The table that the statement changes is not part of what is prepared.
    change (if d.isComplete then cmd.setRawSql sql else cmd.setSql conn sql).Fresh conn
    split
    · exact Command.setRawSql_fresh hf sql
    · exact Command.setRawSql_fresh hf (conn.quoteSql sql)

/-- What a build makes of a command is up to date exactly if the build is clean. -/
theorem build_fresh_iff {b : Build} (h : ((build b).run c cmd w).1 = .done cmd') :
    cmd'.Fresh c.connection ↔ (build b).Clean c cmd w := by
  obtain ⟨sql, params, hstatement, rfl⟩ := Build.run_done_iff.mp h
  by_cases hsql : sql = cmd.sql
  · subst hsql
    rw [Command.setRawSql, if_pos rfl]
    constructor
    · rintro hfresh b' params' heq hstatement' p hp
      cases heq
      rw [hstatement] at hstatement'
      cases hstatement'
      exact hfresh p hp
    · intro hclean
      exact hclean b params rfl hstatement
  · rw [Command.setRawSql, if_neg hsql]
    refine iff_of_true (.of_none rfl) fun b' params' heq hstatement' => ?_
    cases heq
    rw [hstatement] at hstatement'
    cases hstatement'
    exact absurd rfl hsql

theorem fresh_of_follows {β : Type} {x : Run σ (β × Command)} (hf : cmd.Fresh c.connection)
    (hx : Run.Gives (fun r => Command.Follows c.connection cmd r.2) x)
    (h : ((do return (← x).2 : Run σ Command) w).1 = .done cmd') : cmd'.Fresh c.connection := by
  have hx' : Run.Gives (Command.Follows c.connection cmd) (do return (← x).2) :=
    hx.bind fun _ hr => .pure hr
  exact (hx'.of_done h).fresh hf

/-- A clean call keeps the prepared form up to date. -/
theorem fresh_of_done {x : Call} (hf : cmd.Fresh c.connection) (hx : x.Clean c cmd w)
    (h : (x.run c cmd w).1 = .done cmd') : cmd'.Fresh c.connection := by
  cases x with
  | setSql sql =>
    cases h
    exact Command.setRawSql_fresh hf _
  | setRawSql sql =>
    cases h
    exact Command.setRawSql_fresh hf sql
  | bindValue name v =>
    cases h
    exact .of_none rfl
  | bindPositional v =>
    cases h
    exact .of_none rfl
  | bindValues params =>
    cases h
    exact .of_none rfl
  | withReading share cache =>
    cases h
    exact hf
  | cancel =>
    cases h
    exact .of_none rfl
  | prepare => exact (Command.prepare_follows (Run.ofResult_done h)).fresh hf
  | define d => exact setDefinition_fresh hf (Run.ofResult_done h)
  | resetSequence table value => exact setDefinition_fresh hf (Run.ofResult_done h)
  | build b => exact (build_fresh_iff h).mpr hx
  | execute => exact fresh_of_follows hf (Client.execute_follows cmd) h
  | queryAll | queryOne | queryScalar | queryColumn =>
    exact fresh_of_follows hf (Client.fetchAs_follows cmd _ _) h

theorem fresh_of_after {x : Call} (hf : cmd.Fresh c.connection) (hx : x.Clean c cmd w)
    (h : x.After c cmd w cmd') : cmd'.Fresh c.connection := by
  rcases h with h | ⟨_, rfl | h⟩
  · exact fresh_of_done hf hx h
  · exact hf
  · exact (Command.prepare_follows h).fresh hf

/-- Whatever call comes, a command that is up to date sends what its text and values give. -/
theorem run_sends (hf : cmd.Fresh c.connection) (x : Call) :
    Run.Sends (fun sql values => cmd.bound c.connection = .ok ⟨sql, values⟩) (x.run c cmd) := by
  cases x with
  | setSql _ | setRawSql _ | bindValue _ _ | bindPositional _ | bindValues _ | withReading _ _
  | cancel => exact .pure _
  | prepare | define _ => exact .ofResult _
  | resetSequence _ _ => exact Run.Sends.state.bind fun _ => .ofResult _
  | build b => exact Build.run_sends cmd b
  | execute =>
    rw [← hf.preparation_eq]
    exact (Client.execute_sends cmd).bind fun _ => .pure _
  | queryAll | queryOne | queryScalar | queryColumn =>
    rw [← hf.preparation_eq]
    exact (Client.fetchAs_sends cmd _ _).bind fun _ => .pure _

end Call

/-! ## Sending a prepared form -/

namespace Run

variable {σ α β : Type} {P : String → List Value → Prop} {w : RunState σ} {e : Event}

/-- What is in the journal stays there. -/
theorem Sends.mem_journal {x : Run σ α} (hx : Sends P x) (he : e ∈ w.journal) :
    e ∈ (x w).2.journal := by
  obtain ⟨new, hnew, -⟩ := hx w
  rw [hnew]
  exact List.mem_append_right new he

theorem Sends.mem_journal_bind {x : Run σ α} {f : α → Run σ β} (hf : ∀ a, Sends P (f a))
    (he : e ∈ (x w).2.journal) : e ∈ ((x >>= f) w).2.journal := by
  change e ∈ (Run.bind x f w).2.journal
  unfold Run.bind
  rcases hr : x w with ⟨a | e | _, w'⟩
  · rw [hr] at he
    exact (hf a).mem_journal he
  · rwa [hr] at he
  · rwa [hr] at he

/-- Of a statement that is sent in a new journal, `P` holds. -/
theorem Sends.sent {x : Run σ α} (hx : Sends P x) (hw : w.journal = [])
    (he : e ∈ (x w).2.journal) : e.Sent P := by
  obtain ⟨new, hnew, hsent⟩ := hx w
  rw [hnew, hw, List.append_nil] at he
  exact hsent e he

end Run

namespace Client

variable {σ α : Type} {c : Client σ} {w : RunState σ}

theorem linkFor_of_isActive {link : Link} (read : Bool) (hactive : w.session.isActive = true)
    (hmaster : w.session.master = some link) : c.linkFor read w = (.done link, w) := by
  have hmain : c.mainLinkAt 0 w = (.done link, w) := by
    simp [mainLinkAt, Bind.bind, Pure.pure, Run.bind, Run.session, hmaster]
    rfl
  change (if _ then c.mainLink else _ : Run σ Link) w = _
  rw [if_pos (by simp [hactive])]
  exact hmain

/-- In a transaction a command that is prepared sends its prepared form. -/
theorem execute_mem_journal {cmd : Command} {p : Prepared} {link : Link}
    (hp : cmd.prepared = some p) (hsql : cmd.sql ≠ "") (hpatience : 0 < c.patience)
    (hactive : w.session.isActive = true) (hmaster : w.session.master = some link) :
    ∃ ending, Event.sent link p.sql p.values ending ∈ (c.execute cmd w).2.journal := by
  obtain ⟨w', hlog, hquiet, -⟩ := logQuery_done (c := c) (cmd.rawSql c.connection) w
  rw [← hquiet.session] at hactive hmaster
  let send := c.sendPrepared (isReadStatement cmd.sql) c.backend.execute p
  have hsend : ∃ ending, Event.sent link p.sql p.values ending ∈ (send w').2.journal := by
    change ∃ ending, _ ∈ (Run.bind (c.linkFor _) _ w').2.journal
    unfold Run.bind
    rw [linkFor_of_isActive _ hactive hmaster]
    exact ⟨_, List.mem_cons_self⟩
  obtain ⟨ending, hsend⟩ := hsend
  refine ⟨ending, ?_⟩
  have hattempt : Event.sent link p.sql p.values ending ∈ (send.attempt w').2.journal := by
    unfold Run.attempt
    rcases hr : send w' with ⟨a | e | _, w''⟩ <;> rwa [hr] at hsend
  change _ ∈ (Run.bind (c.logQuery _) _ w).2.journal
  unfold Run.bind
  rw [hlog]
  dsimp only
  rw [if_neg hsql]
  refine Run.Sends.mem_journal_bind (P := fun _ _ => True) (fun r => ?_) ?_
  · split
    · exact (release_sends false).bind fun _ => .pure _
    · exact (settle_sends _ _).bind fun _ => .pure _
  · unfold runCommand
    rw [Command.preparation_of_prepared hp]
    obtain ⟨patience, hn⟩ := Nat.exists_eq_add_of_lt hpatience
    rw [Nat.zero_add] at hn
    dsimp only
    rw [hn]
    have hsends : Run.Sends (fun _ _ => True) send := sendPrepared_sends _ _ trivial
    obtain ⟨k, hk, hrest⟩ := retrying_succ (retrying_sends hsends patience) 1
    rw [hk]
    exact Run.Sends.mem_journal_bind (P := fun _ _ => True) (fun _ => .pure _)
      (Run.Sends.mem_journal_bind hrest hattempt)

end Client

/-! ## Lives of commands -/

namespace Command

variable {σ : Type} {c : Client σ} {cmd cmd' : Command}

/-- Whatever call comes next, every statement that is sent is what the text and the values of the
command give now. -/
def SendsBound (c : Client σ) (cmd : Command) : Prop :=
  ∀ x : Call,
    Run.Sends (fun sql values => cmd.bound c.connection = .ok ⟨sql, values⟩) (x.run c cmd)

/-- The commands that clean calls lead to, each made in any state of the connection. -/
inductive Life (c : Client σ) : Command → Prop
  | create (sql : String) : Life c (create c.connection sql)
  | call {cmd cmd' : Command} (x : Call) (w : RunState σ) :
    Life c cmd → x.Clean c cmd w → x.After c cmd w cmd' → Life c cmd'

theorem Life.fresh (h : Life c cmd) : cmd.Fresh c.connection := by
  induction h with
  | create sql => exact create_fresh sql
  | call x w _ hclean hafter ih => exact Call.fresh_of_after ih hclean hafter

theorem bound_of_sql_empty {conn : Connection} {x : Command} (h : x.sql = "") :
    x.bound conn = .ok ⟨"", []⟩ := by
  unfold bound
  rw [h]
  rfl

/-- A command that is not up to date sends its prepared form, in a transaction. -/
theorem SendsBound.fresh (h : cmd.SendsBound c) (hsql : cmd.sql ≠ "") (hpatience : 0 < c.patience)
    (w : RunState σ) : cmd.Fresh c.connection := by
  intro p hp
  let link : Link := ⟨⟨.primary, ""⟩, 0⟩
  let w₁ : RunState σ :=
    { w with journal := [], session := { w.session with master := some link, level := 1 } }
  obtain ⟨ending, hmem⟩ := Client.execute_mem_journal (w := w₁) hp hsql hpatience rfl rfl
  have hmem' := Run.Sends.mem_journal_bind (P := fun _ _ => True)
    (f := fun r => Run.pure r.2) (fun _ => .pure _) hmem
  exact (h .execute).sent rfl hmem'

/-- After clean calls a command sends, at every call, exactly what its text and values give. After
one more call it goes on to do so if and only if that call is clean. -/
theorem sends_bound_iff (c : Client σ) :
    (∀ cmd, Life c cmd → cmd.SendsBound c) ∧
      ∀ cmd x w cmd', Life c cmd → Call.After c x cmd w cmd' → 0 < c.patience →
        (cmd'.SendsBound c ↔ Call.Clean c x cmd w) := by
  refine ⟨fun cmd h => Call.run_sends h.fresh, fun cmd x w cmd' hlife hafter hpatience => ?_⟩
  refine ⟨fun hsends => ?_, fun hclean => Call.run_sends (hlife.call x w hclean hafter).fresh⟩
  rintro b params rfl hstatement p hp
  have hdone : ((Call.build b).run c cmd w).1 = .done { cmd with params } :=
    (Build.run_done_iff).mpr ⟨_, _, hstatement, by rw [setRawSql, if_pos rfl]⟩
  rcases hafter with hcmd' | ⟨hnot, -⟩
  · rw [hdone] at hcmd'
    cases hcmd'
    by_cases hsql : cmd.sql = ""
    · have hfresh := hlife.fresh p hp
      rw [bound_of_sql_empty hsql] at hfresh
      rwa [bound_of_sql_empty (x := { cmd with params }) hsql]
    · exact hsends.fresh hsql hpatience w p hp
  · exact absurd hdone (hnot _)

open Client (rehearsal rehearsalState)

/-- A user who is inserted. -/
def insertUser (n : Int32) : Call :=
  .build (.insert "user" (.values [("id", .value (.int32 n))]) false)

/-- The command for the insert of a user, not prepared. -/
def insertedUser (n : Int32) : Command :=
  { empty with
    sql := "INSERT INTO \"user\" (\"id\") VALUES (?)"
    params := ⟨[(.positional, .ofValue (.int32 n))]⟩ }

/-- The same command when it has been executed. -/
def executedUser (n : Int32) : Command :=
  { insertedUser n with
    prepared := some ⟨"INSERT INTO \"user\" (\"id\") VALUES ($1)", [.int32 n]⟩ }

/-- The command after another insert into the same columns, still with the first prepared form. -/
def reinsertedUser : Command :=
  { executedUser 1 with params := (insertedUser 2).params }

/-- The command that a second insert leaves sends the values of the first one. -/
theorem reinsertedUser_stale : Life rehearsal (executedUser 1) ∧
    (∃ w, (insertUser 2).After rehearsal (executedUser 1) w reinsertedUser) ∧
    ¬ reinsertedUser.SendsBound rehearsal := by
  have hinserted : Life rehearsal (insertedUser 1) :=
    .call (insertUser 1) rehearsalState (.create "") nofun (.inl rfl)
  have hexecuted : Life rehearsal (executedUser 1) :=
    .call .execute rehearsalState hinserted nofun (.inl rfl)
  have hafter : (insertUser 2).After rehearsal (executedUser 1) rehearsalState reinsertedUser :=
    .inl rfl
  refine ⟨hexecuted, ⟨rehearsalState, hafter⟩, fun hsends => ?_⟩
  have hiff := (sends_bound_iff rehearsal).2 _ _ _ _ hexecuted hafter (by decide)
  have hbound := hiff.mp hsends _ (insertedUser 2).params rfl rfl _ rfl
  cases hbound

end Command

end QueryKit
