import QueryKit.Proofs.Fetch.Window
import QueryKit.Proofs.Placeholder.Scan
import QueryKit.Proofs.Text.Delimited

/-!
# Servers that list rows

- `IsLiteral`: a text without quotes, placeholders and quoting tokens. It is sent as it stands
  (`Command.preparation_literal`).
- `windowText_inj`: windows that differ have texts that differ.
- `listing`: a client whose server answers some windows of a statement, and fails otherwise.
-/

namespace QueryKit

/-! ## Texts that are sent as they stand -/

/-- Whether a character is kept wherever it stands. -/
def isKept (c : Char) : Bool :=
  !Scan.isQuote c && c != '?' && c != ':' && c != '[' && c != '\x7b'

/-- A text without quotes, placeholders and quoting tokens. -/
def IsLiteral (s : String) : Prop :=
  s.toList.all isKept = true

instance (s : String) : Decidable (IsLiteral s) :=
  inferInstanceAs (Decidable (_ = true))

theorem IsLiteral.append {s t : String} (hs : IsLiteral s) (ht : IsLiteral t) :
    IsLiteral (s ++ t) := by
  unfold IsLiteral at *
  rw [String.toList_append, List.all_append, hs, ht]
  rfl

theorem isKept_of_isDigit {c : Char} (h : c.isDigit = true) : isKept c = true := by
  have hne : ∀ d : Char, d.isDigit = false → c ≠ d := by
    rintro d hd rfl
    exact Bool.false_ne_true (hd.symm.trans h)
  simp [isKept, Scan.isQuote, hne '\'' rfl, hne '"' rfl, hne '\x60' rfl, hne '?' rfl, hne ':' rfl,
    hne '[' rfl, hne '\x7b' rfl]

theorem isLiteral_natRepr (n : Nat) : IsLiteral (Nat.repr n) :=
  List.all_eq_true.mpr fun _ hc => isKept_of_isDigit (isDigit_of_mem_natRepr hc)

theorem IsLiteral.window {text : String} (h : IsLiteral text) (limit offset : Nat) :
    IsLiteral (windowText text limit offset) := by
  have hlimit := (h.append (t := " LIMIT ") (by decide)).append (isLiteral_natRepr limit)
  unfold windowText
  split
  · exact hlimit.append (by decide)
  · exact hlimit.append (IsLiteral.append (by decide) (isLiteral_natRepr offset))

theorem expandTokens_literal (d : Dialect) (tablePrefix : List Char) : ∀ {s : List Char},
    s.all isKept = true → d.expandTokens tablePrefix 0 s = s
  | [], _ => rfl
  | c :: s, h => by
    obtain ⟨hc, hs⟩ := List.forall_mem_cons.mp (List.all_eq_true.mp h)
    simp only [isKept, Bool.and_eq_true, bne_iff_ne] at hc
    have htable : Dialect.tableToken (c :: s) = none := by
      simp [Dialect.tableToken, Dialect.openBraces, Text.dropText, Ne.symm hc.2]
    have hcolumn : Dialect.columnToken (c :: s) = none := by
      simp [Dialect.columnToken, Text.dropText, Ne.symm hc.1.2]
    rw [Dialect.expandTokens, Dialect.expandToken, htable, hcolumn]
    exact congrArg (c :: ·) (expandTokens_literal d tablePrefix (List.all_eq_true.mpr hs))

theorem quoteTokens_literal {sql : String} (h : IsLiteral sql) (d : Dialect) (tablePrefix : String) :
    d.quoteTokens tablePrefix sql = sql := by
  rw [Dialect.quoteTokens, expandTokens_literal d _ h, String.ofList_toList]

/-- A text without placeholders takes no values. -/
theorem bindSql_literal {sql : String} (h : IsLiteral sql) (escapes : Bool)
    (emit : Param → Nat → String) : Params.empty.bindSql sql escapes emit = .ok (sql, []) := by
  have hplain : ∀ c ∈ sql.toList, Scan.isQuote c = false ∧ c ≠ '?' ∧ c ≠ ':' := by
    intro c hc
    have hkept := List.all_eq_true.mp h c hc
    simp only [isKept, Bool.and_eq_true, bne_iff_ne, Bool.not_eq_true'] at hkept
    exact ⟨hkept.1.1.1.1, hkept.1.1.1.2, hkept.1.1.2⟩
  have hpieces : Scan.pieces escapes sql = sql.toList.map .verbatim ++ [] := by
    rw [Scan.pieces, Scan.run_eq_scan, Scan.scan_plain hplain]
    rfl
  have hfill : Params.empty.fillPieces emit (Scan.pieces escapes sql) Params.empty.positional 1
      = some (sql.toList ++ [], []) := by
    rw [hpieces, Params.fillPieces_verbatim]
    rfl
  unfold Params.bindSql
  rw [hfill]
  dsimp only
  rw [List.append_nil, String.ofList_toList]

/-! ## Windows -/

/-- The end of a window's text, from its offset on. -/
def offsetText (offset : Nat) : String :=
  if offset = 0 then "" else " OFFSET " ++ Nat.repr offset

theorem stops_offsetText (offset : Nat) : Stops Char.isDigit (offsetText offset).toList := by
  unfold offsetText
  split
  · exact Stops.nil
  · rw [String.toList_append]
    exact stops_cons rfl

theorem offsetText_succ (n : Nat) :
    (offsetText (n + 1)).toList = ' ' :: ("OFFSET ".toList ++ (Nat.repr (n + 1)).toList) := by
  rw [offsetText, if_neg (Nat.succ_ne_zero n), String.toList_append]
  rfl

theorem offsetText_inj {o o' : Nat} (h : (offsetText o).toList = (offsetText o').toList) :
    o = o' := by
  cases o with
  | zero =>
    cases o' with
    | zero => rfl
    | succ n' =>
      rw [offsetText_succ] at h
      cases h
  | succ n =>
    cases o' with
    | zero =>
      rw [offsetText_succ] at h
      cases h
    | succ n' =>
      rw [offsetText_succ, offsetText_succ] at h
      exact natRepr_inj (List.append_cancel_left (List.cons.inj h).2)

/-- Windows that differ have texts that differ. -/
theorem windowText_inj {text : String} {l l' o o' : Nat}
    (h : windowText text l o = windowText text l' o') : l = l' ∧ o = o' := by
  have hlist := congrArg String.toList h
  change ((text ++ " LIMIT " ++ Nat.repr l) ++ offsetText o).toList
    = ((text ++ " LIMIT " ++ Nat.repr l') ++ offsetText o').toList at hlist
  simp only [String.toList_append, List.append_assoc] at hlist
  have hnumbers := List.append_cancel_left (List.append_cancel_left hlist)
  obtain ⟨hl, ho⟩ := natRepr_cancel (stops_offsetText o) (stops_offsetText o') hnumbers
  exact ⟨hl, offsetText_inj ho⟩

theorem unionWindowText_inj {text : String} {parts : List String} {l l' o o' : Nat}
    (h : unionWindowText text parts l o = unionWindowText text parts l' o') : l = l' ∧ o = o' := by
  have hlists := congrArg String.toList h
  simp only [unionWindowText, String.toList_append] at hlists
  have hwindow := List.append_cancel_right (List.append_cancel_right hlists)
  exact windowText_inj (String.toList_inj.mp (List.append_cancel_left hwindow))

/-! ## A listing server -/

/-- Whether a step has a result that passes a check. -/
def Outcome.any {α : Type} (check : α → Bool) : Outcome α → Bool
  | .done a => check a
  | _ => false

theorem Outcome.exists_of_any {σ α : Type} {check : α → Bool} {x : Run σ α} {w : RunState σ}
    (h : (x w).1.any check = true) : ∃ a w', x w = (.done a, w') ∧ check a = true := by
  rcases hx : x w with ⟨a | e | _, w'⟩
  · rw [hx] at h
    exact ⟨a, w', rfl, h⟩
  · rw [hx] at h
    cases h
  · rw [hx] at h
    cases h

namespace Command

/-- A text that is sent as it stands, without values. -/
theorem preparation_literal {σ : Type} (c : Client σ) (q : Query) {sql : String}
    (h : IsLiteral sql) :
    (c.commandFor q (sql, .empty)).preparation c.connection = .ok ⟨sql, []⟩ := by
  have hcreate : create c.connection sql = { empty with sql } := by
    rw [create, setSql, Connection.quoteSql, quoteTokens_literal h, setRawSql]
    split
    · next hempty => rw [hempty]
    · rfl
  rw [Client.commandFor, hcreate]
  change bound c.connection _ = _
  rw [bound]
  change (Params.empty.bindSql sql _ _ >>= _) = _
  rw [bindSql_literal h]
  rfl

end Command

namespace Client

/-- A client whose server answers windows of a statement, and fails for every other text. -/
def listing (text : Nat → Nat → String) (page : Nat → Nat → List Row)
    (windows : List (Nat × Nat)) : Client Recorder :=
  { rehearsal with
    backend := { rehearsal.backend with
      fetch := fun _ sql _ servers =>
        match windows.find? fun (limit, offset) => sql == text limit offset with
        | some (limit, offset) => (.done (page limit offset), servers)
        | none => (.failed (.invalidCall .commitInactive), servers) } }

variable {text : Nat → Nat → String} {page : Nat → Nat → List Row} {windows : List (Nat × Nat)}

/-- Every window that is answered is answered by its page. -/
theorem listing_fetch (hinj : ∀ l o l' o', text l o = text l' o' → l = l' ∧ o = o')
    {limit offset : Nat} {link : Link} {values : List Value} {s s' : Recorder} {rows : List Row}
    (h : (listing text page windows).backend.fetch link (text limit offset) values s
      = (.done rows, s')) : rows = page limit offset := by
  change (match windows.find? fun (l, o) => text limit offset == text l o with
    | some (l, o) => (Outcome.done (page l o), s)
    | none => (.failed (.invalidCall .commitInactive), s)) = (.done rows, s') at h
  split at h
  · next l o hfind =>
    have heq : text limit offset = text l o := by simpa using List.find?_some hfind
    obtain ⟨rfl, rfl⟩ := hinj _ _ _ _ heq
    cases h
    rfl
  · cases h

/-- The server lists the rows for a query whose text needs no preparation. -/
theorem listing_lists {q : Query} {text : String} {rows : List Row} (windows : List (Nat × Nat))
    (hshare : q.share = false) (hcache : q.cache = none) (hliteral : IsLiteral text)
    (hbuild : rehearsal.connection.compiler.build q.operand .empty = .ok (text, .empty)) :
    (listing (windowText text) (fun limit offset => (rows.drop offset).take limit) windows).Lists
      (fun _ => True) q rows := by
  refine lists_of_fetch hshare hcache ?_
  intro text' params limit offset p hbuild' hp link s page s' h
  cases hbuild.symm.trans hbuild'
  rw [Command.preparation_literal _ q (hliteral.window limit offset)] at hp
  cases hp
  exact listing_fetch (fun _ _ _ _ => windowText_inj) h

/-- The same for a UNION ALL: its members stand behind each window. -/
theorem listing_listsUnion {q : Query} {text : String} {parts : List String} {own others : List Row}
    (windows : List (Nat × Nat)) (hshare : q.share = false) (hcache : q.cache = none)
    (hliteral : IsLiteral text)
    (hmembers : IsLiteral (Text.joinWith " " (parts.map (unionText true))))
    (hbuild : rehearsal.connection.compiler.build q.operand .empty = .ok (text, .empty))
    (hparts : (renderMemberQueries rehearsal.connection.compiler q.unions).into .empty
      = .ok (parts, .empty)) :
    (listing (unionWindowText text parts)
      (fun limit offset => (own.drop offset).take limit ++ others) windows).ListsUnion
      (fun _ => True) q own others := by
  refine ⟨fun text' params parts' params' hbuild' hparts' limit offset => ?_⟩
  cases hbuild.symm.trans hbuild'
  cases hparts.symm.trans hparts'
  have hopen : IsLiteral "(" := by decide
  have hclose : IsLiteral ") " := by decide
  have hsent : IsLiteral (unionWindowText text parts limit offset) :=
    ((hopen.append (hliteral.window limit offset)).append hclose).append hmembers
  refine (readText_answers hshare hcache fun p hp link s page s' h => ?_).imp
    fun _ _ h => ⟨h, trivial⟩
  rw [Command.preparation_literal _ q hsent] at hp
  cases hp
  exact listing_fetch (fun _ _ _ _ => unionWindowText_inj) h

end Client

end QueryKit
