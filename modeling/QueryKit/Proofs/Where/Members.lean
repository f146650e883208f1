import QueryKit.Proofs.Compile.Done
import QueryKit.Proofs.Condition.Canonical
import QueryKit.Proofs.Placeholder.Quoting
import QueryKit.Proofs.Where.Reading

/-!
# Membership with null

- `Dialect.IsPlainColumn`: columns that are written in quotes, which all names without special
  characters are (`Dialect.isPlainColumn_of_not_special`).
- `Operand.memberValues?`: the values of a membership test, if all of them are plain.
- `renderMembership_values`: the values that are not null are bound in their order, and the text is
  that of so many places and null.
- `searchTruth_memberText`: what the text tests, which has six shapes.
- `Compiler.buildCondition_isIn`: when a membership test over a plain column holds.
-/

namespace QueryKit

/-! ## Plain columns -/

/-- A column that is written in quotes. -/
def Dialect.IsPlainColumn (d : Dialect) (name : String) : Prop :=
  d.IsColumnText (d.columnName name)

namespace Dialect

variable {d : Dialect} {name : String}

theorem hasText_eq_false {c : Char} {t s : List Char} (h : c ∉ s) :
    Text.hasText (c :: t) s = false := by
  induction s with
  | nil => rfl
  | cons ch s ih =>
    obtain ⟨hch, hs⟩ := List.ne_and_not_mem_of_not_mem_cons h
    rw [Text.hasText, Text.dropText, if_neg hch, ih hs]
    rfl

theorem intercalate_concat {part : List Char} : ∀ {parts : List (List Char)}, parts ≠ [] →
    ['.'].intercalate (parts ++ [part]) = ['.'].intercalate parts ++ '.' :: part
  | [], h => absurd rfl h
  | [_], _ => by simp
  | first :: next :: parts, _ => by
    have ih : ['.'].intercalate (next :: parts ++ [part]) =
        ['.'].intercalate (next :: parts) ++ '.' :: part :=
      intercalate_concat (List.cons_ne_nil _ _)
    rw [List.cons_append] at ih
    rw [List.cons_append, List.cons_append, List.intercalate_cons_cons, ih,
      List.intercalate_cons_cons]
    simp

theorem quoteTablePart_of_not_mem {part : List Char} (h : d.quoteChar ∉ part) :
    d.quoteTablePart part = d.inQuotes part := by
  simp [quoteTablePart, h]

theorem quoteColumnPart_of_not_mem {part : List Char} (h : d.quoteChar ∉ part) (hstar : '*' ∉ part) :
    d.quoteColumnPart part = d.inQuotes part := by
  have hpart : part ≠ ['*'] := by
    rintro rfl
    exact hstar List.mem_cons_self
  simp [quoteColumnPart, h, hpart]

/-- A column without parentheses, wildcards, tokens and quotes is written in quotes. -/
theorem exists_path_of_not_mem {s : List Char} (ho : '(' ∉ s) (hstar : '*' ∉ s) (hbracket : '[' ∉ s)
    (hbrace : '\x7b' ∉ s) (hq : d.quoteChar ∉ s) :
    ∃ path, path ≠ [] ∧ (∀ part ∈ path, d.quoteChar ∉ part) ∧
      d.quoteColumnChars s = ['.'].intercalate (path.map d.inQuotes) := by
  rw [quoteColumnChars, if_neg (by simp [ho, hasText_eq_false hbracket])]
  cases hdot : Text.splitLast '.' s with
  | none =>
    refine ⟨[s], List.cons_ne_nil _ _, by simpa using hq, ?_⟩
    simp [openBraces, hasText_eq_false hbrace, quoteColumnPart_of_not_mem hq hstar]
  | some parts =>
    obtain ⟨table, column⟩ := parts
    obtain ⟨rfl, -⟩ := Text.splitLast_some hdot
    simp only [List.mem_append, List.mem_cons, not_or] at ho hstar hbrace hq
    have htable : d.quoteTableChars table =
        ['.'].intercalate ((Text.cutAt '.' table).map d.inQuotes) := by
      rw [quoteTableChars, if_neg (by simp [ho.1, openBraces, hasText_eq_false hbrace.1])]
      refine congrArg _ (List.map_congr_left fun part hpart => ?_)
      exact quoteTablePart_of_not_mem fun h => hq.1 (Text.subset_of_mem_cutAt hpart h)
    refine ⟨Text.cutAt '.' table ++ [column], by simp, fun part hpart => ?_, ?_⟩
    · rcases List.mem_append.mp hpart with h | h
      · exact fun hmem => hq.1 (Text.subset_of_mem_cutAt h hmem)
      · rw [List.mem_singleton.mp h]
        exact hq.2.2
    · rw [List.map_append, List.map_singleton,
        intercalate_concat (by simpa using Text.cutAt_ne_nil), ← htable,
        ← quoteColumnPart_of_not_mem hq.2.2 hstar.2.2]
      simp [openBraces, hasText_eq_false hbrace.2.2]

/-- Whether a character may keep a name from being written in quotes. -/
def isSpecial (d : Dialect) (ch : Char) : Bool :=
  ['(', '*', '[', '\x7b', d.quoteChar].contains ch

/-- Names without such characters are plain columns. -/
theorem isPlainColumn_of_not_special (h : name.toList.any d.isSpecial = false) :
    d.IsPlainColumn name := by
  have hnot : ∀ ch, d.isSpecial ch = true → ch ∉ name.toList := fun ch hch hmem =>
    List.any_eq_false.mp h ch hmem hch
  have hopening : '(' ∉ name.toList := hnot _ (by simp [isSpecial])
  obtain ⟨path, hne, hpath, hcolumn⟩ := exists_path_of_not_mem hopening
    (hnot '*' (by simp [isSpecial])) (hnot '[' (by simp [isSpecial]))
    (hnot '\x7b' (by simp [isSpecial])) (hnot d.quoteChar (by simp [isSpecial]))
  refine ⟨path, hne, hpath, ?_⟩
  rw [columnName, if_neg (by simpa using hopening), quoteColumnName, String.toList_ofList, hcolumn]

end Dialect

/-! ## Plain values -/

/-- The values of a membership test, if all of them are plain. -/
def Operand.memberValues? : Operand → Option (List Value)
  | .list items => plainValues items
  | .value (.array vs) => some vs
  | .value v => some [v]
  | _ => none

/-- The values that a membership test binds. -/
def boundMembers (vs : List Value) : List Value :=
  vs.filter fun v => !v.isNull

/-- The place of a member; null has none. -/
def memberPlace (v : Value) : Option String :=
  if v.isNull then none else some "?"

def Binding.ofValue (v : Value) : Binding :=
  ⟨.positional, .ofValue v⟩

theorem pushMembers_eq : ∀ vs : List Value,
    pushMembers vs = .ok (vs.map memberPlace, (boundMembers vs).map .ofValue)
  | [] => rfl
  | v :: vs => by
    have hv : pushMember v = .ok (memberPlace v, (boundMembers [v]).map .ofValue) := by
      cases v <;> rfl
    have hsplit : boundMembers (v :: vs) = boundMembers [v] ++ boundMembers vs :=
      List.filter_append [v] vs
    rw [hsplit, List.map_append]
    exact Compile.bind_eq_ok hv (Compile.bind_pure_eq_ok _ (pushMembers_eq vs))

theorem renderMembers_eq (c : Compiler) (name : Option String) :
    ∀ {items : List Operand} {vs : List Value}, plainValues items = some vs →
      renderMembers c name items = pushMembers vs
  | [], _, h => by
    cases h
    rw [renderMembers, pushMembers]
  | .value v :: items, _, h => by
    obtain ⟨vs, hvs, rfl⟩ := Option.map_eq_some_iff.mp h
    have hbound : renderOperand c .bound (.value v) = .push v := by
      rw [renderOperand]
    rw [renderMembers, renderMembers_eq c name hvs, pushMembers, hbound]
    · change (if v.isNull = true then _ else _) = _
      rw [pushMember]
      split
      · rfl
      · rw [bind_assoc]
    · intro entries hentries
      cases hentries

/-- A membership test among plain values. -/
theorem renderMembership_values (c : Compiler) (negated : Bool) (column : String)
    (name : Option String) {values : Operand} {vs : List Value}
    (h : values.memberValues? = some vs) :
    renderMembership c negated (.single column name) values =
      .ok (memberText column negated (vs.map memberPlace), (boundMembers vs).map .ofValue) := by
  have hmembers := Compile.bind_pure_eq_ok (memberText column negated) (pushMembers_eq vs)
  rw [← hmembers]
  match values with
  | .list items =>
    rw [renderMembership, renderMembers_eq c name h]
    rfl
  | .value v =>
    cases v with
    | _ =>
      cases h
      simp only [renderMembership]
      rfl

/-- A membership test of a column among plain values. -/
theorem renderCondition_isIn (d : Dialect) (negated : Bool) (name : String) {values : Operand}
    {vs : List Value} (h : values.memberValues? = some vs) :
    renderCondition (.ofDialect d) (.isIn (.string name) negated values) =
      .ok (memberText (d.columnName name) negated (vs.map memberPlace),
        (boundMembers vs).map .ofValue) := by
  rw [renderCondition, Compiler.membership, Compiler.through_condition d rfl]
  have hcolumn : renderMemberColumn (.ofDialect d) (.of values) (.string name) =
      .ok (.single (d.columnName name) (some name), []) := by
    rw [Operand.string, renderMemberColumn]
    rfl
  exact Compile.bind_eq_ok hcolumn (renderMembership_values _ negated _ _ h)

/-! ## What is tested -/

/-- AND for NOT IN, OR for IN. -/
def memberConjunction (negated : Bool) : Conjunction :=
  if negated then .and else .or

/-- The truth of a membership test of a cell: it is tested among the members that are not null, and
for null if null is a member. -/
def Truth.isIn (same : Value → Value → Bool) (negated : Bool) (cell : Value) (vs : List Value) :
    Truth :=
  (memberConjunction negated).joinTruth
    ((CellTest.among negated (boundMembers vs).length).truth same cell (boundMembers vs) ::
      if vs.any Value.isNull then [(CellTest.isNull negated).truth same cell []] else [])

section Text

variable {d : Dialect} {column : String} {vs : List Value} {negated : Bool}
  {same : Value → Value → Bool} {row : String → Value}

theorem places_members : ∀ vs : List Value,
    (vs.map memberPlace).filterMap id = List.replicate (boundMembers vs).length "?"
  | [] => rfl
  | v :: vs => by
    have ih := places_members vs
    cases v <;> simpa [boundMembers, memberPlace, Value.isNull, List.replicate_succ] using ih

theorem any_members (vs : List Value) :
    (vs.map memberPlace).any Option.isNone = vs.any Value.isNull := by
  rw [List.any_map]
  congr 1
  funext v
  cases v <;> rfl

/-- A test among some values. -/
theorem placedText_eq (column : String) (negated : Bool) (n : Nat) :
    placedText column negated (List.replicate (n + 1) "?") =
      (Predicate.cell column (.among negated (n + 1))).text := by
  cases n with
  | zero => cases negated <;> simp [placedText, Predicate.text, CellTest.text, String.append_assoc]
  | succ n =>
    change column ++ " " ++ inWord negated ++ " (" ++ placesText (n + 2) ++ ")" =
      column ++ (listWord negated ++ placesText (n + 2) ++ ")")
    cases negated <;> simp [inWord, listWord, ← String.toList_inj]

theorem nullText_eq (column : String) (negated : Bool) :
    (if negated then column ++ " IS NOT NULL" else column ++ " IS NULL") =
      (Predicate.cell column (.isNull negated)).text := by
  cases negated <;> rfl

/-- The text of a membership test, for each of its shapes. -/
theorem memberText_members (column : String) (negated : Bool) (vs : List Value) :
    memberText column negated (vs.map memberPlace) =
      match (boundMembers vs).length, vs.any Value.isNull with
      | 0, false => emptyText negated
      | 0, true => (Predicate.cell column (.isNull negated)).text
      | n + 1, false => (Predicate.cell column (.among negated (n + 1))).text
      | n + 1, true =>
        "(" ++ (Predicate.cell column (.among negated (n + 1))).text ++
          (" " ++ (memberConjunction negated).word ++ " ") ++
          (Predicate.cell column (.isNull negated)).text ++ ")" := by
  unfold memberText
  rw [places_members, any_members, nullText_eq]
  cases (boundMembers vs).length with
  | zero => cases vs.any Value.isNull <;> rfl
  | succ n =>
    have htest := placedText_eq column negated n
    cases vs.any Value.isNull with
    | false => exact htest
    | true =>
      dsimp only
      rw [← htest]
      cases negated <;> rfl

/-- Without members other than null, the test for null decides. -/
theorem joinTruth_among_nil (cell : Value) (t : Truth) :
    (memberConjunction negated).joinTruth [(CellTest.among negated 0).truth same cell [], t] =
      t := by
  cases negated <;> cases t <;> rfl

/-- What a membership test over a column in quotes says. -/
theorem searchTruth_memberText (hcolumn : d.IsColumnText column) :
    searchTruth d.quoteChar same row (memberText column negated (vs.map memberPlace))
        (boundMembers vs) = some (.isIn same negated (row column) vs) := by
  have hnull : (Predicate.cell column (.isNull negated)).IsPlain d := ⟨hcolumn, trivial⟩
  have hnone : ([] : List Value).length = (Predicate.cell column (.isNull negated)).places := rfl
  rw [memberText_members, Truth.isIn]
  cases hlength : (boundMembers vs).length with
  | zero =>
    rw [List.length_eq_zero_iff.mp hlength]
    cases hany : vs.any Value.isNull with
    | false =>
      cases negated with
      | false =>
        have hzero : Predicate.zeroIsOne.IsPlain d := trivial
        exact searchTruth_predicate hzero rfl
      | true => rfl
    | true =>
      dsimp only
      rw [searchTruth_predicate hnull hnone, if_pos rfl, joinTruth_among_nil]
      rfl
  | succ n =>
    have hamong : (Predicate.cell column (.among negated (n + 1))).IsPlain d :=
      ⟨hcolumn, Nat.succ_ne_zero n⟩
    cases hany : vs.any Value.isNull with
    | false =>
      dsimp only
      rw [searchTruth_predicate hamong hlength, if_neg Bool.false_ne_true,
        Conjunction.joinTruth_singleton]
      rfl
    | true =>
      have hpair := @searchTruth_pair d same row _ _ _ _ (memberConjunction negated) hamong hnull
        hlength hnone
      rw [List.append_nil] at hpair
      exact hpair

end Text

/-! ## When it holds -/

section Holds

variable {same : Value → Value → Bool} {cell v : Value} {vs : List Value}

theorem mem_boundMembers : v ∈ boundMembers vs ↔ v ∈ vs ∧ v.isNull = false := by
  simp [boundMembers]

theorem isNull_holds {negated : Bool} :
    (CellTest.isNull negated).truth same cell [] = .holds ↔ cell.isNull = !negated := by
  rw [CellTest.truth, Truth.ofBool_eq_holds]
  cases negated <;> simp

/-- IN holds if the cell equals a member, or if it and a member are null. -/
theorem Truth.isIn_holds : Truth.isIn same false cell vs = .holds ↔
    (cell.isNull = false ∧ ∃ v ∈ vs, v.isNull = false ∧ same cell v = true) ∨
      (cell.isNull = true ∧ ∃ v ∈ vs, v.isNull = true) := by
  have hnull : (.holds ∈ if vs.any Value.isNull then [(CellTest.isNull false).truth same cell []]
      else []) ↔ cell.isNull = true ∧ ∃ v ∈ vs, v.isNull = true := by
    rw [← List.any_eq_true]
    split
    · next h => rw [List.mem_singleton, eq_comm, isNull_holds, and_iff_left h, Bool.not_false]
    · next h => simp only [List.not_mem_nil, h, and_false, Bool.false_eq_true]
  change Conjunction.joinTruth .or _ = _ ↔ _
  rw [Conjunction.joinTruth_or_holds, List.mem_cons, eq_comm, CellTest.among_holds, hnull]
  simp only [mem_boundMembers, and_assoc, and_self_left]

/-- NOT IN holds if there is a member, and the cell is not null and differs from every member that
is not null. -/
theorem Truth.isNotIn_holds (hne : vs ≠ []) : Truth.isIn same true cell vs = .holds ↔
    cell.isNull = false ∧ ∀ v ∈ vs, v.isNull = false → same cell v = false := by
  change Conjunction.joinTruth .and _ = _ ↔ _
  rw [Conjunction.joinTruth_and_holds, List.forall_mem_cons]
  by_cases hbound : boundMembers vs = []
  · -- every member is null, and only the test for null is left
    have hall : ∀ v ∈ vs, v.isNull = true := by
      intro v hv
      by_contra hnull
      have hmem := mem_boundMembers.mpr ⟨hv, Bool.not_eq_true _ ▸ hnull⟩
      rw [hbound] at hmem
      exact List.not_mem_nil hmem
    obtain ⟨w, hw⟩ := List.exists_mem_of_ne_nil vs hne
    have hany : vs.any Value.isNull = true := List.any_eq_true.mpr ⟨w, hw, hall w hw⟩
    rw [hbound, if_pos hany, List.forall_mem_singleton, isNull_holds]
    constructor
    · rintro ⟨-, hcell⟩
      refine ⟨hcell, fun v hv hnull => ?_⟩
      rw [hall v hv] at hnull
      cases hnull
    · rintro ⟨hcell, -⟩
      exact ⟨rfl, hcell⟩
  · rw [CellTest.notAmong_holds hbound]
    constructor
    · rintro ⟨⟨hcell, h⟩, -⟩
      exact ⟨hcell, fun v hv hnull => (h v (mem_boundMembers.mpr ⟨hv, hnull⟩)).2⟩
    · rintro ⟨hcell, h⟩
      refine ⟨⟨hcell, fun v hv => ?_⟩, ?_⟩
      · obtain ⟨hv, hnull⟩ := mem_boundMembers.mp hv
        exact ⟨hnull, h v hv hnull⟩
      · split
        · rw [List.forall_mem_singleton, isNull_holds]
          exact hcell
        · exact nofun

end Holds

/-- A membership test over a plain column binds the members that are not null, in their order. IN
holds of a row if the cell equals such a member, or if both the cell and a member are null. NOT IN
among some members holds if the cell is not null and differs from all such members. -/
theorem Compiler.buildCondition_isIn (d : Dialect) (ps : Params) {o : Operand} {name : String}
    {negated : Bool} {values : Operand} {vs : List Value} (hcolumn : d.IsPlainColumn name)
    (ho : o.Denotes (.isIn (.string name) negated values))
    (hvalues : values.memberValues? = some vs) :
    ∃ text, (ofDialect d).buildCondition o ps =
        .ok (text, ps.bindAll ((vs.filter fun v => !v.isNull).map fun v =>
          ⟨.positional, .ofValue v⟩)) ∧
      ∀ (same : Value → Value → Bool) (row : String → Value), ∃ t,
        searchTruth d.quoteChar same row text (vs.filter fun v => !v.isNull) = some t ∧
        (negated = false → (t = .holds ↔
          ((row (d.columnName name)).isNull = false ∧
              ∃ v ∈ vs, v.isNull = false ∧ same (row (d.columnName name)) v = true) ∨
            ((row (d.columnName name)).isNull = true ∧ ∃ v ∈ vs, v.isNull = true))) ∧
        (negated = true → vs ≠ [] → (t = .holds ↔
          (row (d.columnName name)).isNull = false ∧
            ∀ v ∈ vs, v.isNull = false → same (row (d.columnName name)) v = false)) := by
  refine ⟨memberText (d.columnName name) negated (vs.map memberPlace), ?_, fun same row => ?_⟩
  · rw [buildCondition, ho.render, renderCondition_isIn d negated name hvalues]
    rfl
  · refine ⟨.isIn same negated (row (d.columnName name)) vs, searchTruth_memberText hcolumn, ?_, ?_⟩
    · rintro rfl
      exact Truth.isIn_holds
    · rintro rfl hne
      exact Truth.isNotIn_holds hne

/-- Numbers that are known, of which one is not. -/
def knownNumbers : Operand :=
  .list [.string " Not In ", .string "u.id", .list [.value (.int32 1), .value .null,
    .value (.int32 2), .value (.int32 1)], .string "not looked at"]

theorem knownNumbers_isIn :
    Dialect.postgres.IsPlainColumn "u.id" ∧
      knownNumbers.Denotes (.isIn (.string "u.id") true
        (.list [.value (.int32 1), .value .null, .value (.int32 2), .value (.int32 1)])) ∧
      ∃ text, (Compiler.ofDialect .postgres).buildCondition knownNumbers .empty =
          .ok (text, Params.empty.bindAll
            ([Value.int32 1, .int32 2, .int32 1].map fun v => ⟨.positional, .ofValue v⟩)) ∧
        ∀ (same : Value → Value → Bool) (row : String → Value), ∃ t,
          searchTruth '"' same row text [.int32 1, .int32 2, .int32 1] = some t ∧
          (true = false → (t = .holds ↔
            ((row (Dialect.postgres.columnName "u.id")).isNull = false ∧
                ∃ v ∈ [Value.int32 1, .null, .int32 2, .int32 1], v.isNull = false ∧
                  same (row (Dialect.postgres.columnName "u.id")) v = true) ∨
              ((row (Dialect.postgres.columnName "u.id")).isNull = true ∧
                ∃ v ∈ [Value.int32 1, .null, .int32 2, .int32 1], v.isNull = true))) ∧
          (true = true → [Value.int32 1, .null, .int32 2, .int32 1] ≠ [] → (t = .holds ↔
            (row (Dialect.postgres.columnName "u.id")).isNull = false ∧
              ∀ v ∈ [Value.int32 1, .null, .int32 2, .int32 1], v.isNull = false →
                same (row (Dialect.postgres.columnName "u.id")) v = false)) := by
  have hcolumn : Dialect.postgres.IsPlainColumn "u.id" :=
    ⟨["u".toList, "id".toList], by decide, by decide, by decide⟩
  have ho : knownNumbers.Denotes (.isIn (.string "u.id") true
      (.list [.value (.int32 1), .value .null, .value (.int32 2), .value (.int32 1)])) := .inl rfl
  exact ⟨hcolumn, ho, Compiler.buildCondition_isIn .postgres .empty hcolumn ho rfl⟩

end QueryKit
