import QueryKit.Proofs.Where.Members
import QueryKit.Proofs.Where.Restriction
import QueryKit.Statement.Write

/-!
# Membership tests under AND, OR and NOT

- `Operand.Says`: the conditions that are restrictions. They are rendered as what is left of a
  formula over the texts of their tests (`Operand.Says.renders`).
- `searchTruth_printed`: the text has the truth that the restriction says.
- `Compiler.buildCondition_keeps`: which rows the clause of such a condition keeps, also in an UPDATE
  and a DELETE.
- `everyUser_kept`: a condition that holds of no row, and a DELETE with it that has no clause.
-/

namespace QueryKit

namespace Restriction

mutual

/-- The values that a restriction is about. -/
def values : Restriction → List Value
  | .among _ _ vs => vs
  | .not r => r.values
  | .junction _ rs => valuesAll rs

def valuesAll : List Restriction → List Value
  | [] => []
  | r :: rs => r.values ++ valuesAll rs

end

mutual

/-- The columns that a restriction is about. -/
def columns : Restriction → List String
  | .among column _ _ => [column]
  | .not r => r.columns
  | .junction _ rs => columnsAll rs

def columnsAll : List Restriction → List String
  | [] => []
  | r :: rs => r.columns ++ columnsAll rs

end

mutual

/-- A restriction as a formula over the texts of its tests. -/
def formula (d : Dialect) : Restriction → Formula
  | .among column negated vs =>
    .raw (memberText (d.columnName column) negated (vs.map memberPlace))
  | .not r => .not (r.formula d)
  | .junction c rs => .junction c (formulas d rs)

def formulas (d : Dialect) : List Restriction → List Formula
  | [] => []
  | r :: rs => r.formula d :: formulas d rs

end

theorem valuesAll_eq : ∀ rs : List Restriction, valuesAll rs = rs.flatMap values
  | [] => rfl
  | r :: rs => by rw [valuesAll, valuesAll_eq rs, List.flatMap_cons]

theorem columnsAll_eq : ∀ rs : List Restriction, columnsAll rs = rs.flatMap columns
  | [] => rfl
  | r :: rs => by rw [columnsAll, columnsAll_eq rs, List.flatMap_cons]

theorem formulas_eq (d : Dialect) : ∀ rs : List Restriction, formulas d rs = rs.map (formula d)
  | [] => rfl
  | r :: rs => by rw [formulas, formulas_eq d rs, List.map_cons]

end Restriction

/-! ## Conditions that are restrictions -/

/-- The condition is the restriction, whatever it and its parts are written with. -/
inductive Operand.Says : Operand → Restriction → Prop where
  | among {o values : Operand} {name : String} {negated : Bool} {vs : List Value} :
      o.Denotes (.isIn (.string name) negated values) → values.memberValues? = some vs →
      Says o (.among name negated vs)
  | not {o p : Operand} {r : Restriction} : o.Denotes (.not p) → Says p r → Says o (.not r)
  | junction {o : Operand} {c : Conjunction} {os : List Operand} {rs : List Restriction} :
      o.Denotes (.conjunction c os) → os.length = rs.length → (∀ p ∈ os.zip rs, Says p.1 p.2) →
      Says o (.junction c rs)

open Formula Restriction

section Render

variable {d : Dialect}

/-- A condition is rendered as the normal form of a restriction, and binds its values. -/
def Operand.Renders (d : Dialect) (o : Operand) (r : Restriction) : Prop :=
  renderOperand (.ofDialect d) .condition o =
    .ok (Formula.printed (r.formula d).normal, (boundMembers r.values).map .ofValue)

theorem boundMembers_append (vs ws : List Value) :
    boundMembers (vs ++ ws) = boundMembers vs ++ boundMembers ws :=
  List.filter_append vs ws

theorem renderConditions_restrictions : ∀ {os : List Operand} {rs : List Restriction},
    os.length = rs.length → (∀ p ∈ os.zip rs, p.1.Renders d p.2) →
    renderConditions (.ofDialect d) os =
      .ok ((formulas d rs).map fun f => Formula.printed f.normal,
        (boundMembers (valuesAll rs)).map .ofValue)
  | [], [], _, _ => rfl
  | o :: os, r :: rs, hlength, h => by
    rw [List.zip_cons_cons] at h
    obtain ⟨ho, hos⟩ := List.forall_mem_cons.mp h
    rw [renderConditions, valuesAll, boundMembers_append, List.map_append]
    exact Compile.bind_eq_ok ho
      (Compile.bind_pure_eq_ok _ (renderConditions_restrictions (Nat.succ.inj hlength) hos))

/-- A restriction is rendered as what is left of its formula, and binds its values in order. -/
theorem Operand.Says.renders {o : Operand} {r : Restriction} (h : o.Says r) : o.Renders d r := by
  induction h with
  | @among o values name negated vs ho hvalues =>
    rw [Renders, ho.render, renderCondition_isIn d negated name hvalues, formula, printed_raw]
    rfl
  | @not o p r ho _ ih =>
    rw [Renders, ho.render, renderCondition, negation_ofDialect, formula, ← notText_printed]
    exact Compile.bind_pure_eq_ok notText ih
  | @junction o c os rs ho hlength _ ih =>
    rw [Renders, ho.render, renderCondition, conjunction_ofDialect, formula, normal,
      ← conjunctionText_eq c (filter_printed (formulas d rs))]
    exact Compile.bind_pure_eq_ok (conjunctionText c) (renderConditions_restrictions hlength ih)

end Render

/-! ## The truth of what is rendered -/

/-- The columns of a restriction are plain, and none of its values is null. -/
structure Restriction.IsPlain (d : Dialect) (r : Restriction) : Prop where
  columns : ∀ column ∈ r.columns, d.IsPlainColumn column
  values : ∀ v ∈ r.values, v.isNull = false

section Truth

variable {d : Dialect} {same : Value → Value → Bool} {row : String → Value} {r : Restriction}
  {rs : List Restriction} {c : Conjunction}

theorem boundMembers_eq {vs : List Value} (h : ∀ v ∈ vs, v.isNull = false) :
    boundMembers vs = vs :=
  List.filter_eq_self.mpr fun v hv => by rw [h v hv]; rfl

/-- The text of a test among values of which none is null. -/
theorem memberText_of_not_null {column : String} {negated : Bool} {vs : List Value}
    (h : ∀ v ∈ vs, v.isNull = false) :
    memberText column negated (vs.map memberPlace) =
      if vs = [] then emptyText negated
      else (Predicate.cell column (.among negated vs.length)).text := by
  have hany : vs.any Value.isNull = false := by
    rw [List.any_eq_false]
    exact fun v hv => by rw [h v hv]; exact Bool.false_ne_true
  rw [memberText_members, boundMembers_eq h, hany]
  cases vs <;> rfl

namespace Restriction

theorem mem_columnsAll {column : String} (hr : r ∈ rs) (h : column ∈ r.columns) :
    column ∈ columnsAll rs := by
  rw [columnsAll_eq]
  exact List.mem_flatMap.mpr ⟨r, hr, h⟩

theorem IsPlain.operand (h : (junction c rs).IsPlain d) (hr : r ∈ rs) : r.IsPlain d := by
  refine ⟨fun column hcolumn => h.columns column (mem_columnsAll hr hcolumn), fun v hv => ?_⟩
  apply h.values v
  rw [Restriction.values, valuesAll_eq]
  exact List.mem_flatMap.mpr ⟨r, hr, hv⟩

/-- What is left of the formula of a restriction says what the restriction says. -/
def Agrees (d : Dialect) (same : Value → Value → Bool) (row : String → Value) (r : Restriction) :
    Option Formula → Prop
  | none => r.said same (row ∘ d.columnName) = none ∧ r.values = []
  | some g => ∃ b, r.said same (row ∘ d.columnName) = some b ∧
      ∀ ws, g.truth d.quoteChar same row (r.values ++ ws) = some (.ofBool b, ws)

theorem agrees_among {column : String} {negated : Bool} {vs : List Value}
    (h : (among column negated vs).IsPlain d)
    (hcell : (row (d.columnName column)).isNull = false) :
    (among column negated vs).Agrees d same row ((among column negated vs).formula d).normal := by
  have hcolumn : d.IsPlainColumn column := h.columns column List.mem_cons_self
  have hvs : ∀ v ∈ vs, v.isNull = false := h.values
  rw [formula, memberText_of_not_null hvs]
  cases vs with
  | nil =>
    cases negated with
    | true => exact ⟨rfl, rfl⟩
    | false =>
      have hzero : Predicate.zeroIsOne.IsPlain d := trivial
      exact ⟨false, rfl, fun ws => Formula.truth_raw hzero rfl⟩
  | cons v vs =>
    have hp : (Predicate.cell (d.columnName column)
        (.among negated (v :: vs).length)).IsPlain d := ⟨hcolumn, Nat.succ_ne_zero _⟩
    rw [if_neg (List.cons_ne_nil v vs), normal, if_neg (Predicate.text_ne_empty hp)]
    refine ⟨(v :: vs).any (same (row (d.columnName column))) != negated, ?_, fun ws => ?_⟩
    · cases negated <;> rfl
    · rw [values, Formula.truth_raw hp rfl, Predicate.truth,
        CellTest.among_eq_ofBool negated hcell hvs]

/-- The operands that say something say it one after the other, with their values. -/
theorem truths_normals : ∀ {rs : List Restriction},
    (∀ r ∈ rs, r.Agrees d same row (r.formula d).normal) →
    (saids same (row ∘ d.columnName) rs).length = (normals (formulas d rs)).length ∧
      ∀ ws, Formula.truths d.quoteChar same row (normals (formulas d rs)) (valuesAll rs ++ ws) =
        some ((saids same (row ∘ d.columnName) rs).map .ofBool, ws)
  | [], _ => ⟨rfl, fun _ => rfl⟩
  | r :: rs, h => by
    obtain ⟨hr, hrs⟩ := List.forall_mem_cons.mp h
    obtain ⟨hlength, htruths⟩ := truths_normals hrs
    rw [formulas, normals, saids, valuesAll]
    cases hn : (r.formula d).normal with
    | none =>
      rw [hn] at hr
      obtain ⟨hsaid, hvalues⟩ := hr
      rw [hsaid, hvalues]
      exact ⟨hlength, htruths⟩
    | some g =>
      rw [hn] at hr
      obtain ⟨b, hsaid, htruth⟩ := hr
      rw [hsaid]
      refine ⟨congrArg (· + 1) hlength, fun ws => ?_⟩
      rw [List.append_assoc]
      exact Formula.truths_cons (htruth _) (htruths ws)

/-- What is left of an AND or OR has the truth of it. -/
theorem truth_collapse {f : Formula} {fs : List Formula} {ts : List QueryKit.Truth}
    {vs ws : List Value} (hf : collapse c fs = some f)
    (h : Formula.truths d.quoteChar same row fs vs = some (ts, ws)) :
    f.truth d.quoteChar same row vs = some (c.joinTruth ts, ws) := by
  match fs, hf with
  | [g], hf =>
    cases hf
    rw [Formula.truths] at h
    cases hg : f.truth d.quoteChar same row vs with
    | none =>
      rw [hg] at h
      cases h
    | some found =>
      rw [hg] at h
      cases h
      rw [Conjunction.joinTruth_singleton]
  | _ :: _ :: _, hf =>
    cases hf
    exact Formula.truth_junction c h

theorem agrees_junction (h : ∀ r ∈ rs, r.Agrees d same row (r.formula d).normal) :
    (junction c rs).Agrees d same row ((junction c rs).formula d).normal := by
  obtain ⟨hlength, htruths⟩ := truths_normals h
  rw [formula, normal]
  cases hn : normals (formulas d rs) with
  | nil =>
    rw [hn] at hlength htruths
    have hnone := List.length_eq_zero_iff.mp hlength
    have hvalues : some (([] : List QueryKit.Truth), valuesAll rs ++ []) = some (_, []) :=
      htruths []
    rw [hnone, List.append_nil] at hvalues
    refine ⟨by rw [said, hnone], ?_⟩
    exact congrArg Prod.snd (Option.some.inj hvalues)
  | cons g gs =>
    obtain ⟨f, hf⟩ := exists_collapse c (List.cons_ne_nil g gs)
    rw [hn] at hlength htruths
    rw [hf]
    refine ⟨c.join (saids same (row ∘ d.columnName) rs), ?_, fun ws => ?_⟩
    · rw [said]
      cases hsaids : saids same (row ∘ d.columnName) rs with
      | nil =>
        rw [hsaids] at hlength
        cases hlength
      | cons b bs => rfl
    · rw [← Conjunction.joinTruth_ofBool]
      exact truth_collapse hf (htruths ws)

/-- The clause says what the restriction says. -/
theorem agrees (h : r.IsPlain d)
    (hcells : ∀ column ∈ r.columns, (row (d.columnName column)).isNull = false) :
    r.Agrees d same row (r.formula d).normal := by
  induction r using operand_induction with
  | among column negated vs => exact agrees_among h (hcells column List.mem_cons_self)
  | not r ih =>
    have hr := ih ⟨h.columns, h.values⟩ hcells
    rw [formula, normal]
    cases hn : (r.formula d).normal with
    | none =>
      rw [hn] at hr
      exact ⟨by rw [said, hr.1]; rfl, hr.2⟩
    | some g =>
      rw [hn] at hr
      obtain ⟨b, hsaid, htruth⟩ := hr
      refine ⟨!b, by rw [said, hsaid]; rfl, fun ws => ?_⟩
      rw [← Truth.not_ofBool]
      exact Formula.truth_not (htruth ws)
  | junction c rs ih =>
    exact agrees_junction fun r hr =>
      ih r hr (h.operand hr) fun column hcolumn => hcells column (mem_columnsAll hr hcolumn)

/-- The raw texts of the formula of a restriction are predicates, unless they are empty. -/
theorem mem_raws {s : String} (h : r.IsPlain d) (hs : s ∈ (r.formula d).raws) (hne : s ≠ "") :
    ∃ p : Predicate, p.IsPlain d ∧ s = p.text := by
  induction r using operand_induction with
  | among column negated vs =>
    have hvs : ∀ v ∈ vs, v.isNull = false := h.values
    rw [formula, memberText_of_not_null hvs, raws, List.mem_singleton] at hs
    subst hs
    cases vs with
    | nil =>
      cases negated with
      | true => exact absurd rfl hne
      | false => exact ⟨.zeroIsOne, trivial, rfl⟩
    | cons v vs =>
      refine ⟨.cell (d.columnName column) (.among negated (v :: vs).length), ?_, rfl⟩
      exact ⟨h.columns column List.mem_cons_self, Nat.succ_ne_zero vs.length⟩
  | not r ih => exact ih ⟨h.columns, h.values⟩ hs
  | junction c rs ih =>
    obtain ⟨f, hf, hs⟩ := mem_rawsAll.mp hs
    rw [formulas_eq] at hf
    obtain ⟨r, hr, rfl⟩ := List.mem_map.mp hf
    exact ih r hr (h.operand hr) hs

end Restriction

/-- The text of a restriction has the truth that the restriction says. If it says nothing, then
every row is kept. -/
theorem searchTruth_printed (h : r.IsPlain d)
    (hcells : ∀ column ∈ r.columns, (row (d.columnName column)).isNull = false) :
    searchTruth d.quoteChar same row (Formula.printed (r.formula d).normal) r.values =
      some (.ofBool ((r.said same (row ∘ d.columnName)).getD true)) := by
  have hagrees : r.Agrees d same row (r.formula d).normal := agrees h hcells
  cases hn : (r.formula d).normal with
  | none =>
    rw [hn] at hagrees
    rw [hagrees.1, hagrees.2]
    rfl
  | some g =>
    rw [hn] at hagrees
    obtain ⟨b, hsaid, htruth⟩ := hagrees
    have hnormal := isNormal_normal hn
    have hall := htruth []
    rw [List.append_nil] at hall
    rw [hsaid]
    exact searchTruth_text hnormal (fun s hs =>
      mem_raws h (mem_raws_normal hn hs) (hnormal.ne_empty hs)) hall

end Truth

/-! ## Statements -/

/-- A statement with the text of a WHERE clause behind it. -/
def whereText (sql text : String) : String :=
  if text = "" then sql else sql ++ " WHERE " ++ text

theorem Compiler.withWhere_eq {c : Compiler} {o : Operand} {text : String} {bs : List Binding}
    (h : renderOperand c .condition o = .ok (text, bs)) (sql : String) :
    c.withWhere sql o = .ok (whereText sql text, bs) :=
  Compile.bind_pure_eq_ok (whereText sql) h

/-- The clause of a condition over membership tests keeps the rows where the condition holds if NOT
IN without values, NOT of nothing and AND and OR of nothing say nothing. If it says nothing at all,
then every row is kept. Where the parts that are left out are what ordinary logic makes of them, no
row is kept that ordinary logic excludes, and none is lost. -/
theorem Compiler.buildCondition_keeps (d : Dialect) (ps : Params) {o : Operand} {r : Restriction}
    (ho : o.Says r) (hr : r.IsPlain d) :
    ∃ text, (ofDialect d).buildCondition o ps =
        .ok (text, ps.bindAll (r.values.map .ofValue)) ∧
      (∀ table, (ofDialect d).delete table o =
        .ok (whereText ("DELETE FROM " ++ d.quoteTableName table) text,
          r.values.map .ofValue)) ∧
      (∀ table columns schema sets bs, (ofDialect d).updateSets schema columns = .ok (sets, bs) →
        (ofDialect d).update table columns o schema =
          .ok (whereText ("UPDATE " ++ d.quoteTableName table ++ " SET " ++
            Text.joinWith ", " sets) text, bs ++ r.values.map .ofValue)) ∧
      ∀ (same : Value → Value → Bool) (row : String → Value),
        (∀ column ∈ r.columns, (row (d.columnName column)).isNull = false) →
        ∃ kept, searchTruth d.quoteChar same row text r.values = some (.ofBool kept) ∧
          kept = (r.said same (row ∘ d.columnName)).getD true ∧
          (r.Faithful true → kept = true → r.eval same (row ∘ d.columnName) = true) ∧
          (r.Faithful true → r.Faithful false → kept = r.eval same (row ∘ d.columnName)) := by
  have hrender : renderOperand (.ofDialect d) .condition o =
      .ok (Formula.printed (r.formula d).normal, r.values.map .ofValue) := by
    have h : o.Renders d r := ho.renders
    rwa [Operand.Renders, boundMembers_eq hr.values] at h
  refine ⟨Formula.printed (r.formula d).normal, ?_, fun table => withWhere_eq hrender _,
    fun table columns schema sets bs hsets => ?_, fun same row hcells => ?_⟩
  · rw [buildCondition, hrender]
    rfl
  · exact Compile.bind_eq_ok hsets (withWhere_eq hrender _)
  · exact ⟨_, searchTruth_printed hr hcells, rfl, Faithful.eval_eq, getD_said_eq⟩

/-- Users that are neither new nor among some numbers, and those of no group. -/
def knownUsers : Operand :=
  .list [.string "and",
    .list [.string "not", .list [.string "in", .string "id", .list [.value (.int32 1),
      .value (.int32 2)]]],
    .list [.string "Or", .list [.string "in", .string "group", .list []],
      .list [.string "not in", .string "state", .list [.string "new"]]],
    .list [.string "not in", .string "u.name", .list []]]

def knownUsersRestriction : Restriction :=
  .junction .and
    [.not (.among "id" false [.int32 1, .int32 2]),
      .junction .or [.among "group" false [], .among "state" true [.string "new"]],
      .among "u.name" true []]

theorem knownUsers_kept :
    knownUsers.Says knownUsersRestriction ∧ knownUsersRestriction.IsPlain .sqlite ∧
      knownUsersRestriction.Faithful true ∧ knownUsersRestriction.Faithful false ∧
      ∃ text, (Compiler.ofDialect .sqlite).buildCondition knownUsers .empty =
          .ok (text, Params.empty.bindAll (knownUsersRestriction.values.map .ofValue)) ∧
        ∀ (same : Value → Value → Bool) (row : String → Value),
          (∀ column, (row column).isNull = false) →
          searchTruth Dialect.sqlite.quoteChar same row text knownUsersRestriction.values =
            some (.ofBool (knownUsersRestriction.eval same (row ∘ Dialect.sqlite.columnName))) := by
  have hids : (Operand.list [.string "in", .string "id", .list [.value (.int32 1),
      .value (.int32 2)]]).Says (.among "id" false [.int32 1, .int32 2]) := .among (.inl rfl) rfl
  have hgroup : (Operand.list [.string "in", .string "group", .list []]).Says
      (.among "group" false []) := .among (.inl rfl) rfl
  have hstate : (Operand.list [.string "not in", .string "state", .list [.string "new"]]).Says
      (.among "state" true [.string "new"]) := .among (.inl rfl) rfl
  have hname : (Operand.list [.string "not in", .string "u.name", .list []]).Says
      (.among "u.name" true []) := .among (.inl rfl) rfl
  have hknown : knownUsers.Says knownUsersRestriction :=
    .junction (.inl rfl) rfl (List.forall_mem_cons.mpr ⟨.not (.inl rfl) hids,
      List.forall_mem_cons.mpr ⟨.junction (.inl rfl) rfl (List.forall_mem_cons.mpr ⟨hgroup,
        List.forall_mem_singleton.mpr hstate⟩), List.forall_mem_singleton.mpr hname⟩⟩)
  have hnames : ∀ column ∈ knownUsersRestriction.columns,
      column.toList.any Dialect.sqlite.isSpecial = false := by
    decide
  have hplain : knownUsersRestriction.IsPlain .sqlite :=
    ⟨fun column h => Dialect.isPlainColumn_of_not_special (hnames column h), by decide⟩
  have hfaithful : ∀ b, knownUsersRestriction.Faithful b := by
    intro b
    refine .and (List.forall_mem_cons.mpr ⟨.not rfl (.among _ _ _ _),
      List.forall_mem_cons.mpr ⟨.or ⟨_, List.mem_cons_self, rfl⟩ ?_ ?_,
        List.forall_mem_singleton.mpr (.among _ _ _ _)⟩⟩)
    · exact List.forall_mem_cons.mpr ⟨fun _ => .among _ _ _ _,
        List.forall_mem_singleton.mpr fun _ => .among _ _ _ _⟩
    · exact fun _ => List.forall_mem_cons.mpr ⟨nofun, List.forall_mem_singleton.mpr nofun⟩
  obtain ⟨text, hbuild, -, -, htruth⟩ :=
    Compiler.buildCondition_keeps .sqlite .empty hknown hplain
  refine ⟨hknown, hplain, hfaithful true, hfaithful false, text, hbuild, fun same row hcells => ?_⟩
  obtain ⟨kept, hkept, -, -, heval⟩ := htruth same row fun column _ => hcells _
  rw [hkept, heval (hfaithful true) (hfaithful false)]

/-- Users among no numbers. -/
def everyUser : Operand :=
  .list [.string "not", .list [.string "not in", .string "id", .list []]]

/-- A condition that holds of no row in ordinary logic, and has no text. A DELETE with it deletes
every row. -/
theorem everyUser_kept :
    everyUser.Says (.not (.among "id" true [])) ∧
      (Restriction.not (.among "id" true [])).IsPlain .mysql ∧
      (Compiler.ofDialect .mysql).buildCondition everyUser .empty = .ok ("", .empty) ∧
      (Compiler.ofDialect .mysql).delete "user" everyUser = .ok ("DELETE FROM `user`", []) ∧
      ∃ row : String → Value, (∀ column, (row column).isNull = false) ∧
        ∀ same : Value → Value → Bool,
          searchTruth Dialect.mysql.quoteChar same row "" [] = some .holds ∧
            (Restriction.not (.among "id" true [])).eval same
              (row ∘ Dialect.mysql.columnName) = false := by
  have hleaf : (Operand.list [.string "not in", .string "id", .list []]).Says
      (.among "id" true []) := .among (.inl rfl) rfl
  have hcolumn : Dialect.mysql.IsPlainColumn "id" :=
    ⟨["id".toList], by decide, by decide, by decide⟩
  refine ⟨.not (.inl rfl) hleaf, ⟨fun column h => ?_, nofun⟩, rfl, rfl, fun _ => .int32 1,
    fun _ => rfl, fun same => ⟨rfl, rfl⟩⟩
  rw [List.mem_singleton.mp h]
  exact hcolumn

end QueryKit
