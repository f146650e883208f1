import QueryKit.Proofs.Filter.Compiled

/-!
# What a condition binds

- `Value.MadeOf P`: one of the values with `P`, an array of them, or a pattern with the text of one.
- `Operand.Over P`: a condition without expressions whose values have `P`.
- `Compile.Binds P`: a step that binds only values made of those with `P`. Every renderer is such a
  step, so a condition binds its own values as they are (`Compiler.buildCondition_binds`).
-/

namespace QueryKit

/-- A value as a condition binds it: as it is, in a list, or within a pattern. -/
inductive Value.MadeOf (P : Value → Prop) : Value → Prop where
  | one {v : Value} : P v → MadeOf P v
  | array {vs : List Value} : (∀ v ∈ vs, P v) → MadeOf P (.array vs)
  | pattern {v : Value} (escape : LikeEscape) : P v → MadeOf P (.string (patternText escape v))

/-- A positional value by its own type, made of values with `P`. -/
def Binding.MadeOf (P : Value → Prop) (b : Binding) : Prop :=
  ∃ v : Value, v.MadeOf P ∧ b = ⟨.positional, .ofValue v⟩

variable {P : Value → Prop}

/-! ## Steps that bind -/

namespace Compile

variable {α β : Type} {x : Compile α}

/-- Whatever the step binds is made of values with `P`. -/
def Binds (P : Value → Prop) (x : Compile α) : Prop :=
  x.Yields fun _ bs => ∀ b ∈ bs, b.MadeOf P

theorem Binds.pure (a : α) : (Compile.pure a).Binds P :=
  Yields.pure nofun

theorem Binds.fault {f : ArgumentFault} : (Compile.fault f : Compile α).Binds P :=
  Yields.fault

theorem Binds.push {v : Value} (h : v.MadeOf P) : (Compile.push v).Binds P := by
  intro s bs hs
  cases hs
  exact List.forall_mem_singleton.mpr ⟨v, h, rfl⟩

theorem Binds.bind {f : α → Compile β} (hx : x.Binds P) (hf : ∀ a, (f a).Binds P) :
    (x >>= f).Binds P :=
  Yields.bind hx fun a _ hbs => (hf a).mono fun _ _ hcs =>
    List.forall_mem_append.mpr ⟨hbs, hcs⟩

theorem Binds.bind_pure {f : α → β} (hx : x.Binds P) :
    (x >>= fun a => Compile.pure (f a)).Binds P :=
  hx.bind fun a => .pure (f a)

theorem Binds.mapM {f : α → Compile β} {as : List α} (h : ∀ a ∈ as, (f a).Binds P) :
    (as.mapM f).Binds P := by
  induction as with
  | nil => exact .pure []
  | cons a as ih =>
    obtain ⟨ha, has⟩ := List.forall_mem_cons.mp h
    rw [List.mapM_cons]
    exact ha.bind fun b => (ih has).bind_pure

theorem Binds.through {c : Compiler} {f : Family} {render : Builder → Compile String}
    (h : ∀ b, (render b).Binds P) : (c.through f render).Binds P :=
  c.through_yields h

end Compile

open Compile

namespace Compiler

variable {c : Compiler}

theorem hash_binds {parts : Compile (List String)} (h : parts.Binds P) : (c.hash parts).Binds P :=
  .through fun _ => h.bind_pure

theorem negation_binds {inner : Compile String} (h : inner.Binds P) : (c.negation inner).Binds P :=
  .through fun _ => h.bind_pure

theorem conjunction_binds (conj : Conjunction) {parts : Compile (List String)} (h : parts.Binds P) :
    (c.conjunction conj parts).Binds P :=
  .through fun _ => h.bind_pure

theorem between_binds (negated : Bool) {column low high : Compile String} (hc : column.Binds P)
    (hl : low.Binds P) (hh : high.Binds P) : (c.between negated column low high).Binds P :=
  .through fun _ => hc.bind fun _ => hl.bind fun _ => hh.bind_pure

theorem membership_binds {column : Compile MemberColumn} {test : MemberColumn → Compile String}
    (hc : column.Binds P) (ht : ∀ m, (test m).Binds P) : (c.membership column test).Binds P :=
  .through fun _ => hc.bind ht

theorem like_binds (negated : Bool) (combine : Conjunction) (isEmpty : Bool)
    {column : Compile String} {places : Compile (List String)} (hc : column.Binds P)
    (hp : places.Binds P) : (c.like negated combine isEmpty column places).Binds P := by
  refine .through fun _ => ?_
  split
  · exact .pure _
  · exact hc.bind fun _ => hp.bind_pure

theorem comparison_binds (op : Operator) (isNull : Bool) {column place : Compile String}
    (hc : column.Binds P) (hp : place.Binds P) : (c.comparison op column isNull place).Binds P := by
  refine .through fun _ => hc.bind fun _ => ?_
  split
  · exact Binds.bind (.pure "NULL") fun _ => .pure _
  · exact hp.bind_pure

end Compiler

/-! ## Plain operands -/

mutual

/-- No part of the operand is an expression or an array of values, and its values have `P`. -/
def Operand.Over (P : Value → Prop) : Operand → Prop
  | .value v => P v ∧ v.asArray = none
  | .list items => ItemsOver P items
  | .map entries => EntriesOver P entries
  | .expr _ => False

def ItemsOver (P : Value → Prop) : List Operand → Prop
  | [] => True
  | o :: os => o.Over P ∧ ItemsOver P os

def EntriesOver (P : Value → Prop) : List (String × Operand) → Prop
  | [] => True
  | (_, o) :: es => o.Over P ∧ EntriesOver P es

end

theorem plainValues_over : ∀ {items : List Operand} {vs : List Value}, ItemsOver P items →
    plainValues items = some vs → ∀ v ∈ vs, P v
  | [], _, _, h => by
    cases h
    nofun
  | .value v :: os, _, ⟨⟨hv, _⟩, hos⟩, h => by
    obtain ⟨vs, hvs, rfl⟩ := Option.map_eq_some_iff.mp h
    exact List.forall_mem_cons.mpr ⟨hv, plainValues_over hos hvs⟩
  | .list _ :: _, _, _, h => by cases h
  | .map _ :: _, _, _, h => by cases h
  | .expr _ :: _, _, _, h => by cases h

variable {c : Compiler}

/-- A list is bound as an array if all of it is plain. -/
theorem renderOperand_bound_list_binds {items : List Operand} (h : ItemsOver P items) :
    (renderOperand c .bound (.list items)).Binds P := by
  rw [renderOperand]
  split
  · next vs hvs => exact .push (.array (plainValues_over h hvs))
  · exact .fault

theorem renderMap_binds {entries : List (String × Operand)} (h : (renderHash c entries).Binds P) :
    (if entries.isEmpty then Compile.pure "" else c.hash (renderHash c entries)).Binds P := by
  split
  · exact .pure ""
  · exact Compiler.hash_binds h

/-- A member of a list or of a row, and what follows it; null is not bound. -/
theorem nullable_binds {α : Type} {o : Operand} {f : Option String → Compile α}
    (ho : (renderOperand c .bound o).Binds P) (hf : ∀ member, (f member).Binds P) :
    (if o.isNull then Compile.pure none >>= f
      else renderOperand c .bound o >>= fun place => Compile.pure (some place) >>= f).Binds P := by
  split
  · exact Binds.bind (.pure none) hf
  · exact ho.bind fun place => Binds.bind (.pure (some place)) hf

theorem pushMember_binds {v : Value} (h : P v) : (pushMember v).Binds P := by
  unfold pushMember
  split
  · exact .pure none
  · exact (Binds.push (.one h)).bind_pure

/-- A value that is no array is the only member. -/
theorem renderMembership_value_binds (negated : Bool) (m : MemberColumn) {v : Value} (hv : P v)
    (harray : v.asArray = none) : (renderMembership c negated m (.value v)).Binds P := by
  cases m with
  | composite names => cases v <;> first | exact .pure _ | cases harray
  | single text name =>
    cases v <;> first | exact (pushMember_binds hv).bind_pure | cases harray

theorem renderPatterns_value_binds (escape : LikeEscape) {v : Value} (hv : P v)
    (harray : v.asArray = none) : (renderPatterns c escape (.value v)).Binds P := by
  cases v <;> first | exact (Binds.push (.pattern escape hv)).bind_pure | cases harray

/-- A row that is neither a list nor a map has no values. -/
theorem renderTuples_value_binds {names : List String} {v : Value} {rows : List Operand}
    (harray : v.asArray = none) (hrows : (renderTuples c names rows).Binds P) :
    (renderTuples c names (.value v :: rows)).Binds P := by
  have hempty : ∀ places : List (Option String), (Compile.pure places >>= fun places =>
      renderTuples c names rows >>= fun tuples =>
        Compile.pure (tupleText places :: tuples)).Binds P := fun places =>
    Binds.bind (.pure places) fun _ => hrows.bind_pure
  cases v <;> first | exact hempty _ | cases harray

theorem renderMemberColumn_map_binds {source : MemberSource} {entries : List (String × Operand)}
    (h : (renderHash c entries).Binds P) :
    (renderMemberColumn c source (.map entries)).Binds P := by
  rw [renderMemberColumn]
  split
  · exact Binds.bind (.pure "") fun text => .pure _
  · exact (Compiler.hash_binds h).bind_pure

theorem hashTest_binds {name : String} {o : Operand}
    (hmembers : ∀ m, (renderMembership c false m o).Binds P)
    (hbound : (renderOperand c .bound o).Binds P) : (hashTest c name o).Binds P := by
  unfold hashTest
  split
  · exact Compiler.membership_binds (.pure _) hmembers
  · split
    · exact .pure _
    · exact hbound.bind_pure

mutual

theorem renderOperand_binds (role : Role) : ∀ {o : Operand}, o.Over P →
    (renderOperand c role o).Binds P
  | .value _, h =>
    match role with
    | .bound => .push (.one h.1)
    | .condition => .pure _
    | .column => .pure _
  | .list _, h =>
    match role with
    | .bound => renderOperand_bound_list_binds h
    | .condition => renderForm_binds h
    | .column => renderForm_binds h
  | .map _, h =>
    match role with
    | .bound => .fault
    | .condition => renderMap_binds (renderHash_binds h)
    | .column => renderMap_binds (renderHash_binds h)

theorem renderForm_binds : ∀ {items : List Operand}, ItemsOver P items →
    (renderForm c items).Binds P
  | [], _ => .pure ""
  | head :: operands, ⟨_, h⟩ => by
    cases ht : head.asString with
    | none =>
      rw [renderForm, ht]
      exact .fault
    | some token =>
      rw [renderForm_cons ht]
      split
      · exact negationForm_binds h
      · exact Compiler.conjunction_binds _ (renderConditions_binds h)
      · exact rangeForm_binds h
      · exact membershipForm_binds h
      · exact patternsForm_binds h
      · exact existenceForm_binds h
      · exact comparisonForm_binds h

theorem negationForm_binds {op : Operator} : ∀ {operands : List Operand}, ItemsOver P operands →
    (negationForm c op operands).Binds P
  | [], _ => .fault
  | [_], ⟨h, _⟩ => Compiler.negation_binds (renderOperand_binds .condition h)
  | _ :: _ :: _, _ => .fault

theorem rangeForm_binds {op : Operator} {negated : Bool} : ∀ {operands : List Operand},
    ItemsOver P operands → (rangeForm c op negated operands).Binds P
  | [], _ => .fault
  | [_], _ => .fault
  | [_, _], _ => .fault
  | _ :: _ :: _ :: _, ⟨hcolumn, hlow, hhigh, _⟩ =>
    Compiler.between_binds negated (renderOperand_binds .column hcolumn)
      (renderOperand_binds .bound hlow) (renderOperand_binds .bound hhigh)

theorem membershipForm_binds {op : Operator} {negated : Bool} : ∀ {operands : List Operand},
    ItemsOver P operands → (membershipForm c op negated operands).Binds P
  | [], _ => .fault
  | [_], _ => .fault
  | _ :: _ :: _, ⟨hcolumn, hvalues, _⟩ =>
    Compiler.membership_binds (renderMemberColumn_binds hcolumn) fun m =>
      renderMembership_binds negated m hvalues

theorem patternsForm_binds {op : Operator} {negated : Bool} {combine : Conjunction} :
    ∀ {operands : List Operand}, ItemsOver P operands →
    (patternsForm c op negated combine operands).Binds P
  | [], _ => .fault
  | [_], _ => .fault
  | _ :: _ :: _, ⟨hcolumn, hvalues, _⟩ =>
    Compiler.like_binds negated combine _ (renderOperand_binds .column hcolumn)
      (renderPatterns_binds hvalues)

/-- No operand is a subquery. -/
theorem existenceForm_binds {negated : Bool} : ∀ {operands : List Operand}, ItemsOver P operands →
    (existenceForm c negated operands).Binds P
  | [], _ => .fault
  | .value _ :: _, _ => .fault
  | .list _ :: _, _ => .fault
  | .map _ :: _, _ => .fault

theorem comparisonForm_binds {op : Operator} : ∀ {operands : List Operand}, ItemsOver P operands →
    (comparisonForm c op operands).Binds P
  | [], _ => .fault
  | [_], _ => .fault
  | [_, _], ⟨hcolumn, hv, _⟩ =>
    Compiler.comparison_binds _ _ (renderOperand_binds .column hcolumn)
      (renderOperand_binds .bound hv)
  | _ :: _ :: _ :: _, _ => .fault

theorem renderConditions_binds : ∀ {os : List Operand}, ItemsOver P os →
    (renderConditions c os).Binds P
  | [], _ => .pure []
  | _ :: _, ⟨ho, hos⟩ =>
    (renderOperand_binds .condition ho).bind fun _ => (renderConditions_binds hos).bind_pure

theorem renderHash_binds : ∀ {entries : List (String × Operand)}, EntriesOver P entries →
    (renderHash c entries).Binds P
  | [], _ => .pure []
  | (name, o) :: _, ⟨ho, hes⟩ => by
    rw [renderHash_cons]
    exact (hashTest_binds (fun m => renderMembership_binds false m ho)
      (renderOperand_binds .bound ho)).bind fun _ => (renderHash_binds hes).bind_pure

theorem renderMemberColumn_binds {source : MemberSource} : ∀ {column : Operand}, column.Over P →
    (renderMemberColumn c source column).Binds P
  | .value _, _ => .pure _
  | .list _, h =>
    match source with
    | .query => .pure _
    | .expression => (renderForm_binds h).bind_pure
    | .values => renderColumns_binds h
  | .map _, h => renderMemberColumn_map_binds (renderHash_binds h)

theorem renderColumns_binds : ∀ {columns : List Operand}, ItemsOver P columns →
    (renderColumns c columns).Binds P
  | [], _ => .pure _
  | [_], ⟨h, _⟩ => (renderOperand_binds .column h).bind_pure
  | _ :: _ :: _, _ => .pure _

theorem renderMembership_binds (negated : Bool) (m : MemberColumn) : ∀ {values : Operand},
    values.Over P → (renderMembership c negated m values).Binds P
  | .value _, ⟨hv, harray⟩ => renderMembership_value_binds negated m hv harray
  | .list _, h =>
    match m with
    | .composite _ => (renderTuples_binds h).bind_pure
    | .single _ _ => (renderMembers_binds h).bind_pure
  | .map _, h =>
    match m with
    | .composite _ => (Binds.mapM fun _ _ => renderNamed_binds h).bind_pure
    | .single _ (some _) => (renderNamed_binds h).bind_pure
    | .single _ none => .fault

theorem renderMembers_binds {name : Option String} : ∀ {items : List Operand}, ItemsOver P items →
    (renderMembers c name items).Binds P
  | [], _ => .pure []
  | .map _ :: _, ⟨ho, hos⟩ =>
    match name with
    | none => .fault
    | some _ => (renderNamed_binds ho).bind fun _ => (renderMembers_binds hos).bind_pure
  | .value _ :: _, ⟨ho, hos⟩ =>
    nullable_binds (renderOperand_binds .bound ho) fun _ => (renderMembers_binds hos).bind_pure
  | .list _ :: _, ⟨ho, hos⟩ =>
    nullable_binds (renderOperand_binds .bound ho) fun _ => (renderMembers_binds hos).bind_pure

theorem renderTuples_binds {names : List String} : ∀ {rows : List Operand}, ItemsOver P rows →
    (renderTuples c names rows).Binds P
  | [], _ => .pure []
  | .map _ :: _, ⟨hrow, hrows⟩ =>
    (Binds.mapM fun _ _ => renderNamed_binds hrow).bind fun _ =>
      (renderTuples_binds hrows).bind_pure
  | .list _ :: _, ⟨hrow, hrows⟩ =>
    (renderPlaces_binds hrow).bind fun _ => (renderTuples_binds hrows).bind_pure
  | .value _ :: _, ⟨hrow, hrows⟩ =>
    renderTuples_value_binds hrow.2 (renderTuples_binds hrows)

theorem renderPlaces_binds : ∀ {names : List String} {items : List Operand}, ItemsOver P items →
    (renderPlaces c names items).Binds P
  | [], [], _ => .pure []
  | _ :: _, [], _ => .pure _
  | [], _ :: _, _ => .pure []
  | _ :: _, _ :: _, ⟨ho, hos⟩ =>
    nullable_binds (renderOperand_binds .bound ho) fun _ => (renderPlaces_binds hos).bind_pure

theorem renderNamed_binds {name : String} : ∀ {entries : List (String × Operand)},
    EntriesOver P entries → (renderNamed c name entries).Binds P
  | [], _ => .pure none
  | (key, _) :: _, ⟨ho, hes⟩ => by
    rw [renderNamed]
    split
    · split
      · exact .pure none
      · exact (renderOperand_binds .bound ho).bind_pure
    · exact renderNamed_binds hes

theorem renderPatterns_binds {escape : LikeEscape} : ∀ {values : Operand}, values.Over P →
    (renderPatterns c escape values).Binds P
  | .value _, ⟨hv, harray⟩ => renderPatterns_value_binds escape hv harray
  | .list _, h => renderPatternList_binds h
  | .map _, _ => .fault

theorem renderPatternList_binds {escape : LikeEscape} : ∀ {items : List Operand},
    ItemsOver P items → (renderPatternList c escape items).Binds P
  | [], _ => .pure []
  | .value _ :: _, ⟨ho, hos⟩ =>
    (Binds.push (.pattern escape ho.1)).bind fun _ => (renderPatternList_binds hos).bind_pure
  | .list _ :: _, _ => .fault
  | .map _ :: _, _ => .fault

end

/-- A condition without expressions binds values of its own, each as it is, in a list or in a
pattern. -/
theorem Compiler.buildCondition_binds (c : Compiler) {o : Operand} {ps out : Params} {sql : String}
    (ho : o.Over P) (h : c.buildCondition o ps = .ok (sql, out)) :
    ∃ bs, out = ps.bindAll bs ∧ ∀ b ∈ bs, b.MadeOf P := by
  obtain ⟨bs, hrender, hout⟩ := into_ok h
  exact ⟨bs, hout, renderOperand_binds .condition ho sql bs hrender⟩

end QueryKit
