import QueryKit.Proofs.Compile.Steps

/-!
# What the compiler makes of a query that fits

`renderOperand_holds`, `renderExpression_holds`, `renderQuery_holds`: a query that fits a law of
fragments compiles to a fragment that keeps the law, and so does every part of it. The induction has
one case for each way to build a query, and each case is a step of `QueryKit.Proofs.Compile.Steps`.
-/

namespace QueryKit

variable {c : Compiler} {L : FragmentLaw c.dialect}

open FragmentLaw

mutual

/-- An operand that fits its role compiles to a fragment that keeps the law. -/
theorem renderOperand_holds (role : Role) : ∀ {o : Operand}, o.Fits c L role →
    (renderOperand c role o).Yields L.Holds
  | .value v, h =>
    match role, h with
    | .bound, _ => push_holds L v
    | .condition, h => .pure (unboundText_holds h)
    | .column, h => .pure (unboundText_holds h)
  | .list items, h =>
    match role, h with
    | .bound, _ => renderOperand_bound_list_holds items
    | .condition, h => renderForm_holds h
    | .column, h => renderForm_holds h
  | .map _, h =>
    match role, h with
    | .bound, _ => .fault
    | .condition, h => renderMap_holds (renderHash_holds h)
    | .column, h => renderMap_holds (renderHash_holds h)
  | .expr _, h => renderExpression_holds h

theorem renderForm_holds : ∀ {items : List Operand}, FormFits c L items →
    (renderForm c items).Yields L.Holds
  | [], _ => .pure L.nil
  | _ :: _, h =>
    renderForm_cons_holds h (fun _ => negationForm_holds) renderConditions_holds
      (fun _ _ => rangeForm_holds) (fun _ _ => membershipForm_holds)
      (fun _ _ _ => patternsForm_holds) (fun _ => existenceForm_holds) fun _ => comparisonForm_holds

theorem negationForm_holds {op : Operator} : ∀ {operands : List Operand},
    NegationFits c L operands → (negationForm c op operands).Yields L.Holds
  | [], _ => .fault
  | [_], h => Compiler.negation_holds (renderOperand_holds .condition h)
  | _ :: _ :: _, _ => .fault

theorem rangeForm_holds {op : Operator} {negated : Bool} : ∀ {operands : List Operand},
    RangeFits c L operands → (rangeForm c op negated operands).Yields L.Holds
  | [], _ => .fault
  | [_], _ => .fault
  | [_, _], _ => .fault
  | _ :: _ :: _ :: _, ⟨hcolumn, hlow, hhigh⟩ =>
    Compiler.between_holds negated (renderOperand_holds .column hcolumn)
      (renderOperand_holds .bound hlow) (renderOperand_holds .bound hhigh)

theorem membershipForm_holds {op : Operator} {negated : Bool} : ∀ {operands : List Operand},
    MembershipFits c L operands → (membershipForm c op negated operands).Yields L.Holds
  | [], _ => .fault
  | [_], _ => .fault
  | _ :: _ :: _, ⟨hcolumn, hvalues, honce⟩ =>
    Compiler.membership_holds ((renderMemberColumn_holds hcolumn).and (.or_const honce))
      fun _ _ hm => renderMembership_holds negated hvalues hm.1 hm.2

theorem patternsForm_holds {op : Operator} {negated : Bool} {combine : Conjunction} :
    ∀ {operands : List Operand}, PatternsFit c L operands →
    (patternsForm c op negated combine operands).Yields L.Holds
  | [], _ => .fault
  | [_], _ => .fault
  | _ :: _ :: _, ⟨hcolumn, hvalues, honce⟩ =>
    Compiler.like_holds negated combine _ (renderOperand_holds .column hcolumn)
      (renderPatterns_holds hvalues) (honce.imp_right fun h _ hp => hp h)

theorem existenceForm_holds {negated : Bool} : ∀ {operands : List Operand},
    ExistenceFits c L operands → (existenceForm c negated operands).Yields L.Holds
  | [], _ => .fault
  | .expr (.query _) :: _, h => Compiler.existence_holds negated (renderQuery_holds h)
  | .value _ :: _, _ => .fault
  | .list _ :: _, _ => .fault
  | .map _ :: _, _ => .fault
  | .expr (.raw ..) :: _, _ => .fault
  | .expr (.typed ..) :: _, _ => .fault
  | .expr (.arrayOfValues ..) :: _, _ => .fault
  | .expr (.arrayOfQuery ..) :: _, _ => .fault
  | .expr (.json ..) :: _, _ => .fault
  | .expr (.condition _) :: _, _ => .fault

theorem comparisonForm_holds {op : Operator} : ∀ {operands : List Operand},
    ComparisonFits c L op operands → (comparisonForm c op operands).Yields L.Holds
  | [], _ => .fault
  | [_], _ => .fault
  | [_, _], ⟨hop, hcolumn, hv⟩ =>
    Compiler.comparison_holds _ _ hop (renderOperand_holds .column hcolumn)
      (renderOperand_holds .bound hv)
  | _ :: _ :: _ :: _, _ => .fault

theorem renderConditions_holds : ∀ {os : List Operand}, ItemsFit c L .condition os →
    (renderConditions c os).Yields (Together L.Holds)
  | [], _ => .pure .nil
  | _ :: _, ⟨ho, hos⟩ =>
    (renderOperand_holds .condition ho).bind fun _ _ hpart =>
      (renderConditions_holds hos).bind_pure fun _ _ hparts => .cons hpart hparts

theorem renderHash_holds : ∀ {entries : List (String × Operand)}, HashFits c L entries →
    (renderHash c entries).Yields (Together L.Holds)
  | [], _ => .pure .nil
  | (_, _) :: _, ⟨hname, ho, hes⟩ =>
    renderHash_cons_holds hname (fun _ _ hm hi => renderMembership_holds false ho hm (.inl hi))
      (renderOperand_holds .bound ho) (renderHash_holds hes)

theorem renderColumns_holds : ∀ {columns : List Operand}, ColumnsFit c L columns →
    (renderColumns c columns).Yields L.Column
  | [], _ => .pure ⟨L.nil, fun _ => rfl⟩
  | [_], h => renderColumns_singleton_holds (renderOperand_holds .column h)
  | _ :: _ :: _, h => .pure ⟨h, rfl⟩

theorem renderMemberColumn_holds {source : MemberSource} : ∀ {column : Operand},
    MemberColumnFits c L source column → (renderMemberColumn c source column).Yields L.Column
  | .value _, h => .pure ⟨unboundText_holds h, fun _ => rfl⟩
  | .list _, h =>
    match source, h with
    | .query, h => .pure ⟨quotedNames_holds h, fun _ => rfl⟩
    | .expression, h => nameless_holds (renderForm_holds h)
    | .values, h => renderColumns_holds h
  | .map _, h => renderMemberColumn_map_holds (renderHash_holds h)
  | .expr _, h => nameless_holds (renderExpression_holds h)

/-- A column among values; the values of the column come first. -/
theorem renderMembership_holds (negated : Bool) {m : MemberColumn} {bs : List Binding} :
    ∀ {values : Operand}, values.Fits c L .bound → L.Column m bs → (L.Idle bs ∨ values.OneTest) →
    (renderMembership c negated m values).Yields fun s cs => L.Holds s (bs ++ cs)
  | .value _, _, hm, honce => renderMembership_value_holds negated hm honce
  | .list _, h, hm, honce =>
    renderMembership_list_holds negated hm honce (fun _ => renderTuples_holds h)
      fun _ => renderMembers_holds h
  | .map _, h, hm, _ => renderMembership_map_holds negated hm fun _ => renderNamed_holds h
  | .expr (.query _), h, hm, _ => fragment_holds negated hm (renderQuery_holds h)
  | .expr (.raw ..), h, hm, _ => fragment_holds negated hm (renderExpression_holds h)
  | .expr (.typed ..), h, hm, _ => fragment_holds negated hm (renderExpression_holds h)
  | .expr (.arrayOfValues ..), h, hm, _ => fragment_holds negated hm (renderExpression_holds h)
  | .expr (.arrayOfQuery ..), h, hm, _ => fragment_holds negated hm (renderExpression_holds h)
  | .expr (.json ..), h, hm, _ => fragment_holds negated hm (renderExpression_holds h)
  | .expr (.condition _), h, hm, _ => fragment_holds negated hm (renderExpression_holds h)

/-- The members of a list of values. Which of them are null is seen from the operands, unless a map
gives the value of a named column. -/
theorem renderMembers_holds {name : Option String} : ∀ {items : List Operand},
    ItemsFit c L .bound items →
    (renderMembers c name items).Yields fun ms bs =>
      Together L.Member ms bs ∧
        (name = none → ms.map Option.isNone = items.map Operand.isNull)
  | [], _ => .pure ⟨.nil, fun _ => rfl⟩
  | .map _ :: _, ⟨ho, hos⟩ =>
    renderMembers_map_holds (fun _ => renderNamed_holds ho) (renderMembers_holds hos)
  | .value _ :: _, ⟨ho, hos⟩ =>
    renderMembers_cons_holds nofun (renderOperand_holds .bound ho) (renderMembers_holds hos)
  | .list _ :: _, ⟨ho, hos⟩ =>
    renderMembers_cons_holds nofun (renderOperand_holds .bound ho) (renderMembers_holds hos)
  | .expr _ :: _, ⟨ho, hos⟩ =>
    renderMembers_cons_holds nofun (renderOperand_holds .bound ho) (renderMembers_holds hos)

theorem renderTuples_holds {names : List String} : ∀ {rows : List Operand},
    ItemsFit c L .bound rows → (renderTuples c names rows).Yields (Together L.Holds)
  | [], _ => .pure .nil
  | .map _ :: _, ⟨hrow, hrows⟩ =>
    renderTuples_cons_holds (fun | _, rfl, _ => renderNamed_holds hrow) nofun
      (renderTuples_holds hrows)
  | .list _ :: _, ⟨hrow, hrows⟩ =>
    renderTuples_cons_holds nofun (fun | _, rfl => renderPlaces_holds hrow)
      (renderTuples_holds hrows)
  | .value _ :: _, ⟨_, hrows⟩ => renderTuples_cons_holds nofun nofun (renderTuples_holds hrows)
  | .expr _ :: _, ⟨_, hrows⟩ => renderTuples_cons_holds nofun nofun (renderTuples_holds hrows)

theorem renderPlaces_holds : ∀ {names : List String} {items : List Operand},
    ItemsFit c L .bound items → (renderPlaces c names items).Yields (Together L.Member)
  | names, [], _ => renderPlaces_nil_holds names
  | [], _ :: _, _ => .pure .nil
  | _ :: _, _ :: _, ⟨ho, hos⟩ =>
    renderPlaces_cons_holds (renderOperand_holds .bound ho) (renderPlaces_holds hos)

theorem renderNamed_holds {name : String} : ∀ {entries : List (String × Operand)},
    ValuesFit c L entries → (renderNamed c name entries).Yields L.Member
  | [], _ => .pure rfl
  | (_, _) :: _, ⟨ho, hes⟩ =>
    renderNamed_cons_holds (renderOperand_holds .bound ho) (renderNamed_holds hes)

theorem renderPatterns_holds {escape : LikeEscape} : ∀ {values : Operand},
    values.Fits c L .bound → (renderPatterns c escape values).Yields fun ps bs =>
      Together L.Holds ps bs ∧ (values.OnePattern → ps.length = 1)
  | .value v, _ => renderPatterns_value_holds escape v
  | .list _, h =>
    (renderPatternList_holds h).mono fun _ _ hp => ⟨hp.1, fun hone => hp.2.trans hone⟩
  | .map _, _ => .fault
  | .expr _, h => (renderExpression_holds h).bind_pure fun _ _ hs => ⟨.singleton hs, fun _ => rfl⟩

theorem renderPatternList_holds {escape : LikeEscape} : ∀ {items : List Operand},
    ItemsFit c L .bound items → (renderPatternList c escape items).Yields fun ps bs =>
      Together L.Holds ps bs ∧ ps.length = items.length
  | [], _ => .pure ⟨.nil, rfl⟩
  | _ :: _, ⟨ho, hos⟩ =>
    renderPatternList_cons_holds (renderOperand_holds .bound ho) (renderPatternList_holds hos)

/-- An expression that fits compiles to a fragment that keeps the law. -/
theorem renderExpression_holds : ∀ {e : Expression}, e.Fits c L →
    (renderExpression c e).Yields L.Holds
  | .raw _ _, h => renderRaw_holds h
  | .typed _ _, _ => c.through_yields fun _ => .pushParam (L.place _)
  | .arrayOfValues values _ dimension, h =>
    c.through_yields fun _ => pushArray_holds L h dimension values
  | .arrayOfQuery _ _ dimension, h => renderArrayOfQuery_holds dimension (renderQuery_holds h.1) h.2
  | .json j _, h => c.through_yields fun b => pushJson_holds L b.cast j h
  | .query _, h =>
    c.through_yields fun _ => (renderQuery_holds h).bind_pure fun _ _ hs =>
      holds_between (by decide) (by decide) hs
  | .condition _, h => renderCondition_holds h

/-- A condition that fits compiles to a fragment that keeps the law. -/
theorem renderCondition_holds : ∀ {cond : Condition}, cond.Fits c L →
    (renderCondition c cond).Yields L.Holds
  | .hash _, h => Compiler.hash_holds (renderHash_holds h)
  | .simple _ _ _, ⟨hop, hcolumn, hv⟩ =>
    Compiler.comparison_holds _ _ hop (renderOperand_holds .column hcolumn)
      (renderOperand_holds .bound hv)
  | .not _, h => Compiler.negation_holds (renderOperand_holds .condition h)
  | .conjunction conj _, h => Compiler.conjunction_holds conj (renderConditions_holds h)
  | .between _ negated _ _, ⟨hcolumn, hlow, hhigh⟩ =>
    Compiler.between_holds negated (renderOperand_holds .column hcolumn)
      (renderOperand_holds .bound hlow) (renderOperand_holds .bound hhigh)
  | .isIn _ negated _, ⟨hcolumn, hvalues, honce⟩ =>
    Compiler.membership_holds ((renderMemberColumn_holds hcolumn).and (.or_const honce))
      fun _ _ hm => renderMembership_holds negated hvalues hm.1 hm.2
  | .like _ negated combine _ _, ⟨hcolumn, hvalues, honce⟩ =>
    Compiler.like_holds negated combine _ (renderOperand_holds .column hcolumn)
      (renderPatterns_holds hvalues) (honce.imp_right fun h _ hp => hp h)
  | .isExists negated _, h => Compiler.existence_holds negated (renderQuery_holds h)

theorem renderSelect_holds : ∀ {items : List ColumnItem}, ColumnItemsFit c L items →
    (renderSelect c items).Yields (Together L.Holds)
  | [], _ => .pure .nil
  | ⟨_, .name _⟩ :: _, ⟨⟨hl, hn⟩, hitems⟩ =>
    renderSelect_name_holds hl hn (renderSelect_holds hitems)
  | ⟨_, .expr _⟩ :: _, ⟨⟨hl, he⟩, hitems⟩ =>
    renderSelect_expr_holds hl (renderExpression_holds he) (renderSelect_holds hitems)

theorem renderTables_holds : ∀ {items : List ColumnItem}, ColumnItemsFit c L items →
    (renderTables c items).Yields (Together L.Holds)
  | [], _ => .pure .nil
  | _ :: _, ⟨hitem, hitems⟩ =>
    (renderTable_holds hitem).bind fun _ _ hpart =>
      (renderTables_holds hitems).bind_pure fun _ _ hparts => .cons hpart hparts

theorem renderTable_holds : ∀ {item : ColumnItem}, item.Fits c L →
    (renderTable c item).Yields L.Holds
  | ⟨_, .name _⟩, ⟨hl, hn⟩ => .pure (tableNameText_holds hl hn)
  | ⟨_, .expr _⟩, ⟨hl, he⟩ =>
    (renderExpression_holds he).bind_pure fun _ _ hs => tableExprText_holds hl hs

theorem renderJoins_holds : ∀ {joins : List Join}, JoinsFit c L joins →
    (renderJoins c joins).Yields (Together L.Holds)
  | [], _ => .pure .nil
  | ⟨type, _, _⟩ :: _, ⟨htable, hon, hjoins⟩ =>
    renderJoins_cons_holds type (renderTable_holds htable) (renderClause_holds hon)
      (renderJoins_holds hjoins)

theorem renderClause_holds : ∀ {o : Option Operand}, ClauseFits c L o →
    (renderClause c o).Yields L.Holds
  | none, _ => .pure L.nil
  | some _, h => renderOperand_holds .condition h

theorem renderGroups_holds : ∀ {columns : List Column}, GroupsFit c L columns →
    (renderGroups c columns).Yields (Together L.Holds)
  | [], _ => .pure .nil
  | .name _ :: _, ⟨hn, hcolumns⟩ => renderGroups_name_holds hn (renderGroups_holds hcolumns)
  | .expr _ :: _, ⟨he, hcolumns⟩ =>
    (renderExpression_holds he).bind fun _ _ hpart =>
      (renderGroups_holds hcolumns).bind_pure fun _ _ hparts => .cons hpart hparts

theorem renderOrders_holds : ∀ {items : List OrderItem}, OrdersFit c L items →
    (renderOrders c items).Yields (Together L.Holds)
  | [], _ => .pure .nil
  | ⟨.name _, _⟩ :: _, ⟨hn, hitems⟩ => renderOrders_name_holds hn (renderOrders_holds hitems)
  | ⟨.expr _, _⟩ :: _, ⟨he, hitems⟩ =>
    (renderExpression_holds he).bind fun _ _ hpart =>
      (renderOrders_holds hitems).bind_pure fun _ _ hparts => .cons hpart hparts

theorem renderUnions_holds : ∀ {unions : List UnionMember}, UnionsFit c L unions →
    (renderUnions c unions).Yields (Together L.Holds)
  | [], _ => .pure .nil
  | ⟨_, all⟩ :: _, ⟨hq, hunions⟩ =>
    (renderQuery_holds hq).bind fun _ _ hs =>
      (renderUnions_holds hunions).bind_pure fun _ _ hparts => .cons (unionText_holds all hs) hparts

/-- A query that fits compiles to a statement that keeps the law. -/
theorem renderQuery_holds : ∀ {q : Query}, q.Fits c L → (renderQuery c q).Yields L.Holds
  | ⟨_, _, distinct, _, _, _, _, _, _, limit, offset, _, _, indexBy, cache, share, emulate⟩,
    ⟨hoption, hparams, hselect, htables, hjoins, hcondition, hgroups, hhaving, horders, hunions⟩ =>
    renderQuery_mk_holds distinct limit offset indexBy cache share emulate hoption hparams
      (renderSelect_holds hselect) (renderTables_holds htables) (renderJoins_holds hjoins)
      (renderClause_holds hcondition) (renderGroups_holds hgroups) (renderClause_holds hhaving)
      (renderOrders_holds horders) (renderUnions_holds hunions)

end

end QueryKit
