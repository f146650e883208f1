import QueryKit.Proofs.Compile.Fits

/-!
# What the renderers make of their parts

- `Compiler.hash_holds` and its fellows: a condition of each family, from what its parts yield.
- `pushMembers_holds` and its fellows: plain values, bound one by one.
- `renderForm_cons`: the operator form, kind by kind.
- `renderHash_cons_holds` and its fellows: one step of each renderer, from what the steps below it
  yield. `QueryKit.Proofs.Compile.Render` puts them together.
-/

namespace QueryKit

variable {c : Compiler} {L : FragmentLaw c.dialect}

open FragmentLaw

/-! ## Conditions from their parts -/

namespace Compiler

theorem hash_holds {parts : Compile (List String)} (h : parts.Yields (Together L.Holds)) :
    (c.hash parts).Yields L.Holds :=
  c.through_yields fun _ => h.bind_pure fun _ _ hp => joinWith_holds (by decide) hp

theorem negation_holds {inner : Compile String} (h : inner.Yields L.Holds) :
    (c.negation inner).Yields L.Holds :=
  c.through_yields fun _ => h.bind_pure fun _ _ hi => notText_holds hi

theorem conjunction_holds (conj : Conjunction) {parts : Compile (List String)}
    (h : parts.Yields (Together L.Holds)) : (c.conjunction conj parts).Yields L.Holds :=
  c.through_yields fun _ => h.bind_pure fun _ _ hp => conjunctionText_holds conj hp

theorem between_holds (negated : Bool) {column low high : Compile String}
    (hc : column.Yields L.Holds) (hl : low.Yields L.Holds) (hh : high.Yields L.Holds) :
    (c.between negated column low high).Yields L.Holds :=
  c.through_yields fun _ =>
    hc.bind fun _ _ hcolumn =>
      hl.bind fun _ _ hlow =>
        hh.bind_pure fun _ _ hhigh => betweenText_holds negated hcolumn hlow hhigh

theorem membership_holds {column : Compile MemberColumn} {test : MemberColumn → Compile String}
    {P : MemberColumn → List Binding → Prop} (hc : column.Yields P)
    (ht : ∀ m bs, P m bs → (test m).Yields fun s cs => L.Holds s (bs ++ cs)) :
    (c.membership column test).Yields L.Holds :=
  c.through_yields fun _ => hc.bind ht

theorem like_holds (negated : Bool) (combine : Conjunction) (isEmpty : Bool)
    {column : Compile String} {places : Compile (List String)} (hc : column.Yields L.Holds)
    {P : List String → Prop}
    (hp : places.Yields fun ps bs => Together L.Holds ps bs ∧ P ps)
    (honce : column.Yields (fun _ bs => L.Idle bs) ∨ ∀ ps, P ps → ps.length = 1) :
    (c.like negated combine isEmpty column places).Yields L.Holds := by
  refine c.through_yields fun _ => ?_
  split
  · exact .pure (emptyText_holds negated)
  · refine (hc.and (.or_const honce)).bind fun _ bs ⟨hcolumn, hidle⟩ => ?_
    refine hp.bind_pure fun ps cs ⟨hplaces, hlength⟩ => ?_
    exact likeText_holds negated combine hcolumn hplaces (hidle.imp_right fun h => h ps hlength)

theorem existence_holds (negated : Bool) {sql : Compile String} (h : sql.Yields L.Holds) :
    (c.existence negated sql).Yields L.Holds :=
  c.through_yields fun _ => h.bind_pure fun _ _ hs => isExistsText_holds negated hs

theorem comparison_holds (op : Operator) (isNull : Bool) {column place : Compile String}
    (ho : L.word op.token) (hc : column.Yields L.Holds) (hp : place.Yields L.Holds) :
    (c.comparison op column isNull place).Yields L.Holds := by
  refine c.through_yields fun _ => hc.bind fun column bs hcolumn => ?_
  have hlast : ∀ place cs, L.Holds place cs →
      (Compile.pure (column ++ " " ++ op.token ++ " " ++ place)).Yields fun s ds =>
        L.Holds s (bs ++ (cs ++ ds)) := by
    intro place cs hplace
    exact .pure (by simpa using comparisonText_holds ho hcolumn hplace)
  split
  · exact Compile.Yields.bind (.pure (holds_glue (by decide))) hlast
  · exact hp.bind hlast

end Compiler

/-! ## Plain values -/

section Plain

variable {d : Dialect} (L : FragmentLaw d)


theorem push_holds (v : Value) : (Compile.push v).Yields L.Holds :=
  .push fun p => L.place p

variable {L} in
theorem unboundText_holds {role : Role} {v : Value} (h : L.Unbound role v) :
    L.Holds (unboundText d role v) [] := by
  unfold unboundText
  split
  · exact columnName_holds h
  · next role v hne =>
    refine L.word_holds ?_
    unfold FragmentLaw.Unbound at h
    split at h
    · next s => exact absurd rfl (hne s rfl)
    · exact h

theorem pushMember_holds (v : Value) :
    (pushMember v).Yields fun m bs => L.Member m bs ∧ m.isNone = v.isNull := by
  unfold pushMember
  split
  · next hv => exact .pure ⟨rfl, hv.symm⟩
  · next hv =>
    refine (push_holds L v).bind_pure fun s bs hs => ⟨hs, ?_⟩
    simpa using hv

theorem pushTuple_holds : ∀ (names : List String) (vs : List Value),
    (pushTuple names vs).Yields (Together L.Member)
  | [], _ => .pure .nil
  | _ :: names, [] => by
    refine (pushTuple_holds names []).bind_pure fun rest bs hrest => ?_
    exact .cons_nil rfl hrest
  | _ :: names, v :: vs => by
    refine (pushMember_holds L v).bind fun place bs hplace => ?_
    exact (pushTuple_holds names vs).bind_pure fun rest cs hrest => .cons hplace.1 hrest

theorem pushTuples_holds (names : List String) : ∀ rows : List Value,
    (pushTuples names rows).Yields (Together L.Holds)
  | [] => .pure .nil
  | row :: rows => by
    refine (pushTuple_holds L names _).bind fun places bs hplaces => ?_
    refine (pushTuples_holds names rows).bind_pure fun rest cs hrest => ?_
    exact .cons (tupleText_holds hplaces) hrest

theorem pushMembers_holds : ∀ vs : List Value,
    (pushMembers vs).Yields fun ms bs =>
      Together L.Member ms bs ∧ ms.map Option.isNone = vs.map Value.isNull
  | [] => .pure ⟨.nil, rfl⟩
  | v :: vs => by
    refine (pushMember_holds L v).bind fun m bs ⟨hm, hnull⟩ => ?_
    refine (pushMembers_holds vs).bind_pure fun ms cs ⟨hms, hnulls⟩ => ?_
    exact ⟨.cons hm hms, by rw [List.map_cons, List.map_cons, hnull, hnulls]⟩

theorem pushPattern_holds (escape : LikeEscape) (v : Value) :
    (pushPattern escape v).Yields L.Holds :=
  push_holds L _

theorem pushPatterns_holds (escape : LikeEscape) : ∀ vs : List Value,
    (pushPatterns escape vs).Yields fun ps bs => Together L.Holds ps bs ∧ ps.length = vs.length
  | [] => .pure ⟨.nil, rfl⟩
  | v :: vs => by
    refine (pushPattern_holds L escape v).bind fun p bs hp => ?_
    refine (pushPatterns_holds escape vs).bind_pure fun ps cs ⟨hps, hlength⟩ => ?_
    exact ⟨.cons hp hps, congrArg (· + 1) hlength⟩

theorem pushArray_holds {elementType : Option String} (ht : ∀ t ∈ elementType, L.word t) :
    ∀ (n : Nat) (vs : List Value), (pushArray elementType n vs).Yields L.Holds
  | 0, vs => by
    refine (Compile.Yields.mapM fun v _ => push_holds L v).bind_pure fun places bs hp => ?_
    exact arrayText_holds 0 ht hp
  | 1, vs => by
    refine (Compile.Yields.mapM fun v _ => push_holds L v).bind_pure fun places bs hp => ?_
    exact arrayText_holds 1 ht hp
  | n + 2, vs => by
    refine (Compile.Yields.mapM fun v _ => ?_).bind_pure fun places bs hp =>
      arrayText_holds (n + 2) ht hp
    split
    · next inner _ => exact pushArray_holds ht (n + 1) inner
    · exact push_holds L v

theorem pushJson_holds (cast : JsonCast) (j : Json) {jsonType : Option String}
    (ht : ∀ t ∈ jsonType, L.word t) : (pushJson cast j jsonType).Yields L.Holds := by
  refine (push_holds L _).bind fun place bs hplace => ?_
  split
  · exact .pure (by simpa using holds_between (by decide) (by decide) hplace)
  · next t => exact .pure (by simpa using L.cast hplace (L.word_holds (ht t rfl)))
  · exact .pure (by simpa using hplace)

end Plain

/-- A tuple without values. -/
theorem nullTuple_holds (names : List String) : Together L.Member (names.map fun _ => none) [] := by
  apply Together.of_forall
  intro m hm
  obtain ⟨_, _, rfl⟩ := List.mem_map.mp hm
  rfl

/-- A plain value in front of which a column stands. -/
theorem renderMembership_value_holds (negated : Bool) {m : MemberColumn} {bs : List Binding}
    {v : Value} (hm : L.Column m bs) (honce : L.Idle bs ∨ (Operand.value v).OneTest) :
    (renderMembership c negated m (.value v)).Yields fun s cs => L.Holds s (bs ++ cs) := by
  cases m with
  | composite names =>
    obtain ⟨hnames, rfl⟩ := hm
    have hnull := tupleText_holds (nullTuple_holds (L := L) names)
    cases v with
    | array vs =>
      simp only [renderMembership]
      refine (pushTuples_holds L names vs).bind_pure fun _ _ ht => ?_
      exact inTuplesText_holds negated hnames ht
    | _ =>
      simp only [renderMembership]
      exact .pure (inTuplesText_holds negated hnames (.singleton hnull))
  | single text name =>
    cases v with
    | array vs =>
      simp only [renderMembership]
      refine (pushMembers_holds L vs).bind_pure fun _ _ ⟨hms, hnulls⟩ => ?_
      refine memberText_holds negated hm.1 hms ?_
      rw [hnulls]
      exact honce
    | _ =>
      simp only [renderMembership]
      refine (pushMember_holds L _).bind_pure fun _ _ ⟨hms, _⟩ => ?_
      exact memberText_holds negated hm.1 (.singleton hms) (.inr (writtenOnce_singleton _))

theorem renderPatterns_value_holds (escape : LikeEscape) (v : Value) :
    (renderPatterns c escape (.value v)).Yields fun ps bs =>
      Together L.Holds ps bs ∧ ((Operand.value v).OnePattern → ps.length = 1) := by
  cases v with
  | array vs =>
    simp only [renderPatterns]
    refine (pushPatterns_holds L escape vs).mono fun _ _ ⟨hps, hlength⟩ => ⟨hps, fun h => ?_⟩
    rw [hlength]
    exact h
  | _ =>
    simp only [renderPatterns]
    exact (pushPattern_holds L escape _).bind_pure fun _ _ hp => ⟨.singleton hp, fun _ => rfl⟩

/-! ## The operator form -/

/-- NOT and its operand. -/
def negationForm (c : Compiler) (op : Operator) : List Operand → Compile String
  | [o] => c.negation (renderOperand c .condition o)
  | _ => .fault (.oneOperand op.token)

/-- BETWEEN and its operands; more than three are not looked at. -/
def rangeForm (c : Compiler) (op : Operator) (negated : Bool) : List Operand → Compile String
  | column :: low :: high :: _ =>
    c.between negated (renderOperand c .column column) (renderOperand c .bound low)
      (renderOperand c .bound high)
  | _ => .fault (.threeOperands op.token)

/-- IN and its operands. -/
def membershipForm (c : Compiler) (op : Operator) (negated : Bool) : List Operand → Compile String
  | column :: values :: _ =>
    c.membership (renderMemberColumn c (.of values) column) fun column =>
      renderMembership c negated column values
  | _ => .fault (.twoOperands op.token)

/-- LIKE and its operands; a third one tells how to escape the patterns. -/
def patternsForm (c : Compiler) (op : Operator) (negated : Bool) (combine : Conjunction) :
    List Operand → Compile String
  | column :: values :: r =>
    c.like negated combine values.isEmpty (renderOperand c .column column)
      (renderPatterns c (.ofOperand r.head?) values)
  | _ => .fault (.twoOperands op.token)

/-- EXISTS and its subquery. -/
def existenceForm (c : Compiler) (negated : Bool) : List Operand → Compile String
  | .expr (.query q) :: _ => c.existence negated (renderQuery c q)
  | _ => .fault .notASubquery

/-- A comparison and its operands. -/
def comparisonForm (c : Compiler) (op : Operator) : List Operand → Compile String
  | [column, v] =>
    c.comparison op (renderOperand c .column column) v.isNull (renderOperand c .bound v)
  | _ => .fault (.twoOperands op.token)

/-- The operator form, kind by kind. -/
theorem renderForm_cons {head : Operand} {token : String} (ht : head.asString = some token)
    (operands : List Operand) :
    renderForm c (head :: operands) =
      match (Operator.parse token).kind with
      | .not => negationForm c (.parse token) operands
      | .conjunction conj => c.conjunction conj (renderConditions c operands)
      | .between negated => rangeForm c (.parse token) negated operands
      | .isIn negated => membershipForm c (.parse token) negated operands
      | .like negated combine => patternsForm c (.parse token) negated combine operands
      | .isExists negated => existenceForm c negated operands
      | .simple => comparisonForm c (.parse token) operands := by
  rw [renderForm, ht]
  rfl

/-! ## Steps of the renderers -/

theorem renderForm_cons_holds {head : Operand} {operands : List Operand}
    (h : FormFits c L (head :: operands))
    (hnot : ∀ op, NegationFits c L operands → (negationForm c op operands).Yields L.Holds)
    (hconj : ItemsFit c L .condition operands →
      (renderConditions c operands).Yields (Together L.Holds))
    (hrange : ∀ op negated, RangeFits c L operands →
      (rangeForm c op negated operands).Yields L.Holds)
    (hin : ∀ op negated, MembershipFits c L operands →
      (membershipForm c op negated operands).Yields L.Holds)
    (hlike : ∀ op negated combine, PatternsFit c L operands →
      (patternsForm c op negated combine operands).Yields L.Holds)
    (hexists : ∀ negated, ExistenceFits c L operands →
      (existenceForm c negated operands).Yields L.Holds)
    (hsimple : ∀ op, ComparisonFits c L op operands →
      (comparisonForm c op operands).Yields L.Holds) :
    (renderForm c (head :: operands)).Yields L.Holds := by
  rw [FormFits] at h
  cases ht : head.asString with
  | none =>
    rw [renderForm, ht]
    exact .fault
  | some token =>
    rw [renderForm_cons ht]
    rw [ht] at h
    dsimp only at h
    generalize (Operator.parse token).kind = kind at h ⊢
    cases kind with
    | not => exact hnot _ h
    | conjunction conj => exact Compiler.conjunction_holds conj (hconj h)
    | between negated => exact hrange _ negated h
    | isIn negated => exact hin _ negated h
    | like negated combine => exact hlike _ negated combine h
    | isExists negated => exact hexists negated h
    | simple => exact hsimple _ h

theorem renderOperand_bound_list_holds (items : List Operand) :
    (renderOperand c .bound (.list items)).Yields L.Holds := by
  simp only [renderOperand]
  split
  · exact push_holds L _
  · exact .fault

theorem renderMap_holds {entries : List (String × Operand)}
    (h : (renderHash c entries).Yields (Together L.Holds)) :
    (if entries.isEmpty then .pure "" else c.hash (renderHash c entries)).Yields L.Holds := by
  split
  · exact .pure L.nil
  · exact Compiler.hash_holds h

theorem renderHash_cons_holds {name : String} {o : Operand} {es : List (String × Operand)}
    (hname : L.name name)
    (hin : ∀ m bs, L.Column m bs → L.Idle bs →
      (renderMembership c false m o).Yields fun s cs => L.Holds s (bs ++ cs))
    (ho : (renderOperand c .bound o).Yields L.Holds)
    (hes : (renderHash c es).Yields (Together L.Holds)) :
    (renderHash c ((name, o) :: es)).Yields (Together L.Holds) := by
  have hcolumn := columnName_holds (L := L) hname
  have hlast : ∀ part bs, L.Holds part bs →
      (renderHash c es >>= fun parts => Compile.pure (part :: parts)).Yields
        fun parts cs => Together L.Holds parts (bs ++ cs) := fun _ _ hpart =>
    hes.bind_pure fun _ _ hparts => .cons hpart hparts
  simp only [renderHash]
  split
  · have hsingle : (Compile.pure (.single (c.dialect.columnName name) (some name))).Yields
        fun m bs => L.Column m bs ∧ L.Idle bs := .pure ⟨⟨hcolumn, fun _ => rfl⟩, idle_nil⟩
    exact (Compiler.membership_holds hsingle fun m bs hm => hin m bs hm.1 hm.2).bind hlast
  · split
    · exact Compile.Yields.bind (.pure (holds_before_glue (by decide) hcolumn)) hlast
    · refine ho.bind fun place bs hplace => ?_
      rw [pure_bind]
      refine hlast _ _ ?_
      simpa using L.glue (g := " = ") (by decide) hcolumn hplace

/-- A column that is known by its name is a value, which is written out. -/
theorem renderColumns_singleton_holds {column : Operand}
    (hc : (renderOperand c .column column).Yields L.Holds) :
    (renderColumns c [column]).Yields L.Column := by
  simp only [renderColumns]
  have hnamed : (renderOperand c .column column).Yields fun _ bs =>
      column.asString.isSome → bs = [] := by
    cases column with
    | value v => exact .pure fun _ => rfl
    | _ => exact fun _ _ _ hn => by cases hn
  exact (hc.and hnamed).bind_pure fun _ _ ht => ht

/-- A column side that is not known by a name. -/
theorem nameless_holds {x : Compile String} (h : x.Yields L.Holds) :
    (x >>= fun text => Compile.pure (MemberColumn.single text none)).Yields L.Column :=
  h.bind_pure fun _ _ ht => ⟨ht, fun hn => by cases hn⟩

theorem renderMemberColumn_map_holds {source : MemberSource} {entries : List (String × Operand)}
    (h : (renderHash c entries).Yields (Together L.Holds)) :
    (renderMemberColumn c source (.map entries)).Yields L.Column := by
  simp only [renderMemberColumn]
  split
  · exact nameless_holds (.pure L.nil)
  · exact nameless_holds (Compiler.hash_holds h)

theorem fragment_holds (negated : Bool) {m : MemberColumn} {bs : List Binding} {x : Compile String}
    (hm : L.Column m bs) (h : x.Yields L.Holds) :
    (x >>= fun sql => Compile.pure (inFragmentText (m.text c.dialect) negated sql)).Yields
      fun s cs => L.Holds s (bs ++ cs) :=
  h.bind_pure fun _ _ hs => inFragmentText_holds negated (column_text_holds hm) hs

theorem renderMembership_list_holds (negated : Bool) {m : MemberColumn} {bs : List Binding}
    {items : List Operand} (hm : L.Column m bs)
    (honce : L.Idle bs ∨ (Operand.list items).OneTest)
    (htuples : ∀ names, (renderTuples c names items).Yields (Together L.Holds))
    (hmembers : ∀ name, (renderMembers c name items).Yields fun ms bs =>
      Together L.Member ms bs ∧
        (name = none → ms.map Option.isNone = items.map Operand.isNull)) :
    (renderMembership c negated m (.list items)).Yields fun s cs => L.Holds s (bs ++ cs) := by
  cases m with
  | composite names =>
    obtain ⟨hnames, rfl⟩ := hm
    simp only [renderMembership]
    exact (htuples names).bind_pure fun _ _ ht => inTuplesText_holds negated hnames ht
  | single text name =>
    simp only [renderMembership]
    refine (hmembers name).bind_pure fun ms cs ⟨hms, hnulls⟩ => ?_
    refine memberText_holds negated hm.1 hms ?_
    cases name with
    | none =>
      rw [hnulls rfl]
      exact honce
    | some n =>
      rw [hm.2 rfl]
      exact .inl idle_nil

theorem renderMembership_map_holds (negated : Bool) {m : MemberColumn} {bs : List Binding}
    {entries : List (String × Operand)} (hm : L.Column m bs)
    (h : ∀ name, (renderNamed c name entries).Yields L.Member) :
    (renderMembership c negated m (.map entries)).Yields fun s cs => L.Holds s (bs ++ cs) := by
  cases m with
  | composite names =>
    obtain ⟨hnames, rfl⟩ := hm
    simp only [renderMembership]
    refine (Compile.Yields.mapM fun name _ => h name).bind_pure fun _ _ hplaces => ?_
    exact inTuplesText_holds negated hnames (.singleton (tupleText_holds hplaces))
  | single text name =>
    cases name with
    | none =>
      simp only [renderMembership]
      exact .fault
    | some name =>
      simp only [renderMembership]
      refine (h name).bind_pure fun _ _ hms => ?_
      exact memberText_holds negated hm.1 (.singleton hms) (.inr (writtenOnce_singleton _))

theorem renderMembers_cons_holds {name : Option String} {o : Operand} {os : List Operand}
    (hm : ∀ es, o ≠ .map es) (ho : (renderOperand c .bound o).Yields L.Holds)
    (hos : (renderMembers c name os).Yields fun ms bs =>
      Together L.Member ms bs ∧ (name = none → ms.map Option.isNone = os.map Operand.isNull)) :
    (renderMembers c name (o :: os)).Yields fun ms bs =>
      Together L.Member ms bs ∧
        (name = none → ms.map Option.isNone = (o :: os).map Operand.isNull) := by
  have hlast : ∀ m bs, L.Member m bs → m.isNone = o.isNull →
      (renderMembers c name os >>= fun ms => Compile.pure (m :: ms)).Yields fun ms cs =>
        Together L.Member ms (bs ++ cs) ∧
          (name = none → ms.map Option.isNone = (o :: os).map Operand.isNull) := by
    intro m bs hmember hnull
    refine hos.bind_pure fun ms cs ⟨hms, hnulls⟩ => ⟨.cons hmember hms, fun hname => ?_⟩
    rw [List.map_cons, List.map_cons, hnull, hnulls hname]
  have hnone : (Compile.pure (none : Option String)).Yields fun m bs => m = none ∧ bs = [] :=
    .pure ⟨rfl, rfl⟩
  rw [renderMembers]
  · split
    · next hnull =>
      refine hnone.bind fun m bs ⟨hm, hbs⟩ => ?_
      exact hlast m bs (hm ▸ hbs) (by rw [hm, hnull]; rfl)
    · next hnull =>
      refine ho.bind fun place bs hplace => ?_
      rw [pure_bind]
      exact hlast _ _ hplace (by simpa using hnull)
  · exact hm

theorem renderMembers_map_holds {name : Option String} {entries : List (String × Operand)}
    {os : List Operand} (h : ∀ n, (renderNamed c n entries).Yields L.Member)
    (hos : (renderMembers c name os).Yields fun ms bs =>
      Together L.Member ms bs ∧ (name = none → ms.map Option.isNone = os.map Operand.isNull)) :
    (renderMembers c name (.map entries :: os)).Yields fun ms bs =>
      Together L.Member ms bs ∧
        (name = none → ms.map Option.isNone = (.map entries :: os).map Operand.isNull) := by
  simp only [renderMembers]
  cases name with
  | none => exact .fault
  | some n =>
    refine (h n).bind fun _ _ hm => ?_
    exact hos.bind_pure fun _ _ ⟨hms, _⟩ => ⟨.cons hm hms, fun hn => by cases hn⟩

theorem renderTuples_cons_holds {names : List String} {row : Operand} {rows : List Operand}
    (hmap : ∀ es, row = .map es → ∀ n, (renderNamed c n es).Yields L.Member)
    (hlist : ∀ os, row = .list os → (renderPlaces c names os).Yields (Together L.Member))
    (hrows : (renderTuples c names rows).Yields (Together L.Holds)) :
    (renderTuples c names (row :: rows)).Yields (Together L.Holds) := by
  have hlast : ∀ places bs, Together L.Member places bs →
      (renderTuples c names rows >>= fun tuples => Compile.pure (tupleText places :: tuples)).Yields
        fun tuples cs => Together L.Holds tuples (bs ++ cs) := fun _ _ hplaces =>
    hrows.bind_pure fun _ _ ht => .cons (tupleText_holds hplaces) ht
  cases row with
  | map es => exact (Compile.Yields.mapM fun n _ => hmap es rfl n).bind hlast
  | list os => exact (hlist os rfl).bind hlast
  | value v =>
    cases v with
    | array vs => exact (pushTuple_holds L names vs).bind hlast
    | _ => exact Compile.Yields.bind (.pure (nullTuple_holds names)) hlast
  | expr e => exact Compile.Yields.bind (.pure (nullTuple_holds names)) hlast

theorem renderPlaces_nil_holds (names : List String) :
    (renderPlaces c names []).Yields (Together L.Member) := by
  cases names with
  | nil => exact .pure .nil
  | cons name names => exact .pure (nullTuple_holds (name :: names))

theorem renderPlaces_cons_holds {name : String} {names : List String} {o : Operand}
    {os : List Operand} (ho : (renderOperand c .bound o).Yields L.Holds)
    (hos : (renderPlaces c names os).Yields (Together L.Member)) :
    (renderPlaces c (name :: names) (o :: os)).Yields (Together L.Member) := by
  have hlast : ∀ place bs, L.Member place bs →
      (renderPlaces c names os >>= fun places => Compile.pure (place :: places)).Yields
        fun places cs => Together L.Member places (bs ++ cs) := fun _ _ hplace =>
    hos.bind_pure fun _ _ hplaces => .cons hplace hplaces
  simp only [renderPlaces]
  split
  · exact Compile.Yields.bind (P := L.Member) (.pure rfl) hlast
  · refine ho.bind fun place bs hplace => ?_
    rw [pure_bind]
    exact hlast _ _ hplace

theorem renderNamed_cons_holds {name key : String} {o : Operand} {es : List (String × Operand)}
    (ho : (renderOperand c .bound o).Yields L.Holds)
    (hes : (renderNamed c name es).Yields L.Member) :
    (renderNamed c name ((key, o) :: es)).Yields L.Member := by
  simp only [renderNamed]
  split
  · split
    · exact .pure rfl
    · exact ho.bind_pure fun _ _ hplace => hplace
  · exact hes

theorem renderPatternList_cons_holds {escape : LikeEscape} {o : Operand} {os : List Operand}
    (ho : (renderOperand c .bound o).Yields L.Holds)
    (hos : (renderPatternList c escape os).Yields fun ps bs =>
      Together L.Holds ps bs ∧ ps.length = os.length) :
    (renderPatternList c escape (o :: os)).Yields fun ps bs =>
      Together L.Holds ps bs ∧ ps.length = (o :: os).length := by
  have hlast : ∀ place bs, L.Holds place bs →
      (renderPatternList c escape os >>= fun places => Compile.pure (place :: places)).Yields
        fun ps cs => Together L.Holds ps (bs ++ cs) ∧ ps.length = (o :: os).length :=
    fun _ _ hplace => hos.bind_pure fun _ _ ⟨hps, hlength⟩ =>
      ⟨.cons hplace hps, congrArg (· + 1) hlength⟩
  cases o with
  | value v => exact (pushPattern_holds L escape v).bind hlast
  | expr e => exact ho.bind hlast
  | list _ => exact .fault
  | map _ => exact .fault

theorem renderArrayOfQuery_holds {q : Query} {elementType : Option String} (dimension : Nat)
    (hq : (renderQuery c q).Yields L.Holds) (ht : ∀ t ∈ elementType, L.word t) :
    (renderExpression c (.arrayOfQuery q elementType dimension)).Yields L.Holds :=
  c.through_yields fun _ => hq.bind_pure fun _ _ hs =>
    arrayTypeText_holds dimension ht (holds_between (by decide) (by decide) hs)

theorem renderRaw_holds {sql : String} {params : Params} (h : L.raw sql params) :
    (renderExpression c (.raw sql params)).Yields L.Holds := by
  refine c.through_yields fun _ => ?_
  refine Compile.Yields.bind (P := fun _ bs => bs = params.bindings) (.emit rfl) ?_
  rintro _ _ rfl
  exact .pure (by simpa using L.raw_holds h)

/-! ### Clauses -/

theorem renderSelect_name_holds {label : Option String} {n : String} {items : List ColumnItem}
    (hl : ∀ a ∈ label, L.name a) (hn : L.name n)
    (hitems : (renderSelect c items).Yields (Together L.Holds)) :
    (renderSelect c (⟨label, .name n⟩ :: items)).Yields (Together L.Holds) :=
  Compile.Yields.bind (.pure (selectNameText_holds hl hn)) fun _ _ hpart =>
    hitems.bind_pure fun _ _ hparts => .cons hpart hparts

theorem renderSelect_expr_holds {label : Option String} {e : Expression} {items : List ColumnItem}
    (hl : ∀ a ∈ label, L.name a) (he : (renderExpression c e).Yields L.Holds)
    (hitems : (renderSelect c items).Yields (Together L.Holds)) :
    (renderSelect c (⟨label, .expr e⟩ :: items)).Yields (Together L.Holds) := by
  refine he.bind fun _ _ hs => ?_
  rw [pure_bind]
  exact hitems.bind_pure fun _ _ hparts => .cons (selectExprText_holds hl hs) hparts

theorem renderOrders_name_holds {n : String} {direction : SortDirection} {items : List OrderItem}
    (hn : L.name n) (hitems : (renderOrders c items).Yields (Together L.Holds)) :
    (renderOrders c (⟨.name n, direction⟩ :: items)).Yields (Together L.Holds) :=
  Compile.Yields.bind (.pure (orderNameText_holds direction hn)) fun _ _ hpart =>
    hitems.bind_pure fun _ _ hparts => .cons hpart hparts

theorem renderGroups_name_holds {n : String} {columns : List Column} (hn : L.name n)
    (hcolumns : (renderGroups c columns).Yields (Together L.Holds)) :
    (renderGroups c (.name n :: columns)).Yields (Together L.Holds) :=
  Compile.Yields.bind (.pure (columnName_holds hn)) fun _ _ hpart =>
    hcolumns.bind_pure fun _ _ hparts => .cons hpart hparts

theorem renderJoins_cons_holds (type : JoinType) {table : ColumnItem} {on : Option Operand}
    {joins : List Join} (htable : (renderTable c table).Yields L.Holds)
    (hon : (renderClause c on).Yields L.Holds)
    (hjoins : (renderJoins c joins).Yields (Together L.Holds)) :
    (renderJoins c (⟨type, table, on⟩ :: joins)).Yields (Together L.Holds) := by
  refine htable.bind fun _ _ ht => hon.bind fun _ _ hc => ?_
  refine hjoins.bind_pure fun _ _ hparts => ?_
  simpa [List.append_assoc] using Together.cons (joinText_holds type ht hc) hparts

/-- The clauses of a statement follow one another, and each binds its values at its own place. The
parameters of the query itself come before all of them. -/
theorem renderQuery_mk_holds {select tables : List ColumnItem} {selectOption : Option String}
    {joins : List Join} {condition having : Option Operand} {groupBy : List Column}
    {orderBy : List OrderItem} {unions : List UnionMember} {params : Params} (distinct : Bool)
    (limit offset : Option Nat) (indexBy : Option IndexBy) (cache : Option CachePolicy)
    (share emulateExecution : Bool) (hoption : ∀ o ∈ selectOption, L.word o)
    (hparams : L.params params) (hselect : (renderSelect c select).Yields (Together L.Holds))
    (htables : (renderTables c tables).Yields (Together L.Holds))
    (hjoins : (renderJoins c joins).Yields (Together L.Holds))
    (hcondition : (renderClause c condition).Yields L.Holds)
    (hgroups : (renderGroups c groupBy).Yields (Together L.Holds))
    (hhaving : (renderClause c having).Yields L.Holds)
    (horders : (renderOrders c orderBy).Yields (Together L.Holds))
    (hunions : (renderUnions c unions).Yields (Together L.Holds)) :
    (renderQuery c ⟨select, selectOption, distinct, tables, joins, condition, groupBy, having,
      orderBy, limit, offset, unions, params, indexBy, cache, share, emulateExecution⟩).Yields
        L.Holds := by
  simp only [renderQuery]
  refine Compile.Yields.bind (P := fun _ bs => bs = params.bindings) (.emit rfl) ?_
  rintro _ _ rfl
  refine hselect.bind fun _ _ hselect => ?_
  refine htables.bind fun _ _ htables => ?_
  refine hjoins.bind fun _ _ hjoins => ?_
  refine hcondition.bind fun _ _ hcondition => ?_
  refine hgroups.bind fun _ _ hgroups => ?_
  refine hhaving.bind fun _ _ hhaving => ?_
  refine horders.bind fun _ _ horders => ?_
  refine hunions.bind_pure fun _ _ hunions => ?_
  rw [(idle_of_params hparams).holds_append]
  have hclauses :=
    Together.cons (selectText_holds distinct hoption hselect) <|
    Together.cons (listClauseText_holds "FROM" (by decide) htables) <|
    Together.cons (joinWith_holds (g := " ") (by decide) hjoins) <|
    Together.cons (clauseText_holds "WHERE" (by decide) hcondition) <|
    Together.cons (listClauseText_holds "GROUP BY" (by decide) hgroups) <|
    Together.cons (clauseText_holds "HAVING" (by decide) hhaving) <|
    Together.cons (listClauseText_holds "ORDER BY" (by decide) horders) <|
    Together.singleton (limitText_holds limit offset)
  simpa [List.append_assoc] using statementText_holds hclauses hunions

end QueryKit
