import QueryKit.Proofs.Compile.Idle
import QueryKit.Proofs.Params.Extend
import QueryKit.Proofs.Placeholder.Alignment

/-!
# The names that a text binds

- `Query.paramNames`, `Expression.paramNames`, `Operand.paramNames`, `Compilable.paramNames`: the
  names of the parameters that stand anywhere in a query, an expression, an operand or a statement.
- `namesLaw P`: a fragment binds names with `P` only.
- `Compilable.binds_paramNames`: a compiled text binds no name that does not stand in its source.
-/

namespace QueryKit

/-! ## The names in a query -/

mutual

/-- The names of the parameters in an operand. -/
def Operand.paramNames : Operand → List String
  | .value _ => []
  | .list items => itemsParamNames items
  | .map entries => entriesParamNames entries
  | .expr e => e.paramNames

def itemsParamNames : List Operand → List String
  | [] => []
  | o :: os => o.paramNames ++ itemsParamNames os

def entriesParamNames : List (String × Operand) → List String
  | [] => []
  | (_, o) :: es => o.paramNames ++ entriesParamNames es

/-- The names of the parameters in an expression. -/
def Expression.paramNames : Expression → List String
  | .raw _ params => params.names
  | .typed _ _ => []
  | .arrayOfValues _ _ _ => []
  | .arrayOfQuery q _ _ => q.paramNames
  | .json _ _ => []
  | .query q => q.paramNames
  | .condition cond => cond.paramNames

/-- The names of the parameters in a condition. -/
def Condition.paramNames : Condition → List String
  | .hash entries => entriesParamNames entries
  | .simple column _ v => column.paramNames ++ v.paramNames
  | .not o => o.paramNames
  | .conjunction _ operands => itemsParamNames operands
  | .between column _ low high => column.paramNames ++ (low.paramNames ++ high.paramNames)
  | .isIn column _ values => column.paramNames ++ values.paramNames
  | .like column _ _ values _ => column.paramNames ++ values.paramNames
  | .isExists _ q => q.paramNames

def Column.paramNames : Column → List String
  | .name _ => []
  | .expr e => e.paramNames

def columnItemsParamNames : List ColumnItem → List String
  | [] => []
  | ⟨_, column⟩ :: items => column.paramNames ++ columnItemsParamNames items

def joinsParamNames : List Join → List String
  | [] => []
  | ⟨_, ⟨_, table⟩, on⟩ :: joins =>
    table.paramNames ++ (clauseParamNames on ++ joinsParamNames joins)

def clauseParamNames : Option Operand → List String
  | none => []
  | some o => o.paramNames

def groupsParamNames : List Column → List String
  | [] => []
  | column :: columns => column.paramNames ++ groupsParamNames columns

def ordersParamNames : List OrderItem → List String
  | [] => []
  | ⟨column, _⟩ :: items => column.paramNames ++ ordersParamNames items

def unionsParamNames : List UnionMember → List String
  | [] => []
  | ⟨q, _⟩ :: unions => q.paramNames ++ unionsParamNames unions

/-- The names of the parameters in a SELECT statement. -/
def Query.paramNames : Query → List String
  | ⟨select, _, _, tables, joins, condition, groupBy, having, orderBy, _, _, unions, params, _, _,
      _, _⟩ =>
    params.names ++ (columnItemsParamNames select ++ (columnItemsParamNames tables ++
      (joinsParamNames joins ++ (clauseParamNames condition ++ (groupsParamNames groupBy ++
        (clauseParamNames having ++ (ordersParamNames orderBy ++ unionsParamNames unions)))))))

end

/-! ## The law of names -/

/-- The names that bindings set have a property. -/
def BindsOnly (P : String → Prop) (bs : List Binding) : Prop :=
  ∀ b ∈ bs, ∀ n, b.key = .named n → P n

theorem bindsOnly_append {P : String → Prop} {bs cs : List Binding} :
    BindsOnly P (bs ++ cs) ↔ BindsOnly P bs ∧ BindsOnly P cs :=
  List.forall_mem_append

theorem bindsOnly_bindings {P : String → Prop} {ps : Params} (h : ∀ n ∈ ps.names, P n) :
    BindsOnly P ps.bindings := by
  intro b hb n hn
  obtain ⟨e, he, rfl⟩ := List.mem_map.mp hb
  exact h n (Params.mem_names.mpr (hn ▸ List.mem_map_of_mem he))

/-- A fragment binds names with a property only. -/
def namesLaw (P : String → Prop) (d : Dialect) : FragmentLaw d where
  Holds _ bs := BindsOnly P bs
  name _ := True
  word _ := True
  raw _ ps := ∀ n ∈ ps.names, P n
  params ps := ∀ n ∈ ps.names, P n
  nil := nofun
  glue _ hs ht := bindsOnly_append.mpr ⟨hs, ht⟩
  place _ := List.forall_mem_singleton.mpr nofun
  cast hs _ := hs
  escape hs := hs
  word_holds _ := nofun
  raw_holds := bindsOnly_bindings
  raw_of_holds _ := nofun
  name_holds _ := nofun
  column_holds _ := nofun
  table_holds _ := nofun
  requoted_holds _ := nofun
  name_within _ _ := trivial
  empty_idle h s as cs := by simp only [bindsOnly_append, h, true_and]
  params_idle h s as cs := by simp only [bindsOnly_append, bindsOnly_bindings h, true_and]

theorem namesLaw_alwaysIdle (P : String → Prop) (d : Dialect) : (namesLaw P d).AlwaysIdle :=
  fun h => FragmentLaw.idle_of_empty (L := namesLaw P d) h

variable {c : Compiler} {P : String → Prop}

theorem namesLaw_unbound (role : Role) (v : Value) : (namesLaw P c.dialect).Unbound role v := by
  unfold FragmentLaw.Unbound
  split <;> trivial

/-! ## Names that stand in a query fit -/

mutual

theorem Operand.fits_of_paramNames (role : Role) : ∀ {o : Operand},
    (∀ n ∈ o.paramNames, P n) → o.Fits c (namesLaw P c.dialect) role
  | .value v, _ =>
    match role with
    | .bound => trivial
    | .condition => namesLaw_unbound .condition v
    | .column => namesLaw_unbound .column v
  | .list _, h =>
    match role with
    | .bound => itemsFit_of_paramNames .bound h
    | .condition => formFits_of_paramNames h
    | .column => formFits_of_paramNames h
  | .map _, h =>
    match role with
    | .bound => valuesFit_of_paramNames h
    | .condition => hashFits_of_paramNames h
    | .column => hashFits_of_paramNames h
  | .expr _, h => Expression.fits_of_paramNames h

theorem itemsFit_of_paramNames (role : Role) : ∀ {os : List Operand},
    (∀ n ∈ itemsParamNames os, P n) → ItemsFit c (namesLaw P c.dialect) role os
  | [], _ => trivial
  | _ :: _, h =>
    have ⟨ho, hos⟩ := List.forall_mem_append.mp h
    ⟨Operand.fits_of_paramNames role ho, itemsFit_of_paramNames role hos⟩

theorem valuesFit_of_paramNames : ∀ {es : List (String × Operand)},
    (∀ n ∈ entriesParamNames es, P n) → ValuesFit c (namesLaw P c.dialect) es
  | [], _ => trivial
  | (_, _) :: _, h =>
    have ⟨ho, hes⟩ := List.forall_mem_append.mp h
    ⟨Operand.fits_of_paramNames .bound ho, valuesFit_of_paramNames hes⟩

theorem hashFits_of_paramNames : ∀ {es : List (String × Operand)},
    (∀ n ∈ entriesParamNames es, P n) → HashFits c (namesLaw P c.dialect) es
  | [], _ => trivial
  | (_, _) :: _, h =>
    have ⟨ho, hes⟩ := List.forall_mem_append.mp h
    ⟨trivial, Operand.fits_of_paramNames .bound ho, hashFits_of_paramNames hes⟩

theorem formFits_of_paramNames : ∀ {os : List Operand},
    (∀ n ∈ itemsParamNames os, P n) → FormFits c (namesLaw P c.dialect) os
  | [], _ => trivial
  | head :: operands, h => by
    have ⟨_, h⟩ := List.forall_mem_append.mp h
    rw [FormFits]
    cases head.asString with
    | none => trivial
    | some token =>
      dsimp only
      cases (Operator.parse token).kind with
      | not => exact negationFits_of_paramNames h
      | conjunction _ => exact itemsFit_of_paramNames .condition h
      | between _ => exact rangeFits_of_paramNames h
      | isIn _ => exact membershipFits_of_paramNames h
      | like _ _ => exact patternsFit_of_paramNames h
      | isExists _ => exact existenceFits_of_paramNames h
      | simple => exact comparisonFits_of_paramNames h

theorem negationFits_of_paramNames : ∀ {os : List Operand},
    (∀ n ∈ itemsParamNames os, P n) → NegationFits c (namesLaw P c.dialect) os
  | [], _ => trivial
  | [_], h =>
    have ⟨ho, _⟩ := List.forall_mem_append.mp h
    Operand.fits_of_paramNames .condition ho
  | _ :: _ :: _, _ => trivial

theorem rangeFits_of_paramNames : ∀ {os : List Operand},
    (∀ n ∈ itemsParamNames os, P n) → RangeFits c (namesLaw P c.dialect) os
  | [], _ => trivial
  | [_], _ => trivial
  | [_, _], _ => trivial
  | _ :: _ :: _ :: _, h =>
    have ⟨hcolumn, h⟩ := List.forall_mem_append.mp h
    have ⟨hlow, h⟩ := List.forall_mem_append.mp h
    have ⟨hhigh, _⟩ := List.forall_mem_append.mp h
    ⟨Operand.fits_of_paramNames .column hcolumn, Operand.fits_of_paramNames .bound hlow,
      Operand.fits_of_paramNames .bound hhigh⟩

theorem membershipFits_of_paramNames : ∀ {os : List Operand},
    (∀ n ∈ itemsParamNames os, P n) → MembershipFits c (namesLaw P c.dialect) os
  | [], _ => trivial
  | [_], _ => trivial
  | _ :: _ :: _, h =>
    have ⟨hcolumn, h⟩ := List.forall_mem_append.mp h
    have ⟨hvalues, _⟩ := List.forall_mem_append.mp h
    have hfits := memberColumnFits_of_paramNames hcolumn
    ⟨hfits, Operand.fits_of_paramNames .bound hvalues,
      .inl (FragmentLaw.memberColumn_idle (namesLaw_alwaysIdle P _) hfits)⟩

theorem patternsFit_of_paramNames : ∀ {os : List Operand},
    (∀ n ∈ itemsParamNames os, P n) → PatternsFit c (namesLaw P c.dialect) os
  | [], _ => trivial
  | [_], _ => trivial
  | _ :: _ :: _, h =>
    have ⟨hcolumn, h⟩ := List.forall_mem_append.mp h
    have ⟨hvalues, _⟩ := List.forall_mem_append.mp h
    have hfits := Operand.fits_of_paramNames .column hcolumn
    ⟨hfits, Operand.fits_of_paramNames .bound hvalues,
      .inl (FragmentLaw.operand_idle (namesLaw_alwaysIdle P _) hfits)⟩

theorem existenceFits_of_paramNames : ∀ {os : List Operand},
    (∀ n ∈ itemsParamNames os, P n) → ExistenceFits c (namesLaw P c.dialect) os
  | [], _ => trivial
  | .expr (.query _) :: _, h =>
    have ⟨hq, _⟩ := List.forall_mem_append.mp h
    Query.fits_of_paramNames hq
  | .value _ :: _, _ => trivial
  | .list _ :: _, _ => trivial
  | .map _ :: _, _ => trivial
  | .expr (.raw ..) :: _, _ => trivial
  | .expr (.typed ..) :: _, _ => trivial
  | .expr (.arrayOfValues ..) :: _, _ => trivial
  | .expr (.arrayOfQuery ..) :: _, _ => trivial
  | .expr (.json ..) :: _, _ => trivial
  | .expr (.condition _) :: _, _ => trivial

theorem comparisonFits_of_paramNames {op : Operator} : ∀ {os : List Operand},
    (∀ n ∈ itemsParamNames os, P n) → ComparisonFits c (namesLaw P c.dialect) op os
  | [], _ => trivial
  | [_], _ => trivial
  | [_, _], h =>
    have ⟨hcolumn, h⟩ := List.forall_mem_append.mp h
    have ⟨hv, _⟩ := List.forall_mem_append.mp h
    ⟨trivial, Operand.fits_of_paramNames .column hcolumn, Operand.fits_of_paramNames .bound hv⟩
  | _ :: _ :: _ :: _, _ => trivial

theorem columnsFit_of_paramNames : ∀ {os : List Operand},
    (∀ n ∈ itemsParamNames os, P n) → ColumnsFit c (namesLaw P c.dialect) os
  | [], _ => trivial
  | [_], h =>
    have ⟨ho, _⟩ := List.forall_mem_append.mp h
    Operand.fits_of_paramNames .column ho
  | _ :: _ :: _, _ => fun _ _ => trivial

theorem memberColumnFits_of_paramNames {source : MemberSource} : ∀ {o : Operand},
    (∀ n ∈ o.paramNames, P n) → MemberColumnFits c (namesLaw P c.dialect) source o
  | .value v, _ => namesLaw_unbound .column v
  | .list _, h =>
    match source with
    | .query => fun _ _ => trivial
    | .expression => formFits_of_paramNames h
    | .values => columnsFit_of_paramNames h
  | .map _, h => hashFits_of_paramNames h
  | .expr _, h => Expression.fits_of_paramNames h

theorem Expression.fits_of_paramNames : ∀ {e : Expression},
    (∀ n ∈ e.paramNames, P n) → e.Fits c (namesLaw P c.dialect)
  | .raw _ _, h => h
  | .typed _ _, _ => trivial
  | .arrayOfValues _ _ _, _ => fun _ _ => trivial
  | .arrayOfQuery _ _ _, h => ⟨Query.fits_of_paramNames h, fun _ _ => trivial⟩
  | .json _ _, _ => fun _ _ => trivial
  | .query _, h => Query.fits_of_paramNames h
  | .condition _, h => Condition.fits_of_paramNames h

theorem Condition.fits_of_paramNames : ∀ {cond : Condition},
    (∀ n ∈ cond.paramNames, P n) → cond.Fits c (namesLaw P c.dialect)
  | .hash _, h => hashFits_of_paramNames h
  | .simple _ _ _, h =>
    have ⟨hcolumn, hv⟩ := List.forall_mem_append.mp h
    ⟨trivial, Operand.fits_of_paramNames .column hcolumn, Operand.fits_of_paramNames .bound hv⟩
  | .not _, h => Operand.fits_of_paramNames .condition h
  | .conjunction _ _, h => itemsFit_of_paramNames .condition h
  | .between _ _ _ _, h =>
    have ⟨hcolumn, h⟩ := List.forall_mem_append.mp h
    have ⟨hlow, hhigh⟩ := List.forall_mem_append.mp h
    ⟨Operand.fits_of_paramNames .column hcolumn, Operand.fits_of_paramNames .bound hlow,
      Operand.fits_of_paramNames .bound hhigh⟩
  | .isIn _ _ _, h =>
    have ⟨hcolumn, hvalues⟩ := List.forall_mem_append.mp h
    have hfits := memberColumnFits_of_paramNames hcolumn
    ⟨hfits, Operand.fits_of_paramNames .bound hvalues,
      .inl (FragmentLaw.memberColumn_idle (namesLaw_alwaysIdle P _) hfits)⟩
  | .like _ _ _ _ _, h =>
    have ⟨hcolumn, hvalues⟩ := List.forall_mem_append.mp h
    have hfits := Operand.fits_of_paramNames .column hcolumn
    ⟨hfits, Operand.fits_of_paramNames .bound hvalues,
      .inl (FragmentLaw.operand_idle (namesLaw_alwaysIdle P _) hfits)⟩
  | .isExists _ _, h => Query.fits_of_paramNames h

theorem Column.fits_of_paramNames : ∀ {column : Column},
    (∀ n ∈ column.paramNames, P n) → column.Fits c (namesLaw P c.dialect)
  | .name _, _ => trivial
  | .expr _, h => Expression.fits_of_paramNames h

theorem columnItemsFit_of_paramNames : ∀ {items : List ColumnItem},
    (∀ n ∈ columnItemsParamNames items, P n) → ColumnItemsFit c (namesLaw P c.dialect) items
  | [], _ => trivial
  | ⟨_, _⟩ :: _, h =>
    have ⟨hcolumn, hitems⟩ := List.forall_mem_append.mp h
    ⟨⟨fun _ _ => trivial, Column.fits_of_paramNames hcolumn⟩, columnItemsFit_of_paramNames hitems⟩

theorem joinsFit_of_paramNames : ∀ {joins : List Join},
    (∀ n ∈ joinsParamNames joins, P n) → JoinsFit c (namesLaw P c.dialect) joins
  | [], _ => trivial
  | ⟨_, ⟨_, _⟩, _⟩ :: _, h =>
    have ⟨htable, h⟩ := List.forall_mem_append.mp h
    have ⟨hon, hjoins⟩ := List.forall_mem_append.mp h
    ⟨⟨fun _ _ => trivial, Column.fits_of_paramNames htable⟩, clauseFits_of_paramNames hon,
      joinsFit_of_paramNames hjoins⟩

theorem clauseFits_of_paramNames : ∀ {o : Option Operand},
    (∀ n ∈ clauseParamNames o, P n) → ClauseFits c (namesLaw P c.dialect) o
  | none, _ => trivial
  | some _, h => Operand.fits_of_paramNames .condition h

theorem groupsFit_of_paramNames : ∀ {columns : List Column},
    (∀ n ∈ groupsParamNames columns, P n) → GroupsFit c (namesLaw P c.dialect) columns
  | [], _ => trivial
  | _ :: _, h =>
    have ⟨hcolumn, hcolumns⟩ := List.forall_mem_append.mp h
    ⟨Column.fits_of_paramNames hcolumn, groupsFit_of_paramNames hcolumns⟩

theorem ordersFit_of_paramNames : ∀ {items : List OrderItem},
    (∀ n ∈ ordersParamNames items, P n) → OrdersFit c (namesLaw P c.dialect) items
  | [], _ => trivial
  | ⟨_, _⟩ :: _, h =>
    have ⟨hcolumn, hitems⟩ := List.forall_mem_append.mp h
    ⟨Column.fits_of_paramNames hcolumn, ordersFit_of_paramNames hitems⟩

theorem unionsFit_of_paramNames : ∀ {unions : List UnionMember},
    (∀ n ∈ unionsParamNames unions, P n) → UnionsFit c (namesLaw P c.dialect) unions
  | [], _ => trivial
  | ⟨_, _⟩ :: _, h =>
    have ⟨hq, hunions⟩ := List.forall_mem_append.mp h
    ⟨Query.fits_of_paramNames hq, unionsFit_of_paramNames hunions⟩

/-- A query whose parameters have names with a property fits the law of these names. -/
theorem Query.fits_of_paramNames : ∀ {q : Query},
    (∀ n ∈ q.paramNames, P n) → q.Fits c (namesLaw P c.dialect)
  | ⟨_, _, _, _, _, _, _, _, _, _, _, _, _, _, _, _, _⟩, h =>
    have ⟨hparams, h⟩ := List.forall_mem_append.mp h
    have ⟨hselect, h⟩ := List.forall_mem_append.mp h
    have ⟨htables, h⟩ := List.forall_mem_append.mp h
    have ⟨hjoins, h⟩ := List.forall_mem_append.mp h
    have ⟨hcondition, h⟩ := List.forall_mem_append.mp h
    have ⟨hgroups, h⟩ := List.forall_mem_append.mp h
    have ⟨hhaving, h⟩ := List.forall_mem_append.mp h
    have ⟨horders, hunions⟩ := List.forall_mem_append.mp h
    ⟨fun _ _ => trivial, hparams, columnItemsFit_of_paramNames hselect,
      columnItemsFit_of_paramNames htables, joinsFit_of_paramNames hjoins,
      clauseFits_of_paramNames hcondition, groupsFit_of_paramNames hgroups,
      clauseFits_of_paramNames hhaving, ordersFit_of_paramNames horders,
      unionsFit_of_paramNames hunions⟩

end

/-! ## Statements -/

/-- The names of the parameters in the values of columns. -/
def pairsParamNames (pairs : List (String × Operand)) : List String :=
  pairs.flatMap fun p => p.2.paramNames

theorem pairsFit_of_paramNames {pairs : List (String × Operand)}
    (h : ∀ n ∈ pairsParamNames pairs, P n) : PairsFit c (namesLaw P c.dialect) pairs := by
  intro p hp
  refine ⟨trivial, Operand.fits_of_paramNames .bound fun n hn => h n ?_⟩
  exact List.mem_flatMap.mpr ⟨p, hp, hn⟩

/-- The names of the parameters in the rows of an insert. -/
def InsertSource.paramNames : InsertSource → List String
  | .values pairs => pairsParamNames pairs
  | .query q => q.paramNames

/-- The names of the parameters in what an upsert does to a row that exists. -/
def UpsertUpdate.paramNames : UpsertUpdate → List String
  | .columns pairs => pairsParamNames pairs
  | _ => []

namespace Compilable

/-- The names of the parameters anywhere in what is compiled. -/
def paramNames : Compilable → List String
  | query q => q.paramNames
  | expression e => e.paramNames
  | operand _ o => o.paramNames
  | insert _ source _ _ => source.paramNames
  | update _ columns condition _ => pairsParamNames columns ++ condition.paramNames
  | delete _ condition => condition.paramNames
  | upsert _ source existing _ => source.paramNames ++ existing.paramNames

theorem source_fits {source : InsertSource} (h : ∀ n ∈ source.paramNames, P n) :
    source.Fits c (namesLaw P c.dialect) := by
  cases source with
  | values pairs => exact pairsFit_of_paramNames h
  | query q => exact Query.fits_of_paramNames h

theorem existing_fits {existing : UpsertUpdate} (h : ∀ n ∈ existing.paramNames, P n) :
    existing.Fits c (namesLaw P c.dialect) := by
  cases existing with
  | columns pairs => exact pairsFit_of_paramNames h
  | _ => trivial

theorem fits_of_paramNames : ∀ {x : Compilable}, (∀ n ∈ x.paramNames, P n) →
    x.Fits c (namesLaw P c.dialect)
  | query _, h => Query.fits_of_paramNames h
  | expression _, h => Expression.fits_of_paramNames h
  | operand role _, h => Operand.fits_of_paramNames role h
  | insert _ _ _ _, h => ⟨trivial, source_fits h⟩
  | update _ _ _ _, h =>
    have ⟨hcolumns, hcondition⟩ := List.forall_mem_append.mp h
    ⟨trivial, pairsFit_of_paramNames hcolumns, Operand.fits_of_paramNames .condition hcondition⟩
  | delete _ _, h => ⟨trivial, Operand.fits_of_paramNames .condition h⟩
  | upsert _ _ _ _, h =>
    have ⟨hsource, hexisting⟩ := List.forall_mem_append.mp h
    ⟨trivial, source_fits hsource, existing_fits hexisting⟩

/-- A compiled text binds no name that does not stand in its source. -/
theorem binds_paramNames (c : Compiler) (x : Compilable) :
    (x.compile c).Yields fun _ bs => BindsOnly (· ∈ x.paramNames) bs :=
  compile_holds (L := namesLaw (· ∈ x.paramNames) c.dialect)
    (fits_of_paramNames fun _ hn => hn)

end Compilable

end QueryKit
