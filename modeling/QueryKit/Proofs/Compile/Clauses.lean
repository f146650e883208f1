import QueryKit.Proofs.Compile.Fits
import QueryKit.Proofs.Text.Case
import QueryKit.Query.Clauses

/-!
# Queries that fit, clause by clause

- `Query.ClausesFit`: what `Query.Fits` asks of a query, one field for each clause.
- `Query.withSelect_fits`, `Query.join_fits` and their fellows: a clause that fits may be set or
  added.
- `Query.KeepsFits`: a verb that puts a condition into a query. All of them keep what fits; the
  filtering ones ask for what is left of the condition (`Query.KeepsFits.filtered`).
-/

namespace QueryKit

variable {c : Compiler} {L : FragmentLaw c.dialect}

/-! ## Lists -/

theorem itemsFit_iff {role : Role} : ∀ {os : List Operand},
    ItemsFit c L role os ↔ ∀ o ∈ os, o.Fits c L role
  | [] => ⟨fun _ => nofun, fun _ => trivial⟩
  | _ :: os => by
    change _ ∧ ItemsFit c L role os ↔ _
    rw [itemsFit_iff, List.forall_mem_cons]

theorem valuesFit_iff : ∀ {entries : List (String × Operand)},
    ValuesFit c L entries ↔ ∀ e ∈ entries, e.2.Fits c L .bound
  | [] => ⟨fun _ => nofun, fun _ => trivial⟩
  | (_, _) :: entries => by
    change _ ∧ ValuesFit c L entries ↔ _
    rw [valuesFit_iff, List.forall_mem_cons]

theorem hashFits_iff : ∀ {entries : List (String × Operand)},
    HashFits c L entries ↔ ∀ e ∈ entries, L.name e.1 ∧ e.2.Fits c L .bound
  | [] => ⟨fun _ => nofun, fun _ => trivial⟩
  | (_, _) :: entries => by
    change _ ∧ _ ∧ HashFits c L entries ↔ _
    rw [hashFits_iff, List.forall_mem_cons, and_assoc]

theorem columnItemsFit_iff : ∀ {items : List ColumnItem},
    ColumnItemsFit c L items ↔ ∀ item ∈ items, item.Fits c L
  | [] => ⟨fun _ => nofun, fun _ => trivial⟩
  | _ :: items => by
    change _ ∧ ColumnItemsFit c L items ↔ _
    rw [columnItemsFit_iff, List.forall_mem_cons]

theorem groupsFit_iff : ∀ {columns : List Column},
    GroupsFit c L columns ↔ ∀ column ∈ columns, column.Fits c L
  | [] => ⟨fun _ => nofun, fun _ => trivial⟩
  | _ :: columns => by
    change _ ∧ GroupsFit c L columns ↔ _
    rw [groupsFit_iff, List.forall_mem_cons]

theorem ordersFit_iff : ∀ {items : List OrderItem},
    OrdersFit c L items ↔ ∀ item ∈ items, item.column.Fits c L
  | [] => ⟨fun _ => nofun, fun _ => trivial⟩
  | ⟨_, _⟩ :: items => by
    change _ ∧ OrdersFit c L items ↔ _
    rw [ordersFit_iff, List.forall_mem_cons]

theorem joinsFit_iff : ∀ {joins : List Join},
    JoinsFit c L joins ↔ ∀ join ∈ joins, join.table.Fits c L ∧ ClauseFits c L join.on
  | [] => ⟨fun _ => nofun, fun _ => trivial⟩
  | ⟨_, _, _⟩ :: joins => by
    change _ ∧ _ ∧ JoinsFit c L joins ↔ _
    rw [joinsFit_iff, List.forall_mem_cons, and_assoc]

/-! ## Conditions -/

theorem listFits_iff {items : List Operand} :
    (Operand.list items).Fits c L .condition ↔ FormFits c L items :=
  Iff.rfl

/-- AND and OR ask for operands that are conditions. -/
theorem formFits_conjunction {head : Operand} {operands : List Operand} {token : String}
    {conj : Conjunction} (ht : head.asString = some token)
    (hkind : (Operator.parse token).kind = .conjunction conj) :
    FormFits c L (head :: operands) ↔ ItemsFit c L .condition operands := by
  rw [FormFits, ht]
  dsimp only
  rw [hkind]

/-- A token that is the word AND up to letter case is the operator. -/
theorem kind_of_eqIgnoreCase {token : String} (h : Text.eqIgnoreCase token "and" = true) :
    (Operator.parse token).kind = .conjunction .and := by
  have hletters : token.toList.map Char.toLower = ['a', 'n', 'd'] := Text.eqIgnoreCase_iff.mp h
  obtain ⟨a, r, hr, ha, hletters⟩ := List.map_eq_cons_iff.mp hletters
  obtain ⟨n, r', rfl, hn, hletters⟩ := List.map_eq_cons_iff.mp hletters
  obtain ⟨d, r'', rfl, hd, hletters⟩ := List.map_eq_cons_iff.mp hletters
  rw [List.map_eq_nil_iff.mp hletters] at hr
  have htoken : token = String.ofList [a, n, d] := by rw [← hr, String.ofList_toList]
  have hacase := ha ▸ Text.eq_or_eq_toUpper a
  have hncase := hn ▸ Text.eq_or_eq_toUpper n
  have hdcase := hd ▸ Text.eq_or_eq_toUpper d
  rcases hacase with rfl | rfl <;> rcases hncase with rfl | rfl <;>
    rcases hdcase with rfl | rfl <;> rw [htoken] <;> decide

theorem and_fits {operands : List Operand} (h : ItemsFit c L .condition operands) :
    (Operand.list (.string "and" :: operands)).Fits c L .condition :=
  listFits_iff.mpr <|
    (formFits_conjunction rfl (kind_of_eqIgnoreCase (by decide))).mpr h

theorem or_kind : (Operator.parse "or").kind = .conjunction .or := by
  decide

theorem or_fits {operands : List Operand} (h : ItemsFit c L .condition operands) :
    (Operand.list (.string "or" :: operands)).Fits c L .condition :=
  listFits_iff.mpr <|
    (formFits_conjunction rfl or_kind).mpr h

/-- An AND takes one more operand. -/
theorem snoc_fits {items : List Operand} {new : Operand}
    (hand : Query.beginsWithAnd items = true) (h : (Operand.list items).Fits c L .condition)
    (hnew : new.Fits c L .condition) : (Operand.list (items ++ [new])).Fits c L .condition := by
  cases items with
  | nil => cases hand
  | cons head operands =>
    cases htoken : head.asString with
    | none => simp [Query.beginsWithAnd, htoken] at hand
    | some token =>
      have hkind : (Operator.parse token).kind = .conjunction .and :=
        kind_of_eqIgnoreCase (by simpa [Query.beginsWithAnd, htoken] using hand)
      rw [listFits_iff] at h ⊢
      rw [List.cons_append]
      rw [formFits_conjunction htoken hkind, itemsFit_iff] at h ⊢
      exact List.forall_mem_append.mpr ⟨h, List.forall_mem_singleton.mpr hnew⟩

theorem conjoin_fits {old : Option Operand} {new : Operand} (hold : ClauseFits c L old)
    (hnew : new.Fits c L .condition) : (Query.conjoin old new).Fits c L .condition := by
  unfold Query.conjoin
  split
  · exact hnew
  · split
    · next hand => exact snoc_fits hand hold hnew
    · exact and_fits ⟨hold, hnew, trivial⟩
  · exact and_fits ⟨hold, hnew, trivial⟩

theorem disjoin_fits {old : Option Operand} {new : Operand} (hold : ClauseFits c L old)
    (hnew : new.Fits c L .condition) : (Query.disjoin old new).Fits c L .condition := by
  unfold Query.disjoin
  split
  · exact hnew
  · exact or_fits ⟨hold, hnew, trivial⟩

namespace Query

/-! ## Clauses -/

variable (c L) in
/-- Each clause of a query is as a law asks. -/
structure ClausesFit (q : Query) : Prop where
  option : ∀ o ∈ q.selectOption, L.word o
  params : L.params q.params
  select : ColumnItemsFit c L q.select
  tables : ColumnItemsFit c L q.tables
  joins : JoinsFit c L q.joins
  condition : ClauseFits c L q.condition
  groups : GroupsFit c L q.groupBy
  having : ClauseFits c L q.having
  orders : OrdersFit c L q.orderBy
  unions : UnionsFit c L q.unions

variable {q : Query}

theorem Fits.clauses (h : q.Fits c L) : q.ClausesFit c L := by
  cases q
  obtain ⟨option, params, select, tables, joins, condition, groups, having, orders, unions⟩ := h
  exact ⟨option, params, select, tables, joins, condition, groups, having, orders, unions⟩

theorem ClausesFit.fits (h : q.ClausesFit c L) : q.Fits c L := by
  cases q
  exact ⟨h.option, h.params, h.select, h.tables, h.joins, h.condition, h.groups, h.having, h.orders,
    h.unions⟩

theorem empty_fits (h : L.params .empty) : Query.empty.Fits c L :=
  ClausesFit.fits
    ⟨nofun, h, trivial, trivial, trivial, trivial, trivial, trivial, trivial, trivial⟩

theorem uniqueColumns_subset (selected columns : List ColumnItem) :
    uniqueColumns selected columns ⊆ columns := by
  unfold uniqueColumns
  refine List.foldlRecOn (motive := (· ⊆ columns)) columns _ (List.nil_subset columns)
    fun kept hkept item hitem => ?_
  dsimp only
  generalize (if item.label.isSome then selected else selected ++ kept) = seen
  split
  · exact hkept
  · exact List.append_subset.mpr ⟨hkept, List.cons_subset.mpr ⟨hitem, List.nil_subset columns⟩⟩

theorem uniqueColumns_fit (selected : List ColumnItem) {columns : List ColumnItem}
    (h : ∀ item ∈ columns, item.Fits c L) :
    ∀ item ∈ uniqueColumns selected columns, item.Fits c L :=
  fun item hitem => h item (uniqueColumns_subset selected columns hitem)

theorem withSelect_fits (hq : q.Fits c L) {columns : List ColumnItem}
    (h : ∀ item ∈ columns, item.Fits c L) : (q.withSelect columns).Fits c L :=
  ClausesFit.fits { hq.clauses with
    select := columnItemsFit_iff.mpr (uniqueColumns_fit [] h) }

theorem addSelect_fits (hq : q.Fits c L) {columns : List ColumnItem}
    (h : ∀ item ∈ columns, item.Fits c L) : (q.addSelect columns).Fits c L := by
  have hold := columnItemsFit_iff.mp hq.clauses.select
  have hnew := uniqueColumns_fit q.select h
  exact ClausesFit.fits { hq.clauses with
    select := columnItemsFit_iff.mpr (List.forall_mem_append.mpr ⟨hold, hnew⟩) }

theorem from_fits (hq : q.Fits c L) {tables : List ColumnItem}
    (h : ∀ item ∈ tables, item.Fits c L) : (q.from_ tables).Fits c L :=
  ClausesFit.fits { hq.clauses with tables := columnItemsFit_iff.mpr h }

/-- An empty condition of a join is no condition. -/
theorem join_fits (hq : q.Fits c L) (type : JoinType) {table : ColumnItem} {on : Operand}
    (htable : table.Fits c L) (hon : on.Fits c L .condition) :
    (q.join type table on).Fits c L := by
  have hold := joinsFit_iff.mp hq.clauses.joins
  have hclause : ClauseFits c L (if on.isEmpty then none else some on) := by
    split
    · trivial
    · exact hon
  exact ClausesFit.fits { hq.clauses with
    joins := joinsFit_iff.mpr (List.forall_mem_append.mpr
      ⟨hold, List.forall_mem_singleton.mpr ⟨htable, hclause⟩⟩) }

theorem withGroupBy_fits (hq : q.Fits c L) {columns : List ColumnItem}
    (h : ∀ item ∈ columns, item.column.Fits c L) : (q.withGroupBy columns).Fits c L :=
  ClausesFit.fits { hq.clauses with
    groups := groupsFit_iff.mpr (List.forall_mem_map.mpr h) }

theorem withOrderBy_fits (hq : q.Fits c L) {items : List OrderItem}
    (h : ∀ item ∈ items, item.column.Fits c L) : (q.withOrderBy items).Fits c L :=
  ClausesFit.fits { hq.clauses with orders := ordersFit_iff.mpr h }

theorem withLimit_fits (hq : q.Fits c L) (limit : Option Nat) : (q.withLimit limit).Fits c L :=
  ClausesFit.fits { hq.clauses with }

theorem withOffset_fits (hq : q.Fits c L) (offset : Option Nat) :
    (q.withOffset offset).Fits c L :=
  ClausesFit.fits { hq.clauses with }

/-! ## Verbs that take a condition -/

variable (c L) in
/-- A verb makes queries that fit from queries and conditions that fit. -/
def KeepsFits (verb : Query → Operand → Query) : Prop :=
  ∀ {q o}, q.Fits c L → o.Fits c L .condition → (verb q o).Fits c L

theorem where_keeps : KeepsFits c L where_ := fun hq ho =>
  ClausesFit.fits { hq.clauses with condition := ho }

theorem andWhere_keeps : KeepsFits c L andWhere := fun hq ho =>
  ClausesFit.fits { hq.clauses with condition := conjoin_fits hq.clauses.condition ho }

theorem orWhere_keeps : KeepsFits c L orWhere := fun hq ho =>
  ClausesFit.fits { hq.clauses with condition := disjoin_fits hq.clauses.condition ho }

theorem withHaving_keeps : KeepsFits c L withHaving := fun hq ho =>
  ClausesFit.fits { hq.clauses with having := ho }

theorem andHaving_keeps : KeepsFits c L andHaving := fun hq ho =>
  ClausesFit.fits { hq.clauses with having := conjoin_fits hq.clauses.having ho }

theorem orHaving_keeps : KeepsFits c L orHaving := fun hq ho =>
  ClausesFit.fits { hq.clauses with having := disjoin_fits hq.clauses.having ho }

/-- Filtering asks for what is left of the condition. -/
theorem KeepsFits.filtered {verb : Query → Operand → Query} (h : KeepsFits c L verb)
    (hq : q.Fits c L) {o : Operand} (ho : o.filter.Fits c L .condition) :
    (Query.filtered verb q o).Fits c L := by
  unfold Query.filtered
  split
  · exact hq
  · exact h hq ho

end Query

end QueryKit
