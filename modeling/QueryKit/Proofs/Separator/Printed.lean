import QueryKit.Proofs.Compile.Clauses
import QueryKit.Proofs.Compile.Render
import QueryKit.Proofs.Filter.Pruned
import QueryKit.Proofs.Separator.Text

/-!
# What a condition prints

- `separatorLaw`: a fragment holds no statement separator. What it binds does not matter.
- `Operand.printed`: the texts of a condition that are written into the statement: operators,
  columns, the keys of maps, and whatever stands in the place of a column. All others are bound.
- `Operand.fits_of_printed`: a condition fits whose printed texts hold no separator.
- `Operand.filter_fits`: filtering a condition prints nothing new.
-/

namespace QueryKit

/-- A fragment holds no statement separator. -/
def separatorLaw (d : Dialect) : FragmentLaw d where
  Holds s _ := Unbroken s
  name := Unbroken
  word := Unbroken
  raw s _ := Unbroken s
  params _ := True
  nil := by decide
  glue hg hs ht := (hs.append (.of_glue (List.all_eq_true.mp hg.2))).append ht
  place _ := by decide
  cast hs ht := (hs.append (by decide)).append ht
  escape hs := by
    refine hs.append ?_
    cases d with
    | sqlite => decide
    | _ => exact nofun
  word_holds h := h
  raw_holds h := h
  raw_of_holds h := h
  name_holds h := h
  column_holds h := Dialect.unbroken_quoteColumnName.mpr h
  table_holds h := Dialect.unbroken_quoteTableName.mpr h
  requoted_holds h :=
    Dialect.unbroken_quoteColumnName.mpr (Dialect.unbroken_quoteColumnName.mpr h)
  name_within h hsub := h.subset hsub
  empty_idle _ _ _ _ := Iff.rfl
  params_idle _ _ _ _ := Iff.rfl

theorem separatorLaw_idle {d : Dialect} (bs : List Binding) : (separatorLaw d).Idle bs :=
  fun _ _ _ => Iff.rfl

theorem separatorLaw_unbound {d : Dialect} (role : Role) {v : Value}
    (h : Unbroken v.toPlainString) : (separatorLaw d).Unbound role v := by
  unfold FragmentLaw.Unbound
  split
  · rwa [Value.toPlainString] at h
  · exact h

/-! ## Printed texts -/

mutual

/-- The texts of a condition, or of an operand in the place of a column, that are printed. -/
def Operand.printed : Operand → List String
  | .value v => [v.toPlainString]
  | .list [] => []
  | .list (head :: operands) =>
    match head.asString with
    | none => []
    | some token => token :: printedOperands (Operator.parse token).kind operands
  | .map entries => entries.map Prod.fst
  | .expr _ => []

/-- The texts that an operator prints of its operands. -/
def printedOperands (kind : ConditionKind) : List Operand → List String
  | [] => []
  | o :: os =>
    match kind with
    | .not | .conjunction _ => o.printed ++ printedOperands kind os
    | .isExists _ => []
    | .isIn _ => o.printed ++ o.printedMembers
    | _ => o.printed

/-- The texts of a list of columns. -/
def Operand.printedMembers : Operand → List String
  | .list items => printedItems items
  | _ => []

def printedItems : List Operand → List String
  | [] => []
  | o :: os => o.printed ++ printedItems os

end

variable {c : Compiler}

theorem unbroken_memberNames : ∀ {os : List Operand}, (∀ t ∈ printedItems os, Unbroken t) →
    ∀ n ∈ os.map memberName, Unbroken n
  | [], _ => nofun
  | o :: os, h => by
    obtain ⟨ho, hos⟩ := List.forall_mem_append.mp h
    refine List.forall_mem_cons.mpr ⟨?_, unbroken_memberNames hos⟩
    cases o with
    | value v => exact List.forall_mem_singleton.mp ho
    | _ => exact (by decide : Unbroken "")

/-! ## Conditions that fit -/

mutual

/-- An operand fits every role if the expressions in it fit and what it prints holds no
separator. -/
theorem Operand.fits_of_printed (role : Role) : ∀ {o : Operand},
    o.Fits c (separatorLaw c.dialect) .bound → (∀ t ∈ o.printed, Unbroken t) →
    o.Fits c (separatorLaw c.dialect) role
  | .value _, _, h =>
    match role with
    | .bound => trivial
    | .condition => separatorLaw_unbound .condition (List.forall_mem_singleton.mp h)
    | .column => separatorLaw_unbound .column (List.forall_mem_singleton.mp h)
  | .list _, hb, h =>
    match role with
    | .bound => hb
    | .condition => formFits_of_printed hb h
    | .column => formFits_of_printed hb h
  | .map _, hb, h =>
    match role with
    | .bound => hb
    | .condition => hashFits_of_printed hb h
    | .column => hashFits_of_printed hb h
  | .expr _, hb, _ => hb

theorem formFits_of_printed : ∀ {os : List Operand},
    ItemsFit c (separatorLaw c.dialect) .bound os →
    (∀ t ∈ (Operand.list os).printed, Unbroken t) → FormFits c (separatorLaw c.dialect) os
  | [], _, _ => trivial
  | head :: operands, ⟨_, hb⟩, h => by
    rw [FormFits]
    rw [Operand.printed] at h
    cases htoken : head.asString with
    | none => trivial
    | some token =>
      rw [htoken] at h
      obtain ⟨hword, h⟩ := List.forall_mem_cons.mp h
      dsimp only
      generalize (Operator.parse token).kind = kind at h ⊢
      cases kind with
      | not => exact negationFits_of_printed hb h
      | conjunction _ => exact conditionsFit_of_printed hb h
      | between _ => exact rangeFits_of_printed hb h
      | isIn _ => exact membershipFits_of_printed hb h
      | like _ _ => exact patternsFit_of_printed hb h
      | isExists _ => exact existenceFits_of_printed hb
      | simple => exact comparisonFits_of_printed hword hb h

theorem negationFits_of_printed : ∀ {os : List Operand},
    ItemsFit c (separatorLaw c.dialect) .bound os → (∀ t ∈ printedOperands .not os, Unbroken t) →
    NegationFits c (separatorLaw c.dialect) os
  | [], _, _ => trivial
  | [_], ⟨hb, _⟩, h => Operand.fits_of_printed .condition hb (List.forall_mem_append.mp h).1
  | _ :: _ :: _, _, _ => trivial

theorem conditionsFit_of_printed {conj : Conjunction} : ∀ {os : List Operand},
    ItemsFit c (separatorLaw c.dialect) .bound os →
    (∀ t ∈ printedOperands (.conjunction conj) os, Unbroken t) →
    ItemsFit c (separatorLaw c.dialect) .condition os
  | [], _, _ => trivial
  | _ :: _, ⟨hb, hbs⟩, h =>
    have ⟨ho, hos⟩ := List.forall_mem_append.mp h
    ⟨Operand.fits_of_printed .condition hb ho, conditionsFit_of_printed hbs hos⟩

theorem rangeFits_of_printed {negated : Bool} : ∀ {os : List Operand},
    ItemsFit c (separatorLaw c.dialect) .bound os →
    (∀ t ∈ printedOperands (.between negated) os, Unbroken t) →
    RangeFits c (separatorLaw c.dialect) os
  | [], _, _ => trivial
  | [_], _, _ => trivial
  | [_, _], _, _ => trivial
  | _ :: _ :: _ :: _, ⟨hb, hlow, hhigh, _⟩, h =>
    ⟨Operand.fits_of_printed .column hb h, hlow, hhigh⟩

theorem membershipFits_of_printed {negated : Bool} : ∀ {os : List Operand},
    ItemsFit c (separatorLaw c.dialect) .bound os →
    (∀ t ∈ printedOperands (.isIn negated) os, Unbroken t) →
    MembershipFits c (separatorLaw c.dialect) os
  | [], _, _ => trivial
  | [_], _, _ => trivial
  | _ :: _ :: _, ⟨hb, hvalues, _⟩, h =>
    have ⟨hcolumn, hmembers⟩ := List.forall_mem_append.mp h
    ⟨memberColumnFits_of_printed hb hcolumn hmembers, hvalues,
      .inl fun _ bs _ => separatorLaw_idle bs⟩

theorem patternsFit_of_printed {negated : Bool} {combine : Conjunction} :
    ∀ {os : List Operand}, ItemsFit c (separatorLaw c.dialect) .bound os →
    (∀ t ∈ printedOperands (.like negated combine) os, Unbroken t) →
    PatternsFit c (separatorLaw c.dialect) os
  | [], _, _ => trivial
  | [_], _, _ => trivial
  | _ :: _ :: _, ⟨hb, hvalues, _⟩, h =>
    ⟨Operand.fits_of_printed .column hb h, hvalues, .inl fun _ bs _ => separatorLaw_idle bs⟩

theorem existenceFits_of_printed : ∀ {os : List Operand},
    ItemsFit c (separatorLaw c.dialect) .bound os → ExistenceFits c (separatorLaw c.dialect) os
  | [], _ => trivial
  | .expr (.query _) :: _, ⟨hq, _⟩ => hq
  | .value _ :: _, _ => trivial
  | .list _ :: _, _ => trivial
  | .map _ :: _, _ => trivial
  | .expr (.raw ..) :: _, _ => trivial
  | .expr (.typed ..) :: _, _ => trivial
  | .expr (.arrayOfValues ..) :: _, _ => trivial
  | .expr (.arrayOfQuery ..) :: _, _ => trivial
  | .expr (.json ..) :: _, _ => trivial
  | .expr (.condition _) :: _, _ => trivial

theorem comparisonFits_of_printed {token : String} (hword : Unbroken token) :
    ∀ {os : List Operand}, ItemsFit c (separatorLaw c.dialect) .bound os →
    (∀ t ∈ printedOperands .simple os, Unbroken t) →
    ComparisonFits c (separatorLaw c.dialect) (Operator.parse token) os
  | [], _, _ => trivial
  | [_], _, _ => trivial
  | [_, _], ⟨hb, hv, _⟩, h =>
    ⟨unbroken_token hword, Operand.fits_of_printed .column hb h, hv⟩
  | _ :: _ :: _ :: _, _, _ => trivial

theorem columnsFit_of_printed : ∀ {os : List Operand},
    ItemsFit c (separatorLaw c.dialect) .bound os → (∀ t ∈ printedItems os, Unbroken t) →
    ColumnsFit c (separatorLaw c.dialect) os
  | [], _, _ => trivial
  | [_], ⟨hb, _⟩, h => Operand.fits_of_printed .column hb (List.forall_mem_append.mp h).1
  | _ :: _ :: _, _, h => unbroken_memberNames h

theorem memberColumnFits_of_printed {source : MemberSource} : ∀ {o : Operand},
    o.Fits c (separatorLaw c.dialect) .bound → (∀ t ∈ o.printed, Unbroken t) →
    (∀ t ∈ o.printedMembers, Unbroken t) →
    MemberColumnFits c (separatorLaw c.dialect) source o
  | .value _, _, h, _ => separatorLaw_unbound .column (List.forall_mem_singleton.mp h)
  | .list _, hb, h, hmembers =>
    match source with
    | .query => unbroken_memberNames hmembers
    | .expression => formFits_of_printed hb h
    | .values => columnsFit_of_printed hb hmembers
  | .map _, hb, h, _ => hashFits_of_printed hb h
  | .expr _, hb, _, _ => hb

theorem hashFits_of_printed : ∀ {entries : List (String × Operand)},
    ValuesFit c (separatorLaw c.dialect) entries → (∀ t ∈ entries.map Prod.fst, Unbroken t) →
    HashFits c (separatorLaw c.dialect) entries
  | [], _, _ => trivial
  | (_, _) :: _, ⟨hb, hbs⟩, h =>
    have ⟨hname, hnames⟩ := List.forall_mem_cons.mp h
    ⟨hname, hb, hashFits_of_printed hbs hnames⟩

end

/-! ## Filtering -/

theorem printedOperands_cons {kind : ConditionKind} (h : kind.isJunction = true) (o : Operand)
    (os : List Operand) :
    printedOperands kind (o :: os) = o.printed ++ printedOperands kind os := by
  cases kind <;> first | rfl | cases h

/-- What filtering can make of an operator list: nothing, the list itself, or the list with what is
left of its conditions. -/
theorem Operand.filter_list (head : Operand) (operands : List Operand) :
    (Operand.list (head :: operands)).filter = .list (head :: operands) ∨
      (Operand.list (head :: operands)).filter = .list [] ∨
      ∃ token, head.asString = some token ∧ (Operator.parse token).kind.isJunction = true ∧
        (Operand.list (head :: operands)).filter = .list (head :: Operand.filterAll operands) := by
  cases htoken : head.asString with
  | none => exact .inl (Operand.filter_unnamed htoken)
  | some token =>
    cases hkind : (Operator.parse token).kind.isJunction with
    | true =>
      rw [Operand.filter_junction htoken hkind]
      split
      · exact .inr (.inl rfl)
      · exact .inr (.inr ⟨token, rfl, hkind, rfl⟩)
    | false =>
      rcases Operand.filter_leaf operands htoken hkind with ⟨-, h⟩ | ⟨-, h⟩
      · exact .inl h
      · exact .inr (.inl h)

variable {L : FragmentLaw c.dialect}

mutual

/-- Filtering a condition binds and prints nothing new. -/
theorem Operand.filter_keeps : ∀ o : Operand,
    (o.Fits c L .bound → o.filter.Fits c L .bound) ∧ o.filter.printed ⊆ o.printed
  | .value _ => ⟨id, List.Subset.refl _⟩
  | .map entries => by
    rw [Operand.filter]
    constructor
    · intro h
      have hvalues := valuesFit_iff.mp h
      exact valuesFit_iff.mpr fun e he => hvalues e (List.mem_filter.mp he).1
    · exact List.map_subset _ (List.filter_sublist.subset)
  | .expr _ => ⟨id, List.Subset.refl _⟩
  | .list [] => ⟨id, List.Subset.refl _⟩
  | .list (head :: operands) => by
    rcases Operand.filter_list head operands with h | h | ⟨token, htoken, hkind, h⟩
    · rw [h]
      exact ⟨id, List.Subset.refl _⟩
    · rw [h]
      exact ⟨fun _ => trivial, List.nil_subset _⟩
    · obtain ⟨hbound, hprinted⟩ := filterAll_keeps operands hkind
      rw [h, Operand.printed, Operand.printed, htoken]
      exact ⟨fun hb => ⟨hb.1, hbound hb.2⟩, List.cons_subset_cons token hprinted⟩

theorem filterAll_keeps : ∀ (os : List Operand) {kind : ConditionKind}, kind.isJunction = true →
    (ItemsFit c L .bound os → ItemsFit c L .bound (Operand.filterAll os)) ∧
      printedOperands kind (Operand.filterAll os) ⊆ printedOperands kind os
  | [], _, _ => ⟨id, List.Subset.refl _⟩
  | o :: os, _, hkind => by
    obtain ⟨hbound, hprinted⟩ := Operand.filter_keeps o
    obtain ⟨hbounds, hrest⟩ := filterAll_keeps os hkind
    rw [Operand.filterAll]
    split
    · refine ⟨fun h => hbounds h.2, ?_⟩
      rw [printedOperands_cons hkind]
      exact List.subset_append_of_subset_right _ hrest
    · refine ⟨fun h => ⟨hbound h.1, hbounds h.2⟩, ?_⟩
      rw [printedOperands_cons hkind, printedOperands_cons hkind]
      exact List.append_subset.mpr ⟨List.subset_append_of_subset_left _ hprinted,
        List.subset_append_of_subset_right _ hrest⟩

end

/-- A condition without its empty parts fits if the condition does. -/
theorem Operand.filter_fits (role : Role) {o : Operand}
    (hb : o.Fits c (separatorLaw c.dialect) .bound) (h : ∀ t ∈ o.printed, Unbroken t) :
    o.filter.Fits c (separatorLaw c.dialect) role := by
  obtain ⟨hbound, hprinted⟩ := Operand.filter_keeps (L := separatorLaw c.dialect) o
  exact Operand.fits_of_printed role (hbound hb) fun t ht => h t (hprinted ht)

end QueryKit
