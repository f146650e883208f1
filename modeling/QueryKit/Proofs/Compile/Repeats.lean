import QueryKit.Proofs.Compile.Render

/-!
# Columns that are written several times

A membership test and a LIKE condition compile their column once, which binds its values once. The
text of the column is written as often as the values on the other side ask for.

- `ColumnTest`: a membership test or a LIKE condition. `ColumnTest.writes` counts how often it
  writes its column, `ColumnTest.binds` how often it binds what the column binds.
- `FragmentLaw.Asks`: a text that asks for some values as often as it writes their column, and for
  others once.
- `ColumnTest.renderCondition_asks`: what a test binds, and what its text asks for.
-/

namespace QueryKit

/-- How often a membership test writes its column: once for all members that are values, and once
for all that are null. -/
def memberWrites (nulls : List Bool) : Nat :=
  (if false ∈ nulls then 1 else 0) + (if true ∈ nulls then 1 else 0)

/-- Which members of a membership test are null. -/
def Operand.memberNulls : Operand → List Bool
  | .list items => items.map Operand.isNull
  | .value (.array vs) => vs.map Value.isNull
  | .value v => [v.isNull]
  | _ => [false]

/-- How many patterns a LIKE condition has. -/
def Operand.patternCount : Operand → Nat
  | .list items => items.length
  | .value (.array vs) => vs.length
  | _ => 1

/-- A condition that puts a column to a test in values. -/
inductive ColumnTest where
  | membership (negated : Bool)
  | patterns (negated : Bool) (combine : Conjunction) (escape : LikeEscape)

namespace ColumnTest

/-- The condition of a test. -/
def condition (column values : Operand) : ColumnTest → Condition
  | membership negated => .isIn column negated values
  | patterns negated combine escape => .like column negated combine values escape

/-- How often the text of the column is written. -/
def writes (values : Operand) : ColumnTest → Nat
  | membership _ => memberWrites values.memberNulls
  | patterns _ _ _ => if values.isEmpty then 0 else values.patternCount

/-- How often the values of the column are bound. -/
def binds (values : Operand) : ColumnTest → Nat
  | membership _ => 1
  | patterns _ _ _ => if values.isEmpty then 0 else 1

end ColumnTest

namespace FragmentLaw

variable {d : Dialect} {L : FragmentLaw d} {bs cs : List Binding}

/-- A text that keeps the law with the values of a column `n` times and other values once. If the
column is written once, it stands in front. -/
structure Asks (L : FragmentLaw d) (n : Nat) (column s : String) (bs cs : List Binding) :
    Prop where
  wants : ∃ ws, L.Holds s ws ∧ ws.Perm ((List.replicate n bs).flatten ++ cs)
  once : n = 1 → ∃ rest, s = column ++ rest ∧ L.Holds rest cs

namespace Asks

variable {column s rest : String}

theorem never (h : L.Holds s cs) : L.Asks 0 column s bs cs :=
  ⟨⟨cs, h, .refl cs⟩, nofun⟩

theorem front (h : L.Holds (column ++ rest) (bs ++ cs)) (hrest : L.Holds rest cs) :
    L.Asks 1 column (column ++ rest) bs cs := by
  refine ⟨⟨bs ++ cs, h, ?_⟩, fun _ => ⟨rest, rfl, hrest⟩⟩
  simp

end Asks

/-! ## Texts -/

theorem isEmpty_places {members : List (Option String)} :
    (members.filterMap id).isEmpty = true ↔ false ∉ members.map Option.isNone := by
  induction members with
  | nil => simp
  | cons m ms ih => cases m <;> simp_all

theorem placedText_eq (column : String) (negated : Bool) (places : List String) :
    placedText column negated places = column ++ placedText "" negated places := by
  unfold placedText
  split <;> simp [inFragmentText, String.append_assoc]

theorem isNullText_eq (column : String) (negated : Bool) :
    (if negated then column ++ " IS NOT NULL" else column ++ " IS NULL") =
      column ++ (if negated then " IS NOT NULL" else " IS NULL") := by
  cases negated <;> rfl

/-- The text of a membership test writes the column for its values and for null. -/
theorem memberText_asks (negated : Bool) {column : String} {members : List (Option String)}
    (hc : L.Holds column bs) (h : Together L.Member members cs) :
    L.Asks (memberWrites (members.map Option.isNone)) column (memberText column negated members)
      bs cs := by
  have hplaces := places_holds h
  have hrest := placedText_holds negated L.nil hplaces
  have htest := placedText_holds negated hc hplaces
  have hnull := isNullText_holds negated hc
  have hany : members.any Option.isNone = true ↔ true ∈ members.map Option.isNone := by simp
  have hempty : (members.filterMap id).isEmpty = true ↔ false ∉ members.map Option.isNone :=
    isEmpty_places
  unfold memberText memberWrites
  simp only [← hany]
  by_cases hvalue : false ∈ members.map Option.isNone
  · rw [if_pos hvalue, if_neg fun he => hempty.mp he hvalue]
    split
    · have hg : IsGlue (if negated then " AND " else " OR ") := by cases negated <;> decide
      have hboth := holds_between (g := "(") (h := ")") (by decide) (by decide)
        (L.glue hg htest hnull)
      refine ⟨⟨bs ++ cs ++ bs, by simpa [String.append_assoc] using hboth, ?_⟩, nofun⟩
      have hperm : (bs ++ (cs ++ bs)).Perm (bs ++ (bs ++ cs)) :=
        List.perm_append_comm.append_left bs
      simpa [List.replicate_succ] using hperm
    · rw [placedText_eq] at htest ⊢
      exact .front htest hrest
  · -- No member is a value, so nothing else is bound.
    have hnone := hempty.mpr hvalue
    rw [List.isEmpty_iff.mp hnone, Together.nil_iff] at hplaces
    subst hplaces
    rw [if_neg hvalue, if_pos hnone]
    split
    · rw [isNullText_eq] at hnull ⊢
      refine .front (by simpa using hnull) (holds_glue ?_)
      cases negated <;> decide
    · exact .never (emptyText_holds negated)

/-- The text of a LIKE condition writes the column for every pattern. -/
theorem likeText_asks (negated : Bool) (combine : Conjunction) {column : String}
    {places : List String} (hc : L.Holds column bs) (h : Together L.Holds places cs) :
    L.Asks places.length column (likeText d column negated combine places) bs cs := by
  have hg : IsGlue (if negated then " NOT LIKE " else " LIKE ") := by cases negated <;> decide
  have hsep : IsGlue (" " ++ combine.word ++ " ") := by cases combine <;> decide
  constructor
  · have htests : ∃ ws, Together L.Holds (places.map fun place =>
        column ++ (if negated then " NOT LIKE " else " LIKE ") ++ place ++ d.likeEscapeSql) ws ∧
          ws.Perm ((List.replicate places.length bs).flatten ++ cs) := by
      induction h with
      | nil => exact ⟨[], .nil, .refl []⟩
      | @cons place places ps cs hp _ ih =>
        obtain ⟨ws, hws, hperm⟩ := ih
        refine ⟨bs ++ ps ++ ws, .cons (L.escape (L.glue hg hc hp)) hws, ?_⟩
        rw [List.length_cons, List.replicate_succ, List.flatten_cons, List.append_assoc,
          List.append_assoc]
        refine .append_left bs ((hperm.append_left ps).trans ?_)
        exact List.perm_append_comm_assoc _ _ _
    obtain ⟨ws, hws, hperm⟩ := htests
    exact ⟨ws, joinWith_holds hsep hws, hperm⟩
  · intro hone
    obtain ⟨place, rfl⟩ := List.length_eq_one_iff.mp hone
    rw [Together.singleton_iff] at h
    refine ⟨_, ?_, L.escape (holds_after_glue hg h)⟩
    simp [likeText, Text.joinWith, String.append_assoc]

theorem inFragmentText_asks (negated : Bool) {column s : String} (hc : L.Holds column bs)
    (h : L.Holds s cs) : L.Asks 1 column (inFragmentText column negated s) bs cs := by
  have heq : inFragmentText column negated s = column ++ inFragmentText "" negated s := by
    simp [inFragmentText, String.append_assoc]
  have hin := inFragmentText_holds negated hc h
  rw [heq] at hin ⊢
  exact .front hin (inFragmentText_holds negated L.nil h)

end FragmentLaw

/-! ## Renderers -/

section Render

variable {c : Compiler} {L : FragmentLaw c.dialect}

open FragmentLaw

theorem renderMembership_asks (negated : Bool) {column : String} {bs : List Binding}
    (hc : L.Holds column bs) {values : Operand} (h : values.Fits c L .bound) :
    (renderMembership c negated (.single column none) values).Yields fun s cs =>
      L.Asks (memberWrites values.memberNulls) column s bs cs := by
  cases values with
  | value v =>
    cases v with
    | array vs =>
      simp only [renderMembership]
      refine (pushMembers_holds L vs).bind_pure fun ms cs h => ?_
      obtain ⟨hms, hnulls⟩ := h
      rw [Operand.memberNulls, ← hnulls]
      exact memberText_asks negated hc hms
    | _ =>
      simp only [renderMembership]
      refine (pushMember_holds L _).bind_pure fun m cs h => ?_
      obtain ⟨hm, hnull⟩ := h
      have hasks := memberText_asks negated hc (.singleton hm)
      rw [List.map_singleton, hnull] at hasks
      exact hasks
  | list items =>
    simp only [renderMembership]
    refine (renderMembers_holds h).bind_pure fun ms cs h => ?_
    obtain ⟨hms, hnulls⟩ := h
    rw [Operand.memberNulls, ← hnulls rfl]
    exact memberText_asks negated hc hms
  | map entries =>
    simp only [renderMembership]
    exact .fault
  | expr e =>
    cases e with
    | query q =>
      exact (renderQuery_holds h).bind_pure fun _ _ hs => inFragmentText_asks negated hc hs
    | _ =>
      exact (renderExpression_holds h).bind_pure fun _ _ hs => inFragmentText_asks negated hc hs

theorem renderPatterns_count (escape : LikeEscape) {values : Operand}
    (h : values.Fits c L .bound) :
    (renderPatterns c escape values).Yields fun ps cs =>
      Together L.Holds ps cs ∧ ps.length = values.patternCount := by
  cases values with
  | value v =>
    cases v with
    | array vs => exact pushPatterns_holds L escape vs
    | _ => exact (pushPattern_holds L escape _).bind_pure fun _ _ hp => ⟨.singleton hp, rfl⟩
  | list items => exact renderPatternList_holds h
  | map entries => exact .fault
  | expr e => exact (renderExpression_holds h).bind_pure fun _ _ hs => ⟨.singleton hs, rfl⟩

namespace ColumnTest

/-- A test binds the values of its column first and then those of the other side. Its text asks for
the former as often as it writes the column. -/
theorem renderCondition_asks (test : ColumnTest) {e : Expression} {values : Operand}
    {column : String} {cs : List Binding} (he : renderExpression c e = .ok (column, cs))
    (hc : L.Holds column cs) (hvalues : values.Fits c L .bound) :
    (renderCondition c (test.condition (.expr e) values)).Yields fun sql bs =>
      ∃ ds, bs = (List.replicate (test.binds values) cs).flatten ++ ds ∧
        L.Asks (test.writes values) column sql cs ds := by
  have hcolumn : (renderExpression c e).Yields fun s bs => s = column ∧ bs = cs := by
    intro s bs hs
    rw [he] at hs
    cases hs
    exact ⟨rfl, rfl⟩
  cases test with
  | membership negated =>
    have hmember : (renderMemberColumn c (.of values) (.expr e)).Yields fun m bs =>
        m = .single column none ∧ bs = cs :=
      hcolumn.bind_pure fun _ _ ⟨hs, hbs⟩ => ⟨by rw [hs], hbs⟩
    refine c.through_yields fun _ => hmember.bind ?_
    rintro _ _ ⟨rfl, rfl⟩
    refine (renderMembership_asks negated hc hvalues).mono fun s ds hasks => ⟨ds, ?_, hasks⟩
    simp [binds]
  | patterns negated combine escape =>
    refine c.through_yields fun _ => ?_
    unfold binds writes
    split
    · exact .pure ⟨[], rfl, .never (emptyText_holds negated)⟩
    · refine hcolumn.bind ?_
      rintro _ _ ⟨rfl, rfl⟩
      refine (renderPatterns_count escape hvalues).bind_pure fun ps ds ⟨hps, hlength⟩ => ?_
      refine ⟨ds, by simp, ?_⟩
      rw [← hlength]
      exact likeText_asks negated combine hc hps

end ColumnTest

end Render

end QueryKit
