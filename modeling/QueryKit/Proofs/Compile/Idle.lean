import QueryKit.Proofs.Compile.Render

/-!
# Laws under which values never matter

Where the values of every fragment that keeps a law are idle, a column may be written several times
or not at all, whatever it binds. What a membership test and a LIKE condition ask of their column is
then granted.

- `FragmentLaw.AlwaysIdle`: the values of every fragment are idle.
- `memberColumn_idle`, `operand_idle`: the column of a membership test and of a LIKE condition.
-/

namespace QueryKit

namespace FragmentLaw

/-- The values of every fragment that keeps the law may be added or left out. -/
def AlwaysIdle {d : Dialect} (L : FragmentLaw d) : Prop :=
  ∀ {s : String} {bs : List Binding}, L.Holds s bs → L.Idle bs

variable {c : Compiler} {L : FragmentLaw c.dialect}

theorem AlwaysIdle.column (hL : L.AlwaysIdle) {m : MemberColumn} {bs : List Binding}
    (h : L.Column m bs) : L.Idle bs := by
  cases m with
  | single text name => exact hL h.1
  | composite names =>
    obtain ⟨-, rfl⟩ := h
    exact idle_nil

theorem memberColumn_idle (hL : L.AlwaysIdle) {source : MemberSource} {column : Operand}
    (h : MemberColumnFits c L source column) :
    (renderMemberColumn c source column).Yields fun _ bs => L.Idle bs :=
  (renderMemberColumn_holds h).mono fun _ _ hm => hL.column hm

theorem operand_idle (hL : L.AlwaysIdle) {role : Role} {o : Operand} (h : o.Fits c L role) :
    (renderOperand c role o).Yields fun _ bs => L.Idle bs :=
  (renderOperand_holds role h).mono fun _ _ hs => hL hs

end FragmentLaw

end QueryKit
