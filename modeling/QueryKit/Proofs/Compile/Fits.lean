import QueryKit.Proofs.Compile.Fragment

/-!
# Queries that fit a law of fragments

`Operand.Fits`, `Expression.Fits`, `Condition.Fits`, `Query.Fits`: every name, every text and every
list of parameters that a query is made of is as a `FragmentLaw` asks. The recursion is that of the
renderers. Values that are bound may be anything.

A membership test and a LIKE condition may write their column several times or not at all, and bind
its values once. So they ask for a column whose values are idle, such as a plain name, or for values
that let the column be written exactly once.
-/

namespace QueryKit

/-- Values of a membership test that let a column be written exactly once. -/
def Operand.OneTest : Operand → Prop
  | .list items => WrittenOnce (items.map Operand.isNull)
  | .value (.array vs) => WrittenOnce (vs.map Value.isNull)
  | _ => True

/-- The patterns of a LIKE condition are one pattern, or no list. -/
def Operand.OnePattern : Operand → Prop
  | .list items => items.length = 1
  | .value (.array vs) => vs.length = 1
  | _ => True

namespace FragmentLaw

variable {d : Dialect} (L : FragmentLaw d)

/-- A value that is written out is a name in the place of a column and a word elsewhere. -/
def Unbound (role : Role) (v : Value) : Prop :=
  match role, v with
  | .column, .string s => L.name s
  | _, v => L.word v.toPlainString

end FragmentLaw

variable (c : Compiler) (L : FragmentLaw c.dialect)

mutual

/-- An operand in one of its roles. -/
def Operand.Fits (role : Role) : Operand → Prop
  | .value v =>
    match role with
    | .bound => True
    | role => L.Unbound role v
  | .list items =>
    match role with
    | .bound => ItemsFit .bound items
    | _ => FormFits items
  | .map entries =>
    match role with
    | .bound => ValuesFit entries
    | _ => HashFits entries
  | .expr e => e.Fits

/-- Operands that all have one role. -/
def ItemsFit (role : Role) : List Operand → Prop
  | [] => True
  | o :: os => o.Fits role ∧ ItemsFit role os

/-- The values of a map. -/
def ValuesFit : List (String × Operand) → Prop
  | [] => True
  | (_, o) :: es => o.Fits .bound ∧ ValuesFit es

/-- Columns with the values they must have. -/
def HashFits : List (String × Operand) → Prop
  | [] => True
  | (name, o) :: es => L.name name ∧ o.Fits .bound ∧ HashFits es

/-- A condition in operator form. -/
def FormFits : List Operand → Prop
  | [] => True
  | head :: operands =>
    match head.asString with
    | none => True
    | some token =>
      let op := Operator.parse token
      match op.kind with
      | .not => NegationFits operands
      | .conjunction _ => ItemsFit .condition operands
      | .between _ => RangeFits operands
      | .isIn _ => MembershipFits operands
      | .like _ _ => PatternsFit operands
      | .isExists _ => ExistenceFits operands
      | .simple => ComparisonFits op operands

/-- The operands of NOT. -/
def NegationFits : List Operand → Prop
  | [o] => o.Fits .condition
  | _ => True

/-- The operands of BETWEEN. -/
def RangeFits : List Operand → Prop
  | column :: low :: high :: _ => column.Fits .column ∧ low.Fits .bound ∧ high.Fits .bound
  | _ => True

/-- The operands of IN. -/
def MembershipFits : List Operand → Prop
  | column :: values :: _ =>
    MemberColumnFits (.of values) column ∧ values.Fits .bound ∧
      ((renderMemberColumn c (.of values) column).Yields (fun _ bs => L.Idle bs) ∨ values.OneTest)
  | _ => True

/-- The operands of LIKE. -/
def PatternsFit : List Operand → Prop
  | column :: values :: _ =>
    column.Fits .column ∧ values.Fits .bound ∧
      ((renderOperand c .column column).Yields (fun _ bs => L.Idle bs) ∨ values.OnePattern)
  | _ => True

/-- The operands of EXISTS. -/
def ExistenceFits : List Operand → Prop
  | .expr (.query q) :: _ => q.Fits
  | _ => True

/-- The operands of a comparison. -/
def ComparisonFits (op : Operator) : List Operand → Prop
  | [column, v] => L.word op.token ∧ column.Fits .column ∧ v.Fits .bound
  | _ => True

/-- A list of columns in front of values: a single column stands for itself. -/
def ColumnsFit : List Operand → Prop
  | [] => True
  | [column] => column.Fits .column
  | columns => ∀ n ∈ columns.map memberName, L.name n

/-- The column side of a membership test in values of a shape. -/
def MemberColumnFits (source : MemberSource) : Operand → Prop
  | .value v => L.Unbound .column v
  | .list columns =>
    match source with
    | .query => ∀ n ∈ columns.map memberName, L.name n
    | .expression => FormFits columns
    | .values => ColumnsFit columns
  | .map entries => HashFits entries
  | .expr e => e.Fits

/-- A fragment of a statement. -/
def Expression.Fits : Expression → Prop
  | .raw sql params => L.raw sql params
  | .typed _ _ => True
  | .arrayOfValues _ elementType _ => ∀ t ∈ elementType, L.word t
  | .arrayOfQuery q elementType _ => q.Fits ∧ ∀ t ∈ elementType, L.word t
  | .json _ jsonType => ∀ t ∈ jsonType, L.word t
  | .query q => q.Fits
  | .condition cond => cond.Fits

/-- A condition whose parts are told apart. -/
def Condition.Fits : Condition → Prop
  | .hash entries => HashFits entries
  | .simple column op v => L.word op.token ∧ column.Fits .column ∧ v.Fits .bound
  | .not o => o.Fits .condition
  | .conjunction _ operands => ItemsFit .condition operands
  | .between column _ low high => column.Fits .column ∧ low.Fits .bound ∧ high.Fits .bound
  | .isIn column _ values =>
    MemberColumnFits (.of values) column ∧ values.Fits .bound ∧
      ((renderMemberColumn c (.of values) column).Yields (fun _ bs => L.Idle bs) ∨ values.OneTest)
  | .like column _ _ values _ =>
    column.Fits .column ∧ values.Fits .bound ∧
      ((renderOperand c .column column).Yields (fun _ bs => L.Idle bs) ∨ values.OnePattern)
  | .isExists _ q => q.Fits

/-- A column or a table. -/
def Column.Fits : Column → Prop
  | .name n => L.name n
  | .expr e => e.Fits

/-- A column of a select list or a table, with its label. -/
def ColumnItem.Fits : ColumnItem → Prop
  | ⟨label, column⟩ => (∀ a ∈ label, L.name a) ∧ column.Fits

/-- The columns of a select list, or the tables of a FROM clause. -/
def ColumnItemsFit : List ColumnItem → Prop
  | [] => True
  | item :: items => item.Fits ∧ ColumnItemsFit items

def JoinsFit : List Join → Prop
  | [] => True
  | ⟨_, table, on⟩ :: joins => table.Fits ∧ ClauseFits on ∧ JoinsFit joins

/-- A condition that may be missing. -/
def ClauseFits : Option Operand → Prop
  | none => True
  | some o => o.Fits .condition

def GroupsFit : List Column → Prop
  | [] => True
  | column :: columns => column.Fits ∧ GroupsFit columns

def OrdersFit : List OrderItem → Prop
  | [] => True
  | ⟨column, _⟩ :: items => column.Fits ∧ OrdersFit items

def UnionsFit : List UnionMember → Prop
  | [] => True
  | ⟨q, _⟩ :: unions => q.Fits ∧ UnionsFit unions

/-- A SELECT statement. -/
def Query.Fits : Query → Prop
  | ⟨select, selectOption, _, tables, joins, condition, groupBy, having, orderBy, _, _, unions,
      params, _, _, _, _⟩ =>
    (∀ o ∈ selectOption, L.word o) ∧ L.params params ∧ ColumnItemsFit select ∧
      ColumnItemsFit tables ∧ JoinsFit joins ∧ ClauseFits condition ∧ GroupsFit groupBy ∧
      ClauseFits having ∧ OrdersFit orderBy ∧ UnionsFit unions

end

end QueryKit
