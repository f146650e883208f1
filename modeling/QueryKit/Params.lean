import QueryKit.Error
import QueryKit.Value

/-!
# Parameters

- `Params`: the values that a statement binds, in bind order. Positional entries meet `?`, named
  ones meet `:name`.
- `Params.set`: a named entry keeps the place of its first binding and takes the latest value.
- `Params.extend`: another accumulator's positional entries are appended, its named ones set.
- `Binding`: one entry that a compiled text asks for. `Params.bindAll` adds them in order.
-/

namespace QueryKit

/-- A value with the type it is bound as. -/
structure Param where
  value : Value
  type : ParamType

namespace Param

/-- A value bound by its own type. -/
def ofValue (v : Value) : Param :=
  ⟨v, v.paramType⟩

end Param

/-- What an entry answers to. -/
inductive ParamKey where
  | positional
  | named (name : String)
deriving DecidableEq, Repr

/-- One binding of a compiled text. -/
structure Binding where
  key : ParamKey
  param : Param

/-- Parameters in bind order. -/
structure Params where
  entries : List (ParamKey × Param)

namespace Params

def empty : Params := ⟨[]⟩

instance : Inhabited Params := ⟨empty⟩

/-- A parameter name without the colon that may stand in front of it. -/
def bareName (name : String) : String :=
  match name.toList with
  | ':' :: r => String.ofList r
  | _ => name

/-- Append a positional entry. -/
def push (ps : Params) (p : Param) : Params :=
  ⟨ps.entries ++ [(.positional, p)]⟩

/-- Replace the entry of a name, or append one. -/
def setEntry (name : String) (p : Param) :
    List (ParamKey × Param) → List (ParamKey × Param)
  | [] => [(.named name, p)]
  | (k, q) :: r => if k = .named name then (k, p) :: r else (k, q) :: setEntry name p r

/-- Bind a name; the colon in front of it is optional. -/
def set (ps : Params) (name : String) (p : Param) : Params :=
  ⟨setEntry (bareName name) p ps.entries⟩

/-- Add one entry: append a positional one, set a named one. -/
def bind (ps : Params) (key : ParamKey) (p : Param) : Params :=
  match key with
  | .positional => ps.push p
  | .named name => ps.set name p

/-- Add bindings in order. -/
def bindAll (ps : Params) (bs : List Binding) : Params :=
  bs.foldl (fun ps b => ps.bind b.key b.param) ps

/-- The entries as bindings for another accumulator. -/
def bindings (ps : Params) : List Binding :=
  ps.entries.map fun e => ⟨e.1, e.2⟩

/-- Append the positional entries of another accumulator and set its named ones. -/
def extend (ps qs : Params) : Params :=
  ps.bindAll qs.bindings

/-- The positional entries in bind order. -/
def positional (ps : Params) : List Param :=
  ps.entries.filterMap fun
    | (.positional, p) => some p
    | _ => none

/-- The entry of a name. -/
def named (ps : Params) (name : String) : Option Param :=
  ps.entries.lookup (.named (bareName name))

/-- Every value in bind order. -/
def values (ps : Params) : List Value :=
  ps.entries.map fun e => e.2.value

def size (ps : Params) : Nat :=
  ps.entries.length

/-- The accumulator that a list of assignments builds. -/
def ofBindings (bs : List Binding) : Params :=
  empty.bindAll bs

end Params

end QueryKit
