import QueryKit.Params

/-!
# Compilation steps

- `Compile α`: a step that fails or yields a result together with the values it binds. Steps in
  sequence bind their values in sequence, so a text's placeholders meet the values in the order in
  which its parts were compiled.
- `Compile.into`: a step run on parameters that are already there.
-/

namespace QueryKit

/-- A failure, or a result with the bindings it asks for. -/
def Compile (α : Type) : Type :=
  Result (α × List Binding)

namespace Compile

variable {α β : Type}

/-- Yield a result and bind nothing. -/
def pure (a : α) : Compile α :=
  .ok (a, [])

/-- One step after another. -/
def bind (x : Compile α) (f : α → Compile β) : Compile β :=
  match x with
  | .error e => .error e
  | .ok (a, bs) =>
    match f a with
    | .error e => .error e
    | .ok (b, cs) => .ok (b, bs ++ cs)

instance : Monad Compile where
  pure := Compile.pure
  bind := Compile.bind

/-- Fail for a fault in the arguments. -/
def fault (f : ArgumentFault) : Compile α :=
  .error (.invalidArgument f)

/-- Lift a result that binds nothing. -/
def ofResult (r : Result α) : Compile α :=
  r.map fun a => (a, [])

/-- Ask for bindings. -/
def emit (bs : List Binding) : Compile Unit :=
  .ok ((), bs)

/-- Bind a value and yield its placeholder. -/
def pushParam (p : Param) : Compile String :=
  .ok ("?", [⟨.positional, p⟩])

/-- Bind a value by its own type and yield its placeholder. -/
def push (v : Value) : Compile String :=
  pushParam (.ofValue v)

/-- Run a step on parameters that are already there. -/
def into (x : Compile α) (ps : Params) : Result (α × Params) :=
  x.map fun (a, bs) => (a, ps.bindAll bs)

/-- The result of a step and the parameters it binds. -/
def run (x : Compile α) : Result (α × Params) :=
  x.into .empty

end Compile

end QueryKit
