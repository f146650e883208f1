/-!
# Powers

- `twoPow`, `tenPow`: the powers of two and of ten, of which formats and bounds are made.
-/

namespace QueryKit

/-- Two to the power `n`. -/
abbrev twoPow (n : Nat) : Nat :=
  Nat.pow 2 n

/-- Ten to the power `n`. -/
abbrev tenPow (n : Nat) : Nat :=
  Nat.pow 10 n

end QueryKit
