import QueryKit.Error

/-!
# Retries

- `RetryHandler`: decides what follows an attempt that failed, and how long to wait before the next.
- `RetryHandler.maxAttempts`: reconnects until a number of attempts has been made, and waits before
  each new attempt but the second.
-/

namespace QueryKit

/-- What follows an attempt that failed. -/
inductive RetryAction where
  /-- The failure is final. -/
  | no
  /-- Try again on the connection that is held. -/
  | retry
  /-- Try again on a new connection. -/
  | reconnect
deriving DecidableEq, Repr

def RetryAction.name : RetryAction → String
  | no => "No"
  | retry => "Retry"
  | reconnect => "Reconnect"

/-- Decides what follows a failure. Attempts are counted from 1; waits are in milliseconds. -/
structure RetryHandler where
  action : Nat → Error → RetryAction
  backoff : Nat → Nat

namespace RetryHandler

/-- The number of attempts, and the wait between them, where none is given. -/
def standardTotal : Nat := 3

def standardSleep : Nat := 1000

/-- Reconnect until `total` attempts have been made. -/
def maxAttempts (total sleep : Nat) : RetryHandler where
  action attempt _ := if attempt < total then .reconnect else .no
  backoff attempt := if 1 < attempt then sleep else 0

/-- Never try again. -/
def never : RetryHandler where
  action _ _ := .no
  backoff _ := 0

/-- Follow a list of actions, one for each attempt, and give up at its end. -/
def ofActions (actions : List RetryAction) : RetryHandler where
  action attempt _ := actions.getD (attempt - 1) .no
  backoff _ := 0

end RetryHandler

end QueryKit
