import QueryKit.Connection.Basic

/-!
# What happens on a connection

- `Link`: a physical connection, with the pool it came from.
- `Event`: what can be observed of a session: connections taken and given back, statements sent and
  messages logged.
- `Journal`: the events of a connection, the latest one first, and what can be read off them.
-/

namespace QueryKit

/-- A physical connection to a server; no two have one number. -/
structure Link where
  pool : Pool
  number : Nat
deriving DecidableEq, Repr

/-- How a call to a server ended. -/
inductive Ending where
  | done
  | failed
  /-- The caller went away before there was an answer. -/
  | pending
deriving DecidableEq, Repr

inductive LogLevel where
  | debug
  | info
  | warn
  | error
deriving DecidableEq, Repr

def LogLevel.word : LogLevel → String
  | debug => "DEBUG"
  | info => "INFO"
  | warn => "WARN"
  | error => "ERROR"

/-- An event of a connection. -/
inductive Event where
  | acquired (link : Link)
  /-- A connection went back to its pool. -/
  | released (link : Link)
  /-- A connection was closed for good. -/
  | discarded (link : Link)
  | sent (link : Link) (sql : String) (values : List Value) (ending : Ending)
  | logged (level : LogLevel) (text : String)

/-- The events of a connection, the latest one first. -/
abbrev Journal := List Event

namespace Journal

/-- The events after the first `seen` ones, in their order. -/
def since (j : Journal) (seen : Nat) : List Event :=
  (j.take (j.length - seen)).reverse

/-- The statements that were sent to a pool, with their values. -/
def statementsTo (id : PoolId) (events : List Event) : List (String × List Value) :=
  events.filterMap fun e =>
    match e with
    | .sent link sql values _ => if link.pool.id = id then some (sql, values) else none
    | _ => none

/-- The messages that were logged. -/
def messages (events : List Event) : List (LogLevel × String) :=
  events.filterMap fun e =>
    match e with
    | .logged level text => some (level, text)
    | _ => none

/-- How many connections of a pool were taken from it. -/
def acquisitions (id : PoolId) (events : List Event) : Nat :=
  events.countP fun e =>
    match e with
    | .acquired link => link.pool.id = id
    | _ => false

/-- How many connections of a pool went back to it. -/
def releases (id : PoolId) (events : List Event) : Nat :=
  events.countP fun e =>
    match e with
    | .released link => link.pool.id = id
    | _ => false

/-- How many connections of a pool were closed. -/
def discards (id : PoolId) (events : List Event) : Nat :=
  events.countP fun e =>
    match e with
    | .discarded link => link.pool.id = id
    | _ => false

end Journal

end QueryKit
