/-
The latch that ends a relay. Whoever completes it first wins; its cause is kept, and everyone who waits is let go.
Completing takes three steps, each of which is indivisible: claiming the latch, writing the cause, opening. In a
`Race` the steps of several callers follow one another in any order.
-/
import MachineGateway.Relay.Basic

namespace MachineGateway.Relay

structure Latch where
  /-- whether someone has won -/
  claimed : Bool := false
  /-- the winner's cause, once it is written -/
  first : Option Cause := none
  /-- whether the latch is open -/
  done : Bool := false
  /-- how many have begun to wait -/
  waiters : Nat := 0
  deriving DecidableEq, Repr, Inhabited

namespace Latch

/-- claims the latch, and whether that succeeded -/
def claim (l : Latch) : Bool × Latch := (!l.claimed, { l with claimed := true })

/-- writes the cause, if none is written -/
def record (cause : Cause) (l : Latch) : Latch := { l with first := l.first.or (some cause) }

def opened (l : Latch) : Latch := { l with done := true }

/-- completes the latch without interruption, and whether this call won -/
def complete (cause : Cause) (l : Latch) : Bool × Latch :=
  match l.claim with
  | (true, l) => (true, (l.record cause).opened)
  | (false, l) => (false, l)

def wait (l : Latch) : Latch := { l with waiters := l.waiters + 1 }

/-- whether the waiter of a number may go on, if there is such a waiter -/
def ready? (l : Latch) (n : Nat) : Option Bool := if n < l.waiters then some l.done else none

end Latch

/-- how far a call to complete a latch has come -/
inductive CallStage where
  | begun
  | claimed
  | recorded
  | returned (won : Bool)
  deriving DecidableEq, Repr, Inhabited

structure Call where
  cause : Cause
  stage : CallStage := .begun
  deriving DecidableEq, Repr

structure Race where
  latch : Latch := {}
  calls : List Call
  deriving DecidableEq, Repr

namespace Race

/-- the next step of one call -/
def advance (c : Call) (l : Latch) : Call × Latch :=
  match c.stage with
  | .begun =>
    match l.claim with
    | (true, l) => ({ c with stage := .claimed }, l)
    | (false, l) => ({ c with stage := .returned false }, l)
  | .claimed => ({ c with stage := .recorded }, l.record c.cause)
  | .recorded => ({ c with stage := .returned true }, l.opened)
  | .returned _ => (c, l)

/-- the next step of the call at a position; where there is none, one more begins to wait -/
def step (r : Race) (i : Nat) : Race :=
  match r.calls[i]? with
  | none => { r with latch := r.latch.wait }
  | some c =>
    let (c, l) := advance c r.latch
    ⟨l, r.calls.set i c⟩

def run (r : Race) (order : List Nat) : Race := order.foldl step r

end Race

end MachineGateway.Relay
