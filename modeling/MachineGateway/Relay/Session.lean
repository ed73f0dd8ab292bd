/-
A relay session: two pumps and a latch. Each pump completes the latch when it stops; when the latch is open and both
pumps have returned, the session closes each sink once, the backend's first, and gives its outcome. `step` is one
step of one of these three, so a list of steps is one way in which they can follow one another. The call by which a
pump completes the latch takes several steps, and the other pump may take its own between them.
-/
import MachineGateway.Relay.Latch
import MachineGateway.Relay.Pump

namespace MachineGateway.Relay

structure Outcome where
  first : Option Trigger
  reason : Option LegEnd
  deriving DecidableEq, Repr

structure Session where
  latch : Latch := {}
  /-- from the caller to the backend -/
  inbound : Pump UInt16 CloseCode := {}
  /-- from the backend to the caller -/
  outbound : Pump CloseCode UInt16 := {}
  /-- the legs whose sinks have been closed, in order -/
  closed : List Leg := []
  outcome : Option Outcome := none
  deriving DecidableEq, Repr

inductive Step where
  /-- a pump looks at the latch, then reads or writes -/
  | select (leg : Leg)
  /-- the call by which a stopped pump completes the latch goes on -/
  | report (leg : Leg)
  /-- the session itself goes on -/
  | teardown
  deriving DecidableEq, Repr

/-- the next step of a stopped pump's call to complete the latch -/
def Pump.report {κ μ : Type} (leg : Leg) (p : Pump κ μ) (l : Latch) : Pump κ μ × Latch :=
  match p.stage with
  | .stopped how call =>
    let (c, l) := Race.advance ⟨(.leg leg, how), call⟩ l
    ({ p with stage := .stopped how c.stage }, l)
  | _ => (p, l)

namespace Session

/-- the outcome that a latch tells -/
def outcomeOf (l : Latch) : Outcome := ⟨l.first.map (·.1), l.first.map (·.2)⟩

/-- whether both pumps have returned -/
def isJoined (s : Session) : Bool := s.inbound.returned?.isSome && s.outbound.returned?.isSome

/-- the next step of the session itself -/
def teardown (s : Session) : Session :=
  if s.latch.done && s.isJoined then
    match s.closed with
    | [] => { s with closed := [.inbound] }
    | [leg] => { s with closed := [leg, .outbound] }
    | _ => { s with outcome := some (outcomeOf s.latch) }
  else s

def step (s : Session) : Step → Session
  | .select .inbound => { s with inbound := s.inbound.select .inbound Frame.forBackend s.latch.done }
  | .select .outbound => { s with outbound := s.outbound.select .outbound Frame.forCaller s.latch.done }
  | .report .inbound =>
    let (p, l) := s.inbound.report .inbound s.latch
    { s with inbound := p, latch := l }
  | .report .outbound =>
    let (p, l) := s.outbound.report .outbound s.latch
    { s with outbound := p, latch := l }
  | .teardown => s.teardown

def run (s : Session) (steps : List Step) : Session := steps.foldl step s

/-- the steps of a pump's whole call to complete the latch -/
def wholeCall (leg : Leg) : List Step := [.report leg, .report leg, .report leg]

/-- the session when the backend's socket was not opened: no leg begins -/
def dialFailed (reason : String) (s : Session) : Session :=
  let latch := (s.latch.complete (.dialFailed, .fault (.dial reason))).2
  { s with latch := latch, outcome := some (outcomeOf latch) }

end Session

/-- what a caller is sent when the backend's socket was not opened -/
def unavailableFrame : Frame UInt16 := .close (some ⟨CloseCode.error.number, backendUnavailable⟩)

end MachineGateway.Relay
