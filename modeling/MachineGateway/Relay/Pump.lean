/-
A pump moves frames along one leg until its source ends or closes, something fails, or the relay has ended. Every
step looks at the latch first: once that is open, a step neither reads nor writes. What a pump meets is given
beforehand, as the readings of its source and the answers of its sink; where the readings are used up the source is
silent, where the answers are used up the sink accepts.
-/
import MachineGateway.Relay.Frame
import MachineGateway.Relay.Latch

namespace MachineGateway.Relay

inductive Reading (κ : Type) where
  | frame (f : Frame κ)
  /-- a raw frame, which has no counterpart on the other side -/
  | raw
  | failed (reason : String)
  | ended
  deriving DecidableEq, Repr

/-- what a sink does with a frame -/
inductive Writing where
  | accepted
  | failed (reason : String)
  /-- it takes nothing any more -/
  | blocked
  deriving DecidableEq, Repr

inductive PumpStage (μ : Type) where
  | reading
  | writing (f : Frame μ)
  /-- it has left its loop, and its call to complete the latch has come this far -/
  | stopped (how : LegEnd) (call : CallStage := .begun)
  deriving DecidableEq, Repr

/-- a pump from a source with codes in the form `κ` to a sink with codes in the form `μ` -/
structure Pump (κ μ : Type) where
  stage : PumpStage μ := .reading
  source : List (Reading κ) := []
  sink : List Writing := []
  /-- the frames that the sink has accepted, in order -/
  sent : List (Frame μ) := []
  deriving DecidableEq, Repr

namespace Pump

variable {κ μ : Type}

/-- after a frame was written, a pump reads on unless the frame was a close -/
def accept (f : Frame μ) (p : Pump κ μ) : Pump κ μ :=
  { p with stage := if f.isClose then .stopped .peerClosed else .reading, sent := p.sent ++ [f] }

/-- one step of a pump that is reading or writing; `done` says whether the latch is open -/
def select (leg : Leg) (image : Frame κ → Frame μ) (done : Bool) (p : Pump κ μ) : Pump κ μ :=
  match p.stage with
  | .reading =>
    if done then { p with stage := .stopped .cancelled }
    else match p.source with
      | [] => p
      | .ended :: rest => { p with stage := .stopped .peerClosed, source := rest }
      | .failed reason :: rest => { p with stage := .stopped (.fault (.read leg reason)), source := rest }
      | .raw :: rest => { p with source := rest }
      | .frame f :: rest => { p with stage := .writing (image f), source := rest }
  | .writing f =>
    if done then { p with stage := .stopped .cancelled }
    else match p.sink with
      | .blocked :: _ => p
      | .failed reason :: rest => { p with stage := .stopped (.fault (.write leg reason)), sink := rest }
      | .accepted :: rest => { p.accept f with sink := rest }
      | [] => p.accept f
  | _ => p

def returned? (p : Pump κ μ) : Option LegEnd :=
  match p.stage with
  | .stopped how (.returned _) => some how
  | _ => none

/-- the pump with one more reading of its source -/
def offer (r : Reading κ) (p : Pump κ μ) : Pump κ μ := { p with source := p.source ++ [r] }

/-- the pump with a sink that fails from now on -/
def breakSink (reason : String) (p : Pump κ μ) : Pump κ μ := { p with sink := [.failed reason] }

end Pump

end MachineGateway.Relay
