/-
A relay joins a caller's socket and a backend's socket with two legs, one for each direction. This module names the
legs, and how and why they stop.
-/

namespace MachineGateway.Relay

/-- a direction of a relay -/
inductive Leg where
  /-- from the caller to the backend -/
  | inbound
  /-- from the backend to the caller -/
  | outbound
  deriving DecidableEq, Repr, Inhabited

namespace Leg

def name : Leg → String
  | .inbound => "inbound->backend"
  | .outbound => "backend->inbound"

def opposite : Leg → Leg
  | .inbound => .outbound
  | .outbound => .inbound

end Leg

/-- what went wrong in a relay -/
inductive Fault where
  /-- the backend's socket was not opened -/
  | dial (reason : String)
  | read (leg : Leg) (reason : String)
  | write (leg : Leg) (reason : String)
  /-- a leg broke down -/
  | panicked (leg : Leg)
  deriving DecidableEq, Repr

def Fault.message : Fault → String
  | .dial reason => "Failed to dial backend socket: " ++ reason
  | .read leg reason => leg.name ++ " read failed: " ++ reason
  | .write leg reason => leg.name ++ " write failed: " ++ reason
  | .panicked leg => leg.name ++ " forwarding task panicked"

def Fault.leg? : Fault → Option Leg
  | .dial _ => none
  | .read leg _ | .write leg _ | .panicked leg => some leg

/-- what ended a relay -/
inductive Trigger where
  /-- the backend's socket was not opened, and no leg began -/
  | dialFailed
  | leg (leg : Leg)
  deriving DecidableEq, Repr

/-- how a leg stopped -/
inductive LegEnd where
  /-- its source ended or closed -/
  | peerClosed
  /-- the relay had ended already -/
  | cancelled
  | fault (fault : Fault)
  deriving DecidableEq, Repr

/-- what ended a relay first, and how -/
abbrev Cause := Trigger × LegEnd

/-- the reason that a caller is given when the backend's socket was not opened -/
def backendUnavailable : String := "backend_unavailable"

end MachineGateway.Relay
