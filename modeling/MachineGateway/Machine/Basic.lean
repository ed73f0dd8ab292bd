/-
Machines and the services they offer. A listing is what the control plane knows at one moment; a selector names the
service that a request is looking for.
-/
import MachineGateway.Text.Blank
import MachineGateway.Text.Split

namespace MachineGateway

/-- where a machine is in its life -/
inductive Status where
  | running
  | stopped
  | paused
  | creating
  /-- any other word -/
  | unknown
  deriving DecidableEq, Repr, Inhabited

namespace Status

def name : Status → String
  | .running => "RUNNING"
  | .stopped => "STOPPED"
  | .paused => "PAUSED"
  | .creating => "CREATING"
  | .unknown => "UNKNOWN"

/-- the status that a word names; every word names one -/
def ofName (s : String) : Status :=
  if s = "RUNNING" then .running
  else if s = "STOPPED" then .stopped
  else if s = "PAUSED" then .paused
  else if s = "CREATING" then .creating
  else .unknown

end Status

/-- one service of a machine: its tag, its port inside the machine, and the host port that leads there -/
structure Mapping where
  tag : String
  internalPort : String
  externalPort : String
  deriving DecidableEq, Repr, Inhabited

/-- a service by its tag and, if given, its port inside the machine -/
structure Selector where
  tag : String
  port : Option String := none
  deriving DecidableEq, Repr, Inhabited

namespace Selector

/-- whether a mapping offers the service -/
def accepts (s : Selector) (m : Mapping) : Bool :=
  m.tag == s.tag && (match s.port with | none => true | some p => m.internalPort == p)

def text (s : Selector) : String :=
  match s.port with
  | none => s.tag
  | some p => s.tag ++ ":" ++ p

end Selector

/-- a machine as the control plane reports it -/
structure Machine where
  name : String
  status : Status
  /-- its address on the machine network, possibly followed by `/` and a network size -/
  address : String := ""
  mappings : List Mapping := []
  deriving DecidableEq, Repr, Inhabited

namespace Machine

/-- only a running machine gets requests -/
def isRunning (m : Machine) : Bool := m.status == .running

/-- the address without network size and white space, unless that leaves nothing -/
def host? (m : Machine) : Option String :=
  let h := Text.trim (String.ofList (Text.cutAt '/' m.address.toList).1)
  if h = "" then none else some h

end Machine

/-- the machines of one answer of the control plane, in its order -/
structure Listing where
  machines : List Machine := []
  deriving DecidableEq, Repr, Inhabited

namespace Listing

/-- the running machines, in order -/
def running (l : Listing) : List Machine := l.machines.filter Machine.isRunning

end Listing

end MachineGateway
