/-
From a listing to the place to dial. In mapped mode that is the machine's port on a shared host, in direct mode the
machine's own address.
-/
import MachineGateway.Machine.Selection

namespace MachineGateway

/-- how a machine is reached -/
inductive DialMode where
  /-- through its port on the shared host -/
  | mapped
  /-- at its own address -/
  | direct
  deriving DecidableEq, Repr, Inhabited

namespace DialMode

def name : DialMode → String
  | .mapped => "mapped"
  | .direct => "direct"

/-- the mode that one of its words names, in any case -/
def ofWord? (s : String) : Option DialMode :=
  let w := Text.lowerAscii s
  if w = "mapped" || w = "host" then some .mapped
  else if w = "direct" || w = "internal" then some .direct
  else none

/-- the mode that a word names, or what is wrong with the word -/
def ofWord (s : String) : Except String DialMode :=
  match ofWord? s with
  | some m => .ok m
  | none => .error ("Unknown dial mode: " ++ s)

end DialMode

structure Endpoint where
  host : String
  port : String
  deriving DecidableEq, Repr, Inhabited

def Endpoint.text (e : Endpoint) : String := e.host ++ ":" ++ e.port

/-- a machine that was selected for a request, its mapping, and where to dial it -/
structure Backend where
  endpoint : Endpoint
  machine : Machine
  mapping : Mapping
  deriving DecidableEq, Repr

namespace Backend

/-- the backend as its neighbours on the machine network name it -/
def internalAuthority? (b : Backend) : Option String :=
  b.machine.host?.map fun h => h ++ ":" ++ b.mapping.internalPort

/-- each authority by which a backend may name itself: the one dialed, then the internal one if it differs -/
def authorities (b : Backend) : List String :=
  match b.internalAuthority? with
  | none => [b.endpoint.text]
  | some a => if a = b.endpoint.text then [b.endpoint.text] else [b.endpoint.text, a]

end Backend

/-- how selected machines are dialed -/
structure Dialing where
  mode : DialMode := .mapped
  /-- the host that carries the external ports -/
  host : String := "127.0.0.1"
  deriving DecidableEq, Repr, Inhabited

namespace Dialing

/-- where to dial a selected machine -/
def endpoint (d : Dialing) (m : Machine) (p : Mapping) : Except LookupError Endpoint :=
  match d.mode with
  | .mapped => .ok ⟨d.host, p.externalPort⟩
  | .direct =>
    match m.host? with
    | some h => .ok ⟨h, p.internalPort⟩
    | none => .error (.malformed ("machine '" ++ m.name ++ "' has no internal address"))

/-- the backend for a request, chosen from a listing -/
def backend (d : Dialing) (l : Listing) (target : Option String) (s : Selector) : Except LookupError Backend :=
  match l.select target s with
  | .error e => .error e
  | .ok c =>
    match d.endpoint c.machine c.mapping with
    | .error e => .error e
    | .ok e => .ok ⟨e, c.machine, c.mapping⟩

/-- the backend for a request, from the answer to one listing call -/
def resolve (d : Dialing) (answer : Except LookupError Listing) (target : Option String) (s : Selector) :
    Except LookupError Backend :=
  match answer with
  | .error e => .error e
  | .ok l => d.backend l target s

end Dialing

end MachineGateway
