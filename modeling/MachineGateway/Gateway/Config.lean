/-
What a gateway is set up with: the service it fronts, how it names itself, how long it waits, and who may open
sockets.
-/
import MachineGateway.Machine.Wire
import MachineGateway.Policy
import MachineGateway.Text.Span

namespace MachineGateway

open Json

/-- the service that a gateway fronts: the name it reports, and the selector that finds it -/
structure ServiceProfile where
  name : String
  selector : Selector
  deriving DecidableEq, Repr, Inhabited

namespace ServiceProfile

/-- browser debugging, found by its tag alone -/
def devtools : ServiceProfile := ⟨"cdp", { tag := "cdp" }⟩

structure Draft where
  name : Option String := none
  selector : Option Selector := none

def form : Form Draft ServiceProfile where
  title := "struct ServiceProfile"
  fields := [("name", false), ("selector", false)]
  start := {}
  has d f := if f = "name" then d.name.isSome else d.selector.isSome
  put d f v :=
    if f = "name" then (readText v).map fun x => { d with name := some x }
    else (Selector.read v).map fun x => { d with selector := some x }
  finish d :=
    match required "name" d.name, required "selector" d.selector with
    | .error e, _ => .error e
    | _, .error e => .error e
    | .ok n, .ok s => .ok ⟨n, s⟩

def read : Reader ServiceProfile := form.read

def doc (p : ServiceProfile) : Doc := .record [("name", .text p.name), ("selector", p.selector.doc)]

end ServiceProfile

structure GatewayConfig where
  /-- the host by which callers reach the gateway if their requests do not say -/
  publicHost : String := "localhost:3007"
  service : ServiceProfile := .devtools
  /-- the time for one exchange with a backend, and for dialing a backend's socket -/
  timeout : Span := .ofSeconds 10
  policy : UpgradePolicy := .allowAll
  deriving DecidableEq, Repr, Inhabited

end MachineGateway
