/-
Runs of the program on a scripted network, and visitors that ask a listening gateway for pages.
-/
import MachineGateway.CommandLine.Command
import MachineGateway.ControlPlane
import MachineGateway.Gateway.Listener
import MachineGateway.Rehearsal.Network

namespace MachineGateway.Rehearsal

open Http

/-- the world of a gateway with given settings -/
def worldOf (s : Settings) : World Network where
  list := (ControlPlane.source (Network.exchange s.discoveryTimeout) s.controlPlane : StateM Network _).run
  exchange := Network.exchange s.forwardTimeout

structure Visit where
  target : String
  headers : Headers := []
  deriving DecidableEq, Repr, Inhabited

/-- the request of a visitor who knows the gateway by an address -/
def Visit.request (address : String) (v : Visit) : Except UriError Request :=
  match Uri.parse v.target with
  | .error e => .error e
  | .ok uri =>
    let headers :=
      if (Headers.first? v.headers "host").isSome then v.headers
      else Headers.textField "host" address :: v.headers
    .ok ⟨"GET", uri, Headers.received headers, []⟩

/-- the response to a visitor; one who becomes a socket is told so -/
def Visit.response {σ : Type} (g : Gateway) (w : World σ) (address : String) (v : Visit) (s : σ) : Response × σ :=
  match v.request address with
  | .error _ => ({ status := 400 }, s)
  | .ok r =>
    let (h, s) := g.handle w true s r
    ((h.response.getD { status := 101 }).delivered r.method, s)

/-- the responses to visitors one after another -/
def visitAll {σ : Type} (g : Gateway) (w : World σ) (address : String) : List Visit → σ → List Response × σ
  | [], s => ([], s)
  | v :: vs, s =>
    let (r, s) := v.response g w address s
    let (rs, s) := visitAll g w address vs s
    (r :: rs, s)

/-- the response to a visitor who is being served when the gateway is told to stop and given a grace, if it comes
within `patience` after the end of the listener -/
def Visit.lastResponse (g : Gateway) (w : World Network) (address : String) (grace patience : Span) (v : Visit)
    (n : Network) : Option Response × Network :=
  let (r, after) := v.response g w address n
  let needed : Span := ⟨after.clock.nanoseconds - n.clock.nanoseconds⟩
  (if needed.nanoseconds ≤ (drainTime grace [needed]).nanoseconds + patience.nanoseconds then some r else none, after)

structure Program where
  environment : List (String × String) := []
  files : List (String × Bytes) := []
  words : List String := []
  /-- the addresses that others listen at -/
  taken : List String := []
  deriving DecidableEq, Repr, Inhabited

/-- what becomes of a program -/
inductive Course where
  /-- it prints something and ends -/
  | ends (p : Printout)
  /-- it listens -/
  | listens (s : Settings)
  deriving DecidableEq, Repr

/-- runs a program until it ends or listens -/
def Program.run (p : Program) (n : Network) : Course × Network :=
  match prepare p.environment (fun name => p.files.lookup name) p.words with
  | .error e => (.ends e.printout, n)
  | .ok (s, .resolve name) =>
    let (listing, n) := (worldOf s).list n
    (.ends (s.resolveOnce listing name), n)
  | .ok (s, .serve) =>
    if p.taken.contains s.listen.text then (.ends (.failure (BindError.taken s.listen).message none), n)
    else (.listens s, n)

/-- whether a listener can be visited at an address -/
def listensAt (s : Settings) (address : String) : Bool :=
  match Net.SocketAddress.parse? address with
  | none => false
  | some a => a == s.listen || (a.port == s.listen.port && s.listen.hostText == "0.0.0.0")

end MachineGateway.Rehearsal
