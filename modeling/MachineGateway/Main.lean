/-
The program. This layer carries bytes between connections and the library, which decides everything. It takes no
connection over from a request, so a request for a socket fails in the last step of its handshake.
-/
import MachineGateway.CommandLine.Command
import MachineGateway.ControlPlane
import MachineGateway.Gateway.Listener
import MachineGateway.Http.Wire
import Std.Internal.UV.DNS
import Std.Internal.UV.Signal
import Std.Internal.UV.TCP
import Std.Internal.UV.Timer

namespace MachineGateway.Program

open Http Std.Internal

/-- waits for the result of an operation -/
def awaited {α : Type} (p : IO.Promise (Except IO.Error α)) : IO α := do
  match ← IO.wait p.result! with
  | .ok a => pure a
  | .error e => throw e

/-- the span in milliseconds, as far as a timer can count -/
def timerLength (s : Span) : UInt64 := (min (s.nanoseconds / 1000000) 4000000000000).toUInt64

/-- runs an action for a limited time -/
def within {α : Type} (limit : Span) (act : IO α) : IO (Option (Except IO.Error α)) := do
  let task ← IO.asTask act .dedicated
  let timer ← UV.Timer.mk (timerLength limit) false
  let alarm ← timer.next
  let result ← IO.waitAny [task.map some, alarm.result!.map fun _ => none]
  timer.stop
  pure result

/-- receives until what has arrived is enough; `ready` is told whether the connection has ended -/
partial def receive {α : Type} (socket : UV.TCP.Socket) (ready : Bool → Bytes → Option α) (arrived : Bytes) :
    IO (Option α) := do
  match ready false arrived with
  | some a => pure (some a)
  | none =>
    match ← awaited (← socket.recv? 65536) with
    | some b => receive socket ready (arrived ++ b.toList)
    | none => pure (ready true arrived)

def send (socket : UV.TCP.Socket) (b : Bytes) : IO Unit := do
  awaited (← socket.send #[⟨b.toArray⟩])

/-- an address and a port as the network takes them -/
def socketAddress (a : Std.Net.IPAddr) (port : Nat) : Std.Net.SocketAddress :=
  match a with
  | .v4 a => .v4 ⟨a, port.toUInt16⟩
  | .v6 a => .v6 ⟨a, port.toUInt16⟩

def addressesOf (host : String) : IO (List Std.Net.IPAddr) := do
  let plain := String.ofList (host.toList.filter fun c => c != '[' && c != ']')
  match Std.Net.IPv4Addr.ofString plain, Std.Net.IPv6Addr.ofString plain with
  | some a, _ => pure [.v4 a]
  | none, some a => pure [.v6 a]
  | none, none => return (← awaited (← UV.DNS.getAddrInfo plain "" 0)).toList

/-- connects to the first of several addresses that can be reached -/
def connect (port : Nat) : List Std.Net.IPAddr → IO UV.TCP.Socket
  | [] => throw (IO.userError "no address")
  | a :: more => do
    try
      let socket ← UV.TCP.Socket.new
      awaited (← socket.connect (socketAddress a port))
      pure socket
    catch _ => connect port more

/-- sends a request and receives its response -/
def talk (o : Outbound) : IO Exchange := do
  let (host, port) := place (o.uri.authority.getD "")
  let found ← (do return some (← connect port (← addressesOf host)) : IO (Option UV.TCP.Socket)) <|> pure none
  match found with
  | none => pure .noConnection
  | some socket =>
    try
      send socket (Wire.requestBytes o)
      return (← receive socket (Wire.exchange? o.method) []).getD .noResponse
    catch _ => pure .noResponse

/-- an exchange with a time limit; only plain connections are made -/
def exchange (limit : Span) (o : Outbound) : IO Exchange := do
  if o.uri.scheme != some "http" then pure .noConnection
  else match ← within limit (talk o) with
    | some (.ok e) => pure e
    | some (.error _) => pure .noResponse
    | none => pure .late

def listing (s : Settings) : IO (Except LookupError Listing) :=
  ControlPlane.source (exchange s.discoveryTimeout) s.controlPlane

def answer (s : Settings) (r : Request) : IO Response := do
  let g := s.gateway
  match g.intake r with
  | .answer a => pure a
  | .ask job =>
    match g.engage false r job (← listing s) with
    | .answer a => pure a
    | .relay _ => pure { status := 501 }
    | .forward f =>
      match f.finish g.config.timeout (← exchange g.config.timeout f.outbound) with
      | .ok a => pure a
      | .error e => pure e.response

/-- answers the request on a connection -/
def attend (s : Settings) (socket : UV.TCP.Socket) : IO Unit := do
  let ready (ended : Bool) (b : Bytes) : Option (Wire.Arrived Request) := match Wire.request b with
    | .more => if ended then some .broken else none
    | a => some a
  match ← receive socket ready [] with
  | some (.whole r) => send socket (Wire.responseBytes ((← answer s r).delivered r.method))
  | _ => send socket (Wire.responseBytes { status := 400 })
  awaited (← socket.shutdown)

def listenAddress : Net.SocketAddress → Std.Net.SocketAddress
  | .v4 a port => socketAddress (.v4 (.ofParts a.a.toUInt8 a.b.toUInt8 a.c.toUInt8 a.d.toUInt8)) port
  | .v6 groups _ port => socketAddress (.v6 ⟨.ofFn fun i => (groups.getD i.val 0).toUInt16⟩) port

/-- answers connections until accepting is called off -/
partial def acceptAll (s : Settings) (listener : UV.TCP.Socket) (inFlight : IO.Ref (List (Task (Except IO.Error Unit)))) :
    IO Unit := do
  let socket ← awaited (← listener.accept)
  let task ← IO.asTask (attend s socket) .dedicated
  inFlight.modify fun ts => task :: ts
  acceptAll s listener inFlight

/-- serves until a signal to stop, then waits for the requests in flight -/
def serve (s : Settings) : IO Printout := do
  let listener ← UV.TCP.Socket.new
  try
    listener.bind (listenAddress s.listen)
    listener.listen 128
  catch e => return .failure (BindError.message ⟨s.listen.hostText, s.listen.port, toString e⟩) none
  let inFlight ← IO.mkRef []
  let accepting ← IO.asTask (acceptAll s listener inFlight) .dedicated
  let interrupt ← UV.Signal.mk 2 false
  let terminate ← UV.Signal.mk 15 false
  let _ ← IO.waitAny [(← interrupt.next).result!, (← terminate.next).result!]
  listener.cancelAccept
  IO.cancel accepting
  let tasks ← inFlight.get
  let _ ← within s.shutdownGrace (do for t in tasks do let _ ← IO.wait t)
  return {}

/-- the environment variables that matter -/
def environment : IO (List (String × String)) := do
  let names := filterVariable :: Flag.all.filterMap Flag.variableName?
  names.filterMapM fun name => do return (← IO.getEnv name).map fun value => (name, value)

/-- the content of the configuration file that the command line names -/
def configContent (env : List (String × String)) (words : List String) : IO (Option Bytes) := do
  match CommandLine.parse env words with
  | .ok ({ config := some name, .. }, _) =>
    (do return some (← IO.FS.readBinFile name).toList) <|> pure none
  | _ => pure none

def run (words : List String) : IO Printout := do
  let env ← environment
  let content ← configContent env words
  match prepare env (fun _ => content) words with
  | .error e => pure e.printout
  | .ok (s, .serve) => serve s
  | .ok (s, .resolve name) => return s.resolveOnce (← listing s) name

end MachineGateway.Program

/-- carries out the command line and prints what came of it -/
def main (words : List String) : IO UInt32 := do
  let p ← MachineGateway.Program.run words
  IO.print p.out
  IO.eprint p.err
  return p.status.toUInt32
