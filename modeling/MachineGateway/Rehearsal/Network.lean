/-
A network of scripted servers, on which a gateway can be rehearsed without sockets. Each server gives its responses
one per request, the last again and again, and the network remembers every request that arrived.
-/
import MachineGateway.Http.Conduct

namespace MachineGateway.Rehearsal

open Http

/-- how a scripted response goes out -/
inductive Manner where
  /-- whole, with its length, in chunks, or up to the end of the connection -/
  | whole
  /-- the head alone, without a length -/
  | headOnly
  /-- the connection ends before the announced length -/
  | truncated
  /-- nothing comes -/
  | silent
  /-- the head and some of the body come, then nothing -/
  | stalled
  /-- the connection ends without an answer -/
  | dropped
  /-- something that is no response comes -/
  | garbage
  deriving DecidableEq, Repr, Inhabited

structure Reply where
  response : Response := { status := 200 }
  manner : Manner := .whole
  delay : Span := ⟨0⟩
  deriving DecidableEq, Repr, Inhabited

/-- what a server does that gives this reply; a body that is not finished is announced as ten bytes longer; behind an
informational head the client waits for another one, and no body is a head -/
def Reply.conduct (r : Reply) : Conduct :=
  let answered (body : Body) : Conduct :=
    if h : isInformational r.response.status = false then
      .answered r.delay.nanoseconds ⟨r.response.status, Headers.received r.response.headers, body, h⟩
    else if r.manner = .headOnly then .silent
    else .unanswered r.delay.nanoseconds
  let sent : Nat × Bytes := (0, r.response.body)
  match r.manner with
  | .whole => answered (.sized r.response.body.length ⟨[sent], none⟩)
  | .headOnly => answered (.toEnd ⟨[], none⟩)
  | .truncated => answered (.sized (r.response.body.length + 10) ⟨[sent], some (0, .orderly)⟩)
  | .silent => .silent
  | .stalled => answered (.sized (r.response.body.length + 10) ⟨[sent], none⟩)
  | .dropped | .garbage => .unanswered r.delay.nanoseconds

/-- what becomes of a request that gets this reply -/
def Reply.exchange (method : String) (timeout : Span) (r : Reply) : Exchange := r.conduct.exchange method timeout

/-- how long it takes until the exchange is over -/
def Reply.duration (method : String) (timeout : Span) (r : Reply) : Span :=
  match r.exchange method timeout with
  | .late => timeout
  | _ => r.delay

structure Server where
  /-- host and port, as they are dialed -/
  address : String
  replies : List Reply := []
  deriving DecidableEq, Repr, Inhabited

/-- the next reply of a server, and the server after giving it -/
def Server.next (s : Server) : Reply × Server :=
  match s.replies with
  | [] => ({}, s)
  | [r] => (r, s)
  | r :: rest => (r, { s with replies := rest })

/-- a request that arrived at a server -/
structure Arrival where
  address : String
  method : String
  target : String
  headers : Headers
  body : Bytes
  deriving DecidableEq, Repr, Inhabited

/-- the servers that can be reached, and the requests that arrived so far, the latest first -/
structure Network where
  servers : List Server := []
  arrivals : List Arrival := []
  /-- how long the exchanges took together -/
  clock : Span := ⟨0⟩
  deriving DecidableEq, Repr, Inhabited

/-- a request as it arrives at a server -/
def Arrival.ofOutbound (address : String) (o : Outbound) : Arrival where
  address := address
  method := o.method
  target := o.uri.pathAndQuery
  headers := Headers.without framing (Headers.received o.sentHeaders)
  body := o.body

/-- takes the next reply of the first server at a place -/
def takeReply (spot : String × Nat) : List Server → Option (String × Reply × List Server)
  | [] => none
  | s :: rest =>
    if place s.address == spot then
      some (s.address, s.next.1, s.next.2 :: rest)
    else (takeReply spot rest).map fun (a, r, rest) => (a, r, s :: rest)

namespace Network

/-- hands a request to the server at its authority -/
def exchange (timeout : Span) (o : Outbound) (n : Network) : Exchange × Network :=
  let authority := o.uri.authority.getD ""
  if o.uri.scheme != some "http" || Uri.hostOf authority = "" then (.noConnection, n)
  else match takeReply (place authority) n.servers with
    | none => (.noConnection, n)
    | some (address, reply, servers) =>
      (reply.exchange o.method timeout, {
        servers := servers
        arrivals := .ofOutbound address o :: n.arrivals
        clock := ⟨n.clock.nanoseconds + (reply.duration o.method timeout).nanoseconds⟩ })

def seen (n : Network) : List Arrival := n.arrivals.reverse

def forget (n : Network) : Network := { n with arrivals := [] }

end Network

end MachineGateway.Rehearsal
