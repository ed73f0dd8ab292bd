/-
What a gateway does with a request, in three phases. `intake` answers at once or says for which machine to ask;
`engage` takes one listing and answers or says whom to contact; a forwarded request ends with `Forwarding.finish`.
`handleIn` runs the phases against a world that gives listings and exchanges and in which sockets are dialed, and
records what was asked of it. The origin of a socket is judged before any listing.
-/
import MachineGateway.Gateway.Forwarding
import MachineGateway.Gateway.Route
import MachineGateway.Gateway.Upgrade

namespace MachineGateway

open Http

/-- a gateway: its setup and how it dials machines -/
structure Gateway where
  config : GatewayConfig := {}
  dialing : Dialing := {}
  deriving DecidableEq, Repr, Inhabited

structure Job where
  target : Option String
  /-- path and query for the backend -/
  pathAndQuery : String
  /-- whether a socket is asked for -/
  socket : Bool
  deriving DecidableEq, Repr

/-- what can be said before any listing -/
inductive Intake where
  | answer (r : Response)
  | ask (job : Job)
  deriving DecidableEq, Repr

/-- what can be said with a listing -/
inductive Engagement where
  | answer (r : Response)
  | forward (f : Forwarding)
  /-- the handshake is accepted, and this URL is to be dialed -/
  | relay (url : String)
  deriving DecidableEq, Repr

/-- the listings and exchanges that a gateway depends on -/
structure World (σ : Type) where
  list : σ → Except LookupError Listing × σ
  exchange : Outbound → σ → Exchange × σ

/-- a world that also takes notice of the sockets that are dialed; the request is answered by then, so that no answer
depends on them -/
structure SocketWorld (σ : Type) extends World σ where
  dial : String → σ → σ

/-- the same world, which takes no notice of sockets -/
def World.unheeding {σ : Type} (w : World σ) : SocketWorld σ := { w with dial := fun _ s => s }

/-- whom a gateway contacted for a request -/
inductive Contact where
  | http (url : String)
  | socket (url : String)
  deriving DecidableEq, Repr

structure Handled where
  /-- the answer, unless the request became a socket -/
  response : Option Response
  /-- how many listings were asked for -/
  listings : Nat
  contact : Option Contact
  deriving DecidableEq, Repr

namespace Gateway

variable (g : Gateway)

def health (method : String) : Response :=
  if method = "GET" || method = "HEAD" then
    .ofText 200 "application/json" (Json.Doc.record
      [("service", .text g.config.service.name), ("status", .text "healthy")]).render
  else ⟨405, [Headers.textField "allow" "GET,HEAD"], []⟩

/-- the origin that a request gives, if it is readable -/
def originOf (r : Request) : Option String := Headers.text? r.headers "origin"

/-- a request that is routed to machines -/
def intakeJob (r : Request) (name : Option String) (path : String) : Intake :=
  let query := RoutedQuery.ofQuery r.uri.query
  let socket := Upgrade.asksForSocket r.headers
  if socket && !g.config.policy.permits (originOf r) then
    .answer (GatewayError.origin ((originOf r).getD "")).response
  else .ask ⟨query.name.or name, query.attach path, socket⟩

/-- what to do with a request before any listing -/
def intake (r : Request) : Intake :=
  match Route.ofPath r.uri.path with
  | .health => .answer (g.health r.method)
  | .unreadable part =>
    .answer (.ofText 400 "text/plain; charset=utf-8" ("Invalid URL: Invalid UTF-8 in `" ++ part ++ "`"))
  | .machine name path => g.intakeJob r name path

/-- the host by which the caller reaches the gateway -/
def publicHostFor (r : Request) : String :=
  match Headers.text? r.headers "host" with
  | some h => if h = "" then r.uri.authority.getD g.config.publicHost else h
  | none => r.uri.authority.getD g.config.publicHost

/-- what takes the place of the backend's authorities in the answer to a request -/
def publicBase (r : Request) (target : Option String) : String :=
  match target with
  | none => g.publicHostFor r
  | some n => g.publicHostFor r ++ namedPrefix ++ "/" ++ n

/-- what to do with a request once a listing, or the failure to get one, is known -/
def engage (connected : Bool) (r : Request) (job : Job) (listing : Except LookupError Listing) : Engagement :=
  match g.dialing.resolve listing job.target g.config.service.selector with
  | .error e => .answer (GatewayError.lookup e).response
  | .ok b =>
    if job.socket then
      match Upgrade.handshakeFault? connected r with
      | some f => .answer (GatewayError.handshake f.message).response
      | none => .relay ("ws://" ++ b.endpoint.text ++ job.pathAndQuery)
    else
      match Forwarding.start r b job.pathAndQuery (g.publicBase r job.target) with
      | .error e => .answer e.response
      | .ok f => .forward f

/-- answers a request with what the world gives, or dials the socket that it becomes -/
def handleIn {σ : Type} (w : SocketWorld σ) (connected : Bool) (s : σ) (r : Request) : Handled × σ :=
  match g.intake r with
  | .answer a => (⟨some a, 0, none⟩, s)
  | .ask job =>
    let (listing, s) := w.list s
    match g.engage connected r job listing with
    | .answer a => (⟨some a, 1, none⟩, s)
    | .relay url => (⟨none, 1, some (.socket url)⟩, w.dial url s)
    | .forward f =>
      let (e, s) := w.exchange f.outbound s
      match f.finish g.config.timeout e with
      | .ok a => (⟨some a, 1, some (.http f.target)⟩, s)
      | .error e => (⟨some e.response, 1, some (.http f.target)⟩, s)

/-- answers a request with what the world gives -/
def handle {σ : Type} (w : World σ) (connected : Bool) (s : σ) (r : Request) : Handled × σ :=
  g.handleIn w.unheeding connected s r

def handleAll {σ : Type} (w : World σ) (connected : Bool) : σ → List Request → List Handled × σ
  | s, [] => ([], s)
  | s, r :: rs =>
    let (h, s) := g.handle w connected s r
    let (hs, s) := handleAll w connected s rs
    (h :: hs, s)

end Gateway

end MachineGateway
