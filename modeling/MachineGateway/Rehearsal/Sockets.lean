/-
A relay between two scripted peers, on which a session can be rehearsed without sockets. The peers follow one script;
what a peer sends is relayed before the next thing happens, except where the script says that nobody looks yet. The
peers never answer on their own, while the sockets of the gateway answer a close with the same close.
-/
import MachineGateway.Rehearsal.Network
import MachineGateway.Relay.Session

namespace MachineGateway.Rehearsal

open Relay

/-- a peer of the gateway -/
inductive Side where
  | caller
  | backend
  deriving DecidableEq, Repr, Inhabited

namespace Side

/-- the leg that begins at a peer -/
def leg : Side → Leg
  | .caller => .inbound
  | .backend => .outbound

/-- the other peer -/
def other : Side → Side
  | .caller => .backend
  | .backend => .caller

end Side

inductive Act where
  | send (f : Frame UInt16)
  /-- it sends something that is no frame -/
  | garble
  /-- its connection ends -/
  | leave
  deriving DecidableEq, Repr

structure Line where
  side : Side
  act : Act
  /-- whether nobody looks at what becomes of it yet -/
  quiet : Bool := false
  /-- how many frames the other peer reads then, if not one -/
  reads : Option Nat := none
  /-- whether the other peer's connection is gone before anything that nobody looked at is written to it -/
  cut : Bool := false
  deriving DecidableEq, Repr

/-- what is seen after a line -/
inductive Sight where
  | nothing
  | frame (f : Frame UInt16)
  | frames (fs : List (Frame UInt16))
  /-- the line ends the relay -/
  | ended
  deriving DecidableEq, Repr

/-- a frame as a socket gives it to its reader: a close with a code that may not stand is one for a violation -/
def received : Frame UInt16 → Frame UInt16
  | .close (some note) =>
    if (CloseCode.ofNumber note.code).isAllowed then .close (some note)
    else .close (some ⟨CloseCode.protocol.number, "Protocol violation"⟩)
  | f => f

/-- a peer's account: what has arrived and not been read, what it has pinged, whether its connection is gone -/
structure Account where
  inbox : List (Frame UInt16) := []
  pings : List Bytes := []
  gone : Bool := false
  deriving DecidableEq, Repr

/-- whether a frame may be the answer to a ping of the peer itself -/
def Account.isAnswered (a : Account) : Frame UInt16 → Bool
  | .pong b => a.pings.contains b
  | _ => false

/-- the frames to read; answers to the peer's own pings are left out -/
def Account.unread (a : Account) : List (Frame UInt16) := a.inbox.filter fun f => !a.isAnswered f

/-- a rehearsal at some point of its script -/
structure Playback where
  session : Session := {}
  caller : Account := {}
  backend : Account := {}
  /-- what was sent and has not been relayed, in order -/
  waiting : List (Side × Reading UInt16) := []
  /-- the peer whose close the gateway has read, with the close -/
  closing : Option (Side × Option (CloseNote UInt16)) := none
  /-- whether the script has ended the relay -/
  ended : Bool := false
  deriving DecidableEq, Repr

namespace Playback

def account (p : Playback) : Side → Account
  | .caller => p.caller
  | .backend => p.backend

def change (p : Playback) (side : Side) (f : Account → Account) : Playback :=
  match side with
  | .caller => { p with caller := f p.caller }
  | .backend => { p with backend := f p.backend }

/-- what has been written to a peer -/
def written (s : Session) : Side → List (Frame UInt16)
  | .caller => s.outbound.sent
  | .backend => s.inbound.sent.map Frame.forCaller

/-- a reading with its close code in the backend's form -/
def readingForBackend : Reading UInt16 → Reading CloseCode
  | .frame f => .frame f.forBackend
  | .raw => .raw
  | .failed reason => .failed reason
  | .ended => .ended

/-- puts something into the source of a peer's leg -/
def offer (side : Side) (r : Reading UInt16) (s : Session) : Session :=
  match side with
  | .caller => { s with inbound := s.inbound.offer r }
  | .backend => { s with outbound := s.outbound.offer (readingForBackend r) }

/-- the steps by which a session ends once a leg has stopped; before that they change nothing -/
def settling : List Step :=
  Session.wholeCall .inbound ++ Session.wholeCall .outbound ++ [.select .inbound, .select .outbound] ++
    Session.wholeCall .inbound ++ Session.wholeCall .outbound ++ [.teardown, .teardown, .teardown]

/-- relays one thing that a peer sent -/
def relay (p : Playback) (sent : Side × Reading UInt16) : Playback :=
  let (side, r) := sent
  let before := written p.session side.other
  let session := (offer side r p.session).run ([.select side.leg, .select side.leg] ++ settling)
  let arrived := (written session side.other).drop before.length
  let closing := match r with
    | .frame (.close note) => if p.session.latch.done then p.closing else some (side, note)
    | _ => p.closing
  { p with session := session, closing := closing }.change side.other fun a => { a with inbox := a.inbox ++ arrived }

def flush (p : Playback) : Playback := p.waiting.foldl relay { p with waiting := [] }

/-- lets a peer read a number of frames -/
def read (p : Playback) (side : Side) (n : Nat) : List (Frame UInt16) × Playback :=
  let unread := (p.account side).unread
  (unread.take n, p.change side fun a => { a with inbox := unread.drop n })

/-- the playback when a peer's connection goes, if the relay goes on -/
def lose (p : Playback) (side : Side) : Playback :=
  if p.session.latch.done then p else p.change side fun a => { a with inbox := [], gone := true }

/-- the playback when nothing more can be written to a peer -/
def sever (p : Playback) (side : Side) : Playback :=
  let session := match side with
    | .caller => { p.session with outbound := p.session.outbound.breakSink "connection lost" }
    | .backend => { p.session with inbound := p.session.inbound.breakSink "connection lost" }
  { p.lose side with session := session }

def wait (p : Playback) (side : Side) (r : Reading UInt16) : Playback := { p with waiting := p.waiting ++ [(side, r)] }

/-- one line of the script, and what is seen after it -/
def line (p : Playback) (l : Line) : Sight × Playback :=
  match l.act with
  | .garble => (.ended, { (p.wait l.side (.failed "invalid frame")).flush with ended := true })
  | .leave => (.ended, { ((p.flush.lose l.side).wait l.side (.failed "connection lost")).flush with ended := true })
  | .send f =>
    let p := match f with
      | .ping b => p.change l.side fun a => { a with pings := b :: a.pings }
      | _ => p
    let p := p.wait l.side (.frame (received f))
    if l.cut then (.ended, { (p.sever l.side.other).flush with ended := true })
    else if l.quiet then (.nothing, p)
    else
      let p := { p.flush with ended := f.isClose }
      match l.reads with
      | none | some 1 =>
        match p.read l.side.other 1 with
        | (f :: _, p) => (.frame f, p)
        | ([], p) => (.nothing, p)
      | some n =>
        let (fs, p) := p.read l.side.other n
        (.frames fs, p)

/-- the lines of a script up to the one that ends the relay, and what is seen after each -/
def play : Playback → List Line → List Sight × Playback
  | p, [] => ([], p)
  | p, l :: ls =>
    let (sight, p) := p.line l
    if p.ended then ([sight], p)
    else
      let (sights, p) := play p ls
      (sight :: sights, p)

/-- what a peer still receives after the end -/
def rest (p : Playback) (side : Side) : List (Frame UInt16) :=
  let a := p.account side
  if a.gone then []
  else a.unread ++ match p.closing with
    | none => [.close none]
    | some (closer, note) => if closer = side then [.close note] else []

end Playback

/-- how a scripted backend takes a socket -/
inductive Reception where
  | opens
  /-- nothing listens -/
  | refuses
  /-- it answers the handshake with an error, with the end of the connection, or not at all -/
  | fails
  deriving DecidableEq, Repr, Inhabited

/-- the request that opens a socket, as its backend sees it -/
structure Knock where
  method : String := "GET"
  target : String
  /-- the names of its headers, in order -/
  headers : List String := ["connection", "host", "sec-websocket-key", "sec-websocket-version", "upgrade"]
  deriving DecidableEq, Repr

/-- the target of a socket URL, if it leads to an address -/
def socketTarget? (address url : String) : Option String :=
  match Http.Uri.parse url with
  | .error _ => none
  | .ok uri =>
    if uri.scheme = some "ws" && uri.authority.map Http.place = some (Http.place address) then some uri.pathAndQuery else none

/-- the request that a backend at an address sees when a URL is dialed -/
def Reception.knock? (r : Reception) (address url : String) : Option Knock :=
  match r with
  | .refuses => none
  | .opens | .fails => (socketTarget? address url).map fun target => { target := target }

/-- whether a socket is opened when a URL is dialed -/
def Reception.isOpened (r : Reception) (address url : String) : Bool :=
  r == .opens && (socketTarget? address url).isSome

end MachineGateway.Rehearsal
