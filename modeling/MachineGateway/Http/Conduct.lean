/-
How a server conducts itself towards one request, and what the client makes of it. The client waits for the head of a
response, past any informational heads, and then for its body. Either may fail or never come, and one time limit is set
to both together. Times are in nanoseconds.
-/
import MachineGateway.Http.Message
import MachineGateway.Text.Span

namespace MachineGateway.Http

/-- what is waited for: a result or a failure after a time, or nothing ever -/
inductive Awaited (ε α : Type) where
  | never
  | gives (t : Nat) (result : Except ε α)
  deriving Repr

namespace Awaited

variable {ε α β : Type}

/-- the same, that much later -/
def delayed (t : Nat) : Awaited ε α → Awaited ε α
  | never => never
  | gives t' result => gives (t + t') result

/-- waits for a result, and then for what it leads to; a failure ends the waiting -/
def andThen (a : Awaited ε α) (next : α → Awaited ε β) : Awaited ε β :=
  match a with
  | never => never
  | gives t (.error e) => gives t (.error e)
  | gives t (.ok x) => (next x).delayed t

/-- what is there before the time is over; what is there at once always is -/
def within (limit : Nat) : Awaited ε α → Option (Except ε α)
  | never => none
  | gives t result => if limit ≤ t && 0 < t then none else some result

end Awaited

/-- why an exchange fails, apart from the time that it takes -/
inductive Failure where
  | noConnection
  | noResponse
  | cutShort
  deriving DecidableEq, Repr, Inhabited

def Failure.exchange : Failure → Exchange
  | .noConnection => .noConnection
  | .noResponse => .noResponse
  | .cutShort => .cutShort

/-- bytes in pieces, each with the time since the one before it, and what comes after the last one, if anything does -/
structure Inflow (ε : Type) where
  pieces : List (Nat × Bytes) := []
  ending : Option (Nat × ε) := none
  deriving DecidableEq, Repr, Inhabited

/-- reads an inflow of which some bytes have arrived, until they are enough or it ends; `finish` says what its end makes
of them -/
def Inflow.read {ε : Type} (enough : Bytes → Bool) (finish : ε → Bytes → Except Failure Bytes)
    (ending : Option (Nat × ε)) (arrived : Bytes) : List (Nat × Bytes) → Awaited Failure Bytes
  | [] =>
    if enough arrived then .gives 0 (.ok arrived)
    else match ending with
      | none => .never
      | some (t, e) => .gives t (finish e arrived)
  | (t, piece) :: pieces =>
    if enough arrived then .gives 0 (.ok arrived)
    else (read enough finish ending (arrived ++ piece) pieces).delayed t

/-- how a connection ends -/
inductive Close where
  /-- the server says that nothing more comes -/
  | orderly
  /-- the connection is lost -/
  | lost
  deriving DecidableEq, Repr, Inhabited

/-- what comes in the place of another chunk -/
inductive ChunkEnd where
  /-- the chunk that is marked as the last one -/
  | last
  /-- bytes that begin no chunk -/
  | garbage
  /-- the end of the connection -/
  | closed (how : Close)
  deriving DecidableEq, Repr, Inhabited

/-- a body on its way; the head of its response says how its end is to be known: by its length, by a last chunk, or by
the end of the connection -/
inductive Body where
  | sized (length : Nat) (s : Inflow Close)
  | chunked (s : Inflow ChunkEnd)
  | toEnd (s : Inflow Close)
  deriving DecidableEq, Repr

/-- what the end of a connection makes of a body that goes up to it -/
def Close.finish : Close → Bytes → Except Failure Bytes
  | .orderly, b => .ok b
  | .lost, _ => .error .cutShort

/-- what the end of a body in chunks makes of it -/
def ChunkEnd.finish : ChunkEnd → Bytes → Except Failure Bytes
  | .last, b => .ok b
  | .garbage, _ | .closed _, _ => .error .cutShort

/-- the bytes of a body, once all of them are there -/
def Body.collect : Body → Awaited Failure Bytes
  | .sized n s =>
    (Inflow.read (fun b => n ≤ b.length) (fun _ _ => .error .cutShort) s.ending [] s.pieces).andThen fun b =>
      .gives 0 (.ok (b.take n))
  | .chunked s => Inflow.read (fun _ => false) ChunkEnd.finish s.ending [] s.pieces
  | .toEnd s => Inflow.read (fun _ => false) Close.finish s.ending [] s.pieces

/-- a response whose body is on its way; its head is the final one -/
structure Incoming where
  status : Nat
  headers : Headers := []
  body : Body
  final : isInformational status = false
  deriving DecidableEq, Repr

/-- the whole response to a request; some responses end with their head -/
def Incoming.collect (method : String) (r : Incoming) : Awaited Failure Response :=
  if endsWithHead method r.status then .gives 0 (.ok ⟨r.status, r.headers, []⟩)
  else r.body.collect.andThen fun b => .gives 0 (.ok ⟨r.status, r.headers, b⟩)

/-- how a server conducts itself towards a request -/
inductive Conduct where
  /-- it cannot be connected to -/
  | refused (t : Nat)
  /-- the connection ends before the final head of a response, or something comes that is no head -/
  | unanswered (t : Nat)
  /-- no final head ever comes -/
  | silent
  /-- the final head of a response comes after a time, in which any informational heads before it are passed over -/
  | answered (t : Nat) (r : Incoming)
  deriving DecidableEq, Repr

namespace Conduct

/-- the response to a request, up to its final head -/
def request : Conduct → Awaited Failure Incoming
  | .refused t => .gives t (.error .noConnection)
  | .unanswered t => .gives t (.error .noResponse)
  | .silent => .never
  | .answered t r => .gives t (.ok r)

/-- what becomes of a request, with one time limit for the head and the body -/
def exchange (method : String) (limit : Span) (c : Conduct) : Exchange :=
  match (c.request.andThen fun r => r.collect method).within limit.nanoseconds with
  | none => .late
  | some (.error e) => e.exchange
  | some (.ok r) => .complete r

end Conduct

end MachineGateway.Http
