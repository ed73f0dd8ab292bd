/-
Requests, responses, and what can become of a request handed to another server.
-/
import MachineGateway.Http.Headers
import MachineGateway.Http.Status
import MachineGateway.Http.Uri

namespace MachineGateway.Http

structure Request where
  method : String
  uri : Uri
  headers : Headers := []
  body : Bytes := []
  deriving DecidableEq, Repr, Inhabited

/-- a response with its whole body -/
structure Response where
  status : Nat
  headers : Headers := []
  body : Bytes := []
  deriving DecidableEq, Repr, Inhabited

namespace Response

/-- a response with a body of the given type -/
def ofText (status : Nat) (contentType body : String) : Response :=
  ⟨status, [Headers.textField "content-type" contentType], Utf8.encode body⟩

/-- the response as the caller of a method gets it: with the length of its body, and for HEAD without the body -/
def delivered (method : String) (r : Response) : Response :=
  let headers :=
    if (Headers.first? r.headers "content-length").isSome then r.headers
    else r.headers ++ [Headers.textField "content-length" (toString r.body.length)]
  ⟨r.status, headers, if method = "HEAD" then [] else r.body⟩

end Response

/-- a request as a client sends it: the target is what stands in the request line -/
structure Outbound where
  method : String
  uri : Uri
  headers : Headers
  body : Bytes := []
  deriving DecidableEq, Repr, Inhabited

/-- the host and port that an authority leads to -/
def place (authority : String) : String × Nat := (Uri.hostOf authority, (Uri.portOf authority).getD 80)

/-- the value of the `host` header for an authority: without user part, and without the usual port -/
def hostHeader (authority : String) : String :=
  match Uri.portOf authority with
  | none => Uri.hostOf authority
  | some 80 => Uri.hostOf authority
  | some p => Uri.hostOf authority ++ ":" ++ toString p

/-- the headers that are sent: with the host of the authority if no other is given -/
def Outbound.sentHeaders (o : Outbound) : Headers :=
  if (Headers.first? o.headers "host").isSome then o.headers
  else o.headers ++ [Headers.textField "host" (hostHeader (o.uri.authority.getD ""))]

/-- the headers that the framing of a message adds or replaces -/
def framing : List String := ["content-length", "transfer-encoding"]

/-- what became of a request handed to another server -/
inductive Exchange where
  | complete (r : Response)
  /-- nothing listens at the address -/
  | noConnection
  /-- the connection ended, or held something else, before the head of a response -/
  | noResponse
  /-- the body ended before its announced length -/
  | cutShort
  /-- the time for the exchange passed before the last byte of the body -/
  | late
  deriving DecidableEq, Repr

end MachineGateway.Http
