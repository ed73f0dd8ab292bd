/-
Asking the control plane for its listing. One request is sent, redirects are followed up to a limit, and the body of
a successful answer is read as a listing. How a request becomes an exchange, and with which effects, is left to the
caller.
-/
import MachineGateway.Http.Message
import MachineGateway.Http.Url
import MachineGateway.Machine.Wire

namespace MachineGateway.ControlPlane

open Http

def listingPath : String := "/v1/vms"

/-- the URL of the listing of a control plane, however many slashes end its address -/
def listingUrl (base : String) : String := Text.trimEnd '/' base ++ listingPath

inductive ListingFault where
  | address
  | exchange
  | redirects
  /-- the answer does not say that the request was met -/
  | status (code : Nat)
  /-- the body is no listing -/
  | body (fault : Json.Fault)
  deriving DecidableEq, Repr

def readingMessage : Json.Fault → String
  | .flaw .malformed => "invalid JSON"
  | .flaw .ended => "unexpected end of JSON"
  | .misfit m => m.message

/-- the fault as a request meets it -/
def ListingFault.error (url : String) : ListingFault → LookupError
  | .address => .unreachable (url ++ ": builder error for url (" ++ url ++ ")")
  | .exchange => .unreachable (url ++ ": error sending request for url (" ++ url ++ ")")
  | .redirects => .unreachable (url ++ ": error following redirect for url (" ++ url ++ ")")
  | .status code => .unreachable (url ++ " returned HTTP " ++ statusText code)
  | .body f => .malformed (readingMessage f)

/-- the most requests of one listing call: the first and those that redirects ask for -/
def requestLimit : Nat := 10

/-- a status that sends the client elsewhere -/
def isRedirect (code : Nat) : Bool := [301, 302, 303, 307, 308].contains code

def request (u : Url) (headers : Headers) : Outbound where
  method := "GET"
  uri := ⟨some (if u.secure then "https" else "http"), some u.hostHeader, u.path, u.query⟩
  headers := headers

/-- where a response sends the client: nowhere, to an address, or to something that cannot be asked -/
def redirection (u : Url) (r : Response) : Option (Except UrlError Url) :=
  if !isRedirect r.status then none
  else match (Headers.first? r.headers "location").bind Utf8.decode? with
    | none => none
    | some place =>
      match u.join place with
      | .error .invalid => none
      | found => some found

/-- the headers after a redirect: the address left behind, and no login at another host -/
def carried (u next : Url) (headers : Headers) : Headers :=
  let headers := Headers.without ["referer"] headers
  let headers := if u.hostHeader = next.hostHeader then headers else Headers.without ["authorization"] headers
  headers ++ [Headers.textField "referer" u.text]

/-- the response at an address, after at most `left` redirects -/
def fetch {m : Type → Type} [Monad m] (exchange : Outbound → m Exchange) :
    (left : Nat) → Url → Headers → m (Except ListingFault Response)
  | left, u, headers => do
    match ← exchange (request u headers) with
    | .complete r =>
      match redirection u r with
      | none => pure (.ok r)
      | some (.error _) => pure (.error .address)
      | some (.ok next) =>
        match left with
        | 0 => pure (.error .redirects)
        | left + 1 => fetch exchange left next (carried u next headers)
    | _ => pure (.error .exchange)

def listingOf (r : Response) : Except ListingFault Listing :=
  if !isSuccess r.status then .error (.status r.status)
  else match Json.fromBytes Listing.read r.body with
    | .ok l => .ok l
    | .error f => .error (.body f)

def firstHeaders (u : Url) : Headers :=
  Headers.textField "accept" "application/json" ::
    (match u.credentials? with
      | none => []
      | some c => [Headers.textField "authorization" c])

/-- one listing call at a control plane -/
def list {m : Type → Type} [Monad m] (exchange : Outbound → m Exchange) (base : String) :
    m (Except ListingFault Listing) := do
  match Url.parse (listingUrl base) with
  | .error _ => pure (.error .address)
  | .ok u =>
    match ← fetch exchange (requestLimit - 1) u (firstHeaders u) with
    | .error f => pure (.error f)
    | .ok r => pure (listingOf r)

/-- a source of listings at a control plane -/
def source {m : Type → Type} [Monad m] (exchange : Outbound → m Exchange) (base : String) :
    m (Except LookupError Listing) := do
  match ← list exchange base with
  | .ok l => pure (.ok l)
  | .error f => pure (.error (f.error (listingUrl base)))

end MachineGateway.ControlPlane
