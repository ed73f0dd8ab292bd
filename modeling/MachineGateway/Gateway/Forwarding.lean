/-
Forwarding a plain request. The backend gets the caller's method, headers and body, without the headers that name
the gateway and without those that would let it compress its answer; the caller gets the backend's answer with the
socket URLs in a text body pointing back at the gateway.
-/
import MachineGateway.Gateway.Config
import MachineGateway.Gateway.Error
import MachineGateway.SocketUrl

namespace MachineGateway

open Http

structure Forwarding where
  target : String
  outbound : Outbound
  backend : Backend
  /-- what takes the place of the backend's authorities in the answer -/
  publicBase : String
  deriving DecidableEq, Repr

namespace Forwarding

/-- the headers of a request that are not passed on -/
def withheld : List String := ["host", "x-forwarded-host", "accept-encoding"]

/-- the headers of a response that the new body makes wrong -/
def outdated : List String := ["content-length", "transfer-encoding"]

/-- the request to a backend for a path and query, if they make a URL -/
def start (r : Request) (b : Backend) (pathAndQuery publicBase : String) : Except GatewayError Forwarding :=
  let target := "http://" ++ b.endpoint.text ++ pathAndQuery
  match Uri.parse target with
  | .error e => .error (.badTarget ("invalid target URI " ++ target ++ ": " ++ e.message))
  | .ok uri => .ok ⟨target, ⟨r.method, uri, Headers.without withheld r.headers, r.body⟩, b, publicBase⟩

/-- whether socket URLs in a body with these headers are rewritten -/
def isRewritable (h : Headers) : Bool :=
  match Headers.first? h "content-type" with
  | none => true
  | some v => match visibleText? v with
    | none => false
    | some t => SocketUrl.isTextType t

/-- the caller's response, made from the backend's -/
def translate (f : Forwarding) (r : Response) : Response :=
  let headers := Headers.without outdated r.headers
  if isRewritable headers then
    ⟨r.status, headers, SocketUrl.rewriteAll (f.backend.authorities.map Utf8.encode) (Utf8.encode f.publicBase) r.body⟩
  else ⟨r.status, headers, r.body⟩

/-- the caller's response, or why there is none -/
def finish (f : Forwarding) (timeout : Span) : Exchange → Except GatewayError Response
  | .complete r => .ok (f.translate r)
  | .noConnection => .error (.backend (f.target ++ ": client error (Connect)"))
  | .noResponse => .error (.backend (f.target ++ ": client error (SendRequest)"))
  | .cutShort => .error (.backend ("reading body from " ++ f.target ++ ": error reading a body from connection"))
  | .late => .error (.backend (f.target ++ " timed out after " ++ timeout.text))

end Forwarding

end MachineGateway
