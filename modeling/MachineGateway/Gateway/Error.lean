/-
Why a request was not met. The answer to such a request is a JSON object with the error in words and its kind.
-/
import MachineGateway.Http.Message
import MachineGateway.Json.Write
import MachineGateway.Machine.Selection

namespace MachineGateway

open Json Http

inductive GatewayError where
  | lookup (e : LookupError)
  | badTarget (reason : String)
  /-- the exchange with the backend was not completed -/
  | backend (reason : String)
  /-- the caller's origin may not open sockets -/
  | origin (text : String)
  /-- the request asks for a socket in the wrong way -/
  | handshake (reason : String)
  deriving DecidableEq, Repr

namespace GatewayError

def message : GatewayError → String
  | .lookup e => e.message
  | .badTarget reason => "Bad request: " ++ reason
  | .backend reason => "Backend unreachable: " ++ reason
  | .origin text => "Origin not permitted: " ++ text
  | .handshake reason => "Upgrade handshake failed: " ++ reason

/-- the error's kind, one word for callers to match on -/
def kind : GatewayError → String
  | .lookup e => e.kind
  | .badTarget _ => "bad_request"
  | .backend _ => "backend_unreachable"
  | .origin _ => "origin_rejected"
  | .handshake _ => "upgrade_failed"

def status : GatewayError → Nat
  | .lookup _ => 503
  | .badTarget _ => 500
  | .backend _ => 502
  | .origin _ => 403
  | .handshake _ => 400

def doc (e : GatewayError) : Doc := .record [("error", .text e.message), ("kind", .text e.kind)]

def response (e : GatewayError) : Response := .ofText e.status "application/json" e.doc.render

end GatewayError

end MachineGateway
