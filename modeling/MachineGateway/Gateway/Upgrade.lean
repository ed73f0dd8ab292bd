/-
Requests for a socket. `asksForSocket` tells them from plain ones; `handshakeFault?` names the first rule of the
opening handshake that such a request breaks.
-/
import MachineGateway.Http.Message
import MachineGateway.Text.Split

namespace MachineGateway

open Http

namespace Upgrade

/-- the tokens of a header value that is a comma-separated list -/
def tokens (value : String) : List String :=
  (Text.splitAt ',' value.toList).map fun cs => Text.trim (String.ofList cs)

/-- whether a token of some readable `connection` value is `upgrade`, in any case -/
def connectionUpgrades (h : Headers) : Bool :=
  ((Headers.values h "connection").filterMap visibleText?).any fun v =>
    (tokens v).any fun t => Text.sameLetters t "upgrade"

/-- whether the first `upgrade` value is `websocket`, in any case -/
def upgradesToSocket (h : Headers) : Bool :=
  match Headers.text? h "upgrade" with
  | none => false
  | some v => Text.sameLetters (Text.trim v) "websocket"

def asksForSocket (h : Headers) : Bool := connectionUpgrades h && upgradesToSocket h

/-- which rule of the opening handshake is broken -/
inductive HandshakeFault where
  | method
  | connection
  | upgrade
  | key
  | version
  /-- the request did not come over a connection that could become a socket -/
  | transport
  deriving DecidableEq, Repr

def HandshakeFault.message : HandshakeFault → String
  | .method => "Request method must be `GET`"
  | .connection => "Connection header did not include 'upgrade'"
  | .upgrade => "`Upgrade` header did not include 'websocket'"
  | .key => "`Sec-WebSocket-Key` header missing"
  | .version => "`Sec-WebSocket-Version` header did not include '13'"
  | .transport => "WebSocket request couldn't be upgraded since no upgrade state was present"

/-- ASCII letters in lower case -/
def lowerByte (b : UInt8) : UInt8 := if 0x41 ≤ b && b ≤ 0x5A then b + 0x20 else b

/-- whether the first value of a header is the given text, in any case -/
def headerIs (h : Headers) (name value : String) : Bool :=
  match Headers.first? h name with
  | none => false
  | some v => v.map lowerByte == (Utf8.encode value).map lowerByte

/-- whether the first value of a header is text that holds the given text, in any case -/
def headerHolds (h : Headers) (name value : String) : Bool :=
  match Headers.first? h name with
  | none => false
  | some v => (Utf8.decode? v).isSome && Text.occurs (Utf8.encode value) (v.map lowerByte)

/-- the first rule that a request for a socket breaks -/
def handshakeFault? (connected : Bool) (r : Request) : Option HandshakeFault :=
  if r.method != "GET" then some .method
  else if !headerHolds r.headers "connection" "upgrade" then some .connection
  else if !headerIs r.headers "upgrade" "websocket" then some .upgrade
  else if (Headers.first? r.headers "sec-websocket-key").isNone then some .key
  else if !headerIs r.headers "sec-websocket-version" "13" then some .version
  else if !connected then some .transport
  else none

end Upgrade

end MachineGateway
