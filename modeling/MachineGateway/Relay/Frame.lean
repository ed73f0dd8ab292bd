/-
Frames. The caller's socket knows a close code as a number, the backend's socket as what the number means; a frame
crosses a relay with nothing changed but this form, and turning a number into its meaning and back gives the number.
-/
import MachineGateway.Text.Utf8

namespace MachineGateway.Relay

/-- what a close code means -/
inductive CloseCode where
  | normal
  | away
  | protocol
  | unsupported
  /-- no code was given -/
  | absent
  /-- the connection was lost -/
  | abnormal
  | invalid
  | policy
  | size
  | extension
  | error
  | restart
  | again
  /-- the secure connection was not made -/
  | insecure
  /-- kept for later versions of the protocol -/
  | reserved (n : UInt16)
  /-- registered by others -/
  | registered (n : UInt16)
  /-- for use between applications -/
  | application (n : UInt16)
  /-- no code at all -/
  | bad (n : UInt16)
  deriving DecidableEq, Repr, Inhabited

namespace CloseCode

def number : CloseCode → UInt16
  | .normal => 1000
  | .away => 1001
  | .protocol => 1002
  | .unsupported => 1003
  | .absent => 1005
  | .abnormal => 1006
  | .invalid => 1007
  | .policy => 1008
  | .size => 1009
  | .extension => 1010
  | .error => 1011
  | .restart => 1012
  | .again => 1013
  | .insecure => 1015
  | .reserved n | .registered n | .application n | .bad n => n

/-- the codes with a meaning of their own -/
def named : List CloseCode :=
  [.normal, .away, .protocol, .unsupported, .absent, .abnormal, .invalid, .policy, .size, .extension, .error,
    .restart, .again, .insecure]

def ofNumber (n : UInt16) : CloseCode :=
  match named.find? fun c => c.number == n with
  | some c => c
  | none =>
    if 1016 ≤ n && n ≤ 2999 then .reserved n
    else if 3000 ≤ n && n ≤ 3999 then .registered n
    else if 4000 ≤ n && n ≤ 4999 then .application n
    else .bad n

/-- whether a close frame may carry the code -/
def isAllowed : CloseCode → Bool
  | .absent | .abnormal | .insecure | .reserved _ | .bad _ => false
  | _ => true

end CloseCode

/-- why a socket is closed; `κ` is the form of the code -/
structure CloseNote (κ : Type) where
  code : κ
  reason : String := ""
  deriving DecidableEq, Repr

inductive Frame (κ : Type) where
  | text (s : String)
  | binary (b : Bytes)
  | ping (b : Bytes)
  | pong (b : Bytes)
  | close (note : Option (CloseNote κ))
  deriving DecidableEq, Repr

namespace Frame

def isClose {κ : Type} : Frame κ → Bool
  | .close _ => true
  | _ => false

/-- the frame with its close code in another form -/
def mapCode {κ μ : Type} (f : κ → μ) : Frame κ → Frame μ
  | .text s => .text s
  | .binary b => .binary b
  | .ping b => .ping b
  | .pong b => .pong b
  | .close note => .close (note.map fun n => ⟨f n.code, n.reason⟩)

/-- a caller's frame for the backend -/
def forBackend (f : Frame UInt16) : Frame CloseCode := f.mapCode CloseCode.ofNumber

/-- a backend's frame for the caller -/
def forCaller (f : Frame CloseCode) : Frame UInt16 := f.mapCode CloseCode.number

end Frame

end MachineGateway.Relay
