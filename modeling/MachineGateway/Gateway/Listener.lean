/-
The listener of a gateway: why it may fail to listen, and how long it goes on when it is told to stop. Requests in
flight are given a grace; the listener ends when the last of them is answered or the grace is over.
-/
import MachineGateway.Net.Address
import MachineGateway.Text.Span

namespace MachineGateway

/-- why a gateway does not listen at an address -/
structure BindError where
  address : String
  port : Nat
  reason : String
  deriving DecidableEq, Repr

def BindError.message (e : BindError) : String :=
  "Failed to bind to " ++ e.address ++ ": " ++ e.reason ++
    "\n\nTroubleshooting:\n  • Check if another process is using this port: lsof -i :" ++ toString e.port ++
    "\n  • Try using a different address or port"

/-- why an address that is taken cannot be listened at -/
def BindError.taken (address : Net.SocketAddress) : BindError :=
  ⟨address.hostText, address.port, "Address already in use (os error 98)"⟩

/-- how long a listener goes on when requests in flight need the given times -/
def drainTime (grace : Span) (remaining : List Span) : Span :=
  ⟨min grace.nanoseconds (remaining.foldl (fun n s => max n s.nanoseconds) 0)⟩

end MachineGateway
