/-
The options of the command line. Each takes a value; most can also be set by an environment variable, which counts
where the command line does not say, even if it is empty. Only the list of origins may be given more than once.
-/
import MachineGateway.Machine.Backend
import MachineGateway.Text.Decimal

namespace MachineGateway

inductive Flag where
  | config
  | listen
  | controlPlane
  | publicHost
  | serviceName
  | serviceTag
  | servicePort
  | backendHost
  | dialMode
  | forwardTimeout
  | discoveryTimeout
  | shutdownGrace
  | allowedOrigin
  | logLevel
  deriving DecidableEq, Repr, Inhabited

namespace Flag

/-- the options in their order -/
def all : List Flag :=
  [.config, .listen, .controlPlane, .publicHost, .serviceName, .serviceTag, .servicePort, .backendHost, .dialMode,
    .forwardTimeout, .discoveryTimeout, .shutdownGrace, .allowedOrigin, .logLevel]

def name : Flag → String
  | .config => "config"
  | .listen => "listen"
  | .controlPlane => "control-plane"
  | .publicHost => "public-host"
  | .serviceName => "service-name"
  | .serviceTag => "service-tag"
  | .servicePort => "service-port"
  | .backendHost => "backend-host"
  | .dialMode => "dial-mode"
  | .forwardTimeout => "forward-timeout-secs"
  | .discoveryTimeout => "discovery-timeout-secs"
  | .shutdownGrace => "shutdown-grace-secs"
  | .allowedOrigin => "allowed-origin"
  | .logLevel => "log-level"

/-- the option of a name -/
def ofName? (s : String) : Option Flag := all.find? fun f => f.name = s

/-- the environment variable that may set an option -/
def variableName? : Flag → Option String
  | .config => some "VMGATE_CONFIG"
  | .listen => some "VMGATE_LISTEN"
  | .controlPlane => some "VMGATE_CONTROL_PLANE"
  | .publicHost => some "VMGATE_PUBLIC_HOST"
  | .serviceName => some "VMGATE_SERVICE_NAME"
  | .serviceTag => some "VMGATE_SERVICE_TAG"
  | .servicePort => some "VMGATE_SERVICE_PORT"
  | .backendHost => some "VMGATE_BACKEND_HOST"
  | .dialMode => some "VMGATE_DIAL_MODE"
  | .forwardTimeout => some "VMGATE_FORWARD_TIMEOUT_SECS"
  | .discoveryTimeout => some "VMGATE_DISCOVERY_TIMEOUT_SECS"
  | .shutdownGrace => some "VMGATE_SHUTDOWN_GRACE_SECS"
  | .allowedOrigin | .logLevel => none

end Flag

structure Flags where
  config : Option String := none
  listen : Option String := none
  controlPlane : Option String := none
  publicHost : Option String := none
  serviceName : Option String := none
  serviceTag : Option String := none
  servicePort : Option String := none
  backendHost : Option String := none
  dialMode : Option DialMode := none
  forwardTimeout : Option Nat := none
  discoveryTimeout : Option Nat := none
  shutdownGrace : Option Nat := none
  allowedOrigins : List String := []
  logLevel : Option String := none
  deriving DecidableEq, Repr, Inhabited

/-- why a command line is not carried out -/
inductive UsageError where
  /-- an option stands without its value, or with an empty one where that is none -/
  | missingValue
  /-- the value of an option cannot be read -/
  | badValue
  | unknownArgument
  /-- an option is given twice -/
  | repeated
  /-- a word that takes no value has one -/
  | surplusValue
  | help
  | version
  deriving DecidableEq, Repr

namespace Flags

def number (value : String) : Except UsageError Nat :=
  match Text.number? Text.wordLimit value.toList with
  | some n => .ok n
  | none => .error .badValue

/-- sets an option to the value in a text -/
def put (f : Flags) (flag : Flag) (value : String) : Except UsageError Flags :=
  match flag with
  | .config => if value = "" then .error .missingValue else .ok { f with config := some value }
  | .listen => .ok { f with listen := some value }
  | .controlPlane => .ok { f with controlPlane := some value }
  | .publicHost => .ok { f with publicHost := some value }
  | .serviceName => .ok { f with serviceName := some value }
  | .serviceTag => .ok { f with serviceTag := some value }
  | .servicePort => .ok { f with servicePort := some value }
  | .backendHost => .ok { f with backendHost := some value }
  | .dialMode =>
    match DialMode.ofWord? value with
    | some m => .ok { f with dialMode := some m }
    | none => .error .badValue
  | .forwardTimeout => (number value).map fun n => { f with forwardTimeout := some n }
  | .discoveryTimeout => (number value).map fun n => { f with discoveryTimeout := some n }
  | .shutdownGrace => (number value).map fun n => { f with shutdownGrace := some n }
  | .allowedOrigin => .ok { f with allowedOrigins := f.allowedOrigins ++ [value] }
  | .logLevel => .ok { f with logLevel := some value }

end Flags

end MachineGateway
