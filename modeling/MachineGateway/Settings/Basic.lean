/-
The settings of a run. Each is decided on its own: by the command line or the environment, else by the file, else by
its default. Only the listen address has to be of a certain form.
-/
import MachineGateway.Gateway.Config
import MachineGateway.Net.Address
import MachineGateway.Settings.File
import MachineGateway.Settings.Flags

namespace MachineGateway

structure Settings where
  listen : Net.SocketAddress
  controlPlane : String
  publicHost : String
  service : ServiceProfile
  dialing : Dialing
  forwardTimeout : Span
  discoveryTimeout : Span
  shutdownGrace : Span
  policy : UpgradePolicy
  logLevel : String
  deriving DecidableEq, Repr

namespace Settings

def defaultListen : String := "0.0.0.0:3007"

/-- the first that is present -/
def pick {α : Type} (flag file : Option α) (fallback : α) : α := (flag.or file).getD fallback

/-- why there are no settings: the listen address is none -/
structure ListenError where
  address : String
  deriving DecidableEq, Repr

def ListenError.message (e : ListenError) : String := "Invalid listen address: " ++ e.address

def ListenError.cause : String := "invalid socket address syntax"

/-- the origins that may open sockets: the options' if there are any, else the file's -/
def origins (flags : Flags) (file : FileSettings) : Option (List String) :=
  if flags.allowedOrigins.isEmpty then file.allowedOrigins else some flags.allowedOrigins

/-- the policy for a list of origins; without a list, every origin is allowed -/
def policyOf : Option (List String) → UpgradePolicy
  | none => .allowAll
  | some origins => .allowOrigins origins

/-- the settings that options and a file decide -/
def resolve (flags : Flags) (file : FileSettings) : Except ListenError Settings :=
  let address := pick flags.listen file.listen defaultListen
  match Net.SocketAddress.parse? address with
  | none => .error ⟨address⟩
  | some listen => .ok {
      listen := listen
      controlPlane := pick flags.controlPlane file.controlPlane "http://127.0.0.1:7000"
      publicHost := pick flags.publicHost file.publicHost "localhost:3007"
      service :=
        ⟨pick flags.serviceName file.serviceName "cdp",
          ⟨pick flags.serviceTag file.serviceTag "cdp", flags.servicePort.or file.servicePort⟩⟩
      dialing := ⟨pick flags.dialMode file.dialMode .mapped, pick flags.backendHost file.backendHost "127.0.0.1"⟩
      forwardTimeout := .ofSeconds (pick flags.forwardTimeout file.forwardTimeout 10)
      discoveryTimeout := .ofSeconds (pick flags.discoveryTimeout file.discoveryTimeout 5)
      shutdownGrace := .ofSeconds (pick flags.shutdownGrace file.shutdownGrace 30)
      policy := policyOf (origins flags file)
      logLevel := pick flags.logLevel file.logLevel "info" }

/-- the setup of the gateway that the settings describe -/
def gatewayConfig (s : Settings) : GatewayConfig := ⟨s.publicHost, s.service, s.forwardTimeout, s.policy⟩

end Settings

end MachineGateway
