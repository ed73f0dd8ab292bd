/-
Which web pages may open sockets. A policy either allows every origin or lists the origins that it allows, written
without white space around them, without slashes at the end and in lower case. A caller without an origin is no web
page and always allowed.
-/
import MachineGateway.Json.Reading
import MachineGateway.Json.Write
import MachineGateway.Text.Blank

namespace MachineGateway

open Json

/-- the origins that may open sockets; without a list, all -/
structure UpgradePolicy where
  allowed : Option (List String) := none
  deriving DecidableEq, Repr, Inhabited

namespace UpgradePolicy

/-- the form in which origins are compared -/
def normalize (origin : String) : String := Text.lowerAscii (Text.trimEnd '/' (Text.trim origin))

def allowAll : UpgradePolicy := {}

/-- the policy that allows the given origins, however they are written -/
def allowOrigins (origins : List String) : UpgradePolicy := ⟨some (origins.map normalize)⟩

/-- whether a caller may open a socket -/
def permits (p : UpgradePolicy) : (origin : Option String) → Bool
  | none => true
  | some o =>
    match p.allowed with
    | none => true
    | some l => l.contains (normalize o)

/-- how a policy is read: its list is taken as it stands -/
def form : Form (Option (Option (List String))) UpgradePolicy where
  title := "struct UpgradePolicy"
  fields := [("allowed_origins", false)]
  start := none
  has d _ := d.isSome
  put _ _ v := (readOptional (readList readText) v).map some
  finish d := .ok ⟨d.getD none⟩

def read : Reader UpgradePolicy := form.read

def doc (p : UpgradePolicy) : Doc := .record [("allowed_origins", optionalDoc (listDoc .text) p.allowed)]

end UpgradePolicy

end MachineGateway
