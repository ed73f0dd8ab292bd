/-
The configuration file: a section of settings, each of which may be left out. It is read from YAML, where an entry
may stand once, and it can be written as JSON and read back.
-/
import MachineGateway.Machine.Wire
import MachineGateway.Text.Quoted
import MachineGateway.Yaml.Document

namespace MachineGateway

open Json

structure FileSettings where
  listen : Option String := none
  controlPlane : Option String := none
  publicHost : Option String := none
  serviceName : Option String := none
  serviceTag : Option String := none
  servicePort : Option String := none
  backendHost : Option String := none
  dialMode : Option DialMode := none
  forwardTimeout : Option Nat := none
  discoveryTimeout : Option Nat := none
  shutdownGrace : Option Nat := none
  allowedOrigins : Option (List String) := none
  logLevel : Option String := none
  deriving DecidableEq, Repr, Inhabited

namespace FileSettings

def names : List String :=
  ["listen", "control_plane", "public_host", "service_name", "service_tag", "service_port", "backend_host",
    "dial_mode", "forward_timeout_secs", "discovery_timeout_secs", "shutdown_grace_secs", "allowed_origins",
    "log_level"]

/-- the settings found so far, with the names that were found -/
structure Draft where
  found : List String := []
  settings : FileSettings := {}

/-- reads the value of a setting -/
def put (f : FileSettings) (name : String) (v : Doc) : Except Fault FileSettings :=
  if name = "listen" then (readOptional readText v).map fun x => { f with listen := x }
  else if name = "control_plane" then (readOptional readText v).map fun x => { f with controlPlane := x }
  else if name = "public_host" then (readOptional readText v).map fun x => { f with publicHost := x }
  else if name = "service_name" then (readOptional readText v).map fun x => { f with serviceName := x }
  else if name = "service_tag" then (readOptional readText v).map fun x => { f with serviceTag := x }
  else if name = "service_port" then (readOptional readText v).map fun x => { f with servicePort := x }
  else if name = "backend_host" then (readOptional readText v).map fun x => { f with backendHost := x }
  else if name = "dial_mode" then (readOptional DialMode.read v).map fun x => { f with dialMode := x }
  else if name = "forward_timeout_secs" then (readOptional readWord v).map fun x => { f with forwardTimeout := x }
  else if name = "discovery_timeout_secs" then (readOptional readWord v).map fun x => { f with discoveryTimeout := x }
  else if name = "shutdown_grace_secs" then (readOptional readWord v).map fun x => { f with shutdownGrace := x }
  else if name = "allowed_origins" then
    (readOptional (readList readText) v).map fun x => { f with allowedOrigins := x }
  else (readOptional readText v).map fun x => { f with logLevel := x }

def form : Form Draft FileSettings where
  title := "struct FileSettings"
  fields := names.map (·, true)
  start := {}
  has d name := d.found.contains name
  put d name v := (d.settings.put name v).map fun f => ⟨name :: d.found, f⟩
  finish d := .ok d.settings

def read : Reader FileSettings := form.read

def numberDoc (n : Nat) : Doc := .number (.natural n)

def doc (f : FileSettings) : Doc :=
  .record [("listen", optionalDoc .text f.listen), ("control_plane", optionalDoc .text f.controlPlane),
    ("public_host", optionalDoc .text f.publicHost), ("service_name", optionalDoc .text f.serviceName),
    ("service_tag", optionalDoc .text f.serviceTag), ("service_port", optionalDoc .text f.servicePort),
    ("backend_host", optionalDoc .text f.backendHost), ("dial_mode", optionalDoc DialMode.doc f.dialMode),
    ("forward_timeout_secs", optionalDoc numberDoc f.forwardTimeout),
    ("discovery_timeout_secs", optionalDoc numberDoc f.discoveryTimeout),
    ("shutdown_grace_secs", optionalDoc numberDoc f.shutdownGrace),
    ("allowed_origins", optionalDoc (listDoc .text) f.allowedOrigins), ("log_level", optionalDoc .text f.logLevel)]

/-- the mode that a scalar names by its exact word -/
def modeOfNode? (n : Yaml.Node) : Option DialMode :=
  n.text?.bind fun s => if s = "mapped" then some .mapped else if s = "direct" then some .direct else none

/-- reads the value of a setting from YAML -/
def putNode? (f : FileSettings) (name : String) (v : Yaml.Node) : Option FileSettings :=
  if name = "listen" then (v.optional? Yaml.Node.text?).map fun x => { f with listen := x }
  else if name = "control_plane" then (v.optional? Yaml.Node.text?).map fun x => { f with controlPlane := x }
  else if name = "public_host" then (v.optional? Yaml.Node.text?).map fun x => { f with publicHost := x }
  else if name = "service_name" then (v.optional? Yaml.Node.text?).map fun x => { f with serviceName := x }
  else if name = "service_tag" then (v.optional? Yaml.Node.text?).map fun x => { f with serviceTag := x }
  else if name = "service_port" then (v.optional? Yaml.Node.text?).map fun x => { f with servicePort := x }
  else if name = "backend_host" then (v.optional? Yaml.Node.text?).map fun x => { f with backendHost := x }
  else if name = "dial_mode" then (v.optional? modeOfNode?).map fun x => { f with dialMode := x }
  else if name = "forward_timeout_secs" then (v.optional? Yaml.Node.number?).map fun x => { f with forwardTimeout := x }
  else if name = "discovery_timeout_secs" then
    (v.optional? Yaml.Node.number?).map fun x => { f with discoveryTimeout := x }
  else if name = "shutdown_grace_secs" then (v.optional? Yaml.Node.number?).map fun x => { f with shutdownGrace := x }
  else if name = "allowed_origins" then (v.optional? Yaml.Node.texts?).map fun x => { f with allowedOrigins := x }
  else (v.optional? Yaml.Node.text?).map fun x => { f with logLevel := x }

/-- reads entries; other names are passed over, and no setting may stand twice -/
def ofEntries? : Draft → List (String × Yaml.Node) → Option FileSettings
  | d, [] => some d.settings
  | d, (name, v) :: es =>
    if !names.contains name then ofEntries? d es
    else if d.found.contains name then none
    else match d.settings.putNode? name v with
      | none => none
      | some f => ofEntries? ⟨name :: d.found, f⟩ es

/-- the settings in a YAML value -/
def ofNode? (n : Yaml.Node) : Option FileSettings := n.entries?.bind (ofEntries? {})

/-- the names of the settings that are given -/
def given (f : FileSettings) : List String :=
  match f.doc with
  | .object members _ => members.filterMap fun
    | (_, .null) => none
    | (.text name, _) => some name
    | _ => none
  | _ => []

end FileSettings

structure ConfigFile where
  gateway : FileSettings := {}
  deriving DecidableEq, Repr, Inhabited

namespace ConfigFile

def form : Form (Option FileSettings) ConfigFile where
  title := "struct ConfigFile"
  fields := [("gateway", true)]
  start := none
  has d _ := d.isSome
  put _ _ v := (FileSettings.read v).map some
  finish d := .ok ⟨d.getD {}⟩

def read : Reader ConfigFile := form.read

def doc (c : ConfigFile) : Doc := .record [("gateway", c.gateway.doc)]

/-- reads entries; other names are passed over, and the section may not stand twice -/
def ofEntries? : Option FileSettings → List (String × Yaml.Node) → Option ConfigFile
  | found, [] => some ⟨found.getD {}⟩
  | found, (name, v) :: es =>
    if name != "gateway" then ofEntries? found es
    else if found.isSome then none
    else match FileSettings.ofNode? v with
      | none => none
      | some f => ofEntries? (some f) es

/-- the file in a YAML text -/
def ofYaml? (s : String) : Option ConfigFile :=
  (Yaml.Node.ofText? s).bind fun n => n.entries?.bind (ofEntries? none)

/-- why there is no configuration -/
inductive LoadError where
  /-- there is no such file, or it is no text -/
  | unreadable (name : String)
  | malformed
  deriving DecidableEq, Repr

def LoadError.message : LoadError → String
  | .unreadable name => "Failed to read config file: " ++ Text.shown name
  | .malformed => "Failed to parse YAML config"

/-- the configuration in a file with the given content, if there is the file -/
def load (name : String) (content : Option Bytes) : Except LoadError ConfigFile :=
  match content.bind Utf8.decode? with
  | none => .error (.unreadable name)
  | some s =>
    match ofYaml? s with
    | none => .error .malformed
    | some c => .ok c

end ConfigFile

end MachineGateway
