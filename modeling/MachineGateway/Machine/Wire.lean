/-
Machines as JSON. Each type has a reader and a document; the document of a value is read back as that value.
-/
import MachineGateway.Json.Reading
import MachineGateway.Json.Write
import MachineGateway.Machine.Backend

namespace MachineGateway

open Json

namespace Status

def read : Reader Status := readChoice fun s => .ok (ofName s)

def doc (s : Status) : Doc := .text s.name

end Status

namespace DialMode

/-- the mode that a document names, by its exact word -/
def read : Reader DialMode := readChoice fun s =>
  if s = "mapped" then .ok .mapped
  else if s = "direct" then .ok .direct
  else .error (.misfit (.variant s ["mapped", "direct"]))

def doc (m : DialMode) : Doc := .text m.name

end DialMode

/-- a field that was found, or the fault of its absence -/
def required {α : Type} (name : String) : Option α → Except Fault α
  | some a => .ok a
  | none => .error (.misfit (.missing name))

namespace Mapping

structure Draft where
  tag : Option String := none
  internalPort : Option String := none
  externalPort : Option String := none

def form : Form Draft Mapping where
  title := "struct PortMapping"
  fields := [("description", false), ("guestPort", false), ("hostPort", false)]
  start := {}
  has d f :=
    if f = "description" then d.tag.isSome
    else if f = "guestPort" then d.internalPort.isSome
    else d.externalPort.isSome
  put d f v :=
    if f = "description" then (readText v).map fun x => { d with tag := some x }
    else if f = "guestPort" then (readText v).map fun x => { d with internalPort := some x }
    else (readText v).map fun x => { d with externalPort := some x }
  finish d :=
    match required "description" d.tag, required "guestPort" d.internalPort, required "hostPort" d.externalPort with
    | .error e, _, _ => .error e
    | _, .error e, _ => .error e
    | _, _, .error e => .error e
    | .ok t, .ok i, .ok x => .ok ⟨t, i, x⟩

def read : Reader Mapping := form.read

def doc (m : Mapping) : Doc :=
  .record [("description", .text m.tag), ("guestPort", .text m.internalPort), ("hostPort", .text m.externalPort)]

end Mapping

namespace Selector

structure Draft where
  tag : Option String := none
  port : Option (Option String) := none

def form : Form Draft Selector where
  title := "struct ServiceSelector"
  fields := [("tag", false), ("internal_port", true)]
  start := {}
  has d f := if f = "tag" then d.tag.isSome else d.port.isSome
  put d f v :=
    if f = "tag" then (readText v).map fun x => { d with tag := some x }
    else (readOptional readText v).map fun x => { d with port := some x }
  finish d := (required "tag" d.tag).map fun t => ⟨t, d.port.getD none⟩

def read : Reader Selector := form.read

def doc (s : Selector) : Doc := .record [("tag", .text s.tag), ("internal_port", optionalDoc .text s.port)]

end Selector

namespace Machine

structure Draft where
  name : Option String := none
  status : Option Status := none
  address : Option String := none
  mappings : Option (List Mapping) := none

def form : Form Draft Machine where
  title := "struct MachineDescriptor"
  fields := [("vmName", false), ("status", false), ("ip", true), ("portForwards", true)]
  start := {}
  has d f :=
    if f = "vmName" then d.name.isSome
    else if f = "status" then d.status.isSome
    else if f = "ip" then d.address.isSome
    else d.mappings.isSome
  put d f v :=
    if f = "vmName" then (readText v).map fun x => { d with name := some x }
    else if f = "status" then (Status.read v).map fun x => { d with status := some x }
    else if f = "ip" then (readText v).map fun x => { d with address := some x }
    else (readList Mapping.read v).map fun x => { d with mappings := some x }
  finish d :=
    match required "vmName" d.name, required "status" d.status with
    | .error e, _ => .error e
    | _, .error e => .error e
    | .ok n, .ok s => .ok ⟨n, s, d.address.getD "", d.mappings.getD []⟩

def read : Reader Machine := form.read

def doc (m : Machine) : Doc :=
  .record [("vmName", .text m.name), ("status", m.status.doc), ("ip", .text m.address),
    ("portForwards", listDoc Mapping.doc m.mappings)]

end Machine

namespace Listing

def form : Form (Option (List Machine)) Listing where
  title := "struct MachineListing"
  fields := [("vms", true)]
  start := none
  has d _ := d.isSome
  put _ _ v := (readList Machine.read v).map some
  finish d := .ok ⟨d.getD []⟩

def read : Reader Listing := form.read

def doc (l : Listing) : Doc := .record [("vms", listDoc Machine.doc l.machines)]

end Listing

end MachineGateway
