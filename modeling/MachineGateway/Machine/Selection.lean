/-
Selection: the first running machine that has the wanted name, if one is wanted, and offers the service, with the
first of its mappings that does. Why there is no machine for a request is a `LookupError`.
-/
import MachineGateway.Machine.Basic

namespace MachineGateway

/-- why no backend was found -/
inductive LookupError where
  /-- the control plane gave no listing -/
  | unreachable (reason : String)
  /-- what it gave is no usable listing -/
  | malformed (reason : String)
  | notNamed (name service : String)
  | noneRunning (service : String)
  deriving DecidableEq, Repr

namespace LookupError

def message : LookupError → String
  | .unreachable reason => "Control-plane unreachable: " ++ reason
  | .malformed reason => "Malformed machine listing: " ++ reason
  | .notNamed name service => "No running machine named '" ++ name ++ "' exposes service '" ++ service ++ "'"
  | .noneRunning service => "No running machine exposes service '" ++ service ++ "'"

/-- the error's kind, one word for callers to match on -/
def kind : LookupError → String
  | .unreachable _ => "control_plane_unreachable"
  | .malformed _ => "control_plane_malformed"
  | .notNamed _ _ => "machine_not_found"
  | .noneRunning _ => "no_machine_available"

end LookupError

/-- the first element for which `f` has a value, by its position, with the value -/
def firstWith {α β : Type} (f : α → Option β) : List α → Option (Nat × β)
  | [] => none
  | a :: l =>
    match f a with
    | some b => some (0, b)
    | none => (firstWith f l).map fun r => (r.1 + 1, r.2)

/-- a machine and one of its mappings, each with its position -/
structure Selection where
  machineIndex : Nat
  machine : Machine
  mappingIndex : Nat
  mapping : Mapping
  deriving DecidableEq, Repr

namespace Machine

/-- the first mapping that offers the service -/
def mapping? (m : Machine) (s : Selector) : Option (Nat × Mapping) :=
  firstWith (fun x => if s.accepts x then some x else none) m.mappings

/-- whether the machine may serve a request for `target` -/
def answersTo (m : Machine) (target : Option String) : Bool :=
  m.isRunning && (match target with | none => true | some n => m.name == n)

/-- the machine with its first suitable mapping, if it may serve the request -/
def offer? (target : Option String) (s : Selector) (m : Machine) : Option (Machine × Nat × Mapping) :=
  if m.answersTo target then (m.mapping? s).map fun r => (m, r) else none

end Machine

namespace Listing

/-- the first machine and mapping for a request, if there is one -/
def select? (l : Listing) (target : Option String) (s : Selector) : Option Selection :=
  (firstWith (Machine.offer? target s) l.machines).map fun r => ⟨r.1, r.2.1, r.2.2.1, r.2.2.2⟩

/-- the first machine and mapping for a request, or why there is none -/
def select (l : Listing) (target : Option String) (s : Selector) : Except LookupError Selection :=
  match l.select? target s, target with
  | some c, _ => .ok c
  | none, some n => .error (.notNamed n s.text)
  | none, none => .error (.noneRunning s.text)

end Listing

end MachineGateway
