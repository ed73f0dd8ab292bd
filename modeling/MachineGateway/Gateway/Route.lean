/-
Routes. `/health` is the gateway's own; `/vm/NAME` and `/vm/NAME/..` lead to the machine of that name, with the rest
of the path as the caller wrote it; every other path leads to the first machine that offers the service. A `vm`
parameter in the query names a machine too, and is taken out of the query.
-/
import MachineGateway.Text.Percent
import MachineGateway.Text.Split

namespace MachineGateway

/-- the path of the gateway's own answer -/
def healthPath : String := "/health"

/-- what stands before a machine's name in a path -/
def namedPrefix : String := "/vm"

/-- the query parameter that names a machine -/
def routingParameter : String := "vm"

/-- where a path leads -/
inductive Route where
  | health
  /-- the named part of the path stands for no text -/
  | unreadable (part : String)
  /-- to the machine of that name, or to the first one, with this path -/
  | machine (name : Option String) (path : String)
  deriving DecidableEq, Repr

namespace Route

/-- the route of what follows `/vm/` -/
def named (path rest : List Char) : Route :=
  let (segment, after) := Text.cutAt '/' rest
  match after with
  | none =>
    if segment.isEmpty then .machine none (String.ofList path)
    else match Percent.decodeText? segment with
      | none => .unreadable "name"
      | some n => .machine (some n) "/"
  | some tail =>
    match Percent.decodeText? segment with
    | none => .unreadable "name"
    | some n =>
      if tail.isEmpty then .machine (some n) "/"
      else if (Percent.decodeText? tail).isNone then .unreadable "path"
      else .machine (some n) (String.ofList ('/' :: tail))

def ofPath (path : String) : Route :=
  if path = healthPath then .health
  else match Text.after? (namedPrefix.toList ++ ['/']) path.toList with
    | none => .machine none path
    | some rest => named path.toList rest

end Route

/-- a query split into the machine that it names and what is left of it -/
structure RoutedQuery where
  name : Option String := none
  rest : Option String := none
  deriving DecidableEq, Repr

namespace RoutedQuery

/-- the decoded value of a routing parameter, if the segment is one -/
def routingValue? (segment : List Char) : Option String :=
  let (key, value) := Text.cutAt '=' segment
  if Form.decode key = routingParameter then some (Form.decode (value.getD [])) else none

/-- the name that the segments give: the last value that is not empty -/
def lastName (segments : List (List Char)) : Option String :=
  segments.foldl (fun found s =>
    match routingValue? s with
    | some v => if v = "" then found else some v
    | none => found) none

/-- the segments that are no routing parameters -/
def kept (segments : List (List Char)) : List (List Char) := segments.filter fun s => (routingValue? s).isNone

/-- splits the text of a query -/
def ofText (query : String) : RoutedQuery :=
  let segments := (Text.splitAt '&' query.toList).filter fun s => !s.isEmpty
  ⟨lastName segments, some (String.ofList (Text.joinWith '&' (kept segments)))⟩

def ofQuery : Option String → RoutedQuery
  | none => {}
  | some q => ofText q

/-- a path with what is left of the query -/
def attach (q : RoutedQuery) (path : String) : String :=
  match q.rest with
  | none => path
  | some r => if r = "" then path else path ++ "?" ++ r

end RoutedQuery

end MachineGateway
