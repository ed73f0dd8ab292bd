/-
YAML documents. A scalar keeps its text; whether it is written plainly, without quotes, decides if it can stand for
nothing or for a number.
-/
import MachineGateway.Text.Decimal
import MachineGateway.Text.Hex

namespace MachineGateway.Yaml

/-- a value of a document -/
inductive Node where
  /-- a text; `plain` without quotes, `tagged` with an explicit type -/
  | scalar (text : String) (plain tagged : Bool)
  | sequence (items : List Node)
  | mapping (entries : List (Node × Node))
  /-- a value that later places refer to by a name -/
  | anchored (name : String) (node : Node)
  /-- the value that an earlier place named -/
  | alias (name : String)
  deriving Repr, Inhabited

/-- nothing, written as nothing -/
def Node.empty : Node := .scalar "" true false

/-- the texts that stand for nothing -/
def nullTexts : List String := ["", "~", "null", "Null", "NULL"]

/-- whether a value stands for nothing -/
def Node.isNull : Node → Bool
  | .scalar t plain tagged => plain && !tagged && nullTexts.contains t
  | _ => false

/-- the number that digits of a base stand for, up to 64 bits -/
def based? (base : Nat) (cs : List Char) : Option Nat :=
  if cs.isEmpty || !cs.all (fun c => ((Text.hexValue? (UInt8.ofNat c.toNat)).any (· < base)) && c.toNat < 128) then
    none
  else
    let n := cs.foldl (fun n c => base * n + (Text.hexValue? (UInt8.ofNat c.toNat)).getD 0) 0
    if n ≤ Text.wordLimit then some n else none

/-- the number without sign that a plain text stands for: decimal without leading zeros, or hexadecimal, octal or
binary after `0x`, `0o` or `0b` -/
def word? (s : String) : Option Nat :=
  let cs := match s.toList with
    | '+' :: r => r
    | cs => cs
  match cs with
  | '0' :: 'x' :: r => based? 16 r
  | '0' :: 'o' :: r => based? 8 r
  | '0' :: 'b' :: r => based? 2 r
  | '0' :: _ :: _ => none
  | _ => Text.plainNumber? Text.wordLimit cs

namespace Node

def text? : Node → Option String
  | .scalar t _ _ => some t
  | _ => none

/-- the number of a plain scalar -/
def number? : Node → Option Nat
  | .scalar t true _ => word? t
  | _ => none

/-- the values of a sequence of texts -/
def texts? : Node → Option (List String)
  | .sequence items => items.mapM text?
  | _ => none

/-- the entries of a mapping by name; nothing has none -/
def entries? : Node → Option (List (String × Node))
  | .scalar "" true _ => some []
  | .mapping es => es.mapM fun e => e.1.text?.map fun k => (k, e.2)
  | _ => none

/-- something or nothing -/
def optional? {α : Type} (read : Node → Option α) (n : Node) : Option (Option α) :=
  if n.isNull then some none else (read n).map some

/-- the named values so far -/
abbrev Anchors := List (String × Node)

mutual

/-- the value with each alias replaced by what it refers to, and the named values after it -/
def settle (known : Anchors) : Node → Option (Node × Anchors)
  | .scalar t plain tagged => some (.scalar t plain tagged, known)
  | .sequence items => (settleItems known items).map fun r => (.sequence r.1, r.2)
  | .mapping entries => (settleEntries known entries).map fun r => (.mapping r.1, r.2)
  | .anchored name node => (settle known node).map fun r => (r.1, (name, r.1) :: r.2)
  | .alias name => (known.lookup name).map fun node => (node, known)

/-- the elements with their aliases replaced -/
def settleItems (known : Anchors) : List Node → Option (List Node × Anchors)
  | [] => some ([], known)
  | n :: ns =>
    match settle known n with
    | none => none
    | some (n, known) => (settleItems known ns).map fun r => (n :: r.1, r.2)

/-- the entries with their aliases replaced -/
def settleEntries (known : Anchors) : List (Node × Node) → Option (List (Node × Node) × Anchors)
  | [] => some ([], known)
  | e :: es =>
    match settleEntry known e with
    | none => none
    | some (e, known) => (settleEntries known es).map fun r => (e :: r.1, r.2)

/-- one entry with its aliases replaced -/
def settleEntry (known : Anchors) : Node × Node → Option ((Node × Node) × Anchors)
  | (key, value) =>
    match settle known key with
    | none => none
    | some (key, known) => (settle known value).map fun r => ((key, r.1), r.2)

end

end Node

end MachineGateway.Yaml
