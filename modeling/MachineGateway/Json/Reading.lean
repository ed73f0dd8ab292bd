/-
Readers of documents. A record is written as an object or as an array of its fields in order; a choice among names
is written as the name or as an object with the name and null. Members with other names are passed over.
-/
import MachineGateway.Json.Fault
import MachineGateway.Json.Read

namespace MachineGateway.Json

def readText : Reader String
  | .text s => .ok s
  | d => .error (d.unexpected "a string")

/-- a number of 64 bits -/
def readWord : Reader Nat
  | .number (.natural n) => .ok n
  | .number (.negative n) => .error (.misfit (.value (.number (.negative n)) "u64"))
  | d => .error (d.unexpected "u64")

/-- something or null -/
def readOptional {α : Type} (read : Reader α) : Reader (Option α)
  | .null => .ok none
  | d => (read d).map some

/-- each of the elements, and then that nothing is wrong after them -/
def readItems {α : Type} (read : Reader α) : List Doc → Option Flaw → Except Fault (List α)
  | [], none => .ok []
  | [], some f => .error (.flaw f)
  | d :: ds, cut =>
    match read d with
    | .error e => .error e
    | .ok a =>
      match readItems read ds cut with
      | .error e => .error e
      | .ok as => .ok (a :: as)

def readList {α : Type} (read : Reader α) : Reader (List α)
  | .array items cut => readItems read items cut
  | d => .error (d.unexpected "a sequence")

/-- a name with nothing to it -/
def readUnit : Reader Unit
  | .null => .ok ()
  | d => .error (d.unexpected "unit")

/-- one of several names, told apart by `choose` -/
def readChoice {α : Type} (choose : String → Except Fault α) : Reader α
  | .text s => choose s
  | .object [] cut => .error (.flaw (cut.getD .malformed))
  | .object ((name, value) :: more) cut =>
    match name with
    | .text s =>
      match choose s with
      | .error e => .error e
      | .ok a =>
        match readUnit value with
        | .error e => .error e
        | .ok _ =>
          match more, cut with
          | [], none => .ok a
          | [], some f => .error (.flaw f)
          | _ :: _, _ => .error (.flaw .malformed)
    | d => .error (d.unexpected "variant identifier")
  | .flawed f _ => .error (.flaw f)
  | _ => .error (.flaw .malformed)

/-- how a record of type `α` is read through the fields found so far -/
structure Form (δ α : Type) where
  /-- what the record is called where another value is found -/
  title : String
  /-- the field names in the order of the array form, with whether the array may end before each -/
  fields : List (String × Bool)
  start : δ
  /-- whether the field has been found -/
  has : δ → String → Bool
  /-- reads a field's value -/
  put : δ → String → Reader δ
  /-- the record, or the fault of a field that was not found -/
  finish : δ → Except Fault α

namespace Form

variable {δ α : Type} (form : Form δ α)

/-- the title with the number of elements in the array form -/
def counted : String :=
  form.title ++ " with " ++ toString form.fields.length ++
    (if form.fields.length = 1 then " element" else " elements")

/-- reads members until they end -/
def readMembers : δ → List (Doc × Doc) → Option Flaw → Except Fault δ
  | d, [], none => .ok d
  | _, [], some f => .error (.flaw f)
  | d, (.text name, value) :: ms, cut =>
    if form.fields.any (·.1 == name) then
      if form.has d name then .error (.misfit (.duplicate name))
      else match form.put d name value with
        | .error e => .error e
        | .ok d => readMembers d ms cut
    else match value.obstacle with
      | some f => .error (.flaw f)
      | none => readMembers d ms cut
  | _, (.flawed f _, _) :: _, _ => .error (.flaw f)
  | _, _ :: _, _ => .error (.flaw .malformed)

/-- reads the elements of the array form in the order of the fields; `count` have been read -/
def readFields : δ → (count : Nat) → List (String × Bool) → List Doc → Option Flaw → Except Fault δ
  | d, _, [], [], none => .ok d
  | _, _, [], [], some f => .error (.flaw f)
  | _, _, [], _ :: _, _ => .error (.flaw .malformed)
  | _, _, _ :: _, [], some f => .error (.flaw f)
  | d, count, (_, optional) :: fields, [], none =>
    if optional then readFields d (count + 1) fields [] none
    else .error (.misfit (.length count form.counted))
  | d, count, (name, _) :: fields, item :: items, cut =>
    match form.put d name item with
    | .error e => .error e
    | .ok d => readFields d (count + 1) fields items cut

/-- the record in a document -/
def read : Reader α
  | .object members cut =>
    match form.readMembers form.start members cut with
    | .error e => .error e
    | .ok d => form.finish d
  | .array items cut =>
    match form.readFields form.start 0 form.fields items cut with
    | .error e => .error e
    | .ok d => form.finish d
  | d => .error (d.unexpected form.title)

end Form

/-- the value in a text: the document has to fit, and nothing may follow it -/
def fromBytes {α : Type} (read : Reader α) (s : Bytes) : Except Fault α :=
  let (doc, after) := Doc.ofBytes s
  match read doc, after with
  | .error e, _ => .error e
  | .ok _, some f => .error (.flaw f)
  | .ok a, none => .ok a

end MachineGateway.Json
