/-
Why a document is not a value of some type: the text has a flaw there, or the document says something else. The
first fault in reading order counts.
-/
import MachineGateway.Json.Doc
import MachineGateway.Text.Quoted

namespace MachineGateway.Json

/-- what stands in the place of another kind of value -/
inductive Found where
  | null
  | bool (b : Bool)
  | number (n : Number)
  | text (s : String)
  | array
  | object
  deriving DecidableEq, Repr

inductive Misfit where
  | type (found : Found) (expected : String)
  | value (found : Found) (expected : String)
  | length (count : Nat) (expected : String)
  | variant (name : String) (expected : List String)
  | missing (field : String)
  | duplicate (field : String)
  deriving DecidableEq, Repr

/-- why a document has no value -/
inductive Fault where
  | flaw (f : Flaw)
  | misfit (m : Misfit)
  deriving DecidableEq, Repr

/-- a name in code quotes -/
def ticked (s : String) : String := "\x60" ++ s ++ "\x60"

def Found.words : Found → String
  | .null => "null"
  | .bool b => "boolean " ++ ticked (if b then "true" else "false")
  | .number (.natural n) => "integer " ++ ticked (toString n)
  | .number (.negative n) => "integer " ++ ticked ("-" ++ toString n)
  | .number (.real x) => "floating point " ++ ticked (Text.Shortest.text x)
  | .text s => "string " ++ Text.shown s
  | .array => "sequence"
  | .object => "map"

/-- a list of names as alternatives -/
def alternatives : List String → String
  | [] => "there are no variants"
  | [a] => "expected " ++ ticked a
  | [a, b] => "expected " ++ ticked a ++ " or " ++ ticked b
  | names => "expected one of " ++ ", ".intercalate (names.map ticked)

def Misfit.message : Misfit → String
  | .type found expected => "invalid type: " ++ found.words ++ ", expected " ++ expected
  | .value found expected => "invalid value: " ++ found.words ++ ", expected " ++ expected
  | .length count expected => "invalid length " ++ toString count ++ ", expected " ++ expected
  | .variant name expected => "unknown variant " ++ ticked name ++ ", " ++ alternatives expected
  | .missing field => "missing field " ++ ticked field
  | .duplicate field => "duplicate field " ++ ticked field

/-- a reader of documents -/
abbrev Reader (α : Type) := Doc → Except Fault α

/-- the fault of finding a document in the place of something else -/
def Doc.unexpected (d : Doc) (expected : String) : Fault :=
  match d with
  | .null => .misfit (.type .null expected)
  | .bool b => .misfit (.type (.bool b) expected)
  | .number n => .misfit (.type (.number n) expected)
  | .text s => .misfit (.type (.text s) expected)
  | .array _ _ => .misfit (.type .array expected)
  | .object _ _ => .misfit (.type .object expected)
  | .flawed f _ => .flaw f

end MachineGateway.Json
