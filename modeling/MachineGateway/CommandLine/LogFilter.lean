/-
The filter of the log. It is a list of directives between commas, each a level or a target, perhaps with a span in
square brackets and fields in curly ones, perhaps with a level after an equals sign. Only whether a filter can be
read matters here.
-/
import MachineGateway.Text.Blank
import MachineGateway.Text.Decimal
import MachineGateway.Text.Split

namespace MachineGateway.LogFilter

inductive Fault where
  | directive
  | level
  deriving DecidableEq, Repr

def Fault.message : Fault → String
  | .directive => "invalid filter directive"
  | .level =>
    "error parsing level filter: expected one of \"off\", \"error\", \"warn\", \"info\", \"debug\", \"trace\", " ++
      "or a number 0-5"

/-- whether a text is a level: a word in any case, a number up to five, or nothing -/
def isLevel (cs : List Char) : Bool :=
  let word := String.ofList (cs.map Char.toLower)
  ["", "off", "error", "warn", "info", "debug", "trace"].contains word || (Text.number? 5 cs).isSome

inductive Place where
  | start
  | word
  | span
  | field (empty : Bool)
  | fields
  | target
  /-- a level begins after so many characters -/
  | level (n : Nat)
  deriving DecidableEq, Repr

/-- whether a directive may begin with a character; letters outside ASCII may -/
def begins (c : Char) : Bool := c.isAlphanum || c == '-' || c == ':' || c == '_' || 127 < c.toNat

/-- the place after the character at position `i` -/
def Place.next (p : Place) (i : Nat) (c : Char) : Option Place :=
  match p with
  | .start => if c == '[' then some .span else if begins c then some .word else none
  | .word => if c == '=' then some (.level (i + 1)) else if c == '[' then some .span else some .word
  | .span => if c == ']' then some .target else if c == '\x7b' then some (.field true) else some .span
  | .field empty => if c == '\x7d' then (if empty then none else some .fields) else some (.field false)
  | .fields => if c == ']' then some .target else none
  | .target => if c == '=' then some (.level (i + 1)) else none
  | .level n => some (.level n)

/-- reads a directive from position `i` on -/
def walk : Place → (i : Nat) → List Char → Option Place
  | p, _, [] => some p
  | p, i, c :: cs =>
    match p.next i c with
    | none => none
    | some p => walk p (i + 1) cs

/-- what is wrong with a directive; white space around it is passed over, but counts where a level is taken from it -/
def directiveFault? (cs : List Char) : Option Fault :=
  match walk .start 0 (Text.stripWhile Text.isBlank cs) with
  | some .word | some .target => none
  | some (.level n) => if isLevel (cs.drop n) then none else some .level
  | _ => some .directive

/-- what is wrong with a filter: the fault of its first faulty directive; empty directives are passed over -/
def fault? (s : String) : Option Fault :=
  ((Text.splitAt ',' s.toList).filter fun d => !d.isEmpty).findSome? directiveFault?

end MachineGateway.LogFilter
