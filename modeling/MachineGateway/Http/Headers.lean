/-
Header fields. A name may occur several times; the values of one name keep their order. Names are compared in lower
case and kept so.
-/
import MachineGateway.Text.Utf8
import MachineGateway.Text.Blank

namespace MachineGateway.Http

structure Field where
  name : String
  value : Bytes
  deriving DecidableEq, Repr, Inhabited

/-- the header fields of a message, in order -/
abbrev Headers := List Field

namespace Headers

/-- a field with its name in lower case -/
def field (name : String) (value : Bytes) : Field := ⟨Text.lowerAscii name, value⟩

/-- a field whose value is a text -/
def textField (name value : String) : Field := ⟨name, Utf8.encode value⟩

def values (h : Headers) (name : String) : List Bytes := (h.filter (·.name == name)).map (·.value)

def first? (h : Headers) (name : String) : Option Bytes := (h.find? (·.name == name)).map (·.value)

/-- the first value of a name, as text -/
def text? (h : Headers) (name : String) : Option String := (first? h name).bind visibleText?

/-- the fields without those of the given names -/
def without (names : List String) (h : Headers) : Headers := h.filter fun f => !names.contains f.name

/-- whether `a` comes before `b` or is equal to it -/
def namesInOrder (a b : Field) : Bool := !(b.name < a.name)

/-- the fields sorted by name, the values of each name in their order -/
def sorted (h : Headers) : Headers := h.mergeSort namesInOrder

/-- a space or a tab -/
def isPadding (b : UInt8) : Bool := b == 0x20 || b == 0x09

/-- the fields as they arrive over a connection: without padding around the values -/
def received (h : Headers) : Headers := h.map fun f => { f with value := Text.stripWhile isPadding f.value }

end Headers

end MachineGateway.Http
