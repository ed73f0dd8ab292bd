/-
Writing JSON text without white space. Only quotes, backslashes and control characters are escaped.
-/
import MachineGateway.Json.Doc
import MachineGateway.Text.Hex

namespace MachineGateway.Json

def writeChar (c : Char) : List Char :=
  if c == '"' || c == '\\' then ['\\', c]
  else if c == '\x08' then ['\\', 'b']
  else if c == '\t' then ['\\', 't']
  else if c == '\n' then ['\\', 'n']
  else if c == '\x0c' then ['\\', 'f']
  else if c == '\r' then ['\\', 'r']
  else if c.toNat < 0x20 then ['\\', 'u'] ++ Text.hexPadded 4 c.toNat
  else [c]

def writeText (s : String) : List Char := '"' :: s.toList.flatMap writeChar ++ ['"']

def writeNumber : Number → List Char
  | .natural n => Nat.toDigits 10 n
  | .negative n => '-' :: Nat.toDigits 10 n
  | .real x => (Text.Shortest.text x).toList

mutual

/-- a document without flaws; a flaw is written as nothing -/
def write : Doc → List Char
  | .null => ['n', 'u', 'l', 'l']
  | .bool true => ['t', 'r', 'u', 'e']
  | .bool false => ['f', 'a', 'l', 's', 'e']
  | .number n => writeNumber n
  | .text s => writeText s
  | .array items _ => '[' :: writeItems items ++ [']']
  | .object members _ => '\x7b' :: writeMembers members ++ ['\x7d']
  | .flawed _ _ => []

def writeItems : List Doc → List Char
  | [] => []
  | [d] => write d
  | d :: ds => write d ++ ',' :: writeItems ds

def writeMembers : List (Doc × Doc) → List Char
  | [] => []
  | [m] => writeMember m
  | m :: ms => writeMember m ++ ',' :: writeMembers ms

def writeMember : Doc × Doc → List Char
  | (name, value) => write name ++ ':' :: write value

end

/-- the text of a document -/
def Doc.render (d : Doc) : String := String.ofList (write d)

def listDoc {α : Type} (doc : α → Doc) (l : List α) : Doc := .array (l.map doc) none

/-- something or null -/
def optionalDoc {α : Type} (doc : α → Doc) : Option α → Doc
  | none => .null
  | some a => doc a

end MachineGateway.Json
