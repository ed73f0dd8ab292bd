/-
A YAML text as lines with their indentation.
-/
import MachineGateway.Text.Blank

namespace MachineGateway.Yaml

/-- a line: the number of spaces before its text, and the text -/
structure Line where
  indent : Nat
  text : List Char
  deriving DecidableEq, Repr, Inhabited

/-- a space or a tab -/
def isBlank (c : Char) : Bool := c == ' ' || c == '\t'

/-- the text without blanks at its beginning -/
def skipBlanks (cs : List Char) : List Char := cs.dropWhile isBlank

/-- the text without blanks at its end -/
def cutBlanks (cs : List Char) : List Char := Text.dropEndWhile isBlank cs

/-- whether nothing but blanks and a comment is left of a line -/
def isOver (cs : List Char) : Bool :=
  match skipBlanks cs with
  | [] => true
  | c :: _ => c == '#'

namespace Line

def ofChars (cs : List Char) : Line :=
  let text := cs.dropWhile (· == ' ')
  ⟨cs.length - text.length, text⟩

/-- whether a line holds nothing, or a comment alone; a tab is something -/
def isEmpty (l : Line) : Bool :=
  match l.text with
  | [] => true
  | c :: _ => c == '#'

/-- whether a line holds no more than blanks -/
def isSpace (l : Line) : Bool := l.text.all isBlank

/-- whether a line begins with three given characters that stand alone -/
def isMarker (mark : Char) (l : Line) : Bool :=
  l.indent == 0 &&
    match l.text with
    | a :: b :: c :: r => a == mark && b == mark && c == mark && (match r with | [] => true | x :: _ => isBlank x)
    | _ => false

/-- whether a line begins or ends a document -/
def isBoundary (l : Line) : Bool := l.isMarker '-' || l.isMarker '.'

/-- the end of a line -/
def nothing : Line := ⟨0, []⟩

end Line

/-- a character that may stand in a document -/
def isAllowed (c : Char) : Bool :=
  let n := c.toNat
  n == 9 || n == 10 || n == 13 || (0x20 ≤ n && n ≤ 0x7E) || n == 0x85 || (0xA0 ≤ n && n != 0xFEFF && n != 0xFFFE && n != 0xFFFF)

/-- the lines of a text; a carriage return, a line feed, or both together end one -/
def rawLines : List Char → List (List Char)
  | [] => [[]]
  | '\r' :: '\n' :: r => [] :: rawLines r
  | c :: r =>
    if c == '\r' || c == '\n' then [] :: rawLines r
    else match rawLines r with
      | [] => [[c]]
      | l :: ls => (c :: l) :: ls

/-- the lines of a text without a mark at its beginning, if all its characters are allowed -/
def linesOf? (s : String) : Option (List Line) :=
  let cs := match s.toList with
    | '\uFEFF' :: r => r
    | cs => cs
  if cs.all isAllowed then some ((rawLines cs).map Line.ofChars) else none

end MachineGateway.Yaml
