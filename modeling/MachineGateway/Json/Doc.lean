/-
JSON documents as far as they can be read. Where a text breaks off, the document holds a flaw in the place of the
value, so that whoever walks the document in reading order meets what can be said before the flaw first.
-/
import MachineGateway.Json.Number

namespace MachineGateway.Json

/-- why a text cannot be read -/
inductive Flaw where
  /-- it breaks the grammar -/
  | malformed
  /-- it ends too early -/
  | ended
  deriving DecidableEq, Repr

/-- a value, or the place where reading stopped -/
inductive Doc where
  | null
  | bool (b : Bool)
  | number (n : Number)
  | text (s : String)
  /-- the elements, and what is wrong after the last of them -/
  | array (items : List Doc) (cut : Option Flaw)
  /-- the members in order, names as documents, and what is wrong after the last of them -/
  | object (members : List (Doc × Doc)) (cut : Option Flaw)
  /-- what reading finds here, and what passing over finds: a text that stands for no characters can be passed -/
  | flawed (reading : Flaw) (passing : Option Flaw)
  deriving Repr, Inhabited

namespace Doc

/-- a place where reading and passing over find the same -/
def broken (f : Flaw) : Doc := .flawed f (some f)

/-- an object with plain names and nothing wrong -/
def record (members : List (String × Doc)) : Doc := .object (members.map fun m => (.text m.1, m.2)) none

/-- the flaw of a name: only a text can be one -/
def obstacleName : Doc → Option Flaw
  | .text _ => none
  | .flawed _ passing => passing
  | _ => some .malformed

mutual

/-- the first flaw that stops someone who does not look at the value -/
def obstacle : Doc → Option Flaw
  | .null | .bool _ | .number _ | .text _ => none
  | .array items cut => (obstacleItems items).or cut
  | .object members cut => (obstacleMembers members).or cut
  | .flawed _ passing => passing

def obstacleItems : List Doc → Option Flaw
  | [] => none
  | d :: ds => (obstacle d).or (obstacleItems ds)

/-- the first flaw among members, where a name has to be a text -/
def obstacleMembers : List (Doc × Doc) → Option Flaw
  | [] => none
  | m :: ms => (obstacleMember m).or (obstacleMembers ms)

def obstacleMember : Doc × Doc → Option Flaw
  | (name, value) => (obstacleName name).or (obstacle value)

end

end Doc

end MachineGateway.Json
