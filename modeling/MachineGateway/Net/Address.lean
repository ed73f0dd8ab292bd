/-
Network addresses as text. A socket address is an IPv4 address or a bracketed IPv6 address with a port; each is read
strictly and written in one canonical form, with the longest run of zero groups shortened to `::`.
-/
import MachineGateway.Text.Decimal
import MachineGateway.Text.Split
import MachineGateway.Text.Hex

namespace MachineGateway.Net

/-- the four parts of an IPv4 address -/
structure V4 where
  a : Nat
  b : Nat
  c : Nat
  d : Nat
  deriving DecidableEq, Repr, Inhabited

inductive SocketAddress where
  | v4 (address : V4) (port : Nat)
  /-- eight groups of 16 bits; a scope of zero is none -/
  | v6 (groups : List Nat) (scope port : Nat)
  deriving DecidableEq, Repr, Inhabited

/-- the text after one given character -/
def skip? (c : Char) : List Char → Option (List Char)
  | [] => none
  | x :: r => if x == c then some r else none

/-- one part of an IPv4 address: up to 255, without leading zeros -/
def readOctet (cs : List Char) : Option (Nat × List Char) :=
  let digits := (cs.takeWhile Char.isDigit)
  let value := Text.digitsValue digits
  if digits.isEmpty || 3 < digits.length || 255 < value || (digits.head? == some '0' && 1 < digits.length) then none
  else some (value, cs.drop digits.length)

/-- a number of any length up to a limit, from its first digit on -/
def readNumber (limit : Nat) (cs : List Char) : Option (Nat × List Char) :=
  let digits := cs.takeWhile Char.isDigit
  (Text.plainNumber? limit digits).map fun n => (n, cs.drop digits.length)

/-- four parts with points between them -/
def readV4 (cs : List Char) : Option (V4 × List Char) := do
  let (a, cs) ← readOctet cs
  let cs ← skip? '.' cs
  let (b, cs) ← readOctet cs
  let cs ← skip? '.' cs
  let (c, cs) ← readOctet cs
  let cs ← skip? '.' cs
  let (d, cs) ← readOctet cs
  some (⟨a, b, c, d⟩, cs)

def isHexDigit (c : Char) : Bool := c.isDigit || ('a' ≤ c && c ≤ 'f') || ('A' ≤ c && c ≤ 'F')

def hexNumber (cs : List Char) : Nat :=
  cs.foldl (fun n c => 16 * n + ((Text.hexValue? (UInt8.ofNat c.toNat)).getD 0)) 0

/-- one group of an IPv6 address: one to four hexadecimal digits -/
def readGroup (cs : List Char) : Option (Nat × List Char) :=
  let digits := cs.takeWhile isHexDigit
  if digits.isEmpty || 4 < digits.length then none else some (hexNumber digits, cs.drop digits.length)

/-- what follows the colon before a group; the first group has none -/
def afterColon? (first : Bool) (cs : List Char) : Option (List Char) := if first then some cs else skip? ':' cs

/-- up to `limit` groups with colons between them, the last two possibly as an IPv4 address; the flag tells whether
they were -/
def readGroups : (limit : Nat) → (first : Bool) → List Char → List Nat × Bool × List Char
  | 0, _, cs => ([], false, cs)
  | limit + 1, first, cs =>
    match (if 0 < limit then (afterColon? first cs).bind readV4 else none) with
    | some (v, rest) => ([256 * v.a + v.b, 256 * v.c + v.d], true, rest)
    | none =>
      match (afterColon? first cs).bind readGroup with
      | none => ([], false, cs)
      | some (g, rest) =>
        let (gs, dotted, rest) := readGroups limit false rest
        (g :: gs, dotted, rest)

/-- eight groups, or fewer with one `::` for at least one group of zeros -/
def readV6 (cs : List Char) : Option (List Nat × List Char) :=
  let (head, dotted, rest) := readGroups 8 true cs
  if head.length = 8 then some (head, rest)
  else if dotted then none
  else do
    let rest ← (skip? ':' rest).bind (skip? ':')
    let (tail, _, rest) := readGroups (7 - head.length) true rest
    some (head ++ List.replicate (8 - head.length - tail.length) 0 ++ tail, rest)

/-- a colon and a port at the end -/
def readPort (cs : List Char) : Option Nat := do
  let cs ← skip? ':' cs
  let (port, rest) ← readNumber Text.portLimit cs
  if rest.isEmpty then some port else none

/-- the scope of an IPv6 address, if one is given -/
def readScope (cs : List Char) : Option (Nat × List Char) :=
  match cs with
  | '%' :: rest => readNumber 4294967295 rest
  | _ => some (0, cs)

/-- the socket address in a text -/
def SocketAddress.parse? (s : String) : Option SocketAddress :=
  match s.toList with
  | '[' :: cs => do
    let (groups, cs) ← readV6 cs
    let (scope, cs) ← readScope cs
    let cs ← skip? ']' cs
    let port ← readPort cs
    some (.v6 groups scope port)
  | cs => do
    let (v, cs) ← readV4 cs
    let port ← readPort cs
    some (.v4 v port)

/-- four numbers with points between them -/
def V4.text (v : V4) : String :=
  toString v.a ++ "." ++ toString v.b ++ "." ++ toString v.c ++ "." ++ toString v.d

/-- the number of zeros at the beginning of a list -/
def zeroRun (gs : List Nat) : Nat := (gs.takeWhile (· == 0)).length

/-- the start and length of the first longest run of zeros, counting positions from `i` -/
def longestRun : (i : Nat) → List Nat → Nat × Nat
  | _, [] => (0, 0)
  | i, g :: gs =>
    let best := longestRun (i + 1) gs
    let here := zeroRun (g :: gs)
    if 0 < here && best.2 ≤ here then (i, here) else best

/-- groups in hexadecimal with colons between them -/
def groupsText (gs : List Nat) : String :=
  ":".intercalate (gs.map fun g => String.ofList (Text.hexDigits g))

/-- groups with the first longest run of at least two zeros left out -/
def shortGroups (gs : List Nat) : String :=
  let (start, len) := longestRun 0 gs
  if 1 < len then groupsText (gs.take start) ++ "::" ++ groupsText (gs.drop (start + len)) else groupsText gs

/-- an IPv6 address; one that stands for an IPv4 address shows that in its usual form -/
def v6Text (gs : List Nat) : String :=
  match gs with
  | [0, 0, 0, 0, 0, 0xFFFF, x, y] => "::ffff:" ++ V4.text ⟨x / 256, x % 256, y / 256, y % 256⟩
  | _ => shortGroups gs

namespace SocketAddress

def hostText : SocketAddress → String
  | .v4 a _ => a.text
  | .v6 gs _ _ => v6Text gs

def port : SocketAddress → Nat
  | .v4 _ p => p
  | .v6 _ _ p => p

def text : SocketAddress → String
  | .v4 a p => a.text ++ ":" ++ toString p
  | .v6 gs scope p =>
    "[" ++ v6Text gs ++ (if scope = 0 then "" else "%" ++ toString scope) ++ "]:" ++ toString p

end SocketAddress

end MachineGateway.Net
