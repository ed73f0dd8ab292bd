/-
White space and how it is cut off both ends of a text. `isBlank` is the Unicode property White_Space.
-/

namespace MachineGateway.Text

/-- white space outside ASCII, as ranges of code points -/
def blankRanges : List (Nat × Nat) :=
  [(0x85, 0x85), (0xA0, 0xA0), (0x1680, 0x1680), (0x2000, 0x200A), (0x2028, 0x2029), (0x202F, 0x202F),
    (0x205F, 0x205F), (0x3000, 0x3000)]

/-- Unicode white space -/
def isBlank (c : Char) : Bool :=
  c == ' ' || (9 ≤ c.toNat && c.toNat ≤ 13) || blankRanges.any fun r => r.1 ≤ c.toNat && c.toNat ≤ r.2

/-- the list without the last elements that satisfy `p` -/
def dropEndWhile {α : Type} (p : α → Bool) (l : List α) : List α := (l.reverse.dropWhile p).reverse

/-- the list without the elements at either end that satisfy `p` -/
def stripWhile {α : Type} (p : α → Bool) (l : List α) : List α := dropEndWhile p (l.dropWhile p)

/-- the text without white space at either end -/
def trim (s : String) : String := String.ofList (stripWhile isBlank s.toList)

/-- the text without the characters `c` at its end -/
def trimEnd (c : Char) (s : String) : String := String.ofList (dropEndWhile (· == c) s.toList)

/-- the text with the letters A to Z in lower case and all else as it is -/
def lowerAscii (s : String) : String := String.ofList (s.toList.map Char.toLower)

/-- equality of texts up to the case of the letters A to Z -/
def sameLetters (s t : String) : Bool := lowerAscii s == lowerAscii t

end MachineGateway.Text
