/-
Text as bytes. `Utf8.encode` writes a string's characters one after another; `Utf8.pieces` reads bytes back as
characters and ill-formed stretches, always taking the longest stretch that could still have begun a character.
`decode?` accepts bytes without an ill-formed stretch, `lossy` puts U+FFFD in the place of each.
-/

namespace MachineGateway

/-- a byte string, first byte first -/
abbrev Bytes := List UInt8

namespace Utf8

/-- one character in one to four bytes, most significant bits first -/
def encodeChar (c : Char) : Bytes :=
  let n := c.toNat
  if n < 0x80 then [UInt8.ofNat n]
  else if n < 0x800 then [UInt8.ofNat (0xC0 + n / 64), UInt8.ofNat (0x80 + n % 64)]
  else if n < 0x10000 then
    [UInt8.ofNat (0xE0 + n / 4096), UInt8.ofNat (0x80 + n / 64 % 64), UInt8.ofNat (0x80 + n % 64)]
  else
    [UInt8.ofNat (0xF0 + n / 262144), UInt8.ofNat (0x80 + n / 4096 % 64), UInt8.ofNat (0x80 + n / 64 % 64),
      UInt8.ofNat (0x80 + n % 64)]

def encodeChars (cs : List Char) : Bytes := cs.flatMap encodeChar

def encode (s : String) : Bytes := encodeChars s.toList

/-- a byte that continues a character -/
def isTail (b : UInt8) : Bool := 0x80 ≤ b && b < 0xC0

/-- the six bits that a continuing byte carries -/
def tailBits (b : UInt8) : Nat := b.toNat % 64

/-- whether `b` may follow the first byte `a` of a three-byte character: no overlong form, no surrogate -/
def secondOfThree (a b : UInt8) : Bool :=
  isTail b && (a != 0xE0 || 0xA0 ≤ b) && (a != 0xED || b < 0xA0)

/-- whether `b` may follow the first byte `a` of a four-byte character: no overlong form, nothing above U+10FFFF -/
def secondOfFour (a b : UInt8) : Bool :=
  isTail b && (a != 0xF0 || 0x90 ≤ b) && (a != 0xF4 || b < 0x90)

/-- characters, and `none` for each longest ill-formed stretch -/
def pieces : Bytes → List (Option Char)
  | [] => []
  | a :: r =>
    if a < 0x80 then some (Char.ofNat a.toNat) :: pieces r
    else if a < 0xC2 then none :: pieces r
    else if a < 0xE0 then
      match r with
      | [] => [none]
      | b :: r₂ =>
        if isTail b then some (Char.ofNat (a.toNat % 32 * 64 + tailBits b)) :: pieces r₂
        else none :: pieces (b :: r₂)
    else if a < 0xF0 then
      match r with
      | [] => [none]
      | b :: r₂ =>
        if secondOfThree a b then
          match r₂ with
          | [] => [none]
          | c :: r₃ =>
            if isTail c then
              some (Char.ofNat (a.toNat % 16 * 4096 + tailBits b * 64 + tailBits c)) :: pieces r₃
            else none :: pieces (c :: r₃)
        else none :: pieces (b :: r₂)
    else if a < 0xF5 then
      match r with
      | [] => [none]
      | b :: r₂ =>
        if secondOfFour a b then
          match r₂ with
          | [] => [none]
          | c :: r₃ =>
            if isTail c then
              match r₃ with
              | [] => [none]
              | d :: r₄ =>
                if isTail d then
                  some (Char.ofNat
                    (a.toNat % 8 * 262144 + tailBits b * 4096 + tailBits c * 64 + tailBits d)) :: pieces r₄
                else none :: pieces (d :: r₄)
            else none :: pieces (c :: r₃)
        else none :: pieces (b :: r₂)
    else none :: pieces r

/-- every piece as a character, if no stretch is ill-formed -/
def wholeChars : List (Option Char) → Option (List Char)
  | [] => some []
  | none :: _ => none
  | some c :: r => (wholeChars r).map (c :: ·)

/-- the characters that the bytes stand for, if the bytes are well-formed -/
def decodeChars? (b : Bytes) : Option (List Char) := wholeChars (pieces b)

/-- the text that the bytes stand for, if the bytes are well-formed -/
def decode? (b : Bytes) : Option String := (decodeChars? b).map String.ofList

/-- the text that the bytes stand for, with U+FFFD for each ill-formed stretch -/
def lossy (b : Bytes) : String := String.ofList ((pieces b).map (·.getD '\uFFFD'))

end Utf8

/-- a byte that may stand in a header value read as text: visible ASCII, space or tab -/
def isVisibleByte (b : UInt8) : Bool := b == 9 || (0x20 ≤ b && b < 0x7F)

/-- a header value as text, if all of it is visible -/
def visibleText? (b : Bytes) : Option String :=
  if b.all isVisibleByte then some (String.ofList (b.map fun x => Char.ofNat x.toNat)) else none

end MachineGateway
