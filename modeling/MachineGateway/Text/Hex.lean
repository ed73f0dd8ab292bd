/-
Hexadecimal digits of either case, read one at a time and written in lower case.
-/
import MachineGateway.Text.Utf8

namespace MachineGateway.Text

/-- the value of a hexadecimal digit -/
def hexValue? (b : UInt8) : Option Nat :=
  if 0x30 ≤ b && b ≤ 0x39 then some (b.toNat - 0x30)
  else if 0x41 ≤ b && b ≤ 0x46 then some (b.toNat - 0x37)
  else if 0x61 ≤ b && b ≤ 0x66 then some (b.toNat - 0x57)
  else none

/-- the hexadecimal digits of a number, lower case and without leading zeros -/
def hexDigits (n : Nat) : List Char := Nat.toDigits 16 n

/-- the hexadecimal digits of a number, filled up with zeros to `width` -/
def hexPadded (width n : Nat) : List Char :=
  List.replicate (width - (hexDigits n).length) '0' ++ hexDigits n

/-- bytes as pairs of hexadecimal digits -/
def hexBytes (b : Bytes) : String := String.ofList (b.flatMap fun x => hexPadded 2 x.toNat)

/-- the bytes that pairs of hexadecimal digits stand for; an odd or foreign digit ends the reading -/
def ofHexBytes : List Char → Bytes
  | a :: b :: r =>
    match hexValue? (UInt8.ofNat a.toNat), hexValue? (UInt8.ofNat b.toNat) with
    | some x, some y => UInt8.ofNat (16 * x + y) :: ofHexBytes r
    | _, _ => []
  | _ => []

end MachineGateway.Text
