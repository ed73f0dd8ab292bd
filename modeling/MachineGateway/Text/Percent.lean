/-
Percent escapes and form encoding. A `%` followed by two hexadecimal digits stands for one byte; any other `%`
stands for itself. A form value also writes a space as `+`, and reads bytes that are no text as U+FFFD.
-/
import MachineGateway.Text.Hex

namespace MachineGateway

namespace Percent

/-- replaces each escape by the byte that it stands for -/
def decode : Bytes → Bytes
  | [] => []
  | a :: r =>
    if a == 0x25 then
      match r with
      | h :: l :: r₂ =>
        match Text.hexValue? h, Text.hexValue? l with
        | some x, some y => UInt8.ofNat (16 * x + y) :: decode r₂
        | _, _ => a :: decode (h :: l :: r₂)
      | [h] => [a, h]
      | [] => [a]
    else a :: decode r

/-- the text that an escaped text stands for, if its bytes are well-formed -/
def decodeText? (cs : List Char) : Option String := Utf8.decode? (decode (Utf8.encodeChars cs))

/-- the escape of one byte, with digits in upper case -/
def escape (b : UInt8) : List Char := '%' :: (Text.hexPadded 2 b.toNat).map Char.toUpper

/-- the text with every byte outside `keep` escaped -/
def encode (keep : UInt8 → Bool) (b : Bytes) : String :=
  String.ofList (b.flatMap fun x => if keep x then [Char.ofNat x.toNat] else escape x)

end Percent

namespace Form

/-- the text that a form-encoded name or value stands for -/
def decode (cs : List Char) : String :=
  Utf8.lossy (Percent.decode ((Utf8.encodeChars cs).map fun b => if b == 0x2B then 0x20 else b))

end Form

end MachineGateway
