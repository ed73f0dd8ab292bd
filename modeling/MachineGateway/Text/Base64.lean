/-
Bytes written with 64 printable characters, three bytes in four characters, with `=` where bytes are missing.
-/
import MachineGateway.Text.Utf8

namespace MachineGateway.Text

/-- the character for a number below 64 -/
def base64Char (n : Nat) : Char :=
  if n < 26 then Char.ofNat (65 + n)
  else if n < 52 then Char.ofNat (71 + n)
  else if n < 62 then Char.ofNat (n - 4)
  else if n = 62 then '+'
  else '/'

/-- the four characters of three bytes, given as one number -/
def base64Quad (n : Nat) : List Char :=
  [base64Char (n / 262144 % 64), base64Char (n / 4096 % 64), base64Char (n / 64 % 64), base64Char (n % 64)]

/-- the characters of a byte string -/
def base64 : Bytes → List Char
  | [] => []
  | [a] => (base64Quad (a.toNat * 65536)).take 2 ++ ['=', '=']
  | [a, b] => (base64Quad (a.toNat * 65536 + b.toNat * 256)).take 3 ++ ['=']
  | a :: b :: c :: r => base64Quad (a.toNat * 65536 + b.toNat * 256 + c.toNat) ++ base64 r

end MachineGateway.Text
