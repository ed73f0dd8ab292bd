/-
Decimal numbers in text: digits with an optional plus sign, up to a largest value.
-/

namespace MachineGateway.Text

/-- the value of a list of decimal digits -/
def digitsValue (cs : List Char) : Nat := cs.foldl (fun n c => 10 * n + (c.toNat - 48)) 0

/-- a number of at least one digit and at most `limit`, with nothing around it -/
def plainNumber? (limit : Nat) (cs : List Char) : Option Nat :=
  if !cs.isEmpty && cs.all Char.isDigit && digitsValue cs ≤ limit then some (digitsValue cs) else none

/-- a number of at least one digit and at most `limit`, possibly after one plus sign -/
def number? (limit : Nat) : List Char → Option Nat
  | '+' :: cs => plainNumber? limit cs
  | cs => plainNumber? limit cs

def portLimit : Nat := 65535

/-- the largest number of 64 bits -/
def wordLimit : Nat := 18446744073709551615

end MachineGateway.Text
