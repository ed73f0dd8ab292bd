/-
JSON numbers. A number of 64 bits without point or exponent keeps its value; every other one becomes a binary
fraction, computed from its leading digits and a power of ten.
-/
import MachineGateway.Text.Shortest
import MachineGateway.Text.Decimal
import MachineGateway.Text.Utf8

namespace MachineGateway.Json

/-- the value of a number -/
inductive Number where
  | natural (n : Nat)
  /-- the value `-n`, for `n` from one on -/
  | negative (n : Nat)
  | real (x : Float)
  deriving DecidableEq, Repr

/-- a number as it is written: sign, digits before and after the point, and a power of ten -/
structure Numeral where
  negative : Bool
  whole : List Char
  fraction : List Char
  /-- the sign of the exponent and its digits -/
  exponent : Option (Bool × List Char)
  /-- written with a point -/
  pointed : Bool
  deriving DecidableEq, Repr

namespace Numeral

/-- appends digits to a number as long as it stays within 64 bits; the count of digits left over comes second -/
def gather : Nat → List Char → Nat × Nat
  | n, [] => (n, 0)
  | n, c :: cs =>
    let next := 10 * n + (c.toNat - 48)
    if next ≤ Text.wordLimit then gather next cs else (n, cs.length + 1)

/-- powers of ten are applied in steps of at most 308 -/
def scale : (fuel : Nat) → Float → Int → Float
  | 0, f, _ => f
  | fuel + 1, f, e =>
    if e.natAbs ≤ 308 then
      if 0 ≤ e then f * Float.ofScientific 1 false e.natAbs else f / Float.ofScientific 1 false e.natAbs
    else if f == 0 then f
    else if 0 ≤ e then f / 0
    else scale fuel (f / 1e308) (e + 308)

/-- the binary fraction that a numeral stands for -/
def real (n : Numeral) : Float :=
  let (w, left) := gather 0 n.whole
  let (s, dropped) := gather w n.fraction
  let shift : Int := match n.exponent with
    | none => 0
    | some (down, digits) => if down then -(Text.digitsValue digits) else Text.digitsValue digits
  let f := scale 8 (UInt64.ofNat s).toFloat (left - (n.fraction.length - dropped : Nat) + shift)
  if n.negative then -f else f

/-- the value of a numeral, if it is finite -/
def value? (n : Numeral) : Option Number :=
  let whole := Text.digitsValue n.whole
  let plain := !n.pointed && n.exponent.isNone
  if plain && !n.negative && whole ≤ Text.wordLimit then some (.natural whole)
  else if plain && n.negative && 1 ≤ whole && whole ≤ Nat.pow 2 63 then some (.negative whole)
  else if n.real.isInf || n.real.isNaN then none
  else some (.real n.real)

end Numeral

end MachineGateway.Json
