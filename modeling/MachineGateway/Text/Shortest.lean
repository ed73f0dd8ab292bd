/-
Decimal text of binary fractions. A finite number `m · 2 ^ e` stands for every real that rounds to it; of the
decimals in that range the one with the fewest digits is written, and of several the nearest.
-/

namespace MachineGateway.Text.Shortest

/-- the value `mantissa · 2 ^ exponent`; `narrow` says that the gap below it is half the gap above -/
structure Binary where
  mantissa : Nat
  exponent : Int
  narrow : Bool
  deriving DecidableEq, Repr

/-- the magnitude of a finite number -/
def Binary.ofFloat (x : Float) : Binary :=
  let bits := x.toBits.toNat
  let field : Nat := bits / Nat.pow 2 52 % Nat.pow 2 11
  let fraction : Nat := bits % Nat.pow 2 52
  if field = 0 then ⟨fraction, -1074, false⟩
  else ⟨fraction + Nat.pow 2 52, (field : Int) - 1075, fraction = 0 && field != 1⟩

/-- a positive fraction of whole numbers -/
structure Ratio where
  num : Nat
  den : Nat
  deriving DecidableEq, Repr

/-- `n · 2 ^ e` as a fraction -/
def Ratio.scaled (n : Nat) (e : Int) : Ratio :=
  if 0 ≤ e then ⟨n * Nat.pow 2 e.toNat, 1⟩ else ⟨n, Nat.pow 2 (-e).toNat⟩

/-- the exponent `k` with `10 ^ k ≤ r < 10 ^ (k + 1)` -/
def Ratio.magnitude (r : Ratio) : Int :=
  if r.den ≤ r.num then ((Nat.toDigits 10 (r.num / r.den)).length : Int) - 1
  else -((Nat.toDigits 10 ((r.den + r.num - 1) / r.num - 1)).length : Int)

/-- a decimal: `digits · 10 ^ exponent` -/
structure Decimal where
  digits : Nat
  exponent : Int
  deriving DecidableEq, Repr

/-- the fraction that a decimal stands for -/
def Decimal.ratio (d : Decimal) : Ratio :=
  if 0 ≤ d.exponent then ⟨d.digits * Nat.pow 10 d.exponent.toNat, 1⟩
  else ⟨d.digits, Nat.pow 10 (-d.exponent).toNat⟩

/-- whether a decimal rounds to the binary value; the ends of the range count if the mantissa is even -/
def reads (b : Binary) (d : Decimal) : Bool :=
  let low := if b.narrow then Ratio.scaled (4 * b.mantissa - 1) (b.exponent - 2)
    else Ratio.scaled (2 * b.mantissa - 1) (b.exponent - 1)
  let high := Ratio.scaled (2 * b.mantissa + 1) (b.exponent - 1)
  let r := d.ratio
  if b.mantissa % 2 = 0 then low.num * r.den ≤ r.num * low.den && r.num * high.den ≤ high.num * r.den
  else low.num * r.den < r.num * low.den && r.num * high.den < high.num * r.den

/-- the best decimal of `n` digits near `x`, if one reads back -/
def candidate? (b : Binary) (x : Ratio) (n : Nat) : Option Decimal :=
  let k := x.magnitude - n + 1
  let scaled : Ratio :=
    if 0 ≤ k then ⟨x.num, x.den * Nat.pow 10 k.toNat⟩ else ⟨x.num * Nat.pow 10 (-k).toNat, x.den⟩
  let below : Decimal := ⟨scaled.num / scaled.den, k⟩
  let above : Decimal := ⟨scaled.num / scaled.den + 1, k⟩
  let rest := 2 * (scaled.num % scaled.den)
  let nearBelow := rest < scaled.den || (rest == scaled.den && below.digits % 2 == 0)
  match reads b below, reads b above with
  | true, true => some (if nearBelow then below else above)
  | true, false => some below
  | false, true => some above
  | false, false => none

/-- the first of the digit counts from `n` that gives a decimal -/
def search (b : Binary) (x : Ratio) : (left n : Nat) → Decimal
  | 0, _ => ⟨0, 0⟩
  | left + 1, n => (candidate? b x n).getD (search b x left (n + 1))

/-- a decimal without zeros at its end -/
def strip : (fuel : Nat) → Decimal → Decimal
  | 0, d => d
  | fuel + 1, d => if d.digits % 10 = 0 && d.digits != 0 then strip fuel ⟨d.digits / 10, d.exponent + 1⟩ else d

/-- the shortest decimal that reads back as the value -/
def decimal (b : Binary) : Decimal :=
  if b.mantissa = 0 then ⟨0, 0⟩ else strip 20 (search b (Ratio.scaled b.mantissa b.exponent) 17 1)

/-- positional from 0.00001 up to sixteen digits before the point, else with an exponent; always with a point or an
exponent -/
def place (d : Decimal) : List Char :=
  let ds := Nat.toDigits 10 d.digits
  let point : Int := ds.length + d.exponent
  if d.digits = 0 then ['0', '.', '0']
  else if 0 ≤ d.exponent && point ≤ 16 then ds ++ List.replicate d.exponent.toNat '0' ++ ['.', '0']
  else if 0 < point && point ≤ 16 then ds.take point.toNat ++ '.' :: ds.drop point.toNat
  else if -5 < point && point ≤ 0 then ['0', '.'] ++ List.replicate (-point).toNat '0' ++ ds
  else
    let tail := 'e' :: (toString (point - 1)).toList
    match ds with
    | [] => tail
    | [c] => c :: tail
    | c :: cs => c :: '.' :: cs ++ tail

/-- the text of a finite number -/
def text (x : Float) : String :=
  let digits := place (decimal (Binary.ofFloat x))
  String.ofList (if Nat.pow 2 63 ≤ x.toBits.toNat then '-' :: digits else digits)

end MachineGateway.Text.Shortest
