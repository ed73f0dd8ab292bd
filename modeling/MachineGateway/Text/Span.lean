/-
Spans of time in words. A span is a number of nanoseconds; it is written in the largest of the units s, ms, µs
and ns that gives a nonzero whole part, with as many decimals as it needs.
-/
import MachineGateway.Text.Blank

namespace MachineGateway

structure Span where
  nanoseconds : Nat
  deriving DecidableEq, Repr, Inhabited

namespace Span

def ofSeconds (n : Nat) : Span := ⟨n * 1000000000⟩

def ofMilliseconds (n : Nat) : Span := ⟨n * 1000000⟩

def ofMicroseconds (n : Nat) : Span := ⟨n * 1000⟩

def seconds (s : Span) : Nat := s.nanoseconds / 1000000000

/-- `n` of `10 ^ places` parts as decimals after a point, without zeros at the end -/
def decimals (places n : Nat) : List Char :=
  if n = 0 then []
  else
    let digits := Nat.toDigits 10 n
    '.' :: Text.dropEndWhile (· == '0') (List.replicate (places - digits.length) '0' ++ digits)

/-- the number `n / 10 ^ places` and its unit -/
def inUnit (places n : Nat) (unit : String) : String :=
  String.ofList (Nat.toDigits 10 (n / Nat.pow 10 places) ++ decimals places (n % Nat.pow 10 places)) ++ unit

/-- the span in the largest unit that fits -/
def text (s : Span) : String :=
  if 1000000000 ≤ s.nanoseconds then inUnit 9 s.nanoseconds "s"
  else if 1000000 ≤ s.nanoseconds then inUnit 6 s.nanoseconds "ms"
  else if 1000 ≤ s.nanoseconds then inUnit 3 s.nanoseconds "µs"
  else inUnit 0 s.nanoseconds "ns"

end Span

end MachineGateway
