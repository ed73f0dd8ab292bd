/-
Socket addresses are read as they are written. Each of the four parts of an IPv4 address is read up to the point behind
it, and the port up to the end of the text, so that the text of an address gives the address back
(`SocketAddress.parse?_text`).
-/
import Mathlib.Tactic
import MachineGateway.Net.Address

namespace MachineGateway.Net

/-- a part of an IPv4 address is a byte, and a port is a number of 16 bits -/
structure SocketAddress.IsSound (v : V4) (port : Nat) : Prop where
  a : v.a ≤ 255
  b : v.b ≤ 255
  c : v.c ≤ 255
  d : v.d ≤ 255
  port : port ≤ Text.portLimit

variable {n limit : Nat} {rest : List Char}

theorem isDigit_of_mem_toDigits : ∀ c ∈ Nat.toDigits 10 n, c.isDigit = true := fun _ hc =>
  Nat.isDigit_of_mem_toDigits (by decide) (by decide) hc

theorem digitsValue_toDigits (n : Nat) : Text.digitsValue (Nat.toDigits 10 n) = n :=
  Nat.ofDigitChars_toDigits (by decide) (by decide)

/-- the digits of a number end where something else than a digit begins -/
theorem takeWhile_toDigits (hrest : ∀ c ∈ rest.head?, c.isDigit = false) :
    (Nat.toDigits 10 n ++ rest).takeWhile Char.isDigit = Nat.toDigits 10 n := by
  rw [List.takeWhile_append_of_pos isDigit_of_mem_toDigits]
  cases rest with
  | nil => simp
  | cons c rest => simp [hrest c rfl]

theorem readOctet_toDigits (hn : n ≤ 255) (hrest : ∀ c ∈ rest.head?, c.isDigit = false) :
    readOctet (Nat.toDigits 10 n ++ rest) = some (n, rest) := by
  have hshape : ∀ n < 256, (Nat.toDigits 10 n).length ≤ 3 ∧
      ((Nat.toDigits 10 n).head? = some '0' → (Nat.toDigits 10 n).length ≤ 1) := by decide +kernel
  obtain ⟨hlength, hzero⟩ := hshape n (by omega)
  rw [readOctet, takeWhile_toDigits hrest]
  simp only [digitsValue_toDigits, List.drop_left]
  rw [if_neg]
  simp only [Bool.or_eq_true, Bool.and_eq_true, decide_eq_true_eq, beq_iff_eq, List.isEmpty_iff, Nat.toDigits_ne_nil,
    false_or]
  rintro ((hlong | hlarge) | ⟨hhead, hlong⟩)
  · omega
  · omega
  · have := hzero hhead
    omega

theorem readNumber_toDigits (hn : n ≤ limit) : readNumber limit (Nat.toDigits 10 n) = some (n, []) := by
  have hdigits : (Nat.toDigits 10 n ++ []).takeWhile Char.isDigit = Nat.toDigits 10 n := takeWhile_toDigits (by simp)
  rw [List.append_nil] at hdigits
  rw [readNumber, hdigits]
  simp [Text.plainNumber?, digitsValue_toDigits, Nat.toDigits_ne_nil, List.all_eq_true.2 isDigit_of_mem_toDigits, hn]

theorem readPort_toDigits (hn : n ≤ Text.portLimit) : readPort (':' :: Nat.toDigits 10 n) = some n := by
  simp [readPort, skip?, readNumber_toDigits hn]

/-- each part of an IPv4 address is read up to the point behind it, and the last one up to what follows -/
theorem readV4_text {v : V4} {port : Nat} (h : SocketAddress.IsSound v port)
    (hrest : ∀ c ∈ rest.head?, c.isDigit = false) : readV4 (v.text.toList ++ rest) = some (v, rest) := by
  have htext : v.text.toList ++ rest = Nat.toDigits 10 v.a ++ '.' :: (Nat.toDigits 10 v.b ++
      '.' :: (Nat.toDigits 10 v.c ++ '.' :: (Nat.toDigits 10 v.d ++ rest))) := by simp [V4.text]
  rw [htext, readV4, readOctet_toDigits h.a (by simp)]
  simp only [Option.bind_eq_bind, Option.bind_some, skip?, beq_self_eq_true, if_true]
  rw [readOctet_toDigits h.b (by simp)]
  simp only [Option.bind_some, beq_self_eq_true, if_true]
  rw [readOctet_toDigits h.c (by simp)]
  simp only [Option.bind_some, beq_self_eq_true, if_true]
  rw [readOctet_toDigits h.d hrest]
  rfl

/-- an IPv4 address begins with a digit, and not with the bracket of an IPv6 address -/
theorem V4.exists_text (v : V4) : ∃ c cs, v.text.toList = c :: cs ∧ c ≠ '[' := by
  obtain ⟨c, cs, hdigits⟩ := List.exists_cons_of_ne_nil (Nat.toDigits_ne_nil (n := v.a) (b := 10))
  refine ⟨c, cs ++ '.' :: (toString v.b ++ "." ++ toString v.c ++ "." ++ toString v.d).toList, ?_, ?_⟩
  · simp [V4.text, hdigits]
  · rintro rfl
    exact absurd (isDigit_of_mem_toDigits '[' (hdigits ▸ List.mem_cons_self)) (by decide)

/-- **A socket address is read as it is written.** -/
theorem SocketAddress.parse?_text {v : V4} {port : Nat} (h : IsSound v port) :
    parse? (SocketAddress.v4 v port).text = some (.v4 v port) := by
  have htext : (SocketAddress.v4 v port).text.toList = v.text.toList ++ ':' :: Nat.toDigits 10 port := by
    simp [SocketAddress.text]
  have hv4 : readV4 (v.text.toList ++ ':' :: Nat.toDigits 10 port) = some (v, ':' :: Nat.toDigits 10 port) :=
    readV4_text h (by simp)
  obtain ⟨c, cs, hcons, hc⟩ := v.exists_text
  rw [hcons, List.cons_append] at htext hv4
  unfold parse?
  rw [htext]
  split
  · rename_i heq
    exact absurd (List.cons.inj heq).1 hc
  · simp [hv4, readPort_toDigits h.port]

/-- no part has a zero before it, a name is no address, and there is a port of 16 bits; IPv6 stands in brackets -/
example : SocketAddress.parse? "127.0.0.01:80" = none ∧ SocketAddress.parse? "localhost:80" = none ∧
    SocketAddress.parse? "127.0.0.1" = none ∧ SocketAddress.parse? "127.0.0.1:65536" = none ∧
    SocketAddress.parse? "[::1]:80" = some (.v6 [0, 0, 0, 0, 0, 0, 0, 1] 0 80) := by decide +kernel

end MachineGateway.Net
