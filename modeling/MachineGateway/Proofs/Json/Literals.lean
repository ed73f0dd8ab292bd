/-
String and number literals are read. A literal is read as the text that it stands for, letter by letter
(`readString_letters`), and a number as its numeral (`numberPart_spells`), up to a byte that does not go on with it
(`Follows`).
-/
import MachineGateway.Proofs.Json.Grammar

namespace MachineGateway.Json

variable {s rest : Bytes}

/-! ## Strings -/

theorem prepend_prepend (a b : Bytes) (x : Except Flaw (Bytes × Bytes)) :
    prepend a (prepend b x) = prepend (a ++ b) x := by
  cases x <;> simp [prepend, Except.map]

/-- bytes that are neither quote nor backslash nor control stand for themselves -/
theorem readString_plain {bs : Bytes} (h : ∀ b ∈ bs, b ≠ 0x22 ∧ b ≠ 0x5C ∧ 0x20 ≤ b) (r : Bytes) :
    readString (bs ++ r) = prepend bs (readString r) := by
  induction bs with
  | nil => cases hr : readString r <;> simp [prepend, Except.map, hr]
  | cons b bs ih =>
    obtain ⟨hquote, hslash, hlow⟩ := h b List.mem_cons_self
    have hrest := ih fun b' hb' => h b' (List.mem_cons_of_mem b hb')
    have hnot : ¬ b < 0x20 := by simpa using hlow
    rw [List.cons_append, readString.eq_def]
    simp only [beq_iff_eq, hquote, hslash, hnot, if_false, hrest, prepend_prepend]
    rfl

theorem readString_quote (r : Bytes) : readString (0x22 :: r) = .ok ([], r) := by
  rw [readString.eq_def]
  rfl

/-- an escape of one letter -/
theorem readString_short {e c : UInt8} (h : shortEscape? e = some c) (hu : e ≠ 0x75) (r : Bytes) :
    readString (0x5C :: e :: r) = prepend [c] (readString r) := by
  rw [readString.eq_def]
  simp [h, hu]

/-- four digits are read as their number -/
theorem IsHex.exists_digits {digits : Bytes} {n : Nat} (h : IsHex digits n) :
    ∃ a b c d, digits = [a, b, c, d] ∧ fourHex? a b c d = some n := by
  obtain ⟨hlength, hn⟩ := h
  match digits, hlength with
  | [a, b, c, d], _ =>
    refine ⟨a, b, c, d, rfl, ?_⟩
    rw [← hn, hexNumber?]
    cases ha : Text.hexValue? a <;> cases hb : Text.hexValue? b <;> cases hc : Text.hexValue? c <;>
      cases hd : Text.hexValue? d <;> simp [fourHex?, ha, hb, hc, hd]
    omega

/-- an escape of four digits that is no half of a pair -/
theorem readString_unicode {digits : Bytes} {n : Nat} (h : IsHex digits n) (hlow : isLowHalf n = false)
    (hhigh : isHighHalf n = false) (r : Bytes) :
    readString (0x5C :: 0x75 :: (digits ++ r)) = prepend (Utf8.encodeChar (Char.ofNat n)) (readString r) := by
  obtain ⟨a, b, c, d, rfl, hn⟩ := h.exists_digits
  rw [readString.eq_def]
  simp [hn, hlow, hhigh]

/-- escapes of both halves of a pair -/
theorem readString_pair {digits digits' : Bytes} {high low : Nat} (h : IsHex digits high) (h' : IsHex digits' low)
    (hhigh : 0xD800 ≤ high ∧ high < 0xDC00) (hlow : 0xDC00 ≤ low ∧ low < 0xE000) (r : Bytes) :
    readString (0x5C :: 0x75 :: (digits ++ 0x5C :: 0x75 :: (digits' ++ r))) =
      prepend (Utf8.encodeChar (Char.ofNat ((high - 0xD800) * 1024 + (low - 0xDC00) + 0x10000))) (readString r) := by
  have hnotLow : isLowHalf high = false := by simp [isLowHalf]; omega
  have hisHigh : isHighHalf high = true := by simp [isHighHalf]; omega
  have hisLow : isLowHalf low = true := by simp [isLowHalf]; omega
  obtain ⟨a, b, c, d, rfl, hfirst⟩ := h.exists_digits
  obtain ⟨a', b', c', d', rfl, hsecond⟩ := h'.exists_digits
  rw [readString.eq_def]
  simp [hfirst, hsecond, hnotLow, hisHigh, hisLow]

/-- no byte of a character is a control unless the character is one -/
theorem space_le_of_mem_encodeChar {c : Char} {b : UInt8} (h : 0x20 ≤ c.toNat) (hb : b ∈ Utf8.encodeChar c) :
    0x20 ≤ b := by
  rw [UInt8.le_iff_toNat_le]
  show 0x20 ≤ b.toNat
  by_cases hc : c.toNat < 0x80
  · rw [Utf8.encodeChar_ascii hc, List.mem_singleton] at hb
    subst hb
    simp
    omega
  · have := Utf8.le_of_mem_encodeChar (Nat.le_of_not_lt hc) hb
    omega

/-- a character that is neither quote nor backslash nor control has no such byte -/
theorem plain_of_mem_encodeChar {c : Char} (hcontrol : 0x20 ≤ c.toNat) (hquote : c ≠ '"') (hslash : c ≠ '\\') :
    ∀ b ∈ Utf8.encodeChar c, b ≠ 0x22 ∧ b ≠ 0x5C ∧ 0x20 ≤ b := by
  intro b hb
  refine ⟨?_, ?_, space_le_of_mem_encodeChar hcontrol hb⟩
  · rintro rfl
    exact hquote (Utf8.eq_of_mem_encodeChar (d := '"') (by decide) hb)
  · rintro rfl
    exact hslash (Utf8.eq_of_mem_encodeChar (d := '\\') (by decide) hb)

/-- whatever stands for a character is read as that character -/
theorem readString_letter {c : Char} (h : Letter c s) (r : Bytes) :
    readString (s ++ r) = prepend (Utf8.encodeChar c) (readString r) := by
  cases h with
  | plain _ hcontrol hquote hslash => exact readString_plain (plain_of_mem_encodeChar hcontrol hquote hslash) r
  | short e _ hmem =>
    simp only [shortEscapes, List.mem_cons, Prod.mk.injEq, List.not_mem_nil, or_false] at hmem
    rcases hmem with ⟨rfl, rfl⟩ | ⟨rfl, rfl⟩ | ⟨rfl, rfl⟩ | ⟨rfl, rfl⟩ | ⟨rfl, rfl⟩ | ⟨rfl, rfl⟩ | ⟨rfl, rfl⟩ |
      ⟨rfl, rfl⟩ <;> exact readString_short (by decide) (by decide) r
  | unicode _ digits hdigits =>
    have hc := Utf8.toNat_cases c
    have hlow : isLowHalf c.toNat = false := by simp [isLowHalf]; omega
    have hhigh : isHighHalf c.toNat = false := by simp [isHighHalf]; omega
    have hread := readString_unicode hdigits hlow hhigh r
    rwa [Char.ofNat_toNat] at hread
  | pair _ high low digits digits' hhigh hlow hc hdigits hdigits' =>
    have hread := readString_pair hdigits hdigits' hhigh hlow r
    have hcode : (high - 0xD800) * 1024 + (low - 0xDC00) + 0x10000 = c.toNat := by omega
    rw [hcode, Char.ofNat_toNat] at hread
    rw [← hread, List.append_assoc, List.append_assoc, List.append_assoc]
    rfl

/-- a literal is read letter by letter, up to its quote -/
theorem readString_letters {cs : List Char} {letters : List Bytes} (h : List.Forall₂ Letter cs letters)
    (rest : Bytes) : readString (letters.flatten ++ 0x22 :: rest) = .ok (Utf8.encodeChars cs, rest) := by
  induction h with
  | nil => exact readString_quote rest
  | cons hletter _ ih =>
    rw [List.flatten_cons, List.append_assoc, readString_letter hletter, ih]
    rfl

/-! ## Numbers -/

/-- bytes that do not go on with a number -/
def Follows (rest : Bytes) : Prop := ∀ b ∈ rest.head?, isDigit b = false ∧ b ≠ 0x2E ∧ b ≠ 0x65 ∧ b ≠ 0x45

theorem toNat_digit {c : Char} (h : c.isDigit = true) : 0x30 ≤ c.toNat ∧ c.toNat ≤ 0x39 := by
  simpa [Char.isDigit, UInt32.le_iff_toNat_le] using h

theorem isDigit_encode {c : Char} (h : c.isDigit = true) : isDigit (UInt8.ofNat c.toNat) = true := by
  obtain ⟨hlow, hhigh⟩ := toNat_digit h
  simp [isDigit, UInt8.le_iff_toNat_le]
  omega

/-- digits as bytes -/
theorem encodeChars_digits {cs : List Char} (h : ∀ c ∈ cs, c.isDigit = true) :
    (∀ b ∈ Utf8.encodeChars cs, isDigit b = true) ∧ asciiChars (Utf8.encodeChars cs) = cs := by
  have hascii : ∀ c ∈ cs, c.toNat < 0x80 := fun c hc => by
    have := toNat_digit (h c hc)
    omega
  rw [Utf8.encodeChars_ascii hascii]
  refine ⟨fun b hb => ?_, ?_⟩
  · obtain ⟨c, hc, rfl⟩ := List.mem_map.1 hb
    exact isDigit_encode (h c hc)
  · rw [asciiChars, List.map_map]
    refine (List.map_congr_left fun c hc => ?_).trans (List.map_id cs)
    have hbyte : (UInt8.ofNat c.toNat).toNat = c.toNat := by
      have := hascii c hc
      simp
      omega
    simp [hbyte, Char.ofNat_toNat]

theorem ne_of_isDigit {b c : UInt8} (hb : isDigit b = true) (hc : isDigit c = false) : b ≠ c := by
  rintro rfl
  exact absurd (hb.symm.trans hc) (by decide)

/-- digits are read as they are, up to a byte that does not go on with a number -/
theorem takeWhile_digits {ds : List Char} (hds : IsDigits ds) (hrest : ∀ b ∈ rest.head?, isDigit b = false) :
    (Utf8.encodeChars ds ++ rest).takeWhile isDigit = Utf8.encodeChars ds ∧
      (Utf8.encodeChars ds ++ rest).dropWhile isDigit = rest := by
  have hbytes := (encodeChars_digits hds.2).1
  rw [List.takeWhile_append_of_pos hbytes, List.dropWhile_append_of_pos hbytes]
  cases rest with
  | nil => simp
  | cons b r => simp [hrest b rfl]

/-- digits begin with one -/
theorem IsDigits.exists_cons {ds : List Char} (hds : IsDigits ds) :
    ∃ b bs, Utf8.encodeChars ds = b :: bs ∧ isDigit b = true := by
  obtain ⟨c, cs, rfl⟩ := List.exists_cons_of_ne_nil hds.1
  have hbytes := (encodeChars_digits hds.2).1
  cases hb : Utf8.encodeChars (c :: cs) with
  | nil => exact absurd (List.append_eq_nil_iff.1 hb).1 (Utf8.encodeChar_ne_nil c)
  | cons b bs => exact ⟨b, bs, rfl, hbytes b (hb ▸ List.mem_cons_self)⟩

/-- a numeral whose digits have been read, and which has no exponent yet, gets the one that follows -/
theorem exponentPart_spells {e : List Char} {x : Option (Bool × List Char)} (h : SpellsExponent x e)
    (hrest : Follows rest) (n : Numeral) (hn : n.exponent = none) :
    exponentPart n (Utf8.encodeChars e ++ rest) = numeralPart { n with exponent := x } rest := by
  cases h with
  | none =>
    have hsame : { n with exponent := none } = n := by rw [← hn]
    rw [hsame, show Utf8.encodeChars [] = [] from rfl, List.nil_append]
    cases rest with
    | nil => rfl
    | cons b r =>
      obtain ⟨-, -, hsmall, hlarge⟩ := hrest b rfl
      simp [exponentPart, hsmall, hlarge]
  | some e he down sign hsign ds hds =>
    obtain ⟨htake, hdrop⟩ := takeWhile_digits hds fun b hb => (hrest b hb).1
    have hdigits := (encodeChars_digits hds.2).2
    obtain ⟨b, bs, hb, hdigit⟩ := hds.exists_cons
    have hplus : (b == 0x2B) = false := beq_false_of_ne (ne_of_isDigit hdigit (by decide))
    have hminus : (b == 0x2D) = false := beq_false_of_ne (ne_of_isDigit hdigit (by decide))
    have htext : Utf8.encodeChars (e :: (sign ++ ds)) ++ rest =
        Utf8.encodeChar e ++ (Utf8.encodeChars sign ++ (b :: bs ++ rest)) := by
      rw [Utf8.encodeChars_cons, Utf8.encodeChars_append, hb, List.append_assoc, List.append_assoc]
    rw [hb] at htake hdrop hdigits
    rw [htext, List.cons_append]
    rw [List.cons_append] at htake hdrop
    have hletter : ∃ x, Utf8.encodeChar e = [x] ∧ (x == 0x65 || x == 0x45) = true := by
      rcases he with rfl | rfl
      · exact ⟨0x65, rfl, rfl⟩
      · exact ⟨0x45, rfl, rfl⟩
    obtain ⟨x, hx, hletter⟩ := hletter
    rw [hx]
    cases hsign with
    | none =>
      show exponentPart n (x :: b :: (bs ++ rest)) = _
      simp only [exponentPart, hletter, hplus, hminus, Bool.false_eq_true, if_false, if_true, htake, hdrop, hdigits,
        List.isEmpty_cons]
    | plus =>
      show exponentPart n (x :: 0x2B :: b :: (bs ++ rest)) = _
      simp only [exponentPart, hletter, beq_self_eq_true, Bool.false_eq_true, if_false, if_true, htake, hdrop, hdigits,
        List.isEmpty_cons]
    | minus =>
      show exponentPart n (x :: 0x2D :: b :: (bs ++ rest)) = _
      have hsigns : ((0x2D : UInt8) == 0x2B) = false := by decide
      simp only [exponentPart, hletter, hsigns, beq_self_eq_true, Bool.false_eq_true, if_false, if_true, htake, hdrop,
        hdigits, List.isEmpty_cons]

/-- what comes behind the digits of a numeral begins with no digit, and with a point only if there is a fraction -/
theorem head_exponent {e : List Char} {x : Option (Bool × List Char)} (h : SpellsExponent x e) (hrest : Follows rest) :
    ∀ b ∈ (Utf8.encodeChars e ++ rest).head?, isDigit b = false ∧ b ≠ 0x2E := by
  intro b hb
  cases h with
  | none => exact ⟨(hrest b hb).1, (hrest b hb).2.1⟩
  | some e he down sign _ ds _ =>
    rcases he with rfl | rfl
    · obtain rfl : 0x65 = b := Option.some.inj hb
      decide
    · obtain rfl : 0x45 = b := Option.some.inj hb
      decide

theorem fractionPart_spells {n : Numeral} (h : n.Spells s) {e : List Char} (he : SpellsExponent n.exponent e)
    (hrest : Follows rest) : fractionPart ⟨n.negative, n.whole, [], none, false⟩
      (Utf8.encodeChars ((if n.pointed then '.' :: n.fraction else []) ++ e) ++ rest) = numeralPart n rest := by
  obtain ⟨negative, whole, fraction, exponent, pointed⟩ := n
  have hfraction := h.fraction
  have hhead := head_exponent he hrest
  cases pointed with
  | false =>
    obtain rfl : fraction = [] := hfraction
    refine Eq.trans ?_ (exponentPart_spells he hrest ⟨negative, whole, [], none, false⟩ rfl)
    show fractionPart _ (Utf8.encodeChars e ++ rest) = _
    cases hs : Utf8.encodeChars e ++ rest with
    | nil => rfl
    | cons b r =>
      have hb : b ≠ 0x2E := (hhead b (by rw [hs]; rfl)).2
      simp [fractionPart, hb]
  | true =>
    have hds : IsDigits fraction := hfraction
    refine Eq.trans ?_ (exponentPart_spells he hrest ⟨negative, whole, fraction, none, true⟩ rfl)
    obtain ⟨htake, hdrop⟩ := takeWhile_digits hds fun b hb => (hhead b hb).1
    have hdigits := (encodeChars_digits hds.2).2
    obtain ⟨b, bs, hb, -⟩ := hds.exists_cons
    have htext : Utf8.encodeChars (('.' :: fraction) ++ e) ++ rest =
        0x2E :: (Utf8.encodeChars fraction ++ (Utf8.encodeChars e ++ rest)) := by
      rw [Utf8.encodeChars_append, Utf8.encodeChars_cons, List.append_assoc, List.append_assoc]
      rfl
    rw [if_pos rfl, htext]
    simp only [fractionPart, beq_self_eq_true, if_true, htake, hdrop, hdigits]
    rw [hb]
    rfl

/-- the digits before the point are read as they are, without a zero in front of others -/
theorem numberPart_whole {whole : List Char} (hwhole : IsDigits whole) (hlead : whole = ['0'] ∨ whole.head? ≠ some '0')
    (negative : Bool) {r : Bytes} (hr : ∀ b ∈ r.head?, isDigit b = false) :
    numberPart (Utf8.encodeChars (if negative then ['-'] else []) ++ (Utf8.encodeChars whole ++ r)) =
      fractionPart ⟨negative, whole, [], none, false⟩ r := by
  have hsign : ((0x30 : UInt8) == 0x2D) = false := by decide
  rcases hlead with rfl | hlead
  · -- a zero is read alone
    have hzero : Utf8.encodeChars ['0'] ++ r = 0x30 :: r := rfl
    rw [hzero]
    cases r with
    | nil => cases negative <;> rfl
    | cons y r =>
      have hy : isDigit y = false := hr y rfl
      cases negative with
      | false => simp [Utf8.encodeChars, numberPart, hsign, hy]
      | true =>
        show numberPart (0x2D :: 0x30 :: y :: r) = _
        simp [numberPart, hy]
  · -- digits without a zero in front
    obtain ⟨b, bs, hb, hdigit⟩ := hwhole.exists_cons
    obtain ⟨htake, hdrop⟩ := takeWhile_digits hwhole hr
    have hdigits := (encodeChars_digits hwhole.2).2
    have hminus : (b == 0x2D) = false := beq_false_of_ne (ne_of_isDigit hdigit (by decide))
    rw [hb] at htake hdrop hdigits ⊢
    have hzero : (b == 0x30) = false := by
      apply beq_false_of_ne
      rintro rfl
      rw [← hdigits] at hlead
      exact hlead rfl
    rw [List.cons_append] at htake hdrop ⊢
    cases negative with
    | false =>
      show numberPart (b :: (bs ++ r)) = _
      simp only [numberPart, hminus, hzero, hdigit, Bool.false_eq_true, if_false, if_true, htake, hdrop, hdigits]
    | true =>
      show numberPart (0x2D :: b :: (bs ++ r)) = _
      simp only [numberPart, beq_self_eq_true, hzero, hdigit, Bool.false_eq_true, if_false, if_true, htake, hdrop,
        hdigits]

/-- **A number is read as its numeral**, up to a byte that does not go on with it. -/
theorem numberPart_spells {n : Numeral} (h : n.Spells s) (hrest : Follows rest) :
    numberPart (s ++ rest) = numeralPart n rest := by
  obtain ⟨e, he, rfl⟩ := h.text
  have hhead := head_exponent he hrest
  have hbehind : ∀ b ∈ (Utf8.encodeChars ((if n.pointed then '.' :: n.fraction else []) ++ e) ++ rest).head?,
      isDigit b = false := by
    cases hpointed : n.pointed with
    | false => exact fun b hb => (hhead b hb).1
    | true =>
      intro b hb
      obtain rfl : 0x2E = b := Option.some.inj hb
      decide
  have hwhole := numberPart_whole h.whole h.lead n.negative hbehind
  rw [fractionPart_spells h he hrest] at hwhole
  rw [← hwhole, Utf8.encodeChars_append, Utf8.encodeChars_append _ (_ ++ e), List.append_assoc, List.append_assoc]

end MachineGateway.Json
