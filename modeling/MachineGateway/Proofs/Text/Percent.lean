/-
Reading escapes makes no text longer. An escape is three characters and stands for one byte, and one more byte makes
one character more of what is read at most. That holds even where `=` counts twice, as `weight` has it
(`Percent.weight_decode`, `Form.weight_decode`).

What is read is said by a relation between texts and bytes that knows nothing of the reading, `Percent.Spells`: an
escape stands for its byte, and every other character for its own bytes (`Percent.decode_eq_iff`). A form-encoded text
is read in the same way once its plus signs are spaces (`Form.decode_eq_iff`), and every text can be written in escapes
(`Percent.spells_escapes`).
-/
import MachineGateway.Proofs.Text.Utf8
import MachineGateway.Text.Percent

namespace MachineGateway

/-- the length of a text in which `=` counts twice -/
def weight (cs : List Char) : Nat := cs.length + cs.count '='

theorem weight_append (cs ds : List Char) : weight (cs ++ ds) = weight cs + weight ds := by
  simp only [weight, List.length_append, List.count_append]
  omega

theorem weight_cons (c : Char) (cs : List Char) : weight (c :: cs) = weight [c] + weight cs := weight_append [c] cs

theorem weight_singleton (c : Char) : 1 ≤ weight [c] ∧ weight [c] ≤ 2 := by
  simp only [weight, List.length_singleton, List.count_singleton]
  split_ifs <;> omega

namespace Utf8

/-- the text that bytes are shown as -/
def shownChars (b : Bytes) : List Char := (pieces b).map (·.getD '\uFFFD')

theorem toList_lossy (b : Bytes) : (lossy b).toList = shownChars b := by simp [lossy, shownChars]

theorem shownChars_encodeChar (c : Char) (r : Bytes) : shownChars (encodeChar c ++ r) = c :: shownChars r := by
  simp [shownChars, pieces_encodeChar]

theorem wholeChars_eq_some {ps : List (Option Char)} {cs : List Char} (h : wholeChars ps = some cs) :
    ps = cs.map some := by
  induction ps generalizing cs with
  | nil =>
    obtain rfl : [] = cs := by simpa [wholeChars] using h
    rfl
  | cons q ps ih =>
    cases q with
    | none => exact absurd h (by simp [wholeChars])
    | some c =>
      obtain ⟨ds, hds, rfl⟩ := Option.map_eq_some_iff.1 h
      rw [ih hds]
      rfl

theorem decode?_eq_some {b : Bytes} {s : String} (h : decode? b = some s) : shownChars b = s.toList := by
  obtain ⟨cs, hcs, rfl⟩ := Option.map_eq_some_iff.1 h
  simp [shownChars, wholeChars_eq_some hcs, Function.comp_def]

theorem pieces_tail {b : UInt8} (hb : isTail b = true) (r : Bytes) : pieces (b :: r) = none :: pieces r := by
  simp only [isTail, Bool.and_eq_true, decide_eq_true_eq, UInt8.le_iff_toNat_le, UInt8.lt_iff_toNat_lt,
    UInt8.reduceToNat] at hb
  rw [pieces.eq_def]
  simp only
  rw [if_neg, if_pos]
  all_goals simp [UInt8.lt_iff_toNat_lt]; omega

theorem isTail_of_secondOfThree {a b : UInt8} (h : secondOfThree a b = true) : isTail b = true := by
  simp only [secondOfThree, Bool.and_eq_true] at h
  exact h.1.1

theorem isTail_of_secondOfFour {a b : UInt8} (h : secondOfFour a b = true) : isTail b = true := by
  simp only [secondOfFour, Bool.and_eq_true] at h
  exact h.1.1

/-- a piece is a byte and the tail bytes that follow it -/
theorem pieces_cons (a : UInt8) (r : Bytes) :
    ∃ q t r', pieces (a :: r) = q :: pieces r' ∧ r = t ++ r' ∧ ∀ b ∈ t, isTail b = true := by
  have hnone : ∀ q : Option Char, ∃ q' t r', q :: pieces r = q' :: pieces r' ∧ r = t ++ r' ∧ ∀ b ∈ t, isTail b = true :=
    fun q => ⟨q, [], r, rfl, rfl, by simp⟩
  rw [pieces.eq_def]
  simp only
  -- the first byte says how many tail bytes belong to it; a stretch ends at the first one that is missing
  split_ifs with h1 h2 h3 h4 h5
  · exact hnone _
  · exact hnone _
  · split
    · exact hnone _
    · rename_i b r₂
      split_ifs with hb
      · exact ⟨_, [b], r₂, rfl, rfl, by simpa using hb⟩
      · exact hnone _
  · split
    · exact hnone _
    · rename_i b r₂
      split_ifs with hb
      · have hb' := isTail_of_secondOfThree hb
        split
        · exact ⟨none, [b], [], rfl, rfl, by simpa using hb'⟩
        · rename_i c r₃
          split_ifs with hc
          · exact ⟨_, [b, c], r₃, rfl, rfl, by simpa using ⟨hb', hc⟩⟩
          · exact ⟨none, [b], c :: r₃, rfl, rfl, by simpa using hb'⟩
      · exact hnone _
  · split
    · exact hnone _
    · rename_i b r₂
      split_ifs with hb
      · have hb' := isTail_of_secondOfFour hb
        split
        · exact ⟨none, [b], [], rfl, rfl, by simpa using hb'⟩
        · rename_i c r₃
          split_ifs with hc
          · split
            · exact ⟨none, [b, c], [], rfl, rfl, by simpa using ⟨hb', hc⟩⟩
            · rename_i d r₄
              split_ifs with hd
              · exact ⟨_, [b, c, d], r₄, rfl, rfl, by simpa using ⟨hb', hc, hd⟩⟩
              · exact ⟨none, [b, c], d :: r₄, rfl, rfl, by simpa using ⟨hb', hc⟩⟩
          · exact ⟨none, [b], c :: r₃, rfl, rfl, by simpa using hb'⟩
      · exact hnone _
  · exact hnone _

theorem weight_shownChars_tails {t : Bytes} (ht : ∀ b ∈ t, isTail b = true) (r : Bytes) :
    weight (shownChars r) ≤ weight (shownChars (t ++ r)) := by
  induction t with
  | nil => exact le_rfl
  | cons b t ih =>
    have hstep : shownChars (b :: (t ++ r)) = '\uFFFD' :: shownChars (t ++ r) := by
      simp [shownChars, pieces_tail (ht b List.mem_cons_self)]
    rw [List.cons_append, hstep, weight_cons]
    exact (ih fun x hx => ht x (List.mem_cons_of_mem b hx)).trans (Nat.le_add_left _ _)

/-- one more byte adds one character at most -/
theorem weight_shownChars_cons (a : UInt8) (r : Bytes) : weight (shownChars (a :: r)) ≤ 2 + weight (shownChars r) := by
  obtain ⟨q, t, r', hpieces, rfl, ht⟩ := pieces_cons a r
  have hstep : shownChars (a :: (t ++ r')) = q.getD '\uFFFD' :: shownChars r' := by simp [shownChars, hpieces]
  rw [hstep, weight_cons]
  have hq := (weight_singleton (q.getD '\uFFFD')).2
  have hr := weight_shownChars_tails ht r'
  omega

end Utf8

namespace Percent

theorem decode_of_ne {a : UInt8} (h : a ≠ 0x25) (r : Bytes) : decode (a :: r) = a :: decode r := by
  rw [decode.eq_def]
  simp [h]

/-- an escape, or a percent sign for itself -/
theorem decode_percent (r : Bytes) :
    decode (0x25 :: r) = 0x25 :: decode r ∨ ∃ h l r₂ b, r = h :: l :: r₂ ∧ (Text.hexValue? h).isSome = true ∧
      (Text.hexValue? l).isSome = true ∧ decode (0x25 :: r) = b :: decode r₂ := by
  match r with
  | [] => exact Or.inl rfl
  | [h] =>
    refine Or.inl ?_
    by_cases hh : h = 0x25
    · subst hh; rfl
    · rw [decode_of_ne hh]; rfl
  | h :: l :: r₂ =>
    rw [decode.eq_def]
    simp only [beq_self_eq_true, if_true]
    cases hx : Text.hexValue? h with
    | none => exact Or.inl rfl
    | some x =>
      cases hy : Text.hexValue? l with
      | none => exact Or.inl rfl
      | some y => exact Or.inr ⟨h, l, r₂, _, rfl, by simp [hx], by simp [hy], rfl⟩

theorem decode_append {t : Bytes} (h : 0x25 ∉ t) (r : Bytes) : decode (t ++ r) = t ++ decode r := by
  induction t with
  | nil => rfl
  | cons a t ih =>
    have ha : a ≠ 0x25 := by
      rintro rfl
      exact h List.mem_cons_self
    rw [List.cons_append, decode_of_ne ha, ih fun hm => h (List.mem_cons_of_mem a hm), List.cons_append]

theorem toNat_lt_of_hexValue {b : UInt8} (h : (Text.hexValue? b).isSome = true) : b.toNat < 0x80 := by
  unfold Text.hexValue? at h
  simp only [Bool.and_eq_true, decide_eq_true_eq, UInt8.le_iff_toNat_le, UInt8.reduceToNat] at h
  split_ifs at h with h1 h2 h3
  · omega
  · omega
  · omega
  · exact absurd h (by simp)

/-- **Reading escapes makes no text heavier.** -/
theorem weight_decode (cs : List Char) : weight (Utf8.shownChars (decode (Utf8.encodeChars cs))) ≤ weight cs := by
  induction hn : cs.length using Nat.strong_induction_on generalizing cs with
  | _ n ih =>
    subst hn
    cases cs with
    | nil => exact le_rfl
    | cons c cs =>
      have hrest := ih cs.length (by simp) cs rfl
      rw [Utf8.encodeChars_cons, weight_cons]
      by_cases hc : c = '%'
      · subst hc
        show weight (Utf8.shownChars (decode (0x25 :: Utf8.encodeChars cs))) ≤ _
        rcases decode_percent (Utf8.encodeChars cs) with h | ⟨h, l, r, b, hcs, hh, hl, hdec⟩
        · rw [h, show 0x25 :: decode (Utf8.encodeChars cs) = Utf8.encodeChar '%' ++ decode (Utf8.encodeChars cs) from rfl,
            Utf8.shownChars_encodeChar, weight_cons]
          omega
        · obtain ⟨c₁, cs₁, rfl, -, -, hcs₁⟩ := Utf8.encodeChars_eq_cons hcs (toNat_lt_of_hexValue hh)
          obtain ⟨c₂, cs₂, rfl, -, -, rfl⟩ := Utf8.encodeChars_eq_cons hcs₁ (toNat_lt_of_hexValue hl)
          have hshort := ih cs₂.length (by simp; omega) cs₂ rfl
          have hstep := Utf8.weight_shownChars_cons b (decode (Utf8.encodeChars cs₂))
          have h₁ := (weight_singleton c₁).1
          have h₂ := (weight_singleton c₂).1
          have h₀ := (weight_singleton '%').1
          rw [hdec, weight_cons c₁, weight_cons c₂]
          omega
      · have hnot : 0x25 ∉ Utf8.encodeChar c := fun hm => hc (Utf8.eq_of_mem_encodeChar (d := '%') (by decide) hm)
        rw [decode_append hnot, Utf8.shownChars_encodeChar, weight_cons]
        omega

theorem weight_decodeText {cs : List Char} {s : String} (h : decodeText? cs = some s) : weight s.toList ≤ weight cs := by
  rw [← Utf8.decode?_eq_some h]
  exact weight_decode cs

end Percent

namespace Form

/-- a plus sign read as a space -/
def spaced (c : Char) : Char := if c = '+' then ' ' else c

theorem encodeChars_spaced (cs : List Char) :
    (Utf8.encodeChars cs).map (fun b => if b == 0x2B then 0x20 else b) = Utf8.encodeChars (cs.map spaced) := by
  induction cs with
  | nil => rfl
  | cons c cs ih =>
    rw [Utf8.encodeChars_cons, List.map_append, ih, List.map_cons, Utf8.encodeChars_cons]
    by_cases hc : c = '+'
    · subst hc; rfl
    · have hsame : (Utf8.encodeChar c).map (fun b => if b == 0x2B then 0x20 else b) = Utf8.encodeChar c := by
        refine (List.map_congr_left fun b hb => ?_).trans (List.map_id _)
        have hne : b ≠ 0x2B := by
          rintro rfl
          exact hc (Utf8.eq_of_mem_encodeChar (d := '+') (by decide) hb)
        simp [hne]
      rw [hsame, spaced, if_neg hc]

theorem weight_spaced (cs : List Char) : weight (cs.map spaced) = weight cs := by
  induction cs with
  | nil => rfl
  | cons c cs ih =>
    have hc : weight [spaced c] = weight [c] := by
      unfold spaced
      split_ifs with hc
      · subst hc; rfl
      · rfl
    rw [List.map_cons, weight_cons, ih, hc, ← weight_cons]

theorem weight_decode (cs : List Char) : weight (decode cs).toList ≤ weight cs := by
  rw [decode, encodeChars_spaced, Utf8.toList_lossy, ← weight_spaced cs]
  exact Percent.weight_decode _

end Form

/-! ## What escaped texts stand for -/

namespace Text

/-- the hexadecimal digits in order of their values, in lower case -/
def lowerDigits : List Char := ['0', '1', '2', '3', '4', '5', '6', '7', '8', '9', 'a', 'b', 'c', 'd', 'e', 'f']

/-- the hexadecimal digits in order of their values, in upper case -/
def upperDigits : List Char := ['0', '1', '2', '3', '4', '5', '6', '7', '8', '9', 'A', 'B', 'C', 'D', 'E', 'F']

/-- a character is the hexadecimal digit of a value, in either case -/
def IsHexDigit (c : Char) (x : Nat) : Prop := lowerDigits[x]? = some c ∨ upperDigits[x]? = some c

instance (c : Char) (x : Nat) : Decidable (IsHexDigit c x) := inferInstanceAs (Decidable (_ ∨ _))

theorem IsHexDigit.lt {c : Char} {x : Nat} (h : IsHexDigit c x) : x < 16 := by
  rcases h with h | h <;> exact (List.getElem?_eq_some_iff.1 h).1

theorem IsHexDigit.ascii {c : Char} {x : Nat} (h : IsHexDigit c x) : c.toNat < 0x80 := by
  have hdigits : ∀ c ∈ lowerDigits ++ upperDigits, c.toNat < 0x80 := by simp [lowerDigits, upperDigits]
  rcases h with h | h
  · exact hdigits c (List.mem_append_left _ (List.mem_of_getElem? h))
  · exact hdigits c (List.mem_append_right _ (List.mem_of_getElem? h))

theorem hexValue?_eq_some_iff {c : Char} {x : Nat} (hc : c.toNat < 0x80) :
    hexValue? (UInt8.ofNat c.toNat) = some x ↔ IsHexDigit c x := by
  have hsmall : ∀ n < 0x80, ∀ y ∈ hexValue? (UInt8.ofNat n), y < 16 := by decide +kernel
  have hall : ∀ n < 0x80, ∀ y < 16, hexValue? (UInt8.ofNat n) = some y ↔ IsHexDigit (Char.ofNat n) y := by
    decide +kernel
  by_cases hx : x < 16
  · rw [hall c.toNat hc x hx, Char.ofNat_toNat]
  · exact ⟨fun h => absurd (hsmall _ hc x h) hx, fun h => absurd h.lt hx⟩

end Text

theorem Utf8.lossy_encode (s : String) : lossy (encode s) = s := by
  simp [lossy, pieces_encode, Function.comp_def]

namespace Percent

/-- the bytes that an escaped text stands for: the byte of each escape, and the bytes of every other character; a
percent sign that begins no escape is such a character -/
inductive Spells : List Char → Bytes → Prop
  | nil : Spells [] []
  | escape {h l : Char} {x y : Nat} {cs : List Char} {b : Bytes} (hx : Text.IsHexDigit h x) (hy : Text.IsHexDigit l y)
      (hrest : Spells cs b) : Spells ('%' :: h :: l :: cs) (UInt8.ofNat (16 * x + y) :: b)
  | char {c : Char} {cs : List Char} {b : Bytes}
      (hno : c = '%' → ∀ h l x y rest, cs = h :: l :: rest → Text.IsHexDigit h x → ¬ Text.IsHexDigit l y)
      (hrest : Spells cs b) : Spells (c :: cs) (Utf8.encodeChar c ++ b)

variable {cs : List Char} {b : Bytes}

theorem decode_escape {h l : Char} {x y : Nat} (hx : Text.IsHexDigit h x) (hy : Text.IsHexDigit l y)
    (cs : List Char) : decode (Utf8.encodeChars ('%' :: h :: l :: cs)) =
      UInt8.ofNat (16 * x + y) :: decode (Utf8.encodeChars cs) := by
  rw [Utf8.encodeChars_cons, Utf8.encodeChars_cons, Utf8.encodeChars_cons, Utf8.encodeChar_ascii hx.ascii,
    Utf8.encodeChar_ascii hy.ascii]
  change decode (0x25 :: UInt8.ofNat h.toNat :: UInt8.ofNat l.toNat :: Utf8.encodeChars cs) = _
  rw [decode.eq_def]
  simp [(Text.hexValue?_eq_some_iff hx.ascii).2 hx, (Text.hexValue?_eq_some_iff hy.ascii).2 hy]

/-- the hexadecimal digit that a byte of a text is -/
theorem exists_isHexDigit {a : UInt8} {r : Bytes} (h : Utf8.encodeChars cs = a :: r)
    (ha : (Text.hexValue? a).isSome = true) :
    ∃ c x rest, cs = c :: rest ∧ Text.IsHexDigit c x ∧ Utf8.encodeChars rest = r := by
  obtain ⟨c, rest, rfl, rfl, hc, hrest⟩ := Utf8.encodeChars_eq_cons h (toNat_lt_of_hexValue ha)
  obtain ⟨x, hx⟩ := Option.isSome_iff_exists.1 ha
  exact ⟨c, x, rest, rfl, (Text.hexValue?_eq_some_iff hc).1 hx, hrest⟩

/-- a character that begins no escape is read as it stands -/
theorem decode_char {c : Char}
    (hno : c = '%' → ∀ h l x y rest, cs = h :: l :: rest → Text.IsHexDigit h x → ¬ Text.IsHexDigit l y) :
    decode (Utf8.encodeChars (c :: cs)) = Utf8.encodeChar c ++ decode (Utf8.encodeChars cs) := by
  rw [Utf8.encodeChars_cons]
  by_cases hc : c = '%'
  · subst hc
    rcases decode_percent (Utf8.encodeChars cs) with h | ⟨h, l, r, b, hcs, hh, hl, -⟩
    · exact h
    · obtain ⟨c₁, x, cs₁, rfl, hx, hcs₁⟩ := exists_isHexDigit hcs hh
      obtain ⟨c₂, y, cs₂, rfl, hy, -⟩ := exists_isHexDigit hcs₁ hl
      exact absurd hy (hno rfl c₁ c₂ x y cs₂ rfl hx)
  · exact decode_append (fun hm => hc (Utf8.eq_of_mem_encodeChar (d := '%') (by decide) hm)) _

theorem decode_of_spells (h : Spells cs b) : decode (Utf8.encodeChars cs) = b := by
  induction h with
  | nil => rfl
  | escape hx hy _ ih => rw [decode_escape hx hy, ih]
  | char hno _ ih => rw [decode_char hno, ih]

theorem exists_spells (cs : List Char) : ∃ b, Spells cs b := by
  induction hn : cs.length using Nat.strong_induction_on generalizing cs with
  | _ n ih =>
    subst hn
    cases cs with
    | nil => exact ⟨[], .nil⟩
    | cons c cs =>
      by_cases hescape : c = '%' ∧ ∃ h l x y rest, cs = h :: l :: rest ∧ Text.IsHexDigit h x ∧ Text.IsHexDigit l y
      · obtain ⟨rfl, h, l, x, y, rest, rfl, hx, hy⟩ := hescape
        obtain ⟨b, hb⟩ := ih rest.length (by simp; omega) rest rfl
        exact ⟨_, .escape hx hy hb⟩
      · obtain ⟨b, hb⟩ := ih cs.length (by simp) cs rfl
        exact ⟨_, .char (fun hc h l x y rest hcs hx hy => hescape ⟨hc, h, l, x, y, rest, hcs, hx, hy⟩) hb⟩

/-- **Escapes are read as what they stand for,** and all else as it stands. -/
theorem decode_eq_iff : decode (Utf8.encodeChars cs) = b ↔ Spells cs b := by
  refine ⟨?_, decode_of_spells⟩
  rintro rfl
  obtain ⟨b, hb⟩ := exists_spells cs
  rwa [decode_of_spells hb]

/-- a digit in upper case -/
def upperDigit (x : Nat) : Char := Text.upperDigits.getD x ' '

theorem isHexDigit_upperDigit {x : Nat} (hx : x < 16) : Text.IsHexDigit (upperDigit x) x := by
  have hall : ∀ y < 16, Text.IsHexDigit (upperDigit y) y := by decide +kernel
  exact hall x hx

theorem escape_eq (a : UInt8) : escape a = ['%', upperDigit (a.toNat / 16), upperDigit (a.toNat % 16)] := by
  have hall : ∀ n < 256, escape (UInt8.ofNat n) = ['%', upperDigit (n / 16), upperDigit (n % 16)] := by decide +kernel
  have ha := hall a.toNat a.toNat_lt
  rwa [UInt8.ofNat_toNat] at ha

/-- bytes stand behind their escapes -/
theorem spells_escapes (b : Bytes) : Spells (b.flatMap escape) b := by
  induction b with
  | nil => exact .nil
  | cons a b ih =>
    have hhigh : a.toNat / 16 < 16 := by have := a.toNat_lt; omega
    have hvalue : UInt8.ofNat (16 * (a.toNat / 16) + a.toNat % 16) = a := by
      rw [Nat.div_add_mod, UInt8.ofNat_toNat]
    have hspells := Spells.escape (isHexDigit_upperDigit hhigh)
      (isHexDigit_upperDigit (Nat.mod_lt a.toNat (by decide : 0 < 16))) ih
    rw [hvalue] at hspells
    rw [List.flatMap_cons, escape_eq]
    exact hspells

theorem not_mem_escapes {c : Char} (hpercent : c ≠ '%') (hdigit : ∀ x < 16, upperDigit x ≠ c) (b : Bytes) :
    c ∉ b.flatMap escape := by
  intro hc
  obtain ⟨a, -, hc⟩ := List.mem_flatMap.1 hc
  have hhigh : a.toNat / 16 < 16 := by have := a.toNat_lt; omega
  have hlow : a.toNat % 16 < 16 := Nat.mod_lt _ (by decide)
  simp [escape_eq, hpercent, (hdigit _ hhigh).symm, (hdigit _ hlow).symm] at hc

end Percent

namespace Form

/-- **A form-encoded text is read with its plus signs as spaces and its escapes as the bytes that they stand for.** -/
theorem decode_eq_iff {cs : List Char} {s : String} :
    decode cs = s ↔ ∃ b, Percent.Spells (cs.map spaced) b ∧ Utf8.lossy b = s := by
  rw [decode, encodeChars_spaced]
  constructor
  · intro h
    exact ⟨_, Percent.decode_eq_iff.1 rfl, h⟩
  · rintro ⟨b, hb, h⟩
    rw [Percent.decode_of_spells hb, h]

/-- a text that is written in escapes is read as the same text -/
theorem decode_escapes (s : String) : decode ((Utf8.encode s).flatMap Percent.escape) = s := by
  have hplus : '+' ∉ (Utf8.encode s).flatMap Percent.escape :=
    Percent.not_mem_escapes (by decide) (by decide +kernel) _
  have hspaced : ((Utf8.encode s).flatMap Percent.escape).map spaced = (Utf8.encode s).flatMap Percent.escape := by
    refine (List.map_congr_left fun c hc => if_neg ?_).trans (List.map_id _)
    rintro rfl
    exact hplus hc
  refine decode_eq_iff.2 ⟨Utf8.encode s, ?_, Utf8.lossy_encode s⟩
  rw [hspaced]
  exact Percent.spells_escapes _

end Form

end MachineGateway
