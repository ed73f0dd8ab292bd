/-
Encoding and decoding text. The bytes of a character are read back as that character whatever follows them
(`pieces_encodeChar`), so the bytes of a text are read back as the text, and texts with equal bytes are equal. Bytes
are well-formed exactly if what is left behind a text at their front is (`wellFormed_encode_append_iff`).
A header value is shown as text if all of it is visible, and then it is the bytes of that text
(`visibleText?_eq_some`).
-/
import Mathlib.Tactic
import MachineGateway.Text.Utf8

namespace MachineGateway

namespace Utf8

/-! ## One character -/

theorem toNat_cases (c : Char) : c.toNat < 0xD800 ∨ 0xDFFF < c.toNat ∧ c.toNat < 0x110000 := c.valid

theorem isTail_ofNat (k : Nat) : isTail (UInt8.ofNat (0x80 + k % 64)) = true := by
  have h1 : 0x80 + k % 64 < 256 := by omega
  simp [isTail, UInt8.le_iff_toNat_le, UInt8.lt_iff_toNat_lt, Nat.mod_eq_of_lt h1]
  omega

theorem tailBits_ofNat (k : Nat) : tailBits (UInt8.ofNat (0x80 + k % 64)) = k % 64 := by
  have h1 : 0x80 + k % 64 < 256 := by omega
  simp only [tailBits, UInt8.toNat_ofNat', Nat.reducePow, Nat.mod_eq_of_lt h1]
  omega

theorem secondOfThree_ofNat {a k : Nat} (ha : a < 256) (h0 : a = 0xE0 → 0x20 ≤ k % 64) (h1 : a = 0xED → k % 64 < 0x20) :
    secondOfThree (UInt8.ofNat a) (UInt8.ofNat (0x80 + k % 64)) = true := by
  unfold secondOfThree
  rw [isTail_ofNat]
  simp only [Bool.true_and, Bool.and_eq_true, Bool.or_eq_true, bne_iff_ne, decide_eq_true_eq, UInt8.le_iff_toNat_le,
    UInt8.lt_iff_toNat_lt, ne_eq, ← UInt8.toNat_inj, UInt8.toNat_ofNat', UInt8.reduceToNat]
  omega

theorem secondOfFour_ofNat {a k : Nat} (ha : a < 256) (h0 : a = 0xF0 → 0x10 ≤ k % 64) (h1 : a = 0xF4 → k % 64 < 0x10) :
    secondOfFour (UInt8.ofNat a) (UInt8.ofNat (0x80 + k % 64)) = true := by
  unfold secondOfFour
  rw [isTail_ofNat]
  simp only [Bool.true_and, Bool.and_eq_true, Bool.or_eq_true, bne_iff_ne, decide_eq_true_eq, UInt8.le_iff_toNat_le,
    UInt8.lt_iff_toNat_lt, ne_eq, ← UInt8.toNat_inj, UInt8.toNat_ofNat', UInt8.reduceToNat]
  omega

theorem pieces_encodeChar (c : Char) (r : Bytes) : pieces (encodeChar c ++ r) = some c :: pieces r := by
  have hc := toNat_cases c
  have hback : ∀ n, n = c.toNat → Char.ofNat n = c := fun n h => by rw [h, Char.ofNat_toNat]
  unfold encodeChar
  simp only
  split_ifs with h1 h2 h3
  · simp only [List.cons_append, List.nil_append]
    rw [pieces.eq_def]
    simp only
    rw [if_pos, hback]
    · simp; omega
    · simp [UInt8.lt_iff_toNat_lt]; omega
  · simp only [List.cons_append, List.nil_append]
    rw [pieces.eq_def]
    simp only
    rw [if_neg, if_neg, if_pos, if_pos (isTail_ofNat _), tailBits_ofNat, hback]
    · simp; omega
    all_goals simp [UInt8.lt_iff_toNat_lt]; omega
  · simp only [List.cons_append, List.nil_append]
    rw [pieces.eq_def]
    simp only
    rw [if_neg, if_neg, if_neg, if_pos, if_pos, if_pos (isTail_ofNat _), tailBits_ofNat, tailBits_ofNat, hback]
    · simp; omega
    · exact secondOfThree_ofNat (by omega) (by omega) (by omega)
    all_goals simp [UInt8.lt_iff_toNat_lt]; omega
  · simp only [List.cons_append, List.nil_append]
    rw [pieces.eq_def]
    simp only
    rw [if_neg, if_neg, if_neg, if_neg, if_pos, if_pos, if_pos (isTail_ofNat _), if_pos (isTail_ofNat _),
      tailBits_ofNat, tailBits_ofNat, tailBits_ofNat, hback]
    · simp; omega
    · exact secondOfFour_ofNat (by omega) (by omega) (by omega)
    all_goals simp [UInt8.lt_iff_toNat_lt]; omega

/-! ## Texts -/

theorem pieces_encodeChars (cs : List Char) (r : Bytes) : pieces (encodeChars cs ++ r) = cs.map some ++ pieces r := by
  induction cs with
  | nil => rfl
  | cons c cs ih =>
    show pieces ((encodeChar c ++ encodeChars cs) ++ r) = _
    rw [List.append_assoc, pieces_encodeChar, ih]
    rfl

theorem wholeChars_map_some (cs : List Char) : wholeChars (cs.map some) = some cs := by
  induction cs with
  | nil => rfl
  | cons c cs ih =>
    show (wholeChars (cs.map some)).map (c :: ·) = some (c :: cs)
    rw [ih]
    rfl

theorem pieces_encode (s : String) : pieces (encode s) = s.toList.map some := by
  have h := pieces_encodeChars s.toList []
  rw [List.append_nil, show pieces [] = [] from rfl, List.append_nil] at h
  exact h

/-- the bytes of a text are read back as that text -/
theorem decode?_encode (s : String) : decode? (encode s) = some s := by
  simp [decode?, decodeChars?, pieces_encode, wholeChars_map_some]

theorem encode_injective : Function.Injective encode := fun s t h => by
  have hs := decode?_encode s
  rw [h, decode?_encode] at hs
  exact (Option.some.inj hs).symm

theorem encodeChars_append (cs ds : List Char) : encodeChars (cs ++ ds) = encodeChars cs ++ encodeChars ds :=
  List.flatMap_append

theorem encodeChars_cons (c : Char) (cs : List Char) : encodeChars (c :: cs) = encodeChar c ++ encodeChars cs := rfl

theorem encode_append (s t : String) : encode (s ++ t) = encode s ++ encode t := by
  simp [encode, encodeChars_append]

theorem encode_ofList (cs : List Char) : encode (String.ofList cs) = encodeChars cs := by simp [encode]

/-! ## ASCII -/

theorem encodeChar_ascii {c : Char} (h : c.toNat < 0x80) : encodeChar c = [UInt8.ofNat c.toNat] := by
  simp [encodeChar, h]

theorem encodeChars_ascii {cs : List Char} (h : ∀ c ∈ cs, c.toNat < 0x80) :
    encodeChars cs = cs.map fun c => UInt8.ofNat c.toNat := by
  induction cs with
  | nil => rfl
  | cons c cs ih =>
    rw [encodeChars_cons, encodeChar_ascii (h c List.mem_cons_self), ih fun d hd => h d (List.mem_cons_of_mem c hd)]
    rfl

/-- the bytes of any other character are no ASCII -/
theorem le_of_mem_encodeChar {c : Char} {b : UInt8} (h : 0x80 ≤ c.toNat) (hb : b ∈ encodeChar c) : 0x80 ≤ b.toNat := by
  have hc := toNat_cases c
  unfold encodeChar at hb
  simp only at hb
  split_ifs at hb with h1 h2 h3
  · omega
  all_goals
    simp only [List.mem_cons, List.not_mem_nil, or_false] at hb
    rcases hb with rfl | rfl | rfl | rfl <;> simp only [UInt8.toNat_ofNat', Nat.reducePow] <;> omega

theorem encodeChar_ne_nil (c : Char) : encodeChar c ≠ [] := by
  unfold encodeChar
  simp only
  split_ifs <;> exact List.cons_ne_nil _ _

/-- no later byte of a character is ASCII -/
theorem encodeChar_eq_cons (c : Char) : ∃ b r, encodeChar c = b :: r ∧ ∀ x ∈ r, 0x80 ≤ x.toNat := by
  by_cases hc : c.toNat < 0x80
  · exact ⟨_, [], encodeChar_ascii hc, by simp⟩
  · obtain ⟨b, r, hb⟩ := List.exists_cons_of_ne_nil (encodeChar_ne_nil c)
    refine ⟨b, r, hb, fun x hx => le_of_mem_encodeChar (Nat.le_of_not_lt hc) ?_⟩
    rw [hb]
    exact List.mem_cons_of_mem b hx

/-- an ASCII byte of a character is the whole of it -/
theorem eq_of_mem_encodeChar {c d : Char} (hd : d.toNat < 0x80) (h : UInt8.ofNat d.toNat ∈ encodeChar c) : c = d := by
  have hbyte : (UInt8.ofNat d.toNat).toNat = d.toNat := by simp; omega
  have hc : c.toNat < 0x80 := by
    by_contra hc
    have := le_of_mem_encodeChar (Nat.le_of_not_lt hc) h
    omega
  rw [encodeChar_ascii hc, List.mem_singleton] at h
  have hnat := congrArg UInt8.toNat h
  rw [hbyte] at hnat
  have : (UInt8.ofNat c.toNat).toNat = c.toNat := by simp; omega
  rw [← Char.ofNat_toNat c, ← Char.ofNat_toNat d, hnat, this]

/-- an ASCII byte of a text is a character of its own -/
theorem encodeChars_eq_cons {cs : List Char} {b : UInt8} {r : Bytes} (h : encodeChars cs = b :: r)
    (hb : b.toNat < 0x80) : ∃ c cs', cs = c :: cs' ∧ b = UInt8.ofNat c.toNat ∧ c.toNat < 0x80 ∧ encodeChars cs' = r := by
  cases cs with
  | nil => exact absurd h (by simp [encodeChars])
  | cons c cs =>
    rw [encodeChars_cons] at h
    have hc : c.toNat < 0x80 := by
      by_contra hc
      obtain ⟨x, t, ht⟩ := List.exists_cons_of_ne_nil (encodeChar_ne_nil c)
      rw [ht] at h
      obtain rfl : x = b := (List.cons.inj h).1
      have := le_of_mem_encodeChar (Nat.le_of_not_lt hc) (ht ▸ List.mem_cons_self)
      omega
    rw [encodeChar_ascii hc] at h
    obtain ⟨h1, h2⟩ := List.cons.inj h
    exact ⟨c, cs, rfl, h1.symm, hc, h2⟩

theorem toNat_charOf (b : UInt8) : (Char.ofNat b.toNat).toNat = b.toNat := by
  have h : b.toNat < 256 := b.toNat_lt
  have hv : b.toNat.isValidChar := Or.inl (by omega)
  rw [Char.ofNat, dif_pos hv]
  rfl

/-! ## Well-formed bytes -/

/-- a character and what follows it are known from the bytes -/
theorem encodeChar_append_inj {c d : Char} {s t : Bytes} (h : encodeChar c ++ s = encodeChar d ++ t) :
    c = d ∧ s = t := by
  have hpieces := congrArg pieces h
  rw [pieces_encodeChar, pieces_encodeChar] at hpieces
  obtain rfl : c = d := Option.some.inj (List.cons.inj hpieces).1
  exact ⟨rfl, List.append_cancel_left h⟩

/-- bytes that are those of a text -/
def WellFormed (b : Bytes) : Prop := ∃ cs, encodeChars cs = b

theorem wellFormed_encodeChar_append_iff {c : Char} {b : Bytes} : WellFormed (encodeChar c ++ b) ↔ WellFormed b := by
  constructor
  · rintro ⟨cs, hcs⟩
    cases cs with
    | nil => exact absurd (List.append_eq_nil_iff.1 hcs.symm).1 (encodeChar_ne_nil c)
    | cons d cs => exact ⟨cs, (encodeChar_append_inj hcs).2⟩
  · rintro ⟨cs, rfl⟩
    exact ⟨c :: cs, rfl⟩

/-- well-formed bytes are none at all or begin with a character -/
theorem WellFormed.eq_nil_or {b : Bytes} (h : WellFormed b) : b = [] ∨ ∃ c r, b = encodeChar c ++ r := by
  obtain ⟨cs, rfl⟩ := h
  cases cs with
  | nil => exact Or.inl rfl
  | cons c cs => exact Or.inr ⟨c, encodeChars cs, rfl⟩

/-- a text can be put before bytes and taken away from them -/
theorem wellFormed_encode_append_iff {s : String} {b : Bytes} : WellFormed (encode s ++ b) ↔ WellFormed b := by
  unfold encode
  induction s.toList with
  | nil => rfl
  | cons c cs ih => rw [encodeChars_cons, List.append_assoc, wellFormed_encodeChar_append_iff, ih]

/-- one character is encoded as the library does it -/
theorem encodeChar_eq_utf8EncodeChar (c : Char) : encodeChar c = String.utf8EncodeChar c := by
  have hc := toNat_cases c
  have hnat : c.val.toNat = c.toNat := rfl
  unfold encodeChar String.utf8EncodeChar
  simp only [hnat, Nat.add_comm (_ % 64) 128, ← Nat.lt_succ_iff]
  split_ifs with h1 h2 h3
  · rfl
  · rw [show c.toNat / 64 % 32 + 192 = 0xC0 + c.toNat / 64 by omega]
  · rw [show c.toNat / 4096 % 16 + 224 = 0xE0 + c.toNat / 4096 by omega]
  · rw [show c.toNat / 262144 % 8 + 240 = 0xF0 + c.toNat / 262144 by omega]

/-- well-formed is what the library takes for valid UTF-8 -/
theorem wellFormed_iff_isValidUTF8 {b : Bytes} : WellFormed b ↔ b.toByteArray.IsValidUTF8 := by
  have hencode : ∀ cs, (encodeChars cs).toByteArray = List.utf8Encode cs := fun cs =>
    congrArg List.toByteArray (List.flatMap_congr fun c _ => encodeChar_eq_utf8EncodeChar c)
  constructor
  · rintro ⟨cs, rfl⟩
    exact ⟨cs, hencode cs⟩
  · rintro ⟨cs, hcs⟩
    rw [← hencode] at hcs
    exact ⟨cs, by simpa using congrArg (fun x => x.data.toList) hcs.symm⟩

end Utf8

/-- what holds of the bytes below a bound, tried one by one, holds of each of them -/
theorem of_byte_lt {P : UInt8 → Prop} {n : Nat} (b : UInt8) (hb : b.toNat < n) (h : ∀ m < n, P (UInt8.ofNat m)) :
    P b := by
  have hm := h b.toNat hb
  rwa [UInt8.ofNat_toNat] at hm

theorem isVisibleByte_lt {b : UInt8} (h : isVisibleByte b = true) : b.toNat < 0x80 := by
  simp only [isVisibleByte, Bool.or_eq_true, beq_iff_eq, Bool.and_eq_true, decide_eq_true_eq,
    UInt8.lt_iff_toNat_lt] at h
  rcases h with rfl | ⟨-, h⟩
  · decide
  · exact h.trans (by decide)

/-- visible bytes are the bytes of the text that they show -/
theorem encode_of_visible {b : Bytes} (h : b.all isVisibleByte = true) :
    Utf8.encode (String.ofList (b.map fun x => Char.ofNat x.toNat)) = b := by
  rw [Utf8.encode_ofList, Utf8.encodeChars_ascii, List.map_map]
  · refine (List.map_congr_left fun x _ => ?_).trans (List.map_id b)
    simp [Utf8.toNat_charOf]
  · intro c hc
    obtain ⟨x, hx, rfl⟩ := List.mem_map.1 hc
    rw [Utf8.toNat_charOf]
    exact isVisibleByte_lt (List.all_eq_true.1 h x hx)

theorem visibleText?_eq_some {b : Bytes} {t : String} :
    visibleText? b = some t ↔ b.all isVisibleByte = true ∧ Utf8.encode t = b := by
  unfold visibleText?
  constructor
  · intro h
    split_ifs at h with hv
    obtain rfl := Option.some.inj h
    exact ⟨hv, encode_of_visible hv⟩
  · rintro ⟨hv, ht⟩
    rw [if_pos hv, Utf8.encode_injective (ht.trans (encode_of_visible hv).symm)]

theorem isVisibleByte_of_visibleText? {v : Bytes} {t : String} (h : visibleText? v = some t) :
    ∀ b ∈ v, isVisibleByte b = true :=
  List.all_eq_true.1 (visibleText?_eq_some.1 h).1

end MachineGateway
