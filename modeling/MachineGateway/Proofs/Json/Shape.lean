/-
JSON texts by their shape: nesting, lengths, the number and order of members, numerals, booleans and nulls, but not what
the strings say. `Shape.Spells` is the grammar of RFC 8259 in UTF-8, in which an escape may also stand for half of a
pair that is left over. A text between quotes is a row of letters (`IsContent`); the bytes of characters that may stand
for themselves can be put before it and taken away from it (`IsContent.append`, `IsContent.of_append`), and of a letter
that begins with another byte than `w`, no later byte is one (`IsLetter.eq_cons`).
-/
import MachineGateway.Proofs.Json.Grammar

namespace MachineGateway.Json

/-- what a JSON value looks like, whatever its strings say -/
inductive Shape where
  | null
  | bool (b : Bool)
  | number (n : Numeral)
  | text
  | array (items : List Shape)
  | object (members : List Shape)

/-! ## Strings -/

/-- a character that may stand between quotes for itself -/
structure IsQuotable (c : Char) : Prop where
  control : 0x20 ≤ c.toNat
  quote : c ≠ '"'
  slash : c ≠ '\\'

instance (c : Char) : Decidable (IsQuotable c) :=
  decidable_of_iff (0x20 ≤ c.toNat ∧ c ≠ '"' ∧ c ≠ '\\') ⟨fun h => ⟨h.1, h.2.1, h.2.2⟩, fun h => ⟨h.1, h.2, h.3⟩⟩

/-- a character between quotes: for itself, by a short escape, or by any four hexadecimal digits -/
inductive IsLetter : Bytes → Prop
  | plain (c : Char) (h : IsQuotable c) : IsLetter (Utf8.encodeChar c)
  | short (e c : Char) (h : (e, c) ∈ shortEscapes) : IsLetter (Utf8.encodeChars ['\\', e])
  | unicode (digits : Bytes) (hlength : digits.length = 4) (h : ∀ d ∈ digits, (Text.hexValue? d).isSome = true) :
      IsLetter (Utf8.encodeChars ['\\', 'u'] ++ digits)

/-- what stands between the quotes of a string -/
inductive IsContent : Bytes → Prop
  | nil : IsContent []
  | cons (letter s : Bytes) (hletter : IsLetter letter) (hs : IsContent s) : IsContent (letter ++ s)

def IsString (s : Bytes) : Prop := ∃ content, IsContent content ∧ s = 0x22 :: (content ++ [0x22])

/-! ## Values -/

/-- a value's text in an array or an object, with what stands before it and behind it up to the commas -/
structure Piece where
  before : Bytes
  shape : Shape
  text : Bytes
  after : Bytes

def Piece.bytes (p : Piece) : Bytes := p.before ++ p.text ++ p.after

/-- what stands before the value of a member: its name and a colon -/
def IsLabel (s : Bytes) : Prop :=
  ∃ w name w' w'', IsBlank w ∧ IsString name ∧ IsBlank w' ∧ IsBlank w'' ∧ s = w ++ name ++ w' ++ 0x3A :: w''

/-- a text of a shape -/
inductive Shape.Spells : Shape → Bytes → Prop
  | null : Spells .null (Utf8.encode "null")
  | bool (b : Bool) : Spells (.bool b) (Utf8.encode (if b then "true" else "false"))
  | number (n : Numeral) (s : Bytes) (h : n.Spells s) : Spells (.number n) s
  | text (s : Bytes) (h : IsString s) : Spells .text s
  | array (w : Bytes) (hw : IsBlank w) (ps : List Piece) (hbefore : ∀ p ∈ ps, IsBlank p.before)
      (hafter : ∀ p ∈ ps, IsBlank p.after) (h : ∀ p ∈ ps, Spells p.shape p.text) :
      Spells (.array (ps.map Piece.shape)) (0x5B :: (w ++ commaed (ps.map Piece.bytes) ++ [0x5D]))
  | object (w : Bytes) (hw : IsBlank w) (ps : List Piece) (hbefore : ∀ p ∈ ps, IsLabel p.before)
      (hafter : ∀ p ∈ ps, IsBlank p.after) (h : ∀ p ∈ ps, Spells p.shape p.text) :
      Spells (.object (ps.map Piece.shape)) (0x7B :: (w ++ commaed (ps.map Piece.bytes) ++ [0x7D]))

/-- a whole JSON text of a shape -/
def Shape.IsText (v : Shape) (s : Bytes) : Prop :=
  ∃ before text after, IsBlank before ∧ v.Spells text ∧ IsBlank after ∧ s = before ++ text ++ after

/-! ## Contents of strings -/

variable {s t : Bytes} {c : Char} {cs : List Char}

/-- characters that may stand for themselves can be put before a content -/
theorem IsContent.append (hcs : ∀ c ∈ cs, IsQuotable c) (hs : IsContent s) : IsContent (Utf8.encodeChars cs ++ s) := by
  induction cs with
  | nil => exact hs
  | cons c cs ih =>
    rw [Utf8.encodeChars_cons, List.append_assoc]
    exact .cons _ _ (.plain c (hcs c List.mem_cons_self)) (ih fun d hd => hcs d (List.mem_cons_of_mem c hd))

/-- a character that may stand for itself does not begin an escape -/
theorem IsQuotable.not_escape (hc : IsQuotable c) (h : Utf8.encodeChar c ++ s = 0x5C :: t) : False := by
  obtain ⟨x, r, hx⟩ := List.exists_cons_of_ne_nil (Utf8.encodeChar_ne_nil c)
  rw [hx, List.cons_append] at h
  obtain rfl : x = 0x5C := (List.cons.inj h).1
  have hmem : 0x5C ∈ Utf8.encodeChar c := by rw [hx]; exact List.mem_cons_self
  exact hc.slash (Utf8.eq_of_mem_encodeChar (d := '\\') (by decide) hmem)

theorem IsContent.of_append_char (hc : IsQuotable c) (h : IsContent (Utf8.encodeChar c ++ s)) : IsContent s := by
  generalize hwhole : Utf8.encodeChar c ++ s = whole at h
  cases h with
  | nil => exact absurd (List.append_eq_nil_iff.1 hwhole).1 (Utf8.encodeChar_ne_nil c)
  | cons letter s' hletter hs' =>
    cases hletter with
    | plain d hd =>
      obtain ⟨-, rfl⟩ := Utf8.encodeChar_append_inj hwhole
      exact hs'
    | short e d hmem => exact (hc.not_escape hwhole).elim
    | unicode digits hlength hdigits => exact (hc.not_escape hwhole).elim

/-- characters that may stand for themselves can be taken away from the beginning of a content -/
theorem IsContent.of_append (hcs : ∀ c ∈ cs, IsQuotable c) (h : IsContent (Utf8.encodeChars cs ++ s)) : IsContent s := by
  induction cs with
  | nil => exact h
  | cons c cs ih =>
    rw [Utf8.encodeChars_cons, List.append_assoc] at h
    exact ih (fun d hd => hcs d (List.mem_cons_of_mem c hd)) (h.of_append_char (hcs c List.mem_cons_self))

theorem not_mem_quote (hcs : ∀ c ∈ cs, IsQuotable c) : 0x22 ∉ Utf8.encodeChars cs := by
  intro hmem
  obtain ⟨c, hc, hb⟩ := List.mem_flatMap.1 hmem
  exact (hcs c hc).quote (Utf8.eq_of_mem_encodeChar (d := '"') (by decide) hb)

/-! ## Where a `w` can stand -/

/-- a letter has no `w` but at its beginning -/
theorem IsLetter.eq_cons (h : IsLetter s) : ∃ x r, s = x :: r ∧ 0x77 ∉ r := by
  cases h with
  | plain c hc =>
    obtain ⟨x, r, hx, hr⟩ := Utf8.encodeChar_eq_cons c
    exact ⟨x, r, hx, fun hmem => absurd (hr _ hmem) (by decide)⟩
  | short e c hmem =>
    refine ⟨0x5C, Utf8.encodeChars [e], rfl, ?_⟩
    intro hw
    have he : e = 'w' := Utf8.eq_of_mem_encodeChar (d := 'w') (by decide) (by simpa [Utf8.encodeChars] using hw)
    subst he
    revert hmem
    simp [shortEscapes]
  | unicode digits hlength hdigits =>
    refine ⟨0x5C, 0x75 :: digits, rfl, ?_⟩
    intro hw
    rcases List.mem_cons.1 hw with hw | hw
    · exact absurd hw (by decide)
    · exact absurd (hdigits _ hw) (by decide)

theorem not_mem_of_isBlank (hs : IsBlank s) : 0x77 ∉ s := by
  intro hmem
  exact absurd (hs _ hmem) (by decide)

theorem IsDigits.not_mem {ds : List Char} (h : IsDigits ds) : 'w' ∉ ds := by
  intro hmem
  exact absurd (h.2 _ hmem) (by decide)

theorem SpellsExponent.not_mem {x : Option (Bool × List Char)} {e : List Char} (h : SpellsExponent x e) : 'w' ∉ e := by
  cases h with
  | none => exact List.not_mem_nil
  | some m hm down sign hsign ds hds =>
    have hsign' : 'w' ∉ sign := by cases hsign <;> decide
    have hm' : 'w' ≠ m := by rcases hm with rfl | rfl <;> decide
    simp [hm', hsign', hds.not_mem]

theorem Numeral.Spells.not_mem {n : Numeral} (h : n.Spells s) : 0x77 ∉ s := by
  obtain ⟨e, he, rfl⟩ := h.text
  intro hmem
  obtain ⟨c, hc, hb⟩ := List.mem_flatMap.1 hmem
  obtain rfl : c = 'w' := Utf8.eq_of_mem_encodeChar (d := 'w') (by decide) hb
  have hfraction : 'w' ∉ n.fraction := by
    have hspelled := h.fraction
    split_ifs at hspelled with hpoint
    · exact hspelled.not_mem
    · rw [hspelled]
      exact List.not_mem_nil
  revert hc
  cases n.negative <;> cases n.pointed <;> simp [h.whole.not_mem, hfraction, he.not_mem]

end MachineGateway.Json
