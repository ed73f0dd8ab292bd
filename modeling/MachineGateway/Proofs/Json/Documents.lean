/-
Documents and their texts. What is written for a plain document, one without flaws whose numbers are natural and of 64
bits, is a text of the grammar for a value with this document (`Doc.Plain.exists_spells`). Hence it is read as the
document (`ofBytes_render`). A text determines its document, and a document of texts its value: what is written for a
record of texts is a text for that object and for no other value (`isText_texts_iff`).
-/
import MachineGateway.Json.Write
import MachineGateway.Proofs.Json.Completeness

namespace MachineGateway.Json

/-- a document that can be written: without flaws, with names as text, and with natural numbers of 64 bits -/
inductive Doc.Plain : Doc → Prop
  | null : Plain .null
  | bool (b : Bool) : Plain (.bool b)
  | natural (n : Nat) (h : n ≤ Text.wordLimit) : Plain (.number (.natural n))
  | text (s : String) : Plain (.text s)
  | array (items : List Doc) (h : ∀ d ∈ items, Plain d) : Plain (.array items none)
  | record (members : List (String × Doc)) (h : ∀ m ∈ members, Plain m.2) : Plain (.record members)

/-! ## Literals -/

theorem isHex_control : ∀ n < 0x20, IsHex (Utf8.encodeChars (Text.hexPadded 4 n)) n := by decide +kernel

/-- what is written for a character stands for it -/
theorem letter_writeChar (c : Char) : Letter c (Utf8.encodeChars (writeChar c)) := by
  have hmem {e d : Char} (h : (e, d) ∈ shortEscapes) (hc : c = d) : Letter c (Utf8.encodeChars ['\\', e]) := by
    subst hc
    exact .short e c h
  unfold writeChar
  split_ifs with hmark hb ht hn hf hr hlow
  · rw [Bool.or_eq_true, beq_iff_eq, beq_iff_eq] at hmark
    rcases hmark with rfl | rfl
    · exact hmem (by decide) rfl
    · exact hmem (by decide) rfl
  · exact hmem (by decide) (eq_of_beq hb)
  · exact hmem (by decide) (eq_of_beq ht)
  · exact hmem (by decide) (eq_of_beq hn)
  · exact hmem (by decide) (eq_of_beq hf)
  · exact hmem (by decide) (eq_of_beq hr)
  · rw [Utf8.encodeChars_append]
    exact .unicode c _ (isHex_control c.toNat hlow)
  · rw [Bool.or_eq_true, beq_iff_eq, beq_iff_eq, not_or] at hmark
    rw [Utf8.encodeChars_cons, show Utf8.encodeChars [] = [] from rfl, List.append_nil]
    exact .plain c (Nat.le_of_not_lt hlow) hmark.1 hmark.2

/-- what is written for a text is a literal for it -/
theorem isLiteral_writeText (s : String) : IsLiteral s (Utf8.encodeChars (writeText s)) := by
  refine ⟨s.toList.map fun c => Utf8.encodeChars (writeChar c), ?_, ?_⟩
  · rw [List.forall₂_map_right_iff]
    exact List.forall₂_same.2 fun c _ => letter_writeChar c
  · have hletters : Utf8.encodeChars (s.toList.flatMap writeChar) =
        (s.toList.map fun c => Utf8.encodeChars (writeChar c)).flatten := by
      induction s.toList with
      | nil => rfl
      | cons c cs ih => rw [List.flatMap_cons, Utf8.encodeChars_append, ih, List.map_cons, List.flatten_cons]
    rw [writeText, List.cons_append, Utf8.encodeChars_cons, Utf8.encodeChars_append, hletters]
    rfl

/-- a number other than zero is written without a leading zero -/
theorem head_toDigits {n : Nat} (h : n ≠ 0) : (Nat.toDigits 10 n).head? ≠ some '0' := by
  induction n using Nat.strongRecOn with
  | ind n ih =>
    by_cases hn : n < 10
    · rw [Nat.toDigits_of_lt_base hn]
      interval_cases n <;> simp_all
    · rw [Nat.toDigits_of_base_le (by decide) (Nat.le_of_not_lt hn),
        List.head?_append_of_ne_nil _ Nat.toDigits_ne_nil]
      exact ih (n / 10) (by omega) (by omega)

/-- the numeral of a natural number: its digits -/
def Numeral.ofNat (n : Nat) : Numeral := ⟨false, Nat.toDigits 10 n, [], none, false⟩

theorem Numeral.spells_ofNat (n : Nat) : (ofNat n).Spells (Utf8.encodeChars (Nat.toDigits 10 n)) where
  whole := ⟨Nat.toDigits_ne_nil, fun _ hc => Nat.isDigit_of_mem_toDigits (by decide) (by decide) hc⟩
  lead := by
    by_cases hzero : n = 0
    · subst hzero
      exact Or.inl rfl
    · exact Or.inr (head_toDigits hzero)
  fraction := rfl
  text := ⟨[], .none, by simp [ofNat]⟩

theorem Numeral.doc_ofNat {n : Nat} (h : n ≤ Text.wordLimit) : (ofNat n).doc = .number (.natural n) := by
  have hdigits : Text.digitsValue (Nat.toDigits 10 n) = n := Nat.ofDigitChars_toDigits (by decide) (by decide)
  have hvalue : (ofNat n).value? = some (.natural n) := by simp [ofNat, value?, hdigits, h]
  rw [Numeral.doc, hvalue]

/-! ## Items and members -/

theorem commaed_cons_cons (p q : Bytes) (ps : List Bytes) :
    commaed (p :: q :: ps) = p ++ 0x2C :: commaed (q :: ps) := by simp [commaed]

/-- items are written with commas between them -/
theorem encodeChars_writeItems (items : List Doc) :
    Utf8.encodeChars (writeItems items) = commaed (items.map fun d => Utf8.encodeChars (write d)) := by
  induction items with
  | nil => rfl
  | cons d ds ih =>
    cases ds with
    | nil => simp [writeItems, commaed]
    | cons d' ds =>
      rw [writeItems, Utf8.encodeChars_append, Utf8.encodeChars_cons, ih]
      · exact (commaed_cons_cons _ _ _).symm
      · simp

/-- members are written with commas between them -/
theorem encodeChars_writeMembers (members : List (Doc × Doc)) :
    Utf8.encodeChars (writeMembers members) = commaed (members.map fun m => Utf8.encodeChars (writeMember m)) := by
  induction members with
  | nil => rfl
  | cons m ms ih =>
    cases ms with
    | nil => simp [writeMembers, commaed]
    | cons m' ms =>
      rw [writeMembers, Utf8.encodeChars_append, Utf8.encodeChars_cons, ih]
      · exact (commaed_cons_cons _ _ _).symm
      · simp

/-- a value with this document, which is spelled as it is written -/
def Doc.IsWritten (d : Doc) : Prop := ∃ v : Value, v.doc = d ∧ v.Spells (Utf8.encodeChars (write d))

theorem isBlank_nil : IsBlank [] := by simp [IsBlank]

/-- items are elements without white space -/
theorem exists_elements {items : List Doc} (h : ∀ d ∈ items, d.IsWritten) :
    ∃ es : List Element, Value.docs (es.map Element.value) = items ∧
      es.map Element.bytes = items.map (fun d => Utf8.encodeChars (write d)) ∧
      ∀ e ∈ es, e.IsSpaced ∧ e.value.Spells e.text := by
  induction items with
  | nil => exact ⟨[], rfl, rfl, by simp⟩
  | cons d ds ih =>
    obtain ⟨⟨v, hdoc, hspells⟩, hds⟩ := List.forall_mem_cons.1 h
    obtain ⟨es, hdocs, hbytes, hes⟩ := ih hds
    refine ⟨⟨[], v, Utf8.encodeChars (write d), []⟩ :: es, ?_, ?_, ?_⟩
    · rw [List.map_cons, Value.docs, hdoc, hdocs]
    · rw [List.map_cons, List.map_cons, hbytes, Element.bytes, List.nil_append, List.append_nil]
    · exact List.forall_mem_cons.2 ⟨⟨⟨isBlank_nil, isBlank_nil⟩, hspells⟩, hes⟩

/-- named documents are members without white space -/
theorem exists_members {members : List (String × Doc)} (h : ∀ m ∈ members, m.2.IsWritten) :
    ∃ ms : List Member, Value.docMembers (ms.map Member.field) = members.map (fun m => (.text m.1, m.2)) ∧
      ms.map Member.bytes = members.map (fun m => Utf8.encodeChars (writeMember (.text m.1, m.2))) ∧
      ∀ m ∈ ms, m.IsSpaced ∧ m.element.value.Spells m.element.text := by
  induction members with
  | nil => exact ⟨[], rfl, rfl, by simp⟩
  | cons m ms ih =>
    obtain ⟨⟨v, hdoc, hspells⟩, hms⟩ := List.forall_mem_cons.1 h
    obtain ⟨others, hdocs, hbytes, hothers⟩ := ih hms
    have hliteral := isLiteral_writeText m.1
    refine ⟨⟨[], m.1, Utf8.encodeChars (writeText m.1), [], [], v, Utf8.encodeChars (write m.2), []⟩ :: others,
      ?_, ?_, ?_⟩
    · rw [List.map_cons, Value.docMembers, Member.field, Value.docMember, hdoc, hdocs, List.map_cons]
    · rw [List.map_cons, List.map_cons, hbytes, writeMember, Utf8.encodeChars_append, Utf8.encodeChars_cons]
      simp [Member.bytes, Element.bytes, write]
      rfl
    · exact List.forall_mem_cons.2 ⟨⟨⟨isBlank_nil, hliteral, isBlank_nil, isBlank_nil, isBlank_nil⟩, hspells⟩, hothers⟩

/-! ## Documents -/

/-- **What is written for a plain document is a text for a value with this document.** -/
theorem Doc.Plain.exists_spells {d : Doc} (h : d.Plain) : d.IsWritten := by
  induction h with
  | null => exact ⟨.null, rfl, .null⟩
  | bool b =>
    refine ⟨.bool b, rfl, ?_⟩
    cases b with
    | false => exact .bool false
    | true => exact .bool true
  | natural n hn => exact ⟨.number (.ofNat n), Numeral.doc_ofNat hn, .number _ _ (Numeral.spells_ofNat n)⟩
  | text s => exact ⟨.text s, rfl, .text s _ (isLiteral_writeText s)⟩
  | array items _ ih =>
    obtain ⟨es, hdocs, hbytes, hes⟩ := exists_elements ih
    refine ⟨.array (es.map Element.value), by rw [Value.doc, hdocs], ?_⟩
    have htext : Utf8.encodeChars (write (.array items none)) =
        0x5B :: ([] ++ commaed (es.map Element.bytes) ++ [0x5D]) := by
      rw [hbytes, write, List.cons_append, Utf8.encodeChars_cons, Utf8.encodeChars_append, encodeChars_writeItems]
      rfl
    rw [htext]
    exact .array [] isBlank_nil es (fun e he => (hes e he).1) fun e he => (hes e he).2
  | record members _ ih =>
    obtain ⟨ms, hdocs, hbytes, hms⟩ := exists_members ih
    refine ⟨.object (ms.map Member.field), by rw [Value.doc, hdocs]; rfl, ?_⟩
    have htext : Utf8.encodeChars (write (.record members)) =
        0x7B :: ([] ++ commaed (ms.map Member.bytes) ++ [0x7D]) := by
      rw [hbytes, Doc.record, write, List.cons_append, Utf8.encodeChars_cons, Utf8.encodeChars_append,
        encodeChars_writeMembers, List.map_map]
      rfl
    rw [htext]
    exact .object [] isBlank_nil ms (fun m hm => (hms m hm).1) fun m hm => (hms m hm).2

/-- **The text of a plain document is read as that document.** -/
theorem ofBytes_render {d : Doc} (h : d.Plain) : Doc.ofBytes (Utf8.encode d.render) = (d, none) := by
  obtain ⟨v, rfl, hspells⟩ := h.exists_spells
  rw [Doc.render, Utf8.encode_ofList]
  exact ofBytes_of_isText ⟨[], _, [], isBlank_nil, hspells, isBlank_nil, by simp⟩

/-! ## Records of texts -/

theorem Value.doc_eq_text_iff {v : Value} {s : String} : v.doc = .text s ↔ v = .text s := by
  cases v with
  | number n =>
    rw [Value.doc, Numeral.doc]
    cases n.value? <;> simp
  | _ => simp [Value.doc]

theorem Value.docMembers_eq_texts_iff {members : List (String × Value)} {texts : List (String × String)} :
    docMembers members = texts.map (fun m => (.text m.1, .text m.2)) ↔
      members = texts.map (fun m => (m.1, .text m.2)) := by
  induction members generalizing texts with
  | nil => cases texts <;> simp [docMembers]
  | cons m members ih =>
    obtain ⟨name, v⟩ := m
    cases texts with
    | nil => simp [docMembers]
    | cons t texts => simp [docMembers, docMember, ih, doc_eq_text_iff]

theorem Value.doc_eq_texts_iff {v : Value} {texts : List (String × String)} :
    v.doc = .record (texts.map fun m => (m.1, .text m.2)) ↔ v = .object (texts.map fun m => (m.1, .text m.2)) := by
  cases v with
  | object members => simpa [Value.doc, Doc.record, Function.comp_def] using docMembers_eq_texts_iff
  | number n =>
    rw [Value.doc, Numeral.doc, Doc.record]
    cases n.value? <;> simp
  | _ => simp [Value.doc, Doc.record]

/-- **What is written for a record of texts is a text for that object only**, whatever characters are in the texts. -/
theorem isText_texts_iff (texts : List (String × String)) (v : Value) :
    v.IsText (Utf8.encode (Doc.record (texts.map fun m => (m.1, .text m.2))).render) ↔
      v = .object (texts.map fun m => (m.1, .text m.2)) := by
  have hplain : (Doc.record (texts.map fun m => (m.1, .text m.2))).Plain := by
    refine .record _ fun m hm => ?_
    obtain ⟨t, -, rfl⟩ := List.mem_map.1 hm
    exact .text t.2
  constructor
  · intro h
    have hdoc := (ofBytes_of_isText h).symm.trans (ofBytes_render hplain)
    exact Value.doc_eq_texts_iff.1 (congrArg Prod.fst hdoc)
  · rintro rfl
    obtain ⟨v, hdoc, hspells⟩ := hplain.exists_spells
    rw [Value.doc_eq_texts_iff.1 hdoc] at hspells
    rw [Doc.render, Utf8.encode_ofList]
    exact ⟨[], _, [], isBlank_nil, hspells, isBlank_nil, by simp⟩

end MachineGateway.Json
