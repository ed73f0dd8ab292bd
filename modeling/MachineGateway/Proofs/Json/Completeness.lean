/-
Every text of the grammar is read. What is between brackets is read one part after another, whatever white space there
is (`itemsPart_elements`, `membersPart_fields`). Hence each value is read as its document, up to the place where its
text ends (`valuePart_spells`), and a whole text as that of its value (`ofBytes_of_isText`).
-/
import MachineGateway.Proofs.Json.Literals

namespace MachineGateway.Json

/-! ## White space -/

theorem IsBlank.isSpace {w : Bytes} (h : IsBlank w) : ∀ b ∈ w, isSpace b = true := by
  intro b hb
  rcases h b hb with rfl | rfl | rfl | rfl <;> rfl

variable {w s rest : Bytes} {fuel : Nat} {first : Bool}

theorem not_isSpace_of_isDigit {b : UInt8} (h : isDigit b = true) : isSpace b = false := by
  have hne : ∀ c, isDigit c = false → (b == c) = false := fun c hc => beq_false_of_ne (ne_of_isDigit h hc)
  simp only [isSpace, hne 0x20 (by decide), hne 0x0A (by decide), hne 0x0D (by decide), hne 0x09 (by decide)]
  rfl

theorem skipSpace_cons {b : UInt8} (h : isSpace b = false) (r : Bytes) : skipSpace (b :: r) = b :: r := by
  simp [skipSpace, h]

theorem skipSpace_blank (hw : IsBlank w) (s : Bytes) : skipSpace (w ++ s) = skipSpace s :=
  List.dropWhile_append_of_pos hw.isSpace

theorem valuePart_blank (hw : IsBlank w) (fuel : Nat) (s : Bytes) : valuePart fuel (w ++ s) = valuePart fuel s := by
  cases fuel with
  | zero => rfl
  | succ fuel => rw [valuePart, valuePart, skipSpace_blank hw]

theorem itemsPart_blank (hw : IsBlank w) (fuel : Nat) (first : Bool) (s : Bytes) :
    itemsPart fuel first (w ++ s) = itemsPart fuel first s := by
  cases fuel with
  | zero => rfl
  | succ fuel => rw [itemsPart, itemsPart, skipSpace_blank hw]

theorem membersPart_blank (hw : IsBlank w) (fuel : Nat) (first : Bool) (s : Bytes) :
    membersPart fuel first (w ++ s) = membersPart fuel first s := by
  cases fuel with
  | zero => rfl
  | succ fuel => rw [membersPart, membersPart, skipSpace_blank hw]

theorem follows_blank (hw : IsBlank w) (h : Follows rest) : Follows (w ++ rest) := by
  cases w with
  | nil => exact h
  | cons b w =>
    intro b' hb'
    obtain rfl : b = b' := Option.some.inj hb'
    rcases hw b List.mem_cons_self with rfl | rfl | rfl | rfl <;> decide

/-! ## Values -/

/-- a letter or sign that begins a value is no white space, so that reading starts there -/
theorem valuePart_succ (fuel : Nat) {b : UInt8} (hb : isSpace b = false) (r : Bytes) :
    valuePart (fuel + 1) (b :: r) =
      if b == 0x22 then stringPart r
      else if b == 0x5B then (.array (itemsPart fuel true r).1 (itemsPart fuel true r).2.1, (itemsPart fuel true r).2.2)
      else if b == 0x7B then
        (.object (membersPart fuel true r).1 (membersPart fuel true r).2.1, (membersPart fuel true r).2.2)
      else if b == 0x2D || isDigit b then numberPart (b :: r)
      else if b == 0x6E then wordPart .null [0x75, 0x6C, 0x6C] r
      else if b == 0x74 then wordPart (.bool true) [0x72, 0x75, 0x65] r
      else if b == 0x66 then wordPart (.bool false) [0x61, 0x6C, 0x73, 0x65] r
      else stop .malformed := by
  rw [valuePart, skipSpace_cons hb]

theorem valuePart_digit (fuel : Nat) {b : UInt8} (hb : isDigit b = true) (r : Bytes) :
    valuePart (fuel + 1) (b :: r) = numberPart (b :: r) := by
  have hne : ∀ c, isDigit c = false → (b == c) = false := fun c hc => beq_false_of_ne (ne_of_isDigit hb hc)
  rw [valuePart_succ fuel (not_isSpace_of_isDigit hb)]
  simp only [hne 0x22 (by decide), hne 0x5B (by decide), hne 0x7B (by decide), hb, Bool.or_true, if_true,
    Bool.false_eq_true, if_false]

theorem valuePart_literal {t : String} (h : IsLiteral t s) (fuel : Nat) (rest : Bytes) :
    valuePart (fuel + 1) (s ++ rest) = (.text t, some rest) := by
  obtain ⟨letters, hletters, rfl⟩ := h
  have hread := readString_letters hletters rest
  have hdecoded : Utf8.decode? (Utf8.encodeChars t.toList) = some t := Utf8.decode?_encode t
  rw [List.cons_append, List.append_assoc, valuePart, skipSpace_cons (by decide)]
  simp [stringPart, hread, hdecoded]

/-- a value is read from a text of it, with fuel for twice the length of the text -/
def Value.IsReadFrom (v : Value) (s : Bytes) : Prop := ∀ (fuel : Nat) (rest : Bytes), Follows rest →
  2 * s.length ≤ fuel → valuePart fuel (s ++ rest) = (v.doc, some rest)

theorem Numeral.Spells.head {n : Numeral} (h : n.Spells s) : ∃ b r, s = b :: r ∧ (b == 0x2D || isDigit b) = true := by
  obtain ⟨e, -, rfl⟩ := h.text
  obtain ⟨b, bs, hb, hdigit⟩ := h.whole.exists_cons
  rw [Utf8.encodeChars_append, Utf8.encodeChars_append, hb]
  cases n.negative with
  | false => exact ⟨b, _, rfl, by rw [hdigit, Bool.or_true]⟩
  | true => exact ⟨0x2D, _, rfl, rfl⟩

/-- the text of a value begins with a byte that is no white space and no closing bracket -/
theorem Value.Spells.head {v : Value} (h : v.Spells s) : ∃ b r, s = b :: r ∧ isSpace b = false ∧ b ≠ 0x5D := by
  cases h with
  | null => exact ⟨0x6E, _, rfl, by decide, by decide⟩
  | bool b =>
    cases b with
    | false => exact ⟨0x66, _, rfl, by decide, by decide⟩
    | true => exact ⟨0x74, _, rfl, by decide, by decide⟩
  | number n _ h =>
    obtain ⟨b, r, rfl, hb⟩ := h.head
    rw [Bool.or_eq_true, beq_iff_eq] at hb
    rcases hb with rfl | hb
    · exact ⟨0x2D, r, rfl, by decide, by decide⟩
    · exact ⟨b, r, rfl, not_isSpace_of_isDigit hb, ne_of_isDigit hb (by decide)⟩
  | text t _ h =>
    obtain ⟨letters, -, rfl⟩ := h
    exact ⟨0x22, _, rfl, by decide, by decide⟩
  | array w hw es hspaced h => exact ⟨0x5B, _, rfl, by decide, by decide⟩
  | object w hw ms hspaced h => exact ⟨0x7B, _, rfl, by decide, by decide⟩

theorem commaed_cons (p : Bytes) (ps : List Bytes) : commaed (p :: ps) = p ++ ps.flatMap (0x2C :: ·) := rfl

/-- what follows a part does not go on with a number: a comma or the closing byte -/
theorem follows_parts (ps : List Bytes) {close : UInt8} (hclose : close = 0x5D ∨ close = 0x7D) (rest : Bytes) :
    Follows (ps.flatMap (0x2C :: ·) ++ close :: rest) := by
  intro b hb
  cases ps with
  | nil =>
    obtain rfl : close = b := Option.some.inj hb
    rcases hclose with rfl | rfl <;> decide
  | cons p ps =>
    obtain rfl : 0x2C = b := Option.some.inj hb
    decide

/-! ## Elements -/

theorem itemsPart_close (fuel : Nat) (first : Bool) (rest : Bytes) :
    itemsPart (fuel + 1) first (0x5D :: rest) = ([], none, some rest) := by
  rw [itemsPart, skipSpace_cons (by decide)]
  rfl

/-- an element whose value is read from its text -/
structure Element.IsRead (e : Element) : Prop where
  spaced : e.IsSpaced
  spells : e.value.Spells e.text
  reads : e.value.IsReadFrom e.text

/-- one element is read, and then what follows it -/
theorem itemsPart_element {e : Element} (he : e.IsRead) (hfuel : 2 * e.text.length ≤ fuel) {tail : Bytes}
    (htail : Follows tail) {docs : List Doc} (hrest : itemsPart fuel false tail = (docs, none, some rest))
    (first : Bool) : itemsPart (fuel + 1) first ((if first then [] else [0x2C]) ++ (e.bytes ++ tail)) =
      (e.value.doc :: docs, none, some rest) := by
  obtain ⟨b, r, hb, hspace, hclose⟩ := he.spells.head
  have hvalue := he.reads fuel (e.after ++ tail) (follows_blank he.spaced.after htail) hfuel
  have hothers := itemsPart_blank he.spaced.after fuel false tail
  have hbytes : e.bytes ++ tail = e.before ++ (e.text ++ (e.after ++ tail)) := by
    simp only [Element.bytes, List.append_assoc]
  rw [hbytes]
  cases first with
  | true =>
    rw [hb, List.cons_append] at hvalue ⊢
    rw [if_pos rfl, List.nil_append, itemsPart, skipSpace_blank he.spaced.before, skipSpace_cons hspace]
    simp [hclose, hvalue, hothers, hrest]
  | false =>
    rw [← valuePart_blank he.spaced.before] at hvalue
    rw [if_neg Bool.false_ne_true, List.singleton_append, itemsPart, skipSpace_cons (by decide)]
    simp [hvalue, hothers, hrest]

theorem length_text_le (e : Element) : e.text.length ≤ e.bytes.length := by
  simp only [Element.bytes, List.length_append]
  omega

/-- the elements after the first one are read up to the closing bracket -/
theorem itemsPart_others {es : List Element} (h : ∀ e ∈ es, e.IsRead) (rest : Bytes)
    (hfuel : 2 * ((es.map Element.bytes).flatMap (0x2C :: ·)).length < fuel) :
    itemsPart fuel false ((es.map Element.bytes).flatMap (0x2C :: ·) ++ 0x5D :: rest) =
      (Value.docs (es.map Element.value), none, some rest) := by
  induction es generalizing fuel with
  | nil =>
    obtain ⟨fuel, rfl⟩ : ∃ f, fuel = f + 1 := ⟨fuel - 1, by omega⟩
    exact itemsPart_close fuel false rest
  | cons e es ih =>
    obtain ⟨he, hes⟩ := List.forall_mem_cons.1 h
    have hlength := length_text_le e
    simp only [List.map_cons, List.flatMap_cons, List.length_append, List.length_cons] at hfuel
    obtain ⟨fuel, rfl⟩ : ∃ f, fuel = f + 1 := ⟨fuel - 1, by omega⟩
    have hothers := ih hes (show 2 * ((es.map Element.bytes).flatMap (0x2C :: ·)).length < fuel by omega)
    rw [List.map_cons, List.flatMap_cons, List.append_assoc]
    exact itemsPart_element he (by omega) (follows_parts _ (Or.inl rfl) rest) hothers false

/-- the elements are read up to the closing bracket -/
theorem itemsPart_elements {es : List Element} (h : ∀ e ∈ es, e.IsRead) (rest : Bytes)
    (hfuel : 2 * (commaed (es.map Element.bytes)).length < fuel) :
    itemsPart fuel true (commaed (es.map Element.bytes) ++ 0x5D :: rest) =
      (Value.docs (es.map Element.value), none, some rest) := by
  obtain ⟨fuel, rfl⟩ : ∃ f, fuel = f + 1 := ⟨fuel - 1, by omega⟩
  cases es with
  | nil => exact itemsPart_close fuel true rest
  | cons e es =>
    obtain ⟨he, hes⟩ := List.forall_mem_cons.1 h
    have hlength := length_text_le e
    obtain ⟨b, r, hb, -⟩ := he.spells.head
    have hpos : 0 < e.text.length := by rw [hb]; exact Nat.succ_pos _
    rw [List.map_cons, commaed_cons, List.length_append] at hfuel
    have hothers := itemsPart_others hes rest
      (show 2 * ((es.map Element.bytes).flatMap (0x2C :: ·)).length < fuel by omega)
    rw [List.map_cons, commaed_cons, List.append_assoc]
    exact itemsPart_element he (by omega) (follows_parts _ (Or.inl rfl) rest) hothers true

/-! ## Members -/

theorem membersPart_close (fuel : Nat) (first : Bool) (rest : Bytes) :
    membersPart (fuel + 1) first (0x7D :: rest) = ([], none, some rest) := by
  rw [membersPart, skipSpace_cons (by decide)]
  rfl

/-- a member whose value is read from its text -/
structure Member.IsRead (m : Member) : Prop where
  spaced : m.IsSpaced
  reads : m.element.value.IsReadFrom m.element.text

theorem length_value_lt (m : Member) : m.element.text.length < m.bytes.length := by
  simp only [Member.bytes, Element.bytes, List.length_append, List.length_cons]
  omega

/-- one member is read, and then what follows it -/
theorem membersPart_field {m : Member} (hm : m.IsRead) (hfuel : 2 * m.element.text.length ≤ fuel + 1) {tail : Bytes}
    (htail : Follows tail) {docs : List (Doc × Doc)}
    (hrest : membersPart (fuel + 1) false tail = (docs, none, some rest)) (first : Bool) :
    membersPart (fuel + 2) first ((if first then [] else [0x2C]) ++ (m.bytes ++ tail)) =
      (Value.docMember m.field :: docs, none, some rest) := by
  have hspaced := hm.spaced
  obtain ⟨r, hquote⟩ : ∃ r, m.literal = 0x22 :: r := by
    obtain ⟨letters, -, hliteral⟩ := hspaced.literal
    exact ⟨_, hliteral⟩
  have hvalue := hm.reads (fuel + 1) (m.element.after ++ tail) (follows_blank hspaced.element.after htail) hfuel
  rw [← valuePart_blank hspaced.element.before] at hvalue
  have hname := valuePart_literal hspaced.literal fuel
    (m.between ++ 0x3A :: (m.element.before ++ (m.element.text ++ (m.element.after ++ tail))))
  have hcolon : skipSpace
      (m.between ++ 0x3A :: (m.element.before ++ (m.element.text ++ (m.element.after ++ tail)))) =
      0x3A :: (m.element.before ++ (m.element.text ++ (m.element.after ++ tail))) := by
    rw [skipSpace_blank hspaced.between, skipSpace_cons (by decide)]
  have hothers := membersPart_blank hspaced.element.after (fuel + 1) false tail
  have hbytes : m.bytes ++ tail = m.before ++ (m.literal ++
      (m.between ++ 0x3A :: (m.element.before ++ (m.element.text ++ (m.element.after ++ tail))))) := by
    simp only [Member.bytes, Element.bytes, List.append_assoc, List.cons_append]
  rw [hbytes]
  rw [hquote, List.cons_append] at hname ⊢
  have hspace : isSpace 0x22 = false := by decide
  cases first with
  | true =>
    rw [if_pos rfl, List.nil_append, membersPart, skipSpace_blank hspaced.before, skipSpace_cons hspace]
    simp [hname, namePart, skipSpace_cons hspace, hcolon, hvalue, hothers, hrest, Value.docMember, Member.field]
  | false =>
    rw [← valuePart_blank hspaced.before] at hname
    rw [if_neg Bool.false_ne_true, List.singleton_append, membersPart, skipSpace_cons (by decide)]
    simp [hname, namePart, skipSpace_blank hspaced.before, skipSpace_cons hspace, hcolon, hvalue, hothers, hrest,
      Value.docMember, Member.field]

/-- the members after the first one are read up to the closing brace -/
theorem membersPart_others {ms : List Member} (h : ∀ m ∈ ms, m.IsRead) (rest : Bytes)
    (hfuel : 2 * ((ms.map Member.bytes).flatMap (0x2C :: ·)).length < fuel) :
    membersPart fuel false ((ms.map Member.bytes).flatMap (0x2C :: ·) ++ 0x7D :: rest) =
      (Value.docMembers (ms.map Member.field), none, some rest) := by
  induction ms generalizing fuel with
  | nil =>
    obtain ⟨fuel, rfl⟩ : ∃ f, fuel = f + 1 := ⟨fuel - 1, by omega⟩
    exact membersPart_close fuel false rest
  | cons m ms ih =>
    obtain ⟨hm, hms⟩ := List.forall_mem_cons.1 h
    have hlength := length_value_lt m
    simp only [List.map_cons, List.flatMap_cons, List.length_append, List.length_cons] at hfuel
    obtain ⟨fuel, rfl⟩ : ∃ f, fuel = f + 2 := ⟨fuel - 2, by omega⟩
    have hothers := ih hms (show 2 * ((ms.map Member.bytes).flatMap (0x2C :: ·)).length < fuel + 1 by omega)
    rw [List.map_cons, List.flatMap_cons, List.append_assoc]
    exact membersPart_field hm (by omega) (follows_parts _ (Or.inr rfl) rest) hothers false

/-- the members are read up to the closing brace -/
theorem membersPart_fields {ms : List Member} (h : ∀ m ∈ ms, m.IsRead) (rest : Bytes)
    (hfuel : 2 * (commaed (ms.map Member.bytes)).length < fuel) :
    membersPart fuel true (commaed (ms.map Member.bytes) ++ 0x7D :: rest) =
      (Value.docMembers (ms.map Member.field), none, some rest) := by
  cases ms with
  | nil =>
    obtain ⟨fuel, rfl⟩ : ∃ f, fuel = f + 1 := ⟨fuel - 1, by omega⟩
    exact membersPart_close fuel true rest
  | cons m ms =>
    obtain ⟨hm, hms⟩ := List.forall_mem_cons.1 h
    have hlength := length_value_lt m
    rw [List.map_cons, commaed_cons, List.length_append] at hfuel
    obtain ⟨fuel, rfl⟩ : ∃ f, fuel = f + 2 := ⟨fuel - 2, by omega⟩
    have hothers := membersPart_others hms rest
      (show 2 * ((ms.map Member.bytes).flatMap (0x2C :: ·)).length < fuel + 1 by omega)
    rw [List.map_cons, commaed_cons, List.append_assoc]
    exact membersPart_field hm (by omega) (follows_parts _ (Or.inr rfl) rest) hothers true

/-! ## Whole texts -/

/-- **A value is read from every text of it**, up to the place where the text ends. -/
theorem valuePart_spells {v : Value} (h : v.Spells s) : v.IsReadFrom s := by
  induction h with
  | null =>
    intro fuel rest _ hfuel
    obtain ⟨fuel, rfl⟩ : ∃ f, fuel = f + 1 := ⟨fuel - 1, by
      have hlength : (Utf8.encode "null").length = 4 := by decide +kernel
      omega⟩
    exact valuePart_succ fuel (by decide) _
  | bool b =>
    intro fuel rest _ hfuel
    obtain ⟨fuel, rfl⟩ : ∃ f, fuel = f + 1 := ⟨fuel - 1, by
      have hlength : 0 < (Utf8.encode (if b then "true" else "false")).length := by cases b <;> decide +kernel
      omega⟩
    cases b with
    | false => exact valuePart_succ fuel (by decide) _
    | true => exact valuePart_succ fuel (by decide) _
  | number n s h =>
    intro fuel rest hrest hfuel
    have hread := numberPart_spells h hrest
    obtain ⟨b, r, rfl, hb⟩ := h.head
    obtain ⟨fuel, rfl⟩ : ∃ f, fuel = f + 1 := ⟨fuel - 1, by simp at hfuel; omega⟩
    -- the first byte tells that it is a number: a minus sign or a digit
    have hnumber : valuePart (fuel + 1) (b :: r ++ rest) = numberPart (b :: r ++ rest) := by
      rw [Bool.or_eq_true, beq_iff_eq] at hb
      rcases hb with rfl | hb
      · exact valuePart_succ fuel (by decide) _
      · exact valuePart_digit fuel hb _
    rw [hnumber, hread, numeralPart, Value.doc, Numeral.doc]
    cases n.value? <;> rfl
  | text t s h =>
    intro fuel rest _ hfuel
    obtain ⟨fuel, rfl⟩ : ∃ f, fuel = f + 1 := ⟨fuel - 1, by
      obtain ⟨letters, -, rfl⟩ := h
      simp at hfuel
      omega⟩
    exact valuePart_literal h fuel rest
  | array w hw es hspaced h ih =>
    intro fuel rest _ hfuel
    simp only [List.length_cons, List.length_append] at hfuel
    obtain ⟨fuel, rfl⟩ : ∃ f, fuel = f + 1 := ⟨fuel - 1, by omega⟩
    have helements := itemsPart_elements (fun e he => ⟨hspaced e he, h e he, ih e he⟩) rest
      (show 2 * (commaed (es.map Element.bytes)).length < fuel by omega)
    rw [← itemsPart_blank hw] at helements
    rw [List.cons_append, List.append_assoc, List.append_assoc, List.singleton_append, valuePart_succ fuel (by decide),
      helements]
    rfl
  | object w hw ms hspaced h ih =>
    intro fuel rest _ hfuel
    simp only [List.length_cons, List.length_append] at hfuel
    obtain ⟨fuel, rfl⟩ : ∃ f, fuel = f + 1 := ⟨fuel - 1, by omega⟩
    have hmembers := membersPart_fields (fun m hm => ⟨hspaced m hm, ih m hm⟩) rest
      (show 2 * (commaed (ms.map Member.bytes)).length < fuel by omega)
    rw [← membersPart_blank hw] at hmembers
    rw [List.cons_append, List.append_assoc, List.append_assoc, List.singleton_append, valuePart_succ fuel (by decide),
      hmembers]
    rfl

/-- **A JSON text is read as the document of its value.** -/
theorem ofBytes_of_isText {v : Value} (h : v.IsText s) : Doc.ofBytes s = (v.doc, none) := by
  obtain ⟨before, text, after, hbefore, hspells, hafter, rfl⟩ := h
  have hends : Follows (after ++ []) := follows_blank hafter (by simp [Follows])
  have hread := valuePart_spells hspells (2 * (before ++ text ++ after).length + 2) (after ++ []) hends
    (by simp only [List.length_append]; omega)
  rw [List.append_nil, ← valuePart_blank hbefore, ← List.append_assoc] at hread
  have hnothing : skipSpace after = [] := by
    have hskip := skipSpace_blank hafter []
    rwa [List.append_nil] at hskip
  rw [Doc.ofBytes, hread]
  simp [trailing, hnothing]

end MachineGateway.Json
