/-
What forms accept. Where every field of a form has a slot of its own in the draft (`Slot`), the members of an object
are read if each field occurs at most once, with a value that its slot takes (`exists_readMembers`), and then each slot
holds what the one occurrence of its field is read as (`Slot.of_readMembers`); members of other names are passed over.
An array is read as the object whose names are those of the fields in order, as far as the array goes
(`readFields_iff`). `read_iff` is both in one, for the members that a record holds in either form (`HasFields`).
-/
import MachineGateway.Proofs.Json.Grammar
import MachineGateway.Proofs.Json.Reading

namespace MachineGateway.Json

variable {α β δ : Type} {name : String} {members : List (String × Value)}

/-! ## Members -/

/-- the values of a name among members, in order -/
def valuesOf (name : String) (members : List (String × Value)) : List Value :=
  (members.filter fun m => m.1 = name).map (·.2)

theorem valuesOf_cons_self (name : String) (v : Value) (members : List (String × Value)) :
    valuesOf name ((name, v) :: members) = v :: valuesOf name members := by
  simp [valuesOf]

theorem valuesOf_cons_of_ne {other : String} (h : other ≠ name) (v : Value) (members : List (String × Value)) :
    valuesOf name ((other, v) :: members) = valuesOf name members := by
  simp [valuesOf, h]

/-- a name has values only among members that hold it -/
theorem valuesOf_eq_nil (h : ∀ m ∈ members, m.1 ≠ name) : valuesOf name members = [] := by
  have hnone : members.filter (fun m => m.1 = name) = [] := by
    apply List.filter_eq_nil_iff.2
    intro m hm
    simpa using h m hm
  rw [valuesOf, hnone]
  rfl

/-- among the elements of an array under different names, each name has the element at its place, if there is one -/
theorem valuesOf_zip {names : List String} (hnodup : names.Nodup) {i : Nat} (hname : names[i]? = some name)
    (items : List Value) : valuesOf name (names.zip items) = items[i]?.toList := by
  induction names generalizing i items with
  | nil => exact absurd hname (by simp)
  | cons first names ih =>
    obtain ⟨hnew, hnodup⟩ := List.nodup_cons.1 hnodup
    cases items with
    | nil => rfl
    | cons v items =>
      rw [List.zip_cons_cons]
      cases i with
      | zero =>
        obtain rfl : first = name := Option.some.inj hname
        have hnone : valuesOf first (names.zip items) = [] := by
          apply valuesOf_eq_nil
          rintro ⟨other, v'⟩ hm rfl
          exact hnew (List.of_mem_zip hm).1
        rw [valuesOf_cons_self, hnone]
        rfl
      | succ i =>
        have hname' : names[i]? = some name := hname
        have hne : first ≠ name := by
          rintro rfl
          exact hnew (List.mem_of_getElem? hname')
        rw [valuesOf_cons_of_ne hne, ih hnodup hname']
        rfl

/-- the members that a record holds: those of an object, or the elements of an array under the names of its fields -/
def Value.HasFields (names : List String) (v : Value) (members : List (String × Value)) : Prop :=
  v = .object members ∨ ∃ items, v = .array items ∧ items.length ≤ names.length ∧ members = names.zip items

/-- a name occurs once among members, with a value that stands for `b` -/
def Once (R : Value → β → Prop) (name : String) (members : List (String × Value)) (b : β) : Prop :=
  ∃ v, valuesOf name members = [v] ∧ R v b

/-- a name occurs once among members, with a value that stands for `b`, or it is absent, which stands for `absent` -/
def AtMostOnce (R : Value → β → Prop) (absent : β) (name : String) (members : List (String × Value)) (b : β) : Prop :=
  valuesOf name members = [] ∧ b = absent ∨ Once R name members b

section

variable {R : Value → β → Prop} {absent b : β} {names : List String} {i : Nat} {items : List Value}

theorem once_zip_iff (hnodup : names.Nodup) (hname : names[i]? = some name) :
    Once R name (names.zip items) b ↔ ∃ v, items[i]? = some v ∧ R v b := by
  rw [Once, valuesOf_zip hnodup hname]
  cases items[i]? <;> simp

theorem atMostOnce_zip_iff (hnodup : names.Nodup) (hname : names[i]? = some name) :
    AtMostOnce R absent name (names.zip items) b ↔
      items[i]? = none ∧ b = absent ∨ ∃ v, items[i]? = some v ∧ R v b := by
  rw [AtMostOnce, once_zip_iff hnodup hname, valuesOf_zip hnodup hname]
  cases items[i]? <;> simp

end

/-! ## Slots -/

namespace Form

/-- the names of the fields -/
def names (form : Form δ α) : List String := form.fields.map (·.1)

/-- a field of a form: where a draft keeps it, and what reads it -/
structure Slot (form : Form δ α) (name : String) (read : Reader β) (get : δ → Option β) : Prop where
  mem : name ∈ form.names
  start : get form.start = none
  has : ∀ d, form.has d name = (get d).isSome
  put_of_read : ∀ d v b, read v = .ok b → ∃ d', form.put d name v = .ok d'
  put_self : ∀ d v d', form.put d name v = .ok d' → ∃ b, read v = .ok b ∧ get d' = some b
  put_other : ∀ d other v d', other ∈ form.names → other ≠ name → form.put d other v = .ok d' → get d' = get d

/-- each field has a slot, and a record has all the fields that it cannot do without -/
structure IsSlotted (form : Form δ α) : Prop where
  nodup : form.names.Nodup
  slot : ∀ name ∈ form.names, ∃ (β : Type) (read : Reader β) (get : δ → Option β), form.Slot name read get
  required : ∀ d a, form.finish d = .ok a → ∀ name, (name, false) ∈ form.fields → form.has d name = true

variable {form : Form δ α} {read : Reader β} {get : δ → Option β} {d d' : δ} {a : α} {b : β}

theorem any_name_iff : (form.fields.any (·.1 == name)) = true ↔ name ∈ form.names := by
  simp [names]

/-- a slot of a field that is read by itself and set by itself -/
theorem Slot.of_map (set : δ → β → δ) (hmem : name ∈ form.names) (hstart : get form.start = none)
    (hhas : ∀ d, form.has d name = (get d).isSome) (hput : ∀ d v, form.put d name v = (read v).map (set d))
    (hget : ∀ d b, get (set d b) = some b)
    (hother : ∀ d other v d', other ∈ form.names → other ≠ name → form.put d other v = .ok d' → get d' = get d) :
    form.Slot name read get where
  mem := hmem
  start := hstart
  has := hhas
  put_of_read d v b hb := ⟨set d b, by rw [hput, hb]; rfl⟩
  put_self d v d' h := by
    rw [hput] at h
    obtain ⟨b, hb, rfl⟩ := of_map_eq_ok h
    exact ⟨b, hb, hget d b⟩
  put_other := hother

/-- the slot of the only field there is, with its value for a draft -/
theorem Slot.of_only {form : Form (Option β) α} {read : Reader β} (hnames : form.names = [name])
    (hstart : form.start = none) (hhas : ∀ d, form.has d name = d.isSome)
    (hput : ∀ d v, form.put d name v = (read v).map some) : form.Slot name read id := by
  refine .of_map (fun _ b => some b) (by simp [hnames]) hstart hhas hput (fun _ _ => rfl)
    fun d other v d' hmem hne _ => ?_
  have hother : other = name := by simpa [hnames] using hmem
  exact absurd hother hne

/-! ## Objects -/

theorem readMembers_known {v : Value} (hname : name ∈ form.names) (hhas : form.has d name = false)
    (hput : form.put d name v.doc = .ok d') :
    form.readMembers d (Value.docMembers ((name, v) :: members)) none =
      form.readMembers d' (Value.docMembers members) none := by
  rw [Value.docMembers, Value.docMember, readMembers, if_pos (any_name_iff.2 hname), hhas]
  simp [hput]

theorem readMembers_unknown {v : Value} (hname : name ∉ form.names) :
    form.readMembers d (Value.docMembers ((name, v) :: members)) none =
      form.readMembers d (Value.docMembers members) none := by
  rw [Value.docMembers, Value.docMember, readMembers, if_neg (mt any_name_iff.1 hname), Value.obstacle_doc]

/-- members that are read: the first one is no field, or is a field that was not found before and is put -/
theorem readMembers_cons_cases {v : Value}
    (h : form.readMembers d (Value.docMembers ((name, v) :: members)) none = .ok d') :
    (name ∉ form.names ∧ form.readMembers d (Value.docMembers members) none = .ok d') ∨
      name ∈ form.names ∧ form.has d name = false ∧
        ∃ d₁, form.put d name v.doc = .ok d₁ ∧ form.readMembers d₁ (Value.docMembers members) none = .ok d' := by
  by_cases hname : name ∈ form.names
  · cases hhas : form.has d name with
    | true =>
      rw [Value.docMembers, Value.docMember, readMembers, if_pos (any_name_iff.2 hname), hhas] at h
      exact absurd h (by simp)
    | false =>
      cases hput : form.put d name v.doc with
      | error e =>
        rw [Value.docMembers, Value.docMember, readMembers, if_pos (any_name_iff.2 hname), hhas] at h
        simp [hput] at h
      | ok d₁ =>
        rw [readMembers_known hname hhas hput] at h
        exact Or.inr ⟨hname, rfl, d₁, rfl, h⟩
  · rw [readMembers_unknown hname] at h
    exact Or.inl ⟨hname, h⟩

/-- what a slot holds once members have been read: what it held, or what the one occurrence of its field is read as -/
theorem Slot.of_readMembers (hslot : form.Slot name read get)
    (h : form.readMembers d (Value.docMembers members) none = .ok d') :
    valuesOf name members = [] ∧ get d' = get d ∨
      ∃ v b, valuesOf name members = [v] ∧ get d = none ∧ read v.doc = .ok b ∧ get d' = some b := by
  induction members generalizing d with
  | nil =>
    obtain rfl : d = d' := Except.ok.inj h
    exact Or.inl ⟨rfl, rfl⟩
  | cons m members ih =>
    obtain ⟨key, v⟩ := m
    rcases readMembers_cons_cases h with ⟨hkey, hrest⟩ | ⟨hkey, hhas, d₁, hput, hrest⟩
    · have hne : key ≠ name := fun heq => hkey (heq ▸ hslot.mem)
      rw [valuesOf_cons_of_ne hne]
      exact ih hrest
    · by_cases heq : key = name
      · subst heq
        have hbefore : get d = none := by
          rw [hslot.has] at hhas
          exact Option.not_isSome_iff_eq_none.1 (by simp [hhas])
        obtain ⟨b, hb, hget⟩ := hslot.put_self d v.doc d₁ hput
        rw [valuesOf_cons_self]
        rcases ih hrest with ⟨hnil, hlast⟩ | ⟨-, -, -, hnone, -⟩
        · exact Or.inr ⟨v, b, by rw [hnil], hbefore, hb, hlast.trans hget⟩
        · exact absurd (hget.symm.trans hnone) (by simp)
      · have hsame := hslot.put_other d key v.doc d₁ hkey heq hput
        rw [valuesOf_cons_of_ne heq, ← hsame]
        exact ih hrest

/-- a field can be read among members: it does not occur, or it occurs once, was not found before, and has a value that
its slot takes -/
def Accepts (form : Form δ α) (d : δ) (members : List (String × Value)) (name : String) : Prop :=
  valuesOf name members = [] ∨
    form.has d name = false ∧ ∃ v, valuesOf name members = [v] ∧ ∃ d₁ d₂, form.put d₁ name v.doc = .ok d₂

/-- members are read if every field can be -/
theorem exists_readMembers (hslots : ∀ name ∈ form.names, ∃ (β : Type) (read : Reader β) (get : δ → Option β),
      form.Slot name read get) (h : ∀ name ∈ form.names, form.Accepts d members name) :
    ∃ d', form.readMembers d (Value.docMembers members) none = .ok d' := by
  induction members generalizing d with
  | nil => exact ⟨d, rfl⟩
  | cons m members ih =>
    obtain ⟨key, v⟩ := m
    by_cases hkey : key ∈ form.names
    · rcases h key hkey with hnil | ⟨hhas, v', hone, d₁, d₂, htakes⟩
      · exact absurd hnil (by rw [valuesOf_cons_self]; exact List.cons_ne_nil _ _)
      · rw [valuesOf_cons_self] at hone
        obtain ⟨rfl, hnone⟩ := List.cons.inj hone
        obtain ⟨γ, readKey, getKey, hslot⟩ := hslots key hkey
        obtain ⟨c, hc, -⟩ := hslot.put_self d₁ v.doc d₂ htakes
        obtain ⟨d₃, hput⟩ := hslot.put_of_read d v.doc c hc
        rw [readMembers_known hkey hhas hput]
        apply ih
        intro other hother
        by_cases heq : other = key
        · subst heq
          exact Or.inl hnone
        · obtain ⟨γ', readOther, getOther, hslot'⟩ := hslots other hother
          have hsame := hslot'.put_other d key v.doc d₃ hkey (Ne.symm heq) hput
          have hold := h other hother
          rw [Accepts, valuesOf_cons_of_ne (Ne.symm heq), hslot'.has, ← hsame, ← hslot'.has] at hold
          exact hold
    · rw [readMembers_unknown hkey]
      apply ih
      intro other hother
      have hne : key ≠ other := fun heq => hkey (heq ▸ hother)
      have hold := h other hother
      rwa [Accepts, valuesOf_cons_of_ne hne] at hold

/-! ## Arrays -/

/-- elements are read like members with the names of the fields in order; fields that are left over can be left out -/
theorem readFields_iff {fields : List (String × Bool)} (hfields : ∀ f ∈ fields, f.1 ∈ form.names)
    (hnodup : (fields.map (·.1)).Nodup) (hform : form.IsSlotted) (hhas : ∀ f ∈ fields, form.has d f.1 = false)
    (items : List Value) (count : Nat) : form.readFields d count fields (Value.docs items) none = .ok d' ↔
      items.length ≤ fields.length ∧ (∀ f ∈ fields.drop items.length, f.2 = true) ∧
        form.readMembers d (Value.docMembers ((fields.map (·.1)).zip items)) none = .ok d' := by
  induction fields generalizing d items count with
  | nil =>
    cases items with
    | nil => simp [Value.docs, Value.docMembers, readFields, readMembers]
    | cons v items => simp [Value.docs, readFields]
  | cons field fields ih =>
    obtain ⟨name, optional⟩ := field
    obtain ⟨hname, hfields⟩ := List.forall_mem_cons.1 hfields
    obtain ⟨hfirst, hhas⟩ := List.forall_mem_cons.1 hhas
    obtain ⟨hnew, hnodup⟩ := List.nodup_cons.1 hnodup
    cases items with
    | nil =>
      have hrest := ih hfields hnodup hhas [] (count + 1)
      simp only [Value.docs, List.length_nil, Nat.zero_le, List.drop_zero, List.zip_nil_right, true_and] at hrest
      cases optional with
      | false => simp [Value.docs, readFields]
      | true => simpa [Value.docs, readFields] using hrest
    | cons v items =>
      rw [Value.docs, readFields, List.map_cons, List.zip_cons_cons]
      cases hput : form.put d name v.doc with
      | error e =>
        refine iff_of_false (by simp) fun h => ?_
        rcases readMembers_cons_cases h.2.2 with ⟨hno, -⟩ | ⟨-, -, d₁, hd₁, -⟩
        · exact hno hname
        · exact absurd (hput.symm.trans hd₁) (by simp)
      | ok d₁ =>
        -- the fields that are still to come are as free as they were
        have hothers : ∀ f ∈ fields, form.has d₁ f.1 = false := by
          intro f hf
          obtain ⟨γ, read, get, hslot⟩ := hform.slot f.1 (hfields f hf)
          have hne : name ≠ f.1 := fun heq => hnew (List.mem_map.2 ⟨f, hf, heq.symm⟩)
          rw [hslot.has, hslot.put_other d name v.doc d₁ hname hne hput, ← hslot.has]
          exact hhas f hf
        rw [readMembers_known hname hfirst hput]
        simpa using ih hfields hnodup hothers items (count + 1)

/-! ## Records -/

theorem IsSlotted.has_start (hform : form.IsSlotted) : ∀ name ∈ form.names, form.has form.start name = false := by
  intro name hname
  obtain ⟨γ, read, get, hslot⟩ := hform.slot name hname
  rw [hslot.has, hslot.start]
  rfl

/-- a record lacks no field that it cannot do without -/
theorem IsSlotted.optional_of_finish (hform : form.IsSlotted) {items : List Value}
    (hread : form.readMembers form.start (Value.docMembers (form.names.zip items)) none = .ok d)
    (hfinish : form.finish d = .ok a) : ∀ f ∈ form.fields.drop items.length, f.2 = true := by
  intro f hf
  by_contra hrequired
  rw [Bool.not_eq_true] at hrequired
  obtain ⟨i, hi⟩ := List.getElem?_of_mem hf
  rw [List.getElem?_drop] at hi
  have hname : form.names[items.length + i]? = some f.1 := by rw [names, List.getElem?_map, hi]; rfl
  have hnil : valuesOf f.1 (form.names.zip items) = [] := by
    rw [valuesOf_zip hform.nodup hname, List.getElem?_eq_none (Nat.le_add_right _ _)]
    rfl
  have hhas := hform.required d a hfinish f.1 (hrequired ▸ List.mem_of_mem_drop hf)
  obtain ⟨γ, read, get, hslot⟩ := hform.slot f.1 (List.mem_of_getElem? hname)
  rcases hslot.of_readMembers hread with ⟨-, hget⟩ | ⟨v, -, hone, -⟩
  · rw [hslot.has, hget, hslot.start] at hhas
    exact absurd hhas (by simp)
  · exact absurd (hnil.symm.trans hone) (by simp)

/-! ## Fields of a record -/

section Fields

variable {R : Value → β → Prop} {absent : β}

/-- the slot of a field that was read holds what the field stands for -/
theorem Slot.once_iff (hslot : form.Slot name read get) (hR : ∀ v b, read v.doc = .ok b ↔ R v b)
    (h : form.readMembers form.start (Value.docMembers members) none = .ok d) :
    Once R name members b ↔ get d = some b := by
  rcases hslot.of_readMembers h with ⟨hnil, hget⟩ | ⟨v, b', hone, -, hb', hget⟩
  · rw [hget, hslot.start, Once, hnil]
    simp
  · rw [hget, Once, hone]
    constructor
    · rintro ⟨v', hv', hb⟩
      obtain rfl := List.singleton_inj.1 hv'
      exact congrArg some (Except.ok.inj (hb'.symm.trans ((hR v b).2 hb)))
    · intro hb
      obtain rfl := Option.some.inj hb
      exact ⟨v, rfl, (hR v b').1 hb'⟩

theorem Slot.atMostOnce_iff (hslot : form.Slot name read get) (hR : ∀ v b, read v.doc = .ok b ↔ R v b)
    (h : form.readMembers form.start (Value.docMembers members) none = .ok d) :
    AtMostOnce R absent name members b ↔ (get d).getD absent = b := by
  rw [AtMostOnce, hslot.once_iff hR h]
  rcases hslot.of_readMembers h with ⟨hnil, hget⟩ | ⟨v, b', hone, -, -, hget⟩
  · rw [hget, hslot.start, hnil]
    simp [eq_comm]
  · rw [hget, hone]
    simp

theorem Slot.accepts_of_once (hslot : form.Slot name read get) (hR : ∀ v b, read v.doc = .ok b ↔ R v b)
    (h : Once R name members b) : form.Accepts form.start members name := by
  obtain ⟨v, hone, hb⟩ := h
  obtain ⟨d', hput⟩ := hslot.put_of_read form.start v.doc b ((hR v b).2 hb)
  exact Or.inr ⟨by rw [hslot.has, hslot.start]; rfl, v, hone, form.start, d', hput⟩

theorem Slot.accepts_of_atMostOnce (hslot : form.Slot name read get) (hR : ∀ v b, read v.doc = .ok b ↔ R v b)
    (h : AtMostOnce R absent name members b) : form.Accepts form.start members name := by
  rcases h with ⟨hnil, -⟩ | h
  · exact Or.inl hnil
  · exact hslot.accepts_of_once hR h

end Fields

/-! ## Both forms -/

theorem read_object_iff : form.read (Value.object members).doc = .ok a ↔
    ∃ d, form.readMembers form.start (Value.docMembers members) none = .ok d ∧ form.finish d = .ok a := by
  rw [Value.doc, Form.read]
  cases form.readMembers form.start (Value.docMembers members) none with
  | error e => simp
  | ok d => simp

theorem read_array_iff (hform : form.IsSlotted) {items : List Value} : form.read (Value.array items).doc = .ok a ↔
    items.length ≤ form.names.length ∧ ∃ d, form.readMembers form.start
      (Value.docMembers (form.names.zip items)) none = .ok d ∧ form.finish d = .ok a := by
  have hfields : ∀ d, form.readFields form.start 0 form.fields (Value.docs items) none = .ok d ↔
      items.length ≤ form.fields.length ∧ (∀ f ∈ form.fields.drop items.length, f.2 = true) ∧
        form.readMembers form.start (Value.docMembers (form.names.zip items)) none = .ok d := fun _ =>
    readFields_iff (fun f hf => List.mem_map_of_mem hf) hform.nodup hform
      (fun f hf => hform.has_start f.1 (List.mem_map_of_mem hf)) items 0
  rw [Value.doc, Form.read]
  constructor
  · intro h
    cases hread : form.readFields form.start 0 form.fields (Value.docs items) none with
    | error e => simp [hread] at h
    | ok d =>
      rw [hread] at h
      obtain ⟨hlength, -, hmembers⟩ := (hfields d).1 hread
      exact ⟨by rwa [names, List.length_map], d, hmembers, h⟩
  · rintro ⟨hlength, d, hmembers, hfinish⟩
    rw [names, List.length_map] at hlength
    have hoptional := hform.optional_of_finish hmembers hfinish
    rw [(hfields d).2 ⟨hlength, hoptional, hmembers⟩]
    exact hfinish

/-- **What a form accepts**, in both forms of a record. -/
theorem read_iff (hform : form.IsSlotted) {v : Value} : form.read v.doc = .ok a ↔
    ∃ members d, v.HasFields form.names members ∧
      form.readMembers form.start (Value.docMembers members) none = .ok d ∧ form.finish d = .ok a := by
  constructor
  · intro h
    cases v with
    | object members =>
      obtain ⟨d, hd, hfinish⟩ := read_object_iff.1 h
      exact ⟨members, d, Or.inl rfl, hd, hfinish⟩
    | array items =>
      obtain ⟨hlength, d, hd, hfinish⟩ := (read_array_iff hform).1 h
      exact ⟨_, d, Or.inr ⟨items, rfl, hlength, rfl⟩, hd, hfinish⟩
    | number n =>
      rw [Value.doc, Numeral.doc] at h
      cases hn : n.value? <;> simp [hn, Form.read] at h
    | null => simp [Value.doc, Form.read] at h
    | bool b => simp [Value.doc, Form.read] at h
    | text s => simp [Value.doc, Form.read] at h
  · rintro ⟨members, d, rfl | ⟨items, rfl, hlength, rfl⟩, hd, hfinish⟩
    · exact read_object_iff.2 ⟨d, hd, hfinish⟩
    · exact (read_array_iff hform).2 ⟨hlength, d, hd, hfinish⟩

end Form

end MachineGateway.Json
