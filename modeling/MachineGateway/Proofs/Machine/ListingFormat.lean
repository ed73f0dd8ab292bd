/-
The format of a listing. `IsMapping`, `IsStatus`, `IsMachine` and `IsListing` say which JSON value stands for what: a
record is an object that has its fields once, in any order and among members of any other name, or an array of the
fields in order; fields with a default can be absent. The readers accept just these values, and give what they stand
for (`Mapping.read_iff`, `Machine.read_iff`, `Listing.read_iff`), so that the decoder takes every text of a value to the
listing that the value is, if it is one (`decodes_iff`).
-/
import MachineGateway.Machine.Wire
import MachineGateway.Proofs.Json.Completeness
import MachineGateway.Proofs.Json.Forms

namespace MachineGateway

open Json

/-! ## The format -/

/-- a string -/
def IsString (v : Value) (s : String) : Prop := v = .text s

/-- an array of things -/
def IsList {α : Type} (R : Value → α → Prop) (v : Value) (l : List α) : Prop :=
  ∃ items, v = .array items ∧ List.Forall₂ R items l

/-- the status that a word stands for: the one of that very name, or the unknown one -/
def Status.NamedBy (s : Status) (word : String) : Prop :=
  s ≠ .unknown ∧ s.name = word ∨ s = .unknown ∧ word ∉ ["RUNNING", "STOPPED", "PAUSED", "CREATING"]

/-- a status: its word, or an object of the word and null -/
inductive IsStatus : Value → Status → Prop
  | word {w s} (h : s.NamedBy w) : IsStatus (.text w) s
  | wrapped {w s} (h : s.NamedBy w) : IsStatus (.object [(w, .null)]) s

/-- a mapping: an object with its three strings, or an array of just them -/
inductive IsMapping : Value → Mapping → Prop
  | object {members t i e} (tag : Once IsString "description" members t) (internal : Once IsString "guestPort" members i)
      (external : Once IsString "hostPort" members e) : IsMapping (.object members) ⟨t, i, e⟩
  | array {t i e} : IsMapping (.array [.text t, .text i, .text e]) ⟨t, i, e⟩

/-- a machine: an object with its name and status, or an array that begins with them; address and mappings can be
left out -/
inductive IsMachine : Value → Machine → Prop
  | object {members n s a l} (name : Once IsString "vmName" members n) (status : Once IsStatus "status" members s)
      (address : AtMostOnce IsString "" "ip" members a)
      (mappings : AtMostOnce (IsList IsMapping) [] "portForwards" members l) : IsMachine (.object members) ⟨n, s, a, l⟩
  | two {n v s} (status : IsStatus v s) : IsMachine (.array [.text n, v]) ⟨n, s, "", []⟩
  | three {n v s a} (status : IsStatus v s) : IsMachine (.array [.text n, v, .text a]) ⟨n, s, a, []⟩
  | four {n v s a v' l} (status : IsStatus v s) (mappings : IsList IsMapping v' l) :
      IsMachine (.array [.text n, v, .text a, v']) ⟨n, s, a, l⟩

/-- a listing: an object with its machines, if there are any, or an array of nothing or of the machines -/
inductive IsListing : Value → Listing → Prop
  | object {members l} (machines : AtMostOnce (IsList IsMachine) [] "vms" members l) : IsListing (.object members) ⟨l⟩
  | empty : IsListing (.array []) ⟨[]⟩
  | one {v l} (machines : IsList IsMachine v l) : IsListing (.array [v]) ⟨l⟩

/-! ## Readers -/

theorem readText_iff (v : Value) (s : String) : readText v.doc = .ok s ↔ IsString v s := by
  unfold IsString
  cases v with
  | number n =>
    rw [Value.doc, Numeral.doc]
    cases n.value? <;> simp [readText, Doc.unexpected]
  | _ => simp [Value.doc, readText, Doc.unexpected]

theorem readItems_iff {α : Type} {read : Reader α} {R : Value → α → Prop} (hR : ∀ v a, read v.doc = .ok a ↔ R v a)
    (items : List Value) (l : List α) : readItems read (Value.docs items) none = .ok l ↔ List.Forall₂ R items l := by
  induction items generalizing l with
  | nil => simp [Value.docs, readItems, eq_comm]
  | cons v items ih =>
    rw [Value.docs, readItems]
    cases hv : read v.doc with
    | error e =>
      refine iff_of_false (by simp) ?_
      rintro (_ | ⟨hfirst, -⟩)
      exact absurd (hv.symm.trans ((hR v _).2 hfirst)) (by simp)
    | ok a =>
      cases hitems : readItems read (Value.docs items) none with
      | error e =>
        refine iff_of_false (by simp) ?_
        rintro (_ | ⟨-, hrest⟩)
        exact absurd (hitems.symm.trans ((ih _).2 hrest)) (by simp)
      | ok as =>
        constructor
        · intro h
          obtain rfl := Except.ok.inj h
          exact .cons ((hR v a).1 hv) ((ih as).1 hitems)
        · rintro (_ | ⟨hfirst, hrest⟩)
          obtain rfl := Except.ok.inj (hv.symm.trans ((hR v _).2 hfirst))
          obtain rfl := Except.ok.inj (hitems.symm.trans ((ih _).2 hrest))
          rfl

theorem readList_iff {α : Type} {read : Reader α} {R : Value → α → Prop} (hR : ∀ v a, read v.doc = .ok a ↔ R v a)
    (v : Value) (l : List α) : readList read v.doc = .ok l ↔ IsList R v l := by
  unfold IsList
  cases v with
  | array items => simpa [Value.doc, readList] using readItems_iff hR items l
  | number n =>
    rw [Value.doc, Numeral.doc]
    cases n.value? <;> simp [readList, Doc.unexpected]
  | _ => simp [Value.doc, readList, Doc.unexpected]

namespace Status

theorem ofName_eq_iff (word : String) (s : Status) : ofName word = s ↔ s.NamedBy word := by
  unfold ofName NamedBy
  split_ifs with h₁ h₂ h₃ h₄ <;> subst_vars <;> cases s <;> simp_all [name, eq_comm]

theorem read_iff (v : Value) (s : Status) : read v.doc = .ok s ↔ IsStatus v s := by
  constructor
  · intro h
    unfold read at h
    cases v with
    | text word =>
      obtain hs : ofName word = s := Except.ok.inj h
      exact .word ((ofName_eq_iff word s).1 hs)
    | object members =>
      rcases members with _ | ⟨⟨word, v⟩, more⟩
      · simp [Value.doc, Value.docMembers, readChoice] at h
      · cases v with
        | null =>
          cases more with
          | nil =>
            obtain hs : ofName word = s := Except.ok.inj h
            exact .wrapped ((ofName_eq_iff word s).1 hs)
          | cons m more => simp [Value.doc, Value.docMembers, Value.docMember, readChoice, readUnit] at h
        | number n =>
          simp only [Value.doc, Value.docMembers, Value.docMember, readChoice, Numeral.doc] at h
          cases hn : n.value? <;> simp [hn, readUnit] at h
        | _ => simp [Value.doc, Value.docMembers, Value.docMember, readChoice, readUnit] at h
    | number n =>
      rw [Value.doc, Numeral.doc] at h
      cases hn : n.value? <;> simp [hn, readChoice] at h
    | _ => simp [Value.doc, readChoice] at h
  · rintro (⟨h⟩ | ⟨h⟩)
    · exact congrArg Except.ok ((ofName_eq_iff _ s).2 h)
    · exact congrArg Except.ok ((ofName_eq_iff _ s).2 h)

end Status

namespace Mapping

variable {d d' : Draft} {v : Doc} {name : String}

theorem mem_names (h : name ∈ form.names) : name = "description" ∨ name = "guestPort" ∨ name = "hostPort" := by
  simpa [Form.names, form] using h

/-- what is put is one of the three fields, and the others stay -/
theorem of_put (hname : name ∈ form.names) (h : form.put d name v = .ok d') :
    (name = "description" ∧ ∃ s, d' = { d with tag := some s }) ∨
      (name = "guestPort" ∧ ∃ s, d' = { d with internalPort := some s }) ∨
      name = "hostPort" ∧ ∃ s, d' = { d with externalPort := some s } := by
  rcases mem_names hname with rfl | rfl | rfl
  · obtain ⟨s, -, hs⟩ := of_map_eq_ok h
    exact Or.inl ⟨rfl, s, hs.symm⟩
  · obtain ⟨s, -, hs⟩ := of_map_eq_ok h
    exact Or.inr (Or.inl ⟨rfl, s, hs.symm⟩)
  · obtain ⟨s, -, hs⟩ := of_map_eq_ok h
    exact Or.inr (Or.inr ⟨rfl, s, hs.symm⟩)

theorem tagSlot : form.Slot "description" readText Draft.tag := by
  refine .of_map (fun d s => { d with tag := some s }) (by decide) rfl (fun _ => rfl) (fun _ _ => rfl)
    (fun _ _ => rfl) fun d other v d' hmem hne h => ?_
  rcases of_put hmem h with ⟨rfl, -⟩ | ⟨-, s, rfl⟩ | ⟨-, s, rfl⟩
  · exact absurd rfl hne
  · rfl
  · rfl

theorem internalSlot : form.Slot "guestPort" readText Draft.internalPort := by
  refine .of_map (fun d s => { d with internalPort := some s }) (by decide) rfl (fun _ => rfl) (fun _ _ => rfl)
    (fun _ _ => rfl) fun d other v d' hmem hne h => ?_
  rcases of_put hmem h with ⟨-, s, rfl⟩ | ⟨rfl, -⟩ | ⟨-, s, rfl⟩
  · rfl
  · exact absurd rfl hne
  · rfl

theorem externalSlot : form.Slot "hostPort" readText Draft.externalPort := by
  refine .of_map (fun d s => { d with externalPort := some s }) (by decide) rfl (fun _ => rfl) (fun _ _ => rfl)
    (fun _ _ => rfl) fun d other v d' hmem hne h => ?_
  rcases of_put hmem h with ⟨-, s, rfl⟩ | ⟨-, s, rfl⟩ | ⟨rfl, -⟩
  · rfl
  · rfl
  · exact absurd rfl hne

theorem finish_eq_ok_iff {m : Mapping} : form.finish d = .ok m ↔
    d.tag = some m.tag ∧ d.internalPort = some m.internalPort ∧ d.externalPort = some m.externalPort := by
  obtain ⟨t, i, e⟩ := d
  obtain ⟨mt, mi, me⟩ := m
  cases t <;> cases i <;> cases e <;> simp [form, required]

theorem isSlotted : form.IsSlotted where
  nodup := by decide
  slot name hname := by
    rcases mem_names hname with rfl | rfl | rfl
    · exact ⟨_, _, _, tagSlot⟩
    · exact ⟨_, _, _, internalSlot⟩
    · exact ⟨_, _, _, externalSlot⟩
  required d m h name hname := by
    obtain ⟨ht, hi, he⟩ := finish_eq_ok_iff.1 h
    simp only [form, List.mem_cons, Prod.mk.injEq, and_true, List.not_mem_nil, or_false] at hname
    rcases hname with rfl | rfl | rfl
    · rw [tagSlot.has, ht]
      rfl
    · rw [internalSlot.has, hi]
      rfl
    · rw [externalSlot.has, he]
      rfl

/-- a mapping in both forms of a record -/
theorem isMapping_iff {v : Value} {m : Mapping} : IsMapping v m ↔ ∃ members, v.HasFields form.names members ∧
    Once IsString "description" members m.tag ∧ Once IsString "guestPort" members m.internalPort ∧
      Once IsString "hostPort" members m.externalPort := by
  constructor
  · rintro (⟨ht, hi, he⟩ | _)
    · exact ⟨_, Or.inl rfl, ht, hi, he⟩
    · refine ⟨_, Or.inr ⟨_, rfl, le_rfl, rfl⟩, ⟨_, rfl, rfl⟩, ⟨_, rfl, rfl⟩, ⟨_, rfl, rfl⟩⟩
  · rintro ⟨members, rfl | ⟨items, rfl, hlength, rfl⟩, ht, hi, he⟩
    · exact .object ht hi he
    · obtain ⟨_, ht, rfl⟩ := (once_zip_iff isSlotted.nodup (i := 0) rfl).1 ht
      obtain ⟨_, hi, rfl⟩ := (once_zip_iff isSlotted.nodup (i := 1) rfl).1 hi
      obtain ⟨_, he, rfl⟩ := (once_zip_iff isSlotted.nodup (i := 2) rfl).1 he
      obtain ⟨hlast, -⟩ := List.getElem?_eq_some_iff.1 he
      obtain ⟨a, b, c, rfl⟩ := List.length_eq_three.1 (le_antisymm hlength hlast)
      obtain rfl : a = .text m.tag := Option.some.inj ht
      obtain rfl : b = .text m.internalPort := Option.some.inj hi
      obtain rfl : c = .text m.externalPort := Option.some.inj he
      exact .array

theorem read_iff (v : Value) (m : Mapping) : read v.doc = .ok m ↔ IsMapping v m := by
  rw [isMapping_iff, read, Form.read_iff isSlotted]
  constructor
  · rintro ⟨members, d, hfields, hread, hfinish⟩
    obtain ⟨ht, hi, he⟩ := finish_eq_ok_iff.1 hfinish
    exact ⟨members, hfields, (tagSlot.once_iff readText_iff hread).2 ht, (internalSlot.once_iff readText_iff hread).2 hi,
      (externalSlot.once_iff readText_iff hread).2 he⟩
  · rintro ⟨members, hfields, ht, hi, he⟩
    obtain ⟨d, hread⟩ : ∃ d, form.readMembers form.start (Value.docMembers members) none = .ok d := by
      apply Form.exists_readMembers isSlotted.slot
      intro name hname
      rcases mem_names hname with rfl | rfl | rfl
      · exact tagSlot.accepts_of_once readText_iff ht
      · exact internalSlot.accepts_of_once readText_iff hi
      · exact externalSlot.accepts_of_once readText_iff he
    refine ⟨members, d, hfields, hread, finish_eq_ok_iff.2 ⟨?_, ?_, ?_⟩⟩
    · exact (tagSlot.once_iff readText_iff hread).1 ht
    · exact (internalSlot.once_iff readText_iff hread).1 hi
    · exact (externalSlot.once_iff readText_iff hread).1 he

end Mapping

namespace Machine

variable {d d' : Draft} {v : Doc} {name : String}

theorem mem_names (h : name ∈ form.names) :
    name = "vmName" ∨ name = "status" ∨ name = "ip" ∨ name = "portForwards" := by
  simpa [Form.names, form] using h

/-- what is put is one of the four fields, and the others stay -/
theorem of_put (hname : name ∈ form.names) (h : form.put d name v = .ok d') :
    (name = "vmName" ∧ ∃ s, d' = { d with name := some s }) ∨
      (name = "status" ∧ ∃ s, d' = { d with status := some s }) ∨
      (name = "ip" ∧ ∃ s, d' = { d with address := some s }) ∨
      name = "portForwards" ∧ ∃ l, d' = { d with mappings := some l } := by
  rcases mem_names hname with rfl | rfl | rfl | rfl
  · obtain ⟨s, -, hs⟩ := of_map_eq_ok h
    exact Or.inl ⟨rfl, s, hs.symm⟩
  · obtain ⟨s, -, hs⟩ := of_map_eq_ok h
    exact Or.inr (Or.inl ⟨rfl, s, hs.symm⟩)
  · obtain ⟨s, -, hs⟩ := of_map_eq_ok h
    exact Or.inr (Or.inr (Or.inl ⟨rfl, s, hs.symm⟩))
  · obtain ⟨l, -, hl⟩ := of_map_eq_ok h
    exact Or.inr (Or.inr (Or.inr ⟨rfl, l, hl.symm⟩))

theorem nameSlot : form.Slot "vmName" readText Draft.name := by
  refine .of_map (fun d s => { d with name := some s }) (by decide) rfl (fun _ => rfl) (fun _ _ => rfl)
    (fun _ _ => rfl) fun d other v d' hmem hne h => ?_
  rcases of_put hmem h with ⟨rfl, -⟩ | ⟨-, s, rfl⟩ | ⟨-, s, rfl⟩ | ⟨-, l, rfl⟩
  · exact absurd rfl hne
  all_goals rfl

theorem statusSlot : form.Slot "status" Status.read Draft.status := by
  refine .of_map (fun d s => { d with status := some s }) (by decide) rfl (fun _ => rfl) (fun _ _ => rfl)
    (fun _ _ => rfl) fun d other v d' hmem hne h => ?_
  rcases of_put hmem h with ⟨-, s, rfl⟩ | ⟨rfl, -⟩ | ⟨-, s, rfl⟩ | ⟨-, l, rfl⟩
  · rfl
  · exact absurd rfl hne
  all_goals rfl

theorem addressSlot : form.Slot "ip" readText Draft.address := by
  refine .of_map (fun d s => { d with address := some s }) (by decide) rfl (fun _ => rfl) (fun _ _ => rfl)
    (fun _ _ => rfl) fun d other v d' hmem hne h => ?_
  rcases of_put hmem h with ⟨-, s, rfl⟩ | ⟨-, s, rfl⟩ | ⟨rfl, -⟩ | ⟨-, l, rfl⟩
  · rfl
  · rfl
  · exact absurd rfl hne
  · rfl

theorem mappingsSlot : form.Slot "portForwards" (readList Mapping.read) Draft.mappings := by
  refine .of_map (fun d l => { d with mappings := some l }) (by decide) rfl (fun _ => rfl) (fun _ _ => rfl)
    (fun _ _ => rfl) fun d other v d' hmem hne h => ?_
  rcases of_put hmem h with ⟨-, s, rfl⟩ | ⟨-, s, rfl⟩ | ⟨-, s, rfl⟩ | ⟨rfl, -⟩
  · rfl
  · rfl
  · rfl
  · exact absurd rfl hne

theorem finish_eq_ok_iff {m : Machine} : form.finish d = .ok m ↔ d.name = some m.name ∧ d.status = some m.status ∧
    d.address.getD "" = m.address ∧ d.mappings.getD [] = m.mappings := by
  obtain ⟨n, s, a, l⟩ := d
  obtain ⟨mn, ms, ma, ml⟩ := m
  cases n <;> cases s <;> simp [form, required]

theorem isSlotted : form.IsSlotted where
  nodup := by decide
  slot name hname := by
    rcases mem_names hname with rfl | rfl | rfl | rfl
    · exact ⟨_, _, _, nameSlot⟩
    · exact ⟨_, _, _, statusSlot⟩
    · exact ⟨_, _, _, addressSlot⟩
    · exact ⟨_, _, _, mappingsSlot⟩
  required d m h name hname := by
    obtain ⟨hn, hs, -⟩ := finish_eq_ok_iff.1 h
    have hfields : name = "vmName" ∨ name = "status" := by simpa [form] using hname
    rcases hfields with rfl | rfl
    · rw [nameSlot.has, hn]
      rfl
    · rw [statusSlot.has, hs]
      rfl

/-- a machine in both forms of a record -/
theorem isMachine_iff {v : Value} {m : Machine} : IsMachine v m ↔ ∃ members, v.HasFields form.names members ∧
    Once IsString "vmName" members m.name ∧ Once IsStatus "status" members m.status ∧
      AtMostOnce IsString "" "ip" members m.address ∧
      AtMostOnce (IsList IsMapping) [] "portForwards" members m.mappings := by
  have hnames : form.names.length = 4 := rfl
  constructor
  · rintro (⟨hn, hs, ha, hl⟩ | hs | hs | ⟨hs, hl⟩)
    · exact ⟨_, Or.inl rfl, hn, hs, ha, hl⟩
    · exact ⟨_, Or.inr ⟨_, rfl, by simp [hnames], rfl⟩, ⟨_, rfl, rfl⟩, ⟨_, rfl, hs⟩, Or.inl ⟨rfl, rfl⟩, Or.inl ⟨rfl, rfl⟩⟩
    · exact ⟨_, Or.inr ⟨_, rfl, by simp [hnames], rfl⟩, ⟨_, rfl, rfl⟩, ⟨_, rfl, hs⟩, Or.inr ⟨_, rfl, rfl⟩, Or.inl ⟨rfl, rfl⟩⟩
    · exact ⟨_, Or.inr ⟨_, rfl, by simp [hnames], rfl⟩, ⟨_, rfl, rfl⟩, ⟨_, rfl, hs⟩, Or.inr ⟨_, rfl, rfl⟩, Or.inr ⟨_, rfl, hl⟩⟩
  · obtain ⟨n, s, a, l⟩ := m
    rintro ⟨members, rfl | ⟨items, rfl, hlength, rfl⟩, hn, hs, ha, hl⟩
    · exact .object hn hs ha hl
    · obtain ⟨_, hn, rfl⟩ := (once_zip_iff isSlotted.nodup (i := 0) rfl).1 hn
      obtain ⟨v, hv, hstatus⟩ := (once_zip_iff isSlotted.nodup (i := 1) rfl).1 hs
      rw [atMostOnce_zip_iff isSlotted.nodup (i := 2) rfl] at ha
      rw [atMostOnce_zip_iff isSlotted.nodup (i := 3) rfl] at hl
      rcases items with _ | ⟨x, _ | ⟨y, rest⟩⟩
      · exact absurd hn (by simp)
      · exact absurd hv (by simp)
      obtain rfl : x = .text n := Option.some.inj hn
      obtain rfl : y = v := Option.some.inj hv
      -- what is there besides name and status
      rcases rest with _ | ⟨z, _ | ⟨z', rest⟩⟩
      · obtain rfl : a = "" := by simpa using ha
        obtain rfl : l = [] := by simpa using hl
        exact .two hstatus
      · obtain rfl : z = .text a := by simpa [IsString] using ha
        obtain rfl : l = [] := by simpa using hl
        exact .three hstatus
      · obtain rfl : z = .text a := by simpa [IsString] using ha
        obtain rfl : rest = [] := by
          simp only [hnames, List.length_cons] at hlength
          exact List.eq_nil_of_length_eq_zero (by omega)
        exact .four hstatus (by simpa using hl)

theorem read_iff (v : Value) (m : Machine) : read v.doc = .ok m ↔ IsMachine v m := by
  have hlist := readList_iff Mapping.read_iff
  rw [isMachine_iff, read, Form.read_iff isSlotted]
  constructor
  · rintro ⟨members, d, hfields, hread, hfinish⟩
    obtain ⟨hn, hs, ha, hl⟩ := finish_eq_ok_iff.1 hfinish
    exact ⟨members, hfields, (nameSlot.once_iff readText_iff hread).2 hn,
      (statusSlot.once_iff Status.read_iff hread).2 hs, (addressSlot.atMostOnce_iff readText_iff hread).2 ha,
      (mappingsSlot.atMostOnce_iff hlist hread).2 hl⟩
  · rintro ⟨members, hfields, hn, hs, ha, hl⟩
    obtain ⟨d, hread⟩ : ∃ d, form.readMembers form.start (Value.docMembers members) none = .ok d := by
      apply Form.exists_readMembers isSlotted.slot
      intro name hname
      rcases mem_names hname with rfl | rfl | rfl | rfl
      · exact nameSlot.accepts_of_once readText_iff hn
      · exact statusSlot.accepts_of_once Status.read_iff hs
      · exact addressSlot.accepts_of_atMostOnce readText_iff ha
      · exact mappingsSlot.accepts_of_atMostOnce hlist hl
    refine ⟨members, d, hfields, hread, finish_eq_ok_iff.2 ⟨?_, ?_, ?_, ?_⟩⟩
    · exact (nameSlot.once_iff readText_iff hread).1 hn
    · exact (statusSlot.once_iff Status.read_iff hread).1 hs
    · exact (addressSlot.atMostOnce_iff readText_iff hread).1 ha
    · exact (mappingsSlot.atMostOnce_iff hlist hread).1 hl

end Machine

namespace Listing

theorem machinesSlot : form.Slot "vms" (readList Machine.read) id :=
  .of_only rfl rfl (fun _ => rfl) fun _ _ => rfl

theorem isSlotted : form.IsSlotted where
  nodup := by decide
  slot name hname := by
    obtain rfl : name = "vms" := by simpa [Form.names, form] using hname
    exact ⟨_, _, _, machinesSlot⟩
  required d l _ name hname := absurd hname (by simp [form])

/-- a listing in both forms of a record -/
theorem isListing_iff {v : Value} {l : Listing} : IsListing v l ↔ ∃ members, v.HasFields form.names members ∧
    AtMostOnce (IsList IsMachine) [] "vms" members l.machines := by
  constructor
  · rintro (h | _ | h)
    · exact ⟨_, Or.inl rfl, h⟩
    · exact ⟨_, Or.inr ⟨_, rfl, Nat.zero_le _, rfl⟩, Or.inl ⟨rfl, rfl⟩⟩
    · exact ⟨_, Or.inr ⟨_, rfl, le_rfl, rfl⟩, Or.inr ⟨_, rfl, h⟩⟩
  · obtain ⟨machines⟩ := l
    rintro ⟨members, rfl | ⟨items, rfl, hlength, rfl⟩, h⟩
    · exact .object h
    · rw [atMostOnce_zip_iff isSlotted.nodup (i := 0) rfl] at h
      rcases items with _ | ⟨v, rest⟩
      · obtain rfl : machines = [] := by simpa using h
        exact .empty
      · obtain rfl : rest = [] := by simpa [Form.names, form] using hlength
        exact .one (by simpa using h)

theorem read_iff (v : Value) (l : Listing) : read v.doc = .ok l ↔ IsListing v l := by
  have hlist := readList_iff Machine.read_iff
  rw [isListing_iff, read, Form.read_iff isSlotted]
  constructor
  · rintro ⟨members, d, hfields, hread, hfinish⟩
    obtain rfl := Except.ok.inj hfinish
    exact ⟨members, hfields, (machinesSlot.atMostOnce_iff hlist hread).2 rfl⟩
  · rintro ⟨members, hfields, h⟩
    obtain ⟨d, hread⟩ : ∃ d, form.readMembers form.start (Value.docMembers members) none = .ok d := by
      apply Form.exists_readMembers isSlotted.slot
      intro name hname
      obtain rfl : name = "vms" := by simpa [Form.names, form] using hname
      exact machinesSlot.accepts_of_atMostOnce hlist h
    obtain ⟨machines⟩ := l
    obtain rfl : d.getD [] = machines := (machinesSlot.atMostOnce_iff hlist hread).1 h
    exact ⟨members, d, hfields, hread, rfl⟩

/-- **The decoder accepts exactly the format.** A text of any JSON value is decoded to a listing if the value is that
listing, and to no other one. -/
theorem decodes_iff {v : Value} {s : Bytes} (h : v.IsText s) (l : Listing) :
    fromBytes read s = .ok l ↔ IsListing v l := by
  rw [← read_iff, fromBytes, ofBytes_of_isText h]
  cases hread : read v.doc with
  | error e => simp [hread]
  | ok l' => simp [hread]

/-- a machine as an array with its status in an object, an escape in a key, and a number out of range passed over -/
theorem decodes_array_of_machine :
    fromBytes read (Utf8.encode " \x7b\"vm\\u0073\" : [[\"a\",\x7b\"PAUSED\":null\x7d]],\"x\":1e999\x7d\n") =
      .ok ⟨[⟨"a", .paused, "", []⟩]⟩ := by
  have hspace : IsBlank [0x20] := by simp [IsBlank]
  -- the text of the value, from the inside to the outside
  have hpaused : (Value.object [("PAUSED", .null)]).Spells _ :=
    .object [] isBlank_nil [⟨[], "PAUSED", _, [], [], .null, _, []⟩]
      (by simpa using ⟨isBlank_nil, isLiteral_writeText "PAUSED", isBlank_nil, isBlank_nil, isBlank_nil⟩)
      (by simpa using .null)
  have hmachine : (Value.array [.text "a", .object [("PAUSED", .null)]]).Spells _ :=
    .array [] isBlank_nil [⟨[], .text "a", _, []⟩, ⟨[], _, _, []⟩]
      (by simpa using ⟨⟨isBlank_nil, isBlank_nil⟩, isBlank_nil, isBlank_nil⟩)
      (by simpa using ⟨.text "a" _ (isLiteral_writeText "a"), hpaused⟩)
  have hmachines : (Value.array [.array [.text "a", .object [("PAUSED", .null)]]]).Spells _ :=
    .array [] isBlank_nil [⟨[], _, _, []⟩] (by simpa using ⟨isBlank_nil, isBlank_nil⟩) (by simpa using hmachine)
  have hkey : IsLiteral "vms" _ :=
    ⟨_, .cons (.plain 'v' (by decide) (by decide) (by decide)) (.cons (.plain 'm' (by decide) (by decide) (by decide))
      (.cons (.unicode 's' [0x30, 0x30, 0x37, 0x33] (by decide)) .nil)), rfl⟩
  have hnumber : (Value.number ⟨false, ['1'], [], some (false, ['9', '9', '9']), false⟩).Spells _ :=
    .number _ _ ⟨⟨by simp, by simp⟩, Or.inr (by simp), rfl,
      _, .some 'e' (Or.inl rfl) false [] .none ['9', '9', '9'] ⟨by simp, by simp⟩, rfl⟩
  have hvalue : (Value.object [("vms", .array [.array [.text "a", .object [("PAUSED", .null)]]]),
      ("x", .number ⟨false, ['1'], [], some (false, ['9', '9', '9']), false⟩)]).Spells _ :=
    .object [] isBlank_nil [⟨[], "vms", _, [0x20], ⟨[0x20], _, _, []⟩⟩, ⟨[], "x", _, [], [], _, _, []⟩]
      (by simpa using ⟨⟨isBlank_nil, hkey, hspace, hspace, isBlank_nil⟩,
        isBlank_nil, isLiteral_writeText "x", isBlank_nil, isBlank_nil, isBlank_nil⟩)
      (by simpa using ⟨hmachines, hnumber⟩)
  refine (decodes_iff ⟨[0x20], _, [0x0A], hspace, hvalue, by simp [IsBlank], by decide +kernel⟩ _).2 ?_
  exact .object (Or.inr ⟨_, rfl, _, rfl, .cons (.two (.wrapped (Or.inl ⟨by decide, rfl⟩))) .nil⟩)
end Listing

end MachineGateway
