/-
Readers and the documents that they undo. A reader that undoes the documents of some values undoes lists and options of
them, too, and it takes the text of such a document back to the value (`Undoes.fromBytes`). What holds of the start of a
form and is kept by each of its fields holds of what the form reads (`Form.of_read`).
-/
import MachineGateway.Json.Reading
import MachineGateway.Proofs.Json.Bounds
import MachineGateway.Proofs.Json.Documents

namespace MachineGateway.Json

variable {α δ : Type}

theorem of_map_eq_ok {ε β : Type} {f : α → β} {x : Except ε α} {b : β} (h : x.map f = .ok b) :
    ∃ a, x = .ok a ∧ f a = b := by
  cases x with
  | error e => simp [Except.map] at h
  | ok a => exact ⟨a, rfl, Except.ok.inj h⟩

/-! ## Readers that undo documents -/

/-- a reader takes the document of a value, which can be written, back to the value -/
structure Undoes (read : Reader α) (doc : α → Doc) (a : α) : Prop where
  plain : (doc a).Plain
  reads : read (doc a) = .ok a

variable {read : Reader α} {doc : α → Doc}

/-- the text of a value is read back as the value -/
theorem Undoes.fromBytes {a : α} (h : Undoes read doc a) : fromBytes read (Utf8.encode (doc a).render) = .ok a := by
  rw [Json.fromBytes, ofBytes_render h.plain]
  simp only [h.reads]

theorem undoes_text (s : String) : Undoes readText .text s := ⟨.text s, rfl⟩

theorem Undoes.list {l : List α} (h : ∀ a ∈ l, Undoes read doc a) : Undoes (readList read) (listDoc doc) l := by
  constructor
  · refine .array _ fun d hd => ?_
    obtain ⟨a, ha, rfl⟩ := List.mem_map.1 hd
    exact (h a ha).plain
  · show readItems read (l.map doc) none = .ok l
    induction l with
    | nil => rfl
    | cons a l ih =>
      have hfirst := (h a List.mem_cons_self).reads
      have hothers := ih fun a' ha' => h a' (List.mem_cons_of_mem a ha')
      simp [readItems, hfirst, hothers]

/-- null stands for nothing, so no value may be written as null -/
theorem Undoes.optional {o : Option α} (h : ∀ a, o = some a → Undoes read doc a ∧ doc a ≠ .null) :
    Undoes (readOptional read) (optionalDoc doc) o := by
  cases o with
  | none => exact ⟨.null, rfl⟩
  | some a =>
    obtain ⟨ha, hnull⟩ := h a rfl
    refine ⟨ha.plain, ?_⟩
    show readOptional read (doc a) = .ok (some a)
    unfold readOptional
    split
    · exact absurd ‹_› hnull
    · rw [ha.reads]
      rfl

theorem undoes_optionalText (o : Option String) : Undoes (readOptional readText) (optionalDoc .text) o :=
  Undoes.optional fun s _ => ⟨undoes_text s, by simp⟩

/-! ## What a form keeps -/

namespace Form

variable {form : Form δ α} {I : δ → Prop} {d d' : δ} {cut : Option Flaw}

theorem of_readMembers (hput : ∀ d name v d', v.Fits → I d → form.put d name v = .ok d' → I d')
    {members : List (Doc × Doc)} (hmembers : ∀ m ∈ members, m.2.Fits) (hd : I d)
    (h : form.readMembers d members cut = .ok d') : I d' := by
  induction members generalizing d with
  | nil =>
    cases cut with
    | none =>
      obtain rfl := Except.ok.inj h
      exact hd
    | some f => simp [readMembers] at h
  | cons m members ih =>
    obtain ⟨name, v⟩ := m
    have hv : v.Fits := hmembers (name, v) List.mem_cons_self
    have hothers : ∀ m ∈ members, m.2.Fits := fun m hm => hmembers m (List.mem_cons_of_mem _ hm)
    cases name with
    | text name =>
      rw [readMembers] at h
      split_ifs at h
      · cases hfield : form.put d name v with
        | error e => simp [hfield] at h
        | ok d₁ =>
          rw [hfield] at h
          exact ih hothers (hput d name v d₁ hv hd hfield) h
      · cases hobstacle : v.obstacle with
        | some f => simp [hobstacle] at h
        | none =>
          rw [hobstacle] at h
          exact ih hothers hd h
    | _ => simp [readMembers] at h

theorem of_readFields (hput : ∀ d name v d', v.Fits → I d → form.put d name v = .ok d' → I d')
    {fields : List (String × Bool)} {items : List Doc} (hitems : ∀ v ∈ items, v.Fits) {count : Nat} (hd : I d)
    (h : form.readFields d count fields items cut = .ok d') : I d' := by
  induction fields generalizing d items count with
  | nil =>
    cases items <;> cases cut <;> simp [readFields] at h
    exact h ▸ hd
  | cons field fields ih =>
    obtain ⟨name, optional⟩ := field
    cases items with
    | nil =>
      cases cut with
      | some f => simp [readFields] at h
      | none =>
        rw [readFields] at h
        split_ifs at h
        exact ih (by simp) hd h
    | cons v items =>
      rw [readFields] at h
      cases hfield : form.put d name v with
      | error e => simp [hfield] at h
      | ok d₁ =>
        rw [hfield] at h
        exact ih (fun v' hv' => hitems v' (List.mem_cons_of_mem v hv'))
          (hput d name v d₁ (hitems v List.mem_cons_self) hd hfield) h

/-- **What every field keeps holds of what is read**, in the form of an object and in that of an array. -/
theorem of_read {P : α → Prop} (hstart : I form.start)
    (hput : ∀ d name v d', v.Fits → I d → form.put d name v = .ok d' → I d')
    (hfinish : ∀ d a, I d → form.finish d = .ok a → P a) {doc : Doc} (hdoc : doc.Fits) {a : α}
    (h : form.read doc = .ok a) : P a := by
  cases hdoc with
  | array items cut hitems =>
    rw [Form.read] at h
    cases hfields : form.readFields form.start 0 form.fields items cut with
    | error e => simp [hfields] at h
    | ok d =>
      rw [hfields] at h
      exact hfinish d a (of_readFields hput hitems hstart hfields) h
  | object members cut hmembers =>
    rw [Form.read] at h
    cases hread : form.readMembers form.start members cut with
    | error e => simp [hread] at h
    | ok d =>
      rw [hread] at h
      exact hfinish d a (of_readMembers hput hmembers hstart hread) h
  | _ => simp [Form.read] at h

end Form

end MachineGateway.Json
