/-
What the searches of `Text` find, said with the list order: `after?` is the inverse of appending, `startsWith` is
`<+:`, `occurs` is `<:+:`; `cutAt` takes a list apart at the first separator, and the parts of `splitAt` are what
stands between two separators (`mem_splitAt_iff`), and give the list back when they are joined (`joinWith_splitAt`,
`splitAt_joinWith`). A text stands within whatever it is put together with (`infix_first`, `infix_last`).
-/
import Mathlib.Tactic
import MachineGateway.Text.Split

namespace MachineGateway.Text

variable {α : Type} [BEq α] [LawfulBEq α]

theorem after?_append (start l : List α) : after? start (start ++ l) = some l := by
  induction start with
  | nil => rfl
  | cons s start ih => simpa [after?] using ih

theorem after?_eq_some {start l rest : List α} : after? start l = some rest ↔ l = start ++ rest := by
  constructor
  · intro h
    induction start generalizing l with
    | nil => simpa [after?] using h
    | cons s start ih =>
      cases l with
      | nil => simp [after?] at h
      | cons a l =>
        rw [after?] at h
        split_ifs at h with hs
        rw [ih h, eq_of_beq hs, List.cons_append]
  · rintro rfl
    exact after?_append start rest

theorem startsWith_iff {start l : List α} : startsWith start l = true ↔ start <+: l := by
  unfold startsWith
  rw [Option.isSome_iff_exists]
  constructor
  · rintro ⟨rest, h⟩
    exact ⟨rest, (after?_eq_some.1 h).symm⟩
  · rintro ⟨rest, h⟩
    exact ⟨rest, after?_eq_some.2 h.symm⟩

theorem occurs_iff {part l : List α} : occurs part l = true ↔ part <:+: l := by
  induction l with
  | nil => simp [occurs]
  | cons a l ih => rw [occurs, Bool.or_eq_true, startsWith_iff, ih, List.infix_cons_iff]

/-! ## Cutting at separators -/

variable {sep : α} {l part rest : List α}

theorem cutAt_append (h : sep ∉ part) (rest : List α) : cutAt sep (part ++ sep :: rest) = (part, some rest) := by
  induction part with
  | nil => simp [cutAt]
  | cons a part ih =>
    rw [List.mem_cons, not_or] at h
    have ha : (a == sep) = false := beq_false_of_ne (Ne.symm h.1)
    simp [cutAt, ha, ih h.2]

theorem cutAt_of_not_mem (h : sep ∉ l) : cutAt sep l = (l, none) := by
  induction l with
  | nil => rfl
  | cons a l ih =>
    rw [List.mem_cons, not_or] at h
    have ha : (a == sep) = false := beq_false_of_ne (Ne.symm h.1)
    simp [cutAt, ha, ih h.2]

/-- a list holds no separator, or is cut at the first one -/
theorem cutAt_cases (sep : α) (l : List α) :
    sep ∉ l ∧ cutAt sep l = (l, none) ∨
      ∃ part rest, sep ∉ part ∧ l = part ++ sep :: rest ∧ cutAt sep l = (part, some rest) := by
  by_cases h : sep ∈ l
  · obtain ⟨part, rest, rfl, hpart⟩ := List.eq_append_cons_of_mem h
    exact Or.inr ⟨part, rest, hpart, rfl, cutAt_append hpart rest⟩
  · exact Or.inl ⟨h, cutAt_of_not_mem h⟩

/-- what stands before the first separator, whatever follows it -/
theorem cutAt_fst_append (hpart : sep ∉ part) (hrest : ∀ a ∈ rest.head?, a = sep) :
    (cutAt sep (part ++ rest)).1 = part := by
  cases rest with
  | nil => rw [List.append_nil, cutAt_of_not_mem hpart]
  | cons a rest => rw [hrest a rfl, cutAt_append hpart]

theorem exists_cutAt_fst (sep : α) (l : List α) :
    ∃ rest, l = (cutAt sep l).1 ++ rest ∧ sep ∉ (cutAt sep l).1 ∧ ∀ a ∈ rest.head?, a = sep := by
  rcases cutAt_cases sep l with ⟨hnone, hcut⟩ | ⟨part, rest, hpart, hl, hcut⟩
  · exact ⟨[], by simp [hcut], by simpa [hcut] using hnone, by simp⟩
  · exact ⟨sep :: rest, by rw [hcut, hl], by simpa [hcut] using hpart, by simp⟩

omit [LawfulBEq α] in
theorem splitAt_ne_nil (sep : α) (l : List α) : splitAt sep l ≠ [] := by
  cases l with
  | nil => exact List.cons_ne_nil _ _
  | cons a l =>
    unfold splitAt
    split <;> split_ifs <;> exact List.cons_ne_nil _ _

omit [LawfulBEq α] in
theorem splitAt_sublist (h : part ∈ splitAt sep l) : part.Sublist l := by
  induction l generalizing part with
  | nil =>
    obtain rfl : part = [] := by simpa [splitAt] using h
    exact List.Sublist.refl _
  | cons a l ih =>
    rw [splitAt] at h
    split at h
    · rename_i hnil
      exact absurd hnil (splitAt_ne_nil sep l)
    · rename_i first parts hsplit
      rw [hsplit] at ih
      split_ifs at h with ha
      · rcases List.mem_cons.1 h with rfl | h
        · exact List.nil_sublist _
        · exact (ih h).cons a
      · rcases List.mem_cons.1 h with rfl | h
        · exact (ih List.mem_cons_self).cons_cons a
        · exact (ih (List.mem_cons_of_mem _ h)).cons a

theorem splitAt_of_not_mem (h : sep ∉ l) : splitAt sep l = [l] := by
  induction l with
  | nil => rfl
  | cons a l ih =>
    rw [List.mem_cons, not_or] at h
    have ha : (a == sep) = false := beq_false_of_ne (Ne.symm h.1)
    simp [splitAt, ha, ih h.2]

/-- the parts of two lists with a separator between them -/
theorem splitAt_append (h : sep ∉ part) (rest : List α) :
    splitAt sep (part ++ sep :: rest) = part :: splitAt sep rest := by
  induction part with
  | nil =>
    rw [List.nil_append, splitAt]
    cases hrest : splitAt sep rest with
    | nil => exact absurd hrest (splitAt_ne_nil sep rest)
    | cons first parts => simp
  | cons a part ih =>
    rw [List.mem_cons, not_or] at h
    have ha : (a == sep) = false := beq_false_of_ne (Ne.symm h.1)
    simp [splitAt, ha, ih h.2]

/-- two lists with a separator between them have the parts of both -/
theorem splitAt_append_cons (l rest : List α) : splitAt sep (l ++ sep :: rest) = splitAt sep l ++ splitAt sep rest := by
  induction l with
  | nil => exact splitAt_append List.not_mem_nil rest
  | cons a l ih =>
    rw [List.cons_append, splitAt, ih, splitAt]
    cases hl : splitAt sep l with
    | nil => exact absurd hl (splitAt_ne_nil sep l)
    | cons first parts => by_cases ha : a = sep <;> simp [ha]

theorem not_mem_of_mem_splitAt (h : part ∈ splitAt sep l) : sep ∉ part := by
  induction l generalizing part with
  | nil =>
    obtain rfl : part = [] := by simpa [splitAt] using h
    exact List.not_mem_nil
  | cons a l ih =>
    rw [splitAt] at h
    cases hl : splitAt sep l with
    | nil => exact absurd hl (splitAt_ne_nil sep l)
    | cons first parts =>
      rw [hl] at h ih
      by_cases ha : a = sep
      · simp only [ha, beq_self_eq_true, if_true] at h
        rcases List.mem_cons.1 h with rfl | h
        · exact List.not_mem_nil
        · exact ih h
      · simp only [beq_false_of_ne ha, Bool.false_eq_true, if_false] at h
        rcases List.mem_cons.1 h with rfl | h
        · simp [Ne.symm ha, ih List.mem_cons_self]
        · exact ih (List.mem_cons_of_mem _ h)

omit [BEq α] [LawfulBEq α] in
theorem joinWith_cons_cons (first second : List α) (parts : List (List α)) :
    joinWith sep (first :: second :: parts) = first ++ sep :: joinWith sep (second :: parts) := by
  simp [joinWith]

/-- the parts of a list, joined again, are the list -/
theorem joinWith_splitAt (sep : α) (l : List α) : joinWith sep (splitAt sep l) = l := by
  induction l with
  | nil => rfl
  | cons a l ih =>
    rw [splitAt]
    cases hl : splitAt sep l with
    | nil => exact absurd hl (splitAt_ne_nil sep l)
    | cons first parts =>
      rw [hl] at ih
      by_cases ha : a = sep
      · simp [ha, joinWith_cons_cons, ih]
      · cases parts with
        | nil => simpa [ha, joinWith] using ih
        | cons second parts =>
          rw [joinWith_cons_cons] at ih
          simp [ha, joinWith_cons_cons, ih]

/-- joining is undone by cutting at the separators -/
theorem splitAt_joinWith {parts : List (List α)} (hne : parts ≠ []) (h : ∀ p ∈ parts, sep ∉ p) :
    splitAt sep (joinWith sep parts) = parts := by
  induction parts with
  | nil => exact absurd rfl hne
  | cons first parts ih =>
    cases parts with
    | nil => exact splitAt_of_not_mem (h first List.mem_cons_self)
    | cons second parts =>
      have hrest := ih (List.cons_ne_nil _ _) fun p hp => h p (List.mem_cons_of_mem first hp)
      rw [joinWith_cons_cons, splitAt_append (h first List.mem_cons_self), hrest]

omit [BEq α] [LawfulBEq α] in
/-- each part of a joined list stands between two separators, where the ends of the list count as separators -/
theorem infix_joinWith {parts : List (List α)} (h : part ∈ parts) :
    sep :: part ++ [sep] <:+: sep :: joinWith sep parts ++ [sep] := by
  induction parts with
  | nil => exact absurd h List.not_mem_nil
  | cons first parts ih =>
    cases parts with
    | nil =>
      obtain rfl := List.mem_singleton.1 h
      exact List.infix_refl _
    | cons second parts =>
      rw [joinWith_cons_cons]
      rcases List.mem_cons.1 h with rfl | h
      · exact ⟨[], joinWith sep (second :: parts) ++ [sep], by simp⟩
      · exact (ih h).trans (List.IsSuffix.isInfix ⟨sep :: first, by simp⟩)

/-- the parts of a list are what stands between two separators without holding one -/
theorem mem_splitAt_iff : part ∈ splitAt sep l ↔ sep ∉ part ∧ sep :: part ++ [sep] <:+: sep :: l ++ [sep] := by
  constructor
  · intro h
    have hinfix : sep :: part ++ [sep] <:+: sep :: joinWith sep (splitAt sep l) ++ [sep] := infix_joinWith h
    rw [joinWith_splitAt] at hinfix
    exact ⟨not_mem_of_mem_splitAt h, hinfix⟩
  · rintro ⟨hpart, front, back, h⟩
    obtain ⟨f, fs, hf⟩ := List.exists_cons_of_ne_nil (splitAt_ne_nil sep front)
    obtain ⟨bs, b, hb⟩ := (List.eq_nil_or_concat (splitAt sep back)).resolve_left (splitAt_ne_nil sep back)
    -- both sides of `h` are cut: on the left the part is neither the first nor the last of the parts
    have hleft : splitAt sep (front ++ (sep :: part ++ [sep]) ++ back) = f :: (fs ++ part :: bs) ++ [b] := by
      have : front ++ (sep :: part ++ [sep]) ++ back = front ++ sep :: (part ++ sep :: back) := by simp
      rw [this, splitAt_append_cons, splitAt_append hpart, hf, hb]
      simp
    have hright : splitAt sep (sep :: l ++ [sep]) = [] :: splitAt sep l ++ [[]] := by
      have : sep :: l ++ [sep] = [] ++ sep :: (l ++ sep :: []) := rfl
      rw [this, splitAt_append_cons, splitAt_append_cons]
      rfl
    have hparts : f :: (fs ++ part :: bs) = [] :: splitAt sep l :=
      List.append_inj_left' (hleft.symm.trans ((congrArg (splitAt sep) h).trans hright)) rfl
    rw [← (List.cons.inj hparts).2]
    simp

omit [LawfulBEq α] in
/-- a map under which the separator, and nothing else, becomes another separator leaves the places of the cuts -/
theorem splitAt_map {β : Type} [BEq β] (f : α → β) (other : β) (h : ∀ x ∈ l, (f x == other) = (x == sep)) :
    splitAt other (l.map f) = (splitAt sep l).map (List.map f) := by
  induction l with
  | nil => rfl
  | cons a l ih =>
    rw [List.map_cons, splitAt, splitAt, ih fun x hx => h x (List.mem_cons_of_mem a hx), h a List.mem_cons_self]
    cases splitAt sep l with
    | nil => split_ifs <;> rfl
    | cons first parts => split_ifs <;> rfl

omit [BEq α] [LawfulBEq α] in
theorem mem_of_joinWith {a : α} {parts : List (List α)} (h : a ∈ joinWith sep parts) :
    a = sep ∨ ∃ part ∈ parts, a ∈ part := by
  induction parts with
  | nil => simp [joinWith] at h
  | cons first parts ih =>
    cases parts with
    | nil => exact Or.inr ⟨first, by simp, h⟩
    | cons second parts =>
      rw [joinWith, List.mem_append, List.mem_cons] at h
      · rcases h with h | h | h
        · exact Or.inr ⟨first, by simp, h⟩
        · exact Or.inl h
        · exact (ih h).imp_right fun ⟨part, hpart, ha⟩ => ⟨part, List.mem_cons_of_mem first hpart, ha⟩
      · simp

/-! ## Texts within texts -/

theorem infix_last (front text : String) : text.toList <:+: (front ++ text).toList := by
  rw [String.toList_append]
  exact (List.suffix_append _ _).isInfix

theorem infix_inner {text front : String} (h : text.toList <:+: front.toList) (back : String) :
    text.toList <:+: (front ++ back).toList := by
  rw [String.toList_append]
  exact h.trans (List.prefix_append _ _).isInfix

theorem infix_first (text back : String) : text.toList <:+: (text ++ back).toList :=
  infix_inner (List.infix_refl _) back

end MachineGateway.Text
