/-
Routes that name a machine. `named_cases` says what the route of a path under `/vm/` can be; it is that of the machine
that the path names, if it names one (`Route.names_iff`). A name that a path or a query gives is no heavier than the
text that it is read from (`weight_of_named`, `weight_of_query`), so no text gives a name that the text itself is a part
of.
-/
import MachineGateway.Proofs.Gateway.Query
import MachineGateway.Proofs.Text.Percent

namespace MachineGateway

/-! ## Paths -/

namespace Route

/-- what stands before a name in a path -/
def namedStart : List Char := ['/', 'v', 'm', '/']

theorem namedStart_eq : namedPrefix.toList ++ ['/'] = namedStart := by decide +kernel

theorem ofPath_named (t : List Char) : ofPath (String.ofList (namedStart ++ t)) = named (namedStart ++ t) t := by
  have hhealth : String.ofList (namedStart ++ t) ≠ healthPath := by
    intro h
    have := congrArg String.toList h
    rw [String.toList_ofList, show healthPath.toList = ['/', 'h', 'e', 'a', 'l', 't', 'h'] by decide +kernel] at this
    simp [namedStart] at this
  rw [ofPath, if_neg hhealth, namedStart_eq, String.toList_ofList, Text.after?_append]

/-- the route of a path under `/vm/` that leads to a machine: `path` is all of it, `rest` what follows `/vm/` -/
theorem named_cases {path rest : List Char} {name : Option String} {p : String}
    (h : named path rest = .machine name p) :
    rest = [] ∧ name = none ∧ p = String.ofList path ∨
      '/' ∉ rest ∧ (∃ n, Percent.decodeText? rest = some n ∧ name = some n) ∧ p = "/" ∨
      ∃ part tail, '/' ∉ part ∧ rest = part ++ '/' :: tail ∧
        (∃ n, Percent.decodeText? part = some n ∧ name = some n) ∧ p = String.ofList ('/' :: tail) := by
  unfold named at h
  rcases Text.cutAt_cases '/' rest with ⟨hno, hcut⟩ | ⟨part, tail, hno, rfl, hcut⟩
  · simp only [hcut] at h
    split_ifs at h with hempty
    · obtain ⟨rfl, rfl⟩ : none = name ∧ String.ofList path = p := by simpa using h
      exact Or.inl ⟨by simpa using hempty, rfl, rfl⟩
    · cases hd : Percent.decodeText? rest with
      | none => simp [hd] at h
      | some n =>
        obtain ⟨rfl, rfl⟩ : some n = name ∧ "/" = p := by simpa [hd] using h
        exact Or.inr (Or.inl ⟨hno, ⟨n, rfl, rfl⟩, rfl⟩)
  · simp only [hcut] at h
    cases hd : Percent.decodeText? part with
    | none => simp [hd] at h
    | some n =>
      simp only [hd] at h
      refine Or.inr (Or.inr ⟨part, tail, hno, rfl, ⟨n, hd, ?_⟩, ?_⟩)
      · split_ifs at h <;> simp_all
      · split_ifs at h with htail
        · obtain rfl : tail = [] := by simpa using htail
          obtain ⟨-, rfl⟩ : some n = name ∧ "/" = p := by simpa using h
          rfl
        · obtain ⟨-, rfl⟩ : some n = name ∧ String.ofList ('/' :: tail) = p := by simpa using h
          rfl

/-- a path is passed on as it is given, or as a slash and an end of it -/
theorem path_cases {given path : String} {name : Option String} (h : ofPath given = .machine name path) :
    path = given ∨ ∃ tail, tail <:+ given.toList ∧ path = String.ofList ('/' :: tail) := by
  unfold ofPath at h
  split_ifs at h
  cases hafter : Text.after? (namedPrefix.toList ++ ['/']) given.toList with
  | none =>
    simp only [hafter, machine.injEq] at h
    exact Or.inl h.2.symm
  | some rest =>
    simp only [hafter] at h
    have hsuffix : rest <:+ given.toList := ⟨_, (Text.after?_eq_some.1 hafter).symm⟩
    rcases named_cases h with ⟨-, -, rfl⟩ | ⟨-, -, rfl⟩ | ⟨part, tail, -, rfl, -, rfl⟩
    · exact Or.inl String.ofList_toList
    · exact Or.inr ⟨[], List.nil_suffix, by decide +kernel⟩
    · exact Or.inr ⟨tail, ((List.suffix_cons '/' tail).trans (List.suffix_append part _)).trans hsuffix, rfl⟩

/-- the route of `/vm/NAME/..` -/
theorem named_append {path part tail : List Char} {n : String} (hpart : '/' ∉ part)
    (hn : Percent.decodeText? part = some n) (htail : (Percent.decodeText? tail).isSome = true) :
    named path (part ++ '/' :: tail) = .machine (some n) (String.ofList ('/' :: tail)) := by
  simp only [named, Text.cutAt_append hpart, hn]
  split_ifs with hempty hread
  · obtain rfl : tail = [] := by simpa using hempty
    rfl
  · rw [Option.isNone_iff_eq_none] at hread
    simp [hread] at htail
  · rfl

/-- the path names a machine: what stands between `/vm/` and the next slash, or the end, stands for the name -/
def Names (path name : String) : Prop :=
  ∃ part rest, path.toList = namedStart ++ (part ++ rest) ∧ part ++ rest ≠ [] ∧ '/' ∉ part ∧
    (∀ c ∈ rest.head?, c = '/') ∧ Percent.decodeText? part = some name

theorem names_iff_cutAt {path name : String} : Names path name ↔
    ∃ t, path.toList = namedStart ++ t ∧ t ≠ [] ∧ Percent.decodeText? (Text.cutAt '/' t).1 = some name := by
  constructor
  · rintro ⟨part, rest, hpath, hne, hpart, hrest, hname⟩
    exact ⟨part ++ rest, hpath, hne, by rwa [Text.cutAt_fst_append hpart hrest]⟩
  · rintro ⟨t, hpath, hne, hname⟩
    obtain ⟨rest, ht, hpart, hrest⟩ := Text.exists_cutAt_fst '/' t
    exact ⟨_, rest, ht ▸ hpath, ht ▸ hne, hpart, hrest, hname⟩

/-- a path that leads to machines leads to the one that it names, if it names one -/
theorem names_iff {given path n : String} {name : Option String} (h : ofPath given = .machine name path) :
    Names given n ↔ name = some n := by
  rw [names_iff_cutAt]
  by_cases hstart : ∃ t, given.toList = namedStart ++ t
  · obtain ⟨t, ht⟩ := hstart
    rw [← String.ofList_toList (s := given), ht, ofPath_named] at h
    simp only [ht, List.append_cancel_left_eq, exists_eq_left']
    rcases eq_or_ne t [] with rfl | hne
    · -- `/vm/` alone leads to machines and names none
      obtain rfl : none = name := by simpa [named, Text.cutAt] using (machine.inj h).1
      simp
    · have hname : Percent.decodeText? (Text.cutAt '/' t).1 = name := by
        rcases named_cases h with ⟨rfl, -, -⟩ | ⟨hno, ⟨m, hm, rfl⟩, -⟩ | ⟨part, tail, hno, rfl, ⟨m, hm, rfl⟩, -⟩
        · exact absurd rfl hne
        · rw [Text.cutAt_of_not_mem hno, hm]
        · rw [Text.cutAt_append hno, hm]
      simp [hne, hname]
  · have hafter : Text.after? (namedPrefix.toList ++ ['/']) given.toList = none := by
      rw [namedStart_eq, Option.eq_none_iff_forall_ne_some]
      exact fun t ht => hstart ⟨t, Text.after?_eq_some.1 ht⟩
    obtain rfl : none = name := by
      unfold ofPath at h
      split_ifs at h
      rw [hafter] at h
      exact (machine.inj h).1
    simp only [reduceCtorEq, iff_false]
    rintro ⟨t, ht, -⟩
    exact hstart ⟨t, ht⟩

/-- the name in a path is no heavier than what it is read from -/
theorem weight_of_named {path rest : List Char} {n p : String} (h : named path rest = .machine (some n) p) :
    weight n.toList ≤ weight rest := by
  rcases named_cases h with ⟨-, hnone, -⟩ | ⟨-, ⟨m, hm, hsome⟩, -⟩ | ⟨part, tail, -, rfl, ⟨m, hm, hsome⟩, -⟩
  · exact absurd hnone (by simp)
  · obtain rfl := Option.some.inj hsome
    exact Percent.weight_decodeText hm
  · obtain rfl := Option.some.inj hsome
    rw [weight_append]
    exact (Percent.weight_decodeText hm).trans (Nat.le_add_right _ _)

end Route

/-! ## Queries -/

theorem weight_le_of_sublist {cs ds : List Char} (h : cs.Sublist ds) : weight cs ≤ weight ds :=
  Nat.add_le_add h.length_le (h.count_le '=')

namespace RoutedQuery

/-- a routing parameter is heavier than its value by `vm=` -/
theorem weight_of_routingValue {segment : List Char} {v : String} (h : routingValue? segment = some v) (hv : v ≠ "") :
    weight v.toList + 4 ≤ weight segment := by
  unfold routingValue? at h
  rcases Text.cutAt_cases '=' segment with ⟨-, hcut⟩ | ⟨key, value, -, rfl, hcut⟩
  · simp only [hcut] at h
    split_ifs at h
    obtain rfl := Option.some.inj h
    exact absurd rfl hv
  · simp only [hcut] at h
    split_ifs at h with hkey
    obtain rfl := Option.some.inj h
    have hk := Form.weight_decode key
    rw [hkey, show weight routingParameter.toList = 2 by decide +kernel] at hk
    have hvalue := Form.weight_decode value
    rw [weight_append, weight_cons, show weight ['='] = 2 from rfl]
    simp only [Option.getD_some]
    omega

/-- the name that a query gives is the value of one of its segments -/
theorem mem_of_lastName {segments : List (List Char)} {n : String} (h : lastName segments = some n) :
    ∃ s ∈ segments, routingValue? s = some n ∧ n ≠ "" := by
  rw [lastName_eq] at h
  have hmem := List.mem_of_getLast? h
  rw [List.mem_filter, List.mem_filterMap] at hmem
  obtain ⟨⟨s, hs, hvalue⟩, hn⟩ := hmem
  exact ⟨s, hs, hvalue, by simpa using hn⟩

/-- a query is heavier than the name that it gives by `vm=` -/
theorem weight_of_query {q n : String} (h : (ofText q).name = some n) : weight n.toList + 4 ≤ weight q.toList := by
  obtain ⟨s, hs, hvalue, hn⟩ := mem_of_lastName h
  have hsub := Text.splitAt_sublist (List.mem_filter.1 hs).1
  exact (weight_of_routingValue hvalue hn).trans (weight_le_of_sublist hsub)

end RoutedQuery

end MachineGateway
