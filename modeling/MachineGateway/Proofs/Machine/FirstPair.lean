/-
What the order of a listing decides. A machine and a mapping have positions; selection finds the lexicographically
least pair of positions at which the request is served (`Selection.isFirst_iff_isLeast`). Machines that do not serve
the request make no difference to what is found (`Listing.choose_congr`), and neither do the other names once a machine
has been found without one (`Selection.IsFirst.byName`).

`select_least` is all of it, for every listing, every name and every selector.
-/
import Mathlib.Data.Prod.Lex
import Mathlib.Order.Bounds.Basic
import MachineGateway.Proofs.Machine.Selection

namespace MachineGateway

instance (target : Option String) (s : Selector) (m : Machine) (p : Mapping) : Decidable (Serves target s m p) :=
  decidable_of_iff _ serves_iff.symm

/-- the machine serves the request with one of its mappings -/
def Machine.IsEligible (target : Option String) (s : Selector) (m : Machine) : Prop :=
  ∃ p ∈ m.mappings, Serves target s m p

instance (target : Option String) (s : Selector) (m : Machine) : Decidable (m.IsEligible target s) :=
  inferInstanceAs (Decidable (∃ p ∈ m.mappings, Serves target s m p))

variable {l l' : Listing} {target : Option String} {s : Selector} {m : Machine} {p : Mapping} {c : Selection}

/-- whoever serves a request for a name serves one without a name -/
theorem Serves.unnamed {n : Option String} (h : Serves n s m p) : Serves none s m p :=
  ⟨h.running, fun _ hn => absurd hn (by simp), h.tag, h.port⟩

/-- whoever serves a request without a name serves one for its own name -/
theorem Serves.byName (h : Serves none s m p) : Serves (some m.name) s m p :=
  ⟨h.running, fun _ hn => Option.some.inj hn, h.tag, h.port⟩

namespace Listing

/-- the pairs of positions at which a machine of the listing serves the request with one of its mappings -/
def servingPairs (l : Listing) (target : Option String) (s : Selector) : Set (ℕ ×ₗ ℕ) :=
  {x | ∃ m p, l.machines[(ofLex x).1]? = some m ∧ m.mappings[(ofLex x).2]? = some p ∧ Serves target s m p}

/-- the machines that serve the request, in order -/
def eligible (l : Listing) (target : Option String) (s : Selector) : List Machine :=
  l.machines.filter fun m => m.IsEligible target s

/-- the machine that selection finds with its mapping, wherever the machine stands, or why there is none -/
def choose (l : Listing) (target : Option String) (s : Selector) : Except LookupError (Machine × Nat × Mapping) :=
  (l.select target s).map fun c => (c.machine, c.mappingIndex, c.mapping)

end Listing

/-! ## Positions -/

theorem mem_take_iff {α : Type} {a : α} {l : List α} {n : Nat} : a ∈ l.take n ↔ ∃ i < n, l[i]? = some a := by
  simp only [List.mem_iff_getElem?, List.getElem?_take]
  constructor
  · rintro ⟨i, hi⟩
    split_ifs at hi with hlt
    exact ⟨i, hlt, hi⟩
  · rintro ⟨i, hlt, hi⟩
    exact ⟨i, by rw [if_pos hlt, hi]⟩

/-- **The first machine with its first mapping stands at the least pair of positions.** -/
theorem Selection.isFirst_iff_isLeast : c.IsFirst l target s ↔
    l.machines[c.machineIndex]? = some c.machine ∧ c.machine.mappings[c.mappingIndex]? = some c.mapping ∧
      IsLeast (l.servingPairs target s) (toLex (c.machineIndex, c.mappingIndex)) := by
  constructor
  · intro h
    refine ⟨h.machine, h.mapping, ⟨c.machine, c.mapping, h.machine, h.mapping, h.serves⟩, ?_⟩
    rintro x ⟨m, p, hm, hp, hserves⟩
    rw [Prod.Lex.le_iff]
    -- no earlier machine serves the request, and on the same machine no earlier mapping does
    rcases Nat.lt_trichotomy c.machineIndex (ofLex x).1 with hlt | heq | hgt
    · exact Or.inl hlt
    · refine Or.inr ⟨heq, ?_⟩
      obtain rfl : c.machine = m := Option.some.inj ((h.machine.symm.trans (by rw [heq])).trans hm)
      by_contra hlt
      have hmem : p ∈ c.machine.mappings.take c.mappingIndex :=
        mem_take_iff.2 ⟨(ofLex x).2, Nat.lt_of_not_le hlt, hp⟩
      exact h.noMapping p hmem hserves
    · have hmem : m ∈ l.machines.take c.machineIndex := mem_take_iff.2 ⟨(ofLex x).1, hgt, hm⟩
      exact absurd hserves (h.noMachine m hmem p (List.mem_of_getElem? hp))
  · rintro ⟨hm, hp, ⟨m, p, hm', hp', hserves⟩, hleast⟩
    obtain rfl : m = c.machine := Option.some.inj (hm'.symm.trans hm)
    obtain rfl : p = c.mapping := Option.some.inj (hp'.symm.trans hp)
    refine ⟨hm, hp, hserves, ?_, ?_⟩
    · intro m hmem p hmapping hearlier
      obtain ⟨i, hi, hm⟩ := mem_take_iff.1 hmem
      obtain ⟨j, hp⟩ := List.getElem?_of_mem hmapping
      have hle := Prod.Lex.le_iff.1 (hleast (a := toLex (i, j)) ⟨m, p, hm, hp, hearlier⟩)
      simp at hle
      omega
    · intro p hmem hearlier
      obtain ⟨j, hj, hp⟩ := mem_take_iff.1 hmem
      have hle := Prod.Lex.le_iff.1 (hleast (a := toLex (c.machineIndex, j)) ⟨c.machine, p, hm, hp, hearlier⟩)
      simp at hle
      omega

/-! ## Machines that make no difference -/

theorem findSome?_eq_map_firstWith {α β : Type} (f : α → Option β) (l : List α) :
    l.findSome? f = (firstWith f l).map (·.2) := by
  induction l with
  | nil => rfl
  | cons a l ih =>
    rw [List.findSome?_cons, firstWith]
    cases f a with
    | some b => rfl
    | none => simp [ih, Function.comp_def]

theorem Machine.isEligible_iff : m.IsEligible target s ↔ (m.offer? target s).isSome = true := by
  rw [← not_iff_not, Bool.not_eq_true, Option.isSome_eq_false_iff, Option.isNone_iff_eq_none, offer?_eq_none_iff]
  simp [IsEligible]

/-- what is found depends on the eligible machines alone -/
theorem Listing.map_select?_eq_head? (l : Listing) (target : Option String) (s : Selector) :
    (l.select? target s).map (fun c => (c.machine, c.mappingIndex, c.mapping)) =
      ((l.eligible target s).filterMap (Machine.offer? target s)).head? := by
  calc (l.select? target s).map (fun c => (c.machine, c.mappingIndex, c.mapping))
      = l.machines.findSome? (Machine.offer? target s) := by
        rw [findSome?_eq_map_firstWith, select?, Option.map_map]
        rfl
    _ = (l.machines.filterMap (Machine.offer? target s)).head? := List.head?_filterMap.symm
    _ = ((l.eligible target s).filterMap (Machine.offer? target s)).head? := by
        rw [eligible, List.filterMap_filter]
        congr 1
        refine List.filterMap_congr fun m _ => ?_
        by_cases h : m.IsEligible target s
        · simp [h]
        · have hnone : m.offer? target s = none := by simpa [Machine.isEligible_iff] using h
          simp [h, hnone]

/-- listings with the same eligible machines in the same order give the same machine and mapping, or the same error -/
theorem Listing.choose_congr (h : l'.eligible target s = l.eligible target s) :
    l'.choose target s = l.choose target s := by
  have hmap := map_select?_eq_head? l' target s
  rw [h, ← map_select?_eq_head? l target s] at hmap
  unfold choose select
  cases hc : l.select? target s with
  | none =>
    rw [hc, Option.map_none, Option.map_eq_none_iff] at hmap
    rw [hmap]
  | some c =>
    rw [hc] at hmap
    obtain ⟨c', hc', heq⟩ := Option.map_eq_some_iff.1 hmap
    rw [hc']
    exact congrArg Except.ok heq

/-! ## Selecting by the name of what was found -/

/-- the machine found without a name is found by its own -/
theorem Selection.IsFirst.byName (h : c.IsFirst l none s) : c.IsFirst l (some c.machine.name) s := by
  refine ⟨h.machine, h.mapping, h.serves.byName, ?_, ?_⟩
  · intro m hm p hp hserves
    exact h.noMachine m hm p hp hserves.unnamed
  · intro p hp hserves
    exact h.noMapping p hp hserves.unnamed

/-! ## Selection -/

/-- **Selection finds the least pair of positions at which a request is served, and fails exactly if there is none.**

1. it succeeds exactly if some machine runs, has the wanted name if one is wanted, and offers the service;
2. what it finds stands at the lexicographically least pair of positions of such a machine and such a mapping;
3. otherwise the error carries the wanted name and the service, or the service alone where no name is wanted;
4. listings with the same eligible machines in the same order give the same machine with the same mapping, so that
   removing, adding or altering other machines makes no difference;
5. the machine that is found without a name is found by its own name, with the same mapping. -/
theorem Listing.select_least (l : Listing) (target : Option String) (s : Selector) :
    ((∃ c, l.select target s = .ok c) ↔ ∃ m ∈ l.machines, ∃ p ∈ m.mappings, Serves target s m p) ∧
      (∀ c, l.select target s = .ok c →
        l.machines[c.machineIndex]? = some c.machine ∧ c.machine.mappings[c.mappingIndex]? = some c.mapping ∧
          IsLeast (l.servingPairs target s) (toLex (c.machineIndex, c.mappingIndex))) ∧
      ((¬ ∃ m ∈ l.machines, ∃ p ∈ m.mappings, Serves target s m p) →
        (∀ n, target = some n → l.select target s = .error (.notNamed n s.text)) ∧
          (target = none → l.select target s = .error (.noneRunning s.text))) ∧
      (∀ l' : Listing, l'.eligible target s = l.eligible target s → l'.choose target s = l.choose target s) ∧
      ∀ c, l.select none s = .ok c → l.select (some c.machine.name) s = .ok c := by
  refine ⟨?_, ?_, ?_, ?_, ?_⟩
  · constructor
    · rintro ⟨c, hc⟩
      have h := select_eq_ok_iff.1 hc
      exact ⟨c.machine, List.mem_of_getElem? h.machine, c.mapping, List.mem_of_getElem? h.mapping, h.serves⟩
    · rintro ⟨m, hm, p, hp, hserves⟩
      cases hc : l.select target s with
      | ok c => exact ⟨c, rfl⟩
      | error e => exact absurd hserves ((select_eq_error_iff.1 hc).1 m hm p hp)
  · intro c hc
    exact Selection.isFirst_iff_isLeast.1 (select_eq_ok_iff.1 hc)
  · intro hnone
    have hlacks : l.Lacks target s := fun m hm p hp hserves => hnone ⟨m, hm, p, hp, hserves⟩
    constructor
    · rintro n rfl
      exact select_eq_error_iff.2 ⟨hlacks, rfl⟩
    · rintro rfl
      exact select_eq_error_iff.2 ⟨hlacks, rfl⟩
  · intro l' heligible
    exact choose_congr heligible
  · intro c hc
    exact select_eq_ok_iff.2 (select_eq_ok_iff.1 hc).byName

/-- the first of three machines of one name does not run and the second one has the service at another port only; of
the third one's mappings the second is the first that offers the service -/
example :
    let wanted : Mapping := ⟨"cdp", "9223", "41003"⟩
    let third : Machine := ⟨"a", .running, "", [⟨"vnc", "9223", "41002"⟩, wanted, ⟨"cdp", "9223", "41004"⟩]⟩
    let l : Listing := ⟨[⟨"a", .stopped, "", [wanted]⟩, ⟨"a", .running, "", [⟨"cdp", "9222", "41001"⟩]⟩, third]⟩
    l.select (some "a") ⟨"cdp", some "9223"⟩ = .ok ⟨2, third, 1, wanted⟩ := rfl

end MachineGateway
