/-
What selection finds. A machine and one of its mappings serve a request if the machine runs, has the wanted name and
offers the service at that mapping. `select` finds the first such machine of the listing with the first such mapping of
it (`select_eq_ok_iff`), and fails exactly if the listing has none (`select_eq_error_iff`). The backend of a request is
that machine at the place where it is dialed (`resolve_eq_ok_iff`): at its external port on the shared host, or at its
internal port on its own host (`endpoint_eq_ok_iff`), which is what its address holds before the first slash
(`host?_eq_some_iff`).
-/
import Mathlib.Tactic
import MachineGateway.Machine.Backend
import MachineGateway.Proofs.Text.Blank
import MachineGateway.Proofs.Text.Cutting

namespace MachineGateway

/-! ## The first element with a value -/

section FirstWith

variable {α β : Type} {f : α → Option β} {l : List α}

theorem firstWith_eq_none_iff : firstWith f l = none ↔ ∀ a ∈ l, f a = none := by
  induction l with
  | nil => simp [firstWith]
  | cons a l ih =>
    rw [firstWith, List.forall_mem_cons]
    cases ha : f a with
    | some b => simp
    | none => simp [ih]

theorem firstWith_eq_some_iff {i : Nat} {b : β} :
    firstWith f l = some (i, b) ↔ (∃ a, l[i]? = some a ∧ f a = some b) ∧ ∀ a ∈ l.take i, f a = none := by
  induction l generalizing i with
  | nil => simp [firstWith]
  | cons a l ih =>
    rw [firstWith]
    cases ha : f a with
    | some c =>
      cases i with
      | zero => simp [ha]
      | succ i => simp [ha]
    | none =>
      cases i with
      | zero => simp [ha]
      | succ i => simp [ha, ih]

end FirstWith

/-! ## Machines that serve a request -/

/-- a machine that may serve a request for `target`, with a mapping that offers the service -/
structure Serves (target : Option String) (s : Selector) (m : Machine) (p : Mapping) : Prop where
  running : m.status = .running
  name : ∀ n ∈ target, m.name = n
  tag : p.tag = s.tag
  port : ∀ n ∈ s.port, p.internalPort = n

/-- no machine of the listing serves the request -/
def Listing.Lacks (l : Listing) (target : Option String) (s : Selector) : Prop :=
  ∀ m ∈ l.machines, ∀ p ∈ m.mappings, ¬ Serves target s m p

/-- the first machine of the listing that serves the request, with its first mapping that does -/
structure Selection.IsFirst (c : Selection) (l : Listing) (target : Option String) (s : Selector) : Prop where
  machine : l.machines[c.machineIndex]? = some c.machine
  mapping : c.machine.mappings[c.mappingIndex]? = some c.mapping
  serves : Serves target s c.machine c.mapping
  noMachine : ∀ m ∈ l.machines.take c.machineIndex, ∀ p ∈ m.mappings, ¬ Serves target s m p
  noMapping : ∀ p ∈ c.machine.mappings.take c.mappingIndex, ¬ Serves target s c.machine p

variable {l : Listing} {target : Option String} {s : Selector} {m : Machine} {p : Mapping}

theorem Selector.accepts_iff : s.accepts p = true ↔ p.tag = s.tag ∧ ∀ n ∈ s.port, p.internalPort = n := by
  unfold Selector.accepts
  cases s.port <;> simp

theorem Machine.answersTo_iff : m.answersTo target = true ↔ m.status = .running ∧ ∀ n ∈ target, m.name = n := by
  unfold Machine.answersTo Machine.isRunning
  cases target <;> simp

theorem serves_iff : Serves target s m p ↔ m.answersTo target = true ∧ s.accepts p = true := by
  rw [Selector.accepts_iff, Machine.answersTo_iff]
  constructor
  · rintro ⟨running, name, tag, port⟩
    exact ⟨⟨running, name⟩, tag, port⟩
  · rintro ⟨⟨running, name⟩, tag, port⟩
    exact ⟨running, name, tag, port⟩

theorem Machine.offer?_eq_none_iff : m.offer? target s = none ↔ ∀ p ∈ m.mappings, ¬ Serves target s m p := by
  simp only [serves_iff, not_and]
  unfold Machine.offer? Machine.mapping?
  by_cases h : m.answersTo target = true
  · simp [h, firstWith_eq_none_iff]
  · simp [h]

theorem Machine.offer?_eq_some_iff {r : Machine × Nat × Mapping} : m.offer? target s = some r ↔
    r.1 = m ∧ m.mappings[r.2.1]? = some r.2.2 ∧ Serves target s m r.2.2 ∧
      ∀ p ∈ m.mappings.take r.2.1, ¬ Serves target s m p := by
  obtain ⟨m', j, p⟩ := r
  simp only [serves_iff, not_and]
  unfold Machine.offer? Machine.mapping?
  by_cases h : m.answersTo target = true
  · simp only [h, if_true, Option.map_eq_some_iff, Prod.exists, firstWith_eq_some_iff, Prod.mk.injEq, forall_const,
      true_and]
    constructor
    · rintro ⟨j, p, ⟨⟨p', hp', hsome⟩, hbefore⟩, rfl, rfl, rfl⟩
      split_ifs at hsome with haccepts
      obtain rfl := Option.some.inj hsome
      exact ⟨rfl, hp', haccepts, fun q hq hserves => by simpa [hserves] using hbefore q hq⟩
    · rintro ⟨rfl, hp, haccepts, hbefore⟩
      exact ⟨j, p, ⟨⟨p, hp, by simp [haccepts]⟩, fun q hq => by simp [hbefore q hq]⟩, rfl, rfl, rfl⟩
  · simp [h]

/-! ## Selection -/

namespace Listing

theorem select?_eq_some_iff {c : Selection} : l.select? target s = some c ↔ c.IsFirst l target s := by
  unfold select?
  simp only [Option.map_eq_some_iff, Prod.exists, firstWith_eq_some_iff, Machine.offer?_eq_some_iff,
    Machine.offer?_eq_none_iff]
  constructor
  · rintro ⟨i, m, j, p, ⟨⟨m', hm, rfl, hp, hserves, hmapping⟩, hmachine⟩, rfl⟩
    exact ⟨hm, hp, hserves, hmachine, hmapping⟩
  · rintro ⟨hm, hp, hserves, hmachine, hmapping⟩
    exact ⟨_, _, _, _, ⟨⟨_, hm, rfl, hp, hserves, hmapping⟩, hmachine⟩, rfl⟩

theorem select?_eq_none_iff : l.select? target s = none ↔ l.Lacks target s := by
  simp only [select?, Option.map_eq_none_iff, firstWith_eq_none_iff, Machine.offer?_eq_none_iff, Lacks]

/-- **Selection finds the first machine that serves the request.** -/
theorem select_eq_ok_iff {c : Selection} : l.select target s = .ok c ↔ c.IsFirst l target s := by
  rw [← select?_eq_some_iff]
  unfold select
  cases l.select? target s <;> cases target <;> simp

/-- selection fails exactly if no machine serves the request, with an error that says which was asked for -/
theorem select_eq_error_iff {e : LookupError} : l.select target s = .error e ↔
    l.Lacks target s ∧ e = target.elim (.noneRunning s.text) fun n => .notNamed n s.text := by
  rw [← select?_eq_none_iff]
  unfold select
  cases l.select? target s <;> cases target <;> simp [eq_comm]

end Listing

/-! ## Hosts -/

namespace Machine

/-- a machine's own host: what is left of its address without a network size and without the blanks around it -/
structure IsHost (m : Machine) (host : String) : Prop where
  address : ∃ front back rest, m.address.toList = front ++ host.toList ++ back ++ rest ∧
    (∀ x ∈ front, Text.isBlank x = true) ∧ (∀ x ∈ back, Text.isBlank x = true) ∧ ∀ x ∈ rest.head?, x = '/'
  nonempty : host ≠ ""
  slashless : '/' ∉ host.toList
  head : ∀ x ∈ host.toList.head?, Text.isBlank x = false
  last : ∀ x ∈ host.toList.getLast?, Text.isBlank x = false

variable {host : String}

/-- **A machine's own host is what its address holds before the first slash.** -/
theorem host?_eq_some_iff : m.host? = some host ↔ m.IsHost host := by
  simp only [host?]
  constructor
  · intro h
    split_ifs at h with hempty
    obtain rfl := Option.some.inj h
    obtain ⟨rest, haddress, hslash, hrest⟩ := Text.exists_cutAt_fst '/' m.address.toList
    obtain ⟨front, back, hparts, hfront, hback⟩ :=
      Text.exists_stripWhile Text.isBlank (Text.cutAt '/' m.address.toList).1
    refine ⟨⟨front, back, rest, ?_, hfront, hback, hrest⟩, hempty, ?_, ?_, ?_⟩
    · rw [Text.trim, String.toList_ofList, String.toList_ofList, ← hparts]
      exact haddress
    · rw [Text.trim, String.toList_ofList, String.toList_ofList]
      exact fun hmem => hslash (Text.mem_of_mem_stripWhile hmem)
    · rw [Text.trim, String.toList_ofList]
      exact fun x hx => Text.head_stripWhile hx
    · rw [Text.trim, String.toList_ofList]
      exact fun x hx => Text.last_dropEndWhile hx
  · rintro ⟨⟨front, back, rest, haddress, hfront, hback, hrest⟩, hne, hslash, hhead, hlast⟩
    have hblank : ∀ l : List Char, (∀ x ∈ l, Text.isBlank x = true) → '/' ∉ l := fun l hl hmem =>
      absurd (hl _ hmem) (by decide)
    have hname : '/' ∉ front ++ host.toList ++ back := by
      simp [hblank front hfront, hblank back hback, hslash]
    have htrim : Text.trim (String.ofList (Text.cutAt '/' m.address.toList).1) = host := by
      rw [haddress, Text.cutAt_fst_append hname hrest, Text.trim, String.toList_ofList,
        Text.stripWhile_padded hfront hback, Text.stripWhile_eq_self hhead hlast, String.ofList_toList]
    simp [htrim, hne]

theorem host?_eq_none_iff : m.host? = none ↔ ∀ host, ¬ m.IsHost host := by
  simp only [← host?_eq_some_iff, Option.eq_none_iff_forall_ne_some, ne_eq]

end Machine

/-! ## Dialing -/

namespace Dialing

variable {d : Dialing} {answer : Except LookupError Listing} {b : Backend}

/-- the address at which a mapping of a machine is dialed: the shared host with the external port, or the machine's own
host with the internal port -/
inductive DialsAt (d : Dialing) (m : Machine) (p : Mapping) : String → Prop
  | mapped (h : d.mode = .mapped) : d.DialsAt m p (d.host ++ ":" ++ p.externalPort)
  | direct (h : d.mode = .direct) {host : String} (hhost : m.IsHost host) :
    d.DialsAt m p (host ++ ":" ++ p.internalPort)

/-- no backend can be had: there is no listing, no machine serves the request, or the one that does cannot be dialed -/
def Unserved (d : Dialing) (answer : Except LookupError Listing) (target : Option String) (s : Selector) : Prop :=
  (∃ e, answer = .error e) ∨ ∃ l, answer = .ok l ∧
    (l.Lacks target s ∨ ∃ c : Selection, c.IsFirst l target s ∧ d.mode = .direct ∧ ∀ host, ¬ c.machine.IsHost host)

/-- **A machine is dialed where the mode says.** -/
theorem endpoint_eq_ok_iff {e : Endpoint} : d.endpoint m p = .ok e ↔
    d.mode = .mapped ∧ e = ⟨d.host, p.externalPort⟩ ∨
      d.mode = .direct ∧ m.IsHost e.host ∧ e.port = p.internalPort := by
  obtain ⟨host, port⟩ := e
  rw [← Machine.host?_eq_some_iff]
  unfold endpoint
  cases d.mode with
  | mapped => simp [eq_comm]
  | direct => cases m.host? <;> simp [eq_comm]

theorem dialsAt_of_endpoint {e : Endpoint} (h : d.endpoint m p = .ok e) : d.DialsAt m p e.text := by
  rcases endpoint_eq_ok_iff.1 h with ⟨hmode, rfl⟩ | ⟨hmode, hhost, hport⟩
  · exact .mapped hmode
  · rw [Endpoint.text, hport]
    exact .direct hmode hhost

theorem endpoint_eq_error_iff : (∃ e, d.endpoint m p = .error e) ↔ d.mode = .direct ∧ ∀ host, ¬ m.IsHost host := by
  rw [← Machine.host?_eq_none_iff]
  unfold endpoint
  cases d.mode <;> cases m.host? <;> simp

/-- **The backend of a request is the first machine that serves it, where that is dialed.** -/
theorem resolve_eq_ok_iff : d.resolve answer target s = .ok b ↔ ∃ l, ∃ c : Selection, answer = .ok l ∧
    c.IsFirst l target s ∧ d.endpoint c.machine c.mapping = .ok b.endpoint ∧ b.machine = c.machine ∧
      b.mapping = c.mapping := by
  constructor
  · intro h
    cases answer with
    | error e => exact absurd h (by simp [resolve])
    | ok l =>
      simp only [resolve, backend] at h
      cases hc : l.select target s with
      | error e => simp [hc] at h
      | ok c =>
        cases he : d.endpoint c.machine c.mapping with
        | error e => simp [hc, he] at h
        | ok e =>
          obtain rfl : (⟨e, c.machine, c.mapping⟩ : Backend) = b := by simpa [hc, he] using h
          exact ⟨l, c, rfl, Listing.select_eq_ok_iff.1 hc, he, rfl, rfl⟩
  · rintro ⟨l, c, rfl, hfirst, he, hm, hp⟩
    obtain ⟨e, m, p⟩ := b
    subst hm hp
    simp [resolve, backend, Listing.select_eq_ok_iff.2 hfirst, he]

theorem resolve_eq_error_iff : (∃ e, d.resolve answer target s = .error e) ↔ d.Unserved answer target s := by
  unfold Unserved
  cases answer with
  | error e => simp [resolve]
  | ok l =>
    simp only [reduceCtorEq, exists_false, false_or, Except.ok.injEq, exists_eq_left', resolve, backend]
    cases hc : l.select target s with
    | error e => simp [(Listing.select_eq_error_iff.1 hc).1]
    | ok c =>
      have hfirst := Listing.select_eq_ok_iff.1 hc
      have hlacks : ¬ l.Lacks target s := fun hlacks =>
        hlacks c.machine (List.mem_of_getElem? hfirst.machine) c.mapping (List.mem_of_getElem? hfirst.mapping)
          hfirst.serves
      have hunique : ∀ c' : Selection, c'.IsFirst l target s ↔ c' = c := fun c' => by
        rw [← Listing.select_eq_ok_iff, hc, Except.ok.injEq, eq_comm]
      simp only [hlacks, hunique, exists_eq_left, false_or]
      rw [← endpoint_eq_error_iff (p := c.mapping)]
      cases d.endpoint c.machine c.mapping <;> simp

end Dialing

end MachineGateway
