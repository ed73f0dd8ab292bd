/-
A latch elects one winner, whatever the order in which the steps of the calls to complete it fall. While nobody has
claimed the latch, no call has done more than begin (`Unclaimed`); from the claim on, the latch is what the call that
claimed it has made of it, and every other call can only lose (`HeldBy`). Every step keeps it so (`Inv.step`), and hence
every run (`inv_run`).

- `won_unique`: at most one call wins, and exactly one where some call has returned and none is midway;
- `not_stores_run`: the cause is written once, by the call that claimed the latch, and stays;
- `first_of_done`: whoever sees the latch open sees the winner's cause in it;
- `done_run_iff`: the latch is open from the opening step on, and not before, so that those who wait go on then;
- `hasReturned_of_count`: a call that is given its own three steps returns.

Whoever looks at the latch changes nothing, so that what is proved of every state of a run is what each of them sees.
`elects_one` is all of it, for every number of calls and every order of their steps.
-/
import MachineGateway.Proofs.Relay.Teardown

namespace MachineGateway.Relay

namespace Latch

/-- the latch apart from those who wait at it -/
def alone (l : Latch) : Latch := { l with waiters := 0 }

/-- those who wait make no difference to a call -/
theorem advance_alone (c : Call) (l : Latch) :
    Race.advance c l.alone = ((Race.advance c l).1, (Race.advance c l).2.alone) := by
  obtain ⟨cause, stage⟩ := c
  cases stage with
  | begun => cases hl : l.claimed <;> simp [Race.advance, claim, alone, hl]
  | claimed => rfl
  | recorded => rfl
  | returned won => rfl

/-- a cause that is written stays -/
theorem first_advance {c : Cause} {l : Latch} (h : l.first = some c) (call : Call) :
    (Race.advance call l).2.first = some c := by
  obtain ⟨cause, stage⟩ := call
  cases stage with
  | begun => cases hl : l.claimed <;> simp [Race.advance, claim, hl, h]
  | claimed => simp [Race.advance, record, h]
  | recorded => exact h
  | returned won => exact h

/-- a call whose steps follow one another without interruption is complete -/
theorem complete_eq_advance (c : Cause) (l : Latch) :
    (Race.advance (Race.advance (Race.advance ⟨c, .begun⟩ l).1 (Race.advance ⟨c, .begun⟩ l).2).1
        (Race.advance (Race.advance ⟨c, .begun⟩ l).1 (Race.advance ⟨c, .begun⟩ l).2).2) =
      (⟨c, .returned (l.complete c).1⟩, (l.complete c).2) := by
  cases hl : l.claimed <;> simp [Race.advance, complete, claim, hl]

end Latch

namespace Race

variable {r : Race} {i j n : Nat} {c : Cause} {s : CallStage} {won : Bool} {causes : List Cause} {order more : List Nat}

/-! ## Calls -/

/-- calls with these causes, none of which has begun, and a latch that nobody has claimed -/
def start (causes : List Cause) : Race := { calls := causes.map fun c => { cause := c } }

/-- how far a call has come -/
def stage? (r : Race) (i : Nat) : Option CallStage := r.calls[i]?.map (·.stage)

/-- the next step of the call writes its cause -/
def Stores (r : Race) (i : Nat) : Prop := r.stage? i = some .claimed

/-- the next step of the call opens the latch -/
def Opens (r : Race) (i : Nat) : Prop := r.stage? i = some .recorded

/-- the call has claimed the latch and not returned yet -/
def Midway (r : Race) (i : Nat) : Prop := r.Stores i ∨ r.Opens i

def HasReturned (r : Race) (i : Nat) : Prop := ∃ won, r.stage? i = some (.returned won)

/-- the call has returned that it won -/
def Won (r : Race) (i : Nat) : Prop := r.stage? i = some (.returned true)

theorem stage?_eq_some : r.stage? i = some s ↔ ∃ c, r.calls[i]? = some ⟨c, s⟩ := by
  unfold stage?
  cases h : r.calls[i]? with
  | none => simp
  | some call =>
    obtain ⟨cause, stage⟩ := call
    simp

theorem run_cons (r : Race) (i : Nat) (order : List Nat) : r.run (i :: order) = (r.step i).run order := rfl

theorem run_append (r : Race) (l l' : List Nat) : r.run (l ++ l') = (r.run l).run l' := List.foldl_append

/-! ## One step -/

theorem step_of_none (h : r.calls[i]? = none) : r.step i = { r with latch := r.latch.wait } := by
  simp [step, h]

theorem step_of_call {call : Call} (h : r.calls[i]? = some call) :
    r.step i = ⟨(advance call r.latch).2, r.calls.set i (advance call r.latch).1⟩ := by
  simp [step, h]

theorem call_step_self {call : Call} (h : r.calls[i]? = some call) :
    (r.step i).calls[i]? = some (advance call r.latch).1 := by
  obtain ⟨hi, -⟩ := List.getElem?_eq_some_iff.1 h
  rw [step_of_call h]
  simp [hi]

/-- a step leaves every other call where it stands -/
theorem call_step_of_ne (h : j ≠ i) : (r.step i).calls[j]? = r.calls[j]? := by
  cases hi : r.calls[i]? with
  | none => rw [step_of_none hi]
  | some call => rw [step_of_call hi]; simp [Ne.symm h]

theorem eq_of_cause {call : Call} (h : call.cause = c) : call = ⟨c, call.stage⟩ := by
  subst h
  rfl

theorem cause_advance (call : Call) (l : Latch) : (advance call l).1.cause = call.cause := by
  obtain ⟨cause, stage⟩ := call
  cases stage with
  | begun => cases hl : l.claimed <;> simp [advance, Latch.claim, hl]
  | claimed => rfl
  | recorded => rfl
  | returned won => rfl

/-- a call keeps its cause -/
theorem cause_step (r : Race) (i j : Nat) : (r.step i).calls[j]?.map (·.cause) = r.calls[j]?.map (·.cause) := by
  by_cases hj : j = i
  · subst hj
    cases h : r.calls[j]? with
    | none => rw [step_of_none h, h]
    | some call => rw [call_step_self h]; simp [cause_advance]
  · rw [call_step_of_ne hj]

theorem cause_run (r : Race) (order : List Nat) (j : Nat) :
    (r.run order).calls[j]?.map (·.cause) = r.calls[j]?.map (·.cause) := by
  induction order generalizing r with
  | nil => rfl
  | cons i order ih => rw [run_cons, ih, cause_step]

theorem cause_start (causes : List Cause) (order : List Nat) (j : Nat) :
    ((start causes).run order).calls[j]?.map (·.cause) = causes[j]? := by
  rw [cause_run]
  simp [start, Function.comp_def]

theorem first_step (h : r.latch.first = some c) (i : Nat) : (r.step i).latch.first = some c := by
  cases hi : r.calls[i]? with
  | none => rw [step_of_none hi]; exact h
  | some call => rw [step_of_call hi]; exact Latch.first_advance h call

theorem first_run (h : r.latch.first = some c) (order : List Nat) : (r.run order).latch.first = some c := by
  induction order generalizing r with
  | nil => exact h
  | cons i order ih => exact ih (first_step h i)

/-- a latch that is open stays open, and one that is not is opened by an opening step alone -/
theorem done_step_iff (r : Race) (i : Nat) : (r.step i).latch.done = true ↔ r.latch.done = true ∨ r.Opens i := by
  cases hi : r.calls[i]? with
  | none => rw [step_of_none hi]; simp [Opens, stage?, hi, Latch.wait]
  | some call =>
    obtain ⟨cause, stage⟩ := call
    rw [step_of_call hi]
    cases stage with
    | begun => cases hl : r.latch.claimed <;> simp [Opens, stage?, hi, advance, Latch.claim, hl]
    | claimed => simp [Opens, stage?, hi, advance, Latch.record]
    | recorded => simp [Opens, stage?, hi, advance, Latch.opened]
    | returned won => simp [Opens, stage?, hi, advance]

theorem done_run (h : r.latch.done = true) (order : List Nat) : (r.run order).latch.done = true := by
  induction order generalizing r with
  | nil => exact h
  | cons i order ih => exact ih ((done_step_iff r i).2 (Or.inl h))

/-- a step that does not write leaves the cause as it is -/
theorem first_step_of_not_stores (h : ¬ r.Stores i) : (r.step i).latch.first = r.latch.first := by
  cases hi : r.calls[i]? with
  | none => rw [step_of_none hi]; rfl
  | some call =>
    obtain ⟨cause, stage⟩ := call
    rw [step_of_call hi]
    cases stage with
    | begun => cases hl : r.latch.claimed <;> simp [advance, Latch.claim, hl]
    | claimed => exact absurd (by simp [Stores, stage?, hi]) h
    | recorded => rfl
    | returned won => rfl

/-! ## Coming to an end -/

theorem left_run {call : Call} (h : r.calls[i]? = some call) (order : List Nat) :
    ∃ call', (r.run order).calls[i]? = some call' ∧ call'.stage.left ≤ call.stage.left - order.count i := by
  induction order generalizing r call with
  | nil => exact ⟨call, h, le_rfl⟩
  | cons j order ih =>
    by_cases hj : j = i
    · subst hj
      obtain ⟨call', hcall', hleft⟩ := ih (call_step_self h)
      have hstep := Latch.left_advance call r.latch
      refine ⟨call', hcall', ?_⟩
      rw [List.count_cons_self]
      omega
    · obtain ⟨call', hcall', hleft⟩ := ih ((call_step_of_ne (Ne.symm hj)).trans h)
      exact ⟨call', hcall', by rwa [List.count_cons_of_ne hj]⟩

/-- a call that has been given three steps of its own has returned, whatever steps of others fall between them -/
theorem hasReturned_of_count {call : Call} (h : r.calls[i]? = some call) (hcount : 3 ≤ order.count i) :
    (r.run order).HasReturned i := by
  obtain ⟨⟨cause, stage⟩, hcall, hleft⟩ := left_run h order
  have hle := call.stage.left_le
  obtain ⟨won, rfl⟩ : ∃ won, stage = .returned won := CallStage.returned_of_left (by simp only at hleft; omega)
  exact ⟨won, stage?_eq_some.2 ⟨cause, hcall⟩⟩

/-- a call that is not interrupted does what `Latch.complete` does in one -/
theorem run_uninterrupted (h : r.calls[i]? = some ⟨c, .begun⟩) :
    (r.run [i, i, i]).latch = (r.latch.complete c).2 ∧
      (r.run [i, i, i]).calls[i]? = some ⟨c, .returned (r.latch.complete c).1⟩ := by
  have h₁ := call_step_self h
  have h₂ := call_step_self h₁
  have h₃ := call_step_self h₂
  have hcomplete := Latch.complete_eq_advance c r.latch
  have hlatch₁ : (r.step i).latch = (advance ⟨c, .begun⟩ r.latch).2 := by rw [step_of_call h]
  have hlatch₂ : ((r.step i).step i).latch =
      (advance (advance ⟨c, .begun⟩ r.latch).1 (advance ⟨c, .begun⟩ r.latch).2).2 := by
    rw [step_of_call h₁, hlatch₁]
  have hlatch₃ : (((r.step i).step i).step i).latch = (r.latch.complete c).2 := by
    rw [step_of_call h₂, hlatch₁, hlatch₂, hcomplete]
  refine ⟨hlatch₃, ?_⟩
  change (((r.step i).step i).step i).calls[i]? = _
  rw [h₃, hlatch₁, hlatch₂, hcomplete]

/-! ## The invariant -/

/-- nobody has claimed the latch, and no call has done more than begin -/
structure Unclaimed (r : Race) : Prop where
  latch : r.latch.alone = {}
  calls : ∀ j s, r.stage? j = some s → s = .begun

/-- the call claimed the latch for its cause and has come this far, and every other call has not begun or has lost -/
structure HeldBy (r : Race) (i : Nat) (c : Cause) (s : CallStage) : Prop where
  call : r.calls[i]? = some ⟨c, s⟩
  latch : r.latch.alone.HeldAt c s
  others : ∀ j, j ≠ i → ∀ s', r.stage? j = some s' → s' = .begun ∨ s' = .returned false

/-- nobody has claimed the latch, or one call has -/
def Inv (r : Race) : Prop := Unclaimed r ∨ ∃ i c s, HeldBy r i c s

theorem inv_start (causes : List Cause) : Inv (start causes) := by
  refine Or.inl ⟨rfl, fun j s hs => ?_⟩
  obtain ⟨c, hc⟩ := stage?_eq_some.1 hs
  simp only [start, List.getElem?_map, Option.map_eq_some_iff, Call.mk.injEq] at hc
  obtain ⟨c', -, -, hstage⟩ := hc
  exact hstage.symm

/-- the first call that steps on an unclaimed latch claims it -/
theorem Unclaimed.step (h : Unclaimed r) (i : Nat) : Inv (r.step i) := by
  cases hi : r.calls[i]? with
  | none =>
    rw [step_of_none hi]
    exact Or.inl ⟨h.latch, h.calls⟩
  | some call =>
    obtain ⟨c, s⟩ := call
    obtain rfl := h.calls i s (stage?_eq_some.2 ⟨c, hi⟩)
    have hadvance := Latch.advance_alone ⟨c, .begun⟩ r.latch
    rw [h.latch] at hadvance
    obtain ⟨hcall, hlatch⟩ := Prod.mk.inj hadvance
    refine Or.inr ⟨i, c, .claimed, ?_, ?_, fun j hj s' hs' => ?_⟩
    · rw [call_step_self hi, ← hcall]
    · rw [step_of_call hi, ← hlatch]
      exact .claimed
    · rw [stage?, call_step_of_ne hj] at hs'
      exact Or.inl (h.calls j s' hs')

/-- whoever holds the latch holds it after the step of any call -/
theorem HeldBy.step (h : HeldBy r i c s) (j : Nat) : ∃ s', HeldBy (r.step j) i c s' := by
  by_cases hj : j = i
  · -- the call itself goes on
    subst hj
    have hheld := h.latch.advance
    rw [Latch.advance_alone] at hheld
    refine ⟨(advance ⟨c, s⟩ r.latch).1.stage, ?_, ?_, fun k hk s' hs' => ?_⟩
    · rw [call_step_self h.call]
      exact congrArg some (eq_of_cause (cause_advance ⟨c, s⟩ r.latch))
    · rw [step_of_call h.call]
      exact hheld
    · rw [stage?, call_step_of_ne hk] at hs'
      exact h.others k hk s' hs'
  · -- another call loses, or has lost
    have hkeep : (r.step j).calls[i]? = some ⟨c, s⟩ := by rw [call_step_of_ne (Ne.symm hj)]; exact h.call
    cases hcall : r.calls[j]? with
    | none =>
      rw [step_of_none hcall] at hkeep ⊢
      exact ⟨s, hkeep, h.latch, h.others⟩
    | some call =>
      obtain ⟨c', s'⟩ := call
      have hlost : advance ⟨c', s'⟩ r.latch = (⟨c', .returned false⟩, r.latch) := by
        rcases h.others j hj s' (stage?_eq_some.2 ⟨c', hcall⟩) with rfl | rfl
        · exact Latch.advance_of_claimed (show r.latch.claimed = true from h.latch.isClaimed) c'
        · rfl
      refine ⟨s, hkeep, ?_, fun k hk s'' hs'' => ?_⟩
      · rw [step_of_call hcall, hlost]
        exact h.latch
      · by_cases hkj : k = j
        · subst hkj
          rw [stage?, call_step_self hcall, hlost] at hs''
          exact Or.inr (Option.some.inj hs'').symm
        · rw [stage?, call_step_of_ne hkj] at hs''
          exact h.others k hk s'' hs''

theorem Inv.step (h : Inv r) (i : Nat) : Inv (r.step i) := by
  rcases h with h | ⟨j, c, s, h⟩
  · exact h.step i
  · obtain ⟨s', h'⟩ := h.step i
    exact Or.inr ⟨j, c, s', h'⟩

theorem inv_run (h : Inv r) (order : List Nat) : Inv (r.run order) := by
  induction order generalizing r with
  | nil => exact h
  | cons i order ih => exact ih (h.step i)

/-! ## One winner -/

/-- a call that has come further than a beginning or a defeat is the one that claimed the latch -/
theorem Inv.heldBy (h : Inv r) (hs : r.stage? i = some s) (hbegun : s ≠ .begun) (hlost : s ≠ .returned false) :
    ∃ c, HeldBy r i c s := by
  rcases h with h | ⟨j, c, s', h⟩
  · exact absurd (h.calls i s hs) hbegun
  · by_cases hij : i = j
    · subst hij
      have hstage : r.stage? i = some s' := stage?_eq_some.2 ⟨c, h.call⟩
      obtain rfl := Option.some.inj (hs.symm.trans hstage)
      exact ⟨c, h⟩
    · rcases h.others i hij s hs with hs' | hs'
      · exact absurd hs' hbegun
      · exact absurd hs' hlost

theorem won_unique (h : Inv r) (hi : r.Won i) (hj : r.Won j) : i = j := by
  obtain ⟨c, hheld⟩ := h.heldBy hi (by decide) (by decide)
  by_contra hne
  rcases hheld.others j (Ne.symm hne) _ hj with hs | hs
  · exact absurd hs (by decide)
  · exact absurd hs (by decide)

/-- where some call has returned and none is midway, a call has won -/
theorem exists_won (h : Inv r) (hi : r.HasReturned i) (hmid : ∀ j, ¬ r.Midway j) : ∃ j, r.Won j := by
  rcases h with h | ⟨j, c, s, h⟩
  · obtain ⟨won, hwon⟩ := hi
    exact absurd (h.calls i _ hwon) (by simp)
  · have hstage : r.stage? j = some s := stage?_eq_some.2 ⟨c, h.call⟩
    have hlatch := h.latch
    generalize r.latch.alone = l at hlatch
    cases hlatch with
    | claimed => exact absurd (Or.inl hstage) (hmid j)
    | recorded => exact absurd (Or.inr hstage) (hmid j)
    | returned => exact ⟨j, hstage⟩

/-! ## One cause -/

theorem HeldBy.cause (h : HeldBy r i c s) : r.calls[i]?.map (·.cause) = some c := by
  rw [h.call]
  rfl

/-- the step that writes finds nothing written, and writes the cause of its call -/
theorem first_of_stores (h : Inv r) (hs : r.Stores i) :
    r.latch.first = none ∧ (r.step i).latch.first = r.calls[i]?.map (·.cause) := by
  obtain ⟨c, hheld⟩ := h.heldBy hs (by decide) (by decide)
  have hnone : r.latch.first = none := by
    have hlatch := hheld.latch
    generalize hl : r.latch.alone = l at hlatch
    cases hlatch
    exact congrArg Latch.first hl
  refine ⟨hnone, ?_⟩
  rw [step_of_call hheld.call, hheld.cause]
  simp [advance, Latch.record, hnone]

/-- the cause is written once -/
theorem not_stores_run (h : Inv r) (hs : r.Stores i) (more : List Nat) (j : Nat) : ¬ ((r.step i).run more).Stores j := by
  obtain ⟨c, hheld⟩ := h.heldBy hs (by decide) (by decide)
  obtain ⟨-, hfirst⟩ := first_of_stores h hs
  rw [hheld.cause] at hfirst
  intro hj
  have hnone := (first_of_stores (inv_run (h.step i) more) hj).1
  rw [first_run hfirst more] at hnone
  exact absurd hnone (by simp)

theorem first_of_won (h : Inv r) (hw : r.Won i) :
    ∃ c, r.calls[i]?.map (·.cause) = some c ∧ r.latch.first = some c := by
  obtain ⟨c, hheld⟩ := h.heldBy hw (by decide) (by decide)
  exact ⟨c, hheld.cause, hheld.latch.of_returned.2⟩

theorem first_of_done (h : Inv r) (hd : r.latch.done = true) :
    ∃ i c, r.Won i ∧ r.calls[i]?.map (·.cause) = some c ∧ r.latch.first = some c := by
  rcases h with h | ⟨i, c, s, h⟩
  · have hdone : r.latch.alone.done = true := hd
    rw [h.latch] at hdone
    exact absurd hdone (by decide)
  · obtain ⟨rfl, hfirst⟩ := h.latch.of_done hd
    exact ⟨i, c, stage?_eq_some.2 ⟨c, h.call⟩, h.cause, hfirst⟩

/-! ## Opening -/

/-- the opening step has been made in a run -/
def HasOpened (r : Race) (order : List Nat) : Prop := ∃ before i, before ++ [i] <+: order ∧ (r.run before).Opens i

/-- a latch is open from the opening step on, and not before -/
theorem done_run_iff (hd : r.latch.done = false) (order : List Nat) :
    (r.run order).latch.done = true ↔ r.HasOpened order := by
  induction order using List.reverseRecOn with
  | nil => simp [run, hd, HasOpened]
  | append_singleton order i ih =>
    have hlast : r.run (order ++ [i]) = (r.run order).step i := by rw [run_append]; rfl
    rw [hlast, done_step_iff, ih]
    constructor
    · rintro (⟨before, j, hpre, hj⟩ | hi)
      · exact ⟨before, j, hpre.trans (List.prefix_append order [i]), hj⟩
      · exact ⟨order, i, List.prefix_rfl, hi⟩
    · rintro ⟨before, j, hpre, hj⟩
      rcases List.prefix_concat_iff.1 hpre with heq | hpre
      · obtain ⟨rfl, hji⟩ := List.append_inj' heq rfl
        obtain rfl := List.singleton_inj.1 hji
        exact Or.inr hj
      · exact Or.inl ⟨before, j, hpre, hj⟩

/-- **The latch elects one winner**, for any number of calls with causes of their own, any number of those who wait,
and any order of the steps:

1. at most one call returns that it won, and exactly one has where some call has returned and none is midway;
2. the cause is written by one step at most, which finds none written and writes that of its own call; every other step
   leaves it as it is, so that it stays, and it is the cause of the call that wins;
3. where the latch is open, a call has won and its cause is written; and the latch stays open;
4. one who waits is held back until the opening step has been made, and may go on afterwards, whenever the wait began. -/
theorem elects_one (causes : List Cause) (order : List Nat) :
    let r := (start causes).run order
    ((∀ i j, r.Won i → r.Won j → i = j) ∧
        ((∃ i, r.HasReturned i) → (∀ i, ¬ r.Midway i) → ∃! i, r.Won i)) ∧
      ((∀ i, r.Stores i → r.latch.first = none ∧ (r.step i).latch.first = causes[i]? ∧
          ∀ more j, ¬ ((r.step i).run more).Stores j) ∧
        (∀ i, ¬ r.Stores i → (r.step i).latch.first = r.latch.first) ∧
        (∀ c, r.latch.first = some c → ∀ more, (r.run more).latch.first = some c) ∧
        ∀ i, r.Won i → ∃ c, causes[i]? = some c ∧ r.latch.first = some c) ∧
      ((r.latch.done = true → ∃ i c, r.Won i ∧ causes[i]? = some c ∧ r.latch.first = some c) ∧
        (r.latch.done = true → ∀ more, (r.run more).latch.done = true)) ∧
      ∀ n < r.latch.waiters, (¬ (start causes).HasOpened order → r.latch.ready? n = some false) ∧
        ((start causes).HasOpened order → r.latch.ready? n = some true) := by
  intro r
  have h : Inv r := inv_run (inv_start causes) order
  have hcause : ∀ i, r.calls[i]?.map Call.cause = causes[i]? := cause_start causes order
  have hopened : r.latch.done = true ↔ (start causes).HasOpened order := done_run_iff rfl order
  refine ⟨⟨fun i j => won_unique h, ?_⟩, ⟨?_, fun i => first_step_of_not_stores, fun c hc => first_run hc, ?_⟩,
    ⟨?_, done_run⟩, ?_⟩
  · rintro ⟨i, hi⟩ hmid
    obtain ⟨j, hj⟩ := exists_won h hi hmid
    exact ⟨j, hj, fun k hk => won_unique h hk hj⟩
  · intro i hi
    obtain ⟨hnone, hfirst⟩ := first_of_stores h hi
    exact ⟨hnone, hfirst.trans (hcause i), not_stores_run h hi⟩
  · intro i hi
    obtain ⟨c, hc, hfirst⟩ := first_of_won h hi
    exact ⟨c, (hcause i).symm.trans hc, hfirst⟩
  · intro hd
    obtain ⟨i, c, hi, hc, hfirst⟩ := first_of_done h hd
    exact ⟨i, c, hi, (hcause i).symm.trans hc, hfirst⟩
  · intro n hn
    rw [← hopened]
    simp [Latch.ready?, hn]

end Race

end MachineGateway.Relay
