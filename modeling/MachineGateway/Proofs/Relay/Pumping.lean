/-
A pump from its start to its return, while others fire the latch. Each `Move` is one step of the pump, one step of its
own call to complete the latch, a call by somebody else that fires the latch at one moment, or one step of such a call
whose steps are taken apart. A run is any list of moves, so that the latch is fired at any moment, or never.

- `hasStopped_cancelled_iff`: a pump is cancelled exactly when it finds the latch open as it is about to read or write;
- `done_of_returned`: when a pump has returned, the latch is open, unless another call is between its steps;
- `returns_after_report`: a pump that has stopped returns with the end that it stopped with;
- `exists_select`: a pump that is let go on stops, or waits for a silent source or a sink that takes nothing.

`relays_first_frames` is all of it together with what the ledger of the pump tells.
-/
import MachineGateway.Proofs.Relay.Election
import MachineGateway.Proofs.Relay.Tally

namespace MachineGateway.Relay

/-! ## A pump's end -/

namespace Pump

variable {κ μ : Type} {leg : Leg} {image : Frame κ → Frame μ} {p : Pump κ μ} {how : LegEnd}

theorem hasStopped_iff_standing : p.HasStopped how ↔ ∃ call, p.standing = .stopped how call := by
  simp only [HasStopped, standing_eq_stopped]

theorem hasStopped_of_returned? (h : p.returned? = some how) : p.HasStopped how := by
  obtain ⟨won, hstop⟩ := returned?_eq_some.1 h
  exact hasStopped_iff_standing.2 ⟨.returned won, hstop⟩

theorem hasStopped_report (leg : Leg) (l : Latch) : (p.report leg l).1.HasStopped how ↔ p.HasStopped how := by
  unfold HasStopped report
  cases hs : p.stage <;> simp [hs]

/-- the pump waits for a silent source, or for a sink that takes nothing -/
def Waits (p : Pump κ μ) : Prop :=
  p.stage = .reading ∧ p.source = [] ∨ ∃ f rest, p.stage = .writing f ∧ p.sink = .blocked :: rest

/-- how much a pump has before it: two steps for each reading that is left, and one for a frame in hand -/
def weight (p : Pump κ μ) : Nat :=
  2 * p.source.length + match p.stage with
    | .writing _ => 1
    | _ => 0

/-- where a sink accepts the frame in hand, the pump stops or has less before it -/
theorem accept_goes_on {f : Frame μ} (hs : p.stage = .writing f) (sink : List Writing) :
    (∃ how, ({ p.accept f with sink := sink } : Pump κ μ).HasStopped how) ∨
      ({ p.accept f with sink := sink } : Pump κ μ).weight < p.weight := by
  cases hf : f.isClose with
  | true => exact Or.inl ⟨.peerClosed, .begun, by simp [accept, hf]⟩
  | false => exact Or.inr (by simp [weight, accept, hf, hs])

/-- a step that finds the latch shut stops a pump that does not wait, or leaves it less before it -/
theorem select_goes_on (hm : p.standing = .moving) (hw : ¬ p.Waits) :
    (∃ how, (p.select leg image false).HasStopped how) ∨ (p.select leg image false).weight < p.weight := by
  cases hs : p.stage with
  | stopped how call => exact absurd (hm.symm.trans (standing_eq_stopped.2 hs)) Standing.noConfusion
  | reading =>
    cases hsource : p.source with
    | nil => exact absurd (Or.inl ⟨hs, hsource⟩) hw
    | cons r rest =>
      cases r with
      | frame f => exact Or.inr (by simp [weight, select, hs, hsource]; omega)
      | raw => exact Or.inr (by simp [weight, select, hs, hsource])
      | failed reason => exact Or.inl ⟨.fault (.read leg reason), .begun, by simp [select, hs, hsource]⟩
      | ended => exact Or.inl ⟨.peerClosed, .begun, by simp [select, hs, hsource]⟩
  | writing f =>
    rcases select_writing hs with ⟨answer, sink, -, -, hselect⟩ | ⟨reason, sink, -, hselect⟩ | ⟨sink, hsink, -⟩
    · rw [hselect]
      exact accept_goes_on hs sink
    · rw [hselect]
      exact Or.inl ⟨.fault (.write leg reason), .begun, rfl⟩
    · exact absurd (Or.inr ⟨f, sink, hs, hsink⟩) hw

end Pump

/-! ## Calls on the way -/

/-- a call at such a stage has claimed the latch and not opened it yet -/
def CallStage.IsMidway (s : CallStage) : Prop := s = .claimed ∨ s = .recorded

namespace Latch

/-- a step of a call opens the latch, leaves the call on the way, or does nothing to the latch -/
theorem advance_cases (call : Call) (l : Latch) :
    (Race.advance call l).2.done = true ∨ (Race.advance call l).1.stage.IsMidway ∨
      (Race.advance call l).2 = l ∧ ¬ call.stage.IsMidway := by
  obtain ⟨cause, stage⟩ := call
  cases stage with
  | begun =>
    cases hl : l.claimed with
    | true =>
      rw [advance_of_claimed hl]
      exact Or.inr (Or.inr ⟨rfl, by simp [CallStage.IsMidway]⟩)
    | false => exact Or.inr (Or.inl (by simp [Race.advance, claim, hl, CallStage.IsMidway]))
  | claimed => exact Or.inr (Or.inl (Or.inr rfl))
  | recorded => exact Or.inl rfl
  | returned won => exact Or.inr (Or.inr ⟨rfl, by simp [CallStage.IsMidway]⟩)

theorem claimed_advance {call : Call} {l : Latch} (h : call.stage = .begun ∨ l.claimed = true) :
    (Race.advance call l).2.claimed = true := by
  obtain ⟨cause, stage⟩ := call
  cases stage with
  | begun => cases hl : l.claimed <;> simp [Race.advance, claim, hl]
  | claimed => exact h.resolve_left CallStage.noConfusion
  | recorded => exact h.resolve_left CallStage.noConfusion
  | returned won => exact h.resolve_left CallStage.noConfusion

theorem complete_cases (c : Cause) (l : Latch) :
    l.claimed = true ∧ (l.complete c).2 = l ∨ (l.complete c).2.claimed = true ∧ (l.complete c).2.done = true := by
  obtain ⟨claimed, first, done, waiters⟩ := l
  cases claimed with
  | true => exact Or.inl ⟨rfl, rfl⟩
  | false => exact Or.inr ⟨rfl, rfl⟩

end Latch

namespace Race

variable {r : Race} {i : Nat}

theorem midway_iff : r.Midway i ↔ ∃ call, r.calls[i]? = some call ∧ call.stage.IsMidway := by
  unfold Midway Stores Opens stage? CallStage.IsMidway
  cases r.calls[i]? <;> simp

/-- while a claimed latch is shut somebody is on the way to open it, and so it is after a step of a call -/
theorem opening_step {others : Prop}
    (h : r.latch.claimed = true → r.latch.done = true ∨ others ∨ ∃ j, r.Midway j) (i : Nat)
    (hclaimed : (r.step i).latch.claimed = true) :
    (r.step i).latch.done = true ∨ others ∨ ∃ j, (r.step i).Midway j := by
  cases hi : r.calls[i]? with
  | none =>
    rw [step_of_none hi] at hclaimed ⊢
    exact h hclaimed
  | some call =>
    rcases Latch.advance_cases call r.latch with hdone | hmid | ⟨hsame, hnot⟩
    · rw [step_of_call hi]
      exact Or.inl hdone
    · exact Or.inr (Or.inr ⟨i, midway_iff.2 ⟨_, call_step_self hi, hmid⟩⟩)
    · have hlatch : (r.step i).latch = r.latch := by rw [step_of_call hi]; exact hsame
      rw [hlatch] at hclaimed ⊢
      rcases h hclaimed with hdone | hothers | ⟨j, hj⟩
      · exact Or.inl hdone
      · exact Or.inr (Or.inl hothers)
      · obtain ⟨call', hj, hmid⟩ := midway_iff.1 hj
        have hne : j ≠ i := by
          rintro rfl
          obtain rfl := Option.some.inj (hi.symm.trans hj)
          exact hnot hmid
        exact Or.inr (Or.inr ⟨j, midway_iff.2 ⟨call', (call_step_of_ne hne).trans hj, hmid⟩⟩)

theorem claimed_step (h : r.latch.claimed = true) (i : Nat) : (r.step i).latch.claimed = true := by
  cases hi : r.calls[i]? with
  | none => rw [step_of_none hi]; exact h
  | some call => rw [step_of_call hi]; exact Latch.claimed_advance (Or.inr h)

theorem calls_step_nil (h : r.calls = []) (i : Nat) : (r.step i).calls = [] := by
  rw [step_of_none (by simp [h])]
  exact h

end Race

/-! ## A pump among others -/

/-- a pump on a leg, with a latch that others fire as well -/
structure Pumping (leg : Leg) where
  pump : Pump leg.Incoming leg.Outgoing
  race : Race

namespace Pumping

inductive Move where
  /-- the pump looks at the latch, then reads or writes -/
  | select
  /-- the pump's own call to complete the latch goes on -/
  | report
  /-- somebody else fires the latch at one moment -/
  | fire (cause : Cause)
  /-- somebody else's call to complete the latch goes on by one step -/
  | other (i : Nat)

variable {leg : Leg}

/-- a pump that begins, given what its source and its sink will do, and the causes of calls that others will make -/
def start (leg : Leg) (reads : List (Reading leg.Incoming)) (takes : List Writing) (others : List Cause) : Pumping leg :=
  ⟨{ source := reads, sink := takes }, Race.start others⟩

def step (s : Pumping leg) : Move → Pumping leg
  | .select => { s with pump := s.pump.select leg leg.image s.race.latch.done }
  | .report => ⟨(s.pump.report leg s.race.latch).1, { s.race with latch := (s.pump.report leg s.race.latch).2 }⟩
  | .fire cause => { s with race := { s.race with latch := (s.race.latch.complete cause).2 } }
  | .other i => { s with race := s.race.step i }

def run (s : Pumping leg) (moves : List Move) : Pumping leg := moves.foldl step s

variable {s : Pumping leg} {how : LegEnd} {call : CallStage} {m : Move} {moves : List Move}
  {reads : List (Reading leg.Incoming)} {takes : List Writing} {others : List Cause}

theorem run_cons (s : Pumping leg) (m : Move) (moves : List Move) : s.run (m :: moves) = (s.step m).run moves := rfl

/-- what every step keeps, every run keeps -/
theorem run_keeps {P : Pumping leg → Prop} (hstep : ∀ s m, P s → P (s.step m)) (h : P s) (moves : List Move) :
    P (s.run moves) := by
  induction moves generalizing s with
  | nil => exact h
  | cons m moves ih =>
    rw [run_cons]
    exact ih (hstep s m h)

theorem run_concat (s : Pumping leg) (moves : List Move) (m : Move) : s.run (moves ++ [m]) = (s.run moves).step m :=
  List.foldl_append

/-! ## The ledger of a run -/

theorem tally_step (s : Pumping leg) (m : Move) (h : ∃ l, Tally reads takes s.pump l) :
    ∃ l, Tally reads takes (s.step m).pump l := by
  obtain ⟨l, h⟩ := h
  cases m with
  | select => exact h.select s.race.latch.done
  | report => exact ⟨l, h.report s.race.latch⟩
  | fire cause => exact ⟨l, h⟩
  | other i => exact ⟨l, h⟩

theorem tally_run (leg : Leg) (reads : List (Reading leg.Incoming)) (takes : List Writing) (others : List Cause)
    (moves : List Move) : ∃ l, Tally reads takes ((start leg reads takes others).run moves).pump l := by
  apply run_keeps (P := fun s => ∃ l, Tally reads takes s.pump l) tally_step
  exact ⟨_, tally_start reads takes⟩

/-! ## Cancelling -/

/-- only a step of the pump that finds the latch open cancels it -/
theorem hasStopped_cancelled_step_iff (s : Pumping leg) (m : Move) :
    (s.step m).pump.HasStopped .cancelled ↔
      s.pump.HasStopped .cancelled ∨ m = .select ∧ s.pump.standing = .moving ∧ s.race.latch.done = true := by
  cases m with
  | select =>
    have hselect := Pump.standing_select leg leg.image s.race.latch.done s.pump
    rw [Pump.hasStopped_iff_standing, Pump.hasStopped_iff_standing]
    constructor
    · rintro ⟨call, hstop⟩
      change (s.pump.select leg leg.image s.race.latch.done).standing = _ at hstop
      rw [hstop] at hselect
      rcases hselect.cases with hbefore | ⟨hm, -, hhow⟩
      · exact Or.inl ⟨call, hbefore⟩
      · refine Or.inr ⟨rfl, hm, ?_⟩
        by_contra hd
        rw [if_neg hd] at hhow
        exact hhow.ne_cancelled rfl
    · rintro (⟨call, hstop⟩ | ⟨-, hm, hd⟩)
      · rw [hstop] at hselect
        exact ⟨call, hselect⟩
      · rw [hm, hd] at hselect
        refine ⟨.begun, ?_⟩
        simpa [step, hd, Standing.AfterSelect] using hselect
  | report => simp [step, Pump.hasStopped_report]
  | fire cause => simp [step]
  | other i => simp [step]

/-- in a run, the pump has found the latch open when it was about to read or to write -/
def HasFoundOpen (s : Pumping leg) (moves : List Move) : Prop :=
  ∃ before, before ++ [.select] <+: moves ∧ (s.run before).pump.standing = .moving ∧
    (s.run before).race.latch.done = true

theorem hasStopped_cancelled_iff (h : ¬ s.pump.HasStopped .cancelled) (moves : List Move) :
    (s.run moves).pump.HasStopped .cancelled ↔ s.HasFoundOpen moves := by
  induction moves using List.reverseRecOn with
  | nil => simp [run, h, HasFoundOpen]
  | append_singleton moves m ih =>
    rw [run_concat, hasStopped_cancelled_step_iff, ih]
    constructor
    · rintro (⟨before, hpre, hfound⟩ | ⟨rfl, hfound⟩)
      · exact ⟨before, hpre.trans (List.prefix_append moves [m]), hfound⟩
      · exact ⟨moves, List.prefix_rfl, hfound⟩
    · rintro ⟨before, hpre, hfound⟩
      rcases List.prefix_concat_iff.1 hpre with heq | hpre
      · obtain ⟨rfl, hm⟩ := List.append_inj' heq rfl
        exact Or.inr ⟨(List.singleton_inj.1 hm).symm, hfound⟩
      · exact Or.inl ⟨before, hpre, hfound⟩

/-! ## Opening the latch -/

/-- the pump's own call is on the way -/
def IsMidway (s : Pumping leg) : Prop := ∃ how call, s.pump.standing = .stopped how call ∧ call.IsMidway

/-- what ties the pump's call to the latch: while a claimed latch is shut somebody is on the way to open it, and the
pump's call comes past its beginning only on a latch that is claimed -/
structure Inv (s : Pumping leg) : Prop where
  opening : s.race.latch.claimed = true → s.race.latch.done = true ∨ s.IsMidway ∨ ∃ i, s.race.Midway i
  claimed : ∀ how call, s.pump.standing = .stopped how call → call ≠ .begun → s.race.latch.claimed = true

theorem inv_start (reads : List (Reading leg.Incoming)) (takes : List Writing) (others : List Cause) :
    Inv (start leg reads takes others) := by
  constructor
  · intro hclaimed
    exact absurd hclaimed Bool.false_ne_true
  · intro how call hstop
    exact absurd hstop Standing.noConfusion

/-- a step of the pump brings no call on the way, and takes none off -/
theorem Inv.select (h : Inv s) : Inv (s.step .select) := by
  have hselect := Pump.standing_select leg leg.image s.race.latch.done s.pump
  constructor
  · intro hclaimed
    rcases h.opening hclaimed with hdone | ⟨how, call, hstop, hmid⟩ | hothers
    · exact Or.inl hdone
    · rw [hstop] at hselect
      exact Or.inr (Or.inl ⟨how, call, hselect, hmid⟩)
    · exact Or.inr (Or.inr hothers)
  · intro how call hstop hbegun
    rw [show (s.pump.select leg leg.image s.race.latch.done).standing = .stopped how call from hstop] at hselect
    rcases hselect.cases with hbefore | ⟨-, hcall, -⟩
    · exact h.claimed how call hbefore hbegun
    · exact absurd hcall hbegun

theorem Inv.report (h : Inv s) : Inv (s.step .report) := by
  cases hs : s.pump.standing with
  | moving =>
    have hsame : s.step .report = s := by simp only [step, Pump.report_of_moving hs]
    rw [hsame]
    exact h
  | stopped how call =>
    obtain ⟨hstanding, hlatch⟩ := Pump.report_of_stopped hs leg s.race.latch
    constructor
    · intro hclaimed
      change (s.pump.report leg s.race.latch).2.claimed = true at hclaimed
      change (s.pump.report leg s.race.latch).2.done = true ∨ _
      rw [hlatch] at hclaimed ⊢
      rcases Latch.advance_cases ⟨(.leg leg, how), call⟩ s.race.latch with hdone | hmid | ⟨hsame, hnot⟩
      · exact Or.inl hdone
      · exact Or.inr (Or.inl ⟨how, _, hstanding, hmid⟩)
      · rw [hsame] at hclaimed ⊢
        rcases h.opening hclaimed with hdone | ⟨how', call', hs', hmid⟩ | hothers
        · exact Or.inl hdone
        · obtain ⟨rfl, rfl⟩ := Standing.stopped.inj (hs.symm.trans hs')
          exact absurd hmid hnot
        · exact Or.inr (Or.inr hothers)
    · intro how' call' _ _
      change (s.pump.report leg s.race.latch).2.claimed = true
      rw [hlatch]
      apply Latch.claimed_advance
      by_cases hbegun : call = .begun
      · exact Or.inl hbegun
      · exact Or.inr (h.claimed how call hs hbegun)

theorem Inv.fire (h : Inv s) (cause : Cause) : Inv (s.step (.fire cause)) := by
  rcases Latch.complete_cases cause s.race.latch with ⟨-, hsame⟩ | ⟨hclaimed, hdone⟩
  · have hstep : s.step (.fire cause) = s := by simp only [step, hsame]
    rw [hstep]
    exact h
  · exact ⟨fun _ => Or.inl hdone, fun _ _ _ _ => hclaimed⟩

theorem inv_step (s : Pumping leg) (m : Move) (h : Inv s) : Inv (s.step m) := by
  cases m with
  | select => exact h.select
  | report => exact h.report
  | fire cause => exact h.fire cause
  | other i =>
    constructor
    · intro hclaimed
      exact Race.opening_step h.opening i hclaimed
    · intro how call hstop hbegun
      exact Race.claimed_step (h.claimed how call hstop hbegun) i

theorem inv_run (leg : Leg) (reads : List (Reading leg.Incoming)) (takes : List Writing) (others : List Cause)
    (moves : List Move) : Inv ((start leg reads takes others).run moves) := by
  apply run_keeps inv_step
  exact inv_start reads takes others

/-- where nobody makes calls of more than one step, no call is on the way -/
theorem not_midway_run (leg : Leg) (reads : List (Reading leg.Incoming)) (takes : List Writing) (moves : List Move)
    (i : Nat) : ¬ ((start leg reads takes []).run moves).race.Midway i := by
  have hnone : ((start leg reads takes []).run moves).race.calls = [] := by
    refine run_keeps (P := fun s => s.race.calls = []) ?_ rfl moves
    intro s m h
    cases m with
    | select => exact h
    | report => exact h
    | fire cause => exact h
    | other i => exact Race.calls_step_nil h i
  intro hmid
  obtain ⟨call, hcall, -⟩ := Race.midway_iff.1 hmid
  exact absurd (hnone ▸ hcall) (by simp)

/-- when a pump has returned, the latch is open, unless a call of somebody else is on the way to open it -/
theorem done_of_returned (h : Inv s) (hreturned : s.pump.returned? = some how) (hothers : ∀ i, ¬ s.race.Midway i) :
    s.race.latch.done = true := by
  obtain ⟨won, hstop⟩ := Pump.returned?_eq_some.1 hreturned
  have hclaimed := h.claimed how _ hstop CallStage.noConfusion
  rcases h.opening hclaimed with hdone | ⟨how', call', hstop', hmid⟩ | ⟨i, hi⟩
  · exact hdone
  · obtain ⟨-, rfl⟩ := Standing.stopped.inj (hstop.symm.trans hstop')
    exact absurd hmid (by simp [CallStage.IsMidway])
  · exact absurd hi (hothers i)

/-! ## Going on -/

/-- a pump that has stopped returns with the end that it stopped with, after three steps of its call -/
theorem returns_after_report (h : s.pump.HasStopped how) :
    (s.run [.report, .report, .report]).pump.returned? = some how := by
  obtain ⟨call, hs⟩ := Pump.hasStopped_iff_standing.1 h
  have h₁ := (Pump.report_of_stopped hs leg s.race.latch).1
  have h₂ := (Pump.report_of_stopped h₁ leg (s.step .report).race.latch).1
  have h₃ := (Pump.report_of_stopped h₂ leg ((s.step .report).step .report).race.latch).1
  obtain ⟨won, hwon⟩ := Latch.exists_returned (.leg leg, how) call s.race.latch (s.step .report).race.latch
    ((s.step .report).step .report).race.latch
  rw [hwon] at h₃
  exact Pump.returned?_eq_some.2 ⟨won, h₃⟩

/-- a pump whose steps follow one another stops, or comes to wait at a latch that is shut -/
theorem exists_select (s : Pumping leg) : ∃ k, let t := s.run (List.replicate k .select)
    (∃ how, t.pump.HasStopped how) ∨ t.pump.Waits ∧ t.race.latch.done = false := by
  induction hn : s.pump.weight using Nat.strong_induction_on generalizing s with
  | _ n ih =>
    subst hn
    cases hs : s.pump.standing with
    | stopped how call => exact ⟨0, Or.inl ⟨how, Pump.hasStopped_iff_standing.2 ⟨call, hs⟩⟩⟩
    | moving =>
      cases hd : s.race.latch.done with
      | true =>
        refine ⟨1, Or.inl ⟨.cancelled, ?_⟩⟩
        exact (hasStopped_cancelled_step_iff s .select).2 (Or.inr ⟨rfl, hs, hd⟩)
      | false =>
        by_cases hw : s.pump.Waits
        · exact ⟨0, Or.inr ⟨hw, hd⟩⟩
        · have hstep : (s.step .select).pump = s.pump.select leg leg.image false := by simp only [step, hd]
          rcases Pump.select_goes_on hs hw with ⟨how, hstop⟩ | hless
          · exact ⟨1, Or.inl ⟨how, hstep ▸ hstop⟩⟩
          · obtain ⟨k, hk⟩ := ih _ (hstep ▸ hless) (s.step .select) rfl
            refine ⟨k + 1, ?_⟩
            rw [List.replicate_succ, run_cons]
            exact hk

/-! ## The whole run -/

/-- **A pump relays the first frames of its source and stops for the right reason**, on each leg, for every source, every
sink, and every run, in which others fire the latch at any moment, or never:

1. what it has sent is, in order, what the first `n` frames of the source say, none of which is a close but the last,
   and nothing is read behind a close;
2. it has stopped at a closed peer exactly if the source has ended or a close was sent, with a fault of its leg exactly
   if a read or a write has failed, and as cancelled exactly if it found the latch open; there is no other end;
3. the end that it returns is the one that it stopped with, and the latch is open then, as soon as no call of others is
   between its steps, so always where they fire it at one moment;
4. when it has stopped it returns, and as long as it is let go on it stops, or waits for a silent source or a sink that
   takes nothing, with the latch shut. -/
theorem relays_first_frames (leg : Leg) (reads : List (Reading leg.Incoming)) (takes : List Writing)
    (others : List Cause) (moves : List Move) :
    let s := (start leg reads takes others).run moves
    ∃ taken asked, (reads = taken ++ s.pump.source ∧ takes = asked ++ s.pump.sink) ∧
      ((∃ n ≤ (Reading.frames taken).length,
          List.Forall₂ (Frame.Alike leg.incomingNumber leg.outgoingNumber) ((Reading.frames reads).take n) s.pump.sent ∧
            ∀ f ∈ ((Reading.frames reads).take n).dropLast, f.isClose = false) ∧
        ∀ front f back, taken = front ++ .frame f :: back → f.isClose = true → back = []) ∧
      ((s.pump.HasStopped .peerClosed ↔ .ended ∈ taken ∨ ∃ g ∈ s.pump.sent, g.isClose = true) ∧
        (∀ reason, s.pump.HasStopped (.fault (.read leg reason)) ↔ .failed reason ∈ taken) ∧
        (∀ reason, s.pump.HasStopped (.fault (.write leg reason)) ↔ .failed reason ∈ asked) ∧
        (s.pump.HasStopped .cancelled ↔ (start leg reads takes others).HasFoundOpen moves) ∧
        ∀ how, s.pump.HasStopped how → how = .cancelled ∨ how.IsOwn leg) ∧
      (∀ how, s.pump.returned? = some how → s.pump.HasStopped how ∧
        ((others = [] ∨ ∀ i, ¬ s.race.Midway i) → s.race.latch.done = true)) ∧
      (∀ how, s.pump.HasStopped how → (s.run [.report, .report, .report]).pump.returned? = some how) ∧
      ∃ k, let t := s.run (List.replicate k .select)
        (∃ how, t.pump.HasStopped how) ∨ t.pump.Waits ∧ t.race.latch.done = false := by
  intro s
  obtain ⟨l, hl⟩ := tally_run leg reads takes others moves
  have hinv : Inv s := inv_run leg reads takes others moves
  have hmoving : ¬ (start leg reads takes others).pump.HasStopped .cancelled := by
    rintro ⟨call, hstop⟩
    exact absurd hstop (by simp [start])
  refine ⟨l.taken, l.asked, ⟨hl.reads_eq, hl.takes_eq⟩, ⟨hl.forall₂_take, ?_⟩,
    ⟨hl.hasStopped_peerClosed_iff, hl.hasStopped_read_iff, hl.hasStopped_write_iff,
      hasStopped_cancelled_iff hmoving moves, ?_⟩, ?_, ?_, exists_select s⟩
  · intro front f back htaken hf
    exact hl.nil_of_close htaken hf
  · intro how hstop
    by_cases hhow : how = .cancelled
    · exact Or.inl hhow
    · exact Or.inr (hl.isOwn hstop hhow)
  · intro how hreturned
    refine ⟨Pump.hasStopped_of_returned? hreturned, ?_⟩
    rintro (rfl | hothers)
    · exact done_of_returned hinv hreturned (not_midway_run leg reads takes moves)
    · exact done_of_returned hinv hreturned hothers
  · intro how hstop
    exact returns_after_report hstop

/-- a close with a note is sent last, and what stands behind it stays unread -/
example :
    let reads : List (Reading UInt16) := [.frame (.text "one"), .frame (.binary [1, 2, 3]), .frame (.ping [112]),
      .frame (.close (some ⟨1000, "bye"⟩)), .frame (.text "after close")]
    ((start .inbound reads [] []).run (List.replicate 9 .select ++ List.replicate 3 .report)).pump =
      { stage := .stopped .peerClosed (.returned true), source := [.frame (.text "after close")],
        sent := [.text "one", .binary [1, 2, 3], .ping [112], .close (some ⟨.normal, "bye"⟩)] } := rfl

end Pumping

end MachineGateway.Relay
