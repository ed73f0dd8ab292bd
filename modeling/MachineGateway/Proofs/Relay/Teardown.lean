/-
A relay session is torn down once. While nobody has claimed the latch, the legs that have stopped did so by themselves
(`Unclaimed`). From the claim on, one leg holds the latch, which is what the call of that leg has made of it so far, and
the call of the other leg can only lose (`HeldBy`). Every step keeps it so (`Inv.step`), hence every run does
(`inv_run`), also one in which steps of one leg fall between the steps of the other one's call.

- `first_of_won`: the call that wins is that of the leg whose end the latch keeps;
- `cancelled_behind`: a leg is cancelled only when the other one has opened the latch;
- `traffic_run`: behind an open latch nothing is read and nothing written;
- `closes_step`: the step that closes a sink finds both legs returned;
- `exists_finish`: a session in which a leg has stopped can be brought to its end.

`torn_down_once` is all of it, for every source and sink and every order of the steps.
-/
import MachineGateway.Proofs.Relay.Standing

namespace MachineGateway.Relay

/-! ## The call that claims a latch -/

namespace CallStage

/-- how many steps of its own a call needs to return, at most -/
def left : CallStage → Nat
  | begun => 3
  | claimed => 2
  | recorded => 1
  | returned _ => 0

theorem left_le (s : CallStage) : s.left ≤ 3 := by
  cases s <;> simp [left]

theorem returned_of_left {s : CallStage} (h : s.left ≤ 0) : ∃ won, s = returned won := by
  cases s with
  | begun => exact absurd h (by simp [left])
  | claimed => exact absurd h (by simp [left])
  | recorded => exact absurd h (by simp [left])
  | returned won => exact ⟨won, rfl⟩

end CallStage

namespace Latch

/-- the latch as the call that claimed it has made it, at each stage of that call -/
inductive HeldAt (c : Cause) : CallStage → Latch → Prop where
  | claimed : HeldAt c .claimed { claimed := true }
  | recorded : HeldAt c .recorded { claimed := true, first := some c }
  | returned : HeldAt c (.returned true) { claimed := true, first := some c, done := true }

variable {c : Cause} {call : CallStage} {l : Latch}

theorem HeldAt.isClaimed (h : HeldAt c call l) : l.claimed = true := by
  cases h <;> rfl

/-- a cause that stands in the latch is that of the call that claimed it -/
theorem HeldAt.eq_of_mem_first {c' : Cause} (h : HeldAt c call l) (hc : c' ∈ l.first) : c' = c := by
  cases h with
  | claimed => exact absurd hc (by simp)
  | recorded => exact (Option.some.inj hc).symm
  | returned => exact (Option.some.inj hc).symm

/-- the latch is open once the call that claimed it has returned, and not before -/
theorem HeldAt.of_done (h : HeldAt c call l) (hd : l.done = true) : call = .returned true ∧ l.first = some c := by
  cases h with
  | claimed => exact absurd hd Bool.false_ne_true
  | recorded => exact absurd hd Bool.false_ne_true
  | returned => exact ⟨rfl, rfl⟩

theorem HeldAt.of_returned {won : Bool} (h : HeldAt c (.returned won) l) : l.done = true ∧ l.first = some c := by
  cases h
  exact ⟨rfl, rfl⟩

theorem HeldAt.advance (h : HeldAt c call l) :
    HeldAt c (Race.advance ⟨c, call⟩ l).1.stage (Race.advance ⟨c, call⟩ l).2 := by
  cases h with
  | claimed => exact .recorded
  | recorded => exact .returned
  | returned => exact .returned

/-- a call that begins on a claimed latch loses -/
theorem advance_of_claimed (h : l.claimed = true) (c : Cause) :
    Race.advance ⟨c, .begun⟩ l = (⟨c, .returned false⟩, l) := by
  obtain ⟨claimed, first, done, waiters⟩ := l
  obtain rfl : claimed = true := h
  rfl

theorem done_advance (h : l.done = true) (c : Cause) (call : CallStage) :
    (Race.advance ⟨c, call⟩ l).2.done = true := by
  cases call with
  | begun =>
    cases hl : l.claimed with
    | true => rw [advance_of_claimed hl]; exact h
    | false => simp [Race.advance, claim, hl, h]
  | claimed => exact h
  | recorded => rfl
  | returned won => exact h

/-- each of its own steps brings a call nearer to its return, whatever others do to the latch -/
theorem left_advance (call : Call) (l : Latch) : (Race.advance call l).1.stage.left ≤ call.stage.left - 1 := by
  obtain ⟨cause, stage⟩ := call
  cases stage with
  | begun => cases hl : l.claimed <;> simp [Race.advance, claim, hl, CallStage.left]
  | claimed => exact le_rfl
  | recorded => exact le_rfl
  | returned won => exact le_rfl

/-- three steps are enough for a call, whatever others do to the latch between them -/
theorem exists_returned (c : Cause) (call : CallStage) (l l' l'' : Latch) : ∃ won,
    (Race.advance ⟨c, (Race.advance ⟨c, (Race.advance ⟨c, call⟩ l).1.stage⟩ l').1.stage⟩ l'').1.stage =
      .returned won := by
  have h := left_advance ⟨c, call⟩ l
  have h' := left_advance ⟨c, (Race.advance ⟨c, call⟩ l).1.stage⟩ l'
  have h'' := left_advance ⟨c, (Race.advance ⟨c, (Race.advance ⟨c, call⟩ l).1.stage⟩ l').1.stage⟩ l''
  have hcall := call.left_le
  apply CallStage.returned_of_left
  simp only at h h' h'' ⊢
  omega

end Latch

namespace Session

variable {s : Session} {leg l : Leg} {how : LegEnd} {call : CallStage} {won : Bool} {t : Step} {steps : List Step}

/-- a session that begins, given what its sockets will do -/
def start (callerReads : List (Reading UInt16)) (backendTakes : List Writing) (backendReads : List (Reading CloseCode))
    (callerTakes : List Writing) : Session :=
  { inbound := { source := callerReads, sink := backendTakes }
    outbound := { source := backendReads, sink := callerTakes } }

theorem run_cons (s : Session) (t : Step) (steps : List Step) : s.run (t :: steps) = (s.step t).run steps := rfl

theorem run_append (s : Session) (l l' : List Step) : s.run (l ++ l') = (s.run l).run l' := List.foldl_append

/-! ## What stays -/

/-- a leg whose call has returned stays as it stands -/
theorem returned_step (h : s.standing leg = .stopped how (.returned won)) (t : Step) :
    (s.step t).standing leg = .stopped how (.returned won) := by
  rcases standing_step s t leg with hsame | ⟨hm, -⟩ | ⟨how', call', hs, hstep⟩
  · rw [hsame, h]
  · exact absurd (hm.symm.trans h) Standing.noConfusion
  · obtain ⟨rfl, rfl⟩ := Standing.stopped.inj (hs.symm.trans h)
    exact hstep

theorem returned_run (h : s.standing leg = .stopped how (.returned won)) (steps : List Step) :
    (s.run steps).standing leg = .stopped how (.returned won) := by
  induction steps generalizing s with
  | nil => exact h
  | cons t steps ih => exact ih (returned_step h t)

theorem done_step (hd : s.latch.done = true) (t : Step) : (s.step t).latch.done = true := by
  cases t with
  | select leg => rw [(step_select s leg).2.2.1, hd]
  | report leg =>
    cases hs : s.standing leg with
    | moving => rw [step_report_of_moving hs, hd]
    | stopped how call =>
      obtain ⟨-, -, hlatch, -⟩ := step_report hs
      rw [hlatch]
      exact Latch.done_advance hd _ _
  | teardown => rw [(step_teardown s).2.1, hd]

theorem done_run (hd : s.latch.done = true) (steps : List Step) : (s.run steps).latch.done = true := by
  induction steps generalizing s with
  | nil => exact hd
  | cons t steps ih => exact ih (done_step hd t)

theorem isJoined_step (hj : s.isJoined = true) (t : Step) : (s.step t).isJoined = true := by
  rw [isJoined_iff] at hj ⊢
  intro leg
  obtain ⟨how, won, h⟩ := hj leg
  exact ⟨how, won, returned_step h t⟩

/-- where both legs have returned, nothing is left to do to the latch -/
theorem latch_step_of_joined (hj : s.isJoined = true) (t : Step) : (s.step t).latch = s.latch := by
  cases t with
  | select leg => exact (step_select s leg).2.2.1
  | report leg =>
    obtain ⟨how, won, h⟩ := isJoined_iff.1 hj leg
    exact (step_report h).2.2.1
  | teardown => exact (step_teardown s).2.1

/-- only the session itself closes sinks and gives an outcome -/
theorem closed_step (ht : t ≠ .teardown) : (s.step t).closed = s.closed ∧ (s.step t).outcome = s.outcome := by
  cases t with
  | select leg => exact (step_select s leg).2.2.2
  | report leg =>
    cases hs : s.standing leg with
    | moving => rw [step_report_of_moving hs]; exact ⟨rfl, rfl⟩
    | stopped how call => exact (step_report hs).2.2.2
  | teardown => exact absurd rfl ht

/-! ## The invariant -/

/-- nobody has claimed the latch, and the legs that have stopped did so by themselves -/
structure Unclaimed (s : Session) : Prop where
  latch : s.latch = {}
  legs : ∀ leg how call, s.standing leg = .stopped how call → how.IsOwn leg ∧ call = .begun

/-- the leg claimed the latch with an end of its own, its call has come this far, and the other leg's call will lose -/
structure HeldBy (s : Session) (leg : Leg) (how : LegEnd) (call : CallStage) : Prop where
  standing : s.standing leg = .stopped how call
  own : how.IsOwn leg
  latch : s.latch.HeldAt (.leg leg, how) call
  other : ∀ how' call', s.standing leg.opposite = .stopped how' call' → call' = .begun ∨ call' = .returned false

/-- what ties the latch, the legs and the sinks of a session together -/
structure Inv (s : Session) : Prop where
  latch : Unclaimed s ∨ ∃ leg how call, HeldBy s leg how call
  closing : s.closed <+: [.inbound, .outbound]
  joined : s.closed ≠ [] → s.latch.done = true ∧ s.isJoined = true
  outcome : ∀ o ∈ s.outcome, s.closed = [.inbound, .outbound] ∧ o = outcomeOf s.latch

theorem inv_start (callerReads : List (Reading UInt16)) (backendTakes : List Writing)
    (backendReads : List (Reading CloseCode)) (callerTakes : List Writing) :
    Inv (start callerReads backendTakes backendReads callerTakes) := by
  have hmoving : ∀ leg, (start callerReads backendTakes backendReads callerTakes).standing leg = .moving := by
    intro leg
    cases leg <;> rfl
  refine ⟨Or.inl ⟨rfl, fun leg how call h => ?_⟩, List.nil_prefix, fun h => absurd rfl h, ?_⟩
  · rw [hmoving] at h
    exact absurd h Standing.noConfusion
  · intro o ho
    simp [start] at ho

theorem Unclaimed.select (h : Unclaimed s) (l : Leg) : Unclaimed (s.step (.select l)) := by
  obtain ⟨hown, hother, hlatch, -⟩ := step_select s l
  refine ⟨hlatch.trans h.latch, fun leg how call hs => ?_⟩
  rcases Leg.eq_or_eq_opposite l leg with rfl | rfl
  · rw [hs] at hown
    rcases hown.cases with hown | ⟨-, hcall, hhow⟩
    · exact h.legs leg how call hown
    · rw [h.latch] at hhow
      exact ⟨hhow, hcall⟩
  · exact h.legs _ how call (hother ▸ hs)

/-- a leg that begins its call on an unclaimed latch claims it -/
theorem Unclaimed.report (h : Unclaimed s) (l : Leg) :
    Unclaimed (s.step (.report l)) ∨ ∃ how, HeldBy (s.step (.report l)) l how .claimed := by
  cases hs : s.standing l with
  | moving =>
    rw [step_report_of_moving hs]
    exact Or.inl h
  | stopped how call =>
    obtain ⟨hhow, rfl⟩ := h.legs l how call hs
    obtain ⟨hown, hother, hlatch, -⟩ := step_report hs
    rw [h.latch] at hown hlatch
    refine Or.inr ⟨how, hown, hhow, ?_, fun how' call' hs' => ?_⟩
    · rw [hlatch]
      exact .claimed
    · exact Or.inl (h.legs _ how' call' (hother ▸ hs')).2

theorem HeldBy.select (h : HeldBy s leg how call) (l : Leg) : HeldBy (s.step (.select l)) leg how call := by
  obtain ⟨hown, hother, hlatch, -⟩ := step_select s l
  rcases Leg.eq_or_eq_opposite leg l with rfl | rfl
  · rw [h.standing] at hown
    exact ⟨hown, h.own, hlatch ▸ h.latch, hother ▸ h.other⟩
  · rw [Leg.opposite_opposite] at hother
    refine ⟨hother.trans h.standing, h.own, hlatch ▸ h.latch, fun how' call' hs => ?_⟩
    rw [hs] at hown
    rcases hown.cases with hown | ⟨-, hcall, -⟩
    · exact h.other how' call' hown
    · exact Or.inl hcall

/-- the call of the leg that holds the latch goes on, and the other leg's call loses -/
theorem HeldBy.report (h : HeldBy s leg how call) (l : Leg) : ∃ call', HeldBy (s.step (.report l)) leg how call' := by
  rcases Leg.eq_or_eq_opposite leg l with rfl | rfl
  · obtain ⟨hown, hother, hlatch, -⟩ := step_report h.standing
    exact ⟨_, hown, h.own, hlatch ▸ h.latch.advance, hother ▸ h.other⟩
  · refine ⟨call, ?_⟩
    cases hs : s.standing leg.opposite with
    | moving =>
      rw [step_report_of_moving hs]
      exact h
    | stopped how' call' =>
      obtain ⟨hown, hother, hlatch, -⟩ := step_report hs
      rw [Leg.opposite_opposite] at hother
      have hlost : Race.advance ⟨(.leg leg.opposite, how'), call'⟩ s.latch =
          (⟨(.leg leg.opposite, how'), .returned false⟩, s.latch) := by
        rcases h.other how' call' hs with rfl | rfl
        · exact Latch.advance_of_claimed h.latch.isClaimed _
        · rfl
      rw [hlost] at hown hlatch
      refine ⟨hother.trans h.standing, h.own, hlatch ▸ h.latch, fun how'' call'' hs' => ?_⟩
      exact Or.inr (Standing.stopped.inj (hs'.symm.trans hown)).2

/-- whoever holds the latch holds it for good -/
theorem HeldBy.step (h : HeldBy s leg how call) (t : Step) : ∃ call', HeldBy (s.step t) leg how call' := by
  cases t with
  | select l => exact ⟨call, h.select l⟩
  | report l => exact h.report l
  | teardown =>
    obtain ⟨hstanding, hlatch, -⟩ := step_teardown s
    exact ⟨call, hstanding ▸ h.standing, h.own, hlatch ▸ h.latch, hstanding ▸ h.other⟩

theorem HeldBy.run (h : HeldBy s leg how call) (steps : List Step) : ∃ call', HeldBy (s.run steps) leg how call' := by
  induction steps generalizing s call with
  | nil => exact ⟨call, h⟩
  | cons t steps ih =>
    obtain ⟨call', h⟩ := h.step t
    exact ih h

theorem Inv.latch_step (h : Inv s) (t : Step) :
    Unclaimed (s.step t) ∨ ∃ leg how call, HeldBy (s.step t) leg how call := by
  rcases h.latch with h | ⟨leg, how, call, h⟩
  · cases t with
    | select l => exact Or.inl (h.select l)
    | report l => exact (h.report l).imp id fun ⟨how, h⟩ => ⟨l, how, .claimed, h⟩
    | teardown =>
      obtain ⟨hstanding, hlatch, -⟩ := step_teardown s
      exact Or.inl ⟨hlatch.trans h.latch, hstanding ▸ h.legs⟩
  · exact Or.inr ⟨leg, how, h.step t⟩

theorem Inv.step_pump (h : Inv s) (ht : t ≠ .teardown) : Inv (s.step t) := by
  obtain ⟨hclosed, houtcome⟩ := closed_step (s := s) ht
  refine ⟨h.latch_step t, by rw [hclosed]; exact h.closing, fun hne => ?_, fun o ho => ?_⟩
  · rw [hclosed] at hne
    exact ⟨done_step (h.joined hne).1 t, isJoined_step (h.joined hne).2 t⟩
  · rw [houtcome] at ho
    have hend := h.outcome o ho
    have hne : s.closed ≠ [] := by rw [hend.1]; exact List.cons_ne_nil _ _
    rw [hclosed, latch_step_of_joined (h.joined hne).2]
    exact hend

theorem Inv.step_teardown (h : Inv s) : Inv (s.step .teardown) := by
  obtain ⟨-, hlatch, hstep⟩ := Session.step_teardown s
  rcases hstep with hstep | ⟨hd, hj, hstep⟩
  · rw [hstep]; exact h
  · refine ⟨h.latch_step .teardown, ?_, fun _ => ⟨done_step hd _, isJoined_step hj _⟩, fun o ho => ?_⟩
    · rcases hstep with ⟨-, hstep⟩ | ⟨l, hl, hstep⟩ | ⟨-, hstep⟩
      · rw [hstep]; exact ⟨[.outbound], rfl⟩
      · have hc := h.closing
        rw [hl] at hc
        obtain rfl : l = .inbound := (List.cons_prefix_cons.1 hc).1
        rw [hstep]
      · rw [hstep]; exact h.closing
    · rcases hstep with ⟨hc, hstep⟩ | ⟨l, hl, hstep⟩ | ⟨hlen, hstep⟩
      · rw [hstep] at ho
        exact absurd ((h.outcome o ho).1.symm.trans hc) (by simp)
      · rw [hstep] at ho
        exact absurd ((h.outcome o ho).1.symm.trans hl) (by simp)
      · rw [hstep] at ho ⊢
        exact ⟨h.closing.eq_of_length_le hlen, (Option.mem_some_iff.1 ho).symm⟩

theorem Inv.step (h : Inv s) (t : Step) : Inv (s.step t) := by
  by_cases ht : t = .teardown
  · subst ht
    exact h.step_teardown
  · exact h.step_pump ht

theorem inv_run (h : Inv s) (steps : List Step) : Inv (s.run steps) := by
  induction steps generalizing s with
  | nil => exact h
  | cons t steps ih => exact ih (h.step t)

/-! ## One winner -/

/-- the call that wins is that of the leg whose end the latch keeps -/
theorem first_of_won (h : Inv s) (hw : s.standing leg = .stopped how (.returned true)) :
    s.latch.first = some (.leg leg, how) := by
  rcases h.latch with h | ⟨l, how', call, h⟩
  · exact absurd (h.legs leg how _ hw).2 CallStage.noConfusion
  rcases Leg.eq_or_eq_opposite l leg with rfl | rfl
  · obtain ⟨rfl, rfl⟩ := Standing.stopped.inj (h.standing.symm.trans hw)
    exact h.latch.of_returned.2
  · rcases h.other how _ hw with hlost | hlost
    · exact absurd hlost CallStage.noConfusion
    · exact absurd (CallStage.returned.inj hlost) (by decide)

/-- a cause in the latch is that of a leg which stopped by itself -/
theorem cause_of_first (h : Inv s) : ∀ c ∈ s.latch.first, ∃ leg how call,
    c = (.leg leg, how) ∧ s.standing leg = .stopped how call ∧ how.IsOwn leg := by
  intro c hc
  rcases h.latch with h | ⟨leg, how, call, h⟩
  · rw [h.latch] at hc
    exact absurd hc (by simp)
  · exact ⟨leg, how, call, h.latch.eq_of_mem_first hc, h.standing, h.own⟩

theorem won_of_done (h : Inv s) (hd : s.latch.done = true) :
    ∃ leg how, s.latch.first = some (.leg leg, how) ∧ s.standing leg = .stopped how (.returned true) := by
  rcases h.latch with h | ⟨leg, how, call, h⟩
  · rw [h.latch] at hd
    exact absurd hd Bool.false_ne_true
  · obtain ⟨rfl, hfirst⟩ := h.latch.of_done hd
    exact ⟨leg, how, hfirst, h.standing⟩

/-! ## Behind an open latch -/

/-- a leg is cancelled only when the other one has opened the latch -/
theorem cancelled_behind (h : Inv s) (hm : s.standing leg = .moving)
    (hc : (s.step t).standing leg = .stopped .cancelled call) :
    s.latch.done = true ∧ ∃ how, s.latch.first = some (.leg leg.opposite, how) := by
  have hd : s.latch.done = true := by
    rcases standing_step s t leg with hsame | ⟨-, hselect⟩ | ⟨how, call', hs, -⟩
    · exact absurd ((hsame.trans hm).symm.trans hc) Standing.noConfusion
    · rw [hc] at hselect
      rcases hselect.cases with hs | ⟨-, -, hhow⟩
      · exact absurd hs Standing.noConfusion
      · by_contra hd
        rw [if_neg hd] at hhow
        exact hhow.ne_cancelled rfl
    · exact absurd (hm.symm.trans hs) Standing.noConfusion
  obtain ⟨l, how, hfirst, hwon⟩ := won_of_done h hd
  rcases Leg.eq_or_eq_opposite leg l with rfl | rfl
  · exact absurd (hm.symm.trans hwon) Standing.noConfusion
  · exact ⟨hd, how, hfirst⟩

theorem select_cancels (hd : s.latch.done = true) (hm : s.standing leg = .moving) :
    (s.step (.select leg)).standing leg = .stopped .cancelled .begun := by
  obtain ⟨hown, -⟩ := step_select s leg
  rw [hm, hd] at hown
  exact hown

theorem traffic_step (hd : s.latch.done = true) (t : Step) : (s.step t).traffic = s.traffic := by
  cases t with
  | select leg => exact traffic_step_select hd leg
  | report leg => exact traffic_step_report s leg
  | teardown =>
    obtain ⟨-, -, hstep | ⟨-, -, ⟨-, hstep⟩ | ⟨l, -, hstep⟩ | ⟨-, hstep⟩⟩⟩ := step_teardown s <;> rw [hstep] <;> rfl

/-- behind an open latch nothing is read and nothing written -/
theorem traffic_run (hd : s.latch.done = true) (steps : List Step) : (s.run steps).traffic = s.traffic := by
  induction steps generalizing s with
  | nil => rfl
  | cons t steps ih => rw [run_cons, ih (done_step hd t), traffic_step hd]

/-! ## Closing the sinks -/

/-- the step that closes a sink finds both legs returned, and that sink not closed yet -/
theorem closes_step (h : Inv s) (hc : (s.step t).closed ≠ s.closed) :
    s.isJoined = true ∧ ∃ leg ∉ s.closed, (s.step t).closed = s.closed ++ [leg] := by
  obtain rfl : t = .teardown := by
    by_contra ht
    exact hc (closed_step ht).1
  obtain ⟨-, -, hstep | ⟨-, hj, hstep⟩⟩ := step_teardown s
  · rw [hstep] at hc
    exact absurd rfl hc
  rcases hstep with ⟨hnil, hstep⟩ | ⟨l, hl, hstep⟩ | ⟨-, hstep⟩
  · exact ⟨hj, .inbound, by simp [hnil], by rw [hstep, hnil]; rfl⟩
  · have hpre := h.closing
    rw [hl] at hpre
    obtain rfl : l = .inbound := (List.cons_prefix_cons.1 hpre).1
    exact ⟨hj, .outbound, by simp [hl], by rw [hstep, hl]; rfl⟩
  · rw [hstep] at hc
    exact absurd rfl hc

/-! ## Coming to the end -/

theorem wholeCall_returns (h : s.standing leg ≠ .moving) :
    ∃ how won, (s.run (wholeCall leg)).standing leg = .stopped how (.returned won) := by
  cases hs : s.standing leg with
  | moving => exact absurd hs h
  | stopped how call =>
    have h₁ := (step_report hs).1
    have h₂ := (step_report h₁).1
    have h₃ := (step_report h₂).1
    obtain ⟨won, hwon⟩ := Latch.exists_returned (.leg leg, how) call s.latch (s.step (.report leg)).latch
      ((s.step (.report leg)).step (.report leg)).latch
    rw [hwon] at h₃
    exact ⟨how, won, h₃⟩

/-- a leg has stopped once its pump has looked at an open latch -/
theorem select_stops (hd : s.latch.done = true) (leg : Leg) : (s.step (.select leg)).standing leg ≠ .moving := by
  cases hs : s.standing leg with
  | moving =>
    rw [select_cancels hd hs]
    exact Standing.noConfusion
  | stopped how call =>
    obtain ⟨hown, -⟩ := step_select s leg
    rw [hs] at hown
    rw [show (s.step (.select leg)).standing leg = .stopped how call from hown]
    exact Standing.noConfusion

theorem exists_joined (hd : s.latch.done = true) : ∃ more, (s.run more).isJoined = true := by
  have hreturn : ∀ s : Session, s.latch.done = true → ∀ leg,
      ∃ how won, (s.run (.select leg :: wholeCall leg)).standing leg = .stopped how (.returned won) :=
    fun _ hd leg => wholeCall_returns (select_stops hd leg)
  obtain ⟨how, won, hin⟩ := hreturn s hd .inbound
  obtain ⟨how', won', hout⟩ := hreturn _ (done_run hd (.select .inbound :: wholeCall .inbound)) .outbound
  refine ⟨(.select .inbound :: wholeCall .inbound) ++ (.select .outbound :: wholeCall .outbound), ?_⟩
  rw [run_append, isJoined_iff]
  intro leg
  cases leg with
  | inbound => exact ⟨how, won, returned_run hin _⟩
  | outbound => exact ⟨how', won', hout⟩

/-- once a leg has stopped, the call that claimed the latch can be brought to its end -/
theorem exists_done (h : Inv s) (hstop : s.standing leg ≠ .moving) : ∃ more, (s.run more).latch.done = true := by
  obtain ⟨how, won, hret⟩ := wholeCall_returns hstop
  rcases (inv_run h (wholeCall leg)).latch with hun | ⟨l, how', call, hheld⟩
  · exact absurd (hun.legs leg how _ hret).2 CallStage.noConfusion
  have hstop' : (s.run (wholeCall leg)).standing l ≠ .moving := by
    rw [hheld.standing]
    exact Standing.noConfusion
  obtain ⟨how'', won', hret'⟩ := wholeCall_returns hstop'
  obtain ⟨call', hheld'⟩ := hheld.run (wholeCall l)
  obtain ⟨-, rfl⟩ := Standing.stopped.inj (hheld'.standing.symm.trans hret')
  exact ⟨wholeCall leg ++ wholeCall l, by rw [run_append]; exact hheld'.latch.of_returned.1⟩

/-- where both legs have returned, three steps of the session itself are enough -/
theorem finish_of_joined (h : Inv s) (hd : s.latch.done = true) (hj : s.isJoined = true) :
    (s.run [.teardown, .teardown, .teardown]).outcome.isSome = true := by
  have hgo : (s.latch.done && s.isJoined) = true := by rw [hd, hj]; rfl
  have hkeep : ∀ closed outcome, ({ s with closed := closed, outcome := outcome } : Session).isJoined = s.isJoined :=
    fun _ _ => rfl
  have hclosed : s.closed = [] ∨ s.closed = [.inbound] ∨ s.closed = [.inbound, .outbound] := by
    have hpre := h.closing
    match hc : s.closed with
    | [] => exact Or.inl rfl
    | [l] =>
      rw [hc] at hpre
      exact Or.inr (Or.inl (by rw [(List.cons_prefix_cons.1 hpre).1]))
    | l :: l' :: rest =>
      rw [hc] at hpre
      exact Or.inr (Or.inr (hpre.eq_of_length_le (by simp)))
  rcases hclosed with hc | hc | hc <;>
    simp [run, step, Session.teardown, hc, hd, hj, hkeep]

/-- a session in which a leg has stopped can be brought to its end -/
theorem exists_finish (h : Inv s) (hstop : s.standing leg ≠ .moving) :
    ∃ more, (s.run more).outcome.isSome = true := by
  obtain ⟨opening, hd⟩ := exists_done h hstop
  obtain ⟨joining, hj⟩ := exists_joined hd
  have hjoined : Inv ((s.run opening).run joining) := inv_run (inv_run h opening) joining
  refine ⟨opening ++ joining ++ [.teardown, .teardown, .teardown], ?_⟩
  rw [run_append, run_append]
  exact finish_of_joined hjoined (done_run hd joining) hj

/-! ## The whole session -/

/-- **A session is torn down once**, in any order of the steps of its two pumps, of their calls to complete the latch,
and of the session itself:

1. at most one call wins, and the latch keeps its leg and end: a leg that has stopped, with an end of its own;
2. a leg is cancelled only by a step that finds the latch opened by the other leg;
3. a step of a moving leg that finds the latch open cancels it, and from then on nothing is read and nothing written;
4. a sink is closed by a step that finds both legs returned, at most once, and exactly once when the session has
   ended, as it can from any state in which a leg has stopped;
5. the outcome is the cause that the latch keeps. -/
theorem torn_down_once (callerReads : List (Reading UInt16)) (backendTakes : List Writing)
    (backendReads : List (Reading CloseCode)) (callerTakes : List Writing) (steps : List Step) :
    let s := (start callerReads backendTakes backendReads callerTakes).run steps
    ((∀ leg leg' how how', s.standing leg = .stopped how (.returned true) →
          s.standing leg' = .stopped how' (.returned true) → leg = leg') ∧
        (∀ leg how, s.standing leg = .stopped how (.returned true) → s.latch.first = some (.leg leg, how)) ∧
        ∀ c ∈ s.latch.first, ∃ leg how call,
          c = (.leg leg, how) ∧ s.standing leg = .stopped how call ∧ how.IsOwn leg) ∧
      (∀ t leg call, s.standing leg = .moving → (s.step t).standing leg = .stopped .cancelled call →
        s.latch.done = true ∧ ∃ how, s.latch.first = some (.leg leg.opposite, how)) ∧
      (s.latch.done = true → (∀ leg, s.standing leg = .moving →
        (s.step (.select leg)).standing leg = .stopped .cancelled .begun) ∧ ∀ more, (s.run more).traffic = s.traffic) ∧
      ((∀ t, (s.step t).closed ≠ s.closed →
          s.isJoined = true ∧ ∃ leg ∉ s.closed, (s.step t).closed = s.closed ++ [leg]) ∧
        (∀ leg, s.closed.count leg ≤ 1) ∧
        (s.outcome.isSome = true → ∀ leg, s.closed.count leg = 1) ∧
        ∀ leg, s.standing leg ≠ .moving → ∃ more, (s.run more).outcome.isSome = true) ∧
      ∀ o ∈ s.outcome, ∃ leg how, s.latch.first = some (.leg leg, how) ∧ o = ⟨some (.leg leg), some how⟩ := by
  intro s
  have h : Inv s := inv_run (inv_start callerReads backendTakes backendReads callerTakes) steps
  refine ⟨⟨fun leg leg' how how' hw hw' => ?_, fun leg how => first_of_won h, cause_of_first h⟩,
    fun t leg call => cancelled_behind h, fun hd => ⟨fun leg => select_cancels hd, traffic_run hd⟩,
    ⟨fun t => closes_step h, ?_, ?_, fun leg => exists_finish h⟩, ?_⟩
  · have hfirst := (first_of_won h hw).symm.trans (first_of_won h hw')
    obtain ⟨hleg, -⟩ := Prod.mk.inj (Option.some.inj hfirst)
    exact Trigger.leg.inj hleg
  · intro leg
    exact (h.closing.sublist.count_le leg).trans (by cases leg <;> decide)
  · intro ho leg
    obtain ⟨o, ho⟩ := Option.isSome_iff_exists.1 ho
    rw [(h.outcome o ho).1]
    cases leg <;> rfl
  · intro o ho
    obtain ⟨hclosed, rfl⟩ := h.outcome o ho
    -- sinks are closed only when both legs have returned, and by then a call has won
    have hd := (h.joined (by rw [hclosed]; exact List.cons_ne_nil _ _)).1
    obtain ⟨leg, how, hc, -⟩ := won_of_done h hd
    exact ⟨leg, how, hc, by simp [outcomeOf, hc]⟩

end MachineGateway.Relay.Session
