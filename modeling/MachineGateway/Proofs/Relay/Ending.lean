/-
A session whose caller or backend leaves comes to its end. A pump with an end before it (`Pump.HasEnd`: its source will
end or fail, and its sink takes or refuses what it is given) never waits, so that it stops when it is let go on, by
itself or at an open latch (`Pumping.exists_stop`). On a session the steps of a pump are those of the pump alone with
the latch (`pumping_run_select`), and a session in which a leg has stopped can be brought to its end. So it can from
every state to which a session comes that has such a leg (`exists_finish_of_end`).
-/
import MachineGateway.Proofs.Relay.Pumping

namespace MachineGateway.Relay

/-! ## A pump with an end before it -/

namespace Pump

variable {κ μ : Type} {p : Pump κ μ}

/-- the source will end or fail, and the sink takes or refuses whatever it is given -/
structure HasEnd (p : Pump κ μ) : Prop where
  source : ∃ r ∈ p.source, r = .ended ∨ ∃ reason, r = .failed reason
  sink : .blocked ∉ p.sink

theorem HasEnd.not_waits (h : p.HasEnd) : ¬ p.Waits := by
  rintro (⟨-, hsource⟩ | ⟨f, rest, -, hsink⟩)
  · obtain ⟨r, hr, -⟩ := h.source
    exact absurd (hsource ▸ hr) List.not_mem_nil
  · exact h.sink (hsink ▸ List.mem_cons_self)

theorem moving_of_waits (h : p.Waits) : p.standing = .moving := by
  rcases h with ⟨hs, -⟩ | ⟨f, rest, hs, -⟩ <;> simp [standing, hs]

/-- the pump has stopped, or has an end before it -/
def Ends (p : Pump κ μ) : Prop := p.standing ≠ .moving ∨ p.HasEnd

/-- the end that is before a pump comes nearer, and with it the pump stops -/
theorem HasEnd.select (h : p.HasEnd) (leg : Leg) (image : Frame κ → Frame μ) (done : Bool) :
    (p.select leg image done).Ends := by
  by_cases hm : p.standing = .moving
  · cases done with
    | true =>
      rw [select_open hm]
      exact Or.inl Standing.noConfusion
    | false =>
      obtain ⟨⟨r, hr, hend⟩, hsink⟩ := h
      cases hs : p.stage with
      | stopped how call => exact absurd (hm.symm.trans (standing_eq_stopped.2 hs)) Standing.noConfusion
      | reading =>
        -- the readings are used up one by one, and the one that ends the source is not passed over
        cases hsource : p.source with
        | nil => exact absurd (hsource ▸ hr) List.not_mem_nil
        | cons first rest =>
          have htraffic : (p.select leg image false).source = rest ∧ (p.select leg image false).sink = p.sink := by
            cases first <;> simp [Pump.select, hs, hsource]
          rcases List.mem_cons.1 (hsource ▸ hr) with rfl | hr
          · rcases hend with rfl | ⟨reason, rfl⟩ <;> exact Or.inl (by simp [Pump.select, standing, hs, hsource])
          · exact Or.inr ⟨⟨r, htraffic.1 ▸ hr, hend⟩, htraffic.2 ▸ hsink⟩
      | writing f =>
        rcases select_writing hs with
          ⟨answer, sink, htakes, -, hselect⟩ | ⟨reason, sink, -, hselect⟩ | ⟨sink, htakes, -⟩
        · rw [hselect]
          exact Or.inr ⟨⟨r, hr, hend⟩, fun hmem => hsink (htakes ▸ List.mem_append_right answer hmem)⟩
        · rw [hselect]
          exact Or.inl Standing.noConfusion
        · exact absurd (htakes ▸ List.mem_cons_self) hsink
  · rw [select_of_stopped hm]
    exact Or.inl hm

theorem Ends.select (h : p.Ends) (leg : Leg) (image : Frame κ → Frame μ) (done : Bool) :
    (p.select leg image done).Ends := by
  rcases h with hstopped | hend
  · rw [select_of_stopped hstopped]
    exact Or.inl hstopped
  · exact hend.select leg image done

theorem Ends.report (h : p.Ends) (leg : Leg) (l : Latch) : (p.report leg l).1.Ends := by
  cases hs : p.standing with
  | moving => rwa [report_of_moving hs]
  | stopped how call =>
    rw [Ends, (report_of_stopped hs leg l).1]
    exact Or.inl Standing.noConfusion

theorem Ends.not_waits (h : p.Ends) : ¬ p.Waits := fun hwaits =>
  h.elim (fun hstopped => hstopped (moving_of_waits hwaits)) fun hend => hend.not_waits hwaits

end Pump

namespace Pumping

variable {leg : Leg} {s : Pumping leg}

theorem ends_run_select (h : s.pump.Ends) (k : Nat) : (s.run (List.replicate k .select)).pump.Ends := by
  induction k generalizing s with
  | zero => exact h
  | succ k ih =>
    rw [List.replicate_succ, run_cons]
    exact ih (h.select leg leg.image s.race.latch.done)

/-- a pump with an end before it stops when it is let go on -/
theorem exists_stop (h : s.pump.Ends) : ∃ k how, (s.run (List.replicate k .select)).pump.HasStopped how := by
  obtain ⟨k, ⟨how, hstop⟩ | ⟨hwaits, -⟩⟩ := exists_select s
  · exact ⟨k, how, hstop⟩
  · exact absurd hwaits (ends_run_select h k).not_waits

end Pumping

/-! ## Sessions -/

namespace Session

variable {s : Session} {leg : Leg}

/-- the pump of a leg, alone with the latch -/
def pumping (s : Session) : (leg : Leg) → Pumping leg
  | .inbound => ⟨s.inbound, ⟨s.latch, []⟩⟩
  | .outbound => ⟨s.outbound, ⟨s.latch, []⟩⟩

theorem standing_pumping (s : Session) (leg : Leg) : (s.pumping leg).pump.standing = s.standing leg := by
  cases leg <;> rfl

theorem pumping_step_select (s : Session) (leg : Leg) :
    (s.step (.select leg)).pumping leg = (s.pumping leg).step .select := by
  cases leg <;> rfl

theorem pumping_run_select (s : Session) (leg : Leg) (k : Nat) :
    (s.run (List.replicate k (.select leg))).pumping leg = (s.pumping leg).run (List.replicate k .select) := by
  induction k generalizing s with
  | zero => rfl
  | succ k ih =>
    rw [List.replicate_succ, List.replicate_succ, run_cons, Pumping.run_cons, ih, pumping_step_select]

/-- no step of a session takes the end away from a pump -/
theorem ends_step (h : (s.pumping leg).pump.Ends) (t : Step) : ((s.step t).pumping leg).pump.Ends := by
  cases t with
  | select l =>
    rcases Leg.eq_or_eq_opposite leg l with rfl | rfl
    · rw [pumping_step_select]
      exact h.select _ _ _
    · cases leg <;> exact h
  | report l =>
    rcases Leg.eq_or_eq_opposite leg l with rfl | rfl
    · cases l <;> exact h.report _ _
    · cases leg <;> exact h
  | teardown =>
    obtain ⟨-, -, hstep | ⟨-, -, ⟨-, hstep⟩ | ⟨l, -, hstep⟩ | ⟨-, hstep⟩⟩⟩ := step_teardown s <;> rw [hstep] <;>
      cases leg <;> exact h

theorem ends_run (h : (s.pumping leg).pump.Ends) (steps : List Step) : ((s.run steps).pumping leg).pump.Ends := by
  induction steps generalizing s with
  | nil => exact h
  | cons t steps ih => exact ih (ends_step h t)

/-- a leg with an end before it can be brought to a stop -/
theorem exists_stopped (h : (s.pumping leg).pump.Ends) : ∃ more, (s.run more).standing leg ≠ .moving := by
  obtain ⟨k, how, hstop⟩ := Pumping.exists_stop h
  obtain ⟨call, hstanding⟩ := Pump.hasStopped_iff_standing.1 hstop
  refine ⟨List.replicate k (.select leg), ?_⟩
  rw [← standing_pumping, pumping_run_select, hstanding]
  exact Standing.noConfusion

/-- **A session of which one source ends or fails can be brought to its end**, however far it has come, unless the sink
of that leg takes nothing any more. -/
theorem exists_finish_of_end (callerReads : List (Reading UInt16)) (backendTakes : List Writing)
    (backendReads : List (Reading CloseCode)) (callerTakes : List Writing) (steps : List Step) {leg : Leg}
    (h : ((start callerReads backendTakes backendReads callerTakes).pumping leg).pump.HasEnd) :
    ∃ more, ((start callerReads backendTakes backendReads callerTakes).run (steps ++ more)).outcome.isSome = true := by
  have hinv : Inv ((start callerReads backendTakes backendReads callerTakes).run steps) :=
    inv_run (inv_start callerReads backendTakes backendReads callerTakes) steps
  obtain ⟨stopping, hstop⟩ := exists_stopped (ends_run (Or.inr h) steps)
  obtain ⟨finishing, hfinish⟩ := exists_finish (inv_run hinv stopping) hstop
  refine ⟨stopping ++ finishing, ?_⟩
  rw [run_append, run_append]
  exact hfinish

/-- the caller leaves after one frame: its leg opens the latch, the other leg is cancelled, and both sinks are closed -/
example :
    (start [.frame (.text "hi"), .ended] [] [.frame (.text "late")] []).run
        ([.select .inbound, .select .inbound, .select .inbound] ++ wholeCall .inbound ++
          .select .outbound :: wholeCall .outbound ++ [.teardown, .teardown, .teardown]) =
      { latch := { claimed := true, first := some (.leg .inbound, .peerClosed), done := true }
        inbound := { stage := .stopped .peerClosed (.returned true), sent := [.text "hi"] }
        outbound := { stage := .stopped .cancelled (.returned false), source := [.frame (.text "late")] }
        closed := [.inbound, .outbound], outcome := some ⟨some (.leg .inbound), some .peerClosed⟩ } := rfl

end Session

end MachineGateway.Relay
