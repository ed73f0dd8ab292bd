/-
What the steps of a session do to its legs. A leg's pump moves, or it has stopped and its call to complete the latch
has come some way; `Standing` is that much of it and nothing of its frames, so it is the same type for both legs.
`step_select`, `step_report` and `step_teardown` say what one step can change, `standing_step` what it can do to one
leg; everything that is proved of whole runs rests on these.
-/
import Mathlib.Tactic
import MachineGateway.Relay.Session

namespace MachineGateway.Relay

/-! ## One pump -/

/-- where a leg stands -/
inductive Standing where
  | moving
  /-- it has left its loop with this end, and its call to complete the latch has come this far -/
  | stopped (how : LegEnd) (call : CallStage)
  deriving DecidableEq, Repr

/-- the ends that a leg comes to by itself: its source ended or closed, or its own read or write failed -/
def LegEnd.IsOwn (leg : Leg) (how : LegEnd) : Prop :=
  how = .peerClosed ∨ ∃ reason, how = .fault (.read leg reason) ∨ how = .fault (.write leg reason)

theorem LegEnd.IsOwn.ne_cancelled {leg : Leg} {how : LegEnd} (h : how.IsOwn leg) : how ≠ .cancelled := by
  rcases h with rfl | ⟨reason, rfl | rfl⟩ <;> exact LegEnd.noConfusion

theorem Leg.eq_or_eq_opposite (leg l : Leg) : l = leg ∨ l = leg.opposite := by
  cases leg <;> cases l <;> simp [Leg.opposite]

theorem Leg.opposite_opposite (leg : Leg) : leg.opposite.opposite = leg := by cases leg <;> rfl

namespace Pump

variable {κ μ : Type} {leg : Leg} {image : Frame κ → Frame μ} {done : Bool} {p : Pump κ μ} {how : LegEnd}

def standing (p : Pump κ μ) : Standing :=
  match p.stage with
  | .reading | .writing _ => .moving
  | .stopped how call => .stopped how call

/-- what a pump has not read, what its sink will answer, and what the sink has accepted -/
def traffic (p : Pump κ μ) : List (Reading κ) × List Writing × List (Frame μ) := (p.source, p.sink, p.sent)

theorem standing_eq_stopped {call : CallStage} : p.standing = .stopped how call ↔ p.stage = .stopped how call := by
  unfold standing
  cases p.stage <;> simp

theorem returned?_eq_some : p.returned? = some how ↔ ∃ won, p.standing = .stopped how (.returned won) := by
  simp only [standing_eq_stopped]
  unfold returned?
  cases p.stage with
  | reading => simp
  | writing f => simp
  | stopped how call => cases call <;> simp

theorem returned?_isSome : p.returned?.isSome ↔ ∃ how won, p.standing = .stopped how (.returned won) := by
  simp only [Option.isSome_iff_exists, returned?_eq_some]

/-- a step that finds the latch open stops the pump, which neither reads nor writes -/
theorem select_open (h : p.standing = .moving) : p.select leg image true = { p with stage := .stopped .cancelled } := by
  unfold standing at h
  unfold select
  cases hs : p.stage with
  | reading => rfl
  | writing f => rfl
  | stopped how call => simp [hs] at h

theorem select_of_stopped (h : p.standing ≠ .moving) : p.select leg image done = p := by
  unfold standing at h
  unfold select
  cases hs : p.stage with
  | reading => simp [hs] at h
  | writing f => simp [hs] at h
  | stopped how call => rfl

theorem traffic_select_open : (p.select leg image true).traffic = p.traffic := by
  by_cases hm : p.standing = .moving
  · rw [select_open hm]
    rfl
  · rw [select_of_stopped hm]

theorem traffic_report (l : Latch) : (p.report leg l).1.traffic = p.traffic := by
  unfold report
  cases p.stage <;> rfl

theorem accept_standing (f : Frame μ) (p : Pump κ μ) :
    (p.accept f).standing = .moving ∨ (p.accept f).standing = .stopped .peerClosed .begun := by
  unfold accept standing
  split_ifs
  · exact Or.inr rfl
  · exact Or.inl rfl

/-- a pump with a frame in hand, at a latch that is shut: the sink accepts the frame, with an answer or without, or it
fails, or it takes nothing -/
theorem select_writing {f : Frame μ} (h : p.stage = .writing f) :
    (∃ answer sink, p.sink = answer ++ sink ∧ (∀ w ∈ answer, w = .accepted) ∧
        p.select leg image false = { p.accept f with sink := sink }) ∨
      (∃ reason sink, p.sink = .failed reason :: sink ∧
        p.select leg image false = { p with stage := .stopped (.fault (.write leg reason)), sink := sink }) ∨
      ∃ sink, p.sink = .blocked :: sink ∧ p.select leg image false = p := by
  cases hsink : p.sink with
  | nil =>
    refine Or.inl ⟨[], [], rfl, fun _ hw => absurd hw List.not_mem_nil, ?_⟩
    simp [select, h, hsink, accept]
  | cons w rest =>
    cases w with
    | accepted =>
      refine Or.inl ⟨[.accepted], rest, rfl, fun _ hw => List.mem_singleton.1 hw, ?_⟩
      simp [select, h, hsink]
    | failed reason => exact Or.inr (Or.inl ⟨reason, rest, rfl, by simp [select, h, hsink]⟩)
    | blocked => exact Or.inr (Or.inr ⟨rest, rfl, by simp [select, h, hsink]⟩)

/-- a step that finds the latch shut lets the pump move on, or stops it with an end of its own -/
theorem select_shut (h : p.standing = .moving) :
    (p.select leg image false).standing = .moving ∨
      ∃ how, how.IsOwn leg ∧ (p.select leg image false).standing = .stopped how .begun := by
  cases hs : p.stage with
  | stopped how call => simp [standing, hs] at h
  | reading =>
    cases hsource : p.source with
    | nil => exact Or.inl (by simp [select, standing, hs, hsource])
    | cons r rest =>
      cases r with
      | frame f => exact Or.inl (by simp [select, standing, hs, hsource])
      | raw => exact Or.inl (by simp [select, standing, hs, hsource])
      | failed reason =>
        exact Or.inr ⟨_, Or.inr ⟨reason, Or.inl rfl⟩, by simp [select, standing, hs, hsource]⟩
      | ended => exact Or.inr ⟨_, Or.inl rfl, by simp [select, standing, hs, hsource]⟩
  | writing f =>
    rcases select_writing hs with ⟨answer, sink, -, -, hselect⟩ | ⟨reason, sink, -, hselect⟩ | ⟨sink, -, hselect⟩
    · rw [hselect]
      exact (accept_standing f p).imp id fun h => ⟨_, Or.inl rfl, h⟩
    · rw [hselect]
      exact Or.inr ⟨_, Or.inr ⟨reason, Or.inr rfl⟩, rfl⟩
    · rw [hselect]
      exact Or.inl h

/-- a stopped pump's call to complete the latch goes on by one step -/
theorem report_of_stopped {call : CallStage} (h : p.standing = .stopped how call) (leg : Leg) (l : Latch) :
    (p.report leg l).1.standing = .stopped how (Race.advance ⟨(.leg leg, how), call⟩ l).1.stage ∧
      (p.report leg l).2 = (Race.advance ⟨(.leg leg, how), call⟩ l).2 := by
  unfold standing at h
  unfold report
  cases hs : p.stage with
  | reading => simp [hs] at h
  | writing f => simp [hs] at h
  | stopped how' call' =>
    obtain ⟨rfl, rfl⟩ : how' = how ∧ call' = call := by simpa [hs] using h
    exact ⟨rfl, rfl⟩

theorem report_of_moving (h : p.standing = .moving) (l : Latch) : p.report leg l = (p, l) := by
  unfold standing at h
  unfold report
  cases hs : p.stage with
  | reading => rfl
  | writing f => rfl
  | stopped how call => simp [hs] at h

end Pump

/-! ## One step of a session -/

/-- how a leg may stand after a step of its pump: a moving leg is cancelled if the latch is open, and otherwise moves
on or stops by itself -/
def Standing.AfterSelect (leg : Leg) (done : Bool) : Standing → Standing → Prop
  | .moving, b =>
    if done then b = .stopped .cancelled .begun else b = .moving ∨ ∃ how, how.IsOwn leg ∧ b = .stopped how .begun
  | .stopped how call, b => b = .stopped how call

/-- a leg that has stopped after a step had stopped before, or was stopped by it -/
theorem Standing.AfterSelect.cases {leg : Leg} {done : Bool} {a : Standing} {how : LegEnd} {call : CallStage}
    (h : a.AfterSelect leg done (.stopped how call)) :
    a = .stopped how call ∨ a = .moving ∧ call = .begun ∧ if done then how = .cancelled else how.IsOwn leg := by
  cases a with
  | moving =>
    refine Or.inr ⟨rfl, ?_⟩
    cases done with
    | true =>
      obtain ⟨rfl, rfl⟩ := Standing.stopped.inj h
      exact ⟨rfl, rfl⟩
    | false =>
      obtain ⟨how', hhow, heq⟩ := h.resolve_left Standing.noConfusion
      obtain ⟨rfl, rfl⟩ := Standing.stopped.inj heq
      exact ⟨rfl, hhow⟩
  | stopped how' call' => exact Or.inl h.symm

theorem Pump.standing_select {κ μ : Type} (leg : Leg) (image : Frame κ → Frame μ) (done : Bool) (p : Pump κ μ) :
    p.standing.AfterSelect leg done (p.select leg image done).standing := by
  cases hs : p.standing with
  | moving =>
    cases done with
    | true => rw [select_open hs]; rfl
    | false => exact select_shut hs
  | stopped how call =>
    rw [select_of_stopped (by simp [hs])]
    exact hs

namespace Session

variable {s : Session} {leg : Leg} {how : LegEnd} {call : CallStage}

def standing (s : Session) : Leg → Standing
  | .inbound => s.inbound.standing
  | .outbound => s.outbound.standing

/-- what is left to read on both legs, what the sinks will answer, and what they have accepted -/
def traffic (s : Session) := (s.inbound.traffic, s.outbound.traffic)

theorem isJoined_iff : s.isJoined = true ↔ ∀ leg, ∃ how won, s.standing leg = .stopped how (.returned won) := by
  simp only [isJoined, Bool.and_eq_true, Pump.returned?_isSome]
  constructor
  · rintro ⟨hi, ho⟩ leg
    cases leg with
    | inbound => exact hi
    | outbound => exact ho
  · exact fun h => ⟨h .inbound, h .outbound⟩

/-- the step of a pump changes its own leg only -/
theorem step_select (s : Session) (leg : Leg) :
    (s.standing leg).AfterSelect leg s.latch.done ((s.step (.select leg)).standing leg) ∧
      (s.step (.select leg)).standing leg.opposite = s.standing leg.opposite ∧
      (s.step (.select leg)).latch = s.latch ∧ (s.step (.select leg)).closed = s.closed ∧
      (s.step (.select leg)).outcome = s.outcome := by
  cases leg with
  | inbound => exact ⟨Pump.standing_select _ _ _ _, rfl, rfl, rfl, rfl⟩
  | outbound => exact ⟨Pump.standing_select _ _ _ _, rfl, rfl, rfl, rfl⟩

theorem traffic_step_select (hd : s.latch.done = true) (leg : Leg) : (s.step (.select leg)).traffic = s.traffic := by
  cases leg with
  | inbound =>
    simp only [step, hd]
    exact congrArg (·, s.outbound.traffic) Pump.traffic_select_open
  | outbound =>
    simp only [step, hd]
    exact congrArg (s.inbound.traffic, ·) Pump.traffic_select_open

/-- a stopped leg's call to complete the latch goes on, and the other leg stands as before -/
theorem step_report (h : s.standing leg = .stopped how call) :
    (s.step (.report leg)).standing leg = .stopped how (Race.advance ⟨(.leg leg, how), call⟩ s.latch).1.stage ∧
      (s.step (.report leg)).standing leg.opposite = s.standing leg.opposite ∧
      (s.step (.report leg)).latch = (Race.advance ⟨(.leg leg, how), call⟩ s.latch).2 ∧
      (s.step (.report leg)).closed = s.closed ∧ (s.step (.report leg)).outcome = s.outcome := by
  cases leg with
  | inbound =>
    obtain ⟨hstanding, hlatch⟩ := Pump.report_of_stopped h .inbound s.latch
    exact ⟨hstanding, rfl, hlatch, rfl, rfl⟩
  | outbound =>
    obtain ⟨hstanding, hlatch⟩ := Pump.report_of_stopped h .outbound s.latch
    exact ⟨hstanding, rfl, hlatch, rfl, rfl⟩

theorem step_report_of_moving (h : s.standing leg = .moving) : s.step (.report leg) = s := by
  cases leg with
  | inbound => simp only [step, Pump.report_of_moving h]
  | outbound => simp only [step, Pump.report_of_moving h]

theorem traffic_step_report (s : Session) (leg : Leg) : (s.step (.report leg)).traffic = s.traffic := by
  cases leg with
  | inbound => exact congrArg (·, s.outbound.traffic) (Pump.traffic_report s.latch)
  | outbound => exact congrArg (s.inbound.traffic, ·) (Pump.traffic_report s.latch)

/-- the session itself goes on only when the latch is open and both legs have returned -/
theorem step_teardown (s : Session) :
    (s.step .teardown).standing = s.standing ∧ (s.step .teardown).latch = s.latch ∧
      (s.step .teardown = s ∨ s.latch.done = true ∧ s.isJoined = true ∧
        (s.closed = [] ∧ s.step .teardown = { s with closed := [.inbound] } ∨
          (∃ l, s.closed = [l] ∧ s.step .teardown = { s with closed := [l, .outbound] }) ∨
          2 ≤ s.closed.length ∧ s.step .teardown = { s with outcome := some (outcomeOf s.latch) })) := by
  have hstanding : ∀ closed outcome, ({ s with closed := closed, outcome := outcome } : Session).standing = s.standing :=
    fun _ _ => funext fun leg => by cases leg <;> rfl
  simp only [step, teardown]
  split_ifs with hgo
  · rw [Bool.and_eq_true] at hgo
    split
    · rename_i hc
      exact ⟨hstanding _ _, rfl, Or.inr ⟨hgo.1, hgo.2, Or.inl ⟨hc, rfl⟩⟩⟩
    · rename_i l hc
      exact ⟨hstanding _ _, rfl, Or.inr ⟨hgo.1, hgo.2, Or.inr (Or.inl ⟨l, hc, rfl⟩)⟩⟩
    · rename_i hnil hone
      refine ⟨hstanding _ _, rfl, Or.inr ⟨hgo.1, hgo.2, Or.inr (Or.inr ⟨?_, rfl⟩)⟩⟩
      match hc : s.closed with
      | [] => exact absurd hc hnil
      | [l] => exact absurd hc (hone l)
      | _ :: _ :: _ => simp
  · exact ⟨rfl, rfl, Or.inl rfl⟩

/-- a leg stands as before after a step, unless its pump moved or its call went on -/
theorem standing_step (s : Session) (t : Step) (leg : Leg) :
    (s.step t).standing leg = s.standing leg ∨
      s.standing leg = .moving ∧ Standing.moving.AfterSelect leg s.latch.done ((s.step t).standing leg) ∨
      ∃ how call, s.standing leg = .stopped how call ∧
        (s.step t).standing leg = .stopped how (Race.advance ⟨(.leg leg, how), call⟩ s.latch).1.stage := by
  cases t with
  | select l =>
    obtain ⟨hown, hother, -⟩ := step_select s l
    rcases Leg.eq_or_eq_opposite l leg with rfl | rfl
    · cases hs : s.standing leg with
      | moving =>
        rw [hs] at hown
        exact Or.inr (Or.inl ⟨rfl, hown⟩)
      | stopped how call =>
        rw [hs] at hown
        exact Or.inl hown
    · exact Or.inl hother
  | report l =>
    cases hs : s.standing l with
    | moving => exact Or.inl (by rw [step_report_of_moving hs])
    | stopped how call =>
      obtain ⟨hown, hother, -⟩ := step_report hs
      rcases Leg.eq_or_eq_opposite l leg with rfl | rfl
      · exact Or.inr (Or.inr ⟨how, call, hs, hown⟩)
      · exact Or.inl hother
  | teardown => exact Or.inl (by rw [(step_teardown s).1])

end Session

end MachineGateway.Relay
