/-
What a pump has made of what it met. A `Ledger` sorts the readings it has taken from its source, the answers it has had
from its sink and the frames it has sent: first those after which it went on, then what stopped it or what it still has
in hand. `Tally` says that a pump stands as its ledger tells; a step of the pump, whatever the latch, turns one such
ledger into another (`Tally.select`, `Tally.report`).

From the ledger follow

- `Tally.forall₂_take`: the sink has accepted the images of the first frames of the source, each of which says the same
  as its image (`Frame.Alike`);
- `Tally.nil_of_close`: nothing is read behind a close;
- `Tally.hasStopped_peerClosed_iff`, `hasStopped_read_iff`, `hasStopped_write_iff`: what the end of the pump tells.
-/
import MachineGateway.Proofs.Relay.Standing

namespace MachineGateway.Relay

/-! ## Frames that say the same -/

theorem CloseCode.number_ofNumber (n : UInt16) : (CloseCode.ofNumber n).number = n := by
  unfold ofNumber
  cases h : named.find? fun c => c.number == n with
  | some c => simpa using List.find?_some h
  | none =>
    dsimp only
    split_ifs <;> rfl

/-- two frames of the same kind with the same payload; closes both have a note or both have none, and the notes have the
same number and the same reason -/
inductive Frame.Alike {κ μ : Type} (number : κ → UInt16) (number' : μ → UInt16) : Frame κ → Frame μ → Prop where
  | text (s : String) : Alike number number' (.text s) (.text s)
  | binary (b : Bytes) : Alike number number' (.binary b) (.binary b)
  | ping (b : Bytes) : Alike number number' (.ping b) (.ping b)
  | pong (b : Bytes) : Alike number number' (.pong b) (.pong b)
  | close : Alike number number' (.close none) (.close none)
  | closeNote (n : CloseNote κ) (n' : CloseNote μ) (hcode : number n.code = number' n'.code)
      (hreason : n.reason = n'.reason) : Alike number number' (.close (some n)) (.close (some n'))

theorem Frame.alike_mapCode {κ μ : Type} {number : κ → UInt16} {number' : μ → UInt16} {g : κ → μ}
    (hg : ∀ c, number c = number' (g c)) (f : Frame κ) : Alike number number' f (f.mapCode g) := by
  cases f with
  | text s => exact .text s
  | binary b => exact .binary b
  | ping b => exact .ping b
  | pong b => exact .pong b
  | close note =>
    cases note with
    | none => exact .close
    | some n => exact .closeNote n _ (hg n.code) rfl

namespace Leg

/-- the form of the close codes that a leg reads -/
abbrev Incoming : Leg → Type
  | .inbound => UInt16
  | .outbound => CloseCode

/-- the form of the close codes that a leg writes -/
abbrev Outgoing : Leg → Type
  | .inbound => CloseCode
  | .outbound => UInt16

/-- the number of a close code that a leg reads -/
def incomingNumber : (leg : Leg) → leg.Incoming → UInt16
  | .inbound => id
  | .outbound => CloseCode.number

/-- the number of a close code that a leg writes -/
def outgoingNumber : (leg : Leg) → leg.Outgoing → UInt16
  | .inbound => CloseCode.number
  | .outbound => id

/-- what a leg writes for a frame -/
def image : (leg : Leg) → Frame leg.Incoming → Frame leg.Outgoing
  | .inbound => Frame.forBackend
  | .outbound => Frame.forCaller

theorem alike_image (leg : Leg) (f : Frame leg.Incoming) :
    Frame.Alike leg.incomingNumber leg.outgoingNumber f (leg.image f) := by
  cases leg with
  | inbound =>
    apply Frame.alike_mapCode
    intro n
    exact (CloseCode.number_ofNumber n).symm
  | outbound =>
    apply Frame.alike_mapCode
    intro c
    rfl

@[simp] theorem isClose_image (leg : Leg) (f : Frame leg.Incoming) : (leg.image f).isClose = f.isClose := by
  cases leg <;> cases f <;> rfl

end Leg

/-! ## Readings -/

namespace Reading

variable {κ : Type}

/-- a pump reads on after such a reading: a frame that is no close, or a raw one -/
def Passes : Reading κ → Prop
  | .frame f => f.isClose = false
  | .raw => True
  | .failed _ => False
  | .ended => False

def frame? : Reading κ → Option (Frame κ)
  | .frame f => some f
  | _ => none

/-- the frames of a source, in order; a raw one has no counterpart and does not count -/
def frames (rs : List (Reading κ)) : List (Frame κ) := rs.filterMap frame?

theorem frames_append (rs rs' : List (Reading κ)) : frames (rs ++ rs') = frames rs ++ frames rs' :=
  List.filterMap_append

@[simp] theorem frames_concat_frame (rs : List (Reading κ)) (f : Frame κ) :
    frames (rs ++ [.frame f]) = frames rs ++ [f] := frames_append rs [.frame f]

@[simp] theorem frames_concat_raw (rs : List (Reading κ)) : frames (rs ++ [.raw]) = frames rs :=
  (frames_append rs [.raw]).trans (List.append_nil _)

theorem isClose_of_mem_frames {rs : List (Reading κ)} (h : ∀ r ∈ rs, r.Passes) {f : Frame κ} (hf : f ∈ frames rs) :
    f.isClose = false := by
  obtain ⟨r, hr, hrf⟩ := List.mem_filterMap.1 hf
  have hpass := h r hr
  cases r with
  | frame g =>
    obtain rfl : g = f := Option.some.inj hrf
    exact hpass
  | raw => exact absurd hrf (by simp [frame?])
  | failed reason => exact absurd hpass id
  | ended => exact absurd hpass id

end Reading

/-! ## Ledgers -/

/-- what a pump has met and done, sorted -/
structure Ledger (leg : Leg) where
  /-- the readings after which it went on -/
  passed : List (Reading leg.Incoming) := []
  /-- the reading that it has in hand, or that was its last -/
  last : List (Reading leg.Incoming) := []
  /-- the answers after which it went on -/
  granted : List Writing := []
  /-- the answer that stopped it -/
  refused : List Writing := []
  /-- the close that it has sent -/
  closing : List (Frame leg.Outgoing) := []

/-- how a pump stands with its last reading, the answer that stopped it and the close that it has sent -/
inductive Last (leg : Leg) :
    PumpStage leg.Outgoing → List (Reading leg.Incoming) → List Writing → List (Frame leg.Outgoing) → Prop where
  | reading : Last leg .reading [] [] []
  | writing (f : Frame leg.Incoming) : Last leg (.writing (leg.image f)) [.frame f] [] []
  | ended (call : CallStage) : Last leg (.stopped .peerClosed call) [.ended] [] []
  | closed (f : Frame leg.Incoming) (call : CallStage) (hf : f.isClose = true) :
      Last leg (.stopped .peerClosed call) [.frame f] [] [leg.image f]
  | unread (reason : String) (call : CallStage) :
      Last leg (.stopped (.fault (.read leg reason)) call) [.failed reason] [] []
  | unsent (f : Frame leg.Incoming) (reason : String) (call : CallStage) :
      Last leg (.stopped (.fault (.write leg reason)) call) [.frame f] [.failed reason] []
  | unasked (call : CallStage) : Last leg (.stopped .cancelled call) [] [] []
  | dropped (f : Frame leg.Incoming) (call : CallStage) : Last leg (.stopped .cancelled call) [.frame f] [] []

/-- a pump that was given these readings and these answers stands as its ledger tells -/
structure Tally {leg : Leg} (reads : List (Reading leg.Incoming)) (takes : List Writing)
    (p : Pump leg.Incoming leg.Outgoing) (l : Ledger leg) : Prop where
  reads_eq : reads = l.passed ++ l.last ++ p.source
  takes_eq : takes = l.granted ++ l.refused ++ p.sink
  passes : ∀ r ∈ l.passed, r.Passes
  grants : ∀ w ∈ l.granted, w = .accepted
  sent_eq : p.sent = (Reading.frames l.passed).map leg.image ++ l.closing
  last : Last leg p.stage l.last l.refused l.closing

variable {leg : Leg} {reads : List (Reading leg.Incoming)} {takes : List Writing} {p : Pump leg.Incoming leg.Outgoing}
  {l : Ledger leg} {how : LegEnd} {call : CallStage}

theorem tally_start (reads : List (Reading leg.Incoming)) (takes : List Writing) :
    Tally reads takes { source := reads, sink := takes } ({} : Ledger leg) where
  reads_eq := rfl
  takes_eq := rfl
  passes := fun _ hr => absurd hr List.not_mem_nil
  grants := fun _ hw => absurd hw List.not_mem_nil
  sent_eq := rfl
  last := .reading

/-- the call to complete the latch makes no difference to the ledger -/
theorem Last.report {last : List (Reading leg.Incoming)} {refused : List Writing} {closing : List (Frame leg.Outgoing)}
    (h : Last leg (.stopped how call) last refused closing) (call' : CallStage) :
    Last leg (.stopped how call') last refused closing := by
  cases h with
  | ended => exact .ended call'
  | closed f _ hf => exact .closed f call' hf
  | unread reason => exact .unread reason call'
  | unsent f reason => exact .unsent f reason call'
  | unasked => exact .unasked call'
  | dropped f => exact .dropped f call'

theorem Tally.report (h : Tally reads takes p l) (latch : Latch) : Tally reads takes (p.report leg latch).1 l := by
  obtain ⟨stage, source, sink, sent⟩ := p
  cases stage with
  | reading => exact h
  | writing g => exact h
  | stopped how call => exact { h with last := Last.report h.last _ }

/-- a sink accepts the frame in hand, with an answer or without -/
theorem Tally.accept {g : Frame leg.Outgoing} (h : Tally reads takes p l) (hg : p.stage = .writing g)
    (answer sink : List Writing) (hsink : p.sink = answer ++ sink) (hanswer : ∀ w ∈ answer, w = .accepted) :
    ∃ l', Tally reads takes { p.accept g with sink := sink } l' := by
  obtain ⟨stage, source, sink', sent⟩ := p
  obtain ⟨passed, last, granted, refused, closing⟩ := l
  obtain ⟨hreads, htakes, hpasses, hgrants, hsent, hlast⟩ := h
  dsimp only at hg hsink hreads htakes hpasses hgrants hsent hlast
  subst hg hsink
  cases hlast with
  | writing f =>
    have htakes' : takes = granted ++ answer ++ [] ++ sink := by simpa using htakes
    have hgrants' : ∀ w ∈ granted ++ answer, w = .accepted := List.forall_mem_append.2 ⟨hgrants, hanswer⟩
    by_cases hf : f.isClose = true
    · -- a close is the last
      refine ⟨⟨passed, [.frame f], granted ++ answer, [], [leg.image f]⟩, hreads, htakes', hpasses, hgrants', ?_, ?_⟩
      · simp [Pump.accept, hsent]
      · simpa [Pump.accept, hf] using Last.closed f .begun hf
    · rw [Bool.not_eq_true] at hf
      refine ⟨⟨passed ++ [.frame f], [], granted ++ answer, [], []⟩, ?_, htakes', ?_, hgrants', ?_, ?_⟩
      · simpa [Pump.accept] using hreads
      · exact List.forall_mem_append.2 ⟨hpasses, List.forall_mem_singleton.2 hf⟩
      · simp [Pump.accept, hsent]
      · simpa [Pump.accept, hf] using Last.reading

/-- what a pump that reads makes of its next reading -/
theorem Tally.read {r : Reading leg.Incoming} {rest : List (Reading leg.Incoming)} (h : Tally reads takes p l)
    (hstage : p.stage = .reading) (hsource : p.source = r :: rest) :
    ∃ l', Tally reads takes (p.select leg leg.image false) l' := by
  obtain ⟨stage, source, sink, sent⟩ := p
  obtain ⟨passed, last, granted, refused, closing⟩ := l
  obtain ⟨hreads, htakes, hpasses, hgrants, hsent, hlast⟩ := h
  dsimp only at hstage hsource hreads htakes hpasses hgrants hsent hlast
  subst hstage hsource
  cases hlast with
  | reading =>
    have hreads' : reads = passed ++ [r] ++ rest := by simpa using hreads
    cases r with
    | frame f => exact ⟨⟨passed, [.frame f], granted, [], []⟩, hreads', htakes, hpasses, hgrants, hsent, .writing f⟩
    | raw =>
      refine ⟨⟨passed ++ [.raw], [], granted, [], []⟩, ?_, htakes, ?_, hgrants, ?_, .reading⟩
      · simpa [Pump.select] using hreads
      · exact List.forall_mem_append.2 ⟨hpasses, List.forall_mem_singleton.2 trivial⟩
      · simpa [Pump.select] using hsent
    | failed reason =>
      exact ⟨⟨passed, [.failed reason], granted, [], []⟩, hreads', htakes, hpasses, hgrants, hsent, .unread reason _⟩
    | ended => exact ⟨⟨passed, [.ended], granted, [], []⟩, hreads', htakes, hpasses, hgrants, hsent, .ended _⟩

/-- what a pump that writes makes of the answer of its sink -/
theorem Tally.write {g : Frame leg.Outgoing} (h : Tally reads takes p l) (hstage : p.stage = .writing g) :
    ∃ l', Tally reads takes (p.select leg leg.image false) l' := by
  rcases Pump.select_writing hstage with ⟨answer, sink, hsink, hanswer, hselect⟩ | ⟨reason, sink, hsink, hselect⟩ |
    ⟨sink, -, hselect⟩
  · rw [hselect]
    exact h.accept hstage answer sink hsink hanswer
  · obtain ⟨passed, last, granted, refused, closing⟩ := l
    obtain ⟨hreads, htakes, hpasses, hgrants, hsent, hlast⟩ := h
    rw [hstage] at hlast
    cases hlast with
    | writing f =>
      have htakes' : takes = granted ++ [.failed reason] ++ sink := by simpa [hsink] using htakes
      rw [hselect]
      exact ⟨⟨passed, [.frame f], granted, [.failed reason], []⟩, hreads, htakes', hpasses, hgrants, hsent,
        .unsent f reason _⟩
  · rw [hselect]
    exact ⟨l, h⟩

theorem Last.cancel {stage : PumpStage leg.Outgoing} {last : List (Reading leg.Incoming)} {refused : List Writing}
    {closing : List (Frame leg.Outgoing)} (h : Last leg stage last refused closing)
    (hs : ∀ how call, stage ≠ .stopped how call) : Last leg (.stopped .cancelled .begun) last refused closing := by
  cases h with
  | reading => exact .unasked .begun
  | writing f => exact .dropped f .begun
  | _ => exact absurd rfl (hs _ _)

/-- **A step keeps a ledger**, whatever it finds at the latch, in the source and at the sink. -/
theorem Tally.select (h : Tally reads takes p l) (done : Bool) :
    ∃ l', Tally reads takes (p.select leg leg.image done) l' := by
  by_cases hm : p.standing = .moving
  · have hmoving : ∀ how call, p.stage ≠ .stopped how call := by
      intro how call hstop
      exact Standing.noConfusion (hm.symm.trans (Pump.standing_eq_stopped.2 hstop))
    cases done with
    | true =>
      rw [Pump.select_open hm]
      exact ⟨l, { h with last := h.last.cancel hmoving }⟩
    | false =>
      cases hs : p.stage with
      | reading =>
        cases hsource : p.source with
        | nil =>
          have hselect : p.select leg leg.image false = p := by simp [Pump.select, hs, hsource]
          rw [hselect]
          exact ⟨l, h⟩
        | cons r rest => exact h.read hs hsource
      | writing g => exact h.write hs
      | stopped how call => exact absurd hs (hmoving how call)
  · rw [Pump.select_of_stopped hm]
    exact ⟨l, h⟩

/-! ## What a ledger tells -/

/-- the pump has left its loop with this end -/
def Pump.HasStopped {κ μ : Type} (p : Pump κ μ) (how : LegEnd) : Prop := ∃ call, p.stage = .stopped how call

namespace Ledger

/-- all that was taken from the source -/
def taken (l : Ledger leg) : List (Reading leg.Incoming) := l.passed ++ l.last

/-- all that the sink has answered -/
def asked (l : Ledger leg) : List Writing := l.granted ++ l.refused

end Ledger

section

variable {stage : PumpStage leg.Outgoing} {last : List (Reading leg.Incoming)} {refused : List Writing}
  {closing : List (Frame leg.Outgoing)}

theorem Last.closing_cases (h : Last leg stage last refused closing) :
    closing = [] ∨ ∃ f, f.isClose = true ∧ last = [.frame f] ∧ closing = [leg.image f] := by
  cases h with
  | closed f call hf => exact Or.inr ⟨f, hf, rfl, rfl⟩
  | _ => exact Or.inl rfl

theorem Last.eq_nil_or_singleton (h : Last leg stage last refused closing) : last = [] ∨ ∃ r, last = [r] := by
  cases h with
  | reading => exact Or.inl rfl
  | unasked => exact Or.inl rfl
  | _ => exact Or.inr ⟨_, rfl⟩

theorem Last.peerClosed_iff (h : Last leg stage last refused closing) :
    (∃ call, stage = .stopped .peerClosed call) ↔ .ended ∈ last ∨ ∃ g ∈ closing, g.isClose = true := by
  cases h with
  | closed f call hf => simp [hf]
  | _ => simp

theorem Last.read_iff (h : Last leg stage last refused closing) (reason : String) :
    (∃ call, stage = .stopped (.fault (.read leg reason)) call) ↔ .failed reason ∈ last := by
  cases h <;> simp [eq_comm]

theorem Last.write_iff (h : Last leg stage last refused closing) (reason : String) :
    (∃ call, stage = .stopped (.fault (.write leg reason)) call) ↔ .failed reason ∈ refused := by
  cases h <;> simp [eq_comm]

theorem Last.isOwn (h : Last leg stage last refused closing) (hstage : stage = .stopped how call)
    (hhow : how ≠ .cancelled) : how.IsOwn leg := by
  cases h with
  | reading => exact absurd hstage (by simp)
  | writing f => exact absurd hstage (by simp)
  | ended => exact (PumpStage.stopped.inj hstage).1 ▸ Or.inl rfl
  | closed => exact (PumpStage.stopped.inj hstage).1 ▸ Or.inl rfl
  | unread reason => exact (PumpStage.stopped.inj hstage).1 ▸ Or.inr ⟨reason, Or.inl rfl⟩
  | unsent f reason => exact (PumpStage.stopped.inj hstage).1 ▸ Or.inr ⟨reason, Or.inr rfl⟩
  | unasked => exact absurd (PumpStage.stopped.inj hstage).1.symm hhow
  | dropped f => exact absurd (PumpStage.stopped.inj hstage).1.symm hhow

end

/-- the frames that were sent are the images of the first ones that were read, and only the last of them can be a
close -/
theorem Tally.exists_frames (h : Tally reads takes p l) : ∃ fs, fs <+: Reading.frames l.taken ∧
    p.sent = fs.map leg.image ∧ ∀ f ∈ fs.dropLast, f.isClose = false := by
  have hopen : ∀ f ∈ Reading.frames l.passed, f.isClose = false := by
    intro f hf
    exact Reading.isClose_of_mem_frames h.passes hf
  rcases h.last.closing_cases with hnone | ⟨f, -, hlast, hclosing⟩
  · refine ⟨Reading.frames l.passed, ?_, ?_, ?_⟩
    · rw [Ledger.taken, Reading.frames_append]
      exact List.prefix_append _ _
    · rw [h.sent_eq, hnone, List.append_nil]
    · intro f hf
      exact hopen f (List.mem_of_mem_dropLast hf)
  · refine ⟨Reading.frames l.passed ++ [f], ?_, ?_, ?_⟩
    · rw [Ledger.taken, hlast, Reading.frames_concat_frame]
    · rw [h.sent_eq, hclosing, List.map_append]
      rfl
    · rw [List.dropLast_concat]
      exact hopen

theorem Tally.forall₂_take (h : Tally reads takes p l) : ∃ n ≤ (Reading.frames l.taken).length,
    List.Forall₂ (Frame.Alike leg.incomingNumber leg.outgoingNumber) ((Reading.frames reads).take n) p.sent ∧
      ∀ f ∈ ((Reading.frames reads).take n).dropLast, f.isClose = false := by
  obtain ⟨fs, hprefix, hsent, hopen⟩ := h.exists_frames
  have hreads : fs <+: Reading.frames reads := by
    rw [h.reads_eq, Reading.frames_append]
    exact hprefix.trans (List.prefix_append _ _)
  refine ⟨fs.length, hprefix.length_le, ?_⟩
  rw [← List.prefix_iff_eq_take.1 hreads]
  refine ⟨?_, hopen⟩
  rw [hsent, List.forall₂_map_right_iff, List.forall₂_same]
  intro f _
  exact leg.alike_image f

/-- what stands before the last thing that was read has let the pump read on -/
theorem Tally.passes_of_taken (h : Tally reads takes p l) {front back : List (Reading leg.Incoming)}
    {r : Reading leg.Incoming} (htaken : l.taken = front ++ r :: back) (hback : back ≠ []) : r.Passes := by
  obtain ⟨back', x, rfl⟩ := (List.eq_nil_or_concat back).resolve_left hback
  apply h.passes
  have hconcat : l.passed ++ l.last = (front ++ r :: back') ++ [x] := by simpa [Ledger.taken] using htaken
  rcases h.last.eq_nil_or_singleton with hlast | ⟨y, hlast⟩
  · rw [hlast, List.append_nil] at hconcat
    simp [hconcat]
  · rw [hlast] at hconcat
    obtain ⟨hpassed, -⟩ := List.append_inj' hconcat rfl
    simp [hpassed]

theorem Tally.nil_of_close (h : Tally reads takes p l) {front back : List (Reading leg.Incoming)}
    {f : Frame leg.Incoming} (htaken : l.taken = front ++ .frame f :: back) (hf : f.isClose = true) : back = [] := by
  by_contra hback
  have hopen : f.isClose = false := h.passes_of_taken htaken hback
  exact Bool.noConfusion (hf.symm.trans hopen)

theorem Tally.hasStopped_peerClosed_iff (h : Tally reads takes p l) :
    p.HasStopped .peerClosed ↔ .ended ∈ l.taken ∨ ∃ g ∈ p.sent, g.isClose = true := by
  have hended : .ended ∉ l.passed := fun hmem => h.passes _ hmem
  have hopen : ∀ g ∈ (Reading.frames l.passed).map leg.image, g.isClose = false := by
    intro g hg
    obtain ⟨f, hf, rfl⟩ := List.mem_map.1 hg
    rw [Leg.isClose_image]
    exact Reading.isClose_of_mem_frames h.passes hf
  have hsent : (∃ g ∈ p.sent, g.isClose = true) ↔ ∃ g ∈ l.closing, g.isClose = true := by
    rw [h.sent_eq]
    constructor
    · rintro ⟨g, hg, hclose⟩
      rcases List.mem_append.1 hg with hg | hg
      · exact Bool.noConfusion (hclose.symm.trans (hopen g hg))
      · exact ⟨g, hg, hclose⟩
    · rintro ⟨g, hg, hclose⟩
      exact ⟨g, List.mem_append_right _ hg, hclose⟩
  rw [Ledger.taken, List.mem_append, or_iff_right hended, hsent]
  exact h.last.peerClosed_iff

theorem Tally.hasStopped_read_iff (h : Tally reads takes p l) (reason : String) :
    p.HasStopped (.fault (.read leg reason)) ↔ .failed reason ∈ l.taken := by
  have hfailed : .failed reason ∉ l.passed := fun hmem => h.passes _ hmem
  rw [Ledger.taken, List.mem_append, or_iff_right hfailed]
  exact h.last.read_iff reason

theorem Tally.hasStopped_write_iff (h : Tally reads takes p l) (reason : String) :
    p.HasStopped (.fault (.write leg reason)) ↔ .failed reason ∈ l.asked := by
  have hfailed : .failed reason ∉ l.granted := fun hmem => Writing.noConfusion (h.grants _ hmem)
  rw [Ledger.asked, List.mem_append, or_iff_right hfailed]
  exact h.last.write_iff reason

theorem Tally.isOwn (h : Tally reads takes p l) (hstop : p.HasStopped how) (hhow : how ≠ .cancelled) :
    how.IsOwn leg := by
  obtain ⟨call, hstage⟩ := hstop
  exact h.last.isOwn hstage hhow

end MachineGateway.Relay
