/-
When an exchange is complete. The client reads a body piece by piece; what it has at last is said here of all pieces
together, however many there are (`Body.Ends`). An exchange ends with a response exactly if there is a head and, where
one is due, a whole body behind it (`Conduct.Ends`), and it is complete if that is so in time.
-/
import Mathlib.Tactic
import MachineGateway.Http.Conduct

namespace MachineGateway.Http

/-! ## Waiting -/

/-- a time is within a limit; no time at all always is -/
def InTime (limit : Span) (t : Nat) : Prop := t < limit.nanoseconds ∨ t = 0

namespace Awaited

variable {ε α β : Type} {a : Awaited ε α} {t t' : Nat} {result : Except ε α} {limit : Span}

theorem delayed_eq_gives_iff : a.delayed t' = gives t result ↔ ∃ t₀, a = gives t₀ result ∧ t = t' + t₀ := by
  cases a with
  | never => simp [delayed]
  | gives t₀ result' =>
    simp only [delayed, gives.injEq]
    constructor
    · rintro ⟨rfl, rfl⟩
      exact ⟨t₀, ⟨rfl, rfl⟩, rfl⟩
    · rintro ⟨t₁, ⟨rfl, rfl⟩, rfl⟩
      exact ⟨rfl, rfl⟩

/-- waiting for one thing and then another: the first fails, or the times add up -/
theorem andThen_eq_gives_iff {next : α → Awaited ε β} {result : Except ε β} : a.andThen next = gives t result ↔
    (∃ e, a = gives t (.error e) ∧ result = .error e) ∨
      ∃ t₁ x t₂, a = gives t₁ (.ok x) ∧ next x = gives t₂ result ∧ t = t₁ + t₂ := by
  cases a with
  | never => simp [andThen]
  | gives t₁ first =>
    cases first with
    | error e =>
      simp only [andThen, gives.injEq, Except.error.injEq, reduceCtorEq, and_false, false_and, exists_false, or_false]
      constructor
      · rintro ⟨rfl, rfl⟩
        exact ⟨e, ⟨rfl, rfl⟩, rfl⟩
      · rintro ⟨e', ⟨rfl, rfl⟩, rfl⟩
        exact ⟨rfl, rfl⟩
    | ok x =>
      simp only [andThen, delayed_eq_gives_iff, gives.injEq, Except.ok.injEq, reduceCtorEq, and_false, false_and,
        exists_false, false_or]
      constructor
      · rintro ⟨t₂, hnext, rfl⟩
        exact ⟨t₁, x, t₂, ⟨rfl, rfl⟩, hnext, rfl⟩
      · rintro ⟨_, _, t₂, ⟨rfl, rfl⟩, hnext, rfl⟩
        exact ⟨t₂, hnext, rfl⟩

theorem within_of_inTime (h : InTime limit t) : (gives t result).within limit.nanoseconds = some result := by
  rw [within, if_neg]
  simp only [Bool.and_eq_true, decide_eq_true_eq, not_and, Nat.not_lt, Nat.le_zero_eq]
  intro hle
  exact h.resolve_left (Nat.not_lt.2 hle)

theorem within_of_not_inTime (h : ∀ t result, a = gives t result → ¬ InTime limit t) :
    a.within limit.nanoseconds = none := by
  cases a with
  | never => rfl
  | gives t result =>
    have hlate := h t result rfl
    rw [within, if_pos]
    simp only [InTime, not_or, Nat.not_lt] at hlate
    simp only [Bool.and_eq_true, decide_eq_true_eq]
    exact ⟨hlate.1, Nat.pos_of_ne_zero hlate.2⟩

end Awaited

/-! ## Inflows -/

namespace Inflow

/-- the bytes of some pieces -/
def bytesOf (ps : List (Nat × Bytes)) : Bytes := ps.flatMap (·.2)

/-- how long some pieces take to come -/
def timeOf (ps : List (Nat × Bytes)) : Nat := (ps.map (·.1)).sum

variable {ε : Type} {enough : Bytes → Bool} {ending : Option (Nat × ε)} {arrived : Bytes}
  {before pieces : List (Nat × Bytes)} {p : Nat × Bytes}

@[simp]
theorem bytesOf_nil : bytesOf [] = [] := rfl

@[simp]
theorem bytesOf_cons : bytesOf (p :: pieces) = p.2 ++ bytesOf pieces := List.flatMap_cons

@[simp]
theorem timeOf_nil : timeOf [] = 0 := rfl

@[simp]
theorem timeOf_cons : timeOf (p :: pieces) = p.1 + timeOf pieces := List.sum_cons

theorem bytesOf_append (ps qs : List (Nat × Bytes)) : bytesOf (ps ++ qs) = bytesOf ps ++ bytesOf qs :=
  List.flatMap_append

/-- the shortest beginning of the pieces that is enough together with what has arrived -/
structure IsFirst (enough : Bytes → Bool) (arrived : Bytes) (before pieces : List (Nat × Bytes)) : Prop where
  begins : before <+: pieces
  isEnough : enough (arrived ++ bytesOf before) = true
  least : ∀ ps, ps <+: before → enough (arrived ++ bytesOf ps) = true → ps = before

theorem isFirst_nil (h : enough arrived = true) : IsFirst enough arrived [] pieces :=
  ⟨List.nil_prefix, by simpa using h, fun _ hps _ => List.prefix_nil.1 hps⟩

theorem IsFirst.cons (hno : enough arrived = false) (h : IsFirst enough (arrived ++ p.2) before pieces) :
    IsFirst enough arrived (p :: before) (p :: pieces) := by
  obtain ⟨hbegins, hwhole, hleast⟩ := h
  refine ⟨List.cons_prefix_cons.2 ⟨rfl, hbegins⟩, by simpa using hwhole, fun ps hps henough => ?_⟩
  rcases List.prefix_cons_iff.1 hps with rfl | ⟨rest, rfl, hrest⟩
  · simp [hno] at henough
  · rw [hleast rest hrest (by simpa using henough)]

/-- an inflow is read up to the first pieces that are enough, or else to its end -/
theorem read_cases (enough : Bytes → Bool) (finish : ε → Bytes → Except Failure Bytes) (ending : Option (Nat × ε))
    (arrived : Bytes) (pieces : List (Nat × Bytes)) :
    (∃ before, IsFirst enough arrived before pieces ∧
        read enough finish ending arrived pieces = .gives (timeOf before) (.ok (arrived ++ bytesOf before))) ∨
      (∀ ps, ps <+: pieces → enough (arrived ++ bytesOf ps) = false) ∧
        read enough finish ending arrived pieces = match ending with
          | none => .never
          | some (t, e) => .gives (timeOf pieces + t) (finish e (arrived ++ bytesOf pieces)) := by
  -- what has arrived is looked at before each piece, so the first pieces that are enough are the only ones taken
  induction pieces generalizing arrived with
  | nil =>
    cases hnow : enough arrived with
    | true => exact Or.inl ⟨[], isFirst_nil hnow, by simp [read, hnow]⟩
    | false =>
      refine Or.inr ⟨fun ps hps => by rw [List.prefix_nil.1 hps]; simpa using hnow, ?_⟩
      cases ending <;> simp [read, hnow]
  | cons p pieces ih =>
    cases hnow : enough arrived with
    | true => exact Or.inl ⟨[], isFirst_nil hnow, by simp [read, hnow]⟩
    | false =>
      have hread : read enough finish ending arrived (p :: pieces) =
          (read enough finish ending (arrived ++ p.2) pieces).delayed p.1 := by simp [read, hnow]
      rcases ih (arrived ++ p.2) with ⟨before, hfirst, heq⟩ | ⟨hnone, heq⟩
      · refine Or.inl ⟨p :: before, hfirst.cons hnow, ?_⟩
        simp [hread, heq, Awaited.delayed]
      · refine Or.inr ⟨fun ps hps => ?_, ?_⟩
        · rcases List.prefix_cons_iff.1 hps with rfl | ⟨rest, rfl, hrest⟩
          · simpa using hnow
          · simpa using hnone rest hrest
        · rw [hread, heq]
          rcases ending with _ | ⟨t, e⟩
          · rfl
          · simp [Awaited.delayed, Nat.add_assoc]

theorem IsFirst.unique {before' : List (Nat × Bytes)} (h : IsFirst enough arrived before pieces)
    (h' : IsFirst enough arrived before' pieces) : before = before' := by
  rcases List.prefix_or_prefix_of_prefix h.begins h'.begins with hle | hle
  · exact h'.least before hle h.isEnough
  · exact (h.least before' hle h'.isEnough).symm

/-- an inflow of which nothing is enough is read to its end -/
theorem read_to_end (finish : ε → Bytes → Except Failure Bytes) (ending : Option (Nat × ε))
    (pieces : List (Nat × Bytes)) :
    read (fun _ => false) finish ending [] pieces = match ending with
      | none => .never
      | some (t, e) => .gives (timeOf pieces + t) (finish e (bytesOf pieces)) := by
  rcases read_cases (fun _ => false) finish ending [] pieces with ⟨before, hfirst, -⟩ | ⟨-, heq⟩
  · exact absurd hfirst.isEnough (by simp)
  · exact heq

end Inflow

open Inflow

/-! ## Bodies -/

/-- when a body ends behind its head, and how -/
inductive Body.Ends : Body → Nat → Except Failure Bytes → Prop
  /-- with the first pieces that hold as many bytes as are announced -/
  | sized {n : Nat} {pieces before : List (Nat × Bytes)} {ending : Option (Nat × Close)}
      (hfirst : IsFirst (fun b => n ≤ b.length) [] before pieces) :
      Ends (.sized n ⟨pieces, ending⟩) (timeOf before) (.ok ((bytesOf before).take n))
  /-- with the connection, before as many bytes have come as are announced -/
  | tooShort {n t : Nat} {pieces : List (Nat × Bytes)} {how : Close} (hshort : (bytesOf pieces).length < n) :
      Ends (.sized n ⟨pieces, some (t, how)⟩) (timeOf pieces + t) (.error .cutShort)
  /-- with the last chunk -/
  | chunked {t : Nat} {pieces : List (Nat × Bytes)} :
      Ends (.chunked ⟨pieces, some (t, .last)⟩) (timeOf pieces + t) (.ok (bytesOf pieces))
  /-- with what is no chunk, or with the connection, before the last chunk -/
  | noChunk {t : Nat} {pieces : List (Nat × Bytes)} {e : ChunkEnd} (hlast : e ≠ .last) :
      Ends (.chunked ⟨pieces, some (t, e)⟩) (timeOf pieces + t) (.error .cutShort)
  /-- with the connection, as announced -/
  | toEnd {t : Nat} {pieces : List (Nat × Bytes)} :
      Ends (.toEnd ⟨pieces, some (t, .orderly)⟩) (timeOf pieces + t) (.ok (bytesOf pieces))
  /-- with the connection, when it is lost -/
  | lost {t : Nat} {pieces : List (Nat × Bytes)} :
      Ends (.toEnd ⟨pieces, some (t, .lost)⟩) (timeOf pieces + t) (.error .cutShort)

namespace Body

variable {n t : Nat} {pieces : List (Nat × Bytes)} {result : Except Failure Bytes}

/-- a beginning of the pieces that is long enough leaves none too short -/
theorem not_short_of_isFirst {before : List (Nat × Bytes)} (h : IsFirst (fun b => n ≤ b.length) [] before pieces) :
    n ≤ (bytesOf pieces).length := by
  obtain ⟨rest, rfl⟩ := h.begins
  have hle : n ≤ (bytesOf before).length := by simpa using h.isEnough
  rw [bytesOf_append, List.length_append]
  exact hle.trans (Nat.le_add_right _ _)

theorem collect_sized_iff {ending : Option (Nat × Close)} :
    (sized n ⟨pieces, ending⟩).collect = .gives t result ↔ (sized n ⟨pieces, ending⟩).Ends t result := by
  rcases read_cases (fun b => n ≤ b.length) (fun _ _ => .error .cutShort) ending [] pieces with
    ⟨before, hfirst, hread⟩ | ⟨hnone, hread⟩
  · have hcollect : (sized n ⟨pieces, ending⟩).collect =
        .gives (timeOf before) (.ok ((bytesOf before).take n)) := by
      simp [collect, hread, Awaited.andThen, Awaited.delayed]
    rw [hcollect]
    constructor
    · rintro ⟨⟩
      exact .sized hfirst
    · rintro (⟨hfirst'⟩ | ⟨hshort⟩)
      · rw [hfirst.unique hfirst']
      · exact absurd (not_short_of_isFirst hfirst) (Nat.not_le.2 hshort)
  · have hshort : (bytesOf pieces).length < n := by simpa using hnone pieces (List.prefix_refl pieces)
    rcases ending with _ | ⟨t', how⟩
    · have hcollect : (sized n ⟨pieces, none⟩).collect = .never := by simp [collect, hread, Awaited.andThen]
      rw [hcollect]
      refine ⟨nofun, ?_⟩
      rintro ⟨hfirst⟩
      exact absurd (not_short_of_isFirst hfirst) (Nat.not_le.2 hshort)
    · have hcollect : (sized n ⟨pieces, some (t', how)⟩).collect =
          .gives (timeOf pieces + t') (.error .cutShort) := by simp [collect, hread, Awaited.andThen]
      rw [hcollect]
      constructor
      · rintro ⟨⟩
        exact .tooShort hshort
      · rintro (⟨hfirst⟩ | ⟨-⟩)
        · exact absurd (not_short_of_isFirst hfirst) (Nat.not_le.2 hshort)
        · rfl

theorem collect_chunked_iff {ending : Option (Nat × ChunkEnd)} :
    (chunked ⟨pieces, ending⟩).collect = .gives t result ↔ (chunked ⟨pieces, ending⟩).Ends t result := by
  rw [collect, read_to_end]
  rcases ending with _ | ⟨t', e⟩
  · exact ⟨fun h => (nomatch h), fun h => (nomatch h)⟩
  · constructor
    · rintro ⟨⟩
      cases e with
      | last => exact .chunked
      | garbage => exact .noChunk (by decide)
      | closed how => exact .noChunk nofun
    · rintro (- | - | - | ⟨hlast⟩)
      · rfl
      · cases e with
        | last => exact absurd rfl hlast
        | garbage => rfl
        | closed how => rfl

theorem collect_toEnd_iff {ending : Option (Nat × Close)} :
    (toEnd ⟨pieces, ending⟩).collect = .gives t result ↔ (toEnd ⟨pieces, ending⟩).Ends t result := by
  rw [collect, read_to_end]
  rcases ending with _ | ⟨t', how⟩
  · exact ⟨fun h => (nomatch h), fun h => (nomatch h)⟩
  · constructor
    · rintro ⟨⟩
      cases how with
      | orderly => exact .toEnd
      | lost => exact .lost
    · rintro ⟨⟩
      · rfl
      · rfl

/-- **What is collected of a body is what it ends with,** however many pieces it comes in. -/
theorem collect_eq_gives_iff {body : Body} : body.collect = .gives t result ↔ body.Ends t result := by
  cases body with
  | sized n s => exact collect_sized_iff
  | chunked s => exact collect_chunked_iff
  | toEnd s => exact collect_toEnd_iff

end Body

/-! ## Exchanges -/

/-- a response that ends with its head, by the method or the status -/
def Incoming.IsBodiless (method : String) (r : Incoming) : Prop :=
  method = "HEAD" ∨ isBodiless r.status = true ∨ method = "CONNECT" ∧ isSuccess r.status = true

theorem Incoming.isBodiless_iff {method : String} {r : Incoming} :
    r.IsBodiless method ↔ endsWithHead method r.status = true := by
  simp [IsBodiless, endsWithHead, or_assoc]

theorem Incoming.collect_of_bodiless {method : String} {r : Incoming} (h : r.IsBodiless method) :
    r.collect method = .gives 0 (.ok ⟨r.status, r.headers, []⟩) := by
  rw [collect, if_pos (isBodiless_iff.1 h)]

theorem Incoming.collect_eq_gives_iff {method : String} {r : Incoming} {t : Nat} {result : Except Failure Response}
    (h : ¬ r.IsBodiless method) : r.collect method = .gives t result ↔
      (∃ e, r.body.Ends t (.error e) ∧ result = .error e) ∨
        ∃ b, r.body.Ends t (.ok b) ∧ result = .ok ⟨r.status, r.headers, b⟩ := by
  rw [collect, if_neg (mt isBodiless_iff.2 h), Awaited.andThen_eq_gives_iff]
  simp only [Body.collect_eq_gives_iff, Awaited.gives.injEq]
  refine or_congr_right ⟨?_, ?_⟩
  · rintro ⟨t', b, _, hends, ⟨rfl, rfl⟩, rfl⟩
    exact ⟨b, hends, rfl⟩
  · rintro ⟨b, hends, rfl⟩
    exact ⟨t, b, 0, hends, ⟨rfl, rfl⟩, rfl⟩

namespace Conduct

/-- when an exchange ends if it is given the time, and how -/
inductive Ends (method : String) : Conduct → Nat → Except Failure Response → Prop
  | refused {t : Nat} : Ends method (.refused t) t (.error .noConnection)
  | unanswered {t : Nat} : Ends method (.unanswered t) t (.error .noResponse)
  | bodiless {t : Nat} {r : Incoming} (hbodiless : r.IsBodiless method) :
      Ends method (.answered t r) t (.ok ⟨r.status, r.headers, []⟩)
  | whole {t t' : Nat} {r : Incoming} {b : Bytes} (hdue : ¬ r.IsBodiless method) (hbody : r.body.Ends t' (.ok b)) :
      Ends method (.answered t r) (t + t') (.ok ⟨r.status, r.headers, b⟩)
  | broken {t t' : Nat} {r : Incoming} {e : Failure} (hdue : ¬ r.IsBodiless method)
      (hbody : r.body.Ends t' (.error e)) : Ends method (.answered t r) (t + t') (.error e)

variable {method : String} {c : Conduct} {t : Nat} {result : Except Failure Response} {limit : Span}

theorem awaits_iff : (c.request.andThen fun r => r.collect method) = .gives t result ↔ c.Ends method t result := by
  cases c with
  | refused t' => exact ⟨by rintro ⟨⟩; exact .refused, by rintro ⟨⟩; rfl⟩
  | unanswered t' => exact ⟨by rintro ⟨⟩; exact .unanswered, by rintro ⟨⟩; rfl⟩
  | silent => exact ⟨fun h => (nomatch h), fun h => (nomatch h)⟩
  | answered t' r =>
    simp only [request, Awaited.andThen, Awaited.delayed_eq_gives_iff]
    by_cases hbodiless : r.IsBodiless method
    · rw [Incoming.collect_of_bodiless hbodiless]
      constructor
      · rintro ⟨_, ⟨rfl, rfl⟩, rfl⟩
        exact .bodiless hbodiless
      · rintro (- | - | - | ⟨hdue, -⟩ | ⟨hdue, -⟩)
        · exact ⟨0, rfl, rfl⟩
        · exact absurd hbodiless hdue
        · exact absurd hbodiless hdue
    · simp only [Incoming.collect_eq_gives_iff hbodiless]
      constructor
      · rintro ⟨t₀, ⟨e, hends, rfl⟩ | ⟨b, hends, rfl⟩, rfl⟩
        · exact .broken hbodiless hends
        · exact .whole hbodiless hends
      · rintro (- | - | hbodiless' | ⟨-, hends⟩ | ⟨-, hends⟩)
        · exact absurd hbodiless' hbodiless
        · exact ⟨_, Or.inr ⟨_, hends, rfl⟩, rfl⟩
        · exact ⟨_, Or.inl ⟨_, hends, rfl⟩, rfl⟩

/-- an exchange ends once -/
theorem Ends.unique {t' : Nat} {result' : Except Failure Response} (h : c.Ends method t result)
    (h' : c.Ends method t' result') : result = result' :=
  (Awaited.gives.inj ((awaits_iff.2 h).symm.trans (awaits_iff.2 h'))).2

theorem exchange_of_ends_ok {r : Response} (h : c.Ends method t (.ok r)) (htime : InTime limit t) :
    c.exchange method limit = .complete r := by
  rw [exchange, awaits_iff.2 h, Awaited.within_of_inTime htime]

theorem exchange_of_ends_error {e : Failure} (h : c.Ends method t (.error e)) (htime : InTime limit t) :
    c.exchange method limit = e.exchange := by
  rw [exchange, awaits_iff.2 h, Awaited.within_of_inTime htime]

theorem exchange_of_late (h : ∀ t result, c.Ends method t result → ¬ InTime limit t) :
    c.exchange method limit = .late := by
  rw [exchange, Awaited.within_of_not_inTime fun t result heq => h t result (awaits_iff.1 heq)]

end Conduct

end MachineGateway.Http
