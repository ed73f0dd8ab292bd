/-
All of a response or nothing of it. The caller of a forwarded request gets the backend's response if all of it is there
in time, and otherwise an error that tells the URL and what kind of failure it was (`answers_all_or_nothing`): whichever
part of the response was missing, the answer does not depend on the parts that were there.
-/
import MachineGateway.Proofs.Gateway.Transparency
import MachineGateway.Proofs.Http.Conduct

namespace MachineGateway

open Http Json

/-! ## The answer to a failure -/

namespace Forwarding

variable (f : Forwarding) (limit : Span)

/-- what the caller is told if an exchange fails, or if it takes too long -/
def reason : Option Failure → String
  | some .noConnection => f.target ++ ": client error (Connect)"
  | some .noResponse => f.target ++ ": client error (SendRequest)"
  | some .cutShort => "reading body from " ++ f.target ++ ": error reading a body from connection"
  | none => f.target ++ " timed out after " ++ limit.text

/-- the answer if an exchange fails, or if it takes too long -/
def refusal (cause : Option Failure) : Response := (GatewayError.backend (f.reason limit cause)).response

theorem finish_failure (e : Failure) : f.finish limit e.exchange = .error (.backend (f.reason limit (some e))) := by
  cases e <;> rfl

theorem finish_late : f.finish limit .late = .error (.backend (f.reason limit none)) := rfl

theorem target_infix_reason (cause : Option Failure) : f.target.toList <:+: (f.reason limit cause).toList := by
  rcases cause with _ | (- | - | -)
  · exact Text.infix_inner (Text.infix_first _ " timed out after ") limit.text
  · exact Text.infix_first _ _
  · exact Text.infix_first _ _
  · exact Text.infix_inner (Text.infix_last "reading body from " _) _

theorem refusal_eq (cause : Option Failure) : f.refusal limit cause =
    ⟨502, [Headers.textField "content-type" "application/json"],
      Utf8.encode (Doc.record [("error", .text ("Backend unreachable: " ++ f.reason limit cause)),
        ("kind", .text "backend_unreachable")]).render⟩ := by
  rfl

end Forwarding

/-- an answer that says that a URL could not be reached, and that goes out without its body to the caller of HEAD -/
structure IsBadGateway (target : String) (a : Response) : Prop where
  status : a.status = 502
  headers : a.headers = [Headers.textField "content-type" "application/json"]
  body : ∃ text, target.toList <:+: text.toList ∧
    a.body = Utf8.encode (Doc.record [("error", .text text), ("kind", .text "backend_unreachable")]).render
  delivered : ∀ method, a.delivered method =
    ⟨502, a.headers ++ [Headers.textField "content-length" (toString a.body.length)],
      if method = "HEAD" then [] else a.body⟩

theorem isBadGateway_of_text {target text : String} (h : target.toList <:+: text.toList) :
    IsBadGateway target ⟨502, [Headers.textField "content-type" "application/json"],
      Utf8.encode (Doc.record [("error", .text text), ("kind", .text "backend_unreachable")]).render⟩ where
  status := rfl
  headers := rfl
  body := by
    refine ⟨text, h, ?_⟩
    dsimp only
  delivered method := by
    have hnone : Headers.first? [Headers.textField "content-type" "application/json"] "content-length" = none := by
      decide +kernel
    simp only [Response.delivered, hnone, Option.isSome_none, Bool.false_eq_true, if_false]

theorem isBadGateway_refusal (f : Forwarding) (limit : Span) (cause : Option Failure) :
    IsBadGateway f.target (f.refusal limit cause) := by
  rw [f.refusal_eq]
  apply isBadGateway_of_text
  exact (f.target_infix_reason limit cause).trans (Text.infix_last _ _)

namespace Gateway

variable {σ : Type}

theorem response_of_failure {g : Gateway} {w : World σ} {connected : Bool} {s : σ} {r : Request} {job : Job}
    {f : Forwarding} {reason : String} (h : g.intake r = .ask job)
    (he : g.engage connected r job (w.list s).1 = .forward f)
    (hfails : f.finish g.config.timeout (w.exchange f.outbound (w.list s).2).1 = .error (.backend reason)) :
    (g.handle w connected s r).1.response = some (GatewayError.backend reason).response := by
  simp [handle, handleIn, World.unheeding, h, he, hfails]

/-- **The caller gets all of a response or nothing of it.** However a backend conducts itself towards a forwarded
request, its response is handed back if it is there in time with its whole body. Otherwise the answer is one of the four
that the URL and the time limit leave, by the kind of failure: it says that the URL could not be reached, and nothing of
what the backend has sent. -/
theorem answers_all_or_nothing (g : Gateway) (w : World σ) (connected : Bool) (s : σ) {r : Request} {job : Job}
    {f : Forwarding} {c : Conduct} (hjob : g.intake r = .ask job)
    (hforward : g.engage connected r job (w.list s).1 = .forward f)
    (hc : (w.exchange f.outbound (w.list s).2).1 = c.exchange f.outbound.method g.config.timeout) :
    f.target = "http://" ++ f.backend.endpoint.text ++ job.pathAndQuery ∧
      (∀ t response, c.Ends r.method t (.ok response) → InTime g.config.timeout t → ∃ answer,
        (g.handle w connected s r).1.response = some answer ∧ HandsBack f.backend f.publicBase response answer) ∧
      ((∀ t response, c.Ends r.method t (.ok response) → ¬ InTime g.config.timeout t) → ∃ cause,
        (g.handle w connected s r).1.response = some (f.refusal g.config.timeout cause) ∧
          IsBadGateway f.target (f.refusal g.config.timeout cause) ∧
          ∀ e, cause = some e ↔ ∃ t, c.Ends r.method t (.error e) ∧ InTime g.config.timeout t) := by
  obtain ⟨b, -, -, hstart⟩ := start_of_engage hforward
  obtain ⟨htarget, -, hbackend, -⟩ := Forwarding.of_start_eq_ok hstart
  rw [(handsOn_of_start hstart).method] at hc
  refine ⟨by rw [htarget, hbackend], fun t response hends htime => ?_, fun hnone => ?_⟩
  · rw [c.exchange_of_ends_ok hends htime] at hc
    exact ⟨_, response_of_complete hjob hforward hc, handsBack_translate f response⟩
  by_cases hfails : ∃ t e, c.Ends r.method t (.error e) ∧ InTime g.config.timeout t
  · obtain ⟨t, e, hends, htime⟩ := hfails
    rw [c.exchange_of_ends_error hends htime] at hc
    have hanswer := response_of_failure hjob hforward (hc ▸ f.finish_failure g.config.timeout e)
    refine ⟨some e, hanswer, isBadGateway_refusal f _ _, fun e' => ⟨?_, ?_⟩⟩
    · rintro ⟨⟩
      exact ⟨t, hends, htime⟩
    · rintro ⟨t', hends', -⟩
      rw [Except.error.inj (hends.unique hends')]
  · have hlate : ∀ t result, c.Ends r.method t result → ¬ InTime g.config.timeout t := by
      rintro t (e | response) hends htime
      · exact hfails ⟨t, e, hends, htime⟩
      · exact hnone t response hends htime
    rw [c.exchange_of_late hlate] at hc
    have hanswer := response_of_failure hjob hforward (hc ▸ f.finish_late g.config.timeout)
    refine ⟨none, hanswer, isBadGateway_refusal f _ _, fun e => ⟨nofun, ?_⟩⟩
    rintro ⟨t, hends, htime⟩
    exact absurd ⟨t, e, hends, htime⟩ hfails

/-- a backend that answers with two chunks, and with something in the place of a third one -/
def twoChunks (e : ChunkEnd) : Conduct :=
  .answered 5 ⟨201, [Headers.textField "x-note" "secret"], .chunked ⟨[(1, [0x61]), (2, [0x62])], some (3, e)⟩, rfl⟩

/-- `movingWorld` with such a backend -/
def chunkedWorld (e : ChunkEnd) : World Nat :=
  { movingWorld with exchange := fun o n => ((twoChunks e).exchange o.method (.ofSeconds 10), n) }

/-- a plain request, and what it is forwarded as -/
def pageRequest : Request := { method := "GET", uri := { path := "/p" } }

def pageForwarding : Forwarding where
  target := "http://127.0.0.1:41000/p"
  outbound := ⟨"GET", ⟨some "http", some "127.0.0.1:41000", "/p", none⟩, [], []⟩
  backend := movingBackend
  publicBase := "localhost:3007"

/-- two chunks and the last one are handed back; of two chunks and the loss of the connection nothing is -/
theorem two_chunks_all_or_nothing :
    Gateway.intake {} pageRequest = .ask ⟨none, "/p", false⟩ ∧
      Gateway.engage {} false pageRequest ⟨none, "/p", false⟩ (movingWorld.list 0).1 = .forward pageForwarding ∧
      (∃ answer, (Gateway.handle {} (chunkedWorld .last) false 0 pageRequest).1.response = some answer ∧
        answer.status = 201 ∧ answer.body = [0x61, 0x62]) ∧
      ∃ answer, (Gateway.handle {} (chunkedWorld (.closed .lost)) false 0 pageRequest).1.response = some answer ∧
        answer = pageForwarding.refusal (.ofSeconds 10) (some .cutShort) ∧
        IsBadGateway "http://127.0.0.1:41000/p" answer := by
  have hjob : Gateway.intake {} pageRequest = .ask ⟨none, "/p", false⟩ := by decide +kernel
  have hforward : Gateway.engage {} false pageRequest ⟨none, "/p", false⟩ (movingWorld.list 0).1 =
      .forward pageForwarding := by decide +kernel
  have hdue : ∀ e, ¬ Incoming.IsBodiless "GET" ⟨201, [Headers.textField "x-note" "secret"], .chunked e, rfl⟩ := by
    simp [Incoming.IsBodiless, isBodiless]
  have hc : ∀ e, ((chunkedWorld e).exchange pageForwarding.outbound ((chunkedWorld e).list 0).2).1 =
      (twoChunks e).exchange pageForwarding.outbound.method (GatewayConfig.timeout {}) := fun _ => rfl
  refine ⟨hjob, hforward, ?_, ?_⟩
  · have hends : (twoChunks .last).Ends "GET" _ _ := .whole (hdue _) .chunked
    obtain ⟨-, hwhole, -⟩ := answers_all_or_nothing {} (chunkedWorld .last) false 0 hjob hforward (hc .last)
    obtain ⟨answer, hanswer, hback⟩ := hwhole _ _ hends (Or.inl (by decide))
    refine ⟨answer, hanswer, hback.status, ?_⟩
    rw [hback.text ((Forwarding.isRewritable_iff _).1 (by decide +kernel))]
    decide +kernel
  · have hends : (twoChunks (.closed .lost)).Ends "GET" _ _ := .broken (hdue _) (.noChunk (by simp))
    obtain ⟨-, -, hfails⟩ :=
      answers_all_or_nothing {} (chunkedWorld (.closed .lost)) false 0 hjob hforward (hc (.closed .lost))
    obtain ⟨cause, hanswer, hbad, hcause⟩ := hfails fun t response hok => absurd (hends.unique hok) (by simp)
    rw [(hcause .cutShort).2 ⟨_, hends, Or.inl (by decide)⟩] at hanswer hbad
    exact ⟨_, hanswer, rfl, hbad⟩

end Gateway

end MachineGateway
