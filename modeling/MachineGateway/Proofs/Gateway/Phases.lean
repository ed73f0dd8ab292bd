/-
What the phases of a gateway give: for `intake` the route and the query of a request, for `engage` the backend that the
listing has for the machine that was asked for, for `handle` the listings that were asked for.
-/
import MachineGateway.Gateway.Handling
import MachineGateway.Proofs.Machine.Selection

namespace MachineGateway

open Http

/-- a machine that was asked for by its name is selected by that name -/
theorem Dialing.name_of_resolve {d : Dialing} {l : Listing} {name : String} {selector : Selector} {b : Backend}
    (h : d.resolve (.ok l) (some name) selector = .ok b) : b.machine.name = name ∧ b.machine.isRunning = true := by
  obtain ⟨l', c, -, hfirst, -, hm, -⟩ := resolve_eq_ok_iff.1 h
  rw [hm]
  exact ⟨hfirst.serves.name name rfl, by simp [Machine.isRunning, hfirst.serves.running]⟩

/-- what a request is forwarded as: its URL is read as the URI that the client gets -/
theorem Forwarding.of_start_eq_ok {r : Request} {b : Backend} {pathAndQuery publicBase : String} {f : Forwarding}
    (h : start r b pathAndQuery publicBase = .ok f) :
    f.target = "http://" ++ b.endpoint.text ++ pathAndQuery ∧ Uri.parse f.target = .ok f.outbound.uri ∧
      f.backend = b ∧ f.publicBase = publicBase := by
  unfold start at h
  cases hu : Uri.parse ("http://" ++ b.endpoint.text ++ pathAndQuery) with
  | error e => simp [hu] at h
  | ok uri =>
    simp only [hu, Except.ok.injEq] at h
    subst h
    exact ⟨rfl, hu, rfl, rfl⟩

/-- a request is not forwarded only if its URL is no URI -/
theorem Forwarding.not_readable_of_start {r : Request} {b : Backend} {pathAndQuery publicBase : String}
    {e : GatewayError} (h : start r b pathAndQuery publicBase = .error e) :
    ¬ ∃ uri, Uri.parse ("http://" ++ b.endpoint.text ++ pathAndQuery) = .ok uri := by
  rintro ⟨uri, huri⟩
  simp [start, huri] at h

namespace Gateway

variable {σ : Type} {g : Gateway} {w : World σ} {connected : Bool} {s : σ} {r : Request} {name : Option String}
  {path : String}

/-! ## The phases -/

/-- whether the policy lets a request pass -/
def Admits (g : Gateway) (r : Request) : Prop :=
  (Upgrade.asksForSocket r.headers && !g.config.policy.permits (originOf r)) = false

theorem handle_of_answer {a : Response} (h : g.intake r = .answer a) :
    g.handle w connected s r = (⟨some a, 0, none⟩, s) := by simp [handle, handleIn, h]

theorem listings_of_ask {job : Job} (h : g.intake r = .ask job) : (g.handle w connected s r).1.listings = 1 := by
  simp only [handle, handleIn, World.unheeding, h]
  cases g.engage connected r job (w.list s).1 with
  | answer a => rfl
  | relay url => rfl
  | forward f =>
    simp only
    cases f.finish g.config.timeout (w.exchange f.outbound (w.list s).2).1 <;> rfl

/-- what is asked for once the policy lets a request pass -/
theorem intake_of_admits (hroute : Route.ofPath r.uri.path = .machine name path) (h : g.Admits r) :
    g.intake r = .ask ⟨(RoutedQuery.ofQuery r.uri.query).name.or name,
      (RoutedQuery.ofQuery r.uri.query).attach path, Upgrade.asksForSocket r.headers⟩ := by
  simp only [Admits] at h
  simp [intake, hroute, intakeJob, h]

/-- a request is passed on only by its route and its query, and only if the policy lets it pass -/
theorem of_intake_eq_ask {job : Job} (h : g.intake r = .ask job) : g.Admits r ∧
    ∃ name path, Route.ofPath r.uri.path = .machine name path ∧
      job = ⟨(RoutedQuery.ofQuery r.uri.query).name.or name, (RoutedQuery.ofQuery r.uri.query).attach path,
        Upgrade.asksForSocket r.headers⟩ := by
  cases hroute : Route.ofPath r.uri.path with
  | health => simp [intake, hroute] at h
  | unreadable part => simp [intake, hroute] at h
  | machine name path =>
    by_cases hadmits : g.Admits r
    · rw [intake_of_admits hroute hadmits] at h
      exact ⟨hadmits, name, path, rfl, (Intake.ask.inj h).symm⟩
    · simp only [Admits, Bool.not_eq_false] at hadmits
      simp [intake, hroute, intakeJob, hadmits] at h

/-- what a gateway does with a listing: it gives up, or has a backend; then a socket is refused or accepted, and a plain
request is refused or forwarded -/
theorem engage_cases (g : Gateway) (connected : Bool) (r : Request) (job : Job)
    (listing : Except LookupError Listing) :
    (∃ e, g.dialing.resolve listing job.target g.config.service.selector = .error e ∧
      g.engage connected r job listing = .answer (GatewayError.lookup e).response) ∨
    ∃ b, g.dialing.resolve listing job.target g.config.service.selector = .ok b ∧
      ((job.socket = true ∧
          ((∃ f, Upgrade.handshakeFault? connected r = some f ∧
              g.engage connected r job listing = .answer (GatewayError.handshake f.message).response) ∨
            Upgrade.handshakeFault? connected r = none ∧
              g.engage connected r job listing = .relay ("ws://" ++ b.endpoint.text ++ job.pathAndQuery))) ∨
        job.socket = false ∧
          ((∃ e, Forwarding.start r b job.pathAndQuery (g.publicBase r job.target) = .error e ∧
              g.engage connected r job listing = .answer e.response) ∨
            ∃ f, Forwarding.start r b job.pathAndQuery (g.publicBase r job.target) = .ok f ∧
              g.engage connected r job listing = .forward f)) := by
  unfold engage
  cases g.dialing.resolve listing job.target g.config.service.selector with
  | error e => exact Or.inl ⟨e, rfl, rfl⟩
  | ok b =>
    refine Or.inr ⟨b, rfl, ?_⟩
    cases job.socket with
    | true =>
      refine Or.inl ⟨rfl, ?_⟩
      cases Upgrade.handshakeFault? connected r with
      | some f => exact Or.inl ⟨f, rfl, rfl⟩
      | none => exact Or.inr ⟨rfl, rfl⟩
    | false =>
      refine Or.inr ⟨rfl, ?_⟩
      cases hf : Forwarding.start r b job.pathAndQuery (g.publicBase r job.target) with
      | error e => exact Or.inl ⟨e, rfl, by simp [hf]⟩
      | ok f => exact Or.inr ⟨f, rfl, by simp [hf]⟩

theorem handle_of_engaged_answer {job : Job} {a : Response} (h : g.intake r = .ask job)
    (he : g.engage connected r job (w.list s).1 = .answer a) :
    g.handle w connected s r = (⟨some a, 1, none⟩, (w.list s).2) := by
  simp [handle, handleIn, World.unheeding, h, he]

theorem handle_of_relay {job : Job} {url : String} (h : g.intake r = .ask job)
    (he : g.engage connected r job (w.list s).1 = .relay url) :
    g.handle w connected s r = (⟨none, 1, some (.socket url)⟩, (w.list s).2) := by
  simp [handle, handleIn, World.unheeding, h, he]

theorem handle_of_forward {job : Job} {f : Forwarding} (h : g.intake r = .ask job)
    (he : g.engage connected r job (w.list s).1 = .forward f) : ∃ a,
    g.handle w connected s r =
      (⟨some a, 1, some (.http f.target)⟩, (w.exchange f.outbound (w.list s).2).2) := by
  cases hf : f.finish g.config.timeout (w.exchange f.outbound (w.list s).2).1 with
  | ok a => exact ⟨a, by simp [handle, handleIn, World.unheeding, h, he, hf]⟩
  | error e => exact ⟨e.response, by simp [handle, handleIn, World.unheeding, h, he, hf]⟩

/-- a request is forwarded only if it asks for no socket and its listing has a backend -/
theorem start_of_engage {job : Job} {listing : Except LookupError Listing} {f : Forwarding}
    (h : g.engage connected r job listing = .forward f) :
    ∃ b, g.dialing.resolve listing job.target g.config.service.selector = .ok b ∧ job.socket = false ∧
      Forwarding.start r b job.pathAndQuery (g.publicBase r job.target) = .ok f := by
  rcases g.engage_cases connected r job listing with
    ⟨e, -, he⟩ | ⟨b, hb, ⟨-, ⟨e, -, he⟩ | ⟨-, he⟩⟩ | ⟨hs, ⟨e, -, he⟩ | ⟨f', hf, hforward⟩⟩⟩
  · exact absurd (h.symm.trans he) (by simp)
  · exact absurd (h.symm.trans he) (by simp)
  · exact absurd (h.symm.trans he) (by simp)
  · exact absurd (h.symm.trans he) (by simp)
  · obtain rfl := Engagement.forward.inj (h.symm.trans hforward)
    exact ⟨b, hb, hs, hf⟩

/-- a forwarded request goes to the backend that the listing has for the machine that was asked for -/
theorem of_engage_eq_forward {job : Job} {listing : Except LookupError Listing} {f : Forwarding}
    (h : g.engage connected r job listing = .forward f) :
    g.dialing.resolve listing job.target g.config.service.selector = .ok f.backend ∧ job.socket = false ∧
      f.publicBase = g.publicBase r job.target := by
  obtain ⟨b, hb, hs, hf⟩ := start_of_engage h
  obtain ⟨-, -, hbackend, hbase⟩ := Forwarding.of_start_eq_ok hf
  exact ⟨hbackend ▸ hb, hs, hbase⟩

end Gateway

end MachineGateway
