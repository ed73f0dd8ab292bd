/-
Whom a gateway contacts. A world that keeps a record tells what was asked of it for one request (`account`): nothing,
or one listing, or one listing and one exchange, or one listing and one socket. Whoever is contacted is the first
machine of that very listing that serves what the request asks for (`Http.Request.AsksFor`), at its external port on the
shared host or at its internal port on its own host, as the mode says (`isProper_account`); health requests and origins
that are refused cost no listing, and where the listing has no backend for the request nobody is contacted. A run of any
length, in a world that answers as it likes, is a run of such requests (`contacts_right_machine`).
-/
import MachineGateway.Proofs.Gateway.Phases
import MachineGateway.Proofs.Gateway.Routing
import MachineGateway.Proofs.Gateway.RoutingParameter

namespace MachineGateway

open Http

/-! ## Paths of routed requests -/

/-- a path lead by a slash is routed with such a path -/
theorem Route.slash_of_ofPath {given path : String} {name : Option String} (hslash : given.toList.head? = some '/')
    (h : Route.ofPath given = .machine name path) : path.toList.head? = some '/' := by
  rcases Route.path_cases h with rfl | ⟨tail, -, rfl⟩
  · exact hslash
  · simp

theorem RoutedQuery.slash_of_attach {q : RoutedQuery} {path : String} (h : path.toList.head? = some '/') :
    (q.attach path).toList.head? = some '/' := by
  unfold RoutedQuery.attach
  split
  · exact h
  · split_ifs
    · exact h
    · simp [String.toList_append, List.head?_append, h]

/-! ## The machine that is asked for -/

/-- the machine that a request asks for: the one that its query names, or else the one that its path names, or any -/
inductive Http.Request.AsksFor (r : Request) : Option String → Prop
  | byQuery {name : String} (h : RoutedQuery.Names r.uri.query name) : r.AsksFor (some name)
  | byPath {name : String} (hquery : ∀ n, ¬ RoutedQuery.Names r.uri.query n) (h : Route.Names r.uri.path name) :
    r.AsksFor (some name)
  | any (hquery : ∀ n, ¬ RoutedQuery.Names r.uri.query n) (hpath : ∀ n, ¬ Route.Names r.uri.path n) : r.AsksFor none

/-- the machine that the route of a path names -/
def Route.nameIn (path : String) : Option String :=
  match Route.ofPath path with
  | .machine name _ => name
  | _ => none

/-- the machine that a request is routed to: the last one that its query names, or else the one that its route names -/
def Http.Request.wanted (r : Request) : Option String :=
  (RoutedQuery.namesIn r.uri.query).getLast?.or (Route.nameIn r.uri.path)

/-- a request that is routed to machines is routed to the one that it asks for -/
theorem Http.Request.asksFor_iff {r : Request} {path : String} {name target : Option String}
    (h : Route.ofPath r.uri.path = .machine name path) : r.AsksFor target ↔ target = r.wanted := by
  have hwanted : r.wanted = (RoutedQuery.namesIn r.uri.query).getLast?.or name := by
    simp [wanted, Route.nameIn, h]
  constructor
  · rintro (hn | ⟨hno, hn⟩ | ⟨hno, hnone⟩)
    · rw [hwanted, RoutedQuery.names_iff.1 hn, Option.some_or]
    · have hquery := Option.eq_none_iff_forall_ne_some.2 fun n hn => hno n (RoutedQuery.names_iff.2 hn)
      rw [hwanted, hquery, Option.none_or, (Route.names_iff h).1 hn]
    · have hquery := Option.eq_none_iff_forall_ne_some.2 fun n hn => hno n (RoutedQuery.names_iff.2 hn)
      have hpath := Option.eq_none_iff_forall_ne_some.2 fun n hn => hnone n ((Route.names_iff h).2 hn)
      rw [hwanted, hquery, Option.none_or, hpath]
  · rintro rfl
    rw [hwanted]
    cases hquery : (RoutedQuery.namesIn r.uri.query).getLast? with
    | some n => exact .byQuery (RoutedQuery.names_iff.2 hquery)
    | none =>
      have hno : ∀ n, ¬ RoutedQuery.Names r.uri.query n := fun n hn => by
        simp [RoutedQuery.names_iff.1 hn] at hquery
      rw [Option.none_or]
      cases name with
      | some n => exact .byPath hno ((Route.names_iff h).2 rfl)
      | none => exact .any hno fun n hn => by simpa using (Route.names_iff h).1 hn

/-! ## Accounts -/

/-- what a gateway asks of the world, with the answer where it is a listing -/
inductive Ask where
  | listing (answer : Except LookupError Listing)
  | exchange (o : Outbound)
  | dial (url : String)

/-- a request as it was handled, with what was asked for it in order -/
structure Account where
  handled : Handled
  asked : List Ask

namespace Account

/-- the answers of the listing calls -/
def listings (a : Account) : List (Except LookupError Listing) :=
  a.asked.filterMap fun | .listing answer => some answer | _ => none

/-- what was handed to the HTTP client -/
def exchanges (a : Account) : List Outbound :=
  a.asked.filterMap fun | .exchange o => some o | _ => none

/-- the URLs at which sockets were dialed -/
def dials (a : Account) : List String :=
  a.asked.filterMap fun | .dial url => some url | _ => none

end Account

variable {σ : Type}

/-- the world with a record of what it is asked and which sockets are dialed -/
def World.recorded (w : World σ) : SocketWorld (σ × List Ask) where
  list s := ((w.list s.1).1, (w.list s.1).2, s.2 ++ [.listing (w.list s.1).1])
  exchange o s := ((w.exchange o s.1).1, (w.exchange o s.1).2, s.2 ++ [.exchange o])
  dial url s := (s.1, s.2 ++ [.dial url])

namespace Gateway

/-- the account of one request, and the world after it -/
def account (g : Gateway) (w : World σ) (connected : Bool) (s : σ) (r : Request) : Account × σ :=
  let after := g.handleIn w.recorded connected (s, []) r
  (⟨after.1, after.2.2⟩, after.2.1)

/-- the accounts of requests one after another -/
def accounts (g : Gateway) (w : World σ) (connected : Bool) : σ → List Request → List Account × σ
  | s, [] => ([], s)
  | s, r :: rs =>
    let first := g.account w connected s r
    let rest := accounts g w connected first.2 rs
    (first.1 :: rest.1, rest.2)

/-- a URL is one of the first machine of a listing that serves the request, at the address at which it is dialed -/
def GoesTo (g : Gateway) (r : Request) (l : Listing) (opening url : String) : Prop :=
  ∃ (target : Option String) (c : Selection) (address rest : String), r.AsksFor target ∧
    c.IsFirst l target g.config.service.selector ∧ g.dialing.DialsAt c.machine c.mapping address ∧
    url = opening ++ address ++ rest ∧ rest.toList.head? = some '/'

/-- the right machine, from a fresh listing, or nobody -/
structure IsProper (g : Gateway) (r : Request) (a : Account) : Prop where
  /-- health requests and refused origins ask for nothing -/
  unasked : r.uri.path = healthPath ∨ ¬ g.Admits r → a.asked = [] ∧ a.handled.contact = none
  listings : a.listings.length ≤ 1
  contacts : a.exchanges.length + a.dials.length ≤ 1
  /-- who is not contacted is handed nothing -/
  quiet : a.handled.contact = none → a.exchanges = [] ∧ a.dials = []
  http : ∀ url, a.handled.contact = some (.http url) → ∃ l o, a.asked = [.listing (.ok l), .exchange o] ∧
    Uri.parse url = .ok o.uri ∧ g.GoesTo r l "http://" url
  socket : ∀ url, a.handled.contact = some (.socket url) → ∃ l, a.asked = [.listing (.ok l), .dial url] ∧
    g.GoesTo r l "ws://" url
  /-- where the listing has no backend, the answer says so -/
  unserved : ∀ target, r.AsksFor target → ∀ answer ∈ a.listings,
    g.dialing.Unserved answer target g.config.service.selector →
    a.handled.contact = none ∧ ∃ e, a.handled.response = some (GatewayError.lookup e).response

variable {g : Gateway} {w : World σ} {connected : Bool} {s : σ} {r : Request} {job : Job}

/-! ## One request -/

theorem account_of_answer {a : Response} (h : g.intake r = .answer a) :
    g.account w connected s r = (⟨⟨some a, 0, none⟩, []⟩, s) := by
  simp [account, handleIn, h]

theorem account_of_engaged_answer {a : Response} (h : g.intake r = .ask job)
    (he : g.engage connected r job (w.list s).1 = .answer a) :
    g.account w connected s r = (⟨⟨some a, 1, none⟩, [.listing (w.list s).1]⟩, (w.list s).2) := by
  simp [account, handleIn, World.recorded, h, he]

theorem account_of_relay {url : String} (h : g.intake r = .ask job)
    (he : g.engage connected r job (w.list s).1 = .relay url) :
    g.account w connected s r =
      (⟨⟨none, 1, some (.socket url)⟩, [.listing (w.list s).1, .dial url]⟩, (w.list s).2) := by
  simp [account, handleIn, World.recorded, h, he]

theorem account_of_forward {f : Forwarding} (h : g.intake r = .ask job)
    (he : g.engage connected r job (w.list s).1 = .forward f) : ∃ response,
    g.account w connected s r =
      (⟨⟨some response, 1, some (.http f.target)⟩, [.listing (w.list s).1, .exchange f.outbound]⟩,
        (w.exchange f.outbound (w.list s).2).2) := by
  cases hf : f.finish g.config.timeout (w.exchange f.outbound (w.list s).2).1 with
  | ok a => exact ⟨a, by simp [account, handleIn, World.recorded, h, he, hf]⟩
  | error e => exact ⟨e.response, by simp [account, handleIn, World.recorded, h, he, hf]⟩

/-- keeping a record changes nothing -/
theorem account_handled (g : Gateway) (w : World σ) (connected : Bool) (s : σ) (r : Request) :
    ((g.account w connected s r).1.handled, (g.account w connected s r).2) = g.handle w connected s r := by
  cases h : g.intake r with
  | answer a => rw [account_of_answer h, handle_of_answer h]
  | ask job =>
    cases he : g.engage connected r job (w.list s).1 with
    | answer a => rw [account_of_engaged_answer h he, handle_of_engaged_answer h he]
    | relay url => rw [account_of_relay h he, handle_of_relay h he]
    | forward f =>
      cases hf : f.finish g.config.timeout (w.exchange f.outbound (w.list s).2).1 <;>
        simp [account, handle, handleIn, World.recorded, World.unheeding, h, he, hf]

theorem wanted_of_ask (h : g.intake r = .ask job) : job.target = r.wanted := by
  obtain ⟨-, name, path, hroute, rfl⟩ := of_intake_eq_ask h
  simp [Request.wanted, Route.nameIn, hroute, RoutedQuery.ofQuery_name]

theorem asksFor_of_ask (h : g.intake r = .ask job) {target : Option String} :
    r.AsksFor target ↔ target = job.target := by
  obtain ⟨-, name, path, hroute, -⟩ := of_intake_eq_ask h
  rw [Request.asksFor_iff hroute, wanted_of_ask h]

theorem slash_of_ask (hslash : r.uri.path.toList.head? = some '/') (h : g.intake r = .ask job) :
    job.pathAndQuery.toList.head? = some '/' := by
  obtain ⟨-, name, path, hroute, rfl⟩ := of_intake_eq_ask h
  exact RoutedQuery.slash_of_attach (Route.slash_of_ofPath hslash hroute)

/-- a backend that the listing has is reached at a URL of the first machine that serves the request -/
theorem goesTo_of_resolve {l : Listing} {b : Backend} (hslash : r.uri.path.toList.head? = some '/')
    (h : g.intake r = .ask job) (hb : g.dialing.resolve (.ok l) job.target g.config.service.selector = .ok b)
    (opening : String) : g.GoesTo r l opening (opening ++ b.endpoint.text ++ job.pathAndQuery) := by
  obtain ⟨l', c, hl, hfirst, he, -, -⟩ := Dialing.resolve_eq_ok_iff.1 hb
  obtain rfl := Except.ok.inj hl
  exact ⟨job.target, c, b.endpoint.text, job.pathAndQuery, (asksFor_of_ask h).2 rfl, hfirst,
    Dialing.dialsAt_of_endpoint he, rfl, slash_of_ask hslash h⟩

theorem asks_of_ask (h : g.intake r = .ask job) : ¬ (r.uri.path = healthPath ∨ ¬ g.Admits r) := by
  obtain ⟨hadmits, name, path, hroute, -⟩ := of_intake_eq_ask h
  rintro (hhealth | hno)
  · simp [Route.ofPath, hhealth] at hroute
  · exact hno hadmits

/-- an answer that takes no more than a listing -/
theorem isProper_of_answer {a : Response} {answer : Except LookupError Listing}
    (hasks : ¬ (r.uri.path = healthPath ∨ ¬ g.Admits r))
    (h : ∀ target, r.AsksFor target → g.dialing.Unserved answer target g.config.service.selector →
      ∃ e, a = (GatewayError.lookup e).response) :
    g.IsProper r ⟨⟨some a, 1, none⟩, [.listing answer]⟩ where
  unasked hno := absurd hno hasks
  listings := by simp [Account.listings]
  contacts := by simp [Account.exchanges, Account.dials]
  quiet _ := ⟨rfl, rfl⟩
  http _ hurl := absurd hurl (by simp)
  socket _ hurl := absurd hurl (by simp)
  unserved target htarget answer' hanswer hno := by
    obtain rfl : answer' = answer := by simpa [Account.listings] using hanswer
    obtain ⟨e, rfl⟩ := h target htarget hno
    exact ⟨rfl, e, rfl⟩

/-- **One request costs one listing at most, and goes to the right machine of it or to nobody.** -/
theorem isProper_account (g : Gateway) (w : World σ) (connected : Bool) (s : σ)
    (hslash : r.uri.path.toList.head? = some '/') : g.IsProper r (g.account w connected s r).1 := by
  cases h : g.intake r with
  | answer a =>
    rw [account_of_answer h]
    constructor <;> simp [Account.listings, Account.exchanges, Account.dials]
  | ask job =>
    have hasks := asks_of_ask h
    rcases g.engage_cases connected r job (w.list s).1 with ⟨e, -, he⟩ | ⟨b, hb, hengaged⟩
    · rw [account_of_engaged_answer h he]
      exact isProper_of_answer hasks fun _ _ _ => ⟨e, rfl⟩
    · -- with a backend, what is left to go wrong is the handshake of a socket or the URL of a plain request
      have hserved : ∀ target, r.AsksFor target →
          ¬ g.dialing.Unserved (w.list s).1 target g.config.service.selector := by
        intro target htarget
        rw [← Dialing.resolve_eq_error_iff, (asksFor_of_ask h).1 htarget, hb]
        simp
      have hrefused : ∀ a : Response, g.IsProper r ⟨⟨some a, 1, none⟩, [.listing (w.list s).1]⟩ := fun a =>
        isProper_of_answer hasks fun target htarget hno => absurd hno (hserved target htarget)
      obtain ⟨l, c, hl, -⟩ := Dialing.resolve_eq_ok_iff.1 hb
      rw [hl] at hb hserved
      rcases hengaged with ⟨-, ⟨f, -, he⟩ | ⟨-, he⟩⟩ | ⟨-, ⟨e, -, he⟩ | ⟨f, hf, he⟩⟩
      · rw [account_of_engaged_answer h he]
        exact hrefused _
      · rw [account_of_relay h he, hl]
        constructor <;> simp +contextual [Account.listings, Account.exchanges, Account.dials, hasks, hserved,
          goesTo_of_resolve hslash h hb]
      · rw [account_of_engaged_answer h he]
        exact hrefused _
      · obtain ⟨htarget, hparse, -, -⟩ := Forwarding.of_start_eq_ok hf
        have hgoes : g.GoesTo r l "http://" f.target := htarget ▸ goesTo_of_resolve hslash h hb "http://"
        obtain ⟨response, haccount⟩ := account_of_forward h he
        rw [haccount, hl]
        constructor <;> simp +contextual [Account.listings, Account.exchanges, Account.dials, hasks, hserved, hparse,
          hgoes]

/-! ## Runs -/

theorem accounts_handled (g : Gateway) (w : World σ) (connected : Bool) (s : σ) (rs : List Request) :
    ((g.accounts w connected s rs).1.map (·.handled), (g.accounts w connected s rs).2) =
      g.handleAll w connected s rs := by
  induction rs generalizing s with
  | nil => rfl
  | cons r rs ih =>
    have hfirst := g.account_handled w connected s r
    have hrest := ih (g.account w connected s r).2
    simp only [handleAll, ← hfirst, ← hrest]
    rfl

theorem isProper_accounts (g : Gateway) (w : World σ) (connected : Bool) (s : σ) {rs : List Request}
    (h : ∀ r ∈ rs, r.uri.path.toList.head? = some '/') :
    List.Forall₂ g.IsProper rs (g.accounts w connected s rs).1 := by
  induction rs generalizing s with
  | nil => exact .nil
  | cons r rs ih =>
    exact .cons (isProper_account g w connected s (h r List.mem_cons_self))
      (ih _ fun r' hr' => h r' (List.mem_cons_of_mem r hr'))

/-- **The right machine, from a fresh listing.** In every run, whatever the world answers, each request is handled as if
it were the only one: it costs one listing at most, and the machine that it goes to, if to any, is the first one of that
listing that serves it. -/
theorem contacts_right_machine (g : Gateway) (w : World σ) (connected : Bool) (s : σ) (rs : List Request)
    (h : ∀ r ∈ rs, r.uri.path.toList.head? = some '/') :
    ((g.accounts w connected s rs).1.map (·.handled), (g.accounts w connected s rs).2) =
        g.handleAll w connected s rs ∧
      List.Forall₂ g.IsProper rs (g.accounts w connected s rs).1 :=
  ⟨accounts_handled g w connected s rs, isProper_accounts g w connected s h⟩

/-- the machine of a world in which it changes its port with every listing, and is missing from the third one -/
def movingWorld : World Nat where
  list n := (.ok ⟨if n = 2 then [] else
    [{ name := "a", status := .running, mappings := [⟨"cdp", "9223", toString (41000 + n)⟩] }]⟩, n + 1)
  exchange _ n := (.complete { status := 200 }, n)

/-- a run of plain requests for the machine, with a health request between them -/
def plainRun : List Request :=
  [{ method := "GET", uri := { path := "/vm/a/json" } }, { method := "GET", uri := { path := "/health" } },
    { method := "GET", uri := { path := "/json", query := some "vm=a" } },
    { method := "GET", uri := { path := "/json" } }]

/-- the world of one machine that has an address of its own -/
def housedWorld : World Unit where
  list s := (.ok ⟨[{ name := "a", status := .running, address := "10.20.1.2/24"
                     mappings := [⟨"cdp", "9223", "41000"⟩] }]⟩, s)
  exchange _ s := (.complete { status := 200 }, s)

/-- a plain request and the opening handshake of a socket -/
def openingRun : List Request :=
  [{ method := "GET", uri := { path := "/json" } },
    { method := "GET", uri := { path := "/vm/a/page", query := some "x" }
      headers := [Headers.textField "connection" "Upgrade", Headers.textField "upgrade" "websocket",
        Headers.textField "sec-websocket-key" "dGhlIHNhbXBsZSBub25jZQ==",
        Headers.textField "sec-websocket-version" "13"] }]

/-- a gateway that dials machines at their own addresses -/
def directGateway : Gateway where
  dialing := { mode := .direct }

theorem contacts_moving_machine :
    ((∀ r ∈ plainRun, r.uri.path.toList.head? = some '/') ∧
        (Gateway.handleAll {} movingWorld false 0 plainRun).1.map (·.contact) =
          [some (.http "http://127.0.0.1:41000/json"), none, some (.http "http://127.0.0.1:41001/json"), none] ∧
        List.Forall₂ (Gateway.IsProper {}) plainRun (Gateway.accounts {} movingWorld false 0 plainRun).1) ∧
      ((∀ r ∈ openingRun, r.uri.path.toList.head? = some '/') ∧
        (directGateway.handleAll housedWorld true () openingRun).1.map (·.contact) =
          [some (.http "http://10.20.1.2:9223/json"), some (.socket "ws://10.20.1.2:9223/page?x")] ∧
        (directGateway.accounts housedWorld true () openingRun).1.map (·.dials) =
          [[], ["ws://10.20.1.2:9223/page?x"]] ∧
        List.Forall₂ directGateway.IsProper openingRun (directGateway.accounts housedWorld true () openingRun).1) ∧
      -- a machine without an address of its own is not dialed there
      (directGateway.handleAll movingWorld false 0 plainRun).1.map (·.contact) = [none, none, none, none] ∧
        List.Forall₂ directGateway.IsProper plainRun (directGateway.accounts movingWorld false 0 plainRun).1 := by
  have hplain : ∀ r ∈ plainRun, r.uri.path.toList.head? = some '/' := by decide +kernel
  have hopening : ∀ r ∈ openingRun, r.uri.path.toList.head? = some '/' := by decide +kernel
  refine ⟨⟨hplain, by decide +kernel, ?_⟩, ⟨hopening, by decide +kernel, by decide +kernel, ?_⟩, by decide +kernel, ?_⟩
  · exact (contacts_right_machine {} movingWorld false 0 plainRun hplain).2
  · exact (contacts_right_machine directGateway housedWorld true () openingRun hopening).2
  · exact (contacts_right_machine directGateway movingWorld false 0 plainRun hplain).2

end Gateway

end MachineGateway
