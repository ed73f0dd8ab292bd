/-
Where the URLs of a gateway lead. A URL is put together of the backend's address and a path and query that the caller
has chosen. However the target is written, the path and query can follow an address (`isTail_attach`), so that the
address is the URL's authority (`hasAuthority_iff`). The one exception is the target `*`: it is no path, ends up in the
authority and leaves it without a port (`starred_place`), and the client takes port 80 then (`star_reaches_port_80`).
-/
import MachineGateway.Proofs.Gateway.Contacts
import MachineGateway.Proofs.Http.Authority

namespace MachineGateway

open Http

/-- a URL is read with this authority -/
def Http.Uri.HasAuthority (url authority : String) : Prop :=
  ∃ uri, Uri.parse url = .ok uri ∧ uri.authority = some authority

variable {t scheme a path : String} {uri : Uri} {name : Option String}

/-! ## Tails -/

/-- what a routed request passes on is a path, and behind it a query if there is one -/
theorem attach_split (hclean : uri.IsClean) (hroute : Route.ofPath uri.path = .machine name path) : ∃ rest,
    ((RoutedQuery.ofQuery uri.query).attach path).toList = path.toList ++ rest ∧
      (∀ c ∈ path.toList, Uri.isPathChar c = true) ∧
      (rest = [] ∨ ∃ q, rest = '?' :: q ∧ ∀ c ∈ q, Uri.isQueryChar c = true) := by
  have hchars : ∀ c ∈ path.toList, Uri.isPathChar c = true := by
    rcases Route.path_cases hroute with rfl | ⟨tail, hsuffix, rfl⟩
    · exact hclean.path
    · intro c hc
      rw [String.toList_ofList, List.mem_cons] at hc
      rcases hc with rfl | hc
      · decide
      · exact hclean.path c (hsuffix.subset hc)
  have hquery : ∀ c ∈ RoutedQuery.passedOn uri.query, Uri.isQueryChar c = true := by
    intro c hc
    rcases RoutedQuery.mem_of_passedOn hc with rfl | ⟨text, htext, hc⟩
    · decide
    · exact hclean.query text htext c hc
  rw [RoutedQuery.attach_eq]
  split_ifs with hnone
  · exact ⟨[], by simp, hchars, Or.inl rfl⟩
  · exact ⟨'?' :: RoutedQuery.passedOn uri.query, by simp [String.toList_append], hchars, Or.inr ⟨_, rfl, hquery⟩⟩

/-- what a routed request passes on can follow an authority -/
theorem isTail_attach (habsolute : uri.IsAbsolute) (hroute : Route.ofPath uri.path = .machine name path) :
    Uri.IsTail ((RoutedQuery.ofQuery uri.query).attach path) := by
  obtain ⟨hclean, hslash⟩ := habsolute
  obtain ⟨rest, htext, hchars, hrest⟩ := attach_split hclean hroute
  have hbegin : path.toList = [] ∨ ∃ tail, path.toList = '/' :: tail := by
    rcases Route.path_cases hroute with rfl | ⟨tail, -, rfl⟩
    · refine hslash.imp (fun h => by rw [h]; rfl) fun h => ?_
      obtain ⟨tail, htail⟩ := List.head?_eq_some_iff.1 h
      exact ⟨tail, htail⟩
    · exact Or.inr ⟨tail, String.toList_ofList⟩
  refine ⟨?_, by rw [htext]; exact Uri.parsePath_append hchars hrest⟩
  rcases hbegin with hnil | ⟨tail, htail⟩
  · rcases hrest with rfl | ⟨q, rfl, -⟩
    · exact Or.inl (String.toList_inj.1 (by rw [htext, hnil]; rfl))
    · exact Or.inr ⟨'?', q, by rw [htext, hnil]; rfl, rfl⟩
  · exact Or.inr ⟨'/', tail ++ rest, by rw [htext, htail]; rfl, rfl⟩

/-! ## URLs -/

/-- the authority that the URL of a target is read with: a star ends up in it -/
def readAuthority (t a : String) : String := if t = "*" then a ++ "*" else a

theorem readAuthority_eq_iff : readAuthority t a = a ↔ t ≠ "*" := by
  unfold readAuthority
  split_ifs with hstar
  · refine ⟨fun h => ?_, fun h => absurd hstar h⟩
    have hlength : (a ++ "*").length = a.length := congrArg String.length h
    simp at hlength
  · exact ⟨fun _ => hstar, fun _ => rfl⟩

/-- the URL of every target can be read, as long as it fits -/
theorem parse_attach (ht : Uri.parse t = .ok uri) (hroute : Route.ofPath uri.path = .machine name path)
    (hscheme : Uri.IsScheme scheme) (ha : Uri.IsAuthority a)
    (hfits : Uri.Fits (scheme ++ "://" ++ a ++ (RoutedQuery.ofQuery uri.query).attach path)) :
    Uri.HasAuthority (scheme ++ "://" ++ a ++ (RoutedQuery.ofQuery uri.query).attach path) (readAuthority t a) := by
  rcases Uri.target_cases ht with ⟨rfl, rfl⟩ | ⟨hne, habsolute⟩
  · have hpath : path = "*" := by
      have hstar : Route.ofPath "*" = .machine none "*" := by decide +kernel
      rw [hstar] at hroute
      exact (Route.machine.inj hroute).2.symm
    subst hpath
    exact Uri.parse_starred hscheme ha hfits
  · rw [readAuthority, if_neg hne]
    exact Uri.parse_url hscheme ha (isTail_attach habsolute hroute) hfits

/-- **The authority of a URL is the backend's address** for every target but `*`, as long as it fits into a URL. -/
theorem hasAuthority_iff (ht : Uri.parse t = .ok uri) (hroute : Route.ofPath uri.path = .machine name path)
    (hscheme : Uri.IsScheme scheme) (ha : Uri.IsAuthority a) :
    Uri.HasAuthority (scheme ++ "://" ++ a ++ (RoutedQuery.ofQuery uri.query).attach path) a ↔
      t ≠ "*" ∧ Uri.Fits (scheme ++ "://" ++ a ++ (RoutedQuery.ofQuery uri.query).attach path) := by
  constructor
  · rintro ⟨uri', hparse, hauthority⟩
    have hfits := Uri.fits_of_parse hparse
    obtain ⟨uri'', hparse', hread⟩ := parse_attach ht hroute hscheme ha hfits
    obtain rfl := Except.ok.inj (hparse.symm.trans hparse')
    have hsame : readAuthority t a = a := Option.some.inj (hread.symm.trans hauthority)
    exact ⟨readAuthority_eq_iff.1 hsame, hfits⟩
  · rintro ⟨hne, hfits⟩
    have hread := parse_attach ht hroute hscheme ha hfits
    rwa [readAuthority_eq_iff.2 hne] at hread

/-- with the target `*` a backend has no port of its own: the client takes port 80 -/
theorem starred_place (hscheme : Uri.IsScheme scheme) (ha : Uri.IsAuthority a)
    (hfits : Uri.Fits (scheme ++ "://" ++ a ++ "*")) :
    ∃ uri, Uri.parse (scheme ++ "://" ++ a ++ "*") = .ok uri ∧ uri.authority = some (a ++ "*") ∧
      (place (a ++ "*")).2 = 80 := by
  obtain ⟨uri, hparse, hauthority⟩ := Uri.parse_starred hscheme ha hfits
  exact ⟨uri, hparse, hauthority, by rw [place, Uri.portOf_starred]; rfl⟩

theorem isScheme_http : Uri.IsScheme "http" :=
  ⟨by decide +kernel, List.all_eq_true.1 (by decide +kernel), by decide +kernel⟩

theorem isScheme_ws : Uri.IsScheme "ws" :=
  ⟨by decide +kernel, List.all_eq_true.1 (by decide +kernel), by decide +kernel⟩

namespace Gateway

variable {σ : Type}

/-- **Whom a request reaches.** A request that has a backend is refused, and nobody contacted, exactly if its handshake
is at fault or its URL does not fit; else a URL with the backend's address in it is dialed. The address is the authority
of that URL exactly if the target is not `*`; a socket's URL must also fit, else it cannot be dialed. -/
theorem reaches_backend_iff (g : Gateway) (w : World σ) (connected : Bool) (s : σ) {r : Request} {job : Job}
    {b : Backend} (ht : Uri.parse t = .ok r.uri) (hjob : g.intake r = .ask job)
    (hb : g.dialing.resolve (w.list s).1 job.target g.config.service.selector = .ok b)
    (ha : Uri.IsAuthority b.endpoint.text) :
    (∃ e : GatewayError, (g.handle w connected s r).1 = ⟨some e.response, 1, none⟩ ∧
        (job.socket = true ∧ (Upgrade.handshakeFault? connected r).isSome = true ∨
          job.socket = false ∧ ¬ Uri.Fits ("http://" ++ b.endpoint.text ++ job.pathAndQuery))) ∨
      (∃ url, url = "http://" ++ b.endpoint.text ++ job.pathAndQuery ∧
        (g.handle w connected s r).1.contact = some (.http url) ∧
        (Uri.HasAuthority url b.endpoint.text ↔ t ≠ "*")) ∨
      ∃ url, url = "ws://" ++ b.endpoint.text ++ job.pathAndQuery ∧
        (g.handle w connected s r).1.contact = some (.socket url) ∧
        (Uri.HasAuthority url b.endpoint.text ↔ t ≠ "*" ∧ Uri.Fits url) := by
  obtain ⟨-, name, path, hroute, hshape⟩ := of_intake_eq_ask hjob
  have hpassed : job.pathAndQuery = (RoutedQuery.ofQuery r.uri.query).attach path := by rw [hshape]
  have hread := parse_attach ht hroute isScheme_http ha
  have hhttp := hasAuthority_iff ht hroute isScheme_http ha
  have hws := hasAuthority_iff ht hroute isScheme_ws ha
  rw [← hpassed] at hread hhttp hws
  -- no backend, a socket refused or accepted, a plain request refused or forwarded
  rcases g.engage_cases connected r job (w.list s).1 with
    ⟨e, he, -⟩ | ⟨b', hb', ⟨hsocket, ⟨f, hf, he⟩ | ⟨-, he⟩⟩ | ⟨hsocket, ⟨e, hstart, he⟩ | ⟨f, hf, he⟩⟩⟩
  · exact absurd (he.symm.trans hb) (by simp)
  · exact Or.inl ⟨_, by rw [handle_of_engaged_answer hjob he], Or.inl ⟨hsocket, by simp [hf]⟩⟩
  · obtain rfl := Except.ok.inj (hb.symm.trans hb')
    exact Or.inr (Or.inr ⟨_, rfl, by rw [handle_of_relay hjob he], hws⟩)
  · obtain rfl := Except.ok.inj (hb.symm.trans hb')
    refine Or.inl ⟨e, by rw [handle_of_engaged_answer hjob he], Or.inr ⟨hsocket, fun hfits => ?_⟩⟩
    obtain ⟨uri, hparse, -⟩ := hread hfits
    exact Forwarding.not_readable_of_start hstart ⟨uri, hparse⟩
  · obtain rfl := Except.ok.inj (hb.symm.trans hb')
    obtain ⟨htarget, hparse, -, -⟩ := Forwarding.of_start_eq_ok hf
    obtain ⟨a, hhandled⟩ := handle_of_forward hjob he
    have hfits : Uri.Fits f.target := Uri.fits_of_parse hparse
    refine Or.inr (Or.inl ⟨f.target, htarget, by rw [hhandled], ?_⟩)
    rw [htarget] at hfits ⊢
    exact hhttp.trans (and_iff_left hfits)

/-- a target that looks like a URL with other hosts in it -/
def disguisedRequest : Request :=
  { method := "GET", uri := { path := "//other.example:1/@x:2", query := some "vm=a&u=http://y@z:3" } }

/-- the backend that `movingWorld` lists first -/
def movingBackend : Backend :=
  ⟨⟨"127.0.0.1", "41000"⟩, { name := "a", status := .running, mappings := [⟨"cdp", "9223", "41000"⟩] },
    ⟨"cdp", "9223", "41000"⟩⟩

/-- a target with other hosts in it reaches the backend -/
theorem disguised_target_reaches_backend :
    Uri.parse "//other.example:1/@x:2?vm=a&u=http://y@z:3" = .ok disguisedRequest.uri ∧
      Gateway.intake {} disguisedRequest = .ask ⟨some "a", "//other.example:1/@x:2?u=http://y@z:3", false⟩ ∧
      Dialing.resolve {} (movingWorld.list 0).1 (some "a") ServiceProfile.devtools.selector = .ok movingBackend ∧
      Uri.IsAuthority movingBackend.endpoint.text ∧
      ∃ url, (Gateway.handle {} movingWorld false 0 disguisedRequest).1.contact = some (.http url) ∧
        Uri.HasAuthority url "127.0.0.1:41000" := by
  have ht : Uri.parse "//other.example:1/@x:2?vm=a&u=http://y@z:3" = .ok disguisedRequest.uri := by decide +kernel
  have hjob : Gateway.intake {} disguisedRequest =
      .ask ⟨some "a", "//other.example:1/@x:2?u=http://y@z:3", false⟩ := by decide +kernel
  have hb : Dialing.resolve {} (movingWorld.list 0).1 (some "a") ServiceProfile.devtools.selector =
      .ok movingBackend := by decide +kernel
  have ha : Uri.IsAuthority movingBackend.endpoint.text := ⟨by decide +kernel, by decide +kernel⟩
  have hcontact : (Gateway.handle {} movingWorld false 0 disguisedRequest).1.contact =
      some (.http "http://127.0.0.1:41000//other.example:1/@x:2?u=http://y@z:3") := by decide +kernel
  refine ⟨ht, hjob, hb, ha, ?_⟩
  rcases reaches_backend_iff {} movingWorld false 0 ht hjob hb ha with
    ⟨e, he, -⟩ | ⟨url, -, hurl, hiff⟩ | ⟨url, -, hurl, -⟩
  · rw [he] at hcontact
    exact absurd hcontact (by simp)
  · exact ⟨url, hurl, hiff.2 (by decide +kernel)⟩
  · exact absurd (hcontact.symm.trans hurl) (by simp)

/-- a request for the server as a whole -/
def starRequest : Request := { method := "OPTIONS", uri := { path := "*" } }

/-- the target `*` ends up in the authority of the URL, and the backend is dialed at port 80 -/
theorem star_reaches_port_80 :
    Uri.parse "*" = .ok starRequest.uri ∧ Gateway.intake {} starRequest = .ask ⟨none, "*", false⟩ ∧
      Dialing.resolve {} (movingWorld.list 0).1 none ServiceProfile.devtools.selector = .ok movingBackend ∧
      movingBackend.endpoint.text = "127.0.0.1:41000" ∧ Uri.IsAuthority "127.0.0.1:41000" ∧
      '@' ∉ "127.0.0.1:41000".toList ∧
      (Gateway.handle {} movingWorld false 0 starRequest).1.contact = some (.http "http://127.0.0.1:41000*") ∧
      Uri.parse "http://127.0.0.1:41000*" = .ok ⟨some "http", some "127.0.0.1:41000*", "/", none⟩ ∧
      place "127.0.0.1:41000" = ("127.0.0.1", 41000) ∧ place "127.0.0.1:41000*" = ("127.0.0.1", 80) := by
  have ha : Uri.IsAuthority "127.0.0.1:41000" := ⟨by decide +kernel, by decide +kernel⟩
  have hfits : Uri.Fits ("http://" ++ "127.0.0.1:41000" ++ "*") := by
    unfold Uri.Fits
    decide +kernel
  obtain ⟨-, -, -, hport⟩ := starred_place isScheme_http ha hfits
  have hplace : place "127.0.0.1:41000*" = ("127.0.0.1", 80) := Prod.ext (by decide +kernel) hport
  exact ⟨by decide +kernel, by decide +kernel, by decide +kernel, by decide +kernel, ha, by decide +kernel,
    by decide +kernel, by decide +kernel, by decide +kernel, hplace⟩

end Gateway

end MachineGateway
