/-
What a gateway changes of a plain request and of the answer to it. The backend gets the caller's method, body and
headers without those that name the gateway or ask for compression (`HandsOn`), at the path of the route with what the
query holds besides its routing parameters (`passedTarget`). The caller gets the backend's status and headers without
those that frame the body, and the body with the backend's socket URLs rewritten if it is text (`HandsBack`); a body
in which no address of the backend occurs comes back as it is.

The path and query arrive as long as the path is led by a slash (`arrives_iff`). The target `*` is no such path: it
ends up in the authority of the URL, and the backend is asked for `/` (`star_arrives_as_slash`).
-/
import MachineGateway.Proofs.Gateway.Destination
import MachineGateway.Proofs.SocketUrl.Clearing

namespace MachineGateway

open Http

/-! ## Headers -/

/-- taking out names takes out every value of theirs, and no other one -/
theorem Http.Headers.values_without (names : List String) (h : Headers) (name : String) :
    Headers.values (Headers.without names h) name = if name ∈ names then [] else Headers.values h name := by
  unfold Headers.values Headers.without
  rw [List.filter_filter]
  split_ifs with hname
  · have hnone : h.filter (fun f => f.name == name && !names.contains f.name) = [] := by
      apply List.filter_eq_nil_iff.2
      intro f _ hf
      rw [Bool.and_eq_true, beq_iff_eq] at hf
      simp [hf.1, hname] at hf
    rw [hnone]
    rfl
  · congr 1
    apply List.filter_congr
    intro f _
    by_cases hf : f.name = name
    · simp [hf, hname]
    · simp [hf]

theorem Http.Headers.first?_eq_head? (h : Headers) (name : String) :
    Headers.first? h name = (Headers.values h name).head? := by
  rw [Headers.first?, Headers.values, List.head?_map, List.head?_filter]

/-! ## The path and query -/

/-- a path with what a query holds besides its routing parameters, as it stands -/
def passedTarget (path : String) (query : Option String) : String :=
  if RoutedQuery.passedOn query = [] then path else path ++ "?" ++ String.ofList (RoutedQuery.passedOn query)

theorem attach_eq_passedTarget (query : Option String) (path : String) :
    (RoutedQuery.ofQuery query).attach path = passedTarget path query := RoutedQuery.attach_eq query path

variable {t a path : String} {uri given : Uri} {name : Option String}

theorem Http.Uri.isClean_of_parse (h : Uri.parse t = .ok uri) : uri.IsClean := by
  rcases Uri.target_cases h with ⟨-, rfl⟩ | ⟨-, habsolute⟩
  · exact ⟨List.all_eq_true.1 (by decide +kernel), by simp⟩
  · exact habsolute.1

theorem Http.Uri.head_pathAndQuery (h : uri.path.toList.head? = some '/') :
    uri.pathAndQuery.toList.head? = some '/' := by
  unfold Uri.pathAndQuery
  split
  · exact h
  · simp [String.toList_append, List.head?_append, h]

theorem head_of_passedTarget {query : Option String} (h : (passedTarget path query).toList.head? = some '/') :
    path.toList.head? = some '/' := by
  unfold passedTarget at h
  split_ifs at h with hnone
  · exact h
  · cases hpath : path.toList with
    | nil => simp [String.toList_append, hpath] at h
    | cons c cs => simpa [String.toList_append, hpath] using h

/-- a URL with an address in it is read with a path that is led by a slash -/
theorem slash_of_read (ha : ∀ c ∈ a.toList, Uri.endsAuthority c = false)
    (ht : Uri.parse t = .ok given) (hroute : Route.ofPath given.path = .machine name path)
    (hread : Uri.parse ("http://" ++ a ++ passedTarget path given.query) = .ok uri) :
    uri.path.toList.head? = some '/' ∧ (t ≠ "*" → Uri.parsePath (passedTarget path given.query).toList =
      .ok (uri.path, uri.query)) := by
  rcases Uri.target_cases ht with ⟨rfl, rfl⟩ | ⟨hne, habsolute⟩
  · -- the star is the end of the authority, and nothing is left for a path
    have hstar : Route.ofPath "*" = .machine none "*" := by decide +kernel
    obtain rfl : "*" = path := (Route.machine.inj (hstar.symm.trans hroute)).2
    have hends : ∀ c ∈ (a ++ "*").toList, Uri.endsAuthority c = false := by
      intro c hc
      rw [String.toList_append, List.mem_append] at hc
      rcases hc with hc | hc
      · exact ha c hc
      · obtain rfl : c = '*' := by simpa using hc
        decide
    have hwhole : "http://" ++ a ++ "*" = "http" ++ "://" ++ (a ++ "*") ++ "" := by
      simp [← String.append_assoc]
    have hpassed : passedTarget "*" none = "*" := rfl
    rw [hpassed, hwhole] at hread
    obtain ⟨-, hempty⟩ := Uri.of_parse_url isScheme_http hends (Or.inl rfl) hread
    exact ⟨Uri.slash_of_parsePath (by simp) hempty, fun hne => absurd rfl hne⟩
  · have htail := (isTail_attach habsolute hroute).ends
    rw [attach_eq_passedTarget] at htail
    obtain ⟨-, hparsed⟩ := Uri.of_parse_url isScheme_http ha htail hread
    refine ⟨Uri.slash_of_parsePath ?_ hparsed, fun _ => hparsed⟩
    intro c hc
    rcases htail with hnil | ⟨d, rest, hd, hends⟩
    · simp [hnil] at hc
    · obtain rfl : d = c := by simpa [hd] using hc
      exact hends

/-- **The path and query arrive if the path is led by a slash, and only then.** -/
theorem arrives_iff (ht : Uri.parse t = .ok given) (hroute : Route.ofPath given.path = .machine name path)
    (ha : ∀ c ∈ a.toList, Uri.endsAuthority c = false)
    (hread : Uri.parse ("http://" ++ a ++ passedTarget path given.query) = .ok uri) :
    uri.pathAndQuery = passedTarget path given.query ↔ path.toList.head? = some '/' := by
  obtain ⟨hslash, hparsed⟩ := slash_of_read ha ht hroute hread
  constructor
  · intro harrives
    have hhead := Uri.head_pathAndQuery hslash
    rw [harrives] at hhead
    exact head_of_passedTarget hhead
  · intro hpath
    have hne : t ≠ "*" := by
      rintro rfl
      rcases Uri.target_cases ht with ⟨-, rfl⟩ | ⟨hne, -⟩
      · have hstar : Route.ofPath "*" = .machine none "*" := by decide +kernel
        obtain rfl : "*" = path := (Route.machine.inj (hstar.symm.trans hroute)).2
        exact absurd hpath (by decide +kernel)
      · exact absurd rfl hne
    obtain ⟨rest, htext, hchars, hrest⟩ := attach_split (Uri.isClean_of_parse ht) hroute
    rw [attach_eq_passedTarget] at htext
    have hshown : path.toList.isEmpty = false := by
      cases hnil : path.toList with
      | nil => simp [hnil] at hpath
      | cons c cs => rfl
    have hwhole := Uri.pathAndQuery_of_parsePath hchars hrest (htext ▸ hparsed hne)
    rw [hshown] at hwhole
    calc uri.pathAndQuery = String.ofList path.toList ++ String.ofList rest := hwhole
      _ = String.ofList (passedTarget path given.query).toList := by rw [htext, String.ofList_append]
      _ = passedTarget path given.query := String.ofList_toList

/-! ## The body -/

/-- the content type of a message is absent, or can be read and is that of a text -/
def SaysText (h : Headers) : Prop :=
  ∀ v, Headers.first? h "content-type" = some v → ∃ text, visibleText? v = some text ∧ SocketUrl.isTextType text = true

theorem Forwarding.isRewritable_iff (h : Headers) : isRewritable h = true ↔ SaysText h := by
  unfold isRewritable SaysText
  cases hfirst : Headers.first? h "content-type" with
  | none => simp
  | some v =>
    cases htext : visibleText? v with
    | none => simp [htext]
    | some text => simp [htext]

/-- an authority that occurs nowhere is in no socket URL -/
theorem SocketUrl.clear_of_not_infix {authority body : Bytes} {e : Option Bytes} {before : Option UInt8}
    (h : ¬ authority <:+: body) : Clear authority e before body := by
  rw [clear_iff]
  intro i
  rw [opening?_eq_none]
  intro o rest hopens
  have hrest : authority <:+: body.drop i := ⟨o.bytes, rest, by rw [hopens.text, List.append_assoc]⟩
  exact h (hrest.trans (List.drop_suffix i body).isInfix)

/-! ## Both ways -/

/-- what a request is handed on as, apart from where it goes -/
structure HandsOn (r : Request) (o : Outbound) : Prop where
  method : o.method = r.method
  body : o.body = r.body
  headers : ∀ name, Headers.values o.headers name =
    if name ∈ ["host", "x-forwarded-host", "accept-encoding"] then [] else Headers.values r.headers name

/-- what an answer is handed back as -/
structure HandsBack (b : Backend) (publicBase : String) (response answer : Response) : Prop where
  status : answer.status = response.status
  headers : ∀ name, Headers.values answer.headers name =
    if name ∈ ["content-length", "transfer-encoding"] then [] else Headers.values response.headers name
  text : SaysText response.headers → answer.body =
    SocketUrl.rewriteAll (b.authorities.map Utf8.encode) (Utf8.encode publicBase) response.body
  other : ¬ SaysText response.headers → answer.body = response.body
  untouched : ¬ Utf8.encode b.endpoint.text <:+: response.body →
    (∀ internal, b.internalAuthority? = some internal → ¬ Utf8.encode internal <:+: response.body) →
    answer.body = response.body

theorem handsOn_of_start {r : Request} {b : Backend} {pathAndQuery publicBase : String} {f : Forwarding}
    (h : Forwarding.start r b pathAndQuery publicBase = .ok f) : HandsOn r f.outbound := by
  unfold Forwarding.start at h
  cases hu : Uri.parse ("http://" ++ b.endpoint.text ++ pathAndQuery) with
  | error e => simp [hu] at h
  | ok uri =>
    simp only [hu, Except.ok.injEq] at h
    subst h
    exact ⟨rfl, rfl, Headers.values_without _ _⟩

theorem Backend.mem_authorities {b : Backend} {authority : String} (h : authority ∈ b.authorities) :
    authority = b.endpoint.text ∨ b.internalAuthority? = some authority := by
  unfold Backend.authorities at h
  cases hinternal : b.internalAuthority? with
  | none => simp_all
  | some internal =>
    simp only [hinternal] at h
    split_ifs at h with hsame
    · exact Or.inl (List.mem_singleton.1 h)
    · rcases List.mem_cons.1 h with h | h
      · exact Or.inl h
      · exact Or.inr (by rw [List.mem_singleton.1 h])

theorem Forwarding.translate_head (f : Forwarding) (response : Response) :
    (f.translate response).status = response.status ∧
      (f.translate response).headers = Headers.without outdated response.headers := by
  unfold translate
  dsimp only
  split_ifs
  · exact ⟨rfl, rfl⟩
  · exact ⟨rfl, rfl⟩

theorem handsBack_translate (f : Forwarding) (response : Response) :
    HandsBack f.backend f.publicBase response (f.translate response) := by
  have hrewritable : Forwarding.isRewritable (Headers.without Forwarding.outdated response.headers) = true ↔
      SaysText response.headers := by
    have hkept : Headers.first? (Headers.without Forwarding.outdated response.headers) "content-type" =
        Headers.first? response.headers "content-type" := by
      rw [Headers.first?_eq_head?, Headers.first?_eq_head?, Headers.values_without]
      rfl
    rw [Forwarding.isRewritable_iff, SaysText, hkept, ← SaysText]
  have htext : SaysText response.headers → (f.translate response).body = SocketUrl.rewriteAll
      (f.backend.authorities.map Utf8.encode) (Utf8.encode f.publicBase) response.body := by
    intro h
    rw [Forwarding.translate, if_pos (hrewritable.2 h)]
  have hother : ¬ SaysText response.headers → (f.translate response).body = response.body := by
    intro h
    rw [Forwarding.translate, if_neg (mt hrewritable.1 h)]
  obtain ⟨hstatus, hheaders⟩ := f.translate_head response
  refine ⟨hstatus, ?_, htext, hother, ?_⟩
  · intro name
    rw [hheaders]
    exact Headers.values_without _ _ name
  · intro hdialed hinternal
    by_cases h : SaysText response.headers
    · rw [htext h]
      apply SocketUrl.rewriteAll_of_clear
      intro bytes hbytes _ _
      obtain ⟨authority, hauthority, rfl⟩ := List.mem_map.1 hbytes
      apply SocketUrl.clear_of_not_infix
      rcases Backend.mem_authorities hauthority with rfl | hauthority
      · exact hdialed
      · exact hinternal authority hauthority
    · exact hother h

namespace Gateway

variable {σ : Type}

theorem response_of_complete {g : Gateway} {w : World σ} {connected : Bool} {s : σ} {r : Request} {job : Job}
    {f : Forwarding} {response : Response} (h : g.intake r = .ask job)
    (he : g.engage connected r job (w.list s).1 = .forward f)
    (hcomplete : (w.exchange f.outbound (w.list s).2).1 = .complete response) :
    (g.handle w connected s r).1.response = some (f.translate response) := by
  simp [handle, handleIn, World.unheeding, h, he, hcomplete, Forwarding.finish]

/-- **Forwarding is transparent.** A plain request for which there is a backend and a URL costs one listing and one
exchange. What is handed on is the caller's request without the headers that name the gateway or ask for compression,
with the path and query of the route if the path is led by a slash, and only then; what is handed back, whenever the
backend answers in full, is the backend's response without the headers that frame its body, with the backend's socket
URLs in a text body rewritten. -/
theorem forwards_transparently (g : Gateway) (w : World σ) (connected : Bool) (s : σ) {r : Request} {b : Backend}
    (ht : Uri.parse t = .ok r.uri) (hplain : Upgrade.asksForSocket r.headers = false)
    (hroute : Route.ofPath r.uri.path = .machine name path)
    (hb : g.dialing.resolve (w.list s).1 r.wanted g.config.service.selector = .ok b)
    (hread : Uri.parse ("http://" ++ b.endpoint.text ++ passedTarget path r.uri.query) = .ok uri) :
    ∃ o : Outbound, (g.account w connected s r).1.asked = [.listing (w.list s).1, .exchange o] ∧ HandsOn r o ∧
      o.uri = uri ∧
      ((∀ c ∈ b.endpoint.text.toList, Uri.endsAuthority c = false) →
        (o.uri.pathAndQuery = passedTarget path r.uri.query ↔ path.toList.head? = some '/')) ∧
      ∀ response, (w.exchange o (w.list s).2).1 = .complete response → ∃ answer,
        (g.handle w connected s r).1.response = some answer ∧
          HandsBack b (g.publicBase r r.wanted) response answer := by
  have hadmits : g.Admits r := by simp [Admits, hplain]
  have hjob := intake_of_admits hroute hadmits
  rw [hplain, attach_eq_passedTarget] at hjob
  have hwanted := wanted_of_ask hjob
  rw [← hwanted] at hb ⊢
  rcases g.engage_cases connected r _ (w.list s).1 with
    ⟨e, he, -⟩ | ⟨b', hb', ⟨hsocket, -⟩ | ⟨-, ⟨e, hstart, -⟩ | ⟨f, hstart, he⟩⟩⟩
  · exact absurd (he.symm.trans hb) (by simp)
  · exact absurd hsocket (by simp)
  · obtain rfl := Except.ok.inj (hb.symm.trans hb')
    exact absurd ⟨uri, hread⟩ (Forwarding.not_readable_of_start hstart)
  · obtain rfl := Except.ok.inj (hb.symm.trans hb')
    obtain ⟨htarget, hparse, hbackend, hbase⟩ := Forwarding.of_start_eq_ok hstart
    rw [htarget] at hparse
    obtain rfl : f.outbound.uri = uri := Except.ok.inj (hparse.symm.trans hread)
    obtain ⟨answer, haccount⟩ := account_of_forward (s := s) hjob he
    refine ⟨f.outbound, by rw [haccount], handsOn_of_start hstart, rfl, fun ha => arrives_iff ht hroute ha hread, ?_⟩
    intro response hcomplete
    refine ⟨f.translate response, response_of_complete hjob he hcomplete, ?_⟩
    have hback := handsBack_translate f response
    rwa [hbackend, hbase] at hback

/-- a request with a header given twice, an empty routing parameter, and a body that is no text -/
def repeatedRequest : Request :=
  { method := "PATCH"
    uri := { path := "/vm/b/items//x", query := some "vm=&q=%31&&vm=a" }
    headers := [Headers.textField "x-part" "1", Headers.textField "host" "gw.test", Headers.textField "x-part" "2",
      Headers.textField "accept-encoding" "br"]
    body := [0x00, 0xFF] }

/-- a page that sets two cookies and holds a socket URL -/
def cookiePage : Response :=
  { status := 207
    headers := [Headers.textField "set-cookie" "a=1", Headers.textField "content-length" "34",
      Headers.textField "set-cookie" "b=2", Headers.textField "content-type" "Text/HTML; charset=utf-8"]
    body := Utf8.encode "<a href='ws://127.0.0.1:41000/p'>" }

/-- a world with one machine, which answers everything with the page -/
def cookieWorld : World Unit where
  list _ := (.ok ⟨[movingBackend.machine]⟩, ())
  exchange _ _ := (.complete cookiePage, ())

/-- headers that are repeated pass both ways, and the URL in the page leads to the gateway -/
theorem repeated_headers_pass :
    Uri.parse "/vm/b/items//x?vm=&q=%31&&vm=a" = .ok repeatedRequest.uri ∧
      Upgrade.asksForSocket repeatedRequest.headers = false ∧
      Route.ofPath repeatedRequest.uri.path = .machine (some "b") "/items//x" ∧
      Dialing.resolve {} (cookieWorld.list ()).1 repeatedRequest.wanted ServiceProfile.devtools.selector =
        .ok movingBackend ∧
      Uri.parse ("http://127.0.0.1:41000" ++ passedTarget "/items//x" repeatedRequest.uri.query) =
        .ok ⟨some "http", some "127.0.0.1:41000", "/items//x", some "q=%31"⟩ ∧
      ∃ o answer, (Gateway.account {} cookieWorld false () repeatedRequest).1.asked =
          [.listing (cookieWorld.list ()).1, .exchange o] ∧
        o.uri.pathAndQuery = "/items//x?q=%31" ∧ o.method = "PATCH" ∧ o.body = [0x00, 0xFF] ∧
        Headers.values o.headers "x-part" = [Utf8.encode "1", Utf8.encode "2"] ∧
        Headers.values o.headers "host" = [] ∧
        (Gateway.handle {} cookieWorld false () repeatedRequest).1.response = some answer ∧ answer.status = 207 ∧
        Headers.values answer.headers "set-cookie" = [Utf8.encode "a=1", Utf8.encode "b=2"] ∧
        Headers.values answer.headers "content-length" = [] ∧
        answer.body = Utf8.encode "<a href='ws://gw.test/vm/a/p'>" := by
  have ht : Uri.parse "/vm/b/items//x?vm=&q=%31&&vm=a" = .ok repeatedRequest.uri := by decide +kernel
  have hplain : Upgrade.asksForSocket repeatedRequest.headers = false := by decide +kernel
  have hroute : Route.ofPath repeatedRequest.uri.path = .machine (some "b") "/items//x" := by decide +kernel
  have hb : Dialing.resolve {} (cookieWorld.list ()).1 repeatedRequest.wanted ServiceProfile.devtools.selector =
      .ok movingBackend := by decide +kernel
  have hread : Uri.parse ("http://127.0.0.1:41000" ++ passedTarget "/items//x" repeatedRequest.uri.query) =
      .ok ⟨some "http", some "127.0.0.1:41000", "/items//x", some "q=%31"⟩ := by decide +kernel
  have haddress : Uri.IsAuthority movingBackend.endpoint.text := ⟨by decide +kernel, by decide +kernel⟩
  have hpassed : passedTarget "/items//x" repeatedRequest.uri.query = "/items//x?q=%31" := by decide +kernel
  obtain ⟨o, hasked, hon, -, harrives, hcomplete⟩ :=
    forwards_transparently {} cookieWorld false () ht hplain hroute hb hread
  obtain ⟨answer, hresponse, hback⟩ := hcomplete cookiePage rfl
  have htext : SaysText cookiePage.headers := (Forwarding.isRewritable_iff _).1 (by decide +kernel)
  refine ⟨ht, hplain, hroute, hb, hread, o, answer, hasked, ?_, hon.method, hon.body, ?_, ?_, hresponse, hback.status,
    ?_, ?_, ?_⟩
  · rw [(harrives haddress.not_ends).2 (by decide +kernel), hpassed]
  · rw [hon.headers]
    decide +kernel
  · rw [hon.headers]
    decide +kernel
  · rw [hback.headers]
    decide +kernel
  · rw [hback.headers]
    decide +kernel
  · rw [hback.text htext]
    decide +kernel

/-- the target `*` ends up in the authority of the URL, and the backend is asked for `/` -/
theorem star_arrives_as_slash :
    Uri.parse "*" = .ok starRequest.uri ∧ Upgrade.asksForSocket starRequest.headers = false ∧
      Route.ofPath starRequest.uri.path = .machine none "*" ∧ passedTarget "*" starRequest.uri.query = "*" ∧
      Dialing.resolve {} (movingWorld.list 0).1 starRequest.wanted ServiceProfile.devtools.selector =
        .ok movingBackend ∧
      movingBackend.endpoint.text = "127.0.0.1:41000" ∧ Uri.IsAuthority "127.0.0.1:41000" ∧
      Uri.parse ("http://127.0.0.1:41000" ++ passedTarget "*" starRequest.uri.query) =
        .ok ⟨some "http", some "127.0.0.1:41000*", "/", none⟩ ∧
      (Gateway.account {} movingWorld false 0 starRequest).1.exchanges.map (·.uri.pathAndQuery) = ["/"] := by
  have ha : Uri.IsAuthority "127.0.0.1:41000" := ⟨by decide +kernel, by decide +kernel⟩
  exact ⟨by decide +kernel, by decide +kernel, by decide +kernel, by decide +kernel, by decide +kernel,
    by decide +kernel, ha, by decide +kernel, by decide +kernel⟩

end Gateway

end MachineGateway
