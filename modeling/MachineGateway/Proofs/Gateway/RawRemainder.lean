/-
The remainder of a path behind a machine's name. The backend is to get it as the caller sent it, whatever its escapes
stand for. What they stand for never shows in what is handed on, but they must stand for some text: a remainder that
stands for none is refused before any listing (`remainder_handed_on_iff`), be it a single escaped byte
(`escaped_byte_refused`). Apart from that, a remainder is not handed on only if the URL is too long or the backend's
address cannot stand in one.
-/
import MachineGateway.Proofs.Gateway.NamedPath
import MachineGateway.Proofs.Gateway.Transparency

namespace MachineGateway

open Http

variable {t segment remainder n : String} {uri given : Uri}

/-! ## The route -/

/-- of what follows the name a route looks only at whether it can be read -/
theorem Route.named_remainder {path part tail : List Char} (hpart : '/' ∉ part)
    (hn : Percent.decodeText? part = some n) :
    named path (part ++ '/' :: tail) = if (Percent.decodeText? tail).isSome then
      .machine (some n) (String.ofList ('/' :: tail)) else .unreadable "path" := by
  split_ifs with htail
  · exact named_append hpart hn htail
  · have hne : tail.isEmpty = false := by
      cases tail with
      | nil => exact absurd (by decide +kernel) htail
      | cons c tail => rfl
    rw [Option.not_isSome_iff_eq_none] at htail
    simp [named, Text.cutAt_append hpart, hn, hne, htail]

theorem slash_append_eq (remainder : String) : "/" ++ remainder = String.ofList ('/' :: remainder.toList) := by
  rw [← String.toList_inj, String.toList_ofList]
  simp

theorem Route.ofPath_remainder (hsegment : '/' ∉ segment.toList)
    (hname : Percent.decodeText? segment.toList = some n) (remainder : String) :
    ofPath (namedTarget segment ("/" ++ remainder)) = if (Percent.decodeText? remainder.toList).isSome then
      .machine (some n) ("/" ++ remainder) else .unreadable "path" := by
  rw [namedTarget_eq, ofPath_named, slash_append_eq, String.toList_ofList, named_remainder hsegment hname]

/-! ## The URL -/

theorem ne_star_of_namedTarget {path : String} (ht : Uri.parse t = .ok given)
    (hpath : given.path = namedTarget segment path) : t ≠ "*" := by
  rintro rfl
  rcases Uri.target_cases ht with ⟨-, rfl⟩ | ⟨hne, -⟩
  · have hhead := congrArg (List.head? ∘ String.toList) hpath
    simp [toList_namedTarget, Route.namedStart] at hhead
  · exact hne rfl

/-- the path of a URL that is read is the path of the route, if that is led by a slash -/
theorem path_of_read {a path : String} {name : Option String} (ha : ∀ c ∈ a.toList, Uri.endsAuthority c = false)
    (ht : Uri.parse t = .ok given) (hne : t ≠ "*") (hroute : Route.ofPath given.path = .machine name path)
    (hslash : path.toList.head? = some '/')
    (hread : Uri.parse ("http://" ++ a ++ passedTarget path given.query) = .ok uri) : uri.path = path := by
  obtain ⟨rest, htext, hchars, hrest⟩ := attach_split (Uri.isClean_of_parse ht) hroute
  rw [attach_eq_passedTarget] at htext
  have hparsed := (slash_of_read ha ht hroute hread).2 hne
  rw [htext] at hparsed
  rw [Uri.path_of_parsePath hchars hrest hslash hparsed, String.ofList_toList]

/-- what reaches a backend when a request is handed on with a path -/
def HandsOnPath (r : Request) (address path : String) (o : Outbound) : Prop :=
  HandsOn r o ∧ o.uri.authority = some address ∧ o.uri.path = path ∧ o.uri.pathAndQuery = passedTarget path r.uri.query

namespace Gateway

variable {σ : Type} {g : Gateway} {w : World σ} {connected : Bool} {s : σ} {r : Request} {b : Backend}

/-- what the caller is told whose remainder cannot be read -/
def unreadableRemainder : Response :=
  .ofText 400 "text/plain; charset=utf-8" "Invalid URL: Invalid UTF-8 in `path`"

/-- a plain request with a backend is forwarded to its URL, unless that cannot be read -/
theorem engage_plain {listing : Except LookupError Listing} {target : Option String} (connected : Bool) (r : Request)
    (hb : g.dialing.resolve listing target g.config.service.selector = .ok b) (pathAndQuery : String) :
    (∃ f, Forwarding.start r b pathAndQuery (g.publicBase r target) = .ok f ∧
        g.engage connected r ⟨target, pathAndQuery, false⟩ listing = .forward f) ∨
      ∃ reason, g.engage connected r ⟨target, pathAndQuery, false⟩ listing =
          .answer (GatewayError.badTarget reason).response ∧
        ¬ ∃ uri, Uri.parse ("http://" ++ b.endpoint.text ++ pathAndQuery) = .ok uri := by
  simp only [engage, hb, Forwarding.start]
  cases Uri.parse ("http://" ++ b.endpoint.text ++ pathAndQuery) with
  | ok uri => exact Or.inl ⟨_, rfl, rfl⟩
  | error e => exact Or.inr ⟨_, rfl, by simp⟩

/-- a plain request whose path is led by a slash is handed on with it, if its backend's address can stand in a URL and
the URL is not too long -/
theorem handed_on_iff (connected : Bool) {name : Option String} {path : String} (ht : Uri.parse t = .ok r.uri)
    (hne : t ≠ "*") (hroute : Route.ofPath r.uri.path = .machine name path) (hslash : path.toList.head? = some '/')
    (hplain : Upgrade.asksForSocket r.headers = false)
    (hb : g.dialing.resolve (w.list s).1 ((RoutedQuery.namesIn r.uri.query).getLast?.or name)
      g.config.service.selector = .ok b) :
    let fits := Uri.Fits ("http://" ++ b.endpoint.text ++ passedTarget path r.uri.query)
    ((∃ o, (g.account w connected s r).1.asked = [.listing (w.list s).1, .exchange o] ∧
        HandsOnPath r b.endpoint.text path o) ↔ Uri.IsAuthority b.endpoint.text ∧ fits) ∧
      (¬ fits → ∃ reason, (g.account w connected s r).1 =
        ⟨⟨some (GatewayError.badTarget reason).response, 1, none⟩, [.listing (w.list s).1]⟩) := by
  intro fits
  have hadmits : g.Admits r := by simp [Admits, hplain]
  have hjob := intake_of_admits hroute hadmits
  rw [hplain, attach_eq_passedTarget, RoutedQuery.ofQuery_name] at hjob
  have hread : Uri.IsAuthority b.endpoint.text → fits →
      Uri.HasAuthority ("http://" ++ b.endpoint.text ++ passedTarget path r.uri.query) b.endpoint.text := by
    intro ha hfits
    rw [← attach_eq_passedTarget]
    exact (hasAuthority_iff ht hroute isScheme_http ha).2 ⟨hne, by rwa [attach_eq_passedTarget]⟩
  rcases engage_plain connected r hb (passedTarget path r.uri.query) with ⟨f, hstart, he⟩ | ⟨reason, he, hunread⟩
  · obtain ⟨htarget, hparse, -, -⟩ := Forwarding.of_start_eq_ok hstart
    rw [htarget] at hparse
    obtain ⟨answer, haccount⟩ := account_of_forward (s := s) hjob he
    have hfits : fits := Uri.fits_of_parse hparse
    refine ⟨⟨?_, ?_⟩, fun hno => absurd hfits hno⟩
    · rintro ⟨o, hasked, -, hauthority, -⟩
      obtain rfl : f.outbound = o := by simpa [haccount] using hasked
      exact ⟨Uri.isAuthority_of_parse hparse hauthority, hfits⟩
    · rintro ⟨ha, -⟩
      obtain ⟨uri, hread, hauthority⟩ := hread ha hfits
      obtain rfl : uri = f.outbound.uri := Except.ok.inj (hread.symm.trans hparse)
      exact ⟨f.outbound, by rw [haccount], handsOn_of_start hstart, hauthority,
        path_of_read ha.not_ends ht hne hroute hslash hparse, (arrives_iff ht hroute ha.not_ends hparse).2 hslash⟩
  · -- nothing is handed on, and the URL cannot have been read
    have haccount := account_of_engaged_answer (s := s) hjob he
    refine ⟨⟨by simp [haccount], ?_⟩, fun _ => ⟨reason, by rw [haccount]⟩⟩
    rintro ⟨ha, hfits⟩
    obtain ⟨uri, hread, -⟩ := hread ha hfits
    exact absurd ⟨uri, hread⟩ hunread

/-- **The remainder is handed on as it was sent, if it can be read.** A plain request for a machine's path, with any
method and any query, reaches the backend of its machine, with the path byte for byte, exactly if the remainder stands
for some text, the backend's address can stand in a URL, and the URL is not too long. With a remainder that stands for
no text nothing is asked of anyone, and with a URL that is too long nothing but a listing; the caller is told why. -/
theorem remainder_handed_on_iff (g : Gateway) (w : World σ) (connected : Bool) (s : σ)
    (ht : Uri.parse t = .ok r.uri) (hpath : r.uri.path = namedTarget segment ("/" ++ remainder))
    (hsegment : '/' ∉ segment.toList) (hname : Percent.decodeText? segment.toList = some n)
    (hplain : Upgrade.asksForSocket r.headers = false)
    (hb : g.dialing.resolve (w.list s).1 ((RoutedQuery.namesIn r.uri.query).getLast?.or (some n))
      g.config.service.selector = .ok b) :
    let readable := (Percent.decodeText? remainder.toList).isSome = true
    let fits := Uri.Fits ("http://" ++ b.endpoint.text ++ passedTarget ("/" ++ remainder) r.uri.query)
    ((∃ o, (g.account w connected s r).1.asked = [.listing (w.list s).1, .exchange o] ∧
          HandsOnPath r b.endpoint.text ("/" ++ remainder) o) ↔
        readable ∧ Uri.IsAuthority b.endpoint.text ∧ fits) ∧
      (¬ readable → g.account w connected s r = (⟨⟨some unreadableRemainder, 0, none⟩, []⟩, s)) ∧
      (readable → ¬ fits → ∃ reason, (g.account w connected s r).1 =
        ⟨⟨some (GatewayError.badTarget reason).response, 1, none⟩, [.listing (w.list s).1]⟩) := by
  intro readable fits
  have hroute := Route.ofPath_remainder hsegment hname remainder
  rw [← hpath] at hroute
  by_cases hreadable : readable
  · rw [if_pos hreadable] at hroute
    have hslash : ("/" ++ remainder).toList.head? = some '/' := by simp
    obtain ⟨hiff, hlong⟩ := handed_on_iff connected ht (ne_star_of_namedTarget ht hpath) hroute hslash hplain hb
    exact ⟨hiff.trans (and_iff_right hreadable).symm, absurd hreadable, fun _ => hlong⟩
  · rw [if_neg hreadable] at hroute
    have hrefused : g.intake r = .answer unreadableRemainder := by
      simp only [intake, hroute]
      rfl
    have haccount : g.account w connected s r = _ := account_of_answer hrefused
    exact ⟨by simp [haccount, hreadable], fun _ => haccount, fun h => absurd h hreadable⟩

/-- a request whose name is escaped, and whose remainder holds an escaped slash and an empty segment -/
def escapedRequest : Request :=
  { method := "PUT", uri := { path := "/vm/%61/a%2Fb//c%20d/%E2%82%AC", query := some "x=1&vm=&y" }, body := [1, 2] }

/-- the remainder `a%2Fb//c%20d/%E2%82%AC` of a path of the machine `a`, which the path names as `%61` -/
theorem escaped_remainder_handed_on :
    Uri.parse "/vm/%61/a%2Fb//c%20d/%E2%82%AC?x=1&vm=&y" = .ok escapedRequest.uri ∧
      escapedRequest.uri.path = namedTarget "%61" ("/" ++ "a%2Fb//c%20d/%E2%82%AC") ∧ '/' ∉ "%61".toList ∧
      Percent.decodeText? "%61".toList = some "a" ∧ Upgrade.asksForSocket escapedRequest.headers = false ∧
      Dialing.resolve {} (movingWorld.list 0).1 ((RoutedQuery.namesIn escapedRequest.uri.query).getLast?.or (some "a"))
        ServiceProfile.devtools.selector = .ok movingBackend ∧
      Uri.IsAuthority movingBackend.endpoint.text ∧
      ∃ o : Outbound, (Gateway.account {} movingWorld false 0 escapedRequest).1.exchanges = [o] ∧ o.method = "PUT" ∧
        o.uri.authority = some "127.0.0.1:41000" ∧ o.uri.path = "/a%2Fb//c%20d/%E2%82%AC" ∧
        o.uri.pathAndQuery = "/a%2Fb//c%20d/%E2%82%AC?x=1&y" := by
  have ht : Uri.parse "/vm/%61/a%2Fb//c%20d/%E2%82%AC?x=1&vm=&y" = .ok escapedRequest.uri := by decide +kernel
  have hpath : escapedRequest.uri.path = namedTarget "%61" ("/" ++ "a%2Fb//c%20d/%E2%82%AC") := by decide +kernel
  have hsegment : '/' ∉ "%61".toList := by decide +kernel
  have hname : Percent.decodeText? "%61".toList = some "a" := by decide +kernel
  have hplain : Upgrade.asksForSocket escapedRequest.headers = false := by decide +kernel
  have hb : Dialing.resolve {} (movingWorld.list 0).1
      ((RoutedQuery.namesIn escapedRequest.uri.query).getLast?.or (some "a")) ServiceProfile.devtools.selector =
        .ok movingBackend := by decide +kernel
  have ha : Uri.IsAuthority movingBackend.endpoint.text := ⟨by decide +kernel, by decide +kernel⟩
  have hreadable : (Percent.decodeText? "a%2Fb//c%20d/%E2%82%AC".toList).isSome = true := by decide +kernel
  have hfits : Uri.Fits ("http://" ++ movingBackend.endpoint.text ++
      passedTarget ("/" ++ "a%2Fb//c%20d/%E2%82%AC") escapedRequest.uri.query) := by
    unfold Uri.Fits
    decide +kernel
  obtain ⟨o, hasked, hon, hauthority, hkept, hwhole⟩ :=
    (remainder_handed_on_iff {} movingWorld false 0 ht hpath hsegment hname hplain hb).1.2 ⟨hreadable, ha, hfits⟩
  exact ⟨ht, hpath, hsegment, hname, hplain, hb, ha, o, by rw [Account.exchanges, hasked]; rfl, hon.method, hauthority,
    hkept, hwhole.trans (by decide +kernel)⟩

/-- a request whose remainder is one escaped byte that is no text -/
def byteRequest : Request := { method := "GET", uri := { path := "/vm/a/%FF" } }

/-- the remainder `%FF` is made of path characters and fits, but stands for no text: the request is refused, although
there is a backend for it -/
theorem escaped_byte_refused :
    Uri.parse "/vm/a/%FF" = .ok byteRequest.uri ∧ byteRequest.uri.path = namedTarget "a" ("/" ++ "%FF") ∧
      '/' ∉ "a".toList ∧ Percent.decodeText? "a".toList = some "a" ∧ (∀ c ∈ "%FF".toList, Uri.isPathChar c = true) ∧
      Upgrade.asksForSocket byteRequest.headers = false ∧
      Dialing.resolve {} (movingWorld.list 0).1 ((RoutedQuery.namesIn byteRequest.uri.query).getLast?.or (some "a"))
        ServiceProfile.devtools.selector = .ok movingBackend ∧
      Uri.IsAuthority movingBackend.endpoint.text ∧
      Uri.Fits ("http://" ++ movingBackend.endpoint.text ++ passedTarget ("/" ++ "%FF") byteRequest.uri.query) ∧
      (Gateway.account {} movingWorld false 0 byteRequest).1.exchanges = [] ∧
      (Gateway.handle {} movingWorld false 0 byteRequest).1 = ⟨some unreadableRemainder, 0, none⟩ := by
  have ha : Uri.IsAuthority movingBackend.endpoint.text := ⟨by decide +kernel, by decide +kernel⟩
  have hfits : Uri.Fits ("http://" ++ movingBackend.endpoint.text ++
      passedTarget ("/" ++ "%FF") byteRequest.uri.query) := by
    unfold Uri.Fits
    decide +kernel
  have hnone : (Gateway.account {} movingWorld false 0 byteRequest).1.exchanges.length = 0 := by decide +kernel
  exact ⟨by decide +kernel, by decide +kernel, by decide +kernel, by decide +kernel,
    List.all_eq_true.1 (by decide +kernel), by decide +kernel, by decide +kernel, ha, hfits,
    List.length_eq_zero_iff.1 hnone, by decide +kernel⟩

end Gateway

end MachineGateway
