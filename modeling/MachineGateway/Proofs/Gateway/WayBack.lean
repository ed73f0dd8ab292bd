/-
The way back. When a request named a machine, the socket URLs of its backend come out of the answer as URLs of the
gateway, under the path of that machine. Such a URL leads back to the machine exactly when the machine's name can stand
in a path as it is (`leads_back_iff`): the name is put into the URL as it was read, so a name that has to be escaped in
a path comes out as another path (`slash_leads_astray`).
-/
import MachineGateway.Proofs.Gateway.NamedPath
import MachineGateway.Proofs.SocketUrl.Splice

namespace MachineGateway

open Http SocketUrl

/-- a plain request with the host `h` that named a machine and is forwarded to it -/
structure NamedRequest (g : Gateway) (connected : Bool) (l : Listing) (r : Request) (f : Forwarding)
    (name h : String) : Prop where
  named : name ≠ ""
  asked : ∃ job, g.intake r = .ask job ∧ job.target = some name ∧ g.engage connected r job (.ok l) = .forward f
  host : Headers.text? r.headers "host" = some h
  plain : h ≠ "" ∧ IsPlain (Utf8.encode h)
  other : h ∉ f.backend.authorities

/-- a text body in which the socket URL of `authority` and `path` stands between `pre` and `post`: behind a boundary,
and before a byte that no authority of the backend goes on with -/
structure UrlInBody (b : Backend) (resp : Response) (authority path : String) (pre post : Bytes) : Prop where
  isText : Forwarding.isRewritable (Headers.without Forwarding.outdated resp.headers) = true
  body : resp.body = pre ++ (Opening.plainUrl.bytes ++ (Utf8.encode authority ++ Utf8.encode path ++ post))
  bound : boundary .plainUrl pre.getLast? = true
  ends : ∀ t ∈ post.head?, ∀ a ∈ b.authorities, t ∉ Utf8.encode a

/-- no socket URL of the backend is spelled within the URL of `host` and `path`, as in a path that holds one -/
def HoldsNoUrl (b : Backend) (host path : String) : Prop :=
  ∀ a ∈ b.authorities, ∀ i, openingAt? (Utf8.encode a) (Utf8.encode host)
    (Opening.plainUrl.bytes ++ (Utf8.encode host ++ Utf8.encode path)) i = none

variable {g : Gateway} {connected : Bool} {l : Listing} {r : Request} {f : Forwarding} {resp : Response}
  {name h authority path : String} {pre post : Bytes}

/-- the host that a named request puts in the place of the authorities -/
def namedHost (h name : String) : String := h ++ namedPrefix ++ "/" ++ name

theorem NamedRequest.publicBase_eq (hr : NamedRequest g connected l r f name h) : f.publicBase = namedHost h name := by
  obtain ⟨job, -, htarget, hforward⟩ := hr.asked
  rw [(Gateway.of_engage_eq_forward hforward).2.2, htarget]
  simp [Gateway.publicBase, Gateway.publicHostFor, hr.host, hr.plain.1, namedHost]

theorem NamedRequest.resolve_eq (hr : NamedRequest g connected l r f name h) :
    g.dialing.resolve (.ok l) (some name) g.config.service.selector = .ok f.backend := by
  obtain ⟨job, -, htarget, hforward⟩ := hr.asked
  rw [← htarget]
  exact (Gateway.of_engage_eq_forward hforward).1

/-- the bytes of the host: those of the request's host, and a path -/
theorem encode_namedHost (h name : String) :
    Utf8.encode (namedHost h name) = Utf8.encode h ++ 0x2F :: (Utf8.encode ("vm/" ++ name)) := by
  have hstart : Utf8.encode namedPrefix ++ Utf8.encode "/" = 0x2F :: Utf8.encode "vm/" := by decide +kernel
  simp only [namedHost, Utf8.encode_append]
  rw [List.append_assoc (Utf8.encode h), hstart]
  simp

/-- the URL comes out with the host in the place of the authority -/
theorem translate_url (hr : NamedRequest g connected l r f name h)
    (hauth : ∀ a ∈ f.backend.authorities, IsAuthority (Utf8.encode a)) (hmem : authority ∈ f.backend.authorities)
    (hpath : IsUriPath path) (hu : UrlInBody f.backend resp authority path pre post)
    (halone : HoldsNoUrl f.backend (namedHost h name) path) :
    ∃ pre' post', post'.head? = post.head? ∧
      rewriteAll (f.backend.authorities.map Utf8.encode) (Utf8.encode (namedHost h name))
        (pre ++ Opening.plainUrl.bytes) = pre' ++ Opening.plainUrl.bytes ∧
      (f.translate resp).body =
        pre' ++ (Opening.plainUrl.bytes ++ (Utf8.encode (namedHost h name) ++ Utf8.encode path ++ post')) := by
  obtain ⟨tail, htail⟩ := hpath.exists_tail
  have hslash : Utf8.encode path = 0x2F :: Utf8.encodeChars tail := by
    rw [Utf8.encode, htail]
    rfl
  have hbytes := encode_namedHost h name
  have hne : ∀ a ∈ f.backend.authorities, Utf8.encode a ≠ Utf8.encode h := by
    intro a ha heq
    rw [Utf8.encode_injective heq] at ha
    exact hr.other ha
  have hbody : (f.translate resp).body =
      rewriteAll (f.backend.authorities.map Utf8.encode) (Utf8.encode (namedHost h name)) resp.body := by
    simp [Forwarding.translate, hu.isText, hr.publicBase_eq]
  -- the URL with the host holds none of the authorities, so the passes after the one that makes it leave it alone
  have hl : ∀ x ∈ f.backend.authorities.map Utf8.encode, IsAuthority x ∧ x ≠ Utf8.encode h ∧
      Clear x none (some 0x2F)
        (Utf8.encode h ++ 0x2F :: Utf8.encode ("vm/" ++ name) ++ 0x2F :: Utf8.encodeChars tail) := by
    intro x hx
    obtain ⟨a, ha, rfl⟩ := List.mem_map.1 hx
    have hclear := clear_iff_openingAt?.2 (halone a ha)
    rw [hbytes, hslash, extension?_eq_none (hauth a ha).plain hr.plain.2 (hne a ha)] at hclear
    exact ⟨hauth a ha, hne a ha, hclear.of_append⟩
  have hends : ∀ t ∈ post.head?, ∀ x ∈ f.backend.authorities.map Utf8.encode, t ∉ x := by
    intro t ht x hx
    obtain ⟨a, ha, rfl⟩ := List.mem_map.1 hx
    exact hu.ends t ht a ha
  rw [hbody, hu.body, hbytes, hslash]
  exact rewriteAll_url hr.plain.2 (List.mem_map_of_mem hmem) hl pre post hu.bound hends

/-- **A rewritten URL leads back exactly when the name is a path segment.** The URL of `authority` and `path` comes
out, where it stood, as the URL of the request's host, the machine's name and `path`; and the target of that URL is
routed to the machine with `path` exactly when the name stands for itself as a segment of a path, and the target is not
too long. -/
theorem leads_back_iff (hr : NamedRequest g connected l r f name h)
    (hauth : ∀ a ∈ f.backend.authorities, IsAuthority (Utf8.encode a)) (hmem : authority ∈ f.backend.authorities)
    (hpath : IsUriPath path) (hu : UrlInBody f.backend resp authority path pre post)
    (halone : HoldsNoUrl f.backend (namedHost h name) path) :
    (∃ pre' post', post'.head? = post.head? ∧
      rewriteAll (f.backend.authorities.map Utf8.encode) (Utf8.encode (namedHost h name))
        (pre ++ Opening.plainUrl.bytes) = pre' ++ Opening.plainUrl.bytes ∧
      (f.translate resp).body =
        pre' ++ (Opening.plainUrl.bytes ++ (Utf8.encode (h ++ namedTarget name path) ++ post'))) ∧
      (g.LeadsTo l (namedTarget name path) name path ↔
        IsSegment name ∧ (Utf8.encode (namedTarget name path)).length ≤ Uri.lengthLimit) := by
  have htarget : Utf8.encode (h ++ namedTarget name path) = Utf8.encode (namedHost h name) ++ Utf8.encode path := by
    simp [namedTarget, namedHost, Utf8.encode_append]
  rw [htarget]
  exact ⟨translate_url hr hauth hmem hpath hu halone, Gateway.leadsTo_iff hpath hr.resolve_eq⟩

/-! ## A name that leads back, and one that does not -/

/-- a running machine that offers the default service -/
def pageMachine (name : String) : Machine :=
  { name, status := .running, address := "10.0.0.5", mappings := [⟨"cdp", "9223", "41000"⟩] }

/-- a request for a page -/
def pageRequest (path : String) : Request :=
  { method := "GET", uri := { path }, headers := [Headers.textField "host" "gw"] }

/-- what a request for the page `/json` of a machine is forwarded as -/
def pageForwarding (name : String) : Forwarding where
  target := "http://127.0.0.1:41000/json"
  outbound := { method := "GET", uri := ⟨some "http", some "127.0.0.1:41000", "/json", none⟩, headers := [] }
  backend := ⟨⟨"127.0.0.1", "41000"⟩, pageMachine name, ⟨"cdp", "9223", "41000"⟩⟩
  publicBase := namedHost "gw" name

/-- a page that is nothing but a socket URL of its backend -/
def page : Response := ⟨200, [], Utf8.encode "ws://127.0.0.1:41000/p"⟩

theorem isUriPath_page : IsUriPath "/p" :=
  ⟨by decide +kernel, List.all_eq_true.1 (by decide +kernel), by decide +kernel⟩

theorem urlInBody_page (name : String) :
    UrlInBody (pageForwarding name).backend page "127.0.0.1:41000" "/p" [] [] :=
  ⟨by decide +kernel, by decide +kernel, rfl, by simp⟩

theorem segment_leads_back :
    NamedRequest {} false ⟨[pageMachine "a"]⟩ (pageRequest "/vm/a/json") (pageForwarding "a") "a" "gw" ∧
      IsUriPath "/p" ∧ UrlInBody (pageForwarding "a").backend page "127.0.0.1:41000" "/p" [] [] ∧
      Gateway.LeadsTo {} ⟨[pageMachine "a"]⟩ (namedTarget "a" "/p") "a" "/p" := by
  have hr : NamedRequest {} false ⟨[pageMachine "a"]⟩ (pageRequest "/vm/a/json") (pageForwarding "a") "a" "gw" :=
    ⟨by decide +kernel, ⟨⟨some "a", "/json", false⟩, by decide +kernel, rfl, by decide +kernel⟩, by decide +kernel,
      ⟨by decide +kernel, by decide +kernel⟩, by decide +kernel⟩
  have hauthorities : (pageForwarding "a").backend.authorities = ["127.0.0.1:41000", "10.0.0.5:9223"] := by
    decide +kernel
  have hauth : ∀ a ∈ (pageForwarding "a").backend.authorities, IsAuthority (Utf8.encode a) := by
    rw [hauthorities]
    intro a ha
    rw [List.mem_pair] at ha
    rcases ha with rfl | rfl <;>
      exact ⟨by decide +kernel, by decide +kernel, by decide +kernel, by decide +kernel⟩
  have hu := urlInBody_page "a"
  have halone : HoldsNoUrl (pageForwarding "a").backend (namedHost "gw" "a") "/p" := by
    have hall : ∀ a ∈ (pageForwarding "a").backend.authorities,
        Clear (Utf8.encode a) (extension? (Utf8.encode a) (Utf8.encode (namedHost "gw" "a"))) none
          (Opening.plainUrl.bytes ++ (Utf8.encode (namedHost "gw" "a") ++ Utf8.encode "/p")) := by decide +kernel
    exact fun a ha => clear_iff_openingAt?.1 (hall a ha)
  have hsegment : IsSegment "a" := ⟨List.all_eq_true.1 (by decide +kernel), by decide +kernel, by decide +kernel⟩
  have hmem : "127.0.0.1:41000" ∈ (pageForwarding "a").backend.authorities := by decide +kernel
  exact ⟨hr, isUriPath_page, hu,
    (leads_back_iff hr hauth hmem isUriPath_page hu halone).2.2 ⟨hsegment, by decide +kernel⟩⟩

/-- the machine `a/b` is asked for as `/vm/a%2Fb/json`; the URL in the answer is `ws://gw/vm/a/b/p`, and it leads to
the machine `a` -/
theorem slash_leads_astray :
    NamedRequest {} false ⟨[pageMachine "a/b"]⟩ (pageRequest "/vm/a%2Fb/json") (pageForwarding "a/b") "a/b" "gw" ∧
      IsUriPath "/p" ∧ UrlInBody (pageForwarding "a/b").backend page "127.0.0.1:41000" "/p" [] [] ∧
      ((pageForwarding "a/b").translate page).body = Utf8.encode ("ws://gw" ++ namedTarget "a/b" "/p") ∧
      Gateway.intake {} (pageRequest (namedTarget "a/b" "/p")) = .ask ⟨some "a", "/b/p", false⟩ ∧
      ¬ Gateway.LeadsTo {} ⟨[pageMachine "a/b"]⟩ (namedTarget "a/b" "/p") "a/b" "/p" := by
  have hr : NamedRequest {} false ⟨[pageMachine "a/b"]⟩ (pageRequest "/vm/a%2Fb/json") (pageForwarding "a/b") "a/b"
      "gw" :=
    ⟨by decide +kernel, ⟨⟨some "a/b", "/json", false⟩, by decide +kernel, rfl, by decide +kernel⟩, by decide +kernel,
      ⟨by decide +kernel, by decide +kernel⟩, by decide +kernel⟩
  refine ⟨hr, isUriPath_page, urlInBody_page "a/b", by decide +kernel, by decide +kernel, ?_⟩
  have hparse : Uri.parse (namedTarget "a/b" "/p") = .ok { path := namedTarget "a/b" "/p" } := by decide +kernel
  rintro ⟨uri, huri, -, hroute⟩
  obtain rfl := Except.ok.inj (hparse.symm.trans huri)
  have hastray := hroute (pageRequest (namedTarget "a/b" "/p")) rfl rfl
  exact absurd hastray (by decide +kernel)

end MachineGateway
