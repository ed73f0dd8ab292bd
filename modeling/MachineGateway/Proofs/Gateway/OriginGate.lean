/-
The origin gate. A gateway with a list of origins turns a request for a socket away when its origin, in the form in
which origins are compared, is not on the list: before any listing is asked for and before any backend is contacted.

The origin is judged as text, so the gate sees only values all of whose bytes are visible (`turned_away_iff`). A value
with any other byte, such as one of 0x80 to 0xFF, is taken for no origin at all, and its request goes on
(`unreadable_origin_passes`).
-/
import MachineGateway.Proofs.Gateway.Phases
import MachineGateway.Proofs.Text.Blank
import MachineGateway.Proofs.Text.Utf8

namespace MachineGateway

open Http

namespace UpgradePolicy

/-! ## Origins as bytes -/

/-- white space of ASCII -/
def isBlankByte (b : UInt8) : Bool := b == 0x20 || (9 ≤ b && b ≤ 13)

/-- the form in which origins are compared, for the bytes of a header value: without white space around them, without
slashes at the end, in lower case -/
def normalizeBytes (v : Bytes) : Bytes :=
  (Text.dropEndWhile (· == 0x2F) (Text.stripWhile isBlankByte v)).map Upgrade.lowerByte

/-- the character that a byte stands for -/
def shown (b : UInt8) : Char := Char.ofNat b.toNat

theorem visible_cases {b : UInt8} (h : isVisibleByte b = true) :
    Text.isBlank (shown b) = isBlankByte b ∧ (shown b == '/') = (b == 0x2F) ∧
      Utf8.encodeChar (shown b).toLower = [Upgrade.lowerByte b] := by
  apply of_byte_lt b (isVisibleByte_lt h)
  decide +kernel

theorem encodeChars_lower {v : Bytes} (h : ∀ b ∈ v, isVisibleByte b = true) :
    Utf8.encodeChars ((v.map shown).map Char.toLower) = v.map Upgrade.lowerByte := by
  induction v with
  | nil => rfl
  | cons b v ih =>
    rw [List.map_cons, List.map_cons, Utf8.encodeChars_cons, (visible_cases (h b List.mem_cons_self)).2.2,
      ih fun x hx => h x (List.mem_cons_of_mem b hx)]
    rfl

theorem toList_of_visibleText? {v : Bytes} {t : String} (h : visibleText? v = some t) : t.toList = v.map shown := by
  simp only [visibleText?, (visibleText?_eq_some.1 h).1, if_true, Option.some.injEq] at h
  rw [← h, String.toList_ofList]
  rfl

/-- white space is cut off visible bytes as it is cut off the text that they show -/
theorem stripWhile_shown {v : Bytes} (hv : ∀ b ∈ v, isVisibleByte b = true) :
    Text.stripWhile Text.isBlank (v.map shown) = (Text.stripWhile isBlankByte v).map shown := by
  rw [Text.stripWhile_map]
  exact congrArg (List.map shown) (Text.stripWhile_congr fun b hb => (visible_cases (hv b hb)).1)

/-- on visible values the form of the bytes is the form of the text -/
theorem encode_normalize {v : Bytes} {t : String} (h : visibleText? v = some t) :
    Utf8.encode (normalize t) = normalizeBytes v := by
  have hv : ∀ b ∈ v, isVisibleByte b = true := isVisibleByte_of_visibleText? h
  have hcut : Text.dropEndWhile (· == '/') ((Text.stripWhile isBlankByte v).map shown) =
      (Text.dropEndWhile (· == 0x2F) (Text.stripWhile isBlankByte v)).map shown := by
    rw [Text.dropEndWhile_map]
    exact congrArg (List.map shown) (Text.dropEndWhile_congr fun b hb =>
      (visible_cases (hv b (Text.mem_of_mem_stripWhile hb))).2.1)
  have hleft : ∀ b ∈ Text.dropEndWhile (· == 0x2F) (Text.stripWhile isBlankByte v), isVisibleByte b = true :=
    fun b hb => hv b (Text.mem_of_mem_stripWhile (Text.mem_of_mem_dropEndWhile hb))
  calc Utf8.encode (normalize t)
      = Utf8.encodeChars
          ((Text.dropEndWhile (· == '/') (Text.stripWhile Text.isBlank t.toList)).map Char.toLower) := by
        simp [normalize, Text.lowerAscii, Text.trimEnd, Text.trim, Utf8.encode]
    _ = Utf8.encodeChars
          (((Text.dropEndWhile (· == 0x2F) (Text.stripWhile isBlankByte v)).map shown).map Char.toLower) := by
        rw [toList_of_visibleText? h, stripWhile_shown hv, hcut]
    _ = normalizeBytes v := encodeChars_lower hleft

/-- a list permits a visible origin if the form of its bytes is an entry -/
theorem permits_eq_false_iff {p : UpgradePolicy} {entries : List String} (hlist : p.allowed = some entries) {v : Bytes}
    {origin : String} (h : visibleText? v = some origin) :
    p.permits (some origin) = false ↔ normalizeBytes v ∉ entries.map Utf8.encode := by
  rw [← encode_normalize h, List.mem_map_of_injective Utf8.encode_injective]
  simp [permits, hlist]

end UpgradePolicy

namespace Gateway

/-! ## The gate -/

variable {σ : Type} {g : Gateway} {w : World σ} {connected : Bool} {s : σ} {r : Request} {v : Bytes}
  {entries : List String} {name : Option String} {path : String}

/-- a request turned away for the origin with these bytes, the world left as it was: no listing was asked for, and
nobody was contacted -/
def TurnedAway (v : Bytes) (s : σ) (h : Handled × σ) : Prop :=
  ∃ origin, Utf8.encode origin = v ∧ h = (⟨some (GatewayError.origin origin).response, 0, none⟩, s)

theorem TurnedAway.answer {h : Handled × σ} (ht : TurnedAway v s h) : ∃ origin, Utf8.encode origin = v ∧
    h.1.response = some (.ofText 403 "application/json" (Json.Doc.record
      [("error", .text ("Origin not permitted: " ++ origin)), ("kind", .text "origin_rejected")]).render) := by
  obtain ⟨origin, horigin, rfl⟩ := ht
  exact ⟨origin, horigin, rfl⟩

theorem turned_away_of_unlisted (hlist : g.config.policy.allowed = some entries)
    (hroute : Route.ofPath r.uri.path = .machine name path) (hasks : Upgrade.asksForSocket r.headers = true)
    (hfirst : Headers.first? r.headers "origin" = some v) (hv : v.all isVisibleByte = true)
    (hnot : UpgradePolicy.normalizeBytes v ∉ entries.map Utf8.encode) :
    TurnedAway v s (g.handle w connected s r) := by
  obtain ⟨origin, htext⟩ : ∃ origin, visibleText? v = some origin := ⟨_, if_pos hv⟩
  have horigin : originOf r = some origin := by simp [originOf, Headers.text?, hfirst, htext]
  have hperm : g.config.policy.permits (some origin) = false :=
    (UpgradePolicy.permits_eq_false_iff hlist htext).2 hnot
  refine ⟨origin, (visibleText?_eq_some.1 htext).2, handle_of_answer ?_⟩
  simp [intake, hroute, intakeJob, hasks, horigin, hperm]

theorem listed_of_not_unlisted (hlist : g.config.policy.allowed = some entries)
    (hroute : Route.ofPath r.uri.path = .machine name path)
    (hno : ¬ (Upgrade.asksForSocket r.headers = true ∧ ∃ v, Headers.first? r.headers "origin" = some v ∧
      v.all isVisibleByte = true ∧ UpgradePolicy.normalizeBytes v ∉ entries.map Utf8.encode)) :
    (g.handle w connected s r).1.listings = 1 := by
  have hadmits : g.Admits r := by
    by_contra hstop
    simp only [Admits, Bool.not_eq_false, Bool.and_eq_true, Bool.not_eq_true'] at hstop
    obtain ⟨hasks, hperm⟩ := hstop
    cases ho : originOf r with
    | none => rw [ho] at hperm; exact absurd hperm (by simp [UpgradePolicy.permits])
    | some origin =>
      obtain ⟨v, hfirst, htext⟩ := Option.bind_eq_some_iff.1 ho
      rw [ho, UpgradePolicy.permits_eq_false_iff hlist htext] at hperm
      exact hno ⟨hasks, v, hfirst, (visibleText?_eq_some.1 htext).1, hperm⟩
  exact listings_of_ask (intake_of_admits hroute hadmits)

/-- **The list is bypassed by unreadable origins, and only by them.** A request for a socket whose first origin is not
on the list is turned away exactly when every byte of that origin is visible; every request apart from those goes on
to a listing, whatever its origins are. -/
theorem turned_away_iff (g : Gateway) (w : World σ) (connected : Bool) (s : σ) (r : Request)
    (hlist : g.config.policy.allowed = some entries) (hroute : Route.ofPath r.uri.path = .machine name path) :
    (∀ v, Upgrade.asksForSocket r.headers = true → Headers.first? r.headers "origin" = some v →
      UpgradePolicy.normalizeBytes v ∉ entries.map Utf8.encode →
        (TurnedAway v s (g.handle w connected s r) ↔ v.all isVisibleByte = true)) ∧
      (¬ (Upgrade.asksForSocket r.headers = true ∧ ∃ v, Headers.first? r.headers "origin" = some v ∧
          v.all isVisibleByte = true ∧ UpgradePolicy.normalizeBytes v ∉ entries.map Utf8.encode) →
        (g.handle w connected s r).1.listings = 1) := by
  refine ⟨fun v hasks hfirst hnot => ⟨fun ht => ?_, fun hv => ?_⟩, listed_of_not_unlisted hlist hroute⟩
  · by_contra hv
    obtain ⟨origin, -, ht⟩ := ht
    have hone : (g.handle w connected s r).1.listings = 1 := by
      refine listed_of_not_unlisted hlist hroute ?_
      rintro ⟨-, v', hfirst', hv', -⟩
      rw [hfirst] at hfirst'
      obtain rfl := Option.some.inj hfirst'
      exact hv hv'
    rw [ht] at hone
    exact absurd hone Nat.zero_ne_one
  · exact turned_away_of_unlisted hlist hroute hasks hfirst hv hnot

/-- a gateway that lets one origin open sockets -/
def oneOrigin : Gateway := { config := { policy := .allowOrigins ["https://a.example"] } }

/-- a request for a socket with these bytes for an origin -/
def socketRequest (origin : Bytes) : Request :=
  { method := "GET", uri := { path := "/json" }
    headers := [Headers.textField "connection" "upgrade", Headers.textField "upgrade" "websocket",
      ⟨"origin", origin⟩] }

/-- a world without machines, which counts its listings -/
def emptyWorld : World Nat where
  list n := (.ok {}, n + 1)
  exchange _ n := (.noConnection, n)

theorem other_origin_turned_away :
    oneOrigin.config.policy.allowed = some ["https://a.example"] ∧
      Route.ofPath (socketRequest (Utf8.encode "https://b.example/")).uri.path = .machine none "/json" ∧
      TurnedAway (Utf8.encode "https://b.example/") 0
        (oneOrigin.handle emptyWorld true 0 (socketRequest (Utf8.encode "https://b.example/"))) := by
  have hlist : oneOrigin.config.policy.allowed = some ["https://a.example"] := by decide +kernel
  have hroute : Route.ofPath (socketRequest (Utf8.encode "https://b.example/")).uri.path = .machine none "/json" := by
    decide +kernel
  refine ⟨hlist, hroute, ((turned_away_iff oneOrigin emptyWorld true 0 _ hlist hroute).1 _ ?_ ?_ ?_).2 ?_⟩ <;>
    decide +kernel

/-- the origin of the single byte 0xFF is not on the list, and its request goes on to a listing -/
theorem unreadable_origin_passes :
    Upgrade.asksForSocket (socketRequest [0xFF]).headers = true ∧
      Headers.first? (socketRequest [0xFF]).headers "origin" = some [0xFF] ∧
      UpgradePolicy.normalizeBytes [0xFF] ∉ ["https://a.example"].map Utf8.encode ∧
      (oneOrigin.handle emptyWorld true 0 (socketRequest [0xFF])).1.listings = 1 ∧
      ¬ TurnedAway [0xFF] 0 (oneOrigin.handle emptyWorld true 0 (socketRequest [0xFF])) := by
  have hone : (oneOrigin.handle emptyWorld true 0 (socketRequest [0xFF])).1.listings = 1 := by decide +kernel
  refine ⟨by decide +kernel, by decide +kernel, by decide +kernel, hone, ?_⟩
  rintro ⟨origin, -, ht⟩
  rw [ht] at hone
  exact absurd hone Nat.zero_ne_one

end Gateway

end MachineGateway
