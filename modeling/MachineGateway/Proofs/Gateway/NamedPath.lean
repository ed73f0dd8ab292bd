/-
Paths that name a machine. The target `/vm/NAME PATH` leads to the machine `NAME` with `PATH` exactly when `NAME` can
stand in a path as it is: all of it path characters without a slash, and nothing in it that reads as something else
(`leadsTo_iff`). Otherwise the name would have to be read from a part of itself, or from a query that the name and the
path together are too light for.
-/
import MachineGateway.Proofs.Gateway.Phases
import MachineGateway.Proofs.Gateway.Routing
import MachineGateway.Proofs.Http.Target

namespace MachineGateway

open Http

/-- a name that stands for itself as one segment of a path -/
structure IsSegment (name : String) : Prop where
  chars : ∀ c ∈ name.toList, Uri.isPathChar c = true
  slash : '/' ∉ name.toList
  decodes : Percent.decodeText? name.toList = some name

/-- a path as a URI holds it: path characters from a slash on, and text when its escapes are read -/
structure IsUriPath (path : String) : Prop where
  slash : path.toList.head? = some '/'
  chars : ∀ c ∈ path.toList, Uri.isPathChar c = true
  decodes : (Percent.decodeText? path.toList).isSome = true

/-- the target of a machine's path -/
def namedTarget (name path : String) : String := namedPrefix ++ "/" ++ name ++ path

namespace Gateway

/-- requests for the target that the policy lets pass are routed to the machine of that name with this path -/
def LeadsTo (g : Gateway) (l : Listing) (target name path : String) : Prop :=
  ∃ uri, Uri.parse target = .ok uri ∧
    (∃ b, g.dialing.resolve (.ok l) (some name) g.config.service.selector = .ok b ∧ b.machine.name = name) ∧
    ∀ r : Request, r.uri = uri → g.Admits r → g.intake r = .ask ⟨some name, path, Upgrade.asksForSocket r.headers⟩

end Gateway

/-- where a target is routed to, whoever asks -/
def RoutesTo (uri : Uri) (name path : String) : Prop :=
  ∃ given p, Route.ofPath uri.path = .machine given p ∧ (RoutedQuery.ofQuery uri.query).name.or given = some name ∧
    (RoutedQuery.ofQuery uri.query).attach p = path

variable {name path : String} {uri : Uri}

theorem toList_namedTarget (name path : String) :
    (namedTarget name path).toList = Route.namedStart ++ (name.toList ++ path.toList) := by
  rw [← Route.namedStart_eq]
  simp [namedTarget]

theorem namedTarget_eq (name path : String) :
    namedTarget name path = String.ofList (Route.namedStart ++ (name.toList ++ path.toList)) := by
  rw [← toList_namedTarget, String.ofList_toList]

/-! ## A segment leads back -/

theorem decodeText?_slash {tail : List Char} (h : (Percent.decodeText? ('/' :: tail)).isSome = true) :
    (Percent.decodeText? tail).isSome = true := by
  have hpieces : Utf8.pieces (Percent.decode (Utf8.encodeChars ('/' :: tail))) =
      some '/' :: Utf8.pieces (Percent.decode (Utf8.encodeChars tail)) := by
    rw [Utf8.encodeChars_cons, Percent.decode_append (by decide), Utf8.pieces_encodeChar]
  simpa [Percent.decodeText?, Utf8.decode?, Utf8.decodeChars?, hpieces, Utf8.wholeChars] using h

theorem IsUriPath.exists_tail (hp : IsUriPath path) : ∃ tail, path.toList = '/' :: tail := by
  have h := hp.slash
  cases hl : path.toList with
  | nil => simp [hl] at h
  | cons c tail =>
    obtain rfl : c = '/' := by simpa [hl] using h
    exact ⟨tail, rfl⟩

theorem routesTo_of_isSegment (hp : IsUriPath path) (hn : IsSegment name)
    (hlen : (Utf8.encode (namedTarget name path)).length ≤ Uri.lengthLimit) :
    ∃ uri, Uri.parse (namedTarget name path) = .ok uri ∧ RoutesTo uri name path := by
  obtain ⟨tail, htail⟩ := hp.exists_tail
  have hchars : ∀ c ∈ Route.namedStart ++ (name.toList ++ path.toList), Uri.isPathChar c = true := by
    intro c hc
    rw [List.mem_append, List.mem_append] at hc
    rcases hc with hc | hc | hc
    · exact List.all_eq_true.1 (by decide : Route.namedStart.all Uri.isPathChar = true) c hc
    · exact hn.chars c hc
    · exact hp.chars c hc
  rw [Utf8.encode, toList_namedTarget] at hlen
  rw [namedTarget_eq]
  refine ⟨_, Uri.parse_path rfl hchars hlen, some name, path, ?_, rfl, rfl⟩
  have hdecodes := decodeText?_slash (htail ▸ hp.decodes)
  rw [Route.ofPath_named, htail, Route.named_append hn.slash hn.decodes hdecodes, ← htail, String.ofList_toList]

/-! ## Only a segment leads back -/

/-- the part of a list before the first separator is one -/
theorem part_eq_of_append {part part' tail tail' : List Char} (h : '/' ∉ part) (h' : '/' ∉ part')
    (heq : part ++ '/' :: tail = part' ++ '/' :: tail') : part = part' := by
  have hcut := Text.cutAt_append h tail
  rw [heq, Text.cutAt_append h' tail'] at hcut
  exact (Prod.mk.inj hcut).1.symm

/-- a name is not read from the text before a slash that it holds -/
theorem isSegment_of_named {p : String} {all : List Char} (hp : IsUriPath path)
    (hchars : ∀ c ∈ name.toList, Uri.isPathChar c = true)
    (h : Route.named all (name.toList ++ path.toList) = .machine (some name) p) : IsSegment name ∧ p = path := by
  obtain ⟨tail, htail⟩ := hp.exists_tail
  rw [htail] at h
  rcases Route.named_cases h with ⟨-, hnone, -⟩ | ⟨hno, -, -⟩ | ⟨part, rest, hno, hrest, ⟨n, hn, hsome⟩, hp'⟩
  · exact absurd hnone (by simp)
  · exact absurd (by simp) hno
  obtain rfl := Option.some.inj hsome
  by_cases hslash : '/' ∈ name.toList
  · obtain ⟨k, k', hk, hk'⟩ := List.eq_append_cons_of_mem hslash
    rw [hk, List.append_assoc, List.cons_append] at hrest
    obtain rfl := part_eq_of_append hk' hno hrest
    have hweight := Percent.weight_decodeText hn
    have hone := (weight_singleton '/').1
    rw [hk, weight_append, weight_cons] at hweight
    omega
  · obtain rfl := part_eq_of_append hslash hno hrest
    obtain rfl : rest = tail := by simpa using hrest.symm
    exact ⟨⟨hchars, hslash, hn⟩, by rw [hp', ← htail, String.ofList_toList]⟩

/-- the path that is left of a named one is no heavier than `/vm/` and what follows it -/
theorem weight_of_named_path {rest : List Char} {given : Option String} {p : String}
    (h : Route.named (Route.namedStart ++ rest) rest = .machine given p) : weight p.toList ≤ weight rest + 4 := by
  rcases Route.named_cases h with ⟨rfl, -, rfl⟩ | ⟨-, -, rfl⟩ | ⟨part, tail, -, rfl, -, rfl⟩
  · rw [String.toList_ofList]
    decide
  · rw [show weight "/".toList = 1 by decide +kernel]
    omega
  · rw [String.toList_ofList, weight_append]
    omega

theorem queryOf_sublist {c : Char} {t cs : List Char} (h : Uri.queryOf (c :: t) = some cs) : cs.Sublist t := by
  unfold Uri.queryOf at h
  split at h
  · rename_i rest heq
    obtain rfl := (List.cons.inj heq).2
    obtain rfl := Option.some.inj h
    exact List.takeWhile_sublist _
  · exact absurd h (by simp)

theorem mark_mem_of_attach {q : RoutedQuery} {p : String} (h : p ≠ q.attach p) : '?' ∈ (q.attach p).toList := by
  unfold RoutedQuery.attach at h ⊢
  split at h
  · exact absurd rfl h
  · split_ifs at h with hr
    · exact absurd rfl h
    · rw [if_neg hr]
      simp

/-- no name is read from a target that is cut within the name -/
theorem not_routesTo_of_split {q t : List Char} {c : Char} {query : Option String} (hp : IsUriPath path)
    (hname : name.toList = q ++ c :: t)
    (hquery : query = (Uri.queryOf (c :: t ++ path.toList)).map String.ofList) :
    ¬ RoutesTo { path := String.ofList (Route.namedStart ++ q), query } name path := by
  rintro ⟨given, p, hroute, hgiven, hattach⟩
  simp only [Route.ofPath_named] at hroute
  have hweight : weight name.toList = weight q + (weight [c] + weight t) := by
    rw [hname, weight_append, weight_cons]
  have hone := (weight_singleton c).1
  -- the part of the name that is left in the path is too light to give the name, so the query has to give it
  have hnot : given ≠ some name := by
    rintro rfl
    have := Route.weight_of_named hroute
    omega
  cases hq : query with
  | none =>
    subst hq
    exact hnot (by simpa [RoutedQuery.ofQuery] using hgiven)
  | some text =>
    subst hq
    simp only [RoutedQuery.ofQuery] at hgiven hattach
    have hfirst : (RoutedQuery.ofText text).name = some name := by
      cases hn : (RoutedQuery.ofText text).name with
      | none => exact absurd (by simpa [hn] using hgiven) hnot
      | some n => simpa [hn] using hgiven
    have htext : text.toList.Sublist (t ++ path.toList) := by
      obtain ⟨cs, hcs, rfl⟩ := Option.map_eq_some_iff.1 hquery.symm
      rw [String.toList_ofList]
      exact queryOf_sublist hcs
    have hpath : p = path := by
      by_contra hne
      have hmark : '?' ∈ path.toList := by
        rw [← hattach]
        exact mark_mem_of_attach (by rwa [hattach])
      exact absurd (hp.chars _ hmark) (by decide)
    have hquery := RoutedQuery.weight_of_query hfirst
    have hle := weight_le_of_sublist htext
    have hleft := weight_of_named_path hroute
    rw [weight_append, ← hpath] at hle
    omega

theorem isSegment_of_routesTo (hp : IsUriPath path) (hparse : Uri.parse (namedTarget name path) = .ok uri)
    (h : RoutesTo uri name path) :
    IsSegment name ∧ (Utf8.encode (namedTarget name path)).length ≤ Uri.lengthLimit := by
  rw [namedTarget_eq] at hparse ⊢
  obtain ⟨hlen, shown, query, hread, rfl⟩ := Uri.of_parse_eq_ok rfl hparse
  rw [Utf8.encode_ofList]
  refine ⟨?_, hlen⟩
  obtain ⟨q, rest, hname, hq, hrest⟩ := Uri.exists_path_split name.toList
  have hstart : ∀ c ∈ Route.namedStart, Uri.endsPath c = false := by simp [Route.namedStart, Uri.endsPath]
  rcases hrest with rfl | ⟨c, t, rfl, hc⟩
  · -- the whole target is a path
    have hends : ∀ c ∈ Route.namedStart ++ (name.toList ++ path.toList), Uri.endsPath c = false := by
      intro c hc
      rw [hname, List.append_nil, List.mem_append, List.mem_append] at hc
      rcases hc with hc | hc | hc
      · exact hstart c hc
      · exact hq c hc
      · exact Uri.isPathChar_not_ends (hp.chars c hc)
    have hne : Route.namedStart ++ (name.toList ++ path.toList) ≠ [] := List.cons_ne_nil _ _
    obtain ⟨hchars, rfl, rfl⟩ := Uri.parsePath_eq_ok hends (Or.inl rfl) hne
      ((congrArg Uri.parsePath (List.append_nil _)).trans hread)
    obtain ⟨given, p, hroute, hgiven, -⟩ := h
    rw [Route.ofPath_named] at hroute
    obtain rfl : given = some name := by simpa [RoutedQuery.ofQuery, Uri.queryOf] using hgiven
    exact (isSegment_of_named hp (fun c hc => hchars c (by simp [hc])) hroute).1
  · -- the target has a query or a fragment that begins within the name
    have hends : ∀ c ∈ Route.namedStart ++ q, Uri.endsPath c = false := by
      intro c hc
      rw [List.mem_append] at hc
      exact hc.elim (hstart c) (hq c)
    have hsplit : Route.namedStart ++ (name.toList ++ path.toList) =
        (Route.namedStart ++ q) ++ (c :: t ++ path.toList) := by simp [hname]
    rw [hsplit] at hread
    have hne : Route.namedStart ++ q ≠ [] := List.cons_ne_nil _ _
    obtain ⟨-, rfl, hquery⟩ := Uri.parsePath_eq_ok hends (Or.inr ⟨c, t ++ path.toList, rfl, hc⟩) hne hread
    exact absurd h (not_routesTo_of_split hp hname hquery)

/-! ## Requests for the target -/

namespace Gateway

variable {g : Gateway} {l : Listing} {b : Backend}

theorem admits_plain (g : Gateway) (uri : Uri) : g.Admits { method := "GET", uri } := rfl

/-- a target leads back exactly when the name is a segment and the target is not too long -/
theorem leadsTo_iff (hp : IsUriPath path)
    (hb : g.dialing.resolve (.ok l) (some name) g.config.service.selector = .ok b) :
    g.LeadsTo l (namedTarget name path) name path ↔
      IsSegment name ∧ (Utf8.encode (namedTarget name path)).length ≤ Uri.lengthLimit := by
  constructor
  · rintro ⟨uri, hparse, -, hroute⟩
    refine isSegment_of_routesTo hp hparse ?_
    obtain ⟨-, given, p, hof, hjob⟩ := of_intake_eq_ask (hroute { method := "GET", uri } rfl (admits_plain g uri))
    obtain ⟨hname, hpath, -⟩ := Job.mk.inj hjob
    exact ⟨given, p, hof, hname.symm, hpath.symm⟩
  · rintro ⟨hn, hlen⟩
    obtain ⟨uri, hparse, given, p, hof, hname, hpath⟩ := routesTo_of_isSegment hp hn hlen
    refine ⟨uri, hparse, ⟨b, hb, (Dialing.name_of_resolve hb).1⟩, ?_⟩
    rintro r rfl hadmits
    rw [intake_of_admits hof hadmits, hname, hpath]

end Gateway

end MachineGateway
