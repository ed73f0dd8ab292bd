/-
A host that extends the authority by a path. A socket URL that carries this path already is to stay as it is, and every
other one is to get it. What a pass looks for behind the authority are the bytes of the path alone, not where the path
ends: besides the URLs that carry the path it leaves alone those whose own path has a longer segment in its place
(`rewritten_iff`). With the path `/vm/s` a URL for `/vm/s10` keeps the authority that was to be replaced
(`longer_segment_left_alone`).
-/
import MachineGateway.Proofs.SocketUrl.Replacement

namespace MachineGateway.SocketUrl

variable {a path rest body : Bytes} {o o' : Opening} {i j : Nat}

/-- a socket URL of the authority stands at a position by the rules for its opening, for the byte before it and for the
end of its authority, and `rest` follows the authority -/
def UrlBefore (a body : Bytes) (o : Opening) (i : Nat) (rest : Bytes) : Prop :=
  ∃ front, body = front ++ (o.bytes ++ (a ++ rest)) ∧ front.length = i ∧
    (∀ b, front.getLast? = some b → o.MayFollow b) ∧ ∀ t, rest.head? = some t → isTerminator t = true

/-- a text is the path, or goes on with a terminator behind it -/
def Carries (path rest : Bytes) : Prop :=
  ∃ more, rest = path ++ more ∧ ∀ t, more.head? = some t → isTerminator t = true

/-- a text begins with the bytes of the path, but its last segment goes on -/
def Overruns (path rest : Bytes) : Prop := ∃ t more, rest = path ++ t :: more ∧ isTerminator t = false

theorem isPrefix_iff_carries_or_overruns : path <+: rest ↔ Carries path rest ∨ Overruns path rest := by
  constructor
  · rintro ⟨more, rfl⟩
    cases more with
    | nil => exact Or.inl ⟨[], rfl, by simp⟩
    | cons t more =>
      cases ht : isTerminator t with
      | true => exact Or.inl ⟨t :: more, rfl, by simpa using ht⟩
      | false => exact Or.inr ⟨t, more, rfl, ht⟩
  · rintro (⟨more, rfl, -⟩ | ⟨t, more, rfl, -⟩)
    · exact List.prefix_append path more
    · exact List.prefix_append path (t :: more)

theorem UrlBefore.rest_eq {rest' : Bytes} (h : UrlBefore a body o i rest) (h' : UrlBefore a body o i rest') :
    rest = rest' := by
  obtain ⟨front, hbody, hfront, -⟩ := h
  obtain ⟨front', hbody', hfront', -⟩ := h'
  have hsame := List.append_inj (hbody.symm.trans hbody') (hfront.trans hfront'.symm)
  exact List.append_cancel_left (List.append_cancel_left hsame.2)

/-- a pass looks for the bytes of the path -/
theorem urlAt_append_iff (hpath : path.head? = some 0x2F) :
    UrlAt a (a ++ path) body o i ↔ ∃ rest, UrlBefore a body o i rest ∧ ¬ path <+: rest := by
  constructor
  · rintro ⟨front, rest, hbody, hfront, hbound, hends, hfresh⟩
    exact ⟨rest, ⟨front, hbody, hfront, hbound, hends⟩, hfresh path rfl hpath⟩
  · rintro ⟨rest, ⟨front, hbody, hfront, hbound, hends⟩, hfresh⟩
    refine ⟨front, rest, hbody, hfront, hbound, hends, fun p hp _ => ?_⟩
    rwa [← List.append_cancel_left hp]

theorem UrlBefore.urlAt_nil (hne : a ≠ []) (h : UrlBefore a body o i rest) : UrlAt a [] body o i := by
  obtain ⟨front, hbody, hfront, hbound, hends⟩ := h
  exact ⟨front, rest, hbody, hfront, hbound, hends, fun p hp _ => absurd (List.append_eq_nil_iff.1 hp.symm).1 hne⟩

/-- **Which socket URLs get the path.** For an authority and a host that extends it by a path, the body is a text whose
gaps are filled with the authority, and the output is that text filled with the host. The gaps stand in socket URLs; and
a socket URL has one exactly if it neither carries the path nor overruns it, and does not begin within another one that
has a gap, which happens to no authority but one that ends with `ws:` or `wss:`. -/
theorem rewritten_iff (a path body : Bytes) (ha : IsPlain a) (hne : a ≠ []) (hpath : path.head? = some 0x2F) :
    ∃ urls tail, body = fill a urls tail ∧ rewrite a (a ++ path) body = fill (a ++ path) urls tail ∧
      (∀ i o, (i, o) ∈ places a.length 0 urls → ∃ rest, UrlBefore a body o i rest) ∧
      ∀ i o rest, UrlBefore a body o i rest →
        ((i, o) ∈ places a.length 0 urls ↔
            ¬ Carries path rest ∧ ¬ Overruns path rest ∧ ¬ IsWithin a.length urls i) ∧
          (IsAuthority a → ¬ IsWithin a.length urls i) := by
  have hself : a ≠ a ++ path := by
    intro h
    have hnil : path = [] := by simpa using h
    simp [hnil] at hpath
  have hscan : rewrite a (a ++ path) body = scan a (a ++ path) (extension? a (a ++ path)) none 0 body := by
    rw [rewrite, if_neg (by simpa [hne] using hself)]
  obtain ⟨urls, tail, h⟩ := exists_parts ha (a ++ path) body
  refine ⟨urls, tail, h.body_eq, hscan.trans h.scan_eq, fun i o hi => ?_, fun i o rest hurl => ⟨?_, ?_⟩⟩
  · obtain ⟨rest, hurl, -⟩ := (urlAt_append_iff hpath).1 (h.sound i o hi)
    exact ⟨rest, hurl⟩
  · have hfresh : UrlAt a (a ++ path) body o i ↔ ¬ Carries path rest ∧ ¬ Overruns path rest := by
      rw [urlAt_append_iff hpath, ← not_or, ← isPrefix_iff_carries_or_overruns]
      refine ⟨?_, fun hno => ⟨rest, hurl, hno⟩⟩
      rintro ⟨rest', hurl', hno⟩
      rwa [hurl.rest_eq hurl']
    constructor
    · intro hi
      obtain ⟨hcarries, hoverruns⟩ := hfresh.1 (h.sound i o hi)
      exact ⟨hcarries, hoverruns, not_isWithin_of_mem hi⟩
    · rintro ⟨hcarries, hoverruns, hwithin⟩
      exact (h.complete i o (hfresh.2 ⟨hcarries, hoverruns⟩)).resolve_right hwithin
  · rintro hauth ⟨j, o', hj, hlt, hgt⟩
    have hend := not_overlaps hauth (h.sound j o' hj) (hurl.urlAt_nil hne) hlt
    omega

/-- the authority `a:1` and the path `/vm/s` in `ws://a:1/vm/t ws://a:1/vm/s/y ws://a:1/vm/s10`: the first URL gets the
path, the second one carries it, and the third one overruns it -/
theorem rewritten_iff_among_three :
    let a : Bytes := [0x61, 0x3A, 0x31]
    let path : Bytes := [0x2F, 0x76, 0x6D, 0x2F, 0x73]
    let third : Bytes := Opening.plainUrl.bytes ++ (a ++ (path ++ [0x31, 0x30]))
    let second : Bytes := Opening.plainUrl.bytes ++ (a ++ (path ++ [0x2F, 0x79, 0x20] ++ third))
    let first : Bytes := Opening.plainUrl.bytes ++ (a ++ ([0x2F, 0x76, 0x6D, 0x2F, 0x74, 0x20] ++ second))
    IsPlain a ∧ a ≠ [] ∧ path.head? = some 0x2F ∧
      rewrite a (a ++ path) first =
        Opening.plainUrl.bytes ++ (a ++ path) ++ ([0x2F, 0x76, 0x6D, 0x2F, 0x74, 0x20] ++ second) ∧
      ∃ urls tail, first = fill a urls tail ∧ rewrite a (a ++ path) first = fill (a ++ path) urls tail ∧
        (0, Opening.plainUrl) ∈ places a.length 0 urls ∧ (14, Opening.plainUrl) ∉ places a.length 0 urls ∧
        (30, Opening.plainUrl) ∉ places a.length 0 urls := by
  intro a path third second first
  have ha : IsPlain a := by decide
  have hauth : IsAuthority a := ⟨by decide, ha, by decide, by decide⟩
  have hfirst : UrlBefore a first .plainUrl 0 ([0x2F, 0x76, 0x6D, 0x2F, 0x74, 0x20] ++ second) :=
    ⟨[], rfl, rfl, boundary_iff.1 rfl, authorityEnds_iff.1 rfl⟩
  have hsecond : UrlBefore a first .plainUrl 14 (path ++ [0x2F, 0x79, 0x20] ++ third) :=
    ⟨first.take 14, rfl, rfl, boundary_iff.1 (by decide), authorityEnds_iff.1 (by decide)⟩
  have hthird : UrlBefore a first .plainUrl 30 (path ++ [0x31, 0x30]) :=
    ⟨first.take 30, rfl, rfl, boundary_iff.1 (by decide), authorityEnds_iff.1 (by decide)⟩
  obtain ⟨urls, tail, hbody, hout, -, hiff⟩ := rewritten_iff a path first ha (by decide) rfl
  refine ⟨ha, by decide, rfl, by decide, urls, tail, hbody, hout, ?_, fun hmem => ?_, fun hmem => ?_⟩
  · obtain ⟨hmem, hwithin⟩ := hiff _ _ _ hfirst
    refine hmem.2 ⟨?_, ?_, hwithin hauth⟩
    · rintro ⟨more, h, -⟩
      simp [path] at h
    · rintro ⟨t, more, h, -⟩
      simp [path] at h
  · exact ((hiff _ _ _ hsecond).1.1 hmem).1 ⟨[0x2F, 0x79, 0x20] ++ third, by simp, by simp [isTerminator]⟩
  · exact ((hiff _ _ _ hthird).1.1 hmem).2.1 ⟨0x31, [0x30], rfl, by decide⟩

/-- the URL `ws://a:1/vm/s10/x` does not carry the path `/vm/s`, and is left alone -/
theorem longer_segment_left_alone :
    let a : Bytes := [0x61, 0x3A, 0x31]
    let path : Bytes := [0x2F, 0x76, 0x6D, 0x2F, 0x73]
    let rest : Bytes := path ++ [0x31, 0x30, 0x2F, 0x78]
    let body : Bytes := Opening.plainUrl.bytes ++ (a ++ rest)
    IsPlain a ∧ a ≠ [] ∧ path.head? = some 0x2F ∧ path.getLast? ≠ some 0x2F ∧ UrlBefore a body .plainUrl 0 rest ∧
      ¬ Carries path rest ∧ rewrite a (a ++ path) body = body ∧
      rewrite a (a ++ path) body ≠ Opening.plainUrl.bytes ++ (a ++ path ++ rest) := by
  intro a path rest body
  have hurl : UrlBefore a body .plainUrl 0 rest := ⟨[], rfl, rfl, boundary_iff.1 rfl, authorityEnds_iff.1 rfl⟩
  have hcarries : ¬ Carries path rest := by
    rintro ⟨more, h, hends⟩
    obtain rfl := List.append_cancel_left h
    exact absurd (hends 0x31 rfl) (by decide)
  exact ⟨by decide, by decide, rfl, by decide, hurl, hcarries, by decide, by decide⟩

end MachineGateway.SocketUrl
