/-
What a pass replaces. `UrlAt` says, of a body alone and without the scanner, where the socket URLs of an authority
stand. No two of them overlap (`not_overlaps`), so that none is hidden behind another one that the scanner skips. Hence
a body falls into the text between its URLs and the URLs' own authorities (`exists_parts`), and the pass puts the host
in the place of each of these authorities and leaves every other byte where it is (`rewrite_exact`).
-/
import MachineGateway.Proofs.SocketUrl.AtOnce

namespace MachineGateway.SocketUrl

variable {a host : Bytes} {e : Option Bytes} {before : Option UInt8} {o o' : Opening} {rest body : Bytes} {i j : Nat}

/-! ## Where socket URLs stand -/

/-- the bytes that an opening may follow: any but letters and digits for a scheme, `?`, `&` and `;` for a parameter -/
def Opening.MayFollow (o : Opening) (b : UInt8) : Prop :=
  match o with
  | .secureUrl | .plainUrl => isAlphanumeric b = false
  | .secureParameter | .plainParameter => b = 0x3F ∨ b = 0x26 ∨ b = 0x3B

/-- a socket URL of the authority stands at a position of the body: an opening where it may stand, then the authority,
then the end of the body or a terminator; and if the host is the authority with a path behind it, that path does not
follow -/
def UrlAt (a host body : Bytes) (o : Opening) (i : Nat) : Prop :=
  ∃ front rest, body = front ++ (o.bytes ++ (a ++ rest)) ∧ front.length = i ∧
    (∀ b, front.getLast? = some b → o.MayFollow b) ∧ (∀ t, rest.head? = some t → isTerminator t = true) ∧
    ∀ path, host = a ++ path → path.head? = some 0x2F → ¬ path <+: rest

theorem boundary_iff : boundary o before = true ↔ ∀ b, before = some b → o.MayFollow b := by
  cases before with
  | none => simp [boundary]
  | some b => cases o <;> simp [boundary, Opening.MayFollow, or_assoc]

theorem authorityEnds_iff : authorityEnds rest = true ↔ ∀ t, rest.head? = some t → isTerminator t = true := by
  cases rest <;> simp [authorityEnds]

theorem before_eq_getLast? (front tail : Bytes) :
    (if front.length = 0 then none else (front ++ tail)[front.length - 1]?) = front.getLast? := by
  cases front with
  | nil => rfl
  | cons x front =>
    have hlast : (x :: front).length - 1 < (x :: front).length := by simp
    rw [if_neg (by simp), List.getElem?_append_left hlast, List.getLast?_eq_getElem?]

/-- where a URL stands, the scanner finds its opening, and nowhere else -/
theorem urlAt_iff : UrlAt a host body o i ↔ openingAt? a host body i = some o := by
  unfold openingAt?
  rw [opening?_eq_some]
  constructor
  · rintro ⟨front, rest, rfl, rfl, hbound, hends, hfresh⟩
    refine ⟨rest, ?_, ?_, authorityEnds_iff.2 hends, ?_⟩
    · rw [List.drop_left]
    · rw [before_eq_getLast?]
      exact boundary_iff.2 hbound
    · intro path hpath
      obtain ⟨hhost, hslash⟩ := extension?_eq_some.1 hpath
      exact hfresh path hhost hslash
  · rintro ⟨rest, h⟩
    have hi : i ≤ body.length := by
      by_contra hlong
      have htext := h.text
      rw [List.drop_eq_nil_of_le (by omega)] at htext
      obtain ⟨tail, htail, -⟩ := o.bytes_eq
      simp [htail] at htext
    have hbody : body = body.take i ++ (o.bytes ++ (a ++ rest)) := by rw [← h.text, List.take_append_drop]
    have hlength : (body.take i).length = i := by simp [hi]
    refine ⟨body.take i, rest, hbody, hlength, ?_, authorityEnds_iff.1 h.ends, ?_⟩
    · have hbound := h.bound
      rw [← List.take_append_drop i body] at hbound
      have hbefore := before_eq_getLast? (body.take i) (body.drop i)
      rw [hlength] at hbefore
      rw [hbefore] at hbound
      exact boundary_iff.1 hbound
    · intro path hhost hslash
      exact h.fresh path (extension?_eq_some.2 ⟨hhost, hslash⟩)

instance (a host body : Bytes) (o : Opening) (i : Nat) : Decidable (UrlAt a host body o i) :=
  decidable_of_iff _ urlAt_iff.symm

/-! ## Texts with gaps -/

/-- a text with gaps: what stands before each gap, an opening last, and what stands behind the last gap -/
def fill (x : Bytes) (urls : List (Bytes × Opening)) (tail : Bytes) : Bytes :=
  urls.flatMap (fun u => u.1 ++ (u.2.bytes ++ x)) ++ tail

/-- where the openings stand if each gap holds `len` bytes, counted from `start` -/
def places (len : Nat) : (start : Nat) → List (Bytes × Opening) → List (Nat × Opening)
  | _, [] => []
  | start, (text, o) :: urls =>
    (start + text.length, o) :: places len (start + text.length + o.bytes.length + len) urls

theorem fill_cons (x text : Bytes) (o : Opening) (urls : List (Bytes × Opening)) (tail : Bytes) :
    fill x ((text, o) :: urls) tail = text ++ (o.bytes ++ (x ++ fill x urls tail)) := by
  simp [fill]

theorem length_fill (x : Bytes) (urls : List (Bytes × Opening)) (tail : Bytes) :
    (fill x urls tail).length = (fill [] urls tail).length + urls.length * x.length := by
  induction urls with
  | nil => simp [fill]
  | cons u urls ih =>
    obtain ⟨text, o⟩ := u
    simp only [fill_cons, List.length_append, List.length_cons, List.length_nil, ih, Nat.succ_mul]
    omega

/-- a position lies within the opening or the gap of a place before it -/
def IsWithin (len : Nat) (urls : List (Bytes × Opening)) (i : Nat) : Prop :=
  ∃ j o, (j, o) ∈ places len 0 urls ∧ j < i ∧ i < j + o.bytes.length + len

theorem le_of_mem_places {len start : Nat} {urls : List (Bytes × Opening)} (h : (i, o) ∈ places len start urls) :
    start ≤ i := by
  induction urls generalizing start with
  | nil => exact absurd h List.not_mem_nil
  | cons u urls ih =>
    obtain ⟨text, o'⟩ := u
    rcases List.mem_cons.1 h with h | h
    · obtain ⟨rfl, -⟩ := Prod.mk.inj h
      omega
    · have := ih h
      omega

/-- a place begins behind the gaps of those before it -/
theorem places_separate {len start : Nat} {urls : List (Bytes × Opening)} (hi : (i, o) ∈ places len start urls)
    (hj : (j, o') ∈ places len start urls) (hlt : i < j) : i + o.bytes.length + len ≤ j := by
  induction urls generalizing start with
  | nil => exact absurd hi List.not_mem_nil
  | cons u urls ih =>
    obtain ⟨text, o₀⟩ := u
    rcases List.mem_cons.1 hi with hi | hi
    · obtain ⟨rfl, rfl⟩ := Prod.mk.inj hi
      rcases List.mem_cons.1 hj with hj | hj
      · exact absurd (Prod.mk.inj hj).1 (Nat.ne_of_gt hlt)
      · exact le_of_mem_places hj
    · rcases List.mem_cons.1 hj with hj | hj
      · obtain ⟨rfl, rfl⟩ := Prod.mk.inj hj
        have hle := le_of_mem_places hi
        omega
      · exact ih hi hj

theorem not_isWithin_of_mem {len : Nat} {urls : List (Bytes × Opening)} (hi : (i, o) ∈ places len 0 urls) :
    ¬ IsWithin len urls i := by
  rintro ⟨j, o', hj, hlt, hgt⟩
  have hend := places_separate hj hi hlt
  omega

/-! ## The passages of one authority -/

/-- a passage with a gap for its authority -/
def Passage.gap (p : Passage) : Bytes × Opening := (p.text, p.opening)

theorem fill_gaps (x : Bytes) (ps : List Passage) (tail : Bytes) :
    fill x (ps.map Passage.gap) tail = Passage.spell (fun _ => x) ps tail := by
  simp [fill, Passage.spell, Passage.gap, List.flatMap_map]

theorem Passage.spell_authority {ps : List Passage} (h : ∀ p ∈ ps, p.authority = a) (tail : Bytes) :
    spell authority ps tail = fill a (ps.map gap) tail := by
  rw [fill_gaps, spell, spell]
  congr 1
  exact List.flatMap_congr fun p hp => by rw [h p hp]

theorem Passage.mem_places {ps : List Passage} {p : Passage} (hp : p ∈ ps) (start : Nat) :
    ∃ i, (i, p.opening, p.authority) ∈ places start ps := by
  induction ps generalizing start with
  | nil => exact absurd hp List.not_mem_nil
  | cons q ps ih =>
    rcases List.mem_cons.1 hp with rfl | hp
    · exact ⟨_, List.mem_cons_self⟩
    · obtain ⟨i, hi⟩ := ih hp (start + q.length)
      exact ⟨i, List.mem_cons_of_mem _ hi⟩

theorem Passage.mem_places_gaps {ps : List Passage} (h : ∀ p ∈ ps, p.authority = a) {start : Nat} :
    (i, o) ∈ SocketUrl.places a.length start (ps.map gap) ↔ (i, o, a) ∈ places start ps := by
  induction ps generalizing start with
  | nil => simp [SocketUrl.places, places]
  | cons p ps ih =>
    have hp : p.authority = a := h p List.mem_cons_self
    have hlength : start + p.text.length + p.opening.bytes.length + a.length = start + p.length := by
      rw [length, hp]
      omega
    rw [List.map_cons, gap, SocketUrl.places, places, hlength, List.mem_cons, List.mem_cons,
      ih fun q hq => h q (List.mem_cons_of_mem p hq)]
    simp [hp]

/-- a body and the output of the pass have the same parts; the URLs among them are socket URLs, and every other one that
stands in the body begins within one of them -/
structure Parts (a host body : Bytes) (urls : List (Bytes × Opening)) (tail : Bytes) : Prop where
  body_eq : body = fill a urls tail
  scan_eq : scan a host (extension? a host) none 0 body = fill host urls tail
  sound : ∀ i o, (i, o) ∈ places a.length 0 urls → UrlAt a host body o i
  complete : ∀ i o, UrlAt a host body o i → (i, o) ∈ places a.length 0 urls ∨ IsWithin a.length urls i

/-- every body has such parts: they are its passages in a pass for one authority -/
theorem exists_parts (ha : IsPlain a) (host body : Bytes) : ∃ urls tail, Parts a host body urls tail := by
  obtain ⟨ps, tail, h⟩ := (AtOnce.alone a host none body).exists_division (by simpa using ha)
  have hps : ∀ p ∈ ps, p.authority = a := fun p hp => by
    obtain ⟨i, hi⟩ := Passage.mem_places hp 0
    exact List.mem_singleton.1 (h.sound _ _ _ hi).1
  refine ⟨ps.map Passage.gap, tail, ⟨?_, ?_, fun i o hi => ?_, fun i o hi => ?_⟩⟩
  · exact h.body_eq.trans (Passage.spell_authority hps tail)
  · rw [h.out_eq, fill_gaps]
  · exact urlAt_iff.2 (h.sound i o a ((Passage.mem_places_gaps hps).1 hi)).2
  · rcases h.complete a List.mem_cons_self i o (urlAt_iff.1 hi) with hi | ⟨j, o', b, hj, hlt, hgt⟩
    · exact Or.inl ((Passage.mem_places_gaps hps).2 hi)
    · obtain rfl : b = a := List.mem_singleton.1 (h.sound j o' b hj).1
      exact Or.inr ⟨j, o', (Passage.mem_places_gaps hps).2 hj, hlt, hgt⟩

/-- socket URLs do not overlap, be they of one authority or of two -/
theorem not_overlaps {b host' : Bytes} (ha : IsAuthority a) (hi : UrlAt a host body o i) (hj : UrlAt b host' body o' j)
    (hlt : i < j) : i + o.bytes.length + a.length ≤ j := by
  by_contra hoverlap
  obtain ⟨rest, hopens⟩ := opening?_eq_some.1 (urlAt_iff.1 hi)
  obtain ⟨rest', hopens'⟩ := opening?_eq_some.1 (urlAt_iff.1 hj)
  have hdrop : body.drop j = (body.drop i).drop (j - i) := by rw [List.drop_drop]; congr 1; omega
  rw [hdrop] at hopens'
  exact hopens.not_within ha (by omega) (by omega) hopens'

theorem Parts.found_iff {urls : List (Bytes × Opening)} {tail : Bytes} (ha : IsAuthority a)
    (h : Parts a host body urls tail) : UrlAt a host body o i ↔ (i, o) ∈ places a.length 0 urls := by
  refine ⟨fun hi => (h.complete i o hi).resolve_right ?_, h.sound i o⟩
  rintro ⟨j, o', hj, hlt, hgt⟩
  have hend := not_overlaps ha (h.sound j o' hj) hi hlt
  omega

/-! ## A pass -/

/-- **A pass replaces exactly the authorities of the socket URLs.** No two socket URLs of an authority overlap, and no
two stand at one position. The body is a text whose gaps are filled with the authority, the output is that text filled
with the host, and the gaps are those behind the openings of the socket URLs that stand in the body. So each URL changes
the length by the difference of the two, and a body without socket URLs comes out as it was. -/
theorem rewrite_exact (a host body : Bytes) (ha : IsAuthority a) (hne : host ≠ a) :
    (∀ i j o o', UrlAt a host body o i → UrlAt a host body o' j → i < j → i + o.bytes.length + a.length ≤ j) ∧
      (∀ i o o', UrlAt a host body o i → UrlAt a host body o' i → o = o') ∧
      (∃ urls tail, body = fill a urls tail ∧ rewrite a host body = fill host urls tail ∧
        (∀ i o, UrlAt a host body o i ↔ (i, o) ∈ places a.length 0 urls) ∧
        (rewrite a host body).length + urls.length * a.length = body.length + urls.length * host.length) ∧
      ((∀ i o, ¬ UrlAt a host body o i) → rewrite a host body = body) := by
  have hscan : rewrite a host body = scan a host (extension? a host) none 0 body := by
    simp [rewrite, ha.ne_nil, Ne.symm hne]
  obtain ⟨urls, tail, hparts⟩ := exists_parts ha.plain host body
  have hbody := hparts.body_eq
  have hout := hscan.trans hparts.scan_eq
  have hurls : ∀ i o, UrlAt a host body o i ↔ (i, o) ∈ places a.length 0 urls := fun i o => hparts.found_iff ha
  refine ⟨?_, ?_, ⟨urls, tail, hbody, hout, hurls, ?_⟩, ?_⟩
  · intro i j o o' hi hj hlt
    exact not_overlaps ha hi hj hlt
  · intro i o o' h h'
    exact Option.some.inj ((urlAt_iff.1 h).symm.trans (urlAt_iff.1 h'))
  · rw [hout]
    conv_rhs => rw [hbody]
    rw [length_fill host, length_fill a]
    omega
  · intro hnone
    cases urls with
    | nil => rw [hout, hbody]; rfl
    | cons u urls => exact absurd ((hurls _ _).2 List.mem_cons_self) (hnone _ u.2)

/-- the authority `a:1` with the host `a:1/v` in `ws://a:1/x?ws=a:1&wss://a:1/v ws://a:12`: of the four URLs the first
two are recognized, the third one goes on with the host's path already, and the last one is another authority's -/
theorem rewrite_exact_extended :
    let a : Bytes := [0x61, 0x3A, 0x31]
    let host : Bytes := a ++ [0x2F, 0x76]
    let ending : Bytes := 0x26 :: Opening.secureUrl.bytes ++ host ++ 0x20 :: Opening.plainUrl.bytes ++ a ++ [0x32]
    let body : Bytes := Opening.plainUrl.bytes ++ a ++ [0x2F, 0x78, 0x3F] ++ Opening.plainParameter.bytes ++ a ++ ending
    IsAuthority a ∧ host ≠ a ∧ UrlAt a host body .plainUrl 0 ∧ UrlAt a host body .plainParameter 11 ∧
      ¬ UrlAt a host body .secureUrl 18 ∧
      rewrite a host body =
        Opening.plainUrl.bytes ++ host ++ [0x2F, 0x78, 0x3F] ++ Opening.plainParameter.bytes ++ host ++ ending ∧
      ∃ urls tail, body = fill a urls tail ∧ rewrite a host body = fill host urls tail ∧
        ∀ i o, UrlAt a host body o i ↔ (i, o) ∈ places a.length 0 urls := by
  intro a host ending body
  have ha : IsAuthority a := ⟨by decide, by decide, by decide, by decide⟩
  have hne : host ≠ a := by decide
  obtain ⟨-, -, ⟨urls, tail, hbody, hout, hurls, -⟩, -⟩ := rewrite_exact a host body ha hne
  exact ⟨ha, hne, by decide, by decide, by decide, by decide, urls, tail, hbody, hout, hurls⟩

end MachineGateway.SocketUrl
