/-
One pass for several authorities at once. `AtOnce` relates a body to the text in which the host stands in the place of
every authority whose socket URL the pass meets. No socket URL begins within one of another authority
(`Opens.not_within`), so the pass misses none (`Division.found_iff`); and what a pass for the first authority leaves is
what the pass for the others takes (`AtOnce.after_pass`), since it creates no socket URL of theirs and destroys none.
Hence the passes of `rewriteAll` come to the same as one pass for all authorities (`rewriteAll_of_atOnce`).
-/
import MachineGateway.Proofs.SocketUrl.Splice

namespace MachineGateway.SocketUrl

variable {a b c host : Bytes} {e e' : Option Bytes} {before before' : Option UInt8} {o o' : Opening}
  {rest rest' body out tail : Bytes} {i j : Nat}

/-! ## No two socket URLs overlap -/

theorem eq_slash_of_terminator {y : UInt8} (hy : y ∈ o.bytes) (hends : isTerminator y = true) : y = 0x2F := by
  have hall : o.bytes.all (fun y => !isTerminator y || y == 0x2F) = true := by cases o <;> decide
  simpa [hends] using List.all_eq_true.1 hall y hy

/-- of an authority's text only `ws:` or `wss:` could stand at the beginning of an opening -/
theorem mark_of_append {v z : Bytes} (hv : IsPlain v) (hne : v ≠ []) (hends : authorityEnds rest = true)
    (h : v ++ rest = o.bytes ++ z) : v = [0x77, 0x73, 0x3A] ∨ v = [0x77, 0x73, 0x73, 0x3A] := by
  rcases List.append_eq_append_iff.1 h with ⟨w, hw, hrest⟩ | ⟨w, rfl, -⟩
  · cases w with
    | nil =>
      rw [List.append_nil] at hw
      exact absurd (by rw [hw]) (openless_of_plain hv o)
    | cons y w =>
      have hy : isTerminator y = true := by
        rw [hrest] at hends
        exact hends
      obtain rfl := eq_slash_of_terminator (o := o) (by rw [hw]; simp) hy
      exact Opening.mark_of_slash hw fun hs => absurd (hv _ hs).1 (by decide)
  · exact absurd (List.prefix_append o.bytes w).isInfix (openless_of_plain hv o)

/-- **Socket URLs do not overlap.** None, of whatever authority, begins within the opening or the authority of one. -/
theorem Opens.not_within (ha : IsAuthority a) (h : Opens a e before o rest body) (hi : 0 < i)
    (hlt : i < o.bytes.length + a.length) : ¬ Opens b e' before' o' rest' (body.drop i) := by
  intro h'
  by_cases hin : i < o.bytes.length
  · -- within the opening: there is no second `w`
    obtain ⟨tail, htail, hw⟩ := o.bytes_eq
    rw [htail, List.length_cons] at hin
    obtain ⟨k, rfl⟩ : ∃ k, i = k + 1 := ⟨i - 1, by omega⟩
    have hdrop : body.drop (k + 1) = tail.drop k ++ (a ++ rest) := by
      rw [h.text, htail, List.cons_append, List.drop_succ_cons, List.drop_append_of_le_length (by omega)]
    have hne : tail.drop k ≠ [] := by
      simp
      omega
    have hhead := h'.head?
    rw [hdrop, List.head?_append_of_ne_nil _ hne] at hhead
    exact hw ((List.drop_sublist _ _).subset (List.mem_of_head? hhead))
  · -- within the authority: it would end like an opening begins
    obtain ⟨k, rfl⟩ : ∃ k, i = o.bytes.length + k := ⟨i - o.bytes.length, by omega⟩
    have hk : k < a.length := by omega
    have hdrop : body.drop (o.bytes.length + k) = a.drop k ++ rest := by
      rw [h.text, List.drop_length_add_append, List.drop_append_of_le_length (by omega)]
    have hne : a.drop k ≠ [] := by
      simp
      omega
    have hplain : IsPlain (a.drop k) := fun b hb => ha.plain b ((List.drop_sublist _ _).subset hb)
    have htext := h'.text
    rw [hdrop] at htext
    rcases mark_of_append hplain hne h.ends htext with hmark | hmark
    · exact ha.not_plain_mark (hmark ▸ List.drop_suffix k a)
    · exact ha.not_secure_mark (hmark ▸ List.drop_suffix k a)

/-- at one position there is one socket URL at most -/
theorem Opens.unique (ha : IsPlain a) (hb : IsPlain b) (h : Opens a e before o rest body)
    (h' : Opens b e' before' o' rest' body) : o = o' ∧ a = b := by
  obtain rfl := Opening.eq_of_common_text ⟨_, h.text.symm⟩ ⟨_, h'.text.symm⟩
  have hsame : b ++ rest' = a ++ rest := List.append_cancel_left (h'.text.symm.trans h.text)
  exact ⟨rfl, eq_of_append_eq ha hb h'.ends h.ends hsame⟩

/-- a pass for another authority leaves a socket URL in its place -/
theorem Opens.scan_of_ne (ha : IsPlain a) (hb : IsAuthority b) (hne : a ≠ b) (h : Opens b e before o rest body) :
    scan a host e' before 0 body = o.bytes ++ (b ++ scan a host e' (o.bytes ++ b).getLast? 0 rest) := by
  have hbody : body = (o.bytes ++ b) ++ rest := by rw [h.text, List.append_assoc]
  have hquiet : Quiet a e' before (o.bytes ++ b) rest := by
    apply quiet_of_drop
    · rw [← hbody]
      exact opening?_eq_none.2 fun o' rest' h' => hne (h'.unique ha hb.plain h).2
    · intro i hi hlt c
      rw [List.length_append] at hlt
      rw [← hbody]
      exact opening?_eq_none.2 fun o' rest' => h.not_within hb hi hlt
  have hlast : (o.bytes ++ b).getLast?.or before = (o.bytes ++ b).getLast? := by
    rw [List.getLast?_eq_some_getLast (by simp [hb.ne_nil]), Option.some_or]
  rw [hbody, scan_quiet hquiet, hlast, List.append_assoc]

/-! ## The pass -/

/-- a pass for all authorities of `l` at once, over a body that `before` precedes; a byte at which no socket URL of
theirs begins is copied; where one begins, the host takes the place of its authority, and the pass goes on behind it -/
inductive AtOnce (l : List Bytes) (host : Bytes) : (before : Option UInt8) → (body out : Bytes) → Prop where
  | nil {before : Option UInt8} : AtOnce l host before [] []
  | copy {before : Option UInt8} {x : UInt8} {r out : Bytes}
      (h : ∀ a ∈ l, opening? a (extension? a host) before (x :: r) = none) (hr : AtOnce l host (some x) r out) :
      AtOnce l host before (x :: r) (x :: out)
  | replace {before : Option UInt8} {a rest body out : Bytes} {o : Opening} (ha : a ∈ l)
      (h : Opens a (extension? a host) before o rest body) (hr : AtOnce l host (o.bytes ++ a).getLast? rest out) :
      AtOnce l host before body (o.bytes ++ (host ++ out))

namespace AtOnce

variable {l l' : List Bytes}

/-- the pass takes every body -/
theorem exists_out (l : List Bytes) (host : Bytes) (before : Option UInt8) (body : Bytes) :
    ∃ out, AtOnce l host before body out := by
  induction hn : body.length using Nat.strong_induction_on generalizing before body with
  | _ n ih =>
    subst hn
    cases body with
    | nil => exact ⟨[], .nil⟩
    | cons x r =>
      by_cases hnone : ∀ a ∈ l, opening? a (extension? a host) before (x :: r) = none
      · obtain ⟨out, hout⟩ := ih r.length (by simp) (some x) r rfl
        exact ⟨x :: out, .copy hnone hout⟩
      · push Not at hnone
        obtain ⟨a, ha, hsome⟩ := hnone
        obtain ⟨o, ho⟩ := Option.ne_none_iff_exists'.1 hsome
        obtain ⟨rest, h⟩ := opening?_eq_some.1 ho
        have hlen : rest.length < (x :: r).length := by
          obtain ⟨tail, htail, -⟩ := o.bytes_eq
          rw [h.text, htail]
          simp
          omega
        obtain ⟨out, hout⟩ := ih rest.length hlen (o.bytes ++ a).getLast? rest rfl
        exact ⟨_, .replace ha h hout⟩

/-- for one authority it is the scanner's pass -/
theorem alone (a host : Bytes) (before : Option UInt8) (body : Bytes) :
    AtOnce [a] host before body (scan a host (extension? a host) before 0 body) := by
  apply scan_cases (a := a) (e := extension? a host) (motive := fun before body =>
    AtOnce [a] host before body (scan a host (extension? a host) before 0 body))
  case nil => exact fun _ => .nil
  case copy =>
    intro before x r h hr
    rw [scan_copy h]
    exact .copy (by simpa using h) hr
  case replace =>
    intro before o rest body h hr
    rw [scan_replace h]
    exact .replace List.mem_cons_self h hr

/-- it depends on which authorities there are, not on their order -/
theorem congr (h : AtOnce l host before body out) (hl : ∀ a, a ∈ l ↔ a ∈ l') : AtOnce l' host before body out := by
  induction h with
  | nil => exact .nil
  | copy hnone _ ih => exact .copy (fun a ha => hnone a ((hl a).2 ha)) ih
  | replace ha hopens _ ih => exact .replace ((hl _).1 ha) hopens ih

theorem eq_of_nil (h : AtOnce [] host before body out) : out = body := by
  induction h with
  | nil => rfl
  | copy _ _ ih => rw [ih]
  | replace ha => exact absurd ha List.not_mem_nil

/-- what precedes a body only matters to one that begins with `w` -/
theorem of_head_ne (h : AtOnce l host before body out) (hw : body.head? ≠ some 0x77) (before' : Option UInt8) :
    AtOnce l host before' body out := by
  cases h with
  | nil => exact .nil
  | copy _ hr => exact .copy (fun a _ => opening?_of_head_ne (by simpa using hw)) hr
  | replace _ h _ => exact absurd h.head? hw

/-- text in which no socket URL begins is copied -/
theorem append {x : Bytes} (hx : ∀ a ∈ l, Quiet a (extension? a host) before x body)
    (h : AtOnce l host (x.getLast?.or before) body out) : AtOnce l host before (x ++ body) (x ++ out) := by
  induction x generalizing before with
  | nil => simpa using h
  | cons y x ih =>
    rw [← getLast?_or_cons] at h
    exact .copy (fun a ha => (hx a ha).1) (ih (fun a ha => (hx a ha).2) h)

/-! ## One pass after another -/

/-- **A pass for one authority leaves the others as they were.** What the pass for `a` and all of `l` makes of a body,
the pass for `l` makes of what the pass for `a` has left. -/
theorem after_pass (hl : ∀ b ∈ a :: l, IsAuthority b ∧ b ≠ host ∧ ExtendsByPath b host) (hh : IsUnmarked host)
    (h : AtOnce (a :: l) host before body out) :
    AtOnce l host before (scan a host (extension? a host) before 0 body) out := by
  induction h with
  | nil => exact .nil
  | copy hnone _ ih =>
    rw [scan_copy (hnone a List.mem_cons_self)]
    refine .copy (fun b hb => opening?_eq_none.2 fun o rest hopens => ?_) ih
    obtain ⟨hauth, -, -⟩ := hl b (List.mem_cons_of_mem a hb)
    obtain ⟨rest', hin⟩ := hopens.of_scan hauth.plain hh
    exact opening?_eq_none.1 (hnone b (List.mem_cons_of_mem a hb)) o rest' hin
  | @replace before b rest body out o hb hopens _ ih =>
    have hhead : (scan a host (extension? a host) (o.bytes ++ b).getLast? 0 rest).head? = rest.head? := scan_head?
    have hends := (authorityEnds_congr hhead).trans hopens.ends
    by_cases hab : b = a
    · -- this pass puts the host in, and no socket URL comes of that
      subst hab
      rw [scan_replace hopens, ← List.append_assoc, ← List.append_assoc]
      refine append (fun c hc => ?_) (ih.of_head_ne (head_ne_of_authorityEnds hends) _)
      obtain ⟨hauth, hne, hpath⟩ := hl c (List.mem_cons_of_mem b hc)
      exact quiet_rewritten hauth.plain hne hpath hh hends
    · -- it is left to a later pass, as it was
      have hauth := (hl b hb).1
      rw [hopens.scan_of_ne (hl a List.mem_cons_self).1.plain hauth (Ne.symm hab)]
      refine .replace ((List.mem_cons.1 hb).resolve_left hab) ⟨rfl, hopens.bound, hends, fun p hp => ?_⟩ ih
      rintro ⟨more, hmore⟩
      have hopenless : Openless p := fun o ho => openless_of_unmarked hh o
        (ho.trans ((extension?_eq_some.1 hp).1 ▸ (List.suffix_append b p).isInfix))
      obtain ⟨r, hr, -⟩ := of_scan_eq_append hopenless hmore.symm
      exact hopens.fresh p hp ⟨r, hr.symm⟩

end AtOnce

/-- **The passes one after another are one pass for all authorities** but the host itself. -/
theorem rewriteAll_of_atOnce {l : List Bytes} (hl : ∀ a ∈ l, IsAuthority a) (hh : IsUnmarked host)
    (hpath : ∀ a ∈ l, ExtendsByPath a host) (h : AtOnce (l.filter (· ≠ host)) host none body out) :
    rewriteAll l host body = out := by
  induction l generalizing body with
  | nil => exact h.eq_of_nil.symm
  | cons a l ih =>
    have hrest : ∀ {body}, AtOnce (l.filter (· ≠ host)) host none body out → rewriteAll l host body = out := fun h =>
      ih (fun b hb => hl b (List.mem_cons_of_mem a hb)) (fun b hb => hpath b (List.mem_cons_of_mem a hb)) h
    show rewriteAll l host (rewrite a host body) = out
    apply hrest
    by_cases hself : a = host
    · rw [List.filter_cons_of_neg (by simp [hself])] at h
      rw [rewrite, if_pos (by simp [hself])]
      exact h
    · rw [List.filter_cons_of_pos (by simp [hself])] at h
      rw [rewrite, if_neg (by simp [hself, (hl a List.mem_cons_self).ne_nil])]
      refine h.after_pass (fun b hb => ?_) hh
      rcases List.mem_cons.1 hb with rfl | hb
      · exact ⟨hl b List.mem_cons_self, hself, hpath b List.mem_cons_self⟩
      · obtain ⟨hb, hne⟩ := List.mem_filter.1 hb
        exact ⟨hl b (List.mem_cons_of_mem a hb), by simpa using hne, hpath b (List.mem_cons_of_mem a hb)⟩

/-! ## The parts of a body -/

/-- some text and the socket URL that follows it, up to the end of its authority -/
structure Passage where
  text : Bytes
  opening : Opening
  authority : Bytes

namespace Passage

def length (p : Passage) : Nat := p.text.length + p.opening.bytes.length + p.authority.length

/-- passages and what follows them, with `x` in the place of their authorities -/
def spell (x : Passage → Bytes) (ps : List Passage) (tail : Bytes) : Bytes :=
  ps.flatMap (fun p => p.text ++ (p.opening.bytes ++ x p)) ++ tail

/-- where the socket URLs of passages stand, with their openings and authorities, counted from `start` -/
def places : (start : Nat) → List Passage → List (Nat × Opening × Bytes)
  | _, [] => []
  | start, p :: ps => (start + p.text.length, p.opening, p.authority) :: places (start + p.length) ps

/-- a position lies within the opening or the authority of a socket URL that stands before it -/
def Covers (ps : List Passage) (i : Nat) : Prop :=
  ∃ j o a, (j, o, a) ∈ places 0 ps ∧ j < i ∧ i < j + o.bytes.length + a.length

theorem spell_cons (x : Passage → Bytes) (p : Passage) (ps : List Passage) (tail : Bytes) :
    spell x (p :: ps) tail = p.text ++ (p.opening.bytes ++ (x p ++ spell x ps tail)) := by
  simp [spell]

theorem mem_places_add {n k : Nat} {ps : List Passage} :
    (i, o, a) ∈ places (n + k) ps ↔ k ≤ i ∧ (i - k, o, a) ∈ places n ps := by
  induction ps generalizing n with
  | nil => simp [places]
  | cons p ps ih =>
    have hshift : n + k + p.length = n + p.length + k := by omega
    simp only [places, List.mem_cons, Prod.mk.injEq, hshift, ih]
    constructor
    · rintro (⟨rfl, rfl, rfl⟩ | ⟨hk, hmem⟩)
      · exact ⟨by omega, Or.inl ⟨by omega, rfl, rfl⟩⟩
      · exact ⟨hk, Or.inr hmem⟩
    · rintro ⟨hk, ⟨hi, rfl, rfl⟩ | hmem⟩
      · exact Or.inl ⟨by omega, rfl, rfl⟩
      · exact Or.inr ⟨hk, hmem⟩

/-- a byte is put before passages: at the front of the first text, or of what follows if there are none -/
theorem exists_cons (x : UInt8) (ps : List Passage) (tail : Bytes) : ∃ ps' tail',
    spell authority ps' tail' = x :: spell authority ps tail ∧
      (∀ host, spell (fun _ => host) ps' tail' = x :: spell (fun _ => host) ps tail) ∧ places 0 ps' = places 1 ps := by
  cases ps with
  | nil => exact ⟨[], x :: tail, rfl, fun _ => rfl, rfl⟩
  | cons p ps =>
    refine ⟨⟨x :: p.text, p.opening, p.authority⟩ :: ps, tail, ?_, fun host => ?_, ?_⟩
    · simp only [spell_cons, List.cons_append]
    · simp only [spell_cons, List.cons_append]
    · have htext : 0 + (x :: p.text).length = 1 + p.text.length := by simp [Nat.add_comm]
      have hlength : 0 + length ⟨x :: p.text, p.opening, p.authority⟩ = 1 + p.length := by
        simp only [length, List.length_cons]
        omega
      rw [places, places, htext, hlength]

end Passage

open Passage

/-- a body as passages, and the output of a pass as the same passages with the host in the place of each authority; the
socket URLs of the passages begin in the body, and every other one that does begins within one of them -/
structure Division (l : List Bytes) (host : Bytes) (before : Option UInt8) (body out : Bytes) (ps : List Passage)
    (tail : Bytes) : Prop where
  body_eq : body = spell authority ps tail
  out_eq : out = spell (fun _ => host) ps tail
  sound : ∀ i o a, (i, o, a) ∈ places 0 ps → a ∈ l ∧ openingFrom? a (extension? a host) before body i = some o
  complete : ∀ a ∈ l, ∀ i o, openingFrom? a (extension? a host) before body i = some o →
    (i, o, a) ∈ places 0 ps ∨ Covers ps i

namespace Division

variable {l : List Bytes} {ps : List Passage}

theorem nil (l : List Bytes) (host : Bytes) (before : Option UInt8) : Division l host before [] [] [] [] where
  body_eq := rfl
  out_eq := rfl
  sound i o a h := absurd h List.not_mem_nil
  complete a _ i o h := by simp [openingFrom?, opening?_nil] at h

/-- a byte that is copied goes to the text before the first socket URL -/
theorem copy {x : UInt8} {r : Bytes} (h : ∀ a ∈ l, opening? a (extension? a host) before (x :: r) = none)
    (hr : Division l host (some x) r out ps tail) :
    ∃ ps' tail', Division l host before (x :: r) (x :: out) ps' tail' := by
  obtain ⟨ps', tail', hbody, hout, hplaces⟩ := exists_cons x ps tail
  have hmem : ∀ i o a, (i, o, a) ∈ places 0 ps' ↔ 1 ≤ i ∧ (i - 1, o, a) ∈ places 0 ps := by
    intro i o a
    rw [hplaces, ← Nat.zero_add 1, mem_places_add]
  refine ⟨ps', tail', by rw [hbody, ← hr.body_eq], by rw [hout, ← hr.out_eq], fun i o a hi => ?_,
    fun a ha i o hi => ?_⟩
  · obtain ⟨hpos, hi⟩ := (hmem i o a).1 hi
    obtain ⟨k, rfl⟩ : ∃ k, i = k + 1 := ⟨i - 1, by omega⟩
    rw [openingFrom?_succ]
    exact hr.sound k o a hi
  · cases i with
    | zero => exact absurd hi (by simp [openingFrom?, h a ha])
    | succ k =>
      rw [openingFrom?_succ] at hi
      rcases hr.complete a ha k o hi with hk | ⟨j, o', b, hj, hlt, hgt⟩
      · exact Or.inl ((hmem _ _ _).2 ⟨by omega, hk⟩)
      · exact Or.inr ⟨j + 1, o', b, (hmem _ _ _).2 ⟨by omega, hj⟩, by omega, by omega⟩

/-- a socket URL at the front is that of the first passage -/
theorem replace (hl : ∀ a ∈ l, IsPlain a) (ha : a ∈ l) (h : Opens a (extension? a host) before o rest body)
    (hr : Division l host (o.bytes ++ a).getLast? rest out ps tail) :
    Division l host before body (o.bytes ++ (host ++ out)) (⟨[], o, a⟩ :: ps) tail := by
  have hbody : body = (o.bytes ++ a) ++ rest := by rw [h.text, List.append_assoc]
  have hne : o.bytes ++ a ≠ [] := by
    obtain ⟨tail, htail, -⟩ := o.bytes_eq
    simp [htail]
  have hmem : ∀ i o' b, (i, o', b) ∈ places 0 (⟨[], o, a⟩ :: ps) ↔ i = 0 ∧ o' = o ∧ b = a ∨
      (o.bytes ++ a).length ≤ i ∧ (i - (o.bytes ++ a).length, o', b) ∈ places 0 ps := by
    intro i o' b
    have hshift : 0 + Passage.length ⟨[], o, a⟩ = 0 + (o.bytes ++ a).length := by simp [Passage.length]
    rw [places, hshift, List.mem_cons, mem_places_add]
    simp
  refine ⟨?_, ?_, fun i o' b hi => ?_, fun b hb i o' hi => ?_⟩
  · rw [spell_cons, List.nil_append, ← hr.body_eq, h.text]
  · rw [spell_cons, List.nil_append, ← hr.out_eq]
  · rcases (hmem i o' b).1 hi with ⟨rfl, rfl, rfl⟩ | ⟨hle, hi⟩
    · exact ⟨ha, opening?_eq_some.2 ⟨rest, h⟩⟩
    · obtain ⟨k, rfl⟩ := Nat.exists_eq_add_of_le hle
      rw [Nat.add_sub_cancel_left] at hi
      rw [hbody, openingFrom?_add hne]
      exact hr.sound k o' b hi
  · rcases Nat.eq_zero_or_pos i with rfl | hpos
    · obtain ⟨rest', h'⟩ := opening?_eq_some.1 hi
      obtain ⟨rfl, rfl⟩ := h.unique (hl a ha) (hl b hb) h'
      exact Or.inl ((hmem _ _ _).2 (Or.inl ⟨rfl, rfl, rfl⟩))
    · -- a place within the first passage is covered by it, and one behind it is a place of the rest
      rcases Nat.lt_or_ge i (o.bytes ++ a).length with hlt | hle
      · refine Or.inr ⟨0, o, a, (hmem _ _ _).2 (Or.inl ⟨rfl, rfl, rfl⟩), hpos, ?_⟩
        rwa [Nat.zero_add, ← List.length_append]
      · obtain ⟨k, rfl⟩ := Nat.exists_eq_add_of_le hle
        rw [hbody, openingFrom?_add hne] at hi
        rcases hr.complete b hb k o' hi with hk | ⟨j, o'', c, hj, hlt, hgt⟩
        · exact Or.inl ((hmem _ _ _).2 (Or.inr ⟨hle, by rwa [Nat.add_sub_cancel_left]⟩))
        · refine Or.inr ⟨(o.bytes ++ a).length + j, o'', c, (hmem _ _ _).2 (Or.inr ⟨by omega, ?_⟩), by omega, by omega⟩
          rwa [Nat.add_sub_cancel_left]

/-- no socket URL of an authority begins within that of another passage -/
theorem not_covers (hl : ∀ a ∈ l, IsAuthority a) (h : Division l host before body out ps tail)
    (hi : openingFrom? a e before body i = some o) : ¬ Covers ps i := by
  rintro ⟨j, o', b, hj, hlt, hgt⟩
  obtain ⟨hb, hfound⟩ := h.sound j o' b hj
  obtain ⟨rest, hopens⟩ := opening?_eq_some.1 hfound
  obtain ⟨rest', hopens'⟩ := opening?_eq_some.1 hi
  have hdrop : body.drop i = (body.drop j).drop (i - j) := by rw [List.drop_drop]; congr 1; omega
  rw [hdrop] at hopens'
  exact hopens.not_within (hl b hb) (by omega) (by omega) hopens'

/-- **The pass misses none:** the socket URLs of the passages are those that begin in the body. -/
theorem found_iff (hl : ∀ a ∈ l, IsAuthority a) (h : Division l host before body out ps tail) :
    (i, o, a) ∈ places 0 ps ↔ a ∈ l ∧ openingFrom? a (extension? a host) before body i = some o :=
  ⟨h.sound i o a, fun ⟨ha, hi⟩ => (h.complete a ha i o hi).resolve_right (h.not_covers hl hi)⟩

end Division

/-- every pass divides its body -/
theorem AtOnce.exists_division {l : List Bytes} (hl : ∀ a ∈ l, IsPlain a) (h : AtOnce l host before body out) :
    ∃ ps tail, Division l host before body out ps tail := by
  induction h with
  | nil => exact ⟨[], [], .nil l host _⟩
  | copy hnone _ ih =>
    obtain ⟨ps, tail, hr⟩ := ih
    exact hr.copy hnone
  | replace ha hopens _ ih =>
    obtain ⟨ps, tail, hr⟩ := ih
    exact ⟨_, tail, hr.replace hl ha hopens⟩

end MachineGateway.SocketUrl
