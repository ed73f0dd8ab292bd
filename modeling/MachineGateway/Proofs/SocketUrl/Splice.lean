/-
One socket URL among others. The passes of `rewriteAll` take what stands before a URL, the URL itself and what follows
it apart: a URL `ws://A p` of one of the authorities comes out as `ws://H p`, where `H` is the host, between the
rewritten text before it and some text after it that begins as before (`rewriteAll_url`).

An authority that ends like an opening begins (`ws:`, `wss:`) could reach over the edge of the URL, and so could one
that goes on with the byte after the URL; both are excluded.
-/
import MachineGateway.Proofs.SocketUrl.Clearing

namespace MachineGateway.SocketUrl

/-! ## Authorities that stay within their URL -/

/-- an authority without terminators or `=` that does not end with `ws:` or `wss:` -/
structure IsAuthority (a : Bytes) : Prop where
  ne_nil : a ≠ []
  plain : IsPlain a
  not_plain_mark : ¬ [0x77, 0x73, 0x3A] <:+ a
  not_secure_mark : ¬ [0x77, 0x73, 0x73, 0x3A] <:+ a

variable {a b m host : Bytes} {before : Option UInt8} {o : Opening} {rest body x y z : Bytes}

theorem authorityEnds_of_append (h : authorityEnds (x ++ y) = true) : authorityEnds x = true := by
  cases x with
  | nil => rfl
  | cons t x => exact h

/-- a socket URL that ends within a text begins there whatever follows the text -/
theorem Opens.within (h : Opens a none before o rest body) (hx : x = o.bytes ++ (a ++ y)) (hrest : rest = y ++ z) :
    Opens a none before o y x :=
  ⟨hx, h.bound, authorityEnds_of_append (hrest ▸ h.ends), fun _ he => absurd he (by simp)⟩

theorem Opens.append (h : Opens a none before o rest body) (hrest : rest ≠ []) (y : Bytes) :
    Opens a none before o (rest ++ y) (body ++ y) := by
  refine ⟨by rw [h.text]; simp, h.bound, ?_, fun _ he => absurd he (by simp)⟩
  cases rest with
  | nil => exact absurd rfl hrest
  | cons t rest => exact h.ends

/-- an authority is determined by the text that begins with it and goes on with the end of an authority -/
theorem eq_of_append_eq {w w' : Bytes} (ha : IsPlain a) (hm : IsPlain m) (hw : authorityEnds w = true)
    (hw' : authorityEnds w' = true) (h : m ++ w = a ++ w') : a = m := by
  rcases List.append_eq_append_iff.1 h with ⟨v, rfl, rfl⟩ | ⟨v, rfl, rfl⟩
  · cases v with
    | nil => exact List.append_nil m
    | cons t v => exact absurd hw (ha.not_ends (by simp))
  · cases v with
    | nil => exact (List.append_nil a).symm
    | cons t v => exact absurd hw' (hm.not_ends (by simp))

/-! ## Clear text stays in place -/

/-- text without openings is copied, whatever follows that the authority cannot go on with -/
theorem scan_clear_append (host : Bytes) (hx : Clear a none before x) (hz : ∀ t ∈ z.head?, t ∉ a) :
    ∃ z', scan a host none before 0 (x ++ z) = x ++ z' ∧ z'.head? = z.head? := by
  induction x generalizing before with
  | nil => exact ⟨_, rfl, scan_head?⟩
  | cons c x ih =>
    rw [List.cons_append]
    cases ho : opening? a none before (c :: (x ++ z)) with
    | none =>
      obtain ⟨z', hz', hhead⟩ := ih hx.2
      exact ⟨z', by rw [scan_copy ho, hz', List.cons_append], hhead⟩
    | some o =>
      obtain ⟨rest, h⟩ := opening?_eq_some.1 ho
      have hwhole : ∀ v, c :: x = o.bytes ++ (a ++ v) → rest ≠ v ++ z := fun v hv hrest =>
        opening?_eq_none.1 hx.1 o v (h.within hv hrest)
      have htext : c :: x ++ z = o.bytes ++ (a ++ rest) := h.text
      rcases List.append_eq_append_iff.1 htext with ⟨u, hu, rfl⟩ | ⟨u, hu, hrest⟩
      · -- the text ends within the opening, which stays
        cases u with
        | nil =>
          rw [List.append_nil] at hu
          cases a with
          | nil => exact absurd rfl (hwhole [] (by simp [hu]))
          | cons t a => exact absurd List.mem_cons_self (hz t rfl)
        | cons t u =>
          refine ⟨t :: u ++ (host ++ scan a host none (o.bytes ++ a).getLast? 0 rest), ?_, rfl⟩
          rw [scan_replace h, hu]
          simp
      · rcases List.append_eq_append_iff.1 hrest with ⟨v, rfl, hz'⟩ | ⟨v, rfl, rfl⟩
        · exact absurd hz' (hwhole v hu)
        · -- the text ends within the authority
          cases v with
          | nil => exact absurd rfl (hwhole [] (by simpa using hu))
          | cons t v => exact absurd (by simp) (hz t rfl)

/-- what stands before the first slash of an opening -/
theorem Opening.mark_of_slash {k w : Bytes} (h : o.bytes = k ++ 0x2F :: w) (hk : 0x2F ∉ k) :
    k = [0x77, 0x73, 0x3A] ∨ k = [0x77, 0x73, 0x73, 0x3A] := by
  have hall : ∀ t ∈ k, (t != 0x2F) = true := fun t ht => by
    rw [bne_iff_ne]
    rintro rfl
    exact hk ht
  have hpart : o.bytes.takeWhile (· != 0x2F) = k := by
    rw [h, List.takeWhile_append_of_pos hall, List.takeWhile_cons_of_neg (by decide), List.append_nil]
  have hslash : 0x2F ∈ o.bytes := by rw [h]; simp
  subst hpart
  revert hslash
  cases o <;> decide

/-- text that begins with a slash stays clear behind an authority -/
theorem clear_authority_append {c : Option UInt8} {v : Bytes} (hm : IsAuthority m) (hv : Clear a none c (0x2F :: v)) :
    Clear a none before (m ++ 0x2F :: v) := by
  have hpart : ∀ u, u <:+ m → ∀ before, Clear a none before (u ++ 0x2F :: v) := by
    intro u hu
    induction u with
    | nil => exact fun _ => hv.of_head_ne (by simp)
    | cons t u ih =>
      intro before
      refine ⟨opening?_eq_none.2 fun o rest h => ?_, ih ((List.suffix_cons t u).trans hu) _⟩
      have hplain : IsPlain (t :: u) := fun s hs => hm.plain s (hu.subset hs)
      have htext : (t :: u) ++ 0x2F :: v = o.bytes ++ (a ++ rest) := h.text
      rcases List.append_eq_append_iff.1 htext with ⟨w, hw, hrest⟩ | ⟨w, hw, -⟩
      · cases w with
        | nil => exact openless_of_plain hplain o ⟨[], [], by simp [hw]⟩
        | cons s w =>
          obtain rfl : 0x2F = s := (List.cons.inj hrest).1
          have hslash : 0x2F ∉ t :: u := fun hs => absurd (hplain _ hs).1 (by decide)
          rcases Opening.mark_of_slash hw hslash with h | h <;> rw [h] at hu
          · exact hm.not_plain_mark hu
          · exact hm.not_secure_mark hu
      · exact openless_of_plain hplain o (by rw [hw]; exact (List.prefix_append _ _).isInfix)
  exact hpart m List.suffix_rfl before

/-! ## The text before a URL -/

/-- of an authority's text only `ws:` could stand at the beginning of a `ws://` URL -/
theorem eq_mark_of_append {v : Bytes} (hv : IsPlain v) (hends : authorityEnds rest = true)
    (h : v ++ rest = Opening.plainUrl.bytes ++ z) : v = [0x77, 0x73, 0x3A] := by
  match v with
  | [] =>
    rw [List.nil_append] at h
    rw [h] at hends
    exact absurd hends (by simp [authorityEnds, isTerminator, Opening.bytes])
  | [c] =>
    obtain ⟨-, rfl⟩ : c = 0x77 ∧ rest = _ := by simpa [Opening.bytes] using h
    exact absurd hends (by simp [authorityEnds, isTerminator])
  | [c, d] =>
    obtain ⟨-, -, rfl⟩ : c = 0x77 ∧ d = 0x73 ∧ rest = _ := by simpa [Opening.bytes] using h
    exact absurd hends (by simp [authorityEnds, isTerminator])
  | [c, d, e] =>
    obtain ⟨rfl, rfl, rfl, -⟩ : c = 0x77 ∧ d = 0x73 ∧ e = 0x3A ∧ rest = _ := by simpa [Opening.bytes] using h
    rfl
  | c :: d :: e :: f :: v =>
    obtain ⟨-, -, -, rfl, -⟩ : c = 0x77 ∧ d = 0x73 ∧ e = 0x3A ∧ f = 0x2F ∧ v ++ rest = _ := by
      simpa [Opening.bytes] using h
    exact absurd (hv 0x2F (by simp)).1 (by decide)

/-- a socket URL that begins before a `ws://` URL ends before it -/
theorem Opens.before_url (ha : IsAuthority a) (hx : x ≠ [])
    (h : Opens a none before o rest (x ++ (Opening.plainUrl.bytes ++ z))) :
    ∃ r, r ≠ [] ∧ rest = r ++ (Opening.plainUrl.bytes ++ z) ∧ x = o.bytes ++ (a ++ r) := by
  have hlast : ∀ u v, a = u ++ v → v ++ rest ≠ Opening.plainUrl.bytes ++ z := by
    rintro u v rfl hv
    have hplain : IsPlain v := fun t ht => ha.plain t (List.mem_append_right u ht)
    rw [eq_mark_of_append hplain h.ends hv] at ha
    exact ha.not_plain_mark (List.suffix_append u _)
  rcases List.append_eq_append_iff.1 h.text with ⟨u, hu, hrest⟩ | ⟨u, rfl, hrest⟩
  · -- an opening holds one `w`, so it does not reach into the next one
    cases u with
    | nil => exact absurd hrest.symm (hlast [] a rfl)
    | cons t u =>
      obtain ⟨tail, htail, hw⟩ := o.bytes_eq
      obtain rfl : t = 0x77 := by
        have := congrArg List.head? hrest
        simpa [Opening.bytes] using this.symm
      cases x with
      | nil => exact absurd rfl hx
      | cons c x =>
        rw [htail, List.cons_append, List.cons.injEq] at hu
        exact absurd (by rw [hu.2]; simp) hw
  · rcases List.append_eq_append_iff.1 hrest with ⟨v, rfl, hy⟩ | ⟨v, rfl, hy⟩
    · refine ⟨v, ?_, hy, rfl⟩
      rintro rfl
      exact hlast a [] (List.append_nil a).symm hy
    · exact absurd hy.symm (hlast u v rfl)

/-- a pass rewrites what stands before a `ws://` URL without regard to the URL, and keeps its last byte -/
theorem scan_before_url (host : Bytes) (ha : IsAuthority a) (x : Bytes) (before : Option UInt8) :
    ∃ x', x'.getLast?.or before = x.getLast?.or before ∧
      ∀ z, scan a host none before 0 (x ++ (Opening.plainUrl.bytes ++ z)) =
        x' ++ scan a host none (x.getLast?.or before) 0 (Opening.plainUrl.bytes ++ z) := by
  induction hn : x.length using Nat.strong_induction_on generalizing before x with
  | _ n ih =>
    subst hn
    cases x with
    | nil => exact ⟨[], rfl, fun z => by simp⟩
    | cons c x =>
      by_cases hopen : ∃ o r, r ≠ [] ∧ Opens a none before o r (c :: x)
      · -- the authority is replaced, and what is left of `x` behind it still keeps its last byte
        obtain ⟨o, r, hr, h⟩ := hopen
        have hlen : r.length < (c :: x).length := by
          obtain ⟨tail, htail, -⟩ := o.bytes_eq
          rw [h.text, htail]
          simp
          omega
        obtain ⟨r', hlast, hscan⟩ := ih r.length hlen r (o.bytes ++ a).getLast? rfl
        have hr' : r' ≠ [] := by
          rintro rfl
          have hhead := congrArg List.head? (hscan [])
          rw [scan_head?, List.nil_append, scan_head?, List.head?_append_of_ne_nil r hr] at hhead
          exact head_ne_of_authorityEnds h.ends hhead
        have hend : (c :: x).getLast?.or before = r.getLast?.or (o.bytes ++ a).getLast? := by
          simp [h.text, List.getLast?_eq_some_getLast hr]
        refine ⟨o.bytes ++ (host ++ r'), ?_, fun z => ?_⟩
        · rw [hend, ← hlast]
          simp [List.getLast?_eq_some_getLast hr']
        · rw [scan_replace (h.append hr _), hscan, hend]
          simp
      · -- a socket URL that begins here would end within `x`, since no authority holds the opening
        have hcopy : ∀ z, opening? a none before (c :: (x ++ (Opening.plainUrl.bytes ++ z))) = none := by
          intro z
          rw [opening?_eq_none]
          intro o rest h
          obtain ⟨r, hr, hrest, hx⟩ := h.before_url (x := c :: x) ha (List.cons_ne_nil c x)
          exact hopen ⟨o, r, hr, h.within hx hrest⟩
        obtain ⟨x', hlast, hscan⟩ := ih x.length (by simp) x (some c) rfl
        refine ⟨c :: x', ?_, fun z => ?_⟩
        · rw [← getLast?_or_cons, ← getLast?_or_cons, hlast]
        · rw [List.cons_append, scan_copy (hcopy z), hscan, ← getLast?_or_cons]
          rfl

/-! ## One pass over a body with a URL -/

theorem scan_plainUrl (h : ∀ rest, ¬ Opens a none before .plainUrl rest (Opening.plainUrl.bytes ++ z)) :
    scan a host none before 0 (Opening.plainUrl.bytes ++ z) =
      Opening.plainUrl.bytes ++ scan a host none (some 0x2F) 0 z := by
  have hnone : opening? a none before (0x77 :: ([0x73, 0x3A, 0x2F, 0x2F] ++ z)) = none := by
    rw [opening?_eq_none]
    intro o rest ho
    obtain rfl : o = .plainUrl := Opening.eq_of_common_text ⟨_, ho.text.symm⟩ ⟨z, rfl⟩
    exact h rest ho
  show scan a host none before 0 (0x77 :: ([0x73, 0x3A, 0x2F, 0x2F] ++ z)) = _
  rw [scan_copy hnone]
  simp only [List.cons_append, List.nil_append]
  iterate 4 rw [scan_copy (opening?_of_head_ne (by decide))]
  rfl

theorem not_opens_plainUrl {w : Bytes} (ha : IsPlain a) (hm : IsPlain m) (hw : authorityEnds w = true) (hne : a ≠ m) :
    ¬ Opens a none before .plainUrl rest (Opening.plainUrl.bytes ++ (m ++ w)) :=
  fun h => hne (eq_of_append_eq ha hm hw h.ends (List.append_cancel_left h.text))

/-- after `ws://` alone nothing is rewritten -/
theorem scan_plainUrl_nil (ha : IsAuthority a) :
    scan a host none before 0 (Opening.plainUrl.bytes ++ []) = Opening.plainUrl.bytes := by
  rw [scan_plainUrl]
  · simp [scan]
  · intro rest h
    have hnil := List.append_cancel_left h.text
    exact ha.ne_nil (List.append_eq_nil_iff.1 hnil.symm).1

/-- a pass for another authority leaves a URL in its place -/
theorem scan_url_of_ne (host : Bytes) (ha : IsAuthority a) (hm : IsPlain m) (hne : a ≠ m) {v : Bytes}
    (hclear : Clear a none (some 0x2F) (m ++ 0x2F :: v)) (hz : ∀ t ∈ z.head?, t ∉ a) (x : Bytes) :
    ∃ x' z', x'.getLast? = x.getLast? ∧ z'.head? = z.head? ∧
      scan a host none none 0 (x ++ Opening.plainUrl.bytes) = x' ++ Opening.plainUrl.bytes ∧
      scan a host none none 0 (x ++ (Opening.plainUrl.bytes ++ (m ++ 0x2F :: v ++ z))) =
        x' ++ (Opening.plainUrl.bytes ++ (m ++ 0x2F :: v ++ z')) := by
  obtain ⟨x', hlast, hscan⟩ := scan_before_url host ha x none
  obtain ⟨z', hz', hhead⟩ := scan_clear_append host hclear hz
  refine ⟨x', z', by simpa using hlast, hhead, ?_, ?_⟩
  · have h := hscan []
    rwa [scan_plainUrl_nil ha, List.append_nil] at h
  · rw [hscan, scan_plainUrl, hz']
    intro rest h
    rw [List.append_assoc] at h
    exact not_opens_plainUrl ha.plain hm rfl hne h

/-- the pass for its authority rewrites a URL -/
theorem scan_url_self (host : Bytes) (ha : IsAuthority a) {v : Bytes} (hclear : ∀ c, Clear a none c (0x2F :: v))
    (hz : ∀ t ∈ z.head?, t ∉ a) (x : Bytes) (hbound : boundary .plainUrl x.getLast? = true) :
    ∃ x' z', z'.head? = z.head? ∧
      scan a host none none 0 (x ++ Opening.plainUrl.bytes) = x' ++ Opening.plainUrl.bytes ∧
      scan a host none none 0 (x ++ (Opening.plainUrl.bytes ++ (a ++ 0x2F :: v ++ z))) =
        x' ++ (Opening.plainUrl.bytes ++ (host ++ 0x2F :: v ++ z')) := by
  obtain ⟨x', -, hscan⟩ := scan_before_url host ha x none
  obtain ⟨z', hz', hhead⟩ :=
    scan_clear_append host (hclear (Opening.plainUrl.bytes ++ a).getLast?) hz
  refine ⟨x', z', hhead, ?_, ?_⟩
  · have h := hscan []
    rwa [scan_plainUrl_nil ha, List.append_nil] at h
  · have hopens : Opens a none (x.getLast?.or none) .plainUrl (0x2F :: v ++ z)
        (Opening.plainUrl.bytes ++ (a ++ 0x2F :: v ++ z)) :=
      ⟨by simp, by simpa using hbound, rfl, fun _ he => absurd he (by simp)⟩
    rw [hscan, scan_replace hopens, hz']
    simp

/-! ## All passes -/

theorem extension?_eq_none (ha : IsPlain a) (hm : IsPlain m) (hne : a ≠ m) (v : Bytes) :
    extension? a (m ++ 0x2F :: v) = none := by
  rw [Option.eq_none_iff_forall_ne_some]
  intro p hp
  obtain ⟨htext, hhead⟩ := extension?_eq_some.1 hp
  have hends : authorityEnds p = authorityEnds [0x2F] := authorityEnds_congr (by simp [hhead])
  exact hne (eq_of_append_eq ha hm rfl hends htext)

theorem rewrite_eq_scan (ha : IsAuthority a) (hm : IsPlain m) (hne : a ≠ m) (v : Bytes) :
    rewrite a (m ++ 0x2F :: v) body = scan a (m ++ 0x2F :: v) none none 0 body := by
  have hself : a ≠ m ++ 0x2F :: v := by
    rintro rfl
    exact absurd (ha.plain 0x2F (by simp)).1 (by decide)
  unfold rewrite
  rw [if_neg (by simp [ha.ne_nil, hself]), extension?_eq_none ha.plain hm hne]

variable {l : List Bytes} {v u : Bytes}

/-- passes for other authorities leave a URL of `b` in its place -/
theorem rewriteAll_url_of_ne (hm : IsPlain m) (hb : IsPlain b)
    (hl : ∀ a ∈ l, IsAuthority a ∧ a ≠ m ∧ a ≠ b ∧ Clear a none (some 0x2F) (b ++ 0x2F :: u)) (x z : Bytes)
    (hz : ∀ t ∈ z.head?, ∀ a ∈ l, t ∉ a) :
    ∃ x' z', z'.head? = z.head? ∧
      rewriteAll l (m ++ 0x2F :: v) (x ++ Opening.plainUrl.bytes) = x' ++ Opening.plainUrl.bytes ∧
      rewriteAll l (m ++ 0x2F :: v) (x ++ (Opening.plainUrl.bytes ++ (b ++ 0x2F :: u ++ z))) =
        x' ++ (Opening.plainUrl.bytes ++ (b ++ 0x2F :: u ++ z')) := by
  induction l generalizing x z with
  | nil => exact ⟨x, z, rfl, rfl, rfl⟩
  | cons a l ih =>
    obtain ⟨ha, hne, hneb, hclear⟩ := hl a List.mem_cons_self
    obtain ⟨x', z', -, hhead, hbefore, hurl⟩ :=
      scan_url_of_ne (m ++ 0x2F :: v) ha hb hneb hclear (fun t ht => hz t ht a List.mem_cons_self) x
    obtain ⟨x'', z'', hhead', hbefore', hurl'⟩ := ih (fun c hc => hl c (List.mem_cons_of_mem a hc)) x' z'
      (fun t ht c hc => hz t (hhead ▸ ht) c (List.mem_cons_of_mem a hc))
    refine ⟨x'', z'', hhead'.trans hhead, ?_, ?_⟩
    · rw [← hbefore', ← hbefore, ← rewrite_eq_scan ha hm hne]
      rfl
    · rw [← hurl', ← hurl, ← rewrite_eq_scan ha hm hne]
      rfl

/-- a URL of one of the authorities is rewritten, and nothing else happens to it: `u` is the host's own path, `v` the
path of the URL -/
theorem rewriteAll_url (hm : IsPlain m) (hb : b ∈ l)
    (hl : ∀ a ∈ l, IsAuthority a ∧ a ≠ m ∧ Clear a none (some 0x2F) (m ++ 0x2F :: u ++ 0x2F :: v)) (x z : Bytes)
    (hbound : boundary .plainUrl x.getLast? = true) (hz : ∀ t ∈ z.head?, ∀ a ∈ l, t ∉ a) :
    ∃ x' z', z'.head? = z.head? ∧
      rewriteAll l (m ++ 0x2F :: u) (x ++ Opening.plainUrl.bytes) = x' ++ Opening.plainUrl.bytes ∧
      rewriteAll l (m ++ 0x2F :: u) (x ++ (Opening.plainUrl.bytes ++ (b ++ 0x2F :: v ++ z))) =
        x' ++ (Opening.plainUrl.bytes ++ (m ++ 0x2F :: u ++ 0x2F :: v ++ z')) := by
  have hpath : ∀ a ∈ l, ∀ c, Clear a none c (0x2F :: v) := fun a ha c =>
    ((hl a ha).2.2.of_append).of_head_ne (by simp)
  induction l generalizing x z with
  | nil => exact absurd hb List.not_mem_nil
  | cons a l ih =>
    obtain ⟨ha, hne, hclear⟩ := hl a List.mem_cons_self
    have hza : ∀ t ∈ z.head?, t ∉ a := fun t ht => hz t ht a List.mem_cons_self
    by_cases hab : b = a
    · -- this pass rewrites the URL, and the others keep it
      subst hab
      obtain ⟨x', z', hhead, hbefore, hurl⟩ :=
        scan_url_self (m ++ 0x2F :: u) ha (hpath b List.mem_cons_self) hza x hbound
      obtain ⟨x'', z'', hhead', hbefore', hurl'⟩ := rewriteAll_url_of_ne (v := u) (u := u ++ 0x2F :: v) hm hm
        (fun c hc => by
          obtain ⟨hc', hne', hclear'⟩ := hl c (List.mem_cons_of_mem b hc)
          exact ⟨hc', hne', hne', by simpa using hclear'⟩) x' z'
        (fun t ht c hc => hz t (hhead ▸ ht) c (List.mem_cons_of_mem b hc))
      refine ⟨x'', z'', hhead'.trans hhead, ?_, ?_⟩
      · rw [← hbefore', ← hbefore, ← rewrite_eq_scan ha hm hne]
        rfl
      · rw [List.append_assoc m, List.cons_append, ← hurl']
        rw [List.append_assoc m, List.cons_append] at hurl
        rw [← hurl, ← rewrite_eq_scan ha hm hne]
        rfl
    · have hbl : b ∈ l := (List.mem_cons.1 hb).resolve_left hab
      obtain ⟨hauth, -, -⟩ := hl b hb
      have hclear' : Clear a none (some 0x2F) (b ++ 0x2F :: v) :=
        clear_authority_append hauth (hpath a List.mem_cons_self none)
      obtain ⟨x', z', hlast, hhead, hbefore, hurl⟩ :=
        scan_url_of_ne (m ++ 0x2F :: u) ha hauth.plain (Ne.symm hab) hclear' hza x
      obtain ⟨x'', z'', hhead', hbefore', hurl'⟩ := ih hbl (fun c hc => hl c (List.mem_cons_of_mem a hc)) x' z'
        (by rw [hlast]; exact hbound) (fun t ht c hc => hz t (hhead ▸ ht) c (List.mem_cons_of_mem a hc))
        (fun c hc => hpath c (List.mem_cons_of_mem a hc))
      refine ⟨x'', z'', hhead'.trans hhead, ?_, ?_⟩
      · rw [← hbefore', ← hbefore, ← rewrite_eq_scan ha hm hne]
        rfl
      · rw [← hurl', ← hurl, ← rewrite_eq_scan ha hm hne]
        rfl

end MachineGateway.SocketUrl
