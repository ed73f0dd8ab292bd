/-
Rewriting clears. A pass for one authority leaves no socket URL of it, and brings back none of an authority that an
earlier pass has cleared: neither in the host it puts in, nor where the host meets what follows, nor in text whose
surroundings it changed. So `rewriteAll` leaves no socket URL of any authority but the host itself
(`rewriteAll_clear`), and doing it again changes nothing.

The carrying fact is `clear_scan`: an occurrence in the output of a pass was there in its input, since the text of an
opening with an authority, and the path that would make it a rewritten one, hold no whole opening of their own.
-/
import MachineGateway.Proofs.SocketUrl.Occurrence

namespace MachineGateway.SocketUrl

/-! ## Authorities and hosts -/

/-- bytes that an authority may hold -/
def IsPlain (authority : Bytes) : Prop := ∀ b ∈ authority, isTerminator b = false ∧ b ≠ 0x3D

/-- what every opening begins with: `wss:`, `ws:`, `wss=`, `ws=` -/
def marks : List Bytes :=
  [[0x77, 0x73, 0x73, 0x3A], [0x77, 0x73, 0x3A], [0x77, 0x73, 0x73, 0x3D], [0x77, 0x73, 0x3D]]

/-- a host that spells no beginning of an opening -/
def IsUnmarked (host : Bytes) : Prop := ∀ m ∈ marks, Text.occurs m host = false

instance (authority : Bytes) : Decidable (IsPlain authority) :=
  List.decidableBAll (fun b => isTerminator b = false ∧ b ≠ 0x3D) authority

instance (host : Bytes) : Decidable (IsUnmarked host) :=
  List.decidableBAll (fun m => Text.occurs m host = false) marks

/-- where the host goes on after the authority with a byte that ends authorities, it is a slash -/
def ExtendsByPath (authority host : Bytes) : Prop :=
  ∀ t rest, host = authority ++ t :: rest → isTerminator t = true → t = 0x2F

/-! ## Text without openings -/

/-- no opening stands whole in the text -/
def Openless (t : Bytes) : Prop := ∀ o : Opening, ¬ o.bytes <:+: t

variable {a b host : Bytes} {e : Option Bytes} {before : Option UInt8} {o o' : Opening} {rest body : Bytes}

theorem Openless.tail {x : UInt8} {t : Bytes} (h : Openless (x :: t)) : Openless t :=
  fun o ho => h o (ho.trans (List.infix_cons (List.infix_refl t)))

theorem openless_of_plain (h : IsPlain a) : Openless a := by
  intro o ho
  rcases o.sign_mem with hs | hs
  · exact absurd (h _ (ho.subset hs)).1 (by decide)
  · exact (h _ (ho.subset hs)).2 rfl

theorem openless_of_unmarked (h : IsUnmarked host) : Openless host := by
  intro o ho
  obtain ⟨m, hm, hpre⟩ : ∃ m ∈ marks, m <+: o.bytes := by cases o <;> decide
  have := Text.occurs_iff.2 (hpre.isInfix.trans ho)
  rw [h m hm] at this
  exact absurd this (by decide)

/-- an opening cannot begin in text without `w` -/
theorem Openless.append_left {x t : Bytes} (hx : 0x77 ∉ x) (h : Openless t) : Openless (x ++ t) := by
  induction x with
  | nil => exact h
  | cons y x ih =>
    intro o ho
    rw [List.cons_append, List.infix_cons_iff] at ho
    rcases ho with ho | ho
    · obtain ⟨tail, htail, -⟩ := o.bytes_eq
      rw [htail, List.cons_prefix_cons] at ho
      exact hx (by simp [ho.1])
    · exact ih (fun hm => hx (List.mem_cons_of_mem y hm)) o ho

/-! ## A pass keeps openless text in place -/

theorem scan_head? : (scan a host e before 0 body).head? = body.head? := by
  refine scan_cases (a := a) (e := e) (motive := fun before body =>
    (scan a host e before 0 body).head? = body.head?) ?_ ?_ ?_ before body
  · intro before
    rfl
  · intro before x r ho _
    rw [scan_copy ho]
    rfl
  · intro before o rest body h _
    obtain ⟨tail, htail, -⟩ := o.bytes_eq
    rw [scan_replace h, h.text, htail]
    rfl

/-- openless text at the front of the output was at the front of the input, before the same byte -/
theorem of_scan_eq_append {t out : Bytes} (ht : Openless t) (h : scan a host e before 0 body = t ++ out) :
    ∃ r, body = t ++ r ∧ out.head? = r.head? := by
  revert t
  refine scan_cases (a := a) (e := e) (motive := fun before body => ∀ {t : Bytes}, Openless t →
    scan a host e before 0 body = t ++ out → ∃ r, body = t ++ r ∧ out.head? = r.head?) ?_ ?_ ?_ before body
  · intro before t _ h
    obtain ⟨rfl, rfl⟩ := List.nil_eq_append_iff.1 h
    exact ⟨[], rfl, rfl⟩
  · intro before x r ho ih t ht h
    rw [scan_copy ho] at h
    cases t with
    | nil => exact ⟨x :: r, rfl, by rw [← List.nil_append out, ← h]; rfl⟩
    | cons y t =>
      obtain ⟨rfl, hout⟩ := List.cons.inj h
      obtain ⟨r', rfl, hhead⟩ := ih ht.tail hout
      exact ⟨r', rfl, hhead⟩
  · intro before o rest body ho _ t ht h
    rw [scan_replace ho] at h
    rcases List.append_eq_append_iff.1 h with ⟨w, rfl, -⟩ | ⟨w, hw, hout⟩
    · exact absurd (List.prefix_append o.bytes w).isInfix (ht o)
    · cases w with
      | nil => exact absurd (by rw [hw, List.append_nil]) (ht o)
      | cons y w => exact ⟨y :: w ++ (a ++ rest), by rw [ho.text, hw, List.append_assoc], by rw [hout]; rfl⟩

/-- openless text at the front of the input stays there -/
theorem prefix_scan {t : Bytes} (ht : Openless t) (h : t <+: body) : t <+: scan a host e before 0 body := by
  revert t
  refine scan_cases (a := a) (e := e) (motive := fun before body => ∀ {t : Bytes}, Openless t → t <+: body →
    t <+: scan a host e before 0 body) ?_ ?_ ?_ before body
  · intro before t _ h
    exact h
  · intro before x r ho ih t ht h
    rw [scan_copy ho]
    cases t with
    | nil => exact List.nil_prefix
    | cons y t =>
      rw [List.cons_prefix_cons] at h ⊢
      exact ⟨h.1, ih ht.tail h.2⟩
  · intro before o rest body ho _ t ht h
    rw [scan_replace ho]
    rcases List.prefix_or_prefix_of_prefix h ⟨_, ho.text.symm⟩ with h | h
    · exact h.trans (List.prefix_append _ _)
    · exact absurd h.isInfix (ht o)

/-! ## A pass clears -/

theorem extension?_eq_some {p : Bytes} : extension? a host = some p ↔ host = a ++ p ∧ p.head? = some 0x2F := by
  unfold extension?
  rw [← Text.after?_eq_some]
  constructor
  · intro h
    split at h
    · rename_i q hq
      obtain rfl := Option.some.inj h
      exact ⟨hq, rfl⟩
    · exact absurd h (by simp)
  · rintro ⟨h, hp⟩
    cases p with
    | nil => simp at hp
    | cons x p =>
      obtain rfl := Option.some.inj hp
      simp [h]

theorem authorityEnds_congr {r r' : Bytes} (h : r.head? = r'.head?) : authorityEnds r = authorityEnds r' := by
  cases r <;> cases r' <;> simp_all [authorityEnds]

/-- what ends an authority is no beginning of an opening -/
theorem head_ne_of_authorityEnds {r : Bytes} (h : authorityEnds r = true) : r.head? ≠ some 0x77 := by
  cases r with
  | nil => simp
  | cons x r =>
    intro hx
    obtain rfl := Option.some.inj hx
    exact absurd h (by simp only [authorityEnds]; decide)

/-- no byte of an authority can follow its end -/
theorem IsPlain.not_ends {t : UInt8} {w : Bytes} (ha : IsPlain a) (ht : t ∈ a) : authorityEnds (t :: w) ≠ true := by
  simp [authorityEnds, (ha t ht).1]

/-- no socket URL of another authority stands where the host was put in -/
theorem not_opens_host {out : Bytes} (hb : IsPlain b) (hne : b ≠ host) (hx : ExtendsByPath b host)
    (hout : authorityEnds out = true) : ¬ Opens b (extension? b host) before o' rest (o.bytes ++ (host ++ out)) := by
  intro h
  obtain rfl := Opening.eq_of_common_text ⟨_, h.text.symm⟩ ⟨_, rfl⟩
  rcases List.append_eq_append_iff.1 (List.append_cancel_left h.text) with ⟨w, rfl, hw⟩ | ⟨w, rfl, hw⟩
  · -- the authority is longer than the host: it would hold the byte that ends it
    cases w with
    | nil => exact hne (List.append_nil host)
    | cons x w => exact absurd (hw ▸ hout) (hb.not_ends (by simp))
  · -- the authority is shorter: the host goes on by a path, and that is the extension
    cases w with
    | nil => exact hne (List.append_nil b).symm
    | cons x w =>
      have hends := h.ends
      rw [hw] at hends
      have hslash : x = 0x2F := hx x w rfl hends
      refine h.fresh (x :: w) (extension?_eq_some.2 ⟨rfl, by rw [hslash]; rfl⟩) ?_
      rw [hw]
      exact List.prefix_append _ _

theorem IsUnmarked.tail {x : UInt8} {t : Bytes} (h : IsUnmarked (x :: t)) : IsUnmarked t := by
  intro m hm
  have := h m hm
  rw [Text.occurs, Bool.or_eq_false_iff] at this
  exact this.2

/-- the part of an opening before a byte that ends authorities holds a mark -/
theorem Opening.mark_of_terminator {t : Bytes} {y : UInt8} {ys : Bytes} (h : o.bytes = t ++ y :: ys)
    (hy : isTerminator y = true) : ∃ m ∈ marks, m <+: t := by
  have key : ∀ o : Opening, ∀ n < o.bytes.length, isTerminator (o.bytes.getD n 0) = true →
      ∃ m ∈ marks, m <+: o.bytes.take n := by
    intro o
    cases o <;> decide
  have := key o t.length (by simp [h]) (by simpa [h] using hy)
  simpa [h] using this

/-- no socket URL begins within the host, nor reaches over its end -/
theorem quiet_host (hh : IsUnmarked host) (hbody : authorityEnds body = true) : Quiet b e before host body := by
  induction host generalizing before with
  | nil => trivial
  | cons x t ih =>
    refine ⟨opening?_eq_none.2 fun o rest ho => ?_, ih hh.tail⟩
    have hm : ¬ ∃ m ∈ marks, m <+: x :: t := by
      rintro ⟨m, hm, hpre⟩
      have := Text.occurs_iff.2 hpre.isInfix
      rw [hh m hm] at this
      exact absurd this (by decide)
    have htext : (x :: t) ++ body = o.bytes ++ (b ++ rest) := ho.text
    rcases List.append_eq_append_iff.1 htext with ⟨w, hw, hrest⟩ | ⟨w, hw, -⟩
    · -- the opening ends in the body, whose first byte ends authorities
      cases w with
      | nil => exact openless_of_unmarked hh o (by rw [hw, List.append_nil])
      | cons y w =>
        rw [hrest] at hbody
        exact hm (Opening.mark_of_terminator hw hbody)
    · exact openless_of_unmarked hh o (by rw [hw]; exact (List.prefix_append _ _).isInfix)

/-- no socket URL of another authority begins in one that the host was put into -/
theorem quiet_rewritten {out : Bytes} (hb : IsPlain b) (hne : b ≠ host) (hx : ExtendsByPath b host)
    (hh : IsUnmarked host) (hout : authorityEnds out = true) :
    Quiet b (extension? b host) before (o.bytes ++ host) out := by
  obtain ⟨tail, htail, hw⟩ := o.bytes_eq
  have hfirst : opening? b (extension? b host) before (o.bytes ++ (host ++ out)) = none :=
    opening?_eq_none.2 fun o' rest => not_opens_host hb hne hx hout
  rw [htail, List.cons_append] at hfirst ⊢
  rw [← List.append_assoc] at hfirst
  exact ⟨hfirst, quiet_append_iff.2 ⟨quiet_of_not_mem hw, quiet_host hh hout⟩⟩

/-- **What a pass copies is as it was.** A socket URL that begins at a byte copied by a pass began there in the input:
its opening and its authority hold no whole opening, and neither does the path that would make it a rewritten one. -/
theorem Opens.of_scan {x : UInt8} {r : Bytes} (hb : IsPlain b) (hh : IsUnmarked host)
    (h : Opens b (extension? b host) before o rest (x :: scan a host (extension? a host) (some x) 0 r)) :
    ∃ rest', Opens b (extension? b host) before o rest' (x :: r) := by
  obtain ⟨tail, htail, hw⟩ := o.bytes_eq
  have htext := h.text
  rw [htail, List.cons_append, List.cons.injEq, ← List.append_assoc] at htext
  obtain ⟨rfl, htext⟩ := htext
  obtain ⟨r', rfl, hhead⟩ := of_scan_eq_append ((openless_of_plain hb).append_left hw) htext
  refine ⟨r', by rw [htail]; simp, h.bound, ?_, fun p hp hpre => ?_⟩
  · rw [← authorityEnds_congr hhead]
    exact h.ends
  · -- a path that would have made it a rewritten one is still there
    have hhost := (extension?_eq_some.1 hp).1
    have hstays : tail ++ host <+: scan a host (extension? a host) (some 0x77) 0 (tail ++ b ++ r') := by
      apply prefix_scan ((openless_of_unmarked hh).append_left hw)
      rw [hhost, ← List.append_assoc]
      exact (List.prefix_append_right_inj _).2 hpre
    rw [htext, hhost, ← List.append_assoc, List.prefix_append_right_inj] at hstays
    exact h.fresh p hp hstays

/-- **A pass clears and keeps clear.** The output of the pass for `a` holds no socket URL of `b` if `b` is `a`, or if
the input held none. -/
theorem clear_scan (hb : IsPlain b) (hne : b ≠ host) (hx : ExtendsByPath b host) (hh : IsUnmarked host)
    (h : Clear b (extension? b host) before body ∨ b = a) :
    Clear b (extension? b host) before (scan a host (extension? a host) before 0 body) := by
  suffices key : ∀ c, c = before ∨ body.head? ≠ some 0x77 →
      Clear b (extension? b host) c (scan a host (extension? a host) before 0 body) from key before (Or.inl rfl)
  revert h
  refine scan_cases (a := a) (e := extension? a host) (motive := fun before body =>
    Clear b (extension? b host) before body ∨ b = a → ∀ c, c = before ∨ body.head? ≠ some 0x77 →
      Clear b (extension? b host) c (scan a host (extension? a host) before 0 body)) ?_ ?_ ?_ before body
  · intro before _ c _
    trivial
  · intro before x r ho ih h c hc
    rw [scan_copy ho]
    refine ⟨opening?_eq_none.2 fun o rest hopen => ?_, ih (h.imp And.right id) (some x) (Or.inl rfl)⟩
    -- an occurrence here is an occurrence in the input
    obtain rfl : c = before := hc.resolve_right fun hx => hx hopen.head?
    obtain ⟨r', hin⟩ := hopen.of_scan hb hh
    rcases h with h | rfl
    · exact opening?_eq_none.1 h.1 o r' hin
    · exact opening?_eq_none.1 ho o r' hin
  · intro before o rest body ho ih h c _
    have hends : authorityEnds (scan a host (extension? a host) (o.bytes ++ a).getLast? 0 rest) = true := by
      rw [authorityEnds_congr scan_head?]
      exact ho.ends
    have hhead := head_ne_of_authorityEnds ho.ends
    have hrest : Clear b (extension? b host) (o.bytes ++ a).getLast? rest ∨ b = a := by
      refine h.imp (fun h => ?_) id
      rw [ho.text, ← List.append_assoc] at h
      exact h.of_append.of_head_ne hhead
    rw [scan_replace ho, ← List.append_assoc]
    exact clear_append_iff.2 ⟨quiet_rewritten hb hne hx hh hends, ih hrest _ (Or.inr hhead)⟩

/-! ## Passes one after another -/

theorem scan_of_clear (h : Clear a e before body) : scan a host e before 0 body = body := by
  induction body generalizing before with
  | nil => rfl
  | cons x r ih => rw [scan_copy h.1, ih h.2]

theorem rewrite_of_clear (h : Clear a (extension? a host) none body) : rewrite a host body = body := by
  unfold rewrite
  split_ifs
  · rfl
  · exact scan_of_clear h

theorem clear_rewrite (hb : IsPlain b) (hnil : b ≠ []) (hne : b ≠ host) (hx : ExtendsByPath b host)
    (hh : IsUnmarked host) (h : Clear b (extension? b host) none body ∨ b = a) :
    Clear b (extension? b host) none (rewrite a host body) := by
  unfold rewrite
  split_ifs with hskip
  · rcases h with h | rfl
    · exact h
    · simp [hnil, hne] at hskip
  · exact clear_scan hb hne hx hh h

theorem clear_rewriteAll {authorities : List Bytes} (hb : IsPlain b) (hnil : b ≠ []) (hne : b ≠ host)
    (hx : ExtendsByPath b host) (hh : IsUnmarked host)
    (h : Clear b (extension? b host) none body ∨ b ∈ authorities) :
    Clear b (extension? b host) none (rewriteAll authorities host body) := by
  induction authorities generalizing body with
  | nil => exact h.resolve_right List.not_mem_nil
  | cons a l ih =>
    have hstep : Clear b (extension? b host) none body ∨ b = a →
        Clear b (extension? b host) none (rewrite a host body) := clear_rewrite hb hnil hne hx hh
    apply ih
    rcases h with h | h
    · exact Or.inl (hstep (Or.inl h))
    · exact (List.mem_cons.1 h).imp (fun h => hstep (Or.inr h)) id

theorem rewriteAll_of_clear {authorities : List Bytes}
    (h : ∀ a ∈ authorities, a ≠ [] → a ≠ host → Clear a (extension? a host) none body) :
    rewriteAll authorities host body = body := by
  induction authorities with
  | nil => rfl
  | cons a l ih =>
    have hfirst : rewrite a host body = body := by
      by_cases hskip : a = [] ∨ a = host
      · simp [rewrite, hskip]
      · rw [not_or] at hskip
        exact rewrite_of_clear (h a List.mem_cons_self hskip.1 hskip.2)
    show rewriteAll l host (rewrite a host body) = body
    rw [hfirst]
    exact ih fun b hb => h b (List.mem_cons_of_mem a hb)

/-- **No backend address survives.** In a rewritten body no socket URL of any of the authorities begins at any
position, the host itself apart; so rewriting it once more, for all of them or for one, changes nothing. -/
theorem rewriteAll_clear (authorities : List Bytes) (host body : Bytes) (hplain : ∀ a ∈ authorities, IsPlain a)
    (hhost : IsUnmarked host) (hpath : ∀ a ∈ authorities, ExtendsByPath a host) :
    (∀ a ∈ authorities, a ≠ [] → a ≠ host → ∀ i, openingAt? a host (rewriteAll authorities host body) i = none) ∧
      rewriteAll authorities host (rewriteAll authorities host body) = rewriteAll authorities host body ∧
      ∀ a ∈ authorities, rewrite a host (rewrite a host body) = rewrite a host body := by
  have hclear : ∀ l ⊆ authorities, ∀ a ∈ l, a ≠ [] → a ≠ host →
      Clear a (extension? a host) none (rewriteAll l host body) := fun l hl a ha hnil hne =>
    clear_rewriteAll (hplain a (hl ha)) hnil hne (hpath a (hl ha)) hhost (Or.inr ha)
  refine ⟨fun a ha hnil hne => ?_, ?_, fun a ha => ?_⟩
  · exact clear_iff_openingAt?.1 (hclear authorities (List.Subset.refl _) a ha hnil hne)
  · exact rewriteAll_of_clear (hclear authorities (List.Subset.refl _))
  · have hone := hclear [a] (List.cons_subset.2 ⟨ha, List.nil_subset _⟩)
    exact rewriteAll_of_clear hone

/-- the authorities `a:1` and `b:2`, the first of them extended by the host `a:1/v`, in `ws://a:1/x?ws=b:2` -/
theorem rewriteAll_clear_extended :
    let authorities : List Bytes := [[0x61, 0x3A, 0x31], [0x62, 0x3A, 0x32]]
    let host : Bytes := [0x61, 0x3A, 0x31, 0x2F, 0x76]
    let body : Bytes := Opening.plainUrl.bytes ++ [0x61, 0x3A, 0x31, 0x2F, 0x78, 0x3F] ++
      Opening.plainParameter.bytes ++ [0x62, 0x3A, 0x32]
    (∀ a ∈ authorities, IsPlain a) ∧ IsUnmarked host ∧ (∀ a ∈ authorities, ExtendsByPath a host) ∧
      rewriteAll authorities host body = Opening.plainUrl.bytes ++ host ++ [0x2F, 0x78, 0x3F] ++
        Opening.plainParameter.bytes ++ host ∧
      rewriteAll authorities host (rewriteAll authorities host body) = rewriteAll authorities host body := by
  intro authorities host body
  have hplain : ∀ a ∈ authorities, IsPlain a := by decide
  have hhost : IsUnmarked host := by decide
  have hpath : ∀ a ∈ authorities, ExtendsByPath a host := by
    intro a ha t rest h ht
    simp only [authorities, List.mem_cons, List.not_mem_nil, or_false] at ha
    rcases ha with rfl | rfl
    · simp only [host, List.cons_append, List.nil_append, List.cons.injEq, true_and] at h
      exact h.1.symm
    · simp [host] at h
  exact ⟨hplain, hhost, hpath, by decide, (rewriteAll_clear authorities host body hplain hhost hpath).2.1⟩

end MachineGateway.SocketUrl
