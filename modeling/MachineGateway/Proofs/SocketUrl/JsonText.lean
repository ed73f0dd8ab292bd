/-
Rewriting JSON texts. An authority and a host without quotes, backslashes and controls make a pass that knows nothing
of JSON keep to its strings: outside of them no socket URL begins, for want of a `w`, and none reaches over a quote, so
that a pass over a text is a pass over what stands before a quote and one over what stands behind it (`scan_quote`).
Within a string a URL begins at a letter and ends behind one, since it holds no escape (`isContent_scan`).

`Turns` says that a pass makes one text of another wherever that stands; along the grammar every text is turned into
one of the same shape (`exists_turns_spells`), and so `rewriteAll_keeps_shape` holds.
-/
import MachineGateway.Proofs.Json.Shape
import MachineGateway.Proofs.SocketUrl.Clearing

namespace MachineGateway.SocketUrl

open Json

/-- a text that can stand in a string as it is: no quote, no backslash, no control -/
def IsQuotableText (t : String) : Prop := ∀ c ∈ t.toList, IsQuotable c

instance (t : String) : Decidable (IsQuotableText t) := List.decidableBAll IsQuotable t.toList

theorem IsQuotableText.quote_not_mem {t : String} (h : IsQuotableText t) : 0x22 ∉ Utf8.encode t := not_mem_quote h

variable {a host : Bytes} {e : Option Bytes} {before : Option UInt8} {o : Opening} {s s' t t' rest body : Bytes}

theorem Opening.exists_text (o : Opening) : ∃ t, IsQuotableText t ∧ o.bytes = Utf8.encode t := by
  cases o with
  | secureUrl => exact ⟨"wss://", by decide, by decide⟩
  | plainUrl => exact ⟨"ws://", by decide, by decide⟩
  | secureParameter => exact ⟨"wss=", by decide, by decide⟩
  | plainParameter => exact ⟨"ws=", by decide, by decide⟩

theorem Opening.quote_not_mem (o : Opening) : 0x22 ∉ o.bytes := by
  cases o <;> decide

/-! ## Quotes -/

/-- of a list that is put together twice, a part without the byte that follows the first half lies within that half -/
theorem exists_of_append_eq {q : UInt8} {m : Bytes} (hq : q ∉ m) (h : s ++ q :: rest = m ++ t) :
    ∃ u, s = m ++ u ∧ t = u ++ q :: rest := by
  rcases List.append_eq_append_iff.1 h with ⟨u, rfl, hu⟩ | ⟨u, rfl, hu⟩
  · cases u with
    | nil => exact ⟨[], by simp, by simpa using hu.symm⟩
    | cons x u =>
      obtain rfl : q = x := (List.cons.inj hu).1
      exact absurd (by simp) hq
  · exact ⟨u, rfl, hu⟩

theorem prefix_append_quote {x : Bytes} (hx : 0x22 ∉ x) : x <+: s ++ 0x22 :: rest ↔ x <+: s := by
  constructor
  · rintro ⟨t, ht⟩
    obtain ⟨u, rfl, -⟩ := exists_of_append_eq hx ht.symm
    exact List.prefix_append x u
  · intro h
    exact h.trans (List.prefix_append s _)

/-- a URL begins before a quote exactly if it begins where the quote is the end of the text -/
theorem opens_quote (ha : 0x22 ∉ a) (he : ∀ x, e = some x → 0x22 ∉ x) :
    (∃ t, Opens a e before o t (s ++ 0x22 :: rest)) ↔ ∃ t, Opens a e before o t s := by
  have hends : ∀ u : Bytes, authorityEnds (u ++ 0x22 :: rest) = authorityEnds u := by
    intro u
    cases u <;> rfl
  constructor
  · rintro ⟨t, h⟩
    have hno : 0x22 ∉ o.bytes ++ a := by simp [o.quote_not_mem, ha]
    have htext : s ++ 0x22 :: rest = (o.bytes ++ a) ++ t := by rw [h.text, List.append_assoc]
    obtain ⟨u, rfl, rfl⟩ := exists_of_append_eq hno htext
    refine ⟨u, List.append_assoc _ _ _, h.bound, (hends u).symm.trans h.ends, ?_⟩
    intro x hx hpre
    exact h.fresh x hx ((prefix_append_quote (he x hx)).2 hpre)
  · rintro ⟨u, h⟩
    refine ⟨u ++ 0x22 :: rest, by rw [h.text]; simp, h.bound, (hends u).trans h.ends, ?_⟩
    intro x hx hpre
    exact h.fresh x hx ((prefix_append_quote (he x hx)).1 hpre)

theorem opening?_quote (ha : 0x22 ∉ a) (he : ∀ x, e = some x → 0x22 ∉ x) :
    opening? a e before (s ++ 0x22 :: rest) = opening? a e before s := by
  ext o
  rw [opening?_eq_some, opening?_eq_some]
  exact opens_quote ha he

/-- **A quote parts a pass.** -/
theorem scan_quote (ha : 0x22 ∉ a) (he : ∀ x, e = some x → 0x22 ∉ x) (rest : Bytes) (before : Option UInt8) (s : Bytes) :
    scan a host e before 0 (s ++ 0x22 :: rest) =
      scan a host e before 0 s ++ 0x22 :: scan a host e (some 0x22) 0 rest := by
  apply scan_cases (a := a) (e := e) (motive := fun before s => scan a host e before 0 (s ++ 0x22 :: rest) =
      scan a host e before 0 s ++ 0x22 :: scan a host e (some 0x22) 0 rest)
  case nil =>
    intro before
    exact scan_copy (opening?_of_head_ne (by decide))
  case copy =>
    intro before x r h ih
    have hlong : opening? a e before (x :: (r ++ 0x22 :: rest)) = none := (opening?_quote (s := x :: r) ha he).trans h
    rw [List.cons_append, scan_copy hlong, scan_copy h, ih, List.cons_append]
  case replace =>
    intro before o t s h ih
    have hlong : ∃ t', Opens a e before o t' (s ++ 0x22 :: rest) := (opens_quote ha he).2 ⟨t, h⟩
    obtain ⟨t', h'⟩ := hlong
    obtain rfl : t' = t ++ 0x22 :: rest := by
      have htext := h'.text
      rw [h.text, List.append_assoc, List.append_assoc] at htext
      exact (List.append_cancel_left (List.append_cancel_left htext)).symm
    rw [scan_replace h', scan_replace h, ih]
    simp

/-! ## Texts that are turned into others -/

/-- a pass makes `t` of `s` wherever that stands, and goes on behind it -/
def Turns (a host : Bytes) (e : Option Bytes) (s t : Bytes) : Prop :=
  ∀ before rest, ∃ before', scan a host e before 0 (s ++ rest) = t ++ scan a host e before' 0 rest

theorem Turns.append (h : Turns a host e s t) (h' : Turns a host e s' t') : Turns a host e (s ++ s') (t ++ t') := by
  intro before rest
  obtain ⟨between, hfirst⟩ := h before (s' ++ rest)
  obtain ⟨after, hsecond⟩ := h' between rest
  refine ⟨after, ?_⟩
  calc scan a host e before 0 (s ++ s' ++ rest)
      = scan a host e before 0 (s ++ (s' ++ rest)) := by rw [List.append_assoc]
    _ = t ++ scan a host e between 0 (s' ++ rest) := hfirst
    _ = t ++ (t' ++ scan a host e after 0 rest) := by rw [hsecond]
    _ = t ++ t' ++ scan a host e after 0 rest := (List.append_assoc _ _ _).symm

/-- text without a `w` stays as it is -/
theorem turns_self (hs : 0x77 ∉ s) : Turns a host e s s := by
  induction s with
  | nil => exact fun before rest => ⟨before, rfl⟩
  | cons x s ih =>
    intro before rest
    have hx : x ≠ 0x77 := fun hx => hs (hx ▸ List.mem_cons_self)
    obtain ⟨before', hrest⟩ := ih (fun hmem => hs (List.mem_cons_of_mem x hmem)) (some x) rest
    exact ⟨before', by rw [List.cons_append, scan_copy (opening?_of_head_ne hx), hrest, List.cons_append]⟩

/-! ## Strings -/

/-- what a pass makes of the content of a string is the content of one -/
theorem isContent_scan {A P : String} (hA : IsQuotableText A) (hP : IsQuotableText P) (hs : IsContent s)
    (before : Option UInt8) : IsContent (scan (Utf8.encode A) (Utf8.encode P) e before 0 s) := by
  induction hn : s.length using Nat.strong_induction_on generalizing s before with
  | _ n ih =>
    subst hn
    cases hopen : opening? (Utf8.encode A) e before s with
    | some o =>
      -- a URL is taken away from the front as a whole, and one is put there
      obtain ⟨rest, h⟩ := opening?_eq_some.1 hopen
      obtain ⟨sign, hsign, hbytes⟩ := o.exists_text
      have hrest : IsContent rest := by
        rw [h.text, hbytes] at hs
        exact (hs.of_append hsign).of_append hA
      have hlength : rest.length < s.length := by
        obtain ⟨tail, htail, -⟩ := o.bytes_eq
        rw [h.text, htail]
        simp
        omega
      rw [scan_replace h, hbytes]
      exact ((ih rest.length hlength hrest _ rfl).append hP).append hsign
    | none =>
      cases hs with
      | nil => exact .nil
      | cons letter s hletter hs =>
        obtain ⟨x, r, rfl, hr⟩ := hletter.eq_cons
        have hself : Turns (Utf8.encode A) (Utf8.encode P) e r r := turns_self hr
        obtain ⟨before', hturns⟩ := hself (some x) s
        have hlength : s.length < (x :: r ++ s).length := by simp
        rw [List.cons_append] at hopen ⊢
        rw [scan_copy hopen, hturns, ← List.cons_append]
        exact .cons _ _ hletter (ih s.length hlength hs before' rfl)

variable {A P : String}

theorem exists_turns_string (hA : IsQuotableText A) (hP : IsQuotableText P) (he : ∀ x, e = some x → 0x22 ∉ x)
    (hs : IsString s) : ∃ t, IsString t ∧ Turns (Utf8.encode A) (Utf8.encode P) e s t := by
  obtain ⟨content, hcontent, rfl⟩ := hs
  refine ⟨_, ⟨_, isContent_scan (e := e) hA hP hcontent (some 0x22), rfl⟩, ?_⟩
  intro before rest
  refine ⟨some 0x22, ?_⟩
  rw [List.cons_append, List.append_assoc, scan_copy (opening?_of_head_ne (by decide)), List.singleton_append,
    scan_quote hA.quote_not_mem he]
  simp

/-! ## Values -/

theorem exists_turns_label (hA : IsQuotableText A) (hP : IsQuotableText P) (he : ∀ x, e = some x → 0x22 ∉ x)
    (hs : IsLabel s) : ∃ t, IsLabel t ∧ Turns (Utf8.encode A) (Utf8.encode P) e s t := by
  obtain ⟨w, name, w', w'', hw, hname, hw', hw'', rfl⟩ := hs
  obtain ⟨name', hname', hturns⟩ := exists_turns_string hA hP he hname
  have hcolon : 0x77 ∉ 0x3A :: w'' := by simp [not_mem_of_isBlank hw'']
  exact ⟨_, ⟨w, name', w', w'', hw, hname', hw', hw'', rfl⟩, (((turns_self (not_mem_of_isBlank hw)).append hturns).append
    (turns_self (not_mem_of_isBlank hw'))).append (turns_self hcolon)⟩

/-- a pass makes one piece of another of the same shape -/
structure TurnsPiece (a host : Bytes) (e : Option Bytes) (Front : Bytes → Prop) (p q : Piece) : Prop where
  before : Front q.before
  after : IsBlank q.after
  spells : q.shape.Spells q.text
  shape : q.shape = p.shape
  turns : Turns a host e p.bytes q.bytes

theorem exists_turns_piece {Front : Bytes → Prop} (hfront : ∀ s, Front s → ∃ t, Front t ∧ Turns a host e s t) {p : Piece}
    (hbefore : Front p.before) (hafter : IsBlank p.after) (h : ∃ t, p.shape.Spells t ∧ Turns a host e p.text t) :
    ∃ q, TurnsPiece a host e Front p q := by
  obtain ⟨front, hfront', hturnsFront⟩ := hfront p.before hbefore
  obtain ⟨text, hspells, hturns⟩ := h
  exact ⟨⟨front, p.shape, text, p.after⟩, hfront', hafter, hspells, rfl,
    (hturnsFront.append hturns).append (turns_self (not_mem_of_isBlank hafter))⟩

theorem turns_commaed {ps : List Piece} {f : Piece → Piece} (h : ∀ p ∈ ps, Turns a host e p.bytes (f p).bytes) :
    Turns a host e (commaed (ps.map Piece.bytes)) (commaed ((ps.map f).map Piece.bytes)) := by
  have hothers : ∀ ps : List Piece, (∀ p ∈ ps, Turns a host e p.bytes (f p).bytes) →
      Turns a host e ((ps.map Piece.bytes).flatMap (0x2C :: ·)) (((ps.map f).map Piece.bytes).flatMap (0x2C :: ·)) := by
    intro ps
    induction ps with
    | nil => exact fun _ => turns_self List.not_mem_nil
    | cons p ps ih =>
      intro h
      have hcomma : Turns a host e [0x2C] [0x2C] := turns_self (by decide)
      exact (hcomma.append (h p List.mem_cons_self)).append (ih fun q hq => h q (List.mem_cons_of_mem p hq))
  cases ps with
  | nil => exact turns_self List.not_mem_nil
  | cons p ps => exact (h p List.mem_cons_self).append (hothers ps fun q hq => h q (List.mem_cons_of_mem p hq))

/-- pieces between brackets or braces are turned into as many of the same shapes -/
theorem exists_turns_pieces {Front : Bytes → Prop} (hfront : ∀ s, Front s → ∃ t, Front t ∧ Turns a host e s t)
    {ps : List Piece} (hbefore : ∀ p ∈ ps, Front p.before) (hafter : ∀ p ∈ ps, IsBlank p.after)
    (h : ∀ p ∈ ps, ∃ t, p.shape.Spells t ∧ Turns a host e p.text t) :
    ∃ qs : List Piece, qs.map Piece.shape = ps.map Piece.shape ∧ (∀ q ∈ qs, Front q.before) ∧
      (∀ q ∈ qs, IsBlank q.after) ∧ (∀ q ∈ qs, q.shape.Spells q.text) ∧
      Turns a host e (commaed (ps.map Piece.bytes)) (commaed (qs.map Piece.bytes)) := by
  have hpiece : ∀ p ∈ ps, ∃ q, TurnsPiece a host e Front p q := fun p hp =>
    exists_turns_piece hfront (hbefore p hp) (hafter p hp) (h p hp)
  have : Nonempty Piece := ⟨[], .null, [], []⟩
  choose! f hf using hpiece
  refine ⟨ps.map f, ?_, ?_, ?_, ?_, turns_commaed fun p hp => (hf p hp).turns⟩
  · rw [List.map_map]
    exact List.map_congr_left fun p hp => (hf p hp).shape
  · exact List.forall_mem_map.2 fun p hp => (hf p hp).before
  · exact List.forall_mem_map.2 fun p hp => (hf p hp).after
  · exact List.forall_mem_map.2 fun p hp => (hf p hp).spells

theorem turns_wrapped {opening closing : UInt8} {w : Bytes} (hopening : opening ≠ 0x77) (hclosing : closing ≠ 0x77)
    (hw : IsBlank w) (h : Turns a host e s t) :
    Turns a host e (opening :: (w ++ s ++ [closing])) (opening :: (w ++ t ++ [closing])) := by
  have hfirst : Turns a host e [opening] [opening] := turns_self (by simpa using Ne.symm hopening)
  have hlast : Turns a host e [closing] [closing] := turns_self (by simpa using Ne.symm hclosing)
  exact hfirst.append (((turns_self (not_mem_of_isBlank hw)).append h).append hlast)

/-- a text of a shape is turned into one of that shape -/
theorem exists_turns_spells (hA : IsQuotableText A) (hP : IsQuotableText P) (he : ∀ x, e = some x → 0x22 ∉ x)
    {v : Shape} (h : v.Spells s) : ∃ t, v.Spells t ∧ Turns (Utf8.encode A) (Utf8.encode P) e s t := by
  induction h with
  | null => exact ⟨_, .null, turns_self (by decide)⟩
  | bool b => exact ⟨_, .bool b, turns_self (by cases b <;> decide)⟩
  | number n s hn => exact ⟨s, .number n s hn, turns_self hn.not_mem⟩
  | text s hs =>
    obtain ⟨t, ht, hturns⟩ := exists_turns_string hA hP he hs
    exact ⟨t, .text t ht, hturns⟩
  | array w hw ps hbefore hafter _ ih =>
    have hblank : ∀ s, IsBlank s → ∃ t, IsBlank t ∧ Turns (Utf8.encode A) (Utf8.encode P) e s t :=
      fun s hs => ⟨s, hs, turns_self (not_mem_of_isBlank hs)⟩
    obtain ⟨qs, hshape, hbefore', hafter', hspells, hturns⟩ := exists_turns_pieces hblank hbefore hafter ih
    rw [← hshape]
    exact ⟨_, .array w hw qs hbefore' hafter' hspells, turns_wrapped (by decide) (by decide) hw hturns⟩
  | object w hw ps hbefore hafter _ ih =>
    obtain ⟨qs, hshape, hbefore', hafter', hspells, hturns⟩ :=
      exists_turns_pieces (fun s hs => exists_turns_label hA hP he hs) hbefore hafter ih
    rw [← hshape]
    exact ⟨_, .object w hw qs hbefore' hafter' hspells, turns_wrapped (by decide) (by decide) hw hturns⟩

/-! ## Passes -/

theorem isText_rewrite (hA : IsQuotableText A) (hP : IsQuotableText P) {v : Shape} (h : v.IsText body) :
    v.IsText (rewrite (Utf8.encode A) (Utf8.encode P) body) := by
  have he : ∀ x, extension? (Utf8.encode A) (Utf8.encode P) = some x → 0x22 ∉ x := by
    intro x hx hmem
    obtain ⟨hhost, -⟩ := extension?_eq_some.1 hx
    exact hP.quote_not_mem (hhost ▸ List.mem_append_right _ hmem)
  unfold rewrite
  split_ifs with hsame
  · exact h
  · obtain ⟨before, text, after, hbefore, hspells, hafter, rfl⟩ := h
    obtain ⟨text', hspells', hturns⟩ := exists_turns_spells hA hP he hspells
    obtain ⟨_, hscan⟩ := (((turns_self (not_mem_of_isBlank hbefore)).append hturns).append
      (turns_self (not_mem_of_isBlank hafter))) none []
    refine ⟨before, text', after, hbefore, hspells', hafter, ?_⟩
    rw [List.append_nil] at hscan
    rw [hscan]
    simp [scan]

/-- **Rewriting keeps a JSON text well-formed and its shape as it is**, for an authority, a host and a list of
authorities that can stand in a string as they are: the same nesting, lengths, numerals, booleans and nulls, and the
same number and order of members, so that only what strings say can differ. -/
theorem rewriteAll_keeps_shape (P : String) (hP : IsQuotableText P) (v : Shape) (body : Bytes) (h : v.IsText body) :
    (∀ A, IsQuotableText A → v.IsText (rewrite (Utf8.encode A) (Utf8.encode P) body)) ∧
      ∀ authorities : List String, (∀ A ∈ authorities, IsQuotableText A) →
        v.IsText (rewriteAll (authorities.map Utf8.encode) (Utf8.encode P) body) := by
  refine ⟨fun A hA => isText_rewrite hA hP h, ?_⟩
  intro authorities
  induction authorities generalizing body with
  | nil => exact fun _ => h
  | cons A authorities ih =>
    intro hall
    exact ih _ (isText_rewrite (hall A List.mem_cons_self) hP h) fun B hB => hall B (List.mem_cons_of_mem A hB)

/-- a text with URLs in a name, in an element, and behind the escape of half of a pair -/
theorem isText_page :
    (Shape.object [.array [.text, .number ⟨true, ['1'], ['5'], some (false, ['3']), true⟩], .text]).IsText
      (Utf8.encode "\x7b\"ws://a:1\": [\"ws://a:1/x\",-1.5e+3 ],\"u\":\"\\ud800?ws=a:1\"\x7d") := by
  have hnone : IsBlank [] := fun b hb => absurd hb List.not_mem_nil
  have hspace : IsBlank [0x20] := fun b hb => Or.inl (List.mem_singleton.1 hb)
  have hplain : ∀ t, IsQuotableText t → IsString (0x22 :: (Utf8.encode t ++ [] ++ [0x22])) := by
    intro t ht
    exact ⟨_, IsContent.nil.append ht, rfl⟩
  have hescaped : IsString (Utf8.encode "\"\\ud800?ws=a:1\"") :=
    ⟨_, .cons _ _ (.unicode (Utf8.encode "d800") (by decide) (List.all_eq_true.1 (by decide)))
      (IsContent.append (show IsQuotableText "?ws=a:1" by decide) .nil), by decide⟩
  have hdigit : ∀ c : Char, c.isDigit = true → IsDigits [c] := by
    intro c hc
    exact ⟨List.cons_ne_nil c [], List.forall_mem_singleton.2 hc⟩
  have hnumber : Numeral.Spells ⟨true, ['1'], ['5'], some (false, ['3']), true⟩ (Utf8.encode "-1.5e+3") :=
    ⟨hdigit '1' rfl, by decide, hdigit '5' rfl,
      _, .some 'e' (Or.inl rfl) false ['+'] .plus ['3'] (hdigit '3' rfl), by decide⟩
  have hlabel : ∀ (t : String) (w : Bytes), IsQuotableText t → IsBlank w →
      IsLabel ([] ++ 0x22 :: (Utf8.encode t ++ [] ++ [0x22]) ++ [] ++ 0x3A :: w) := by
    intro t w ht hw
    exact ⟨[], _, [], w, hnone, hplain t ht, hnone, hw, rfl⟩
  have harray := Shape.Spells.array [] hnone
    [⟨[], .text, _, []⟩, ⟨[], .number ⟨true, ['1'], ['5'], some (false, ['3']), true⟩, _, [0x20]⟩]
    (by simp [hnone]) (by simp [hnone, hspace])
    (List.forall_mem_cons.2 ⟨.text _ (hplain "ws://a:1/x" (by decide)),
      List.forall_mem_singleton.2 (.number _ _ hnumber)⟩)
  have hobject := Shape.Spells.object [] hnone [⟨_, _, _, []⟩, ⟨_, .text, _, []⟩]
    (List.forall_mem_cons.2 ⟨hlabel "ws://a:1" [0x20] (by decide) hspace,
      List.forall_mem_singleton.2 (hlabel "u" [] (by decide) hnone)⟩)
    (by simp [hnone]) (List.forall_mem_cons.2 ⟨harray, List.forall_mem_singleton.2 (.text _ hescaped)⟩)
  exact ⟨[], _, [], hnone, hobject, hnone, by decide⟩

/-- the host `g/vm/ä` takes the place of `a:1` in a name, in an element and behind an escape -/
theorem rewriteAll_keeps_shape_page :
    let v := Shape.object [.array [.text, .number ⟨true, ['1'], ['5'], some (false, ['3']), true⟩], .text]
    let body := Utf8.encode "\x7b\"ws://a:1\": [\"ws://a:1/x\",-1.5e+3 ],\"u\":\"\\ud800?ws=a:1\"\x7d"
    let out := Utf8.encode
      "\x7b\"ws://g/vm/ä\": [\"ws://g/vm/ä/x\",-1.5e+3 ],\"u\":\"\\ud800?ws=g/vm/ä\"\x7d"
    IsQuotableText "g/vm/ä" ∧ v.IsText body ∧ rewrite (Utf8.encode "a:1") (Utf8.encode "g/vm/ä") body = out ∧
      v.IsText out := by
  intro v body out
  have hP : IsQuotableText "g/vm/ä" := by decide
  have hout : rewrite (Utf8.encode "a:1") (Utf8.encode "g/vm/ä") body = out := by decide +kernel
  have hkeeps := (rewriteAll_keeps_shape "g/vm/ä" hP v body isText_page).1 "a:1" (by decide)
  exact ⟨hP, isText_page, hout, hout ▸ hkeeps⟩

end MachineGateway.SocketUrl
