/-
Rewriting and characters. A pass looks at single bytes, but it cuts between characters only: openings, authority and
host are texts, so that a URL that is taken out is made of whole characters and so is the one put in, and what is copied
is copied one character at a time, since no later byte of a character can begin a URL (`scan_encodeChar`). Hence a body
that is well-formed UTF-8 stays so, and one that is not does not become so (`rewriteAll_isValidUTF8_iff`).
-/
import MachineGateway.Proofs.SocketUrl.JsonText

namespace MachineGateway.SocketUrl

open Utf8 (encode encodeChar WellFormed)

variable {a host : Bytes} {e : Option Bytes} {before : Option UInt8} {body r out : Bytes} {c : Char}

/-- a character holds no opening -/
theorem openless_encodeChar (c : Char) : Openless (encodeChar c) := by
  by_cases hw : 0x77 ∈ encodeChar c
  · obtain rfl : c = 'w' := Utf8.eq_of_mem_encodeChar (d := 'w') (by decide) hw
    intro o
    cases o <;> decide
  · have hnil : Openless [] := openless_of_plain (by simp [IsPlain])
    simpa using hnil.append_left hw

/-- a character at which no URL begins is copied as a whole -/
theorem scan_encodeChar (h : opening? a e before (encodeChar c ++ r) = none) :
    ∃ before', scan a host e before 0 (encodeChar c ++ r) = encodeChar c ++ scan a host e before' 0 r := by
  obtain ⟨b, tail, hc, htail⟩ := Utf8.encodeChar_eq_cons c
  have hw : 0x77 ∉ tail := fun hmem => absurd (htail _ hmem) (by decide)
  rw [hc] at h ⊢
  exact ⟨_, scan_quiet ⟨h, quiet_of_not_mem hw⟩⟩

/-- a character at the front of the output was at the front of the input -/
theorem exists_of_scan_eq (h : scan a host e before 0 body = encodeChar c ++ out) : ∃ r, body = encodeChar c ++ r := by
  obtain ⟨r, hbody, -⟩ := of_scan_eq_append (openless_encodeChar c) h
  exact ⟨r, hbody⟩

/-- well-formed output comes from a body that is empty or begins with a character -/
theorem eq_nil_or_of_wellFormed_scan (h : WellFormed (scan a host e before 0 body)) :
    body = [] ∨ ∃ c r, body = encodeChar c ++ r := by
  rcases h.eq_nil_or with hnil | ⟨c, out, hout⟩
  · have hhead : (scan a host e before 0 body).head? = body.head? := scan_head?
    rw [hnil] at hhead
    exact Or.inl (List.head?_eq_none_iff.1 hhead.symm)
  · exact Or.inr ⟨c, exists_of_scan_eq hout⟩

/-- **A pass of a text for a text** keeps well-formed bytes well-formed and others ill-formed. -/
theorem wellFormed_scan_iff (A P : String) (before : Option UInt8) (body : Bytes) :
    WellFormed (scan (encode A) (encode P) e before 0 body) ↔ WellFormed body := by
  induction hn : body.length using Nat.strong_induction_on generalizing before body with
  | _ n ih =>
    subst hn
    cases hopen : opening? (encode A) e before body with
    | some o =>
      -- opening and authority are taken away from the front, and opening and host are put there
      obtain ⟨rest, h⟩ := opening?_eq_some.1 hopen
      obtain ⟨sign, -, hsign⟩ := o.exists_text
      have hlength : rest.length < body.length := by
        obtain ⟨tail, htail, -⟩ := o.bytes_eq
        rw [h.text, htail]
        simp
        omega
      rw [scan_replace h, h.text, hsign]
      simp only [Utf8.wellFormed_encode_append_iff]
      exact ih rest.length hlength _ rest rfl
    | none =>
      by_cases hchar : ∃ c r, body = encodeChar c ++ r
      · obtain ⟨c, r, rfl⟩ := hchar
        obtain ⟨before', hscan⟩ : ∃ before', scan (encode A) (encode P) e before 0 (encodeChar c ++ r) =
            encodeChar c ++ scan (encode A) (encode P) e before' 0 r := scan_encodeChar hopen
        have hlength : r.length < (encodeChar c ++ r).length := by
          have := List.length_pos_iff.2 (Utf8.encodeChar_ne_nil c)
          rw [List.length_append]
          omega
        rw [hscan]
        simp only [Utf8.wellFormed_encodeChar_append_iff]
        exact ih r.length hlength before' r rfl
      · -- nothing else is well-formed than the empty body, which stays empty
        have hempty : body = [] → (WellFormed (scan (encode A) (encode P) e before 0 body) ↔ WellFormed body) := by
          rintro rfl
          rfl
        constructor
        · intro h
          exact (hempty ((eq_nil_or_of_wellFormed_scan h).resolve_right hchar)).1 h
        · intro h
          exact (hempty (h.eq_nil_or.resolve_right hchar)).2 h

theorem wellFormed_rewrite_iff (A P : String) (body : Bytes) :
    WellFormed (rewrite (encode A) (encode P) body) ↔ WellFormed body := by
  unfold rewrite
  split_ifs
  · rfl
  · exact wellFormed_scan_iff A P none body

theorem wellFormed_rewriteAll_iff (authorities : List String) (P : String) (body : Bytes) :
    WellFormed (rewriteAll (authorities.map encode) (encode P) body) ↔ WellFormed body := by
  induction authorities generalizing body with
  | nil => rfl
  | cons A authorities ih => exact (ih _).trans (wellFormed_rewrite_iff A P body)

/-- **Rewriting keeps UTF-8 valid**, for whatever texts stand for authorities and host, in one pass and in many. It does
not make valid UTF-8 of other bytes either. -/
theorem rewriteAll_isValidUTF8_iff (authorities : List String) (host : String) (body : Bytes) :
    ((rewriteAll (authorities.map encode) (encode host) body).toByteArray.IsValidUTF8 ↔
        body.toByteArray.IsValidUTF8) ∧
      ∀ authority : String, (rewrite (encode authority) (encode host) body).toByteArray.IsValidUTF8 ↔
        body.toByteArray.IsValidUTF8 := by
  simp only [← Utf8.wellFormed_iff_isValidUTF8]
  exact ⟨wellFormed_rewriteAll_iff authorities host body, fun A => wellFormed_rewrite_iff A host body⟩

end MachineGateway.SocketUrl
