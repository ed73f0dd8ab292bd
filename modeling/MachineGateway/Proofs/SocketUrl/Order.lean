/-
The order of the authorities does not matter. Each pass of `rewriteAll` reads what the passes before it have written,
and authorities may begin like one another or like the host. Still all passes together put the host in the place of
exactly those authorities that stand in socket URLs of the body as it came (`rewriteAll_at_once`), which says nothing of
an order.
-/
import MachineGateway.Proofs.SocketUrl.Replacement

namespace MachineGateway.SocketUrl

/-- **The passes for all authorities are one replacement.** In whatever order the authorities are taken, the output is
the same. The body is a text with gaps, each filled with an authority of its own; the output is that text with the host
in every gap; and the gaps are those behind the openings of the socket URLs, of any authority but the host itself, that
stand in the body. -/
theorem rewriteAll_at_once (authorities : List Bytes) (host body : Bytes) (hauth : ∀ a ∈ authorities, IsAuthority a)
    (hhost : IsUnmarked host) (hpath : ∀ a ∈ authorities, ExtendsByPath a host) :
    (∀ l, l.Perm authorities → rewriteAll l host body = rewriteAll authorities host body) ∧
      ∃ ps tail, body = Passage.spell Passage.authority ps tail ∧
        rewriteAll authorities host body = Passage.spell (fun _ => host) ps tail ∧
        ∀ i o a, (i, o, a) ∈ Passage.places 0 ps ↔ a ∈ authorities ∧ a ≠ host ∧ UrlAt a host body o i := by
  have hmem : ∀ a, a ∈ authorities.filter (· ≠ host) ↔ a ∈ authorities ∧ a ≠ host := by simp
  have hothers : ∀ a ∈ authorities.filter (· ≠ host), IsAuthority a := fun a ha => hauth a ((hmem a).1 ha).1
  obtain ⟨out, hout⟩ := AtOnce.exists_out (authorities.filter (· ≠ host)) host none body
  have hall : ∀ l, l.Perm authorities → rewriteAll l host body = out := by
    intro l hperm
    have hsame : ∀ a, a ∈ authorities.filter (· ≠ host) ↔ a ∈ l.filter (· ≠ host) := fun a =>
      (hperm.symm.filter _).mem_iff
    exact rewriteAll_of_atOnce (fun a ha => hauth a (hperm.subset ha)) hhost (fun a ha => hpath a (hperm.subset ha))
      (hout.congr hsame)
  have hself := hall authorities (List.Perm.refl authorities)
  obtain ⟨ps, tail, h⟩ := hout.exists_division fun a ha => (hothers a ha).plain
  refine ⟨fun l hperm => (hall l hperm).trans hself.symm, ps, tail, h.body_eq, hself.trans h.out_eq, fun i o a => ?_⟩
  calc (i, o, a) ∈ Passage.places 0 ps
      ↔ a ∈ authorities.filter (· ≠ host) ∧ openingAt? a host body i = some o := h.found_iff hothers
    _ ↔ a ∈ authorities ∧ a ≠ host ∧ UrlAt a host body o i := by rw [hmem, urlAt_iff, and_assoc]

/-- the authorities `a:1`, `a:12` and `b:2` with the host `a:1/v` in `ws://a:1/x?ws=b:2&ws=a:12 wss://a:1/v`: the first
authority begins the second one and the host, and the last URL goes on with the host's path already -/
theorem rewriteAll_at_once_extended :
    let authorities : List Bytes := [[0x61, 0x3A, 0x31], [0x61, 0x3A, 0x31, 0x32], [0x62, 0x3A, 0x32]]
    let host : Bytes := [0x61, 0x3A, 0x31, 0x2F, 0x76]
    let body : Bytes := Opening.plainUrl.bytes ++ [0x61, 0x3A, 0x31] ++ [0x2F, 0x78, 0x3F] ++
      Opening.plainParameter.bytes ++ [0x62, 0x3A, 0x32] ++ 0x26 :: Opening.plainParameter.bytes ++
      [0x61, 0x3A, 0x31, 0x32] ++ 0x20 :: Opening.secureUrl.bytes ++ host
    (∀ a ∈ authorities, IsAuthority a) ∧ IsUnmarked host ∧ (∀ a ∈ authorities, ExtendsByPath a host) ∧
      rewriteAll authorities host body = Opening.plainUrl.bytes ++ host ++ [0x2F, 0x78, 0x3F] ++
        Opening.plainParameter.bytes ++ host ++ 0x26 :: Opening.plainParameter.bytes ++ host ++
        0x20 :: Opening.secureUrl.bytes ++ host ∧
      rewriteAll authorities.reverse host body = rewriteAll authorities host body ∧
      ∃ ps tail, body = Passage.spell Passage.authority ps tail ∧
        rewriteAll authorities host body = Passage.spell (fun _ => host) ps tail ∧
        (18, Opening.plainParameter, [0x61, 0x3A, 0x31, 0x32]) ∈ Passage.places 0 ps := by
  intro authorities host body
  have hauth : ∀ a ∈ authorities, IsAuthority a := by
    intro a ha
    simp only [authorities, List.mem_cons, List.not_mem_nil, or_false] at ha
    rcases ha with rfl | rfl | rfl <;> exact ⟨by decide, by decide, by decide, by decide⟩
  have hhost : IsUnmarked host := by decide
  have hpath : ∀ a ∈ authorities, ExtendsByPath a host := by
    intro a ha t rest h ht
    simp only [authorities, List.mem_cons, List.not_mem_nil, or_false] at ha
    rcases ha with rfl | rfl | rfl
    · simp only [host, List.cons_append, List.nil_append, List.cons.injEq, true_and] at h
      exact h.1.symm
    · simp [host] at h
    · simp [host] at h
  obtain ⟨horder, ps, tail, hbody, hout, hplaces⟩ := rewriteAll_at_once authorities host body hauth hhost hpath
  exact ⟨hauth, hhost, hpath, by decide, horder _ (List.reverse_perm authorities), ps, tail, hbody, hout,
    (hplaces _ _ _).2 ⟨by decide, by decide, by decide⟩⟩

end MachineGateway.SocketUrl
