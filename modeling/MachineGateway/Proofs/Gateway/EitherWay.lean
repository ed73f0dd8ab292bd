/-
Two ways to name a machine. The request for `/vm/NAME PATH` and the request for `PATH` with the routing parameter `NAME`
in front of its query are handled alike, in every world and down to the last byte (`named_either_way`), whatever else
the query holds: the last machine that it names is asked for, and what is left of it is passed on.

`PATH` has to be one that is passed on as it stands when no machine is named in front of it. That leaves out
`/health` and the paths of machines, those of a machine with an empty name among them: `/vm//x` is the path `/x` of such
a machine, and a routing parameter changes the machine but not the path (`empty_name_is_cut`).
-/
import MachineGateway.Proofs.Gateway.NamedPath
import MachineGateway.Proofs.Gateway.Query

namespace MachineGateway

open Http

/-! ## Names -/

theorem Percent.decode_ne_nil (a : UInt8) (r : Bytes) : decode (a :: r) ≠ [] := by
  by_cases ha : a = 0x25
  · subst ha
    rcases decode_percent r with h | ⟨_, _, r₂, b, -, -, -, h⟩ <;> rw [h] <;> exact List.cons_ne_nil _ _
  · rw [decode_of_ne ha]
    exact List.cons_ne_nil _ _

theorem Utf8.decode?_ne_empty {a : UInt8} {r : Bytes} {s : String} (h : decode? (a :: r) = some s) : s ≠ "" := by
  rintro rfl
  obtain ⟨q, t, r', hpieces, -, -⟩ := pieces_cons a r
  have hshown := decode?_eq_some h
  simp [shownChars, hpieces] at hshown

/-- a text that is there stands for a text that is there -/
theorem Percent.decodeText?_ne_empty {cs : List Char} {s : String} (hcs : cs ≠ []) (h : decodeText? cs = some s) :
    s ≠ "" := by
  obtain ⟨c, cs', rfl⟩ := List.exists_cons_of_ne_nil hcs
  obtain ⟨a, t, hc⟩ := List.exists_cons_of_ne_nil (Utf8.encodeChar_ne_nil c)
  rw [decodeText?, Utf8.encodeChars_cons, hc, List.cons_append] at h
  obtain ⟨b, r, hb⟩ := List.exists_cons_of_ne_nil (decode_ne_nil a (t ++ Utf8.encodeChars cs'))
  rw [hb] at h
  exact Utf8.decode?_ne_empty h

/-! ## Paths -/

/-- a path that is passed on as it stands when nothing is in front of it: it is not the gateway's own, and there is
neither a name nor a slash behind its `/vm/` -/
structure IsOrdinary (path : String) : Prop where
  health : path ≠ healthPath
  named : ∀ x, x ≠ [] → '/' ∉ x → path.toList ≠ Route.namedStart ++ x
  below : ∀ x rest, '/' ∉ x → path.toList ≠ Route.namedStart ++ (x ++ '/' :: rest)

theorem Route.ofPath_of_isOrdinary {path : String} (h : IsOrdinary path) : ofPath path = .machine none path := by
  rw [ofPath, if_neg h.health, namedStart_eq]
  cases hafter : Text.after? namedStart path.toList with
  | none => rfl
  | some rest =>
    have hpath := Text.after?_eq_some.1 hafter
    rcases Text.cutAt_cases '/' rest with ⟨hno, hcut⟩ | ⟨x, below, hno, rfl, -⟩
    · obtain rfl : rest = [] := by
        by_contra hne
        exact h.named rest hne hno hpath
      simp [named, Text.cutAt, String.ofList_toList]
    · exact absurd hpath (h.below x below hno)

/-- the path of a machine is routed to it with the path behind the name -/
theorem Route.ofPath_namedTarget {segment name path : String} (hslash : '/' ∉ segment.toList)
    (hname : Percent.decodeText? segment.toList = some name) (hpath : path.toList.head? = some '/')
    (hdecodes : (Percent.decodeText? path.toList).isSome = true) :
    ofPath (namedTarget segment path) = .machine (some name) path := by
  obtain ⟨tail, htail⟩ : ∃ tail, path.toList = '/' :: tail := by
    cases hl : path.toList with
    | nil => simp [hl] at hpath
    | cons c tail => exact ⟨tail, by simpa [hl] using hpath⟩
  rw [htail] at hdecodes
  rw [namedTarget_eq, ofPath_named, htail, named_append hslash hname (decodeText?_slash hdecodes), ← htail,
    String.ofList_toList]

/-! ## Requests -/

/-- the request with another path and query -/
def Http.Request.moved (r : Request) (path : String) (query : Option String) : Request :=
  { r with uri := { r.uri with path, query } }

/-- a path with what a query passes on behind it -/
def withPassedOn (path : String) (q : Option String) : String :=
  if RoutedQuery.passedOn q = [] then path else path ++ "?" ++ String.ofList (RoutedQuery.passedOn q)

namespace Gateway

variable {σ : Type} {g : Gateway} {w : World σ} {connected : Bool} {s : σ} {r r' : Request}

/-- two requests that a gateway handles alike in every world -/
structure Alike (g : Gateway) (r r' : Request) : Prop where
  intake : g.intake r = g.intake r'
  publicBase : ∀ target, g.publicBase r target = g.publicBase r' target
  handled : ∀ {σ : Type} (w : World σ) (connected : Bool) (s : σ),
    g.handle w connected s r = g.handle w connected s r'

/-- requests that differ in path and query alone, and ask for the same, are handled alike -/
theorem alike_moved {path path' : String} {q q' : Option String}
    (h : g.intake (r.moved path q) = g.intake (r.moved path' q')) :
    g.Alike (r.moved path q) (r.moved path' q') := by
  have hbase : ∀ target, g.publicBase (r.moved path q) target = g.publicBase (r.moved path' q') target :=
    fun _ => rfl
  have hengage : ∀ connected job listing,
      g.engage connected (r.moved path q) job listing = g.engage connected (r.moved path' q') job listing :=
    fun _ _ _ => rfl
  refine ⟨h, hbase, fun w connected s => ?_⟩
  simp only [handle, handleIn, h, hengage]

/-- **A machine can be named by path or by query.** The request for the path of a machine, and the request for the path
behind its name with the name in front of the query, in any form that stands for it, are handled alike. If the policy
lets them pass, they ask for the last machine that the rest of the query names, or else for that one, and pass on the
path with what is left of the query. -/
theorem named_either_way (g : Gateway) (r : Request) {segment name path form : String} (q : Option String)
    (hsegment : segment ≠ "" ∧ '/' ∉ segment.toList) (hname : Percent.decodeText? segment.toList = some name)
    (hpath : path.toList.head? = some '/') (hdecodes : (Percent.decodeText? path.toList).isSome = true)
    (hordinary : IsOrdinary path) (hform : RoutedQuery.IsEncoding form name) :
    g.Alike (r.moved (namedTarget segment path) q) (r.moved path (some (RoutedQuery.withName form q))) ∧
      (g.Admits r → g.intake (r.moved (namedTarget segment path) q) =
        .ask ⟨some ((RoutedQuery.namesIn q).getLast?.getD name), withPassedOn path q,
          Upgrade.asksForSocket r.headers⟩) := by
  have hne : name ≠ "" := by
    refine Percent.decodeText?_ne_empty (fun hnil => hsegment.1 ?_) hname
    exact String.toList_inj.1 hnil
  obtain ⟨hquery, hattach⟩ := RoutedQuery.ofQuery_withName hform hne q
  have hbyPath := Route.ofPath_namedTarget hsegment.2 hname hpath hdecodes
  have hbyQuery := Route.ofPath_of_isOrdinary hordinary
  refine ⟨alike_moved ?_, fun hadmits => ?_⟩
  · simp only [intake, Request.moved, hbyPath, hbyQuery, intakeJob, hquery, hattach]
    simp [originOf, Option.or_none]
  · rw [intake_of_admits (r := r.moved (namedTarget segment path) q) hbyPath hadmits]
    simp only [Request.moved, RoutedQuery.ofQuery_name, RoutedQuery.attach_eq, withPassedOn]
    cases (RoutedQuery.namesIn q).getLast? <;> rfl

/-- a request that does not ask for a socket, with nothing in it -/
def bareRequest : Request := { method := "GET", uri := { path := "/" } }

/-- the machine `a b`, with a query that holds an empty routing parameter and an empty segment -/
theorem spaced_name_either_way :
    ("a%20b" ≠ "" ∧ '/' ∉ "a%20b".toList) ∧ Percent.decodeText? "a%20b".toList = some "a b" ∧
      IsOrdinary "/json" ∧ RoutedQuery.IsEncoding "a+b" "a b" ∧
      Gateway.Alike {} (bareRequest.moved "/vm/a%20b/json" (some "x=1&vm=&&y%20"))
        (bareRequest.moved "/json" (some "vm=a+b&x=1&vm=&&y%20")) ∧
      Gateway.intake {} (bareRequest.moved "/vm/a%20b/json" (some "x=1&vm=&&y%20")) =
        .ask ⟨some "a b", "/json?x=1&y%20", false⟩ := by
  have hsegment : "a%20b" ≠ "" ∧ '/' ∉ "a%20b".toList := by decide +kernel
  have hname : Percent.decodeText? "a%20b".toList = some "a b" := by decide +kernel
  have hordinary : IsOrdinary "/json" := by
    have hno : Text.after? Route.namedStart "/json".toList = none := by decide +kernel
    refine ⟨by decide +kernel, fun x _ _ h => ?_, fun x rest _ h => ?_⟩ <;>
      rw [h, Text.after?_append] at hno <;> exact absurd hno (by simp)
  have hform : RoutedQuery.IsEncoding "a+b" "a b" := ⟨by decide +kernel, by decide +kernel⟩
  have hslash : "/json".toList.head? = some '/' := by decide +kernel
  have heither := named_either_way {} bareRequest (some "x=1&vm=&&y%20") hsegment hname hslash
    (by decide +kernel) hordinary hform
  have hpath : namedTarget "a%20b" "/json" = "/vm/a%20b/json" := by decide +kernel
  have hquery : RoutedQuery.withName "a+b" (some "x=1&vm=&&y%20") = "vm=a+b&x=1&vm=&&y%20" := by decide +kernel
  rw [hpath, hquery] at heither
  exact ⟨hsegment, hname, hordinary, hform, heither.1, (heither.2 rfl).trans (by decide +kernel)⟩

/-- a world with one machine -/
def pageWorld : World Unit where
  list s := (.ok ⟨[{ name := "a", status := .running, mappings := [⟨"cdp", "9223", "41000"⟩] }]⟩, s)
  exchange _ s := (.complete { status := 200 }, s)

/-- under the path of the machine `a` the path `/vm//x` is passed on as it stands; with `a` in the query it is passed on
as `/x`, although there is no name between its slashes -/
theorem empty_name_is_cut :
    ("a" ≠ "" ∧ '/' ∉ "a".toList) ∧ Percent.decodeText? "a".toList = some "a" ∧
      "/vm//x".toList.head? = some '/' ∧ (Percent.decodeText? "/vm//x".toList).isSome = true ∧ "/vm//x" ≠ healthPath ∧
      (∀ x, x ≠ [] → '/' ∉ x → "/vm//x".toList ≠ Route.namedStart ++ x ∧
        ∀ rest, "/vm//x".toList ≠ Route.namedStart ++ (x ++ '/' :: rest)) ∧
      RoutedQuery.IsEncoding "a" "a" ∧
      (Gateway.handle {} pageWorld false () (bareRequest.moved "/vm/a/vm//x" none)).1.contact =
        some (.http "http://127.0.0.1:41000/vm//x") ∧
      (Gateway.handle {} pageWorld false () (bareRequest.moved "/vm//x" (some "vm=a"))).1.contact =
        some (.http "http://127.0.0.1:41000/x") := by
  have hrest : "/vm//x".toList = Route.namedStart ++ ['/', 'x'] := by decide +kernel
  refine ⟨by decide +kernel, by decide +kernel, by decide +kernel, by decide +kernel, by decide +kernel, ?_,
    ⟨by decide +kernel, by decide +kernel⟩, by decide +kernel, by decide +kernel⟩
  intro x hx hslash
  obtain ⟨c, x', rfl⟩ := List.exists_cons_of_ne_nil hx
  have hc : c ≠ '/' := fun hc => hslash (hc ▸ List.mem_cons_self)
  refine ⟨fun h => ?_, fun rest h => ?_⟩
  · rw [hrest, List.append_cancel_left_eq] at h
    exact hc (List.cons.inj h).1.symm
  · rw [hrest, List.append_cancel_left_eq] at h
    exact hc (List.cons.inj h).1.symm

end Gateway

end MachineGateway
