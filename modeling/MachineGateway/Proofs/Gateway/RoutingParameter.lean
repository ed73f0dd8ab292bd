/-
Taking the routing parameters out of a query. A query is a list of segments with `&` between them, and a segment is a
name and a value with `=` between them. A segment whose name stands for `vm` is a routing parameter, however the name
is encoded (`IsRouting`, `routingValue?_eq_some`): with plus signs for spaces and escapes for bytes (`isRouting_iff`).
Splitting keeps the other segments as they stand and gives the last name that is not empty (`lastName_eq_some_iff`,
`names_iff`).

`takes_out_routing_parameters` is all of it, for every query: what is kept, which name is given, that nothing is left
to be taken out, and that one more routing parameter behind the query decides.
-/
import MachineGateway.Proofs.Gateway.Query

namespace MachineGateway.RoutedQuery

/-! ## Routing parameters -/

/-- the segment is a name and a value: what stands before the first `=`, and what stands behind it if there is one -/
def IsPair (s key value : List Char) : Prop := '=' ∉ key ∧ (s = key ∧ value = [] ∨ s = key ++ '=' :: value)

/-- the segment is a routing parameter: its name stands for `vm`, and its value for this text -/
def IsRouting (s : List Char) (text : String) : Prop :=
  ∃ key value, IsPair s key value ∧ Form.decode key = routingParameter ∧ Form.decode value = text

variable {s : List Char} {ss : List (List Char)} {n : String}

theorem isPair_iff {key value : List Char} :
    IsPair s key value ↔ (Text.cutAt '=' s).1 = key ∧ (Text.cutAt '=' s).2.getD [] = value := by
  constructor
  · rintro ⟨hkey, ⟨rfl, rfl⟩ | rfl⟩
    · rw [Text.cutAt_of_not_mem hkey]
      exact ⟨rfl, rfl⟩
    · rw [Text.cutAt_append hkey]
      exact ⟨rfl, rfl⟩
  · rintro ⟨rfl, rfl⟩
    rcases Text.cutAt_cases '=' s with ⟨hno, hcut⟩ | ⟨key, value, hkey, hs, hcut⟩
    · rw [hcut]
      exact ⟨hno, Or.inl ⟨rfl, rfl⟩⟩
    · rw [hcut]
      exact ⟨hkey, Or.inr hs⟩

theorem routingValue?_eq_some : routingValue? s = some n ↔ IsRouting s n := by
  have hvalue : routingValue? s = some n ↔ Form.decode (Text.cutAt '=' s).1 = routingParameter ∧
      Form.decode ((Text.cutAt '=' s).2.getD []) = n := by
    simp [routingValue?]
  rw [hvalue]
  constructor
  · rintro ⟨hkey, htext⟩
    exact ⟨_, _, isPair_iff.2 ⟨rfl, rfl⟩, hkey, htext⟩
  · rintro ⟨key, value, hpair, hkey, htext⟩
    obtain ⟨rfl, rfl⟩ := isPair_iff.1 hpair
    exact ⟨hkey, htext⟩

/-- which segments are routing parameters, down to their bytes: the name and the value are read with spaces for plus
signs and with bytes for escapes -/
theorem isRouting_iff {text : String} : IsRouting s text ↔ ∃ key value k v, IsPair s key value ∧
    Percent.Spells (key.map Form.spaced) k ∧ Utf8.lossy k = routingParameter ∧
    Percent.Spells (value.map Form.spaced) v ∧ Utf8.lossy v = text := by
  simp only [IsRouting, Form.decode_eq_iff]
  constructor
  · rintro ⟨key, value, hpair, ⟨k, hk, hname⟩, v, hv, htext⟩
    exact ⟨key, value, k, v, hpair, hk, hname, hv, htext⟩
  · rintro ⟨key, value, k, v, hpair, hk, hname, hv, htext⟩
    exact ⟨key, value, hpair, ⟨k, hk, hname⟩, v, hv, htext⟩

theorem routingValue?_eq_none : routingValue? s = none ↔ ¬ ∃ n, IsRouting s n := by
  rw [Option.eq_none_iff_forall_ne_some, not_exists]
  exact forall_congr' fun n => not_congr routingValue?_eq_some

instance (s : List Char) : Decidable (∃ n, IsRouting s n) :=
  decidable_of_iff ((routingValue? s).isSome = true) (by
    rw [Option.isSome_iff_exists]
    exact exists_congr fun n => routingValue?_eq_some)

theorem isRouting_parameterSegment {form : String} (h : IsEncoding form n) : IsRouting (parameterSegment form) n :=
  routingValue?_eq_some.1 (routingValue?_parameterSegment h)

/-- an empty segment is no routing parameter -/
theorem routingValue?_nil : routingValue? [] = none := by decide +kernel

theorem kept_eq (ss : List (List Char)) :
    kept (ss.filter fun s => !s.isEmpty) = ss.filter fun s => s ≠ [] ∧ ¬ ∃ n, IsRouting s n := by
  rw [kept, List.filter_filter]
  refine List.filter_congr fun s _ => ?_
  rw [Bool.eq_iff_iff, decide_eq_true_iff, ← routingValue?_eq_none]
  simp [and_comm]

/-! ## The name that is given -/

/-- empty segments give no name -/
theorem lastName_filter (ss : List (List Char)) : lastName (ss.filter fun s => !s.isEmpty) = lastName ss := by
  induction ss using List.reverseRecOn with
  | nil => rfl
  | append_singleton ss s ih =>
    rw [List.filter_append, lastName_append]
    cases s with
    | nil => simpa [routingValue?_nil] using ih
    | cons c s => simpa [ih] using lastName_append (ss.filter fun s => !s.isEmpty) (c :: s)

theorem lastName_eq_none_iff : lastName ss = none ↔ ∀ s ∈ ss, ∀ n, IsRouting s n → n = "" := by
  induction ss using List.reverseRecOn with
  | nil => simp [lastName]
  | append_singleton ss s ih =>
    have hlast : ((routingValue? s).filter (· ≠ "")) = none ↔ ∀ n, IsRouting s n → n = "" := by
      simp [Option.filter_eq_none_iff, routingValue?_eq_some]
    rw [lastName_append, Option.or_eq_none_iff, hlast, ih]
    constructor
    · rintro ⟨hs, hss⟩ t ht
      rcases List.mem_append.1 ht with ht | ht
      · exact hss t ht
      · rw [List.mem_singleton.1 ht]
        exact hs
    · intro h
      exact ⟨h s (by simp), fun t ht => h t (List.mem_append_left _ ht)⟩

/-- the name is that of the last routing parameter with one -/
theorem lastName_eq_some_iff : lastName ss = some n ↔ ∃ before s after, ss = before ++ s :: after ∧
    IsRouting s n ∧ n ≠ "" ∧ ∀ t ∈ after, ∀ m, IsRouting t m → m = "" := by
  constructor
  · intro h
    -- the last segment decides if it gives a name, and else those before it do
    induction ss using List.reverseRecOn with
    | nil => exact absurd h (by simp [lastName])
    | append_singleton ss s ih =>
      rw [lastName_append, Option.or_eq_some_iff] at h
      rcases h with h | ⟨hnone, h⟩
      · obtain ⟨hs, hn⟩ := Option.filter_eq_some_iff.1 h
        exact ⟨ss, s, [], rfl, routingValue?_eq_some.1 hs, by simpa using hn, by simp⟩
      · obtain ⟨before, t, after, rfl, ht, hn, hafter⟩ := ih h
        refine ⟨before, t, after ++ [s], by simp, ht, hn, ?_⟩
        intro u hu m hm
        rcases List.mem_append.1 hu with hu | hu
        · exact hafter u hu m hm
        · obtain rfl := List.mem_singleton.1 hu
          rw [routingValue?_eq_some.2 hm] at hnone
          simpa [Option.filter] using hnone
  · rintro ⟨before, s, after, rfl, hs, hn, hafter⟩
    induction after using List.reverseRecOn with
    | nil => simp [lastName_append, routingValue?_eq_some.2 hs, Option.filter, hn]
    | append_singleton after t ih =>
      have ht : (routingValue? t).filter (· ≠ "") = none := by
        rw [Option.filter_eq_none_iff]
        intro m hm
        simpa using hafter t (by simp) m (routingValue?_eq_some.1 hm)
      have happend : before ++ s :: (after ++ [t]) = (before ++ s :: after) ++ [t] := by simp
      rw [happend, lastName_append, ht, Option.none_or]
      exact ih fun u hu => hafter u (List.mem_append_left _ hu)

/-! ## Splitting -/

/-- a query that is joined from its segments is split by them -/
theorem ofText_of_joined {q : String} (hq : Text.splitAt '&' q.toList = ss) :
    ofText q = ⟨lastName ss, some (String.ofList (Text.joinWith '&' (ss.filter fun s => s ≠ [] ∧ ¬ ∃ n, IsRouting s n)))⟩ := by
  rw [ofText, hq]
  simp only [lastName_filter, kept_eq]

/-- the query names a machine: the last of its routing parameters that is not empty stands for the name -/
def Names (query : Option String) (name : String) : Prop :=
  ∃ q before s after, query = some q ∧ q.toList = Text.joinWith '&' (before ++ s :: after) ∧
    (∀ t ∈ before ++ s :: after, '&' ∉ t) ∧ IsRouting s name ∧ name ≠ "" ∧ ∀ t ∈ after, ∀ m, IsRouting t m → m = ""

theorem names_iff {query : Option String} {name : String} :
    Names query name ↔ (namesIn query).getLast? = some name := by
  rw [← ofQuery_name]
  cases query with
  | none => simp [Names, ofQuery]
  | some q =>
    obtain ⟨segments, hsegments⟩ : ∃ segments, Text.splitAt '&' q.toList = segments := ⟨_, rfl⟩
    have hname : (ofQuery (some q)).name = lastName segments := by
      rw [ofQuery, ofText_of_joined hsegments]
    rw [hname, lastName_eq_some_iff]
    constructor
    · rintro ⟨q', before, s, after, hq, hjoined, hno, hrest⟩
      obtain rfl := Option.some.inj hq
      rw [hjoined, Text.splitAt_joinWith (by simp) hno] at hsegments
      exact ⟨before, s, after, hsegments.symm, hrest⟩
    · rintro ⟨before, s, after, hsplit, hrest⟩
      have hno : ∀ t ∈ segments, '&' ∉ t := fun t ht => Text.not_mem_of_mem_splitAt (hsegments ▸ ht)
      have hjoined : q.toList = Text.joinWith '&' segments := by rw [← hsegments, Text.joinWith_splitAt]
      exact ⟨q, before, s, after, rfl, hsplit ▸ hjoined, hsplit ▸ hno, hrest⟩

/-- segments that are kept are kept again -/
theorem ofText_kept {rest : String} (hss : ∀ s ∈ ss, '&' ∉ s ∧ s ≠ [] ∧ ¬ ∃ n, IsRouting s n)
    (hrest : rest.toList = Text.joinWith '&' ss) : ofText rest = ⟨none, some rest⟩ := by
  obtain ⟨segments, hsegments, hfilter⟩ : ∃ segments, Text.splitAt '&' rest.toList = segments ∧
      segments.filter (fun s => s ≠ [] ∧ ¬ ∃ n, IsRouting s n) = ss ∧ ∀ s ∈ segments, ¬ ∃ n, IsRouting s n := by
    cases ss with
    | nil =>
      refine ⟨[[]], by rw [hrest]; rfl, by simp, ?_⟩
      intro s hs
      obtain rfl := List.mem_singleton.1 hs
      exact routingValue?_eq_none.1 routingValue?_nil
    | cons s ss =>
      refine ⟨s :: ss, ?_, ?_, fun t ht => (hss t ht).2.2⟩
      · rw [hrest]
        exact Text.splitAt_joinWith (List.cons_ne_nil _ _) fun t ht => (hss t ht).1
      · rw [List.filter_eq_self]
        intro t ht
        simpa using (hss t ht).2
  have hname : lastName segments = none :=
    lastName_eq_none_iff.2 fun s hs n hn => absurd ⟨n, hn⟩ (hfilter.2 s hs)
  rw [ofText_of_joined hsegments, hname, hfilter.1, ← hrest, String.ofList_toList]

/-- a routing parameter with a name, as the last segment, decides the name and is not kept -/
theorem ofText_of_last {q form : String} (hform : IsEncoding form n) (hn : n ≠ "")
    (hq : Text.splitAt '&' q.toList = ss ++ [parameterSegment form]) :
    ofText q =
      ⟨some n, some (String.ofList (Text.joinWith '&' (ss.filter fun s => s ≠ [] ∧ ¬ ∃ n, IsRouting s n)))⟩ := by
  have hrouting := isRouting_parameterSegment hform
  have hname : lastName (ss ++ [parameterSegment form]) = some n :=
    lastName_eq_some_iff.2 ⟨ss, _, [], rfl, hrouting, hn, by simp⟩
  have hdrop : [parameterSegment form].filter (fun s => s ≠ [] ∧ ¬ ∃ n, IsRouting s n) = [] := by
    simp [Exists.intro n hrouting]
  rw [ofText_of_joined hq, hname, List.filter_append, hdrop, List.append_nil]

/-- **The routing parameters are taken out of a query, and nothing else.** Every query is a list of segments with `&`
between them, and

1. what is left of it are the segments that hold something and are no routing parameters, as they stand and in order;
2. the name is that of the last routing parameter whose name is not empty, if there is one;
3. splitting what is left gives no name and leaves it as it is, so that no routing parameter is passed on;
4. a routing parameter behind the query, or alone in an empty one, decides the name and is not passed on. -/
theorem takes_out_routing_parameters (q : String) :
    ∃ segments rest, q.toList = Text.joinWith '&' segments ∧ (∀ s ∈ segments, '&' ∉ s) ∧
      (ofText q).rest = some rest ∧
      rest.toList = Text.joinWith '&' (segments.filter fun s => s ≠ [] ∧ ¬ ∃ n, IsRouting s n) ∧
      (∀ n, (ofText q).name = some n ↔ ∃ before s after, segments = before ++ s :: after ∧
        IsRouting s n ∧ n ≠ "" ∧ ∀ t ∈ after, ∀ m, IsRouting t m → m = "") ∧
      ((ofText q).name = none ↔ ∀ s ∈ segments, ∀ n, IsRouting s n → n = "") ∧
      ofText rest = ⟨none, some rest⟩ ∧
      ∀ form n, IsEncoding form n → n ≠ "" →
        ofText (q ++ "&" ++ routingParameter ++ "=" ++ form) = ⟨some n, some rest⟩ ∧
          (q = "" → ofText (routingParameter ++ "=" ++ form) = ⟨some n, some rest⟩) := by
  obtain ⟨segments, hsegments⟩ : ∃ segments, Text.splitAt '&' q.toList = segments := ⟨_, rfl⟩
  have hno : ∀ s ∈ segments, '&' ∉ s := fun s hs => Text.not_mem_of_mem_splitAt (hsegments ▸ hs)
  obtain ⟨rest, hrest⟩ : ∃ rest : String,
      rest.toList = Text.joinWith '&' (segments.filter fun s => s ≠ [] ∧ ¬ ∃ n, IsRouting s n) :=
    ⟨String.ofList _, String.toList_ofList⟩
  have hsplit : ofText q = ⟨lastName segments, some rest⟩ := by
    rw [ofText_of_joined hsegments, ← hrest, String.ofList_toList]
  refine ⟨segments, rest, ?_, hno, by rw [hsplit], hrest, fun n => ?_, ?_, ?_, ?_⟩
  · rw [← hsegments, Text.joinWith_splitAt]
  · rw [hsplit]
    exact lastName_eq_some_iff
  · rw [hsplit]
    exact lastName_eq_none_iff
  · refine ofText_kept (fun s hs => ?_) hrest
    obtain ⟨hmem, hkept⟩ := List.mem_filter.1 hs
    exact ⟨hno s hmem, by simpa using hkept⟩
  · intro form n hform hn
    have hseg : '&' ∉ parameterSegment form := by simp [parameterSegment, hform.separator]
    constructor
    · have hlist : (q ++ "&" ++ routingParameter ++ "=" ++ form).toList = q.toList ++ '&' :: parameterSegment form := by
        simp [routingParameter, parameterSegment]
      have hparts : Text.splitAt '&' (q ++ "&" ++ routingParameter ++ "=" ++ form).toList =
          segments ++ [parameterSegment form] := by
        rw [hlist, Text.splitAt_append_cons, hsegments, Text.splitAt_of_not_mem hseg]
      rw [ofText_of_last hform hn hparts, ← hrest, String.ofList_toList]
    · rintro rfl
      have hlist : (routingParameter ++ "=" ++ form).toList = parameterSegment form := by
        simp [routingParameter, parameterSegment]
      have hparts : Text.splitAt '&' (routingParameter ++ "=" ++ form).toList = [] ++ [parameterSegment form] := by
        rw [hlist, Text.splitAt_of_not_mem hseg]
        rfl
      have hempty : rest.toList = [] := by
        rw [hrest, ← hsegments]
        rfl
      rw [ofText_of_last hform hn hparts, ← String.ofList_toList (s := rest), hempty]
      rfl

/-- a routing parameter is one however its name is encoded, an empty one gives no name, and the others stay -/
example : ofText "%76m=a&x=1=%2f&&vm=b+c&vmx=2&y&v%6D=" = ⟨some "b c", some "x=1=%2f&vmx=2&y"⟩ := by decide +kernel

end MachineGateway.RoutedQuery
