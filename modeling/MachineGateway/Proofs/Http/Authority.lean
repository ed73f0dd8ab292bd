/-
URLs that are put together of a scheme, an authority and a tail. Such a text is read as those very parts if the tail is
nothing, or begins where an authority ends and can be read as a path and query (`parse_url`). A tail `*` is not of that
kind: it is read as the last character of the authority (`parse_starred`), which then has no port (`portOf_starred`).
What has been read as a target is such a tail, or `*` (`target_cases`).
-/
import Mathlib.Data.List.TakeWhile
import MachineGateway.Proofs.Http.Target
import MachineGateway.Proofs.Text.Cutting

namespace MachineGateway.Http.Uri

/-! ## Authorities -/

/-- a text that is an authority -/
structure IsAuthority (a : String) : Prop where
  ne_empty : a ≠ ""
  checked : checkAuthority a.toList = .ok ()

theorem Glimpse.run_append (g : Glimpse) (cs ds : List Char) :
    g.run (cs ++ ds) = match g.run cs with | .error e => .error e | .ok g' => g'.run ds := by
  induction cs generalizing g with
  | nil => rfl
  | cons c cs ih =>
    rw [List.cons_append, run, run]
    cases g.step c with
    | error e => rfl
    | ok g' => exact ih g'

theorem Glimpse.step_of_ends (g : Glimpse) {c : Char} (hc : endsAuthority c = true) :
    g.step c = .error .invalidCharacter := by
  simp only [endsAuthority, Bool.or_eq_true, beq_iff_eq] at hc
  rcases hc with (rfl | rfl) | rfl <;> rfl

/-- an authority goes on where it has been read -/
theorem Glimpse.not_ends_of_run {g g' : Glimpse} {cs : List Char} (h : g.run cs = .ok g') :
    ∀ c ∈ cs, endsAuthority c = false := by
  induction cs generalizing g with
  | nil => simp
  | cons c cs ih =>
    cases hc : endsAuthority c with
    | true => simp [run, g.step_of_ends hc] at h
    | false =>
      intro d hd
      rcases List.mem_cons.1 hd with rfl | hd
      · exact hc
      · cases hstep : g.step c with
        | error e => simp [run, hstep] at h
        | ok g₁ =>
          rw [run, hstep] at h
          exact ih h d hd

theorem checkAuthority_eq_ok_iff {cs : List Char} : checkAuthority cs = .ok () ↔
    ∃ g : Glimpse, Glimpse.run {} cs = .ok g ∧ g.opened = g.closed ∧ g.colons ≤ 1 ∧ g.percent = false ∧
      cs.getLast? ≠ some '@' := by
  unfold checkAuthority
  cases Glimpse.run {} cs with
  | error e => simp
  | ok g => simp [and_assoc]

theorem IsAuthority.not_ends {a : String} (h : IsAuthority a) : ∀ c ∈ a.toList, endsAuthority c = false := by
  obtain ⟨g, hrun, -⟩ := checkAuthority_eq_ok_iff.1 h.checked
  exact Glimpse.not_ends_of_run hrun

/-- an authority with a star behind it is one, too -/
theorem IsAuthority.starred {a : String} (h : IsAuthority a) : IsAuthority (a ++ "*") := by
  obtain ⟨g, hrun, hopened, hcolons, hpercent, -⟩ := checkAuthority_eq_ok_iff.1 h.checked
  have hstar : g.run ['*'] = .ok g := rfl
  refine ⟨by simp, checkAuthority_eq_ok_iff.2 ⟨g, ?_, hopened, hcolons, hpercent, ?_⟩⟩
  · rw [String.toList_append, Glimpse.run_append, hrun]
    exact hstar
  · simp [String.toList_append]

theorem number?_of_mem {limit : Nat} {cs : List Char} {c : Char} (hc : c ∈ cs) (hdigit : c.isDigit = false)
    (hplus : c ≠ '+') : Text.number? limit cs = none := by
  have hplain : ∀ ds : List Char, c ∈ ds → Text.plainNumber? limit ds = none := by
    intro ds hds
    have hall : ds.all Char.isDigit = false := List.all_eq_false.2 ⟨c, hds, by simp [hdigit]⟩
    simp [Text.plainNumber?, hall]
  unfold Text.number?
  split
  · exact hplain _ ((List.mem_cons.1 hc).resolve_left hplus)
  · exact hplain _ hc

/-- a port is a number, so that an authority with a star behind it has none -/
theorem portOf_starred (a : String) : portOf (a ++ "*") = none := by
  unfold portOf afterLast?
  split_ifs with hcolon
  · have hstar : '*' ∈ (((a ++ "*").toList.reverse).takeWhile (· != ':')).reverse := by
      simp [String.toList_append]
    exact number?_of_mem hstar (by decide) (by decide)
  · rfl

/-! ## Schemes -/

/-- a text that is a scheme -/
structure IsScheme (s : String) : Prop where
  ne_empty : s ≠ ""
  chars : ∀ c ∈ s.toList, isSchemeChar c = true
  length : s.toList.length ≤ schemeLimit

theorem splitScheme_of_isScheme {s : String} (h : IsScheme s) (rest : List Char) :
    ∃ shown, splitScheme (s.toList ++ ("://".toList ++ rest)) = .ok (some (shown, rest)) := by
  have hcolon : isSchemeChar ':' = false := by decide
  have hsep : "://".toList = [':', '/', '/'] := by decide +kernel
  have htake : (s.toList ++ ("://".toList ++ rest)).takeWhile isSchemeChar = s.toList := by
    rw [List.takeWhile_append_of_pos h.chars, hsep]
    simp [hcolon]
  have hdrop : (s.toList ++ ("://".toList ++ rest)).dropWhile isSchemeChar = "://".toList ++ rest := by
    rw [List.dropWhile_append_of_pos h.chars, hsep]
    simp [hcolon]
  have hlong : ¬ (s.toList ++ ("://".toList ++ rest)).length ≤ 3 := by
    have hsome : 0 < s.toList.length := List.length_pos_iff.2 fun hnil => h.ne_empty (String.toList_inj.1 hnil)
    rw [hsep]
    simp only [List.length_append, List.length_cons]
    omega
  unfold splitScheme
  rw [htake, hdrop, Text.after?_append]
  simp only [hlong, if_false, Nat.not_lt.2 h.length]
  split_ifs
  · exact ⟨_, rfl⟩
  · exact ⟨_, rfl⟩

/-! ## URLs -/

/-- a text that can be a URL, as far as its length goes -/
def Fits (url : String) : Prop := (Utf8.encode url).length ≤ lengthLimit

/-- what can follow an authority: nothing, or a path and query led by a character that ends the authority -/
structure IsTail (tail : String) : Prop where
  ends : tail = "" ∨ ∃ c t, tail.toList = c :: t ∧ endsAuthority c = true
  readable : ∃ found, parsePath tail.toList = .ok found

theorem parse_of_not_fits {url : String} (h : ¬ Fits url) : parse url = .error .tooLong := by
  simp only [parse]
  rw [if_pos (Nat.lt_of_not_le h)]

theorem fits_of_parse {url : String} {uri : Uri} (h : parse url = .ok uri) : Fits url := by
  by_contra hno
  rw [parse_of_not_fits hno] at h
  exact absurd h (by simp)

theorem parse_of_scheme {scheme : String} (hscheme : IsScheme scheme) {rest : String}
    (hfits : Fits (scheme ++ "://" ++ rest)) :
    parse (scheme ++ "://" ++ rest) = parseFull (scheme.toList ++ ("://".toList ++ rest.toList)) := by
  obtain ⟨c, cs, hcs⟩ := List.exists_cons_of_ne_nil fun hnil => hscheme.ne_empty (String.toList_inj.1 hnil)
  have hc : isSchemeChar c = true := hscheme.chars c (hcs ▸ List.mem_cons_self)
  have hslash : c ≠ '/' := fun h => absurd (h ▸ hc) (by decide)
  have hstar : c ≠ '*' := fun h => absurd (h ▸ hc) (by decide)
  simp only [parse]
  rw [if_neg (Nat.not_lt.2 hfits)]
  simp only [String.toList_append, List.append_assoc, hcs, List.cons_append]
  split <;> simp_all

theorem takeWhile_authority {a tail : String} (ha : ∀ c ∈ a.toList, endsAuthority c = false)
    (htail : tail = "" ∨ ∃ c t, tail.toList = c :: t ∧ endsAuthority c = true) :
    (a.toList ++ tail.toList).takeWhile (fun c => !endsAuthority c) = a.toList ∧
      (a.toList ++ tail.toList).dropWhile (fun c => !endsAuthority c) = tail.toList := by
  have hall : ∀ c ∈ a.toList, (!endsAuthority c) = true := fun c hc => by rw [ha c hc]; rfl
  rw [List.takeWhile_append_of_pos hall, List.dropWhile_append_of_pos hall]
  rcases htail with rfl | ⟨c, t, ht, hc⟩
  · simp
  · simp [ht, hc]

/-- a URL is read as the parts that it was put together of -/
theorem parse_url {scheme a tail : String} (hscheme : IsScheme scheme) (ha : IsAuthority a) (htail : IsTail tail)
    (hfits : Fits (scheme ++ "://" ++ a ++ tail)) :
    ∃ uri, parse (scheme ++ "://" ++ a ++ tail) = .ok uri ∧ uri.authority = some a := by
  obtain ⟨shown, hsplit⟩ := splitScheme_of_isScheme hscheme (a.toList ++ tail.toList)
  obtain ⟨found, hfound⟩ := htail.readable
  obtain ⟨htake, hdrop⟩ := takeWhile_authority ha.not_ends htail.ends
  have hnonempty : a.toList.isEmpty = false := by simpa using ha.ne_empty
  rw [String.append_assoc] at hfits ⊢
  rw [parse_of_scheme hscheme hfits, String.toList_append, parseFull, hsplit]
  simp only [htake, hdrop, ha.checked, hnonempty, hfound]
  exact ⟨_, rfl, by rw [String.ofList_toList]⟩

/-- a URL that is read has the authority that ends where its tail begins, and the path and query of that tail -/
theorem of_parse_url {scheme a tail : String} {uri : Uri} (hscheme : IsScheme scheme)
    (ha : ∀ c ∈ a.toList, endsAuthority c = false)
    (htail : tail = "" ∨ ∃ c t, tail.toList = c :: t ∧ endsAuthority c = true)
    (h : parse (scheme ++ "://" ++ a ++ tail) = .ok uri) :
    uri.authority = some a ∧ parsePath tail.toList = .ok (uri.path, uri.query) := by
  obtain ⟨shown, hsplit⟩ := splitScheme_of_isScheme hscheme (a.toList ++ tail.toList)
  obtain ⟨htake, hdrop⟩ := takeWhile_authority ha htail
  have hfits := fits_of_parse h
  rw [String.append_assoc] at hfits h
  rw [parse_of_scheme hscheme hfits, String.toList_append, parseFull, hsplit] at h
  simp only [htake, hdrop] at h
  split at h
  · exact absurd h (by simp)
  · simp_all
  · split_ifs at h
    split at h
    · exact absurd h (by simp)
    · rename_i hfound
      obtain rfl := Except.ok.inj h
      exact ⟨by simp_all, hfound⟩

/-- a tail `*` is read as a part of the authority -/
theorem parse_starred {scheme a : String} (hscheme : IsScheme scheme) (ha : IsAuthority a)
    (hfits : Fits (scheme ++ "://" ++ a ++ "*")) :
    ∃ uri, parse (scheme ++ "://" ++ a ++ "*") = .ok uri ∧ uri.authority = some (a ++ "*") := by
  have hnil : IsTail "" := ⟨Or.inl rfl, _, rfl⟩
  have hassoc : scheme ++ "://" ++ a ++ "*" = scheme ++ "://" ++ (a ++ "*") ++ "" := by
    simp [String.append_assoc]
  rw [hassoc] at hfits ⊢
  exact parse_url hscheme ha.starred hnil hfits

/-! ## Targets -/

/-- path and query of a URI are of the characters that these can hold -/
structure IsClean (uri : Uri) : Prop where
  path : ∀ c ∈ uri.path.toList, isPathChar c = true
  query : ∀ q, uri.query = some q → ∀ c ∈ q.toList, isQueryChar c = true

/-- a text that is read as a path is one of path characters up to its end, and its query one of query characters -/
theorem of_parsePath {cs : List Char} {path : String} {query : Option String} (h : parsePath cs = .ok (path, query)) :
    (∃ q rest, cs = q ++ rest ∧ (rest = [] ∨ ∃ c t, rest = c :: t ∧ endsPath c = true) ∧
        (∀ c ∈ q, isPathChar c = true) ∧ path = if q.isEmpty then "/" else String.ofList q) ∧
      ∀ q, query = some q → ∀ c ∈ q.toList, isQueryChar c = true := by
  obtain ⟨q, rest, rfl, hq, hrest⟩ := exists_path_split cs
  obtain ⟨htake, hdrop⟩ := takeWhile_path hq hrest
  simp only [parsePath, htake, hdrop] at h
  generalize hshown : (if q.isEmpty = true then "/" else String.ofList q) = shown at h
  split_ifs at h with hpath
  rw [Bool.not_eq_true, Bool.not_eq_false', List.all_eq_true] at hpath
  split at h
  · split_ifs at h with hquery
    obtain ⟨rfl, rfl⟩ := Prod.mk.inj (Except.ok.inj h)
    refine ⟨⟨q, _, rfl, hrest, hpath, hshown.symm⟩, fun s hs => ?_⟩
    obtain rfl := Option.some.inj hs
    rw [String.toList_ofList]
    exact List.all_eq_true.1 hquery
  · obtain ⟨rfl, rfl⟩ := Prod.mk.inj (Except.ok.inj h)
    exact ⟨⟨q, rest, rfl, hrest, hpath, hshown.symm⟩, by simp⟩

theorem isClean_of_parsePath {cs : List Char} {path : String} {query : Option String}
    (h : parsePath cs = .ok (path, query)) (scheme authority : Option String) :
    IsClean ⟨scheme, authority, path, query⟩ := by
  obtain ⟨⟨q, rest, -, -, hq, rfl⟩, hquery⟩ := of_parsePath h
  refine ⟨?_, hquery⟩
  split_ifs
  · have hall : "/".toList.all isPathChar = true := by decide +kernel
    exact List.all_eq_true.1 hall
  · rwa [String.toList_ofList]

/-- what is read as a path where an authority ends is led by a slash -/
theorem slash_of_parsePath {cs : List Char} {path : String} {query : Option String}
    (hcs : ∀ c ∈ cs.head?, endsAuthority c = true) (h : parsePath cs = .ok (path, query)) :
    path.toList.head? = some '/' := by
  obtain ⟨⟨q, rest, rfl, -, hq, rfl⟩, -⟩ := of_parsePath h
  cases q with
  | nil => decide +kernel
  | cons c q =>
    have hends := hcs c (by simp)
    have hpath := isPathChar_not_ends (hq c List.mem_cons_self)
    simp only [endsAuthority, endsPath, Bool.or_eq_true, Bool.or_eq_false_iff] at hends hpath
    simp_all

/-- a path that is led by a slash, unless there is none, and a query -/
def IsAbsolute (uri : Uri) : Prop := IsClean uri ∧ (uri.path = "" ∨ uri.path.toList.head? = some '/')

theorem isAbsolute_of_parseFull {cs : List Char} {uri : Uri} (h : parseFull cs = .ok uri) : IsAbsolute uri := by
  rw [parseFull] at h
  rcases hscheme : splitScheme cs with e | _ | ⟨scheme, rest⟩
  · simp [hscheme] at h
  · simp only [hscheme] at h
    split at h
    · simp at h
    · split_ifs at h
      obtain rfl := Except.ok.inj h
      exact ⟨⟨by simp, by simp⟩, Or.inl rfl⟩
    · simp_all
  · simp only [hscheme] at h
    split at h
    · simp at h
    · simp_all
    · split_ifs at h
      split at h
      · simp at h
      · rename_i path query hp
        obtain rfl := Except.ok.inj h
        refine ⟨isClean_of_parsePath hp _ _, Or.inr (slash_of_parsePath (fun c hc => ?_) hp)⟩
        have hends := List.head?_dropWhile_not (fun c => !endsAuthority c) rest
        rw [hc] at hends
        simpa using hends

/-- what is read as a target: a star, or a path that is led by a slash unless there is none -/
theorem target_cases {t : String} {uri : Uri} (h : parse t = .ok uri) :
    t = "*" ∧ uri = { path := "*" } ∨ t ≠ "*" ∧ IsAbsolute uri := by
  have hstar : "*".toList = ['*'] := by decide +kernel
  simp only [parse] at h
  split_ifs at h
  split at h
  · simp at h
  · rename_i ht
    exact Or.inl ⟨String.toList_inj.1 (ht.trans hstar.symm), (Except.ok.inj h).symm⟩
  · rename_i rest ht
    have hne : t ≠ "*" := by
      rintro rfl
      rw [hstar] at ht
      exact absurd (List.cons.inj ht).1 (by decide)
    cases hp : parsePath t.toList with
    | error e => simp [hp] at h
    | ok parts =>
      simp only [hp] at h
      obtain rfl := Except.ok.inj h
      refine Or.inr ⟨hne, isClean_of_parsePath hp _ _, Or.inr (slash_of_parsePath (fun c hc => ?_) hp)⟩
      obtain rfl : '/' = c := by simpa [ht] using hc
      rfl
  · rename_i hno _
    exact Or.inr ⟨fun ht => hno (ht ▸ hstar), isAbsolute_of_parseFull h⟩

/-- the authority that a URL is read with, or a text as a whole, is one -/
theorem isAuthority_of_parseFull {cs : List Char} {uri : Uri} {a : String} (hne : cs ≠ [])
    (h : parseFull cs = .ok uri) (ha : uri.authority = some a) : IsAuthority a := by
  have hof : ∀ ds : List Char, ds ≠ [] → checkAuthority ds = .ok () → some (String.ofList ds) = some a →
      IsAuthority a := by
    rintro ds hds hchecked ⟨⟩
    refine ⟨fun hempty => hds ?_, by rwa [String.toList_ofList]⟩
    rw [← String.toList_ofList (l := ds), hempty]
    rfl
  rw [parseFull] at h
  rcases hscheme : splitScheme cs with e | _ | ⟨scheme, rest⟩
  · simp [hscheme] at h
  · simp only [hscheme] at h
    split at h
    · simp at h
    · rename_i hchecked _
      split_ifs at h with hafter
      obtain rfl := Except.ok.inj h
      refine hof _ (fun hnil => hne ?_) hchecked ha
      rw [← List.takeWhile_append_dropWhile (p := fun c => !endsAuthority c) (l := cs), hnil,
        List.isEmpty_iff.1 hafter, List.append_nil]
    · simp_all
  · simp only [hscheme] at h
    split at h
    · simp at h
    · simp_all
    · rename_i hchecked _
      split_ifs at h with hempty
      split at h
      · simp at h
      · obtain rfl := Except.ok.inj h
        exact hof _ (by simpa using hempty) (by simpa using hchecked) ha

/-- the authority of whatever is read is one -/
theorem isAuthority_of_parse {t a : String} {uri : Uri} (h : parse t = .ok uri) (ha : uri.authority = some a) :
    IsAuthority a := by
  simp only [parse] at h
  split_ifs at h
  split at h
  · simp at h
  · obtain rfl := Except.ok.inj h
    exact absurd ha (by simp)
  · cases hp : parsePath t.toList with
    | error e => simp [hp] at h
    | ok parts =>
      simp only [hp] at h
      obtain rfl := Except.ok.inj h
      exact absurd ha (by simp)
  · rename_i hempty _ _
    exact isAuthority_of_parseFull hempty h ha

theorem endsPath_of_query {rest : List Char} (h : rest = [] ∨ ∃ q, rest = '?' :: q ∧ ∀ c ∈ q, isQueryChar c = true) :
    rest = [] ∨ ∃ c t, rest = c :: t ∧ endsPath c = true := by
  rcases h with hnil | ⟨q, hq, -⟩
  · exact Or.inl hnil
  · exact Or.inr ⟨'?', q, hq, rfl⟩

theorem parsePath_append {path rest : List Char} (hpath : ∀ c ∈ path, isPathChar c = true)
    (hrest : rest = [] ∨ ∃ q, rest = '?' :: q ∧ ∀ c ∈ q, isQueryChar c = true) :
    ∃ found, parsePath (path ++ rest) = .ok found := by
  have hends : ∀ c ∈ path, endsPath c = false := fun c hc => isPathChar_not_ends (hpath c hc)
  obtain ⟨htake, hdrop⟩ := takeWhile_path hends (endsPath_of_query hrest)
  simp only [parsePath, htake, hdrop, List.all_eq_true.2 hpath]
  rcases hrest with rfl | ⟨q, rfl, hq⟩
  · exact ⟨_, rfl⟩
  · have hall : (q.takeWhile (· != '#')).all isQueryChar = true :=
      List.all_eq_true.2 fun c hc => hq c ((List.takeWhile_sublist _).subset hc)
    simp [hall]

/-- a path that is led by a slash is read as it stands -/
theorem path_of_parsePath {path rest : List Char} {uri : Uri} (hpath : ∀ c ∈ path, isPathChar c = true)
    (hrest : rest = [] ∨ ∃ q, rest = '?' :: q ∧ ∀ c ∈ q, isQueryChar c = true) (hslash : path.head? = some '/')
    (h : parsePath (path ++ rest) = .ok (uri.path, uri.query)) : uri.path = String.ofList path := by
  have hends : ∀ c ∈ path, endsPath c = false := fun c hc => isPathChar_not_ends (hpath c hc)
  have hne : path ≠ [] := by
    rintro rfl
    simp at hslash
  exact (parsePath_eq_ok hends (endsPath_of_query hrest) hne h).2.1

/-- a text of path and query characters is read as it stands, with a slash if it has no path -/
theorem pathAndQuery_of_parsePath {path rest : List Char} {uri : Uri} (hpath : ∀ c ∈ path, isPathChar c = true)
    (hrest : rest = [] ∨ ∃ q, rest = '?' :: q ∧ ∀ c ∈ q, isQueryChar c = true)
    (h : parsePath (path ++ rest) = .ok (uri.path, uri.query)) :
    uri.pathAndQuery = (if path.isEmpty then "/" else String.ofList path) ++ String.ofList rest := by
  have hends : ∀ c ∈ path, endsPath c = false := fun c hc => isPathChar_not_ends (hpath c hc)
  obtain ⟨htake, hdrop⟩ := takeWhile_path hends (endsPath_of_query hrest)
  simp only [parsePath, htake, hdrop, List.all_eq_true.2 hpath] at h
  rcases hrest with rfl | ⟨q, rfl, hq⟩
  · obtain ⟨hshown, hnone⟩ := Prod.mk.inj (Except.ok.inj h)
    rw [pathAndQuery, ← hnone, ← hshown]
    simp
  · have hwhole : q.takeWhile (· != '#') = q := by
      rw [List.takeWhile_eq_self_iff]
      intro c hc
      have hsharp : isQueryChar '#' = false := by decide
      rw [bne_iff_ne]
      rintro rfl
      exact absurd (hq '#' hc) (by simp [hsharp])
    simp only [hwhole, List.all_eq_true.2 hq] at h
    obtain ⟨hshown, hsome⟩ := Prod.mk.inj (Except.ok.inj h)
    rw [pathAndQuery, ← hsome, ← hshown]
    simp [String.append_assoc]

end MachineGateway.Http.Uri
