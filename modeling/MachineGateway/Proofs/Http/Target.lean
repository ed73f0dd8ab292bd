/-
Request targets that are paths. Such a target is read as its text up to the first `?` or `#`, which is the path, and
the text behind a `?` up to the next `#`, which is the query.
-/
import Mathlib.Tactic
import MachineGateway.Http.Uri

namespace MachineGateway.Http.Uri

/-- a character that ends a path -/
def endsPath (c : Char) : Bool := c == '?' || c == '#'

/-- the query of a target, given what follows its path -/
def queryOf : List Char → Option (List Char)
  | '?' :: rest => some (rest.takeWhile (· != '#'))
  | _ => none

theorem isPathChar_not_ends {c : Char} (h : isPathChar c = true) : endsPath c = false := by
  by_contra hends
  rw [Bool.not_eq_false, endsPath, Bool.or_eq_true, beq_iff_eq, beq_iff_eq] at hends
  rcases hends with rfl | rfl <;> exact absurd h (by decide)

/-- a text is a path's and what begins with the end of a path -/
theorem exists_path_split (cs : List Char) : ∃ q rest, cs = q ++ rest ∧ (∀ c ∈ q, endsPath c = false) ∧
    (rest = [] ∨ ∃ c t, rest = c :: t ∧ endsPath c = true) := by
  induction cs with
  | nil => exact ⟨[], [], rfl, by simp, Or.inl rfl⟩
  | cons c cs ih =>
    cases hc : endsPath c with
    | true => exact ⟨[], c :: cs, rfl, by simp, Or.inr ⟨c, cs, rfl, hc⟩⟩
    | false =>
      obtain ⟨q, rest, rfl, hq, hrest⟩ := ih
      refine ⟨c :: q, rest, rfl, ?_, hrest⟩
      intro d hd
      rcases List.mem_cons.1 hd with rfl | hd
      · exact hc
      · exact hq d hd

theorem takeWhile_path {q rest : List Char} (hq : ∀ c ∈ q, endsPath c = false)
    (hrest : rest = [] ∨ ∃ c t, rest = c :: t ∧ endsPath c = true) :
    (q ++ rest).takeWhile (fun c => c != '?' && c != '#') = q ∧
      (q ++ rest).dropWhile (fun c => c != '?' && c != '#') = rest := by
  have heq : (fun c : Char => c != '?' && c != '#') = fun c => !endsPath c := by
    funext c
    simp [endsPath, bne]
  have hall : ∀ c ∈ q, (!endsPath c) = true := fun c hc => by rw [hq c hc]; rfl
  rw [heq, List.takeWhile_append_of_pos hall, List.dropWhile_append_of_pos hall]
  rcases hrest with rfl | ⟨c, t, rfl, hc⟩
  · simp
  · simp [hc]

/-- what is read where a path is read -/
theorem parsePath_eq_ok {q rest : List Char} {path : String} {query : Option String}
    (hq : ∀ c ∈ q, endsPath c = false) (hrest : rest = [] ∨ ∃ c t, rest = c :: t ∧ endsPath c = true)
    (hne : q ≠ []) (h : parsePath (q ++ rest) = .ok (path, query)) :
    (∀ c ∈ q, isPathChar c = true) ∧ path = String.ofList q ∧ query = (queryOf rest).map String.ofList := by
  obtain ⟨htake, hdrop⟩ := takeWhile_path hq hrest
  have hshown : q.isEmpty = false := by simpa using hne
  simp only [parsePath, htake, hdrop, hshown] at h
  cases hall : q.all isPathChar with
  | false => simp [hall] at h
  | true =>
    simp only [hall, Bool.not_true, Bool.false_eq_true, if_false] at h
    refine ⟨List.all_eq_true.1 hall, ?_⟩
    rcases hrest with rfl | ⟨c, t, rfl, hc⟩
    · obtain ⟨rfl, rfl⟩ : String.ofList q = path ∧ none = query := by simpa using h
      exact ⟨rfl, rfl⟩
    · rw [endsPath, Bool.or_eq_true, beq_iff_eq, beq_iff_eq] at hc
      rcases hc with rfl | rfl
      · simp only at h
        split_ifs at h
        obtain ⟨rfl, rfl⟩ : String.ofList q = path ∧ some _ = query := by simpa using h
        exact ⟨rfl, rfl⟩
      · obtain ⟨rfl, rfl⟩ : String.ofList q = path ∧ none = query := by simpa using h
        exact ⟨rfl, rfl⟩

theorem parse_slash {cs : List Char} (hs : cs.head? = some '/') :
    parse (String.ofList cs) = if lengthLimit < (Utf8.encodeChars cs).length then .error .tooLong
      else (parsePath cs).map fun found => { path := found.1, query := found.2 } := by
  cases cs with
  | nil => simp at hs
  | cons c cs =>
    obtain rfl : c = '/' := by simpa using hs
    cases hp : parsePath ('/' :: cs) <;> simp [parse, Utf8.encode, hp, Except.map]

/-- a target of path characters is its own path -/
theorem parse_path {cs : List Char} (hs : cs.head? = some '/') (hcs : ∀ c ∈ cs, isPathChar c = true)
    (hlen : (Utf8.encodeChars cs).length ≤ lengthLimit) :
    parse (String.ofList cs) = .ok { path := String.ofList cs } := by
  have hends : ∀ c ∈ cs, endsPath c = false := fun c hc => isPathChar_not_ends (hcs c hc)
  obtain ⟨htake, hdrop⟩ := takeWhile_path hends (Or.inl rfl)
  rw [List.append_nil] at htake hdrop
  have hshown : cs.isEmpty = false := by
    cases cs with
    | nil => simp at hs
    | cons c cs => rfl
  rw [parse_slash hs, if_neg (Nat.not_lt.2 hlen)]
  simp [parsePath, htake, hdrop, hshown, List.all_eq_true.2 hcs, Except.map]

/-- what a target is that begins with a slash -/
theorem of_parse_eq_ok {cs : List Char} {uri : Uri} (hs : cs.head? = some '/')
    (h : parse (String.ofList cs) = .ok uri) : (Utf8.encodeChars cs).length ≤ lengthLimit ∧
      ∃ path query, parsePath cs = .ok (path, query) ∧ uri = { path, query } := by
  rw [parse_slash hs] at h
  split_ifs at h with hlen
  refine ⟨Nat.le_of_not_lt hlen, ?_⟩
  cases hp : parsePath cs with
  | error e => simp [hp, Except.map] at h
  | ok found =>
    rw [hp] at h
    exact ⟨found.1, found.2, rfl, (Except.ok.inj h).symm⟩

end MachineGateway.Http.Uri
