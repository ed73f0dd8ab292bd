/-
What a query says to the router. Its segments are read one by one: a routing parameter names a machine if its value is
not empty, and every other segment is passed on as it stands. The last machine that is named counts (`ofQuery_name`),
and the segments passed on are joined again behind the path (`attach_eq`). A routing parameter put in front of a query
names its machine unless the query names one, and is not passed on (`ofQuery_withName`); every name can be written as
such a parameter (`isEncoding_escapes`).
-/
import MachineGateway.Gateway.Route
import MachineGateway.Proofs.Text.Cutting
import MachineGateway.Proofs.Text.Percent

namespace MachineGateway.RoutedQuery

/-- the segments of a query that hold something -/
def segments : Option String → List (List Char)
  | none => []
  | some q => (Text.splitAt '&' q.toList).filter fun s => !s.isEmpty

/-- the machines that a query names, in order -/
def namesIn (q : Option String) : List String := ((segments q).filterMap routingValue?).filter (· ≠ "")

/-- what a query passes on: the segments that are no routing parameters, as they stand -/
def passedOn (q : Option String) : List Char := Text.joinWith '&' (kept (segments q))

variable {q : Option String} {s : List Char} {ss : List (List Char)}

/-- one segment more gives its own name if it has one, or else the name found before -/
theorem lastName_append (ss : List (List Char)) (s : List Char) :
    lastName (ss ++ [s]) = ((routingValue? s).filter (· ≠ "")).or (lastName ss) := by
  rw [lastName, List.foldl_append]
  cases hv : routingValue? s with
  | none => simp [hv, lastName]
  | some v => by_cases hempty : v = "" <;> simp [hv, hempty, lastName, Option.filter]

theorem lastName_eq (ss : List (List Char)) :
    lastName ss = ((ss.filterMap routingValue?).filter (· ≠ "")).getLast? := by
  induction ss using List.reverseRecOn with
  | nil => rfl
  | append_singleton ss s ih =>
    rw [lastName_append]
    cases hv : routingValue? s with
    | none => simp [hv, ih]
    | some v =>
      by_cases hempty : v = ""
      · simp [hv, hempty, ih, Option.filter]
      · simp [hv, hempty, Option.filter]

/-- the last machine that a query names is the one that it gives -/
theorem ofQuery_name (q : Option String) : (ofQuery q).name = (namesIn q).getLast? := by
  cases q with
  | none => rfl
  | some q => exact lastName_eq _

/-- a path gets what the query passes on behind it, if that is anything -/
theorem attach_eq (q : Option String) (path : String) : (ofQuery q).attach path =
    if passedOn q = [] then path else path ++ "?" ++ String.ofList (passedOn q) := by
  cases q with
  | none => rfl
  | some q =>
    have hrest : (ofQuery (some q)).rest = some (String.ofList (passedOn (some q))) := rfl
    have hempty : String.ofList (passedOn (some q)) = "" ↔ passedOn (some q) = [] := by
      rw [← String.toList_inj, String.toList_ofList]
      rfl
    simp only [attach, hrest, hempty]

/-- what a query passes on is of its own characters and the separator -/
theorem mem_of_passedOn {c : Char} (h : c ∈ passedOn q) : c = '&' ∨ ∃ text, q = some text ∧ c ∈ text.toList := by
  refine (Text.mem_of_joinWith h).imp_right fun ⟨part, hpart, hc⟩ => ?_
  cases q with
  | none => simp [segments, kept] at hpart
  | some text => exact ⟨text, rfl, (Text.splitAt_sublist (List.mem_filter.1 (List.mem_filter.1 hpart).1).1).subset hc⟩

/-! ## A routing parameter in front of a query -/

/-- a text that stands for a name as the value of a parameter -/
structure IsEncoding (form name : String) : Prop where
  separator : '&' ∉ form.toList
  decodes : Form.decode form.toList = name

/-- which texts stand for a name, down to their bytes: those whose escapes and other characters, with spaces for plus
signs, stand for the bytes of the name -/
theorem isEncoding_iff {form name : String} : IsEncoding form name ↔
    '&' ∉ form.toList ∧ ∃ b, Percent.Spells (form.toList.map Form.spaced) b ∧ Utf8.lossy b = name := by
  rw [← Form.decode_eq_iff]
  exact ⟨fun h => ⟨h.separator, h.decodes⟩, fun h => ⟨h.1, h.2⟩⟩

/-- every name has such a text: its bytes in escapes -/
theorem isEncoding_escapes (name : String) :
    IsEncoding (String.ofList ((Utf8.encode name).flatMap Percent.escape)) name where
  separator := by
    rw [String.toList_ofList]
    exact Percent.not_mem_escapes (by decide) (by decide +kernel) _
  decodes := by rw [String.toList_ofList, Form.decode_escapes]

/-- a query with a routing parameter in front of it -/
def withName (form : String) (q : Option String) : String :=
  routingParameter ++ "=" ++ form ++ q.elim "" ("&" ++ ·)

/-- the segment of a routing parameter -/
def parameterSegment (form : String) : List Char := 'v' :: 'm' :: '=' :: form.toList

theorem toList_withName (form : String) (q : Option String) :
    (withName form q).toList = parameterSegment form ++ q.elim [] ('&' :: ·.toList) := by
  cases q <;> simp [withName, routingParameter, parameterSegment]

variable {form name : String}

theorem routingValue?_parameterSegment (h : IsEncoding form name) :
    routingValue? (parameterSegment form) = some name := by
  have hcut : Text.cutAt '=' (parameterSegment form) = (['v', 'm'], some form.toList) := by
    simp [parameterSegment, Text.cutAt]
  have hkey : Form.decode ['v', 'm'] = routingParameter := by decide +kernel
  simp [routingValue?, hcut, hkey, h.decodes]

theorem segments_withName (h : IsEncoding form name) (q : Option String) :
    segments (some (withName form q)) = parameterSegment form :: segments q := by
  have hno : '&' ∉ parameterSegment form := by simp [parameterSegment, h.separator]
  have hsome : (parameterSegment form).isEmpty = false := rfl
  cases q with
  | none => simp [segments, toList_withName, Text.splitAt_of_not_mem hno, hsome]
  | some q => simp [segments, toList_withName, Text.splitAt_append hno, hsome]

theorem namesIn_withName (h : IsEncoding form name) (hname : name ≠ "") (q : Option String) :
    namesIn (some (withName form q)) = name :: namesIn q := by
  simp [namesIn, segments_withName h, routingValue?_parameterSegment h, hname]

theorem passedOn_withName (h : IsEncoding form name) (q : Option String) :
    passedOn (some (withName form q)) = passedOn q := by
  simp [passedOn, kept, segments_withName h, routingValue?_parameterSegment h]

/-- **A routing parameter in front of a query names its machine unless the query names one.** -/
theorem ofQuery_withName (h : IsEncoding form name) (hname : name ≠ "") (q : Option String) :
    (ofQuery (some (withName form q))).name = (ofQuery q).name.or (some name) ∧
      ∀ path, (ofQuery (some (withName form q))).attach path = (ofQuery q).attach path := by
  refine ⟨?_, fun path => by rw [attach_eq, attach_eq, passedOn_withName h]⟩
  rw [ofQuery_name, ofQuery_name, namesIn_withName h hname]
  cases namesIn q <;> simp [List.getLast?_cons]

end MachineGateway.RoutedQuery
