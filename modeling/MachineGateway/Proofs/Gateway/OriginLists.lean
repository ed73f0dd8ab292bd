/-
The two ways to a policy with a list of origins. `allowOrigins` brings the origins of the list into the form in which
origins are compared; the decoder takes a list as it stands (`fromBytes_of_origins`). An origin that is asked about is
always brought into that form. So the first policy permits what some entry is another writing of, and the second what
is an entry in that form (`permits_allowOrigins_iff`, `permits_taken_iff`).

The forms are just the texts in lower case that do not begin with white space and do not end in a slash
(`isForm_iff`). With that, the two policies of a list are alike exactly if the list holds the form of each entry and no
other form (`decoded_alike_iff`); a decoded policy can turn away the very origins that are on its list
(`listed_origin_turned_away`).
-/
import MachineGateway.Proofs.Machine.ListingFormat
import MachineGateway.Proofs.Text.Blank
import MachineGateway.Proofs.WireTypes

namespace MachineGateway.UpgradePolicy

open Json

variable {t : String} {l : List String} {members : List (String × Value)} {s : Bytes}

/-! ## Forms of origins -/

/-- written as origins are compared: in lower case, with no white space before it and no slash at its end -/
structure IsForm (t : String) : Prop where
  lower : t.toList.map Char.toLower = t.toList
  start : ∀ c ∈ t.toList.head?, Text.isBlank c = false
  finish : ∀ c ∈ t.toList.getLast?, c ≠ '/'

/-- what the lower case of a character is told apart by, which is left as it is by the lower case -/
theorem toLower_keeps (c : Char) : c.toLower.toLower = c.toLower ∧ Text.isBlank c.toLower = Text.isBlank c ∧
    (c.toLower == '/') = (c == '/') := by
  have hall : ∀ n < 128, (Char.ofNat n).toLower.toLower = (Char.ofNat n).toLower ∧
      Text.isBlank (Char.ofNat n).toLower = Text.isBlank (Char.ofNat n) ∧
      ((Char.ofNat n).toLower == '/') = (Char.ofNat n == '/') := by decide +kernel
  by_cases hc : c.toNat < 128
  · have hkeeps := hall c.toNat hc
    rwa [Char.ofNat_toNat] at hkeeps
  · have hself : c.toLower = c := by
      refine dif_neg fun hupper => hc ?_
      have hle : c.toNat ≤ 'Z'.toNat := UInt32.le_iff_toNat_le.1 hupper.2
      exact lt_of_le_of_lt hle (by decide)
    rw [hself, hself]
    exact ⟨rfl, rfl, rfl⟩

theorem toList_normalize (o : String) : (normalize o).toList =
    (Text.dropEndWhile (· == '/') (Text.stripWhile Text.isBlank o.toList)).map Char.toLower := by
  simp [normalize, Text.lowerAscii, Text.trimEnd, Text.trim]

theorem isForm_normalize (o : String) : IsForm (normalize o) := by
  constructor
  · rw [toList_normalize, List.map_map]
    exact List.map_congr_left fun c _ => (toLower_keeps c).1
  · intro c hc
    rw [toList_normalize, List.head?_map] at hc
    obtain ⟨b, hb, rfl⟩ := Option.mem_map.1 hc
    rw [(toLower_keeps b).2.1]
    exact Text.head_stripWhile (Text.head_of_head_dropEndWhile hb)
  · intro c hc
    rw [toList_normalize, List.getLast?_map] at hc
    obtain ⟨b, hb, rfl⟩ := Option.mem_map.1 hc
    have hnot : (b == '/') = false := @Text.last_dropEndWhile _ (· == '/') _ _ hb
    rw [← (toLower_keeps b).2.2] at hnot
    exact ne_of_beq_false hnot

/-- a form with a slash behind it is another writing of it -/
theorem normalize_slash (h : IsForm t) : normalize (t ++ "/") = t := by
  have hhead : ∀ c ∈ (t.toList ++ ['/']).head?, Text.isBlank c = false := by
    intro c hc
    cases ht : t.toList with
    | nil =>
      obtain rfl : '/' = c := by simpa [ht] using hc
      decide
    | cons b bs => exact h.start c (by simpa [ht] using hc)
  have hlast : ∀ c ∈ (t.toList ++ ['/']).getLast?, Text.isBlank c = false := by
    intro c hc
    obtain rfl : '/' = c := by simpa using hc
    decide
  have hslash : ∀ c ∈ t.toList.getLast?, (c == '/') = false := by simpa using h.finish
  have hleft : (normalize (t ++ "/")).toList = t.toList :=
    calc (normalize (t ++ "/")).toList
        = (Text.dropEndWhile (· == '/') (Text.stripWhile Text.isBlank (t.toList ++ ['/']))).map Char.toLower := by
          rw [toList_normalize, String.toList_append]
          rfl
      _ = (Text.dropEndWhile (· == '/') t.toList).map Char.toLower := by
          rw [Text.stripWhile_eq_self hhead hlast, Text.dropEndWhile_concat (by rfl)]
      _ = t.toList := by
          rw [Text.dropEndWhile_eq_self hslash, h.lower]
  exact String.toList_inj.1 hleft

/-- **The forms in which origins are compared** are the texts in lower case without white space before them and without
a slash at the end. -/
theorem isForm_iff : IsForm t ↔ ∃ o, normalize o = t := by
  constructor
  · intro h
    exact ⟨t ++ "/", normalize_slash h⟩
  · rintro ⟨o, rfl⟩
    exact isForm_normalize o

/-! ## What a list permits -/

/-- two policies that permit the same -/
def Alike (p q : UpgradePolicy) : Prop := ∀ origin, p.permits origin = q.permits origin

/-- a list given as it is permits the other writings of its entries -/
theorem permits_allowOrigins_iff (l : List String) (o : String) :
    (allowOrigins l).permits (some o) = true ↔ ∃ e ∈ l, normalize e = normalize o := by
  simp [allowOrigins, permits]

/-- a list that was taken as it stands permits the writings of those of its entries that are forms -/
theorem permits_taken_iff (l : List String) (o : String) :
    (⟨some l⟩ : UpgradePolicy).permits (some o) = true ↔ normalize o ∈ l := by
  simp [permits]

/-- a list with the form of each entry, and with no form besides -/
def IsFormed (l : List String) : Prop := ∀ e ∈ l, normalize e ∈ l ∧ (IsForm e → e ∈ l.map normalize)

theorem alike_iff_isFormed (l : List String) : Alike ⟨some l⟩ (allowOrigins l) ↔ IsFormed l := by
  have hsame : ∀ o, (⟨some l⟩ : UpgradePolicy).permits (some o) = (allowOrigins l).permits (some o) ↔
      (normalize o ∈ l ↔ normalize o ∈ l.map normalize) := by
    intro o
    rw [Bool.eq_iff_iff, permits_taken_iff, permits_allowOrigins_iff, List.mem_map]
  constructor
  · intro halike e he
    refine ⟨?_, fun hform => ?_⟩
    · exact ((hsame e).1 (halike (some e))).2 (List.mem_map_of_mem he)
    · obtain ⟨o, rfl⟩ := isForm_iff.1 hform
      exact ((hsame o).1 (halike (some o))).1 he
  · intro hformed origin
    cases origin with
    | none => rfl
    | some o =>
      rw [hsame]
      constructor
      · intro ho
        exact (hformed _ ho).2 (isForm_normalize o)
      · intro ho
        obtain ⟨e, he, heq⟩ := List.mem_map.1 ho
        exact heq ▸ (hformed e he).1

/-! ## What the decoder makes of a list -/

theorem originsSlot : form.Slot "allowed_origins" (readOptional (readList readText)) id :=
  .of_only rfl rfl (fun _ => rfl) fun _ _ => rfl

theorem readOptional_of_isList {v : Value} (h : IsList IsString v l) :
    readOptional (readList readText) v.doc = .ok (some l) := by
  have hread : readList readText v.doc = .ok l := (readList_iff readText_iff v l).2 h
  obtain ⟨items, rfl, -⟩ := h
  rw [Value.doc] at hread ⊢
  rw [readOptional, hread]
  · rfl
  · simp

/-- the list of an object is taken as it stands -/
theorem fromBytes_of_origins (horigins : Once (IsList IsString) "allowed_origins" members l)
    (htext : (Value.object members).IsText s) : fromBytes read s = .ok ⟨some l⟩ := by
  have hdoc : Once (fun v o => readOptional (readList readText) v.doc = .ok o) "allowed_origins" members (some l) := by
    obtain ⟨v, hv, hl⟩ := horigins
    exact ⟨v, hv, readOptional_of_isList hl⟩
  have honly : ∀ name ∈ form.names, name = "allowed_origins" := by simp [Form.names, form]
  obtain ⟨d, hd⟩ : ∃ d, form.readMembers form.start (Value.docMembers members) none = .ok d := by
    apply Form.exists_readMembers
    · intro name hname
      obtain rfl := honly name hname
      exact ⟨_, _, _, originsSlot⟩
    · intro name hname
      obtain rfl := honly name hname
      exact originsSlot.accepts_of_once (fun _ _ => Iff.rfl) hdoc
  obtain rfl : d = some (some l) := (originsSlot.once_iff (fun _ _ => Iff.rfl) hd).1 hdoc
  have hread : read (Value.object members).doc = .ok ⟨some l⟩ := Form.read_object_iff.2 ⟨_, hd, rfl⟩
  rw [fromBytes, ofBytes_of_isText htext]
  simp [hread]

/-- **A decoded list and a given one.** Every JSON object whose origins are a list is decoded to a policy. The policy
that the list is given to permits the other writings of its entries, all its entries among them; the decoded one
permits the writings of the entries that are forms, and so its own entries exactly if it holds their forms. The two
are alike exactly for a list with the form of each entry and no form besides. A policy that was written and decoded
again is the same policy, however it was made. -/
theorem decoded_alike_iff (l : List String) (members : List (String × Value)) (s : Bytes)
    (horigins : Once (IsList IsString) "allowed_origins" members l) (htext : (Value.object members).IsText s) :
    ∃ p, fromBytes read s = .ok p ∧
      (∀ o, (allowOrigins l).permits (some o) = true ↔ ∃ e ∈ l, normalize e = normalize o) ∧
      (∀ o, p.permits (some o) = true ↔ normalize o ∈ l) ∧
      (∀ e ∈ l, (allowOrigins l).permits (some e) = true) ∧
      ((∀ e ∈ l, p.permits (some e) = true) ↔ ∀ e ∈ l, normalize e ∈ l) ∧
      (Alike p (allowOrigins l) ↔ IsFormed l) ∧
      ∀ q : UpgradePolicy, fromBytes read (Utf8.encode q.doc.render) = .ok q := by
  refine ⟨⟨some l⟩, fromBytes_of_origins horigins htext, permits_allowOrigins_iff l, permits_taken_iff l, ?_, ?_,
    alike_iff_isFormed l, fun q => q.undoes.fromBytes⟩
  · intro e he
    exact (permits_allowOrigins_iff l e).2 ⟨e, he, rfl⟩
  · simp only [permits_taken_iff]

/-- an object with a single origin for its list -/
def oneOriginText (origin : String) : Bytes :=
  0x7B :: (Utf8.encodeChars (writeText "allowed_origins") ++
    0x3A :: 0x5B :: (Utf8.encodeChars (writeText origin) ++ [0x5D, 0x7D]))

theorem isText_oneOriginText (origin : String) :
    (Value.object [("allowed_origins", .array [.text origin])]).IsText (oneOriginText origin) := by
  have hlist : (Value.array [.text origin]).Spells _ :=
    .array [] isBlank_nil [⟨[], .text origin, _, []⟩] (by simpa using ⟨isBlank_nil, isBlank_nil⟩)
      (by simpa using .text origin _ (isLiteral_writeText origin))
  have hobject : (Value.object [("allowed_origins", .array [.text origin])]).Spells _ :=
    .object [] isBlank_nil [⟨[], "allowed_origins", Utf8.encodeChars (writeText "allowed_origins"), [], [], _, _, []⟩]
      (by simpa using ⟨isBlank_nil, isLiteral_writeText "allowed_origins", isBlank_nil, isBlank_nil, isBlank_nil⟩)
      (by simpa using hlist)
  refine ⟨[], _, [], isBlank_nil, hobject, isBlank_nil, ?_⟩
  simp [oneOriginText, commaed, Element.bytes, Member.bytes]

theorem once_origins (origin : String) :
    Once (IsList IsString) "allowed_origins" [("allowed_origins", .array [.text origin])] [origin] :=
  ⟨_, rfl, _, rfl, .cons rfl .nil⟩

/-- an origin in the form in which origins are compared, with the two policies alike -/
theorem form_decoded_alike :
    Once (IsList IsString) "allowed_origins" [("allowed_origins", .array [.text "https://a.example"])]
        ["https://a.example"] ∧
      (Value.object [("allowed_origins", .array [.text "https://a.example"])]).IsText
        (oneOriginText "https://a.example") ∧
      ∃ p, fromBytes read (oneOriginText "https://a.example") = .ok p ∧ Alike p (allowOrigins ["https://a.example"]) := by
  have honce := once_origins "https://a.example"
  have htext := isText_oneOriginText "https://a.example"
  obtain ⟨p, hp, -, -, -, -, halike, -⟩ := decoded_alike_iff _ _ _ honce htext
  have hnormal : normalize "https://a.example" = "https://a.example" := by decide +kernel
  refine ⟨honce, htext, p, hp, halike.2 ?_⟩
  intro e he
  obtain rfl := List.mem_singleton.1 he
  exact ⟨by simp [hnormal], fun _ => by simp [hnormal]⟩

/-- an origin with a capital letter and a slash at its end is turned away by the decoded policy on whose list it is, and
so is its form; the policy that the list is given to permits both -/
theorem listed_origin_turned_away :
    ∃ p, fromBytes read (Utf8.encode "\x7b\"allowed_origins\":[\"https://A.example/\"]\x7d") = .ok p ∧
      p.permits (some "https://A.example/") = false ∧ p.permits (some "https://a.example") = false ∧
      (allowOrigins ["https://A.example/"]).permits (some "https://A.example/") = true ∧
      (allowOrigins ["https://A.example/"]).permits (some "https://a.example") = true := by
  refine ⟨⟨some ["https://A.example/"]⟩, ?_, ?_⟩
  · have htext : Utf8.encode "\x7b\"allowed_origins\":[\"https://A.example/\"]\x7d" =
        oneOriginText "https://A.example/" := by decide +kernel
    rw [htext]
    exact fromBytes_of_origins (once_origins _) (isText_oneOriginText _)
  · decide +kernel

end MachineGateway.UpgradePolicy
