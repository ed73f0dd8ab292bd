/-
The tokens of the `connection` header. Callers and intermediaries spell its list in many ways: on one line or on
several, in any order and case, with spaces, tabs and other tokens in between. `Respelling` has one constructor for
each of these, `Respelled` any number of them one after another, forwards and backwards.

Main result: `connection_read_as_one_list`. A socket is asked for exactly if `upgrade` is an element of the list and the
first `upgrade` value is `websocket`, so that a list spelled anew asks for what it asked before; a longer token, such as
`upgrade-insecure`, asks for nothing.

What an element is and which word it stands for is said of bytes (`IsElement`, `Names`), apart from the text that the
gateway reads.
-/
import Mathlib.Logic.Relation
import MachineGateway.Proofs.Gateway.OriginGate
import MachineGateway.Proofs.Text.Cutting

namespace MachineGateway.Upgrade

open Http
open UpgradePolicy (shown isBlankByte)

/-! ## Elements and words -/

/-- what stands between the elements of a list -/
def comma : UInt8 := 0x2C

/-- a part of a value between two commas, where the ends of the value count as commas -/
def IsElement (part v : Bytes) : Prop := comma ∉ part ∧ comma :: part ++ [comma] <:+: comma :: v ++ [comma]

/-- the part is the core with spaces and tabs around it -/
def Padded (core part : Bytes) : Prop :=
  ∃ front back, part = front ++ core ++ back ∧ (∀ b ∈ front, Headers.isPadding b = true) ∧
    ∀ b ∈ back, Headers.isPadding b = true

/-- the part, without padding, is the word in any case, with `more` right behind it -/
def BeginsWith (word : String) (more part : Bytes) : Prop :=
  ∃ core, Padded (core ++ more) part ∧ core.map lowerByte = Utf8.encode word

/-- the part, without padding, is the word in any case -/
def Names (word : String) (part : Bytes) : Prop := BeginsWith word [] part

/-- the part is a longer token that begins with the word -/
def Extends (word : String) (part : Bytes) : Prop :=
  ∃ more, BeginsWith word more part ∧ ∃ b ∈ more, Headers.isPadding b = false

/-- some element of the value is the word -/
def Lists (word : String) (v : Bytes) : Prop := ∃ part, IsElement part v ∧ Names word part

/-- two parts that differ in case and padding only -/
def SameWord (part part' : Bytes) : Prop :=
  ∃ core core', Padded core part ∧ Padded core' part' ∧ core.map lowerByte = core'.map lowerByte

/-- one way to spell the list of some lines anew, as far as the word is concerned; all but `lines` are about the first
line, and `lines` makes any line the first one -/
inductive Respelling (word : String) : List Bytes → List Bytes → Prop
  /-- the lines change places -/
  | lines {ls ls' : List Bytes} (h : ls.Perm ls') : Respelling word ls ls'
  /-- a line is split at a comma -/
  | split (v w : Bytes) (ls : List Bytes) : Respelling word ((v ++ comma :: w) :: ls) (v :: w :: ls)
  /-- the tokens of a line change places -/
  | tokens {parts parts' : List Bytes} (h : parts.Perm parts') (ls : List Bytes) :
      Respelling word (Text.joinWith comma parts :: ls) (Text.joinWith comma parts' :: ls)
  /-- a token gets other padding and letters of the other case -/
  | reworded {part part' : Bytes} (hpart : comma ∉ part) (hpart' : comma ∉ part') (h : SameWord part part')
      (before after ls : List Bytes) :
      Respelling word (Text.joinWith comma (before ++ part :: after) :: ls)
        (Text.joinWith comma (before ++ part' :: after) :: ls)
  /-- another token comes into a line -/
  | mixed {part : Bytes} (hpart : comma ∉ part) (h : ¬ Names word part) (before after ls : List Bytes) :
      Respelling word (Text.joinWith comma (before ++ after) :: ls) (Text.joinWith comma (before ++ part :: after) :: ls)
  /-- another token comes on a line of its own -/
  | added {part : Bytes} (hpart : comma ∉ part) (h : ¬ Names word part) (ls : List Bytes) :
      Respelling word ls (part :: ls)

/-- lines that come from one another when their list is spelled anew -/
abbrev Respelled (word : String) : List Bytes → List Bytes → Prop := Relation.EqvGen (Respelling word)

/-! ## What a part reads as -/

variable {word t : String} {core part part' more v : Bytes}

/-- the part in lower case and without its padding -/
def reading (part : Bytes) : Bytes := Text.stripWhile Headers.isPadding (part.map lowerByte)

theorem lowerByte_cases (b : UInt8) :
    Headers.isPadding (lowerByte b) = Headers.isPadding b ∧ isVisibleByte (lowerByte b) = isVisibleByte b := by
  apply of_byte_lt b b.toNat_lt
  decide +kernel

theorem reading_eq (part : Bytes) : reading part = (Text.stripWhile Headers.isPadding part).map lowerByte := by
  rw [reading, Text.stripWhile_map]
  exact congrArg (List.map lowerByte) (Text.stripWhile_congr fun b _ => (lowerByte_cases b).1)

theorem Padded.reading_eq (h : Padded core part) : reading part = reading core := by
  obtain ⟨front, back, rfl, hfront, hback⟩ := h
  rw [Upgrade.reading_eq, Text.stripWhile_padded hfront hback, Upgrade.reading_eq]

/-- every part is something that reads alike, with padding around it -/
theorem exists_padded (part : Bytes) : ∃ core, Padded core part ∧ core.map lowerByte = reading part := by
  obtain ⟨front, back, hpart, hfront, hback⟩ := Text.exists_stripWhile Headers.isPadding part
  exact ⟨_, ⟨front, back, hpart, hfront, hback⟩, (reading_eq part).symm⟩

theorem sameWord_iff : SameWord part part' ↔ reading part = reading part' := by
  constructor
  · rintro ⟨core, core', hpart, hpart', hsame⟩
    rw [hpart.reading_eq, hpart'.reading_eq, reading, hsame, reading]
  · intro h
    obtain ⟨core, hpart, hcore⟩ := exists_padded part
    obtain ⟨core', hpart', hcore'⟩ := exists_padded part'
    exact ⟨core, core', hpart, hpart', by rw [hcore, hcore', h]⟩

/-- a word that elements are compared with: in lower case, not empty, and without padding -/
structure IsWord (word : String) : Prop where
  lower : Text.lowerAscii word = word
  trimmed : Text.stripWhile Headers.isPadding (Utf8.encode word) = Utf8.encode word
  ne_nil : Utf8.encode word ≠ []

theorem isWord_upgrade : IsWord "upgrade" := ⟨by decide +kernel, by decide +kernel, by decide +kernel⟩

theorem isWord_websocket : IsWord "websocket" := ⟨by decide +kernel, by decide +kernel, by decide +kernel⟩

theorem names_iff (hword : IsWord word) : Names word part ↔ reading part = Utf8.encode word := by
  constructor
  · rintro ⟨core, hpart, hcore⟩
    rw [hpart.reading_eq, List.append_nil, reading, hcore, hword.trimmed]
  · intro h
    obtain ⟨core, hpart, hcore⟩ := exists_padded part
    exact ⟨core, by rwa [List.append_nil], hcore.trans h⟩

theorem not_names_nil (hword : IsWord word) : ¬ Names word [] := by
  rw [names_iff hword]
  exact fun h => hword.ne_nil h.symm

theorem SameWord.names_iff (hword : IsWord word) (h : SameWord part part') : Names word part ↔ Names word part' := by
  rw [Upgrade.names_iff hword, Upgrade.names_iff hword, sameWord_iff.1 h]

theorem isVisibleByte_of_isPadding {b : UInt8} (h : Headers.isPadding b = true) : isVisibleByte b = true := by
  rcases Bool.or_eq_true_iff.1 h with h | h <;> rw [eq_of_beq h] <;> decide

theorem Padded.visible_eq (h : Padded core part) : part.all isVisibleByte = (core.map lowerByte).all isVisibleByte := by
  obtain ⟨front, back, rfl, hfront, hback⟩ := h
  have hpadding : ∀ l : Bytes, (∀ b ∈ l, Headers.isPadding b = true) → l.all isVisibleByte = true := fun l hl =>
    List.all_eq_true.2 fun b hb => isVisibleByte_of_isPadding (hl b hb)
  have hlower : (core.map lowerByte).all isVisibleByte = core.all isVisibleByte := by
    rw [List.all_map]
    exact congrArg core.all (funext fun b => (lowerByte_cases b).2)
  rw [List.all_append, List.all_append, hpadding front hfront, hpadding back hback, hlower, Bool.true_and, Bool.and_true]

theorem SameWord.visible_eq (h : SameWord part part') : part.all isVisibleByte = part'.all isVisibleByte := by
  obtain ⟨core, core', hpart, hpart', hsame⟩ := h
  rw [hpart.visible_eq, hpart'.visible_eq, hsame]

/-! ## Longer tokens -/

/-- how many bytes of a part are no padding -/
def weight (part : Bytes) : Nat := part.countP fun b => !Headers.isPadding b

theorem Padded.weight_eq (h : Padded core part) : weight part = weight core := by
  obtain ⟨front, back, rfl, hfront, hback⟩ := h
  have hzero : ∀ l : Bytes, (∀ b ∈ l, Headers.isPadding b = true) → weight l = 0 := fun l hl =>
    List.countP_eq_zero.2 fun b hb => by simp [hl b hb]
  have hparts : weight (front ++ core ++ back) = weight front + weight core + weight back := by
    simp only [weight, List.countP_append]
  rw [hparts, hzero front hfront, hzero back hback, Nat.zero_add, Nat.add_zero]

theorem BeginsWith.weight_eq (h : BeginsWith word more part) :
    weight part = weight (Utf8.encode word) + weight more := by
  obtain ⟨core, hpart, hcore⟩ := h
  have hlower : weight (core.map lowerByte) = weight core := by
    rw [weight, List.countP_map]
    exact List.countP_congr fun b _ => by simp [(lowerByte_cases b).1]
  rw [hpart.weight_eq, ← hcore, hlower, weight, List.countP_append]
  rfl

theorem Extends.not_names (h : Extends word part) : ¬ Names word part := by
  intro hnames
  obtain ⟨more, hmore, b, hb, hfilled⟩ := h
  have hpos : 0 < weight more := List.countP_pos_iff.2 ⟨b, hb, by simp [hfilled]⟩
  have hlonger : weight part = weight (Utf8.encode word) + weight more := hmore.weight_eq
  have hequal : weight part = weight (Utf8.encode word) + 0 := hnames.weight_eq
  omega

/-! ## What a list says however it is spelled -/

theorem isElement_iff : IsElement part v ↔ part ∈ Text.splitAt comma v := Text.mem_splitAt_iff.symm

theorem lists_iff : Lists word v ↔ ∃ part ∈ Text.splitAt comma v, Names word part :=
  exists_congr fun _ => and_congr_left' isElement_iff

theorem lists_append (v w : Bytes) : Lists word (v ++ comma :: w) ↔ Lists word v ∨ Lists word w := by
  simp only [lists_iff, Text.splitAt_append_cons, List.mem_append, or_and_right, exists_or]

theorem lists_token (h : comma ∉ part) : Lists word part ↔ Names word part := by
  simp [lists_iff, Text.splitAt_of_not_mem h]

theorem lists_joinWith (hword : IsWord word) (parts : List Bytes) :
    Lists word (Text.joinWith comma parts) ↔ ∃ part ∈ parts, Lists word part := by
  induction parts with
  | nil => simpa [Text.joinWith, lists_token] using not_names_nil hword
  | cons first parts ih =>
    cases parts with
    | nil => simp [Text.joinWith]
    | cons second parts => rw [Text.joinWith_cons_cons, lists_append, ih, List.exists_mem_cons_iff _ first]

/-- each way to spell a list anew leaves the word in it or out of it -/
theorem Respelling.lists_iff (hword : IsWord word) {ls ls' : List Bytes} (h : Respelling word ls ls') :
    (∃ v ∈ ls, Lists word v) ↔ ∃ v ∈ ls', Lists word v := by
  cases h with
  | lines h => exact exists_congr fun v => and_congr_left' h.mem_iff
  | split v w ls => simp only [List.exists_mem_cons_iff, lists_append, or_assoc]
  | tokens h ls => simp only [List.exists_mem_cons_iff, lists_joinWith hword, h.mem_iff]
  | reworded hpart hpart' h before after ls =>
    have hsame : Lists word _ ↔ Lists word _ :=
      (lists_token hpart).trans ((h.names_iff hword).trans (lists_token hpart').symm)
    simp only [List.exists_mem_cons_iff, lists_joinWith hword, List.mem_append, or_and_right, exists_or, hsame]
  | mixed hpart h before after ls =>
    have hnot : ¬ Lists word _ := mt (lists_token hpart).1 h
    simp only [List.exists_mem_cons_iff, lists_joinWith hword, List.mem_append, or_and_right, exists_or, hnot, false_or]
  | added hpart h ls =>
    have hnot : ¬ Lists word _ := mt (lists_token hpart).1 h
    simp only [List.exists_mem_cons_iff, hnot, false_or]

theorem Respelled.lists_iff (hword : IsWord word) {ls ls' : List Bytes} (h : Respelled word ls ls') :
    (∃ v ∈ ls, Lists word v) ↔ ∃ v ∈ ls', Lists word v := by
  induction h with
  | rel ls ls' h => exact h.lists_iff hword
  | refl ls => exact Iff.rfl
  | symm ls ls' _ ih => exact ih.symm
  | trans ls ls' ls'' _ _ ih ih' => exact ih.trans ih'

/-! ## The text that the gateway reads -/

theorem visible_token {b : UInt8} (h : isVisibleByte b = true) :
    isBlankByte b = Headers.isPadding b ∧ (shown b == ',') = (b == comma) := by
  revert h
  apply of_byte_lt b b.toNat_lt
  decide +kernel

/-- the text of visible bytes, trimmed and in lower case, is what the bytes read as -/
theorem encode_trim (h : visibleText? v = some t) : Utf8.encode (Text.lowerAscii (Text.trim t)) = reading v := by
  have hv : ∀ b ∈ v, isVisibleByte b = true := isVisibleByte_of_visibleText? h
  calc Utf8.encode (Text.lowerAscii (Text.trim t))
      = Utf8.encodeChars ((Text.stripWhile Text.isBlank t.toList).map Char.toLower) := by
        simp [Text.lowerAscii, Text.trim, Utf8.encode]
    _ = Utf8.encodeChars (((Text.stripWhile isBlankByte v).map shown).map Char.toLower) := by
        rw [UpgradePolicy.toList_of_visibleText? h, UpgradePolicy.stripWhile_shown hv]
    _ = (Text.stripWhile isBlankByte v).map lowerByte :=
        UpgradePolicy.encodeChars_lower fun b hb => hv b (Text.mem_of_mem_stripWhile hb)
    _ = (Text.stripWhile Headers.isPadding v).map lowerByte :=
        congrArg (List.map lowerByte) (Text.stripWhile_congr fun b hb => (visible_token (hv b hb)).1)
    _ = reading v := (reading_eq v).symm

theorem sameLetters_iff (hword : IsWord word) (h : visibleText? v = some t) :
    Text.sameLetters (Text.trim t) word = true ↔ Names word v := by
  rw [Text.sameLetters, beq_iff_eq, hword.lower, names_iff hword, ← encode_trim h, Utf8.encode_injective.eq_iff]

theorem any_tokens_iff (hword : IsWord word) (h : visibleText? v = some t) :
    ((tokens t).any fun token => Text.sameLetters token word) = true ↔ Lists word v := by
  have hv : ∀ b ∈ v, isVisibleByte b = true := isVisibleByte_of_visibleText? h
  have hparts : Text.splitAt ',' t.toList = (Text.splitAt comma v).map (List.map shown) := by
    rw [UpgradePolicy.toList_of_visibleText? h]
    exact Text.splitAt_map shown ',' fun b hb => (visible_token (hv b hb)).2
  have hpart : ∀ part ∈ Text.splitAt comma v, visibleText? part = some (String.ofList (part.map shown)) := by
    intro part hpart
    exact if_pos (List.all_eq_true.2 fun b hb => hv b ((Text.splitAt_sublist hpart).subset hb))
  rw [lists_iff, tokens, hparts, List.map_map, List.any_map, List.any_eq_true]
  exact exists_congr fun part => and_congr_right fun hmem => sameLetters_iff hword (hpart part hmem)

variable {h h' : Headers}

theorem connectionUpgrades_iff (hv : ∀ v ∈ Headers.values h "connection", v.all isVisibleByte = true) :
    connectionUpgrades h = true ↔ ∃ v ∈ Headers.values h "connection", Lists "upgrade" v := by
  rw [connectionUpgrades, List.any_eq_true]
  constructor
  · rintro ⟨t, ht, htoken⟩
    obtain ⟨v, hmem, hread⟩ := List.mem_filterMap.1 ht
    exact ⟨v, hmem, (any_tokens_iff isWord_upgrade hread).1 htoken⟩
  · rintro ⟨v, hmem, hlists⟩
    obtain ⟨t, hread⟩ : ∃ t, visibleText? v = some t := ⟨_, if_pos (hv v hmem)⟩
    exact ⟨t, List.mem_filterMap.2 ⟨v, hmem, hread⟩, (any_tokens_iff isWord_upgrade hread).2 hlists⟩

theorem upgradesToSocket_iff : upgradesToSocket h = true ↔
    ∃ v, Headers.first? h "upgrade" = some v ∧ v.all isVisibleByte = true ∧ Names "websocket" v := by
  rw [upgradesToSocket, Headers.text?]
  cases Headers.first? h "upgrade" with
  | none => simp
  | some v =>
    simp only [Option.bind_some, Option.some.injEq, exists_eq_left']
    cases hread : visibleText? v with
    | none =>
      have hv : ¬ v.all isVisibleByte = true := fun hv => Option.some_ne_none _ ((if_pos hv).symm.trans hread)
      simp only [hv, false_and, Bool.false_eq_true]
    | some t => simp only [sameLetters_iff isWord_websocket hread, (visibleText?_eq_some.1 hread).1, true_and]

theorem upgradesToSocket_congr
    (hfirst : Option.Rel SameWord (Headers.first? h "upgrade") (Headers.first? h' "upgrade")) :
    upgradesToSocket h = true ↔ upgradesToSocket h' = true := by
  rw [upgradesToSocket_iff, upgradesToSocket_iff]
  generalize Headers.first? h "upgrade" = first at hfirst
  generalize Headers.first? h' "upgrade" = first' at hfirst
  cases hfirst with
  | none => exact Iff.rfl
  | some hsame => simp only [Option.some.injEq, exists_eq_left', hsame.visible_eq, hsame.names_iff isWord_websocket]

/-- **The `connection` header is read as one list.** A socket is asked for exactly if `upgrade` is an element of some
`connection` value and the first `upgrade` value, all of it visible, is `websocket`. So it makes no difference how the
list is spread over lines, in which order, with which case and padding and with what other tokens it is spelled, nor
with which case and padding the first `upgrade` value is; and if all elements that begin with `upgrade` are longer
tokens, no socket is asked for. -/
theorem connection_read_as_one_list (h : Headers)
    (hv : ∀ v ∈ Headers.values h "connection", v.all isVisibleByte = true) :
    (asksForSocket h = true ↔ (∃ v ∈ Headers.values h "connection", Lists "upgrade" v) ∧
        ∃ v, Headers.first? h "upgrade" = some v ∧ v.all isVisibleByte = true ∧ Names "websocket" v) ∧
      (∀ h' : Headers, (∀ v ∈ Headers.values h' "connection", v.all isVisibleByte = true) →
        Respelled "upgrade" (Headers.values h "connection") (Headers.values h' "connection") →
        Option.Rel SameWord (Headers.first? h "upgrade") (Headers.first? h' "upgrade") →
          asksForSocket h = asksForSocket h') ∧
      ((∀ v ∈ Headers.values h "connection", ∀ part more, IsElement part v → BeginsWith "upgrade" more part →
        Extends "upgrade" part) → asksForSocket h = false) := by
  have hasks : asksForSocket h = true ↔ (∃ v ∈ Headers.values h "connection", Lists "upgrade" v) ∧
      ∃ v, Headers.first? h "upgrade" = some v ∧ v.all isVisibleByte = true ∧ Names "websocket" v := by
    rw [asksForSocket, Bool.and_eq_true, connectionUpgrades_iff hv, upgradesToSocket_iff]
  refine ⟨hasks, ?_, ?_⟩
  · intro h' hv' hlines hfirst
    have hconnection : connectionUpgrades h = true ↔ connectionUpgrades h' = true := by
      rw [connectionUpgrades_iff hv, connectionUpgrades_iff hv', hlines.lists_iff isWord_upgrade]
    rw [Bool.eq_iff_iff, asksForSocket, asksForSocket, Bool.and_eq_true, Bool.and_eq_true, hconnection,
      upgradesToSocket_congr hfirst]
  · intro hlonger
    by_contra hsocket
    obtain ⟨⟨v, hmem, part, helement, hnames⟩, -⟩ := hasks.1 (Bool.eq_true_of_not_eq_false hsocket)
    exact (hlonger v hmem part [] helement hnames).not_names hnames

/-- headers with these lines of `connection` and this value of `upgrade` -/
def socketHeaders (lines : List Bytes) (upgrade : String) : Headers :=
  (lines.map fun v => ⟨"connection", v⟩) ++ [Headers.textField "upgrade" upgrade]

theorem values_socketHeaders (lines : List Bytes) (upgrade : String) :
    Headers.values (socketHeaders lines upgrade) "connection" = lines := by
  simp [socketHeaders, Headers.values, Headers.textField, List.filter_map, Function.comp_def]

theorem first?_socketHeaders (lines : List Bytes) (upgrade : String) :
    Headers.first? (socketHeaders lines upgrade) "upgrade" = some (Utf8.encode upgrade) := by
  rw [Headers.first?, socketHeaders, List.find?_append, List.find?_eq_none.2 (by simp), Option.none_or]
  rfl

/-- `keep-alive , UPGRADE` on one line -/
def oneLine : List Bytes := [Utf8.encode "keep-alive " ++ comma :: Utf8.encode " UPGRADE"]

/-- the same list on two lines, the other way round, in other letters, and with a longer token -/
def twoLines : List Bytes :=
  [Utf8.encode "Upgrade\t", Utf8.encode "upgrade-insecure" ++ comma :: Utf8.encode " Keep-Alive"]

theorem extends_insecure : Extends "upgrade" (Utf8.encode "upgrade-insecure") :=
  ⟨Utf8.encode "-insecure", ⟨Utf8.encode "upgrade", ⟨[], [], by decide +kernel, by simp, by simp⟩, by decide +kernel⟩,
    0x2D, by decide +kernel, by decide⟩

theorem respelled_twoLines : Respelled "upgrade" oneLine twoLines := by
  have hsplit : Respelling "upgrade" oneLine [Utf8.encode "keep-alive ", Utf8.encode " UPGRADE"] := .split _ _ []
  have hupgrade : Respelling "upgrade" [Utf8.encode " UPGRADE", Utf8.encode "keep-alive "]
      [Utf8.encode "Upgrade\t", Utf8.encode "keep-alive "] :=
    .reworded (by decide +kernel) (by decide +kernel) (sameWord_iff.2 (by decide +kernel)) [] [] _
  have hkeep : Respelling "upgrade" [Utf8.encode "keep-alive ", Utf8.encode "Upgrade\t"]
      [Utf8.encode " Keep-Alive", Utf8.encode "Upgrade\t"] :=
    .reworded (by decide +kernel) (by decide +kernel) (sameWord_iff.2 (by decide +kernel)) [] [] _
  have hmixed : Respelling "upgrade" [Utf8.encode " Keep-Alive", Utf8.encode "Upgrade\t"]
      [Utf8.encode "upgrade-insecure" ++ comma :: Utf8.encode " Keep-Alive", Utf8.encode "Upgrade\t"] :=
    .mixed (by decide +kernel) extends_insecure.not_names [] [Utf8.encode " Keep-Alive"] _
  have hswap : ∀ v w, Respelled "upgrade" [v, w] [w, v] := fun v w => .rel _ _ (.lines (.swap w v []))
  apply (Relation.EqvGen.rel _ _ hsplit).trans
  apply (hswap _ _).trans
  apply (Relation.EqvGen.rel _ _ hupgrade).trans
  apply (hswap _ _).trans
  apply (Relation.EqvGen.rel _ _ hkeep).trans
  apply (Relation.EqvGen.rel _ _ hmixed).trans
  exact hswap _ _

theorem two_lines_ask :
    (∀ v ∈ Headers.values (socketHeaders oneLine "websocket") "connection", v.all isVisibleByte = true) ∧
      (∀ v ∈ Headers.values (socketHeaders twoLines " WebSocket") "connection", v.all isVisibleByte = true) ∧
      Respelled "upgrade" (Headers.values (socketHeaders oneLine "websocket") "connection")
        (Headers.values (socketHeaders twoLines " WebSocket") "connection") ∧
      asksForSocket (socketHeaders oneLine "websocket") = true ∧
      asksForSocket (socketHeaders twoLines " WebSocket") = true ∧
      asksForSocket (socketHeaders [Utf8.encode "upgrade-insecure"] "websocket") = false := by
  have hone : ∀ v ∈ oneLine, v.all isVisibleByte = true := by decide +kernel
  have htwo : ∀ v ∈ twoLines, v.all isVisibleByte = true := by decide +kernel
  obtain ⟨hasks, hsame, -⟩ := connection_read_as_one_list (socketHeaders oneLine "websocket")
    (by rwa [values_socketHeaders])
  obtain ⟨-, -, hlonger⟩ := connection_read_as_one_list (socketHeaders [Utf8.encode "upgrade-insecure"] "websocket")
    (by rw [values_socketHeaders]; decide +kernel)
  simp only [values_socketHeaders, first?_socketHeaders, List.forall_mem_singleton] at hasks hsame hlonger ⊢
  have hlisted : Lists "upgrade" (Utf8.encode "keep-alive " ++ comma :: Utf8.encode " UPGRADE") :=
    (lists_append _ _).2 (Or.inr ((lists_token (by decide +kernel)).2 ((names_iff isWord_upgrade).2 (by decide +kernel))))
  have hwebsocket : Names "websocket" (Utf8.encode "websocket") := (names_iff isWord_websocket).2 (by decide +kernel)
  have hone_asks : asksForSocket (socketHeaders oneLine "websocket") = true :=
    hasks.2 ⟨⟨_, List.mem_singleton_self _, hlisted⟩, _, rfl, by decide +kernel, hwebsocket⟩
  have htwo_asks :
      asksForSocket (socketHeaders oneLine "websocket") = asksForSocket (socketHeaders twoLines " WebSocket") := by
    apply hsame
    · rwa [values_socketHeaders]
    · rw [values_socketHeaders]
      exact respelled_twoLines
    · rw [first?_socketHeaders]
      exact .some (sameWord_iff.2 (by decide +kernel))
  have hinsecure : asksForSocket (socketHeaders [Utf8.encode "upgrade-insecure"] "websocket") = false := by
    apply hlonger
    intro part more helement _
    rw [isElement_iff, Text.splitAt_of_not_mem (by decide +kernel), List.mem_singleton] at helement
    rw [helement]
    exact extends_insecure
  exact ⟨hone, htwo, respelled_twoLines, hone_asks, htwo_asks.symm.trans hone_asks, hinsecure⟩

end MachineGateway.Upgrade
