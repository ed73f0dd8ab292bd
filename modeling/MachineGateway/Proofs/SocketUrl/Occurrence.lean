/-
Where the socket URLs of an authority stand in a body. `Opens` says what it takes for one to begin at the front of a
text, `openingAt?` asks for it at a position, and `Clear` says that none begins anywhere. `scan_cases` is the scanner's
induction: a text is empty, or its first byte is copied, or a socket URL at its front is rewritten.
-/
import MachineGateway.SocketUrl
import MachineGateway.Proofs.Text.Cutting

namespace MachineGateway.SocketUrl

/-! ## Openings -/

theorem Opening.mem_all (o : Opening) : o ∈ Opening.all := by
  cases o <;> decide

/-- an opening is `w` and then no other `w` -/
theorem Opening.bytes_eq (o : Opening) : ∃ tail, o.bytes = 0x77 :: tail ∧ 0x77 ∉ tail := by
  cases o <;> exact ⟨_, rfl, by decide⟩

theorem Opening.eq_of_beginning {o o' : Opening} (h : o.bytes <+: o'.bytes) : o = o' := by
  revert h
  cases o <;> cases o' <;> decide

theorem Opening.eq_of_common_text {o o' : Opening} {l : Bytes} (h : o.bytes <+: l) (h' : o'.bytes <+: l) :
    o = o' := by
  rcases List.prefix_or_prefix_of_prefix h h' with h | h
  · exact eq_of_beginning h
  · exact (eq_of_beginning h).symm

/-- an opening ends with a slash or an equals sign -/
theorem Opening.sign_mem (o : Opening) : 0x2F ∈ o.bytes ∨ 0x3D ∈ o.bytes := by
  cases o <;> decide

/-! ## What it takes to begin -/

/-- a socket URL of `authority` begins at the front of `body`, which goes on with `rest` after it -/
structure Opens (authority : Bytes) (extension : Option Bytes) (before : Option UInt8) (o : Opening)
    (rest body : Bytes) : Prop where
  text : body = o.bytes ++ (authority ++ rest)
  bound : boundary o before = true
  ends : authorityEnds rest = true
  fresh : ∀ e, extension = some e → ¬ e <+: rest

variable {a b host : Bytes} {e : Option Bytes} {before : Option UInt8} {o o' : Opening} {rest body : Bytes}

theorem follows_iff : follows a e o body = true ↔
    ∃ rest, body = o.bytes ++ (a ++ rest) ∧ authorityEnds rest = true ∧ ∀ x, e = some x → ¬ x <+: rest := by
  have hrest : ∀ rest, (Text.after? o.bytes body).bind (Text.after? a) = some rest ↔
      body = o.bytes ++ (a ++ rest) := by
    intro rest
    simp only [Option.bind_eq_some_iff, Text.after?_eq_some]
    constructor
    · rintro ⟨_, rfl, rfl⟩
      rfl
    · intro h
      exact ⟨_, h, rfl⟩
  unfold follows
  constructor
  · intro h
    split at h
    · exact absurd h (by decide)
    · rename_i rest hr
      rw [Bool.and_eq_true, Bool.not_eq_true'] at h
      refine ⟨rest, (hrest rest).1 hr, h.2, ?_⟩
      rintro x rfl hx
      exact absurd (Text.startsWith_iff.2 hx) (by simp [h.1])
  · rintro ⟨rest, hbody, hends, hfresh⟩
    rw [(hrest rest).2 hbody]
    cases e with
    | none => simp [hends]
    | some x => simpa [hends] using fun hx => hfresh x rfl (Text.startsWith_iff.1 hx)

theorem opening?_eq_some : opening? a e before body = some o ↔ ∃ rest, Opens a e before o rest body := by
  unfold opening?
  constructor
  · intro h
    have hp := List.find?_some h
    rw [Bool.and_eq_true, follows_iff] at hp
    obtain ⟨hbound, rest, htext, hends, hfresh⟩ := hp
    exact ⟨rest, htext, hbound, hends, hfresh⟩
  · rintro ⟨rest, h⟩
    have hp : (boundary o before && follows a e o body) = true := by
      rw [Bool.and_eq_true, follows_iff]
      exact ⟨h.bound, rest, h.text, h.ends, h.fresh⟩
    obtain ⟨o', hfind⟩ : ∃ o', Opening.all.find? (fun o => boundary o before && follows a e o body) = some o' :=
      Option.isSome_iff_exists.1 (List.find?_isSome.2 ⟨o, o.mem_all, hp⟩)
    have hp' := List.find?_some hfind
    rw [Bool.and_eq_true, follows_iff] at hp'
    obtain ⟨-, rest', htext', -⟩ := hp'
    -- both openings begin the body, so they are one
    rw [hfind, Opening.eq_of_common_text ⟨_, h.text.symm⟩ ⟨_, htext'.symm⟩]

theorem opening?_eq_none : opening? a e before body = none ↔ ∀ o rest, ¬ Opens a e before o rest body := by
  rw [Option.eq_none_iff_forall_ne_some]
  constructor
  · intro h o rest ho
    exact h o (opening?_eq_some.2 ⟨rest, ho⟩)
  · intro h o ho
    obtain ⟨rest, ho⟩ := opening?_eq_some.1 ho
    exact h o rest ho

/-- nothing begins but at a `w` -/
theorem Opens.head? (h : Opens a e before o rest body) : body.head? = some 0x77 := by
  obtain ⟨tail, htail, -⟩ := o.bytes_eq
  rw [h.text, htail]
  rfl

theorem opening?_of_head_ne {x : UInt8} {r : Bytes} (hx : x ≠ 0x77) : opening? a e before (x :: r) = none :=
  opening?_eq_none.2 fun _ _ h => hx (Option.some.inj h.head?)

/-! ## Bodies without socket URLs of an authority -/

/-- the opening of a socket URL of the authority at a position of the body, if one begins there -/
def openingAt? (authority host body : Bytes) (i : Nat) : Option Opening :=
  opening? authority (extension? authority host) (if i = 0 then none else body[i - 1]?) (body.drop i)

/-- the opening that is found at a position of a body, which `before` precedes -/
def openingFrom? (a : Bytes) (e : Option Bytes) (before : Option UInt8) (body : Bytes) (i : Nat) : Option Opening :=
  opening? a e (if i = 0 then before else body[i - 1]?) (body.drop i)

theorem openingFrom?_succ (a : Bytes) (e : Option Bytes) (before : Option UInt8) (x : UInt8) (r : Bytes) (i : Nat) :
    openingFrom? a e before (x :: r) (i + 1) = openingFrom? a e (some x) r i := by
  cases i <;> simp [openingFrom?]

theorem openingFrom?_add {x : Bytes} (hx : x ≠ []) (a : Bytes) (e : Option Bytes) (before : Option UInt8) (r : Bytes)
    (i : Nat) : openingFrom? a e before (x ++ r) (x.length + i) = openingFrom? a e x.getLast? r i := by
  induction x generalizing before with
  | nil => exact absurd rfl hx
  | cons y x ih =>
    have hsucc : (y :: x).length + i = x.length + i + 1 := by simp; omega
    rw [List.cons_append, hsucc, openingFrom?_succ]
    cases x with
    | nil => simp
    | cons z x => rw [ih (List.cons_ne_nil z x), List.getLast?_cons_cons]

/-- no socket URL of the authority begins in the body, which `before` precedes -/
def Clear (authority : Bytes) (extension : Option Bytes) : (before : Option UInt8) → Bytes → Prop
  | _, [] => True
  | before, x :: r => opening? authority extension before (x :: r) = none ∧ Clear authority extension (some x) r

instance decidableClear (authority : Bytes) (extension : Option Bytes) :
    (before : Option UInt8) → (body : Bytes) → Decidable (Clear authority extension before body)
  | _, [] => isTrue trivial
  | _, x :: r =>
    have := decidableClear authority extension (some x) r
    inferInstanceAs (Decidable (_ ∧ Clear authority extension (some x) r))

theorem opening?_nil : opening? a e before [] = none :=
  opening?_eq_none.2 fun _ _ h => absurd h.head? (by simp)

theorem clear_iff : Clear a e before body ↔
    ∀ i, opening? a e (if i = 0 then before else body[i - 1]?) (body.drop i) = none := by
  induction body generalizing before with
  | nil => simp [Clear, opening?_nil]
  | cons x r ih =>
    have hsucc : ∀ i, (if i = 0 then some x else r[i - 1]?) = (x :: r)[i]? := by
      intro i
      cases i <;> simp
    rw [Clear, ih]
    constructor
    · rintro ⟨h0, hs⟩ i
      cases i with
      | zero => simpa using h0
      | succ i => simpa [hsucc] using hs i
    · intro h
      refine ⟨by simpa using h 0, fun i => ?_⟩
      simpa [hsucc] using h (i + 1)

theorem clear_iff_openingAt? :
    Clear a (extension? a host) none body ↔ ∀ i, openingAt? a host body i = none := clear_iff

/-- what precedes a body only matters to one that begins with `w` -/
theorem Clear.of_head_ne {c : Option UInt8} (h : Clear a e before body) (hw : body.head? ≠ some 0x77) :
    Clear a e c body := by
  cases body with
  | nil => trivial
  | cons x r => exact ⟨opening?_of_head_ne (by simpa using hw), h.2⟩

theorem getLast?_or_cons (x : Bytes) (y : UInt8) (c : Option UInt8) :
    x.getLast?.or (some y) = (y :: x).getLast?.or c := by
  cases x with
  | nil => rfl
  | cons z x =>
    rw [List.getLast?_cons_cons, List.getLast?_eq_some_getLast (List.cons_ne_nil z x)]
    rfl

/-! ## Text in which no socket URL begins -/

/-- no socket URL of the authority begins within `x`, which `before` precedes and `body` follows -/
def Quiet (authority : Bytes) (extension : Option Bytes) : (before : Option UInt8) → (x body : Bytes) → Prop
  | _, [], _ => True
  | before, y :: x, body =>
    opening? authority extension before (y :: (x ++ body)) = none ∧ Quiet authority extension (some y) x body

theorem clear_append_iff {x : Bytes} :
    Clear a e before (x ++ body) ↔ Quiet a e before x body ∧ Clear a e (x.getLast?.or before) body := by
  induction x generalizing before with
  | nil => simp [Quiet]
  | cons y x ih => rw [List.cons_append, Clear, ih, Quiet, getLast?_or_cons, and_assoc]

theorem Clear.of_append {x : Bytes} (h : Clear a e before (x ++ body)) : Clear a e (x.getLast?.or before) body :=
  (clear_append_iff.1 h).2

theorem quiet_append_iff {x y : Bytes} :
    Quiet a e before (x ++ y) body ↔ Quiet a e before x (y ++ body) ∧ Quiet a e (x.getLast?.or before) y body := by
  induction x generalizing before with
  | nil => simp [Quiet]
  | cons z x ih => rw [List.cons_append, Quiet, ih, Quiet, getLast?_or_cons, and_assoc, List.append_assoc]

theorem quiet_of_not_mem {x : Bytes} (hx : 0x77 ∉ x) : Quiet a e before x body := by
  induction x generalizing before with
  | nil => trivial
  | cons y x ih => exact ⟨opening?_of_head_ne fun hy => hx (by simp [hy]), ih fun hm => hx (List.mem_cons_of_mem y hm)⟩

/-- it is enough to look at the front, and further on without regard to what stands before -/
theorem quiet_of_drop {x : Bytes} (hfirst : opening? a e before (x ++ body) = none)
    (h : ∀ i, 0 < i → i < x.length → ∀ c, opening? a e c ((x ++ body).drop i) = none) : Quiet a e before x body := by
  induction x generalizing before with
  | nil => trivial
  | cons y x ih =>
    have hshift : ∀ i, i < x.length → ∀ c, opening? a e c ((x ++ body).drop i) = none := fun i hi c =>
      h (i + 1) (Nat.succ_pos i) (by simpa using hi) c
    refine ⟨hfirst, ?_⟩
    cases x with
    | nil => trivial
    | cons z x => exact ih (hshift 0 (by simp) (some y)) fun i _ => hshift i

/-! ## The scanner's induction -/

theorem scan_skip (x : Bytes) :
    scan a host e before x.length (x ++ body) = scan a host e (x.getLast?.or before) 0 body := by
  induction x generalizing before with
  | nil => simp
  | cons y x ih =>
    rw [List.cons_append, List.length_cons, scan, ih, ← getLast?_or_cons]

theorem scan_copy {x : UInt8} {r : Bytes} (h : opening? a e before (x :: r) = none) :
    scan a host e before 0 (x :: r) = x :: scan a host e (some x) 0 r := by
  simp [scan, h]

theorem scan_replace (h : Opens a e before o rest body) :
    scan a host e before 0 body = o.bytes ++ (host ++ scan a host e (o.bytes ++ a).getLast? 0 rest) := by
  obtain ⟨tail, htail, -⟩ := o.bytes_eq
  have hsome := opening?_eq_some.2 ⟨rest, h⟩
  have hbody : body = 0x77 :: (tail ++ a ++ rest) := by rw [h.text, htail]; simp
  have hlen : o.bytes.length + a.length - 1 = (tail ++ a).length := by simp [htail]
  have hlast : (tail ++ a).getLast?.or (some 0x77) = (o.bytes ++ a).getLast? := by
    rw [htail, List.cons_append, getLast?_or_cons _ _ none, Option.or_none]
  rw [hbody] at hsome ⊢
  simp only [scan, hsome]
  rw [hlen, scan_skip, hlast, List.append_assoc]

/-- quiet text is copied -/
theorem scan_quiet {x : Bytes} (h : Quiet a e before x body) :
    scan a host e before 0 (x ++ body) = x ++ scan a host e (x.getLast?.or before) 0 body := by
  induction x generalizing before with
  | nil => simp
  | cons y x ih => rw [List.cons_append, scan_copy h.1, ih h.2, ← getLast?_or_cons, List.cons_append]

theorem scan_cases {motive : Option UInt8 → Bytes → Prop} (nil : ∀ before, motive before [])
    (copy : ∀ before x r, opening? a e before (x :: r) = none → motive (some x) r → motive before (x :: r))
    (replace : ∀ before o rest body, Opens a e before o rest body → motive (o.bytes ++ a).getLast? rest →
      motive before body) :
    ∀ before body, motive before body := by
  intro before body
  induction hn : body.length using Nat.strong_induction_on generalizing before body with
  | _ n ih =>
    subst hn
    cases body with
    | nil => exact nil before
    | cons x r =>
      cases ho : opening? a e before (x :: r) with
      | none => exact copy before x r ho (ih r.length (by simp) (some x) r rfl)
      | some o =>
        obtain ⟨rest, h⟩ := opening?_eq_some.1 ho
        refine replace before o rest _ h (ih rest.length ?_ _ rest rfl)
        obtain ⟨tail, htail, -⟩ := o.bytes_eq
        rw [h.text, htail]
        simp
        omega

end MachineGateway.SocketUrl
