/-
Natural numbers of documents. Whatever a text is read as, its natural numbers are of 64 bits (`fits_ofBytes`): a numeral
that stands for more becomes a binary fraction, and what is no number is not taken for one.
-/
import Mathlib.Tactic
import MachineGateway.Json.Read

namespace MachineGateway.Json

/-- a document whose natural numbers are of 64 bits -/
inductive Doc.Fits : Doc → Prop
  | null : Fits .null
  | bool (b : Bool) : Fits (.bool b)
  | number (x : Number) (h : ∀ n, x = .natural n → n ≤ Text.wordLimit) : Fits (.number x)
  | text (s : String) : Fits (.text s)
  | array (items : List Doc) (cut : Option Flaw) (h : ∀ d ∈ items, Fits d) : Fits (.array items cut)
  | object (members : List (Doc × Doc)) (cut : Option Flaw) (h : ∀ m ∈ members, Fits m.2) :
    Fits (.object members cut)
  | flawed (reading : Flaw) (passing : Option Flaw) : Fits (.flawed reading passing)

/-! ## Numbers -/

theorem value?_fits {x : Numeral} {n : Nat} (h : x.value? = some (.natural n)) : n ≤ Text.wordLimit := by
  simp only [Numeral.value?] at h
  split_ifs at h with hnatural
  · obtain rfl := Number.natural.inj (Option.some.inj h)
    simp only [Bool.and_eq_true, decide_eq_true_eq] at hnatural
    exact hnatural.2
  all_goals simp at h

theorem fits_numeralPart (x : Numeral) (rest : Bytes) : (numeralPart x rest).1.Fits := by
  unfold numeralPart
  cases hx : x.value? with
  | none => exact .flawed _ _
  | some v => exact .number v fun n hn => value?_fits (hn ▸ hx)

theorem fits_exponentPart (x : Numeral) (s : Bytes) : (exponentPart x s).1.Fits := by
  unfold exponentPart
  split
  · exact fits_numeralPart x _
  · split_ifs
    · split
      extract_lets
      split_ifs
      · exact .flawed _ _
      · exact fits_numeralPart _ _
    · exact fits_numeralPart x _

theorem fits_fractionPart (x : Numeral) (s : Bytes) : (fractionPart x s).1.Fits := by
  unfold fractionPart
  split
  · exact fits_numeralPart x _
  · split_ifs
    · extract_lets
      split_ifs
      · exact .flawed _ _
      · exact fits_exponentPart _ _
    · exact fits_exponentPart x _

theorem fits_numberPart (s : Bytes) : (numberPart s).1.Fits := by
  unfold numberPart
  split
  split
  · exact .flawed _ _
  · split_ifs
    · split
      · split_ifs
        · exact .flawed _ _
        · exact fits_fractionPart _ _
      · exact fits_fractionPart _ _
    · exact fits_fractionPart _ _
    · exact .flawed _ _

/-! ## Parts -/

theorem fits_stringPart (s : Bytes) : (stringPart s).1.Fits := by
  unfold stringPart
  split
  · split
    · exact .text _
    · exact .flawed _ _
  · exact .flawed _ _
  · exact .flawed _ _

theorem fits_wordPart {value : Doc} (h : value.Fits) (letters : List UInt8) (s : Bytes) :
    (wordPart value letters s).1.Fits := by
  induction letters generalizing s with
  | nil => exact h
  | cons c letters ih =>
    cases s with
    | nil => exact .flawed _ _
    | cons x r =>
      rw [wordPart]
      split_ifs
      · exact ih r
      · exact .flawed _ _

/-- by induction on the fuel, which bounds values, elements and members alike -/
theorem fits_parts (fuel : Nat) : (∀ s, (valuePart fuel s).1.Fits) ∧
    (∀ first s, ∀ d ∈ (itemsPart fuel first s).1, d.Fits) ∧
    ∀ first s, ∀ m ∈ (membersPart fuel first s).1, m.2.Fits := by
  induction fuel with
  | zero =>
    refine ⟨fun s => .flawed _ _, fun first s d hd => ?_, fun first s m hm => ?_⟩
    · simp [itemsPart] at hd
    · simp [membersPart] at hm
  | succ fuel ih =>
    obtain ⟨hvalue, hitems, hmembers⟩ := ih
    refine ⟨fun s => ?_, fun first s => ?_, fun first s => ?_⟩
    · rw [valuePart]
      split
      · exact .flawed _ _
      · split_ifs
        · exact fits_stringPart _
        · exact .array _ _ (hitems true _)
        · exact .object _ _ (hmembers true _)
        · exact fits_numberPart _
        · exact fits_wordPart .null _ _
        · exact fits_wordPart (.bool true) _ _
        · exact fits_wordPart (.bool false) _ _
        · exact .flawed _ _
    · rw [itemsPart]
      split
      · simp
      · split_ifs
        · simp
        · simp
        all_goals
          split
          rename_i item rest heq
          have hitem : item.Fits := (Prod.mk.inj heq).1 ▸ hvalue _
          split
          · simpa using hitem
          · exact List.forall_mem_cons.2 ⟨hitem, hitems false _⟩
    · rw [membersPart]
      split
      · simp
      · split_ifs
        · simp
        · simp
        -- a member that breaks off before its value leaves a flaw, which fits
        all_goals
          extract_lets
          split
          split
          · simp [Doc.broken, Doc.Fits.flawed]
          · split
            · simp [Doc.broken, Doc.Fits.flawed]
            · split
              · simp [Doc.broken, Doc.Fits.flawed]
              · split
                rename_i value rest heq
                have hmember : value.Fits := (Prod.mk.inj heq).1 ▸ hvalue _
                split
                · simpa using hmember
                · exact List.forall_mem_cons.2 ⟨hmember, hmembers false _⟩

/-- **What is read in a text has natural numbers of 64 bits only.** -/
theorem fits_ofBytes (s : Bytes) : (Doc.ofBytes s).1.Fits := (fits_parts (2 * s.length + 2)).1 s

end MachineGateway.Json
