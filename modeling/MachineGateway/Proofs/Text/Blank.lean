/-
Cutting the ends of a list. What `dropEndWhile` and `stripWhile` leave is part of the list; it depends on the predicate
only as far as the list's own elements go, and commutes with a map. What is left neither begins nor ends with an element
that is cut off, and a list that does neither is left as it is; padding around a list makes no difference
(`stripWhile_padded`).
-/
import Mathlib.Data.List.DropRight
import Mathlib.Tactic
import MachineGateway.Text.Blank

namespace MachineGateway.Text

variable {α β : Type} {p q : α → Bool} {l : List α}

theorem dropWhile_congr (h : ∀ x ∈ l, p x = q x) : l.dropWhile p = l.dropWhile q := by
  induction l with
  | nil => rfl
  | cons a l ih =>
    simp only [List.dropWhile_cons, h a List.mem_cons_self]
    split_ifs
    · exact ih fun x hx => h x (List.mem_cons_of_mem a hx)
    · rfl

theorem dropEndWhile_congr (h : ∀ x ∈ l, p x = q x) : dropEndWhile p l = dropEndWhile q l :=
  congrArg List.reverse (dropWhile_congr fun x hx => h x (List.mem_reverse.1 hx))

theorem mem_of_mem_dropWhile {x : α} (h : x ∈ l.dropWhile p) : x ∈ l := (List.dropWhile_suffix p).subset h

theorem mem_of_mem_dropEndWhile {x : α} (h : x ∈ dropEndWhile p l) : x ∈ l :=
  List.mem_reverse.1 (mem_of_mem_dropWhile (List.mem_reverse.1 h))

theorem mem_of_mem_stripWhile {x : α} (h : x ∈ stripWhile p l) : x ∈ l :=
  mem_of_mem_dropWhile (mem_of_mem_dropEndWhile h)

theorem stripWhile_congr (h : ∀ x ∈ l, p x = q x) : stripWhile p l = stripWhile q l := by
  unfold stripWhile
  rw [dropWhile_congr h]
  exact dropEndWhile_congr fun x hx => h x (mem_of_mem_dropWhile hx)

theorem dropEndWhile_map (f : β → α) (p : α → Bool) (l : List β) :
    dropEndWhile p (l.map f) = (dropEndWhile (p ∘ f) l).map f := by
  simp [dropEndWhile, ← List.map_reverse, List.dropWhile_map]

theorem stripWhile_map (f : β → α) (p : α → Bool) (l : List β) :
    stripWhile p (l.map f) = (stripWhile (p ∘ f) l).map f := by
  unfold stripWhile
  rw [List.dropWhile_map, dropEndWhile_map]

/-! ## The ends of what is left -/

variable {a : α}

theorem head_dropWhile (h : a ∈ (l.dropWhile p).head?) : p a = false := by
  have hnot := List.head?_dropWhile_not p l
  rwa [Option.mem_def.1 h] at hnot

theorem last_dropEndWhile (h : a ∈ (dropEndWhile p l).getLast?) : p a = false := by
  rw [dropEndWhile, List.getLast?_reverse] at h
  exact head_dropWhile h

/-- cutting the end off leaves the first element, if it leaves one -/
theorem head_of_head_dropEndWhile (h : a ∈ (dropEndWhile p l).head?) : a ∈ l.head? := by
  have hprefix : dropEndWhile p l <+: l := l.rdropWhile_prefix p
  exact List.singleton_prefix_iff_head?_eq_some.1 ((List.singleton_prefix_iff_head?_eq_some.2 h).trans hprefix)

theorem head_stripWhile (h : a ∈ (stripWhile p l).head?) : p a = false := head_dropWhile (head_of_head_dropEndWhile h)

theorem dropWhile_eq_self (h : ∀ a ∈ l.head?, p a = false) : l.dropWhile p = l := by
  cases l with
  | nil => rfl
  | cons a l => exact List.dropWhile_cons_of_neg (by simp [h a rfl])

theorem dropEndWhile_eq_self (h : ∀ a ∈ l.getLast?, p a = false) : dropEndWhile p l = l := by
  rw [dropEndWhile, dropWhile_eq_self (by simpa using h), List.reverse_reverse]

theorem stripWhile_eq_self (hhead : ∀ a ∈ l.head?, p a = false) (hlast : ∀ a ∈ l.getLast?, p a = false) :
    stripWhile p l = l := by
  rw [stripWhile, dropWhile_eq_self hhead, dropEndWhile_eq_self hlast]

theorem dropEndWhile_concat (ha : p a = true) : dropEndWhile p (l ++ [a]) = dropEndWhile p l :=
  l.rdropWhile_concat_pos p a ha

/-! ## Padding -/

/-- padding around a list is cut off with whatever else is cut off there -/
theorem stripWhile_padded {front back : List α} (hfront : ∀ x ∈ front, p x = true) (hback : ∀ x ∈ back, p x = true)
    (l : List α) : stripWhile p (front ++ l ++ back) = stripWhile p l := by
  have hend : ∀ m, dropEndWhile p (m ++ back) = dropEndWhile p m := by
    intro m
    rw [dropEndWhile, List.reverse_append, List.dropWhile_append_of_pos (by simpa using hback), dropEndWhile]
  rw [List.append_assoc, stripWhile, List.dropWhile_append_of_pos hfront, List.dropWhile_append]
  split_ifs with hempty
  · -- nothing of the list is left, and then nothing of the padding either
    rw [List.isEmpty_iff] at hempty
    rw [stripWhile, hempty, List.dropWhile_eq_nil_iff.2 hback]
  · rw [hend, stripWhile]

/-- a list is what is left of it, with what is cut off around that -/
theorem exists_stripWhile (p : α → Bool) (l : List α) :
    ∃ front back, l = front ++ stripWhile p l ++ back ∧ (∀ x ∈ front, p x = true) ∧ ∀ x ∈ back, p x = true := by
  refine ⟨l.takeWhile p, ((l.dropWhile p).reverse.takeWhile p).reverse, ?_, ?_, ?_⟩
  · have hend : dropEndWhile p (l.dropWhile p) ++ ((l.dropWhile p).reverse.takeWhile p).reverse = l.dropWhile p := by
      rw [dropEndWhile, ← List.reverse_append, List.takeWhile_append_dropWhile, List.reverse_reverse]
    rw [List.append_assoc, stripWhile, hend, List.takeWhile_append_dropWhile]
  · exact fun x hx => List.mem_takeWhile_imp hx
  · exact fun x hx => List.mem_takeWhile_imp (List.mem_reverse.1 hx)

end MachineGateway.Text
