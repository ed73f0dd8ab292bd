/-
Cutting lists at separators and finding one list in another. The parts of `splitAt` joined by the separator give
the list back, and no part holds the separator.
-/

namespace MachineGateway.Text

variable {α : Type} [BEq α]

/-- the parts between separators, at least one -/
def splitAt (sep : α) : List α → List (List α)
  | [] => [[]]
  | a :: l =>
    match splitAt sep l with
    | [] => if a == sep then [[], []] else [[a]]
    | part :: parts => if a == sep then [] :: part :: parts else (a :: part) :: parts

/-- the part before the first separator, and what follows it if there is one -/
def cutAt (sep : α) : List α → List α × Option (List α)
  | [] => ([], none)
  | a :: l => if a == sep then ([], some l) else ((a :: (cutAt sep l).1), (cutAt sep l).2)

/-- what follows `start` at the beginning of the list, if the list begins with it -/
def after? : (start : List α) → List α → Option (List α)
  | [], l => some l
  | _ :: _, [] => none
  | s :: start, a :: l => if s == a then after? start l else none

/-- whether the list begins with `start` -/
def startsWith (start l : List α) : Bool := (after? start l).isSome

/-- whether `part` stands somewhere in the list -/
def occurs (part : List α) : List α → Bool
  | [] => part.isEmpty
  | a :: l => startsWith part (a :: l) || occurs part l

/-- the parts with the separator between them -/
def joinWith (sep : α) : List (List α) → List α
  | [] => []
  | [part] => part
  | part :: parts => part ++ sep :: joinWith sep parts

end MachineGateway.Text
