import Mathlib.Data.List.Basic

/-! # Pieces of a list

A list splits into pieces that each end at a separator; the last piece may lack it. Pieces that
were written one behind the other are read back.
-/
namespace Texo.Foundation

variable {Item : Type} [DecidableEq Item]

/-- The pieces of a list, each through its separator. -/
def pieces (separator : Item) : List Item → List (List Item)
  | [] => []
  | item :: rest =>
    if item = separator then
      [item] :: pieces separator rest
    else
      match pieces separator rest with
      | [] => [[item]]
      | piece :: later => (item :: piece) :: later

variable {separator : Item}

/-- The first piece ends at the first separator. -/
theorem pieces_append {front : List Item} (clear : separator ∉ front) (rest : List Item) :
    pieces separator (front ++ separator :: rest) =
      (front ++ [separator]) :: pieces separator rest := by
  induction front with
  | nil =>
    show pieces separator (separator :: rest) = [separator] :: pieces separator rest
    rw [pieces, if_pos rfl]
  | cons item front ih =>
    have apart : item ≠ separator := fun same => clear (same ▸ List.mem_cons_self)
    have later := ih fun member => clear (List.mem_cons_of_mem item member)
    rw [List.cons_append, pieces, if_neg apart, later]
    rfl

/-- A list without separators is one piece. -/
theorem pieces_last {front : List Item} (clear : separator ∉ front) (some : front ≠ []) :
    pieces separator front = [front] := by
  induction front with
  | nil => exact absurd rfl some
  | cons item front ih =>
    have apart : item ≠ separator := fun same => clear (same ▸ List.mem_cons_self)
    have rest : separator ∉ front := fun member => clear (List.mem_cons_of_mem item member)
    rw [pieces, if_neg apart]
    cases front with
    | nil => rfl
    | cons next front => rw [ih rest (List.cons_ne_nil next front)]

/-- Pieces written one behind the other are read back. -/
theorem pieces_flatMap {Written : Type} {write : Written → List Item} {written : List Written}
    (clear : ∀ value ∈ written, separator ∉ write value) :
    pieces separator (written.flatMap fun value => write value ++ [separator]) =
      written.map fun value => write value ++ [separator] := by
  induction written with
  | nil => rfl
  | cons value written ih =>
    have later := ih fun other member => clear other (List.mem_cons_of_mem value member)
    have whole : ((value :: written).flatMap fun value => write value ++ [separator]) =
        write value ++ separator ::
          written.flatMap fun value => write value ++ [separator] := by
      rw [List.flatMap_cons, List.append_assoc]
      rfl
    rw [whole, pieces_append (clear value List.mem_cons_self), later, List.map_cons]

end Texo.Foundation
