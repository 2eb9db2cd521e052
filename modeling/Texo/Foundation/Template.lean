import Mathlib.Algebra.GroupWithZero.Nat
import Mathlib.Data.List.Basic

/-! # Texts written from a template

A written text is fixed parts with fields between them. The items of a kind in the text are those of the
fixed parts exactly where no field holds one.
-/
namespace Texo.Foundation

/-- A part of a written text. -/
inductive Piece (Item : Type) where
  | fixed (text : List Item)
  | field (text : List Item)

variable {Item : Type}

/-- The text of a part. -/
def Piece.text : Piece Item → List Item
  | .fixed text => text
  | .field text => text

/-- The text that is written. -/
def written (pieces : List (Piece Item)) : List Item := pieces.flatMap Piece.text

/-- The fixed parts of a text. -/
def template (pieces : List (Piece Item)) : List Item :=
  pieces.flatMap fun
    | .fixed text => text
    | .field _ => []

/-- The fields of a text. -/
def fields (pieces : List (Piece Item)) : List (List Item) :=
  pieces.filterMap fun
    | .fixed _ => none
    | .field text => some text

/-- A text of two is written one behind the other. -/
theorem template_append (front back : List (Piece Item)) :
    template (front ++ back) = template front ++ template back := List.flatMap_append

/-- The fields of a text of two. -/
theorem fields_append (front back : List (Piece Item)) :
    fields (front ++ back) = fields front ++ fields back := List.filterMap_append

/-- A text has at least the items of its fixed parts, and more where a field holds some. -/
theorem length_filter_written (kind : Item → Bool) (pieces : List (Piece Item)) :
    ((written pieces).filter kind).length =
      ((template pieces).filter kind).length +
        ((fields pieces).map fun text => (text.filter kind).length).sum := by
  induction pieces with
  | nil => rfl
  | cons piece pieces ih =>
    cases piece with
    | fixed text =>
      show ((text ++ written pieces).filter kind).length =
        ((text ++ template pieces).filter kind).length + _
      rw [List.filter_append, List.filter_append, List.length_append, List.length_append, ih]
      show _ = (text.filter kind).length + _ +
        ((fields pieces).map fun text => (text.filter kind).length).sum
      omega
    | field text =>
      show ((text ++ written pieces).filter kind).length = ((template pieces).filter kind).length +
        ((text.filter kind).length + ((fields pieces).map fun text => (text.filter kind).length).sum)
      rw [List.filter_append, List.length_append, ih]
      omega

/-- The items of a kind are those of the fixed parts exactly where no field holds one. -/
theorem filter_written_iff (kind : Item → Bool) (pieces : List (Piece Item)) :
    (written pieces).filter kind = (template pieces).filter kind ↔
      ∀ text ∈ fields pieces, ∀ item ∈ text, kind item = false := by
  constructor
  · intro same text member
    have sizes := length_filter_written kind pieces
    rw [same] at sizes
    have none : ((fields pieces).map fun text => (text.filter kind).length).sum = 0 := by omega
    have zero := List.sum_eq_zero_iff_forall_eq_nat.mp none _ (List.mem_map_of_mem member)
    have empty := List.eq_nil_of_length_eq_zero zero
    simpa using List.filter_eq_nil_iff.mp empty
  · intro clear
    induction pieces with
    | nil => rfl
    | cons piece pieces ih =>
      cases piece with
      | fixed text =>
        show (text ++ written pieces).filter kind = (text ++ template pieces).filter kind
        rw [List.filter_append, List.filter_append, ih clear]
      | field text =>
        have first : text.filter kind = [] := by
          apply List.filter_eq_nil_iff.mpr
          simpa using clear text List.mem_cons_self
        show (text ++ written pieces).filter kind = (template pieces).filter kind
        rw [List.filter_append, first, List.nil_append,
          ih fun other member => clear other (List.mem_cons_of_mem _ member)]

end Texo.Foundation
