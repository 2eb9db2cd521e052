import Mathlib.Data.List.Basic
import Std.Data.ExtTreeMap

/-! # Maps keyed by pairs

Ordered maps whose keys are pairs, iterated in lexicographic key order.
-/
namespace Texo.Foundation

variable {α β : Type} [Ord α]

/-- Lexicographic comparison of pairs. -/
abbrev comparePair (a b : α × α) : Ordering :=
  compareLex (compareOn Prod.fst) (compareOn Prod.snd) a b

instance [Std.TransOrd α] [Std.LawfulEqOrd α] : Std.TransCmp (comparePair (α := α)) :=
  inferInstanceAs (Std.TransCmp (compareLex (compareOn Prod.fst) (compareOn Prod.snd)))

instance [Std.TransOrd α] [Std.LawfulEqOrd α] : Std.LawfulEqCmp (comparePair (α := α)) where
  compare_self := by
    intro pair
    simp [comparePair, compareLex, compareOn, Std.ReflCmp.compare_self]
  eq_of_compare := by
    intro a b same
    rw [comparePair, compareLex, Ordering.then_eq_eq] at same
    exact Prod.ext (Std.LawfulEqCmp.eq_of_compare same.1) (Std.LawfulEqCmp.eq_of_compare same.2)

/-- A map keyed by pairs. -/
abbrev PairMap (α β : Type) [Ord α] := Std.ExtTreeMap (α × α) β comparePair

end Texo.Foundation
