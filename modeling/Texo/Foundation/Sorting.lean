import Mathlib.Data.List.Sort

/-! # Sorting keyed items

Two lists with the same members and distinct keys sort alike, when the order only ties items
of one key.
-/
namespace Texo.Foundation

variable {Item Key : Type}

/-- Distinct keys single out their items. -/
theorem eq_of_key {key : Item → Key} {items : List Item} (distinct : (items.map key).Nodup)
    {left right : Item} (leftIn : left ∈ items) (rightIn : right ∈ items)
    (same : key left = key right) : left = right :=
  List.inj_on_of_nodup_map distinct leftIn rightIn same

/-- What a search by key selects has distinct keys where its source has. -/
theorem nodup_map_filterMap {Result : Type} {key : Item → Key} {resultKey : Result → Key}
    {select : Item → Option Result} {items : List Item} (distinct : (items.map key).Nodup)
    (keyed : ∀ item ∈ items, ∀ result, select item = some result → resultKey result = key item) :
    ((items.filterMap select).map resultKey).Nodup := by
  have inside : ((items.filterMap select).map resultKey).Sublist (items.map key) := by
    clear distinct
    induction items with
    | nil => simp
    | cons item rest ih =>
      have later := ih fun other member => keyed other (by simp [member])
      rw [List.filterMap_cons, List.map_cons]
      cases selected : select item with
      | none => exact later.cons (key item)
      | some result =>
        rw [List.map_cons, keyed item (by simp) result selected]
        exact later.cons_cons (key item)
  exact distinct.sublist inside

/-- Items with distinct keys are sorted alike, however they were listed. -/
theorem insertionSort_eq_of_keyed (le : Item → Item → Prop) [DecidableRel le] [Std.Total le]
    [IsTrans Item le] {key : Item → Key} {xs ys : List Item} (xsKeys : (xs.map key).Nodup)
    (ysKeys : (ys.map key).Nodup) (same : ∀ item, item ∈ xs ↔ item ∈ ys)
    (tied : ∀ left right, le left right → le right left → key left = key right) :
    xs.insertionSort le = ys.insertionSort le := by
  have listed : xs.Perm ys := (List.perm_ext_iff_of_nodup xsKeys.of_map ysKeys.of_map).mpr same
  have sorted : (xs.insertionSort le).Perm (ys.insertionSort le) :=
    ((List.perm_insertionSort le xs).trans listed).trans (List.perm_insertionSort le ys).symm
  apply sorted.eq_of_pairwise _ (List.pairwise_insertionSort le xs)
    (List.pairwise_insertionSort le ys)
  intro left right leftIn rightIn before after
  have leftIn' : left ∈ xs := (List.mem_insertionSort le).mp leftIn
  have rightIn' : right ∈ xs := (same right).mpr ((List.mem_insertionSort le).mp rightIn)
  exact eq_of_key xsKeys leftIn' rightIn' (tied left right before after)

/-- With distinct keys the items under a key are the one a search finds. -/
theorem filter_eq_find_of_keyed [DecidableEq Key] {key : Item → Key} {items : List Item}
    (distinct : (items.map key).Nodup) (wanted : Key) :
    items.filter (fun item => key item = wanted) =
      (items.find? fun item => key item = wanted).toList := by
  induction items with
  | nil => rfl
  | cons item rest ih =>
    rw [List.map_cons, List.nodup_cons] at distinct
    by_cases here : key item = wanted
    · have later : rest.filter (fun item => key item = wanted) = [] := by
        rw [List.filter_eq_nil_iff]
        intro other member same
        have equal : key other = key item := (of_decide_eq_true same).trans here.symm
        exact distinct.1 (equal ▸ List.mem_map_of_mem member)
      rw [List.filter_cons_of_pos (by simpa using here), later,
        List.find?_cons_of_pos (by simpa using here)]
      rfl
    · rw [List.filter_cons_of_neg (by simpa using here),
        List.find?_cons_of_neg (by simpa using here), ih distinct.2]

end Texo.Foundation
