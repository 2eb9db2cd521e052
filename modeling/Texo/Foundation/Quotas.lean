import Mathlib.Algebra.GroupWithZero.Nat
import Mathlib.Data.List.Nodup
import Mathlib.Data.List.Perm.Subperm

/-! # Two nested limits

Groups are listed one after another, each cut to a limit of its own, and the whole list is cut to
a limit of all. What a group keeps is what the groups before it leave room for.
-/
namespace Texo.Foundation

variable {Item Key : Type}

/-- The first items of every group, group after group. -/
def takeEach (each : Nat) (groups : List (List Item)) : List Item := groups.flatMap (List.take each)

/-- How many of its first items a group keeps behind those before it. -/
def roomBehind (each total : Nat) (front : List (List Item)) : Nat :=
  min each (total - (takeEach each front).length)

@[simp] theorem takeEach_cons (each : Nat) (group : List Item) (rest : List (List Item)) :
    takeEach each (group :: rest) = group.take each ++ takeEach each rest := rfl

/-- Every item that is kept is one of a group. -/
theorem takeEach_sublist (each : Nat) (groups : List (List Item)) :
    (takeEach each groups).Sublist groups.flatten := by
  induction groups with
  | nil => exact List.Sublist.refl _
  | cons group rest ih =>
    rw [takeEach_cons, List.flatten_cons]
    exact (List.take_sublist _ _).append ih

/-- The kept list is as long as what each group keeps. -/
theorem length_takeEach (each : Nat) (groups : List (List Item)) :
    (takeEach each groups).length = (groups.map fun group => min each group.length).sum := by
  induction groups with
  | nil => rfl
  | cons group rest ih =>
    rw [takeEach_cons, List.length_append, List.length_take, ih, List.map_cons, List.sum_cons]

/-- Both limits cut the first group first. -/
theorem take_takeEach_cons (each total : Nat) (group : List Item) (rest : List (List Item)) :
    (takeEach each (group :: rest)).take total =
      group.take (min each total) ++ (takeEach each rest).take (total - (group.take each).length) := by
  rw [takeEach_cons, List.take_append, List.take_take, Nat.min_comm]

/-- A group keeps distinct keys where the kept list does, and conversely where no two groups
share a key. -/
theorem nodup_takeEach {key : Item → Key} {each total : Nat} {groups : List (List Item)}
    (apart : groups.Pairwise fun left right => ∀ x ∈ left, ∀ y ∈ right, key x ≠ key y) :
    (((takeEach each groups).take total).map key).Nodup ↔
      ∀ front group back, groups = front ++ group :: back →
        ((group.take (roomBehind each total front)).map key).Nodup := by
  induction groups generalizing total with
  | nil =>
    refine iff_of_true (by simp [takeEach]) ?_
    intro front group back same
    exact absurd same.symm (by simp)
  | cons group rest ih =>
    obtain ⟨separate, apart⟩ := List.pairwise_cons.mp apart
    rw [take_takeEach_cons, List.map_append, List.nodup_append, ih apart]
    have moved : ∀ front, roomBehind each (total - (group.take each).length) front =
        roomBehind each total (group :: front) := by
      intro front
      unfold roomBehind
      rw [takeEach_cons, List.length_append, Nat.sub_sub]
    have disjoint : ∀ a ∈ (group.take (min each total)).map key,
        ∀ b ∈ ((takeEach each rest).take (total - (group.take each).length)).map key, a ≠ b := by
      intro a here b there
      obtain ⟨x, member, rfl⟩ := List.mem_map.mp here
      obtain ⟨y, later, rfl⟩ := List.mem_map.mp there
      have inside := (takeEach_sublist each rest).subset (List.mem_of_mem_take later)
      obtain ⟨other, listed, within⟩ := List.mem_flatten.mp inside
      exact separate other listed x (List.mem_of_mem_take member) y within
    constructor
    · rintro ⟨own, later, _⟩ front found back same
      cases front with
      | nil =>
        obtain ⟨rfl, rfl⟩ := List.cons.inj same
        have room : roomBehind each total ([] : List (List Item)) = min each total := rfl
        rw [room]
        exact own
      | cons first front =>
        obtain ⟨rfl, split⟩ := List.cons.inj same
        rw [← moved]
        exact later front found back split
    · intro all
      refine ⟨all [] group rest rfl, ?_, disjoint⟩
      intro front found back split
      rw [moved]
      exact all (group :: front) found back (by rw [split]; rfl)

/-- A group with a key of its own keeps a leading part of it. -/
theorem filter_takeEach [DecidableEq Key] {key : Item → Key} {each : Nat} {groups : List (List Item)}
    {front back : List (List Item)} {group : List Item} {own : Key}
    (split : groups = front ++ group :: back) (mine : ∀ x ∈ group, key x = own)
    (others : ∀ other ∈ front ++ back, ∀ x ∈ other, key x ≠ own) :
    (takeEach each groups).filter (fun item => key item = own) = group.take each := by
  have none : ∀ part : List (List Item), (∀ other ∈ part, other ∈ front ++ back) →
      (takeEach each part).filter (fun item => key item = own) = [] := by
    intro part listed
    rw [List.filter_eq_nil_iff]
    intro x member
    obtain ⟨other, inside, within⟩ :=
      List.mem_flatten.mp ((takeEach_sublist each part).subset member)
    have different := others other (listed other inside) x within
    simpa using different
  have all : (group.take each).filter (fun item => key item = own) = group.take each := by
    rw [List.filter_eq_self]
    intro x member
    simpa using mine x (List.mem_of_mem_take member)
  rw [split]
  unfold takeEach
  rw [List.flatMap_append, List.flatMap_cons, List.filter_append, List.filter_append, all]
  have before := none front fun other member => List.mem_append_left _ member
  have after := none back fun other member => List.mem_append_right _ member
  unfold takeEach at before after
  rw [before, after, List.nil_append, List.append_nil]

/-- What is made of the items a condition selects. -/
theorem filterMap_if {Result : Type} (selected : Item → Prop) [DecidablePred selected]
    (make : Item → Result) (items : List Item) :
    items.filterMap (fun item => if selected item then some (make item) else none) =
      (items.filter fun item => selected item).map make := by
  induction items with
  | nil => rfl
  | cons item rest ih =>
    by_cases holds : selected item
    · rw [List.filter_cons_of_pos (by simpa using holds), List.map_cons, ← ih]
      exact List.filterMap_cons_some (if_pos holds)
    · rw [List.filter_cons_of_neg (by simpa using holds), ← ih]
      exact List.filterMap_cons_none (if_neg holds)

/-- A shorter sublist lacks one of the items. -/
theorem lacks_iff_shorter [DecidableEq Item] {part whole : List Item} (inside : part.Sublist whole) :
    (∃ item, part.count item < whole.count item) ↔ part.length < whole.length := by
  constructor
  · rintro ⟨item, fewer⟩
    apply Nat.lt_of_le_of_ne inside.length_le
    intro same
    rw [inside.eq_of_length same] at fewer
    exact Nat.lt_irrefl _ fewer
  · intro shorter
    by_contra none
    have all : ∀ item, whole.count item ≤ part.count item := by
      intro item
      by_contra fewer
      exact none ⟨item, Nat.lt_of_not_le fewer⟩
    have covered : whole.Subperm part := List.subperm_iff_count.mpr all
    exact absurd covered.length_le (Nat.not_le.mpr shorter)

end Texo.Foundation
