import Mathlib.Data.Finset.Card
import Mathlib.Data.Finset.Range
import Mathlib.Logic.Relation

/-! # Union-find

Parent links that form a forest, the lookup that halves the paths it walks, and the merging of
two trees. The invariant names the root each index belongs to and a height that falls along the
links; a lookup keeps both and ends within as many steps as there are indices.
-/
namespace Texo.Foundation

/-- One lookup: walk to the root, linking every visited index to its grandparent. Out of fuel or
off the array there is no answer. -/
def unionFindRoot : Nat → List Nat → Nat → Option (List Nat × Nat)
  | 0, _, _ => none
  | fuel + 1, parent, x =>
    match parent[x]? with
    | none => none
    | some up =>
      if up = x then some (parent, x)
      else
        match parent[up]? with
        | none => none
        | some above => unionFindRoot fuel (parent.set x above) above

/-- Parent links that form a forest: each index lies in the tree of a root, and its height falls
along its link. -/
structure Forest (parent : List Nat) (rep height : Nat → Nat) : Prop where
  inside : ∀ {x up : Nat}, parent[x]? = some up → up < parent.length
  same : ∀ {x up : Nat}, parent[x]? = some up → rep up = rep x
  root : ∀ {x up : Nat}, parent[x]? = some up → (up = x ↔ rep x = x)
  falls : ∀ {x up : Nat}, parent[x]? = some up → up ≠ x → height up < height x
  below : ∀ {x : Nat}, x < parent.length → rep x < parent.length
  stable : ∀ {x : Nat}, x < parent.length → rep (rep x) = rep x

/-- The indices under a height. -/
def lower (length : Nat) (height : Nat → Nat) (x : Nat) : Finset Nat :=
  (Finset.range length).filter fun y => height y < height x

/-- Fewer indices lie under a lower one. -/
theorem card_lower_lt {length : Nat} {height : Nat → Nat} {x above : Nat} (inside : above < length)
    (falls : height above < height x) :
    (lower length height above).card < (lower length height x).card := by
  apply Finset.card_lt_card
  rw [Finset.ssubset_iff_of_subset]
  · refine ⟨above, ?_, ?_⟩
    · exact Finset.mem_filter.mpr ⟨Finset.mem_range.mpr inside, falls⟩
    · intro member
      exact Nat.lt_irrefl _ (Finset.mem_filter.mp member).2
  · intro y member
    obtain ⟨range, under⟩ := Finset.mem_filter.mp member
    exact Finset.mem_filter.mpr ⟨range, Nat.lt_trans under falls⟩

/-- Not every index lies under one of them. -/
theorem card_lower_lt_length {length : Nat} {height : Nat → Nat} {x : Nat} (inside : x < length) :
    (lower length height x).card < length := by
  have within : lower length height x ⊆ Finset.range length := Finset.filter_subset _ _
  have bound : (lower length height x).card < (Finset.range length).card := by
    apply Finset.card_lt_card
    rw [Finset.ssubset_iff_of_subset within]
    refine ⟨x, Finset.mem_range.mpr inside, ?_⟩
    intro member
    exact Nat.lt_irrefl _ (Finset.mem_filter.mp member).2
  rwa [Finset.card_range] at bound

/-- The singletons are a forest. -/
theorem Forest.range (length : Nat) : Forest (List.range length) id fun _ => 0 := by
  have own : ∀ {x up : Nat}, (List.range length)[x]? = some up → up = x ∧ x < length := by
    intro x up linked
    rw [List.getElem?_eq_some_iff] at linked
    obtain ⟨inside, rfl⟩ := linked
    rw [List.length_range] at inside
    exact ⟨List.getElem_range _, inside⟩
  exact {
    inside := by
      intro x up linked
      obtain ⟨rfl, inside⟩ := own linked
      rwa [List.length_range]
    same := by
      intro x up linked
      rw [(own linked).1]
    root := by
      intro x up linked
      exact iff_of_true (own linked).1 rfl
    falls := by
      intro x up linked other
      exact absurd (own linked).1 other
    below := by
      intro x inside
      exact inside
    stable := by
      intro x inside
      rfl }

/-- Linking an index to its grandparent keeps the forest. -/
theorem Forest.halve {parent : List Nat} {rep height : Nat → Nat}
    (forest : Forest parent rep height) {x up above : Nat} (linked : parent[x]? = some up)
    (other : up ≠ x) (higher : parent[up]? = some above) :
    Forest (parent.set x above) rep height ∧ height above < height x := by
  have climbs : height above < height x := by
    by_cases top : above = up
    · rw [top]
      exact forest.falls linked other
    · exact Nat.lt_trans (forest.falls higher top) (forest.falls linked other)
  have here : x < parent.length := (List.getElem?_eq_some_iff.mp linked).1
  have moved : ∀ {y link : Nat}, (parent.set x above)[y]? = some link →
      (y = x ∧ link = above) ∨ (y ≠ x ∧ parent[y]? = some link) := by
    intro y link found
    by_cases own : y = x
    · rw [own, List.getElem?_set_self here] at found
      exact Or.inl ⟨own, (Option.some.inj found).symm⟩
    · rw [List.getElem?_set_ne (fun same => own same.symm)] at found
      exact Or.inr ⟨own, found⟩
  refine ⟨?_, climbs⟩
  exact {
    inside := by
      intro y link found
      rw [List.length_set]
      rcases moved found with ⟨_, rfl⟩ | ⟨_, kept⟩
      · exact forest.inside higher
      · exact forest.inside kept
    same := by
      intro y link found
      rcases moved found with ⟨rfl, rfl⟩ | ⟨_, kept⟩
      · exact (forest.same higher).trans (forest.same linked)
      · exact forest.same kept
    root := by
      intro y link found
      rcases moved found with ⟨rfl, rfl⟩ | ⟨_, kept⟩
      · refine iff_of_false ?_ ?_
        · intro loops
          rw [loops] at climbs
          exact Nat.lt_irrefl _ climbs
        · intro rooted
          exact other ((forest.root linked).mpr rooted)
      · exact forest.root kept
    falls := by
      intro y link found apart
      rcases moved found with ⟨rfl, rfl⟩ | ⟨_, kept⟩
      · exact climbs
      · exact forest.falls kept apart
    below := by
      intro y bound
      rw [List.length_set] at bound ⊢
      exact forest.below bound
    stable := by
      intro y bound
      rw [List.length_set] at bound
      exact forest.stable bound }

/-- A lookup with more fuel than there are indices under it finds the root, and keeps the
forest. -/
theorem Forest.findRoot {rep height : Nat → Nat} {fuel : Nat} {parent : List Nat} {x : Nat}
    (forest : Forest parent rep height) (inside : x < parent.length)
    (enough : (lower parent.length height x).card < fuel) :
    ∃ halved, unionFindRoot fuel parent x = some (halved, rep x) ∧ Forest halved rep height ∧
      halved.length = parent.length := by
  induction fuel generalizing parent x with
  | zero => exact absurd enough (Nat.not_lt_zero _)
  | succ fuel ih =>
    have linked : parent[x]? = some parent[x] := List.getElem?_eq_getElem inside
    generalize parent[x] = up at linked
    rw [unionFindRoot, linked]
    dsimp only
    by_cases top : up = x
    · have rooted : rep x = x := (forest.root linked).mp top
      rw [if_pos top, rooted]
      exact ⟨parent, rfl, forest, rfl⟩
    · have near : up < parent.length := forest.inside linked
      have higher : parent[up]? = some parent[up] := List.getElem?_eq_getElem near
      generalize parent[up] = above at higher
      rw [if_neg top, higher]
      dsimp only
      obtain ⟨halved, climbs⟩ := forest.halve linked top higher
      have reach : above < parent.length := forest.inside higher
      have fewer := card_lower_lt reach climbs
      have same : rep above = rep x := (forest.same higher).trans (forest.same linked)
      have length : (parent.set x above).length = parent.length := List.length_set
      obtain ⟨final, found, kept, size⟩ := ih halved (by rw [length]; exact reach)
        (by rw [length]; omega)
      refine ⟨final, ?_, kept, size.trans length⟩
      rw [found, same]

/-- Linking one root to another merges their trees. -/
theorem Forest.merge {parent : List Nat} {rep height : Nat → Nat}
    (forest : Forest parent rep height) {r s : Nat} (left : r < parent.length)
    (right : s < parent.length) (leftRoot : rep r = r) (rightRoot : rep s = s) (apart : r ≠ s) :
    Forest (parent.set r s) (fun y => if rep y = r then s else rep y)
      (fun y => if rep y = r then height y + height s + 1 else height y) := by
  have moved : ∀ {y link : Nat}, (parent.set r s)[y]? = some link →
      (y = r ∧ link = s) ∨ (y ≠ r ∧ parent[y]? = some link) := by
    intro y link found
    by_cases own : y = r
    · rw [own, List.getElem?_set_self left] at found
      exact Or.inl ⟨own, (Option.some.inj found).symm⟩
    · rw [List.getElem?_set_ne (fun same => own same.symm)] at found
      exact Or.inr ⟨own, found⟩
  have foreign : rep s ≠ r := by
    rw [rightRoot]
    exact fun same => apart same.symm
  exact {
    inside := by
      intro y link found
      rw [List.length_set]
      rcases moved found with ⟨_, rfl⟩ | ⟨_, kept⟩
      · exact right
      · exact forest.inside kept
    same := by
      intro y link found
      rcases moved found with ⟨rfl, rfl⟩ | ⟨_, kept⟩
      · rw [if_neg foreign, if_pos leftRoot, rightRoot]
      · rw [forest.same kept]
    root := by
      intro y link found
      rcases moved found with ⟨rfl, rfl⟩ | ⟨other, kept⟩
      · rw [if_pos leftRoot]
      · by_cases mine : rep y = r
        · rw [if_pos mine]
          refine iff_of_false ?_ ?_
          · intro top
            have rooted := (forest.root kept).mp top
            exact other (rooted.symm.trans mine)
          · intro same
            rw [← same, rightRoot] at mine
            exact apart mine.symm
        · rw [if_neg mine]
          exact forest.root kept
    falls := by
      intro y link found differs
      rcases moved found with ⟨rfl, rfl⟩ | ⟨other, kept⟩
      · rw [if_neg foreign, if_pos leftRoot]
        omega
      · have falls := forest.falls kept differs
        rw [forest.same kept]
        by_cases mine : rep y = r
        · rw [if_pos mine, if_pos mine]
          omega
        · rw [if_neg mine, if_neg mine]
          exact falls
    below := by
      intro y bound
      rw [List.length_set] at bound ⊢
      by_cases mine : rep y = r
      · rw [if_pos mine]
        exact right
      · rw [if_neg mine]
        exact forest.below bound
    stable := by
      intro y bound
      rw [List.length_set] at bound
      by_cases mine : rep y = r
      · rw [if_pos mine, if_neg foreign, rightRoot]
      · rw [if_neg mine, forest.stable bound, if_neg mine] }

/-- The roots tell connected indices apart: two indices share one exactly when they are
connected. -/
def Classifies (rep : Nat → Nat) (linked : Nat → Nat → Prop) : Prop :=
  ∀ x y, rep x = rep y ↔ Relation.EqvGen linked x y

/-- Without links, every index is alone. -/
theorem classifies_id : Classifies id fun _ _ => False := by
  intro x y
  constructor
  · intro same
    rw [show x = y from same]
    exact Relation.EqvGen.refl y
  · intro connected
    induction connected with
    | rel _ _ impossible => exact impossible.elim
    | refl _ => rfl
    | symm _ _ _ ih => exact ih.symm
    | trans _ _ _ _ _ first second => exact first.trans second

/-- Links that are the same leave the classes the same. -/
theorem Classifies.congr {rep : Nat → Nat} {linked other : Nat → Nat → Prop}
    (classes : Classifies rep linked) (same : ∀ x y, linked x y ↔ other x y) :
    Classifies rep other := by
  have equal : linked = other := by
    funext x y
    exact propext (same x y)
  rw [← equal]
  exact classes

/-- A link within one class changes no class. -/
theorem Classifies.within {rep : Nat → Nat} {linked : Nat → Nat → Prop}
    (classes : Classifies rep linked) {i j : Nat} (same : rep i = rep j) :
    Classifies rep fun x y => linked x y ∨ (x = i ∧ y = j) := by
  intro x y
  constructor
  · intro equal
    exact Relation.EqvGen.mono (fun _ _ known => Or.inl known) _ _ ((classes x y).mp equal)
  · intro connected
    induction connected with
    | rel x y link =>
      rcases link with known | ⟨rfl, rfl⟩
      · exact (classes x y).mpr (Relation.EqvGen.rel x y known)
      · exact same
    | refl _ => rfl
    | symm _ _ _ ih => exact ih.symm
    | trans _ _ _ _ _ first second => exact first.trans second

/-- A link between two classes merges them. -/
theorem Classifies.across {rep : Nat → Nat} {linked : Nat → Nat → Prop}
    (classes : Classifies rep linked) {i j : Nat} :
    Classifies (fun y => if rep y = rep i then rep j else rep y)
      fun x y => linked x y ∨ (x = i ∧ y = j) := by
  have grown : ∀ {x y : Nat}, rep x = rep y →
      Relation.EqvGen (fun x y => linked x y ∨ (x = i ∧ y = j)) x y := by
    intro x y same
    exact Relation.EqvGen.mono (fun _ _ known => Or.inl known) _ _ ((classes x y).mp same)
  have bridge : Relation.EqvGen (fun x y => linked x y ∨ (x = i ∧ y = j)) i j :=
    Relation.EqvGen.rel i j (Or.inr ⟨rfl, rfl⟩)
  intro x y
  constructor
  · intro equal
    by_cases first : rep x = rep i
    · by_cases second : rep y = rep i
      · exact grown (first.trans second.symm)
      · have met : rep j = rep y := by simpa [first, second] using equal
        exact (grown first).trans _ _ _ (bridge.trans _ _ _ (grown met))
    · by_cases second : rep y = rep i
      · have met : rep x = rep j := by simpa [first, second] using equal
        have back := Relation.EqvGen.symm _ _ bridge
        exact (grown met).trans _ _ _ (back.trans _ _ _ (grown second.symm))
      · have met : rep x = rep y := by simpa [first, second] using equal
        exact grown met
  · intro connected
    induction connected with
    | rel x y link =>
      rcases link with known | ⟨rfl, rfl⟩
      · have same := (classes x y).mpr (Relation.EqvGen.rel x y known)
        simp only [same]
      · show (if rep x = rep x then rep y else rep x) = if rep y = rep x then rep y else rep y
        rw [if_pos rfl, ite_self]
    | refl _ => rfl
    | symm _ _ _ ih => exact ih.symm
    | trans _ _ _ _ _ first second => exact first.trans second

end Texo.Foundation
