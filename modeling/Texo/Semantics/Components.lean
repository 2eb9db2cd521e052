import Texo.Foundation.PairOrder
import Texo.Foundation.UnionFind
import Texo.Semantics.Pipeline

/-! # Similarity components

Claims whose embeddings are similar enough are linked, and the groups of claims are the connected
components of the links. Every lookup of the union-find they are computed with ends.
-/
namespace Texo.Semantics
open Texo.Foundation

/-- One pair of `similarity_components`: the trees of linked indices are merged. -/
def mergeLinked (fuel : Nat) (linked : Nat → Nat → Bool) (parent : List Nat) (pair : Nat × Nat) :
    Option (List Nat) :=
  if linked pair.1 pair.2 then
    match unionFindRoot fuel parent pair.1 with
    | none => none
    | some (parent, ri) =>
      match unionFindRoot fuel parent pair.2 with
      | none => none
      | some (parent, rj) => some (if ri ≠ rj then parent.set ri rj else parent)
  else some parent

/-- The buckets of `similarity_components`: the roots seen so far, each with its indices. -/
structure Buckets where
  parent : List Nat
  roots : List Nat := []
  groups : List (List Nat) := []

/-- One index of `similarity_components`, put into the bucket of its root. -/
def Buckets.place (fuel : Nat) (buckets : Buckets) (i : Nat) : Option Buckets :=
  match unionFindRoot fuel buckets.parent i with
  | none => none
  | some (parent, r) =>
    match buckets.roots.findIdx? fun root => root = r with
    | some pos =>
      some { buckets with
        parent := parent
        groups := buckets.groups.modify pos fun group => group ++ [i] }
    | none => some ⟨parent, buckets.roots ++ [r], buckets.groups ++ [[i]]⟩

/-- `similarity_components`, each lookup with some fuel; `none` where one runs out. -/
def similarityComponents (fuel length : Nat) (linked : Nat → Nat → Bool) :
    Option (List (List Nat)) := do
  let parent ← (indexPairs length).foldlM (mergeLinked fuel linked) (List.range length)
  let buckets ← (List.range length).foldlM (Buckets.place fuel) { parent := parent }
  pure buckets.groups

/-- The link graph of embeddings under a threshold. -/
def similar {Score : Type} (embedder : Embedder Score) (embeddings : List (List Score))
    (threshold : Score) (i j : Nat) : Bool :=
  embedder.atLeast (embedder.cosineSimilarity (embeddings.getD i []) (embeddings.getD j []))
    threshold

/-- `group_claims`. -/
def groupClaims {Score : Type} (fuel : Nat) (claims : List ClaimView) (embedder : Embedder Score)
    (threshold : Score) : Except TexoError (Option (List (List Nat))) := do
  if claims.isEmpty then pure (some [])
  else
    let embeddings ← embedder.embedBatch (claims.map embeddingText)
    pure (similarityComponents fuel embeddings.length (similar embedder embeddings threshold))

/-- Two indices are connected by links below a length. -/
def Connected (length : Nat) (linked : Nat → Nat → Bool) : Nat → Nat → Prop :=
  Relation.EqvGen fun x y => x < length ∧ y < length ∧ linked x y = true

/-- A parent array of a length whose roots classify the indices by links. -/
def Tracks (length : Nat) (links : Nat → Nat → Prop) (parent : List Nat) : Prop :=
  parent.length = length ∧ ∃ rep height, Forest parent rep height ∧ Classifies rep links

/-- The step law: merging one pair adds its link. -/
theorem mergeLinked_tracks {fuel length : Nat} {linked : Nat → Nat → Bool}
    {links : Nat → Nat → Prop} {parent : List Nat} {pair : Nat × Nat} (enough : length ≤ fuel)
    (tracks : Tracks length links parent) (left : pair.1 < length) (right : pair.2 < length) :
    ∃ merged, mergeLinked fuel linked parent pair = some merged ∧
      Tracks length (fun x y => links x y ∨ ((x, y) = pair ∧ linked x y = true)) merged := by
  obtain ⟨size, rep, height, forest, classes⟩ := tracks
  unfold mergeLinked
  by_cases link : linked pair.1 pair.2 = true
  · rw [if_pos link]
    have here : pair.1 < parent.length := by
      rw [size]
      exact left
    have fuelled : (lower parent.length height pair.1).card < fuel := by
      have few : (lower _ height _).card < _ := card_lower_lt_length here
      omega
    obtain ⟨halved, first, forest, size₁⟩ := forest.findRoot here fuelled
    rw [first]
    dsimp only
    have there : pair.2 < halved.length := by
      rw [size₁, size]
      exact right
    have refuelled : (lower halved.length height pair.2).card < fuel := by
      have few : (lower _ height _).card < _ := card_lower_lt_length there
      omega
    obtain ⟨twice, second, forest, size₂⟩ := forest.findRoot there refuelled
    rw [second]
    dsimp only
    have length₂ : twice.length = length := size₂.trans (size₁.trans size)
    have same : ∀ x y, links x y ∨ (x = pair.1 ∧ y = pair.2) ↔
        links x y ∨ ((x, y) = pair ∧ linked x y = true) := by
      intro x y
      constructor
      · intro either
        rcases either with known | ⟨rfl, rfl⟩
        · exact Or.inl known
        · exact Or.inr ⟨rfl, link⟩
      · intro either
        rcases either with known | ⟨rfl, _⟩
        · exact Or.inl known
        · exact Or.inr ⟨rfl, rfl⟩
    by_cases met : rep pair.1 = rep pair.2
    · rw [if_neg (not_not_intro met)]
      exact ⟨twice, rfl, length₂, rep, height, forest, (classes.within met).congr same⟩
    · rw [if_pos met]
      have inside₁ : pair.1 < twice.length := by
        rw [length₂]
        exact left
      have inside₂ : pair.2 < twice.length := by
        rw [length₂]
        exact right
      refine ⟨_, rfl, by rw [List.length_set, length₂], _, _,
        forest.merge (forest.below inside₁) (forest.below inside₂) (forest.stable inside₁)
          (forest.stable inside₂) met, classes.across.congr same⟩
  · rw [if_neg link]
    refine ⟨parent, rfl, size, rep, height, forest, classes.congr ?_⟩
    intro x y
    constructor
    · exact Or.inl
    · intro either
      rcases either with known | ⟨rfl, holds⟩
      · exact known
      · exact absurd holds link

/-- The run law: merging pairs adds their links. -/
theorem foldlM_mergeLinked {fuel length : Nat} {linked : Nat → Nat → Bool}
    (enough : length ≤ fuel) {pairs : List (Nat × Nat)}
    (bounded : ∀ pair ∈ pairs, pair.1 < length ∧ pair.2 < length) {links : Nat → Nat → Prop}
    {parent : List Nat} (tracks : Tracks length links parent) :
    ∃ merged, pairs.foldlM (mergeLinked fuel linked) parent = some merged ∧
      Tracks length (fun x y => links x y ∨ ((x, y) ∈ pairs ∧ linked x y = true)) merged := by
  induction pairs generalizing links parent with
  | nil =>
    have same : (fun x y => links x y ∨ ((x, y) ∈ ([] : List (Nat × Nat)) ∧ linked x y = true)) =
        links := by
      funext x y
      simp
    rw [same]
    exact ⟨parent, rfl, tracks⟩
  | cons pair rest ih =>
    have bound := bounded pair List.mem_cons_self
    obtain ⟨next, moved, onward⟩ :=
      @mergeLinked_tracks fuel length linked links parent pair enough tracks bound.1 bound.2
    obtain ⟨merged, run, whole⟩ :=
      ih (fun other member => bounded other (List.mem_cons_of_mem _ member)) onward
    rw [List.foldlM_cons, moved]
    refine ⟨merged, run, ?_⟩
    have same : (fun x y => (links x y ∨ ((x, y) = pair ∧ linked x y = true)) ∨
        ((x, y) ∈ rest ∧ linked x y = true)) =
          fun x y => links x y ∨ ((x, y) ∈ pair :: rest ∧ linked x y = true) := by
      funext x y
      rw [List.mem_cons, or_assoc, ← or_and_right]
    rw [← same]
    exact whole

/-- The first index of each class below a bound. -/
def leaders (rep : Nat → Nat) (bound : Nat) : List Nat :=
  (List.range bound).filter fun i => (List.range i).all fun k => rep k ≠ rep i

/-- The class of an index below a bound. -/
def members (rep : Nat → Nat) (bound index : Nat) : List Nat :=
  (List.range bound).filter fun i => rep i = rep index

/-- A leader is the first of its class. -/
theorem mem_leaders {rep : Nat → Nat} {bound i : Nat} :
    i ∈ leaders rep bound ↔ i < bound ∧ ∀ k < i, rep k ≠ rep i := by
  simp [leaders]

/-- The members of a class. -/
theorem mem_members {rep : Nat → Nat} {bound index i : Nat} :
    i ∈ members rep bound index ↔ i < bound ∧ rep i = rep index := by
  simp [members]

/-- Every index has a leader in its class. -/
theorem exists_leader {rep : Nat → Nat} {bound i : Nat} (inside : i < bound) :
    ∃ leader ∈ leaders rep bound, leader ≤ i ∧ rep leader = rep i := by
  induction i using Nat.strong_induction_on with
  | _ i ih =>
    by_cases first : ∀ k < i, rep k ≠ rep i
    · exact ⟨i, mem_leaders.mpr ⟨inside, first⟩, Nat.le_refl i, rfl⟩
    · obtain ⟨k, before, same⟩ : ∃ k, k < i ∧ rep k = rep i := by
        by_contra none
        apply first
        intro k before same
        exact none ⟨k, before, same⟩
      obtain ⟨leader, member, atMost, equal⟩ := ih k before (Nat.lt_trans before inside)
      exact ⟨leader, member, by omega, equal.trans same⟩

/-- Leaders ascend. -/
theorem leaders_sorted (rep : Nat → Nat) (bound : Nat) : (leaders rep bound).Pairwise (· < ·) :=
  List.Pairwise.filter _ List.pairwise_lt_range

/-- Leaders of one class are the same. -/
theorem leader_unique {rep : Nat → Nat} {bound first second : Nat}
    (left : first ∈ leaders rep bound) (right : second ∈ leaders rep bound)
    (same : rep first = rep second) : first = second := by
  have firsts := (mem_leaders.mp left).2
  have seconds := (mem_leaders.mp right).2
  by_contra apart
  rcases Nat.lt_or_gt_of_ne apart with before | after
  · exact seconds first before same
  · exact firsts second after same.symm

/-- A new index without a class so far leads a class of its own. -/
theorem leaders_succ (rep : Nat → Nat) (bound : Nat) :
    leaders rep (bound + 1) =
      leaders rep bound ++ if ∀ k < bound, rep k ≠ rep bound then [bound] else [] := by
  unfold leaders
  rw [List.range_succ, List.filter_append]
  congr 1
  by_cases fresh : ∀ k < bound, rep k ≠ rep bound
  · rw [if_pos fresh]
    simpa using fresh
  · rw [if_neg fresh]
    simpa using fresh

/-- A new index joins its class. -/
theorem members_succ (rep : Nat → Nat) (bound index : Nat) :
    members rep (bound + 1) index =
      members rep bound index ++ if rep bound = rep index then [bound] else [] := by
  unfold members
  rw [List.range_succ, List.filter_append]
  congr 1
  by_cases same : rep bound = rep index
  · simp [same]
  · simp [same]

/-- The buckets of the indices below a bound. -/
structure Sorted (rep height : Nat → Nat) (length bound : Nat) (buckets : Buckets) : Prop where
  size : buckets.parent.length = length
  forest : Forest buckets.parent rep height
  roots : buckets.roots = (leaders rep bound).map rep
  groups : buckets.groups = (leaders rep bound).map (members rep bound)

/-- The step law: the next index goes where its class is. -/
theorem Sorted.place {rep height : Nat → Nat} {fuel length bound : Nat} {buckets : Buckets}
    (sorted : Sorted rep height length bound buckets) (enough : length ≤ fuel)
    (inside : bound < length) :
    ∃ next, buckets.place fuel bound = some next ∧ Sorted rep height length (bound + 1) next := by
  have here : bound < buckets.parent.length := by
    rw [sorted.size]
    exact inside
  have fuelled : (lower buckets.parent.length height bound).card < fuel := by
    have few : (lower _ height _).card < _ := card_lower_lt_length here
    have size := sorted.size
    omega
  obtain ⟨halved, found, forest, size⟩ := sorted.forest.findRoot here fuelled
  unfold Buckets.place
  rw [found]
  dsimp only
  rw [sorted.roots, List.findIdx?_map]
  have grown := leaders_succ rep bound
  cases position : (leaders rep bound).findIdx? ((fun root => decide (root = rep bound)) ∘ rep) with
  | none =>
    have absent : ∀ leader ∈ leaders rep bound, rep leader ≠ rep bound := by
      simpa using List.findIdx?_eq_none_iff.mp position
    have fresh : ∀ k < bound, rep k ≠ rep bound := by
      intro k before same
      obtain ⟨leader, member, _, equal⟩ : ∃ leader ∈ leaders rep bound, leader ≤ k ∧
          rep leader = rep k := exists_leader before
      exact absent leader member (equal.trans same)
    rw [if_pos fresh] at grown
    refine ⟨_, rfl, size.trans sorted.size, forest, ?_, ?_⟩
    · rw [grown, List.map_append]
      rfl
    · show buckets.groups ++ [[bound]] = _
      rw [grown, List.map_append, sorted.groups]
      congr 1
      · apply List.map_congr_left
        intro leader member
        rw [members_succ, if_neg (fun same => absent leader member same.symm), List.append_nil]
      · have empty : members rep bound bound = [] := by
          rw [List.eq_nil_iff_forall_not_mem]
          intro k member
          obtain ⟨before, same⟩ := mem_members.mp member
          exact fresh k before same
        rw [List.map_singleton, members_succ, if_pos rfl, empty]
        rfl
  | some pos =>
    obtain ⟨reach, at_, _⟩ := List.findIdx?_eq_some_iff_getElem.mp position
    have same : rep (leaders rep bound)[pos] = rep bound := by simpa using at_
    have leader : (leaders rep bound)[pos] ∈ leaders rep bound := List.getElem_mem reach
    have stale : ¬ ∀ k < bound, rep k ≠ rep bound := by
      intro fresh
      exact fresh _ (mem_leaders.mp leader).1 same
    rw [if_neg stale, List.append_nil] at grown
    refine ⟨_, rfl, size.trans sorted.size, forest, ?_, ?_⟩
    · rw [grown]
    · show buckets.groups.modify pos _ = _
      rw [grown, sorted.groups]
      apply List.ext_getElem?
      intro index
      rw [List.getElem?_modify, List.getElem?_map, List.getElem?_map]
      by_cases own : pos = index
      · rw [← own, List.getElem?_eq_getElem reach]
        show some (if pos = pos then _ else _) = some _
        rw [if_pos rfl, members_succ, if_pos same.symm]
      · cases other : (leaders rep bound)[index]? with
        | none => rfl
        | some another =>
          have away : rep bound ≠ rep another := by
            intro equal
            have known : another ∈ leaders rep bound := List.mem_of_getElem? other
            have twin := leader_unique leader known (same.trans equal)
            have lookup : (leaders rep bound)[pos]? = some another := by
              rw [List.getElem?_eq_getElem reach, twin]
            have nodup : (leaders rep bound).Nodup :=
              (leaders_sorted rep bound).imp Nat.ne_of_lt
            exact own ((List.getElem?_inj reach nodup).mp (lookup.trans other.symm))
          show some (if pos = index then _ else _) = some _
          rw [if_neg own, members_succ, if_neg away, List.append_nil]

/-- The run law: every index goes where its class is. -/
theorem foldlM_place {rep height : Nat → Nat} {fuel length : Nat} {parent : List Nat}
    (enough : length ≤ fuel) (size : parent.length = length) (forest : Forest parent rep height)
    {bound : Nat} (inside : bound ≤ length) :
    ∃ buckets, (List.range bound).foldlM (Buckets.place fuel) { parent := parent } = some buckets ∧
      Sorted rep height length bound buckets := by
  induction bound with
  | zero => exact ⟨{ parent := parent }, rfl, size, forest, rfl, rfl⟩
  | succ bound ih =>
    obtain ⟨before, run, sorted⟩ := ih (by omega)
    obtain ⟨next, placed, onward⟩ := sorted.place enough (by omega)
    refine ⟨next, ?_, onward⟩
    rw [List.range_succ, List.foldlM_append, run]
    show (before.place fuel bound >>= fun next => pure next) = some next
    rw [placed]
    rfl

/-- The groups of some classes are their members, by their leaders. -/
structure Components (length : Nat) (connected : Nat → Nat → Prop) (groups : List (List Nat)) :
    Prop where
  ascending : ∀ group ∈ groups, group ≠ [] ∧ group.Pairwise (· < ·)
  ordered : groups.Pairwise fun first second => ∀ x ∈ first.head?, ∀ y ∈ second.head?, x < y
  covers : ∀ i < length, ∃! pos : Nat, ∃ group, groups[pos]? = some group ∧ i ∈ group
  classes : ∀ group ∈ groups, ∀ i ∈ group, i < length ∧
    ∀ j, j ∈ group ↔ j < length ∧ connected i j

/-- The leader of a class is its first member. -/
theorem head?_members {rep : Nat → Nat} {bound leader : Nat} (leads : leader ∈ leaders rep bound) :
    (members rep bound leader).head? = some leader := by
  obtain ⟨inside, first⟩ := mem_leaders.mp leads
  unfold members
  rw [List.head?_filter, List.find?_range_eq_some]
  exact ⟨by simp, List.mem_range.mpr inside, by simpa using first⟩

/-- The classes of some roots are components. -/
theorem components_leaders {rep : Nat → Nat} {length : Nat} {connected : Nat → Nat → Prop}
    (classes : ∀ x y, rep x = rep y ↔ connected x y) :
    Components length connected ((leaders rep length).map (members rep length)) where
  ascending := by
    intro group member
    obtain ⟨leader, leads, rfl⟩ := List.mem_map.mp member
    refine ⟨?_, List.Pairwise.filter _ List.pairwise_lt_range⟩
    intro empty
    have head := head?_members leads
    rw [empty] at head
    cases head
  ordered := by
    rw [List.pairwise_map]
    apply List.Pairwise.imp_of_mem _ (leaders_sorted rep length)
    intro first second left right before x atFirst y atSecond
    rw [head?_members left] at atFirst
    rw [head?_members right] at atSecond
    rw [← Option.some.inj atFirst, ← Option.some.inj atSecond]
    exact before
  covers := by
    intro i inside
    obtain ⟨leader, leads, _, same⟩ : ∃ leader ∈ leaders rep length, leader ≤ i ∧
        rep leader = rep i := exists_leader inside
    obtain ⟨pos, at_⟩ := List.mem_iff_getElem?.mp leads
    refine ⟨pos, ⟨members rep length leader, ?_, mem_members.mpr ⟨inside, same.symm⟩⟩, ?_⟩
    · rw [List.getElem?_map, at_]
      rfl
    · intro other ⟨group, held, member⟩
      rw [List.getElem?_map] at held
      obtain ⟨another, there, rfl⟩ := Option.map_eq_some_iff.mp held
      have equal : rep leader = rep another := same.trans (mem_members.mp member).2
      have twin := leader_unique leads (List.mem_of_getElem? there) equal
      have nodup : (leaders rep length).Nodup := (leaders_sorted rep length).imp Nat.ne_of_lt
      have reach : other < (leaders rep length).length :=
        (List.getElem?_eq_some_iff.mp there).1
      exact (List.getElem?_inj reach nodup).mp (by rw [there, at_, twin])
  classes := by
    intro group listed i member
    obtain ⟨leader, leads, rfl⟩ := List.mem_map.mp listed
    obtain ⟨inside, same⟩ := mem_members.mp member
    refine ⟨inside, ?_⟩
    intro j
    rw [mem_members, ← classes, same]
    constructor
    · intro ⟨below, equal⟩
      exact ⟨below, equal.symm⟩
    · intro ⟨below, equal⟩
      exact ⟨below, equal.symm⟩

/-- Links in one orientation connect what links in both do. -/
theorem eqvGen_oriented {length : Nat} {linked : Nat → Nat → Bool}
    (symmetric : ∀ x y, linked x y = linked y x) {x y : Nat} :
    Relation.EqvGen (fun x y => False ∨ ((x, y) ∈ indexPairs length ∧ linked x y = true)) x y ↔
      Connected length linked x y := by
  constructor
  · intro connected
    refine Relation.EqvGen.mono ?_ _ _ connected
    intro a b link
    rcases link with impossible | ⟨pair, linked⟩
    · exact impossible.elim
    · have bounds := mem_indexPairs.mp pair
      exact ⟨Nat.lt_trans bounds.1 bounds.2, bounds.2, linked⟩
  · intro connected
    induction connected with
    | rel a b link =>
      obtain ⟨left, right, holds⟩ := link
      rcases Nat.lt_trichotomy a b with before | same | after
      · exact Relation.EqvGen.rel a b (Or.inr ⟨mem_indexPairs.mpr ⟨before, right⟩, holds⟩)
      · rw [same]
        exact Relation.EqvGen.refl b
      · have back : linked b a = true := (symmetric b a).trans holds
        exact Relation.EqvGen.symm _ _
          (Relation.EqvGen.rel b a (Or.inr ⟨mem_indexPairs.mpr ⟨after, left⟩, back⟩))
    | refl a => exact Relation.EqvGen.refl a
    | symm a b _ ih => exact Relation.EqvGen.symm a b ih
    | trans a b c _ _ first second => exact Relation.EqvGen.trans a b c first second

/-- The groups are the connected components of the links: with at least as much fuel as there are
indices, every lookup ends, and each component stands once, ascending, by its first member. -/
theorem similarityComponents_components {length : Nat} {linked : Nat → Nat → Bool}
    (symmetric : ∀ x y, linked x y = linked y x) {fuel : Nat} (enough : length ≤ fuel) :
    ∃ groups, similarityComponents fuel length linked = some groups ∧
      Components length (Connected length linked) groups := by
  have start : Tracks length (fun _ _ => False) (List.range length) :=
    ⟨List.length_range, id, fun _ => 0, Forest.range length, classifies_id⟩
  have bounded : ∀ pair ∈ indexPairs length, pair.1 < length ∧ pair.2 < length := by
    intro pair member
    have bounds := mem_indexPairs.mp member
    exact ⟨Nat.lt_trans bounds.1 bounds.2, bounds.2⟩
  obtain ⟨parent, merged, size, rep, height, forest, classes⟩ :=
    @foldlM_mergeLinked fuel length linked enough _ bounded _ _ start
  obtain ⟨buckets, placed, sorted⟩ :=
    foldlM_place enough size forest (Nat.le_refl length)
  refine ⟨buckets.groups, ?_, ?_⟩
  · unfold similarityComponents
    rw [merged]
    show (do let buckets ← (List.range length).foldlM (Buckets.place fuel) { parent := parent }
             pure buckets.groups) = some buckets.groups
    rw [placed]
    rfl
  · rw [sorted.groups]
    apply components_leaders
    intro x y
    exact (classes x y).trans (eqvGen_oriented symmetric)

/-- A chain of three links in one group, and an index of its own. -/
theorem similarityComponents_chain :
    ∃ groups, similarityComponents 4 4 (fun x y => x + 1 = y ∧ y < 3 ∨ y + 1 = x ∧ x < 3) =
        some groups ∧
      Components 4 (Connected 4 fun x y => x + 1 = y ∧ y < 3 ∨ y + 1 = x ∧ x < 3) groups :=
  similarityComponents_components (by
    intro x y
    apply decide_eq_decide.mpr
    exact Or.comm) (Nat.le_refl 4)

end Texo.Semantics
