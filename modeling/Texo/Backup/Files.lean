import Mathlib.Data.List.Induction
import Texo.Backup.Tree

/-! # Changing a tree

Files and directories are put into a tree and removed from it; part of a tree is a tree of its own.
Each change is described by what is found afterwards.
-/
namespace Texo.Backup

/-- Something can be put at a path: its directory is there, and it is no directory itself. -/
structure Tree.Placeable (tree : Tree) (path : List EntryName) : Prop where
  named : path ≠ []
  inside : path.dropLast = [] ∨ tree.find? path.dropLast = some .directory
  leaf : tree.find? path ≠ some .directory

instance (tree : Tree) (path : List EntryName) : Decidable (tree.Placeable path) :=
  decidable_of_iff (path ≠ [] ∧
    (path.dropLast = [] ∨ tree.find? path.dropLast = some .directory) ∧
      tree.find? path ≠ some .directory)
    ⟨fun held => ⟨held.1, held.2.1, held.2.2⟩, fun held => ⟨held.named, held.inside, held.leaf⟩⟩

/-- A path is not its own directory. -/
theorem dropLast_ne {path : List EntryName} (named : path ≠ []) : path.dropLast ≠ path := by
  intro same
  have shorter := congrArg List.length same
  have positive := List.length_pos_of_ne_nil named
  rw [List.length_dropLast] at shorter
  omega

/-- The tree with something put at a path, where that is possible. -/
def Tree.place (tree : Tree) (path : List EntryName) (kind : EntryKind) : Tree :=
  if free : tree.Placeable path then
    { entries := (path, kind) :: tree.entries.filter fun entry => entry.1 ≠ path
      distinct := by
        rw [List.map_cons, List.nodup_cons]
        constructor
        · intro member
          obtain ⟨entry, kept, same⟩ := List.mem_map.mp member
          exact absurd same (of_decide_eq_true (List.mem_filter.mp kept).2)
        · exact tree.distinct.sublist (List.filter_sublist.map _)
      rooted := by
        intro entry member
        have parent {above : List EntryName} (found : tree.find? above = some .directory)
            (apart : above ≠ path) : (above, EntryKind.directory) ∈
              (path, kind) :: tree.entries.filter fun entry => entry.1 ≠ path := by
          apply List.mem_cons_of_mem
          apply List.mem_filter.mpr
          exact ⟨Tree.find?_eq_some.mp found, decide_eq_true apart⟩
        cases List.mem_cons.mp member with
        | inl new =>
          rw [new]
          refine ⟨free.named, ?_⟩
          cases free.inside with
          | inl top => exact Or.inl top
          | inr found => exact Or.inr (parent found (dropLast_ne free.named))
        | inr old =>
          have listed := (List.mem_filter.mp old).1
          obtain ⟨named, above⟩ := tree.rooted entry listed
          refine ⟨named, ?_⟩
          cases above with
          | inl top => exact Or.inl top
          | inr directory =>
            have found := Tree.find?_eq_some.mpr directory
            refine Or.inr (parent found ?_)
            intro same
            rw [same] at found
            exact free.leaf found }
  else
    tree

/-- What was put is found; the rest is as it was. -/
theorem Tree.find?_place {tree : Tree} {path : List EntryName} (free : tree.Placeable path)
    (kind : EntryKind) (other : List EntryName) :
    (tree.place path kind).find? other = if other = path then some kind else tree.find? other := by
  apply Option.ext
  intro found
  rw [Tree.find?_eq_some]
  unfold place
  rw [dif_pos free]
  by_cases same : other = path
  · rw [if_pos same, same]
    constructor
    · intro member
      cases List.mem_cons.mp member with
      | inl here =>
        cases here
        rfl
      | inr old => exact absurd rfl (of_decide_eq_true (List.mem_filter.mp old).2)
    · intro here
      rw [Option.some.inj here]
      exact List.mem_cons_self
  · rw [if_neg same, Tree.find?_eq_some]
    constructor
    · intro member
      cases List.mem_cons.mp member with
      | inl here =>
        cases here
        exact absurd rfl same
      | inr old => exact (List.mem_filter.mp old).1
    · intro listed
      exact List.mem_cons_of_mem _ (List.mem_filter.mpr ⟨listed, decide_eq_true same⟩)

/-- What is put at one path leaves the others as they were. -/
theorem Tree.find?_place_of_ne {tree : Tree} {path other : List EntryName} (apart : other ≠ path)
    (kind : EntryKind) : (tree.place path kind).find? other = tree.find? other := by
  by_cases free : tree.Placeable path
  · rw [Tree.find?_place free, if_neg apart]
  · unfold place
    rw [dif_neg free]

/-- `remove_dir_all`: the tree without a path and what is below it. -/
def Tree.removeAll (tree : Tree) (path : List EntryName) : Tree where
  entries := tree.entries.filter fun entry => ¬path <+: entry.1
  distinct := tree.distinct.sublist (List.filter_sublist.map _)
  rooted := by
    intro entry member
    obtain ⟨listed, kept⟩ := List.mem_filter.mp member
    have apart : ¬path <+: entry.1 := of_decide_eq_true kept
    obtain ⟨named, above⟩ := tree.rooted entry listed
    refine ⟨named, ?_⟩
    cases above with
    | inl top => exact Or.inl top
    | inr directory =>
      refine Or.inr (List.mem_filter.mpr ⟨directory, decide_eq_true ?_⟩)
      exact fun below => apart (below.trans (List.dropLast_prefix entry.1))

/-- Nothing is found where all was removed; the rest is as it was. -/
theorem Tree.find?_removeAll (tree : Tree) (path other : List EntryName) :
    (tree.removeAll path).find? other = if path <+: other then none else tree.find? other := by
  apply Option.ext
  intro found
  rw [Tree.find?_eq_some]
  show (other, found) ∈ tree.entries.filter _ ↔ _
  rw [List.mem_filter]
  by_cases below : path <+: other
  · rw [if_pos below]
    constructor
    · rintro ⟨_, kept⟩
      exact absurd below (of_decide_eq_true kept)
    · intro none
      cases none
  · rw [if_neg below, Tree.find?_eq_some]
    exact ⟨And.left, fun listed => ⟨listed, decide_eq_true below⟩⟩

/-- Where nothing stands, nothing stands below. -/
theorem Tree.find?_of_below {tree : Tree} {path : List EntryName} (named : path ≠ [])
    (absent : tree.find? path = none) (rest : List EntryName) : tree.find? (path ++ rest) = none := by
  induction rest using List.reverseRecOn with
  | nil => rw [List.append_nil, absent]
  | append_singleton rest name ih =>
    rw [← List.append_assoc]
    cases found : tree.find? (path ++ rest ++ [name]) with
    | none => rfl
    | some kind =>
      have inner : path ++ rest ≠ [] := fun empty => named (List.append_eq_nil_iff.mp empty).1
      rw [Tree.find?_below found inner] at ih
      cases ih

/-- A path below another, less that one. -/
theorem append_drop {path whole : List EntryName} (below : path <+: whole) :
    path ++ whole.drop path.length = whole := by
  obtain ⟨rest, same⟩ := below
  rw [← same, List.drop_left]

/-- The tree below a path. -/
def Tree.subtree (tree : Tree) (path : List EntryName) : Tree where
  entries := (tree.entries.filter fun entry => path <+: entry.1 ∧ entry.1 ≠ path).map fun entry =>
    (entry.1.drop path.length, entry.2)
  distinct := by
    have cut : ((tree.entries.filter fun entry => path <+: entry.1 ∧ entry.1 ≠ path).map
        fun entry => (entry.1.drop path.length, entry.2)).map Prod.fst =
        ((tree.entries.filter fun entry => path <+: entry.1 ∧ entry.1 ≠ path).map Prod.fst).map
          fun whole => whole.drop path.length := by
      rw [List.map_map, List.map_map]
      rfl
    rw [cut]
    apply List.Nodup.map_on _ (tree.distinct.sublist (List.filter_sublist.map _))
    have below {whole : List EntryName} (member : whole ∈ (tree.entries.filter fun entry =>
        path <+: entry.1 ∧ entry.1 ≠ path).map Prod.fst) : path <+: whole := by
      obtain ⟨entry, kept, same⟩ := List.mem_map.mp member
      rw [← same]
      exact (of_decide_eq_true (List.mem_filter.mp kept).2).1
    intro whole member other again same
    rw [← append_drop (below member), ← append_drop (below again), same]
  rooted := by
    intro entry member
    obtain ⟨listed, kept, same⟩ := List.mem_map.mp member
    obtain ⟨inside, taken⟩ := List.mem_filter.mp kept
    obtain ⟨below, apart⟩ : path <+: listed.1 ∧ listed.1 ≠ path := of_decide_eq_true taken
    have whole := append_drop below
    have named : listed.1.drop path.length ≠ [] := by
      intro empty
      rw [empty, List.append_nil] at whole
      exact apart whole.symm
    rw [← same]
    refine ⟨named, ?_⟩
    by_cases top : (listed.1.drop path.length).dropLast = []
    · exact Or.inl top
    · right
      have parent : listed.1.dropLast = path ++ (listed.1.drop path.length).dropLast := by
        rw [← List.dropLast_append_of_ne_nil named, whole]
      have above := (tree.rooted listed inside).2
      rw [parent] at above
      cases above with
      | inl empty => exact absurd (List.append_eq_nil_iff.mp empty).2 top
      | inr directory =>
        refine List.mem_map.mpr ⟨_, List.mem_filter.mpr ⟨directory, decide_eq_true ?_⟩, ?_⟩
        · exact ⟨List.prefix_append _ _, fun same => top (List.append_right_eq_self.mp same)⟩
        · exact congrArg (fun rest => (rest, EntryKind.directory)) List.drop_left

/-- What is found in a subtree is found below its path. -/
theorem Tree.find?_subtree (tree : Tree) (path : List EntryName) {rest : List EntryName}
    (inner : rest ≠ []) : (tree.subtree path).find? rest = tree.find? (path ++ rest) := by
  apply Option.ext
  intro found
  rw [Tree.find?_eq_some, Tree.find?_eq_some]
  constructor
  · intro member
    obtain ⟨listed, kept, same⟩ := List.mem_map.mp member
    obtain ⟨inside, taken⟩ := List.mem_filter.mp kept
    obtain ⟨below, _⟩ : path <+: listed.1 ∧ listed.1 ≠ path := of_decide_eq_true taken
    cases same
    rw [append_drop below]
    exact inside
  · intro listed
    refine List.mem_map.mpr ⟨_, List.mem_filter.mpr ⟨listed, decide_eq_true ?_⟩, ?_⟩
    · exact ⟨List.prefix_append _ _, fun same => inner (List.append_right_eq_self.mp same)⟩
    · exact congrArg (fun rest => (rest, found)) List.drop_left

end Texo.Backup
