import Mathlib.Data.Sym.Sym2
import Mathlib.Data.Finset.Card
import Mathlib.Data.Finset.Image

/-! # Counting unordered pairs

Sets of ordered pairs, read as unordered ones. What is left of one set without another has one
ordered pair for each unordered one exactly where no pair is met again turned around.
-/
namespace Texo.Foundation

variable {α : Type} [DecidableEq α]

/-- The unordered pair of an ordered one. -/
def unordered (pair : α × α) : Sym2 α := s(pair.1, pair.2)

/-- The unordered pairs of a set of ordered ones. -/
def unorderedPairs (pairs : Finset (α × α)) : Finset (Sym2 α) := pairs.image unordered

omit [DecidableEq α] in
/-- Two ordered pairs are one unordered pair where they are equal or turned around. -/
theorem unordered_eq_iff {pair other : α × α} :
    unordered pair = unordered other ↔ pair = other ∨ pair = other.swap := by
  unfold unordered
  rw [Sym2.eq_iff, Prod.ext_iff, Prod.ext_iff, Prod.fst_swap, Prod.snd_swap]

/-- A set of ordered pairs holds an unordered one in either orientation. -/
theorem unordered_mem {pairs : Finset (α × α)} {pair : α × α} :
    unordered pair ∈ unorderedPairs pairs ↔ pair ∈ pairs ∨ pair.swap ∈ pairs := by
  unfold unorderedPairs
  rw [Finset.mem_image]
  constructor
  · intro ⟨other, member, same⟩
    rcases unordered_eq_iff.mp same with rfl | rfl
    · exact Or.inl member
    · exact Or.inr member
  · rintro (member | member)
    · exact ⟨pair, member, rfl⟩
    · exact ⟨pair.swap, member, unordered_eq_iff.mpr (Or.inr rfl)⟩

/-- No pair that is left is in the other set turned around, or left turned around itself. -/
def OneOrientation (pairs without : Finset (α × α)) : Prop :=
  ∀ pair ∈ pairs, pair ∉ without →
    pair.swap ∉ without ∧ (pair.swap ∈ pairs → pair.swap = pair)

/-- The pairs left are as many as the unordered ones left exactly where each is left in one
orientation. -/
theorem card_sdiff_iff (pairs without : Finset (α × α)) :
    (pairs \ without).card = (unorderedPairs pairs \ unorderedPairs without).card ↔
      OneOrientation pairs without := by
  have among : unorderedPairs pairs \ unorderedPairs without ⊆
      unorderedPairs (pairs \ without) := by
    intro pair member
    obtain ⟨inside, outside⟩ := Finset.mem_sdiff.mp member
    obtain ⟨ordered, held, rfl⟩ := Finset.mem_image.mp inside
    have left : ordered ∉ without := fun also => outside (unordered_mem.mpr (Or.inl also))
    exact Finset.mem_image_of_mem unordered (Finset.mem_sdiff.mpr ⟨held, left⟩)
  have fewer : (unorderedPairs pairs \ unorderedPairs without).card ≤
      (unorderedPairs (pairs \ without)).card := Finset.card_le_card among
  have least : (unorderedPairs (pairs \ without)).card ≤ (pairs \ without).card :=
    Finset.card_image_le
  constructor
  · intro same pair held left
    have injective : Set.InjOn unordered ((pairs \ without : Finset (α × α)) : Set (α × α)) :=
      Finset.card_image_iff.mp (show (unorderedPairs (pairs \ without)).card = _ by omega)
    have whole : unorderedPairs pairs \ unorderedPairs without =
        unorderedPairs (pairs \ without) := Finset.eq_of_subset_of_card_le among (by omega)
    have here : pair ∈ pairs \ without := Finset.mem_sdiff.mpr ⟨held, left⟩
    have counted : unordered pair ∈ unorderedPairs pairs \ unorderedPairs without := by
      rw [whole]
      exact Finset.mem_image_of_mem unordered here
    have absent : pair.swap ∉ without := by
      intro turned
      exact (Finset.mem_sdiff.mp counted).2 (unordered_mem.mpr (Or.inr turned))
    refine ⟨absent, ?_⟩
    intro turned
    have also : pair.swap ∈ pairs \ without := Finset.mem_sdiff.mpr ⟨turned, absent⟩
    exact injective (Finset.mem_coe.mpr also) (Finset.mem_coe.mpr here)
      (unordered_eq_iff.mpr (Or.inr rfl))
  · intro one
    have whole : unorderedPairs (pairs \ without) ⊆
        unorderedPairs pairs \ unorderedPairs without := by
      intro other member
      obtain ⟨pair, here, rfl⟩ := Finset.mem_image.mp member
      obtain ⟨held, left⟩ := Finset.mem_sdiff.mp here
      refine Finset.mem_sdiff.mpr ⟨unordered_mem.mpr (Or.inl held), ?_⟩
      intro counted
      rcases unordered_mem.mp counted with straight | turned
      · exact left straight
      · exact (one pair held left).1 turned
    have injective : Set.InjOn unordered ((pairs \ without : Finset (α × α)) : Set (α × α)) := by
      intro pair here other there same
      obtain ⟨held, left⟩ := Finset.mem_sdiff.mp (Finset.mem_coe.mp here)
      obtain ⟨also, _⟩ := Finset.mem_sdiff.mp (Finset.mem_coe.mp there)
      rcases unordered_eq_iff.mp same with equal | turned
      · exact equal
      · have back : pair.swap = other := by rw [turned, Prod.swap_swap]
        have fixed := (one pair held left).2 (by rw [back]; exact also)
        rw [← back, fixed]
    have counted : (unorderedPairs (pairs \ without)).card = (pairs \ without).card :=
      Finset.card_image_iff.mpr injective
    have more := Finset.card_le_card whole
    omega

section OneWay

omit [DecidableEq α]

/-- No pair is listed in both orientations. -/
def OneWay (pairs : List (α × α)) : Prop := ∀ pair ∈ pairs, pair.swap ∉ pairs

/-- Fewer pairs are listed one way where more are. -/
theorem OneWay.subset {pairs wider : List (α × α)} (oneWay : OneWay wider)
    (among : ∀ pair ∈ pairs, pair ∈ wider) : OneWay pairs :=
  fun pair member turned => oneWay pair (among pair member) (among pair.swap turned)

/-- Pairs that are listed turned around neither before nor among themselves stay one way. -/
theorem OneWay.append {pairs more : List (α × α)} (oneWay : OneWay pairs) (also : OneWay more)
    (apart : ∀ pair ∈ more, pair.swap ∉ pairs) : OneWay (pairs ++ more) := by
  intro pair member turned
  rcases List.mem_append.mp member with before | after
  · rcases List.mem_append.mp turned with held | added
    · exact oneWay pair before held
    · apply apart pair.swap added
      rw [Prod.swap_swap]
      exact before
  · rcases List.mem_append.mp turned with held | added
    · exact apart pair after held
    · exact also pair after added

end OneWay

end Texo.Foundation
