import Mathlib.Data.List.Basic
import Mathlib.Data.Nat.Basic
import Mathlib.Order.Basic

/-! # Nested blocks

A stream of opening and closing events is the walk through a nesting of blocks, each over a range
of offsets. Some blocks hide what is in them, and some of the others are kept. A kept block that is
in no other kept block and not hidden is an outermost one: these lie apart, and hold every other.
-/
namespace Texo.Foundation

/-- Blocks and leaves in order, each block with what is nested in it. -/
inductive Nesting (Tag Leaf : Type) where
  | nil
  | leaf (leaf : Leaf) (rest : Nesting Tag Leaf)
  | block (tag : Tag) (start stop : Nat) (inner rest : Nesting Tag Leaf)

/-- One event of a walk. -/
inductive NestingEvent (Tag Leaf : Type) where
  | opens (tag : Tag) (start stop : Nat)
  | closes (tag : Tag)
  | leaf (leaf : Leaf)
deriving DecidableEq, Repr

variable {Tag Leaf : Type}

/-- The walk through a nesting. -/
def Nesting.events : Nesting Tag Leaf → List (NestingEvent Tag Leaf)
  | nil => []
  | leaf item rest => .leaf item :: rest.events
  | block tag start stop inner rest =>
    .opens tag start stop :: (inner.events ++ .closes tag :: rest.events)

/-- Blocks lie in order within a range and within the blocks around them, and are cut out of it at
allowed offsets. -/
def Nesting.Within (cut : Nat → Prop) : Nat → Nat → Nesting Tag Leaf → Prop
  | first, last, nil => first ≤ last
  | first, last, leaf _ rest => rest.Within cut first last
  | first, last, block _ start stop inner rest =>
    first ≤ start ∧ cut start ∧ cut stop ∧ inner.Within cut start stop ∧ rest.Within cut stop last

/-- A range inside another. -/
structure Inside (first last : Nat) (range : Nat × Nat) : Prop where
  after : first ≤ range.1
  forward : range.1 ≤ range.2
  before : range.2 ≤ last

/-- A range inside another is inside a wider one. -/
theorem Inside.widen {first last first' last' : Nat} {range : Nat × Nat}
    (inside : Inside first last range) (left : first' ≤ first) (right : last ≤ last') :
    Inside first' last' range :=
  ⟨left.trans inside.after, inside.forward, inside.before.trans right⟩

/-- A nesting lies in a range that runs forward. -/
theorem Nesting.Within.forward {cut : Nat → Prop} {first last : Nat} {nesting : Nesting Tag Leaf}
    (within : nesting.Within cut first last) : first ≤ last := by
  induction nesting generalizing first last with
  | nil => exact within
  | leaf leaf rest ih => exact ih within
  | block tag start stop inner rest ihInner ihRest =>
    obtain ⟨after, _, _, inside, behind⟩ := within
    have one := ihInner inside
    have two := ihRest behind
    omega

section Kinds

variable (hides keeps : Tag → Bool)

/-- The blocks that hide, at any depth. -/
def Nesting.hidden : Nesting Tag Leaf → List (Nat × Nat)
  | nil => []
  | leaf _ rest => rest.hidden
  | block tag start stop inner rest =>
    (if hides tag then [(start, stop)] else []) ++ inner.hidden ++ rest.hidden

/-- The kept blocks that are not hidden, at any depth. -/
def Nesting.shown : Nesting Tag Leaf → List (Nat × Nat)
  | nil => []
  | leaf _ rest => rest.shown
  | block tag start stop inner rest =>
    (if hides tag then [] else (if keeps tag then [(start, stop)] else []) ++ inner.shown) ++
      rest.shown

/-- The outermost kept blocks that are not hidden, with what is nested in them. -/
def Nesting.outermost : Nesting Tag Leaf → List ((Nat × Nat) × Nesting Tag Leaf)
  | nil => []
  | leaf _ rest => rest.outermost
  | block tag start stop inner rest =>
    (if hides tag then [] else if keeps tag then [((start, stop), inner)] else inner.outermost) ++
      rest.outermost

/-- The kept blocks that are not hidden and open after another one has closed. -/
def Nesting.second : Nesting Tag Leaf → List (Nat × Nat)
  | nil => []
  | leaf _ rest => rest.second
  | block tag _ _ inner rest =>
    (if hides tag then [] else inner.second) ++
      if hides tag = false ∧ (keeps tag = true ∨ inner.shown hides keeps ≠ []) then
        rest.shown hides keeps
      else
        rest.second

variable {hides keeps}

/-- Hiding blocks lie within the range of their nesting. -/
theorem Nesting.Within.hidden {cut : Nat → Prop} {first last : Nat} {nesting : Nesting Tag Leaf}
    (within : nesting.Within cut first last) :
    ∀ range ∈ nesting.hidden hides, Inside first last range := by
  induction nesting generalizing first last with
  | nil => simp [Nesting.hidden]
  | leaf leaf rest ih => exact ih within
  | block tag start stop inner rest ihInner ihRest =>
    obtain ⟨after, _, _, inside, behind⟩ := within
    have one := inside.forward
    have two := behind.forward
    intro range member
    unfold Nesting.hidden at member
    rcases List.mem_append.mp member with here | later
    · rcases List.mem_append.mp here with own | nested
      · split at own
        · rw [List.mem_singleton.mp own]
          exact ⟨after, one, two⟩
        · cases own
      · exact (ihInner inside range nested).widen after two
    · exact (ihRest behind range later).widen (after.trans one) le_rfl

/-- Shown blocks lie within the range of their nesting, between allowed offsets. -/
theorem Nesting.Within.shown {cut : Nat → Prop} {first last : Nat} {nesting : Nesting Tag Leaf}
    (within : nesting.Within cut first last) :
    ∀ range ∈ nesting.shown hides keeps,
      Inside first last range ∧ cut range.1 ∧ cut range.2 := by
  induction nesting generalizing first last with
  | nil => simp [Nesting.shown]
  | leaf leaf rest ih => exact ih within
  | block tag start stop inner rest ihInner ihRest =>
    obtain ⟨after, cutStart, cutStop, inside, behind⟩ := within
    have one := inside.forward
    have two := behind.forward
    intro range member
    unfold Nesting.shown at member
    rcases List.mem_append.mp member with here | later
    · split at here
      · cases here
      · rcases List.mem_append.mp here with own | nested
        · split at own
          · rw [List.mem_singleton.mp own]
            exact ⟨⟨after, one, two⟩, cutStart, cutStop⟩
          · cases own
        · obtain ⟨lies, cuts⟩ := ihInner inside range nested
          exact ⟨lies.widen after two, cuts⟩
    · obtain ⟨lies, cuts⟩ := ihRest behind range later
      exact ⟨lies.widen (after.trans one) le_rfl, cuts⟩

/-- Outermost blocks lie within the range of their nesting, and their inner blocks within them. -/
theorem Nesting.Within.outermost {cut : Nat → Prop} {first last : Nat} {nesting : Nesting Tag Leaf}
    (within : nesting.Within cut first last) :
    ∀ outer ∈ nesting.outermost hides keeps, Inside first last outer.1 ∧
      (cut outer.1.1 ∧ cut outer.1.2) ∧ outer.2.Within cut outer.1.1 outer.1.2 := by
  induction nesting generalizing first last with
  | nil => simp [Nesting.outermost]
  | leaf leaf rest ih => exact ih within
  | block tag start stop inner rest ihInner ihRest =>
    obtain ⟨after, cutStart, cutStop, inside, behind⟩ := within
    have one := inside.forward
    have two := behind.forward
    intro outer member
    unfold Nesting.outermost at member
    rcases List.mem_append.mp member with here | later
    · split at here
      · cases here
      · split at here
        · rw [List.mem_singleton.mp here]
          exact ⟨⟨after, one, two⟩, ⟨cutStart, cutStop⟩, inside⟩
        · obtain ⟨lies, rest⟩ := ihInner inside outer here
          exact ⟨lies.widen after two, rest⟩
    · obtain ⟨lies, rest⟩ := ihRest behind outer later
      exact ⟨lies.widen (after.trans one) le_rfl, rest⟩

/-- Outermost blocks lie apart, in order. -/
theorem Nesting.Within.apart {cut : Nat → Prop} {first last : Nat} {nesting : Nesting Tag Leaf}
    (within : nesting.Within cut first last) :
    (nesting.outermost hides keeps).Pairwise fun earlier later => earlier.1.2 ≤ later.1.1 := by
  induction nesting generalizing first last with
  | nil => exact List.Pairwise.nil
  | leaf leaf rest ih => exact ih within
  | block tag start stop inner rest ihInner ihRest =>
    obtain ⟨after, _, _, inside, behind⟩ := within
    unfold Nesting.outermost
    refine List.pairwise_append.mpr ⟨?_, ihRest behind, ?_⟩
    · split
      · exact List.Pairwise.nil
      · split
        · exact List.pairwise_singleton _ _
        · exact ihInner inside
    · intro earlier here later member
      have start := (behind.outermost later member).1.after
      split at here
      · cases here
      · split at here
        · rw [List.mem_singleton.mp here]
          exact start
        · exact ((inside.outermost earlier here).1.before).trans start

/-- A shown block is outermost, or nested in an outermost one. -/
theorem Nesting.shown_outermost {nesting : Nesting Tag Leaf} :
    ∀ range ∈ nesting.shown hides keeps, ∃ outer ∈ nesting.outermost hides keeps,
      range = outer.1 ∨ range ∈ outer.2.shown hides keeps := by
  induction nesting with
  | nil => simp [Nesting.shown]
  | leaf leaf rest ih => exact ih
  | block tag start stop inner rest ihInner ihRest =>
    intro range member
    unfold Nesting.shown at member
    unfold Nesting.outermost
    rcases List.mem_append.mp member with here | later
    · split at here
      · cases here
      · rename_i plain
        rw [if_neg plain]
        split at here
        · rename_i kept
          rw [if_pos kept]
          refine ⟨((start, stop), inner), by simp, ?_⟩
          rcases List.mem_append.mp here with own | nested
          · exact Or.inl (List.mem_singleton.mp own)
          · exact Or.inr nested
        · rename_i through
          rw [if_neg through]
          obtain ⟨outer, listed, held⟩ := ihInner range here
          exact ⟨outer, List.mem_append_left _ listed, held⟩
    · obtain ⟨outer, listed, held⟩ := ihRest range later
      exact ⟨outer, List.mem_append_right _ listed, held⟩

/-- What hides in an outermost block hides. -/
theorem Nesting.outermost_hidden {nesting : Nesting Tag Leaf} :
    ∀ outer ∈ nesting.outermost hides keeps, ∀ range ∈ outer.2.hidden hides,
      range ∈ nesting.hidden hides := by
  induction nesting with
  | nil => simp [Nesting.outermost]
  | leaf leaf rest ih => exact ih
  | block tag start stop inner rest ihInner ihRest =>
    intro outer member range inside
    unfold Nesting.outermost at member
    unfold Nesting.hidden
    rcases List.mem_append.mp member with here | later
    · apply List.mem_append_left
      apply List.mem_append_right
      split at here
      · cases here
      · split at here
        · rw [List.mem_singleton.mp here] at inside
          exact inside
        · exact ihInner outer here range inside
    · exact List.mem_append_right _ (ihRest outer later range inside)

/-- A block that opens after another has closed is shown. -/
theorem Nesting.second_shown {nesting : Nesting Tag Leaf} :
    ∀ range ∈ nesting.second hides keeps, range ∈ nesting.shown hides keeps := by
  induction nesting with
  | nil => simp [Nesting.second]
  | leaf leaf rest ih => exact ih
  | block tag start stop inner rest ihInner ihRest =>
    intro range member
    unfold Nesting.second at member
    unfold Nesting.shown
    rcases List.mem_append.mp member with here | later
    · apply List.mem_append_left
      split at here
      · cases here
      · rename_i plain
        rw [if_neg plain]
        exact List.mem_append_right _ (ihInner range here)
    · apply List.mem_append_right
      split at later
      · exact later
      · exact ihRest range later

/-- A hiding block is nested in an outermost block, or apart from it. -/
theorem Nesting.Within.hidden_apart {cut : Nat → Prop} {first last : Nat}
    {nesting : Nesting Tag Leaf} (within : nesting.Within cut first last) :
    ∀ range ∈ nesting.hidden hides, ∀ outer ∈ nesting.outermost hides keeps,
      range ∈ outer.2.hidden hides ∨ range.2 ≤ outer.1.1 ∨ outer.1.2 ≤ range.1 := by
  induction nesting generalizing first last with
  | nil => simp [Nesting.hidden]
  | leaf leaf rest ih => exact ih within
  | block tag start stop inner rest ihInner ihRest =>
    obtain ⟨after, _, _, inside, behind⟩ := within
    intro range member outer listed
    unfold Nesting.hidden at member
    unfold Nesting.outermost at listed
    rcases List.mem_append.mp member with early | late
    · have ends : range.2 ≤ stop := by
        rcases List.mem_append.mp early with own | nested
        · split at own
          · exact (congrArg Prod.snd (List.mem_singleton.mp own)).le
          · cases own
        · exact (inside.hidden range nested).before
      rcases List.mem_append.mp listed with here | later
      · split at here
        · cases here
        · rename_i plain
          rw [if_neg plain, List.nil_append] at early
          split at here
          · rw [List.mem_singleton.mp here]
            exact Or.inl early
          · exact ihInner inside range early outer here
      · exact Or.inr (Or.inl (ends.trans (behind.outermost outer later).1.after))
    · have starts := (behind.hidden range late).after
      rcases List.mem_append.mp listed with here | later
      · have ends : outer.1.2 ≤ stop := by
          split at here
          · cases here
          · split at here
            · rw [List.mem_singleton.mp here]
            · exact (inside.outermost outer here).1.before
        exact Or.inr (Or.inr (ends.trans starts))
      · exact ihRest behind range late outer later

end Kinds

end Texo.Foundation
