import Mathlib.Data.Set.Basic
import Mathlib.Logic.Relation

/-! # Sweeping a backlog

Every step marks the same window of a backlog and nothing else. Steps reach the rest of the
backlog only where it was marked before the first of them.
-/
namespace Texo.Foundation

variable {State Key : Type}

/-- Steps that mark the keys of a window and no others. -/
def Sweeps (step : State → State → Prop) (marked : State → Key → Prop) (window : Set Key)
    (start : State) : Prop :=
  ∀ state next, Relation.ReflTransGen step start state → step state next →
    ∀ key, marked next key ↔ marked state key ∨ key ∈ window

/-- While some key of the backlog is unmarked, the window has an unmarked one. -/
def Progresses (marked : State → Key → Prop) (window backlog : Set Key) (state : State) : Prop :=
  (∃ key ∈ backlog, ¬marked state key) → ∃ key ∈ window, ¬marked state key

/-- A sweep unmarks nothing. -/
theorem Sweeps.keeps {step : State → State → Prop} {marked : State → Key → Prop} {window : Set Key}
    {start state : State} (sweeps : Sweeps step marked window start)
    (reached : Relation.ReflTransGen step start state) {key : Key} (before : marked start key) :
    marked state key := by
  induction reached with
  | refl => exact before
  | tail run one ih => exact (sweeps _ _ run one key).mpr (Or.inl ih)

/-- Sweeps always progress, and mark the whole backlog, exactly where what they never consider
was marked before. -/
theorem Sweeps.progress_iff {step : State → State → Prop} {marked : State → Key → Prop}
    {window backlog : Set Key} {start next : State} (sweeps : Sweeps step marked window start)
    (first : step start next) :
    ((∀ state, Relation.ReflTransGen step start state →
        Progresses marked window backlog state) ∧
      ∃ state, Relation.ReflTransGen step start state ∧ ∀ key ∈ backlog, marked state key) ↔
    ∀ key ∈ backlog, key ∉ window → marked start key := by
  have swept := sweeps start next Relation.ReflTransGen.refl first
  have once : Relation.ReflTransGen step start next := Relation.ReflTransGen.single first
  constructor
  · rintro ⟨progress, _⟩ key behind outside
    by_contra unmarked
    have still : ¬marked next key := by
      rw [swept key]
      exact not_or.mpr ⟨unmarked, outside⟩
    obtain ⟨other, considered, left⟩ := progress next once ⟨key, behind, still⟩
    exact left ((swept other).mpr (Or.inr considered))
  · intro before
    constructor
    · rintro state reached ⟨key, behind, unmarked⟩
      by_cases considered : key ∈ window
      · exact ⟨key, considered, unmarked⟩
      · exact absurd (sweeps.keeps reached (before key behind considered)) unmarked
    · refine ⟨next, once, ?_⟩
      intro key behind
      rw [swept key]
      by_cases considered : key ∈ window
      · exact Or.inr considered
      · exact Or.inl (before key behind considered)

end Texo.Foundation
