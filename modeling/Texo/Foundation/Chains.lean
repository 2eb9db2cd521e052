import Mathlib.Data.Fintype.Card
import Mathlib.Data.Set.Finite.Basic
import Mathlib.Logic.Relation

/-! # Chains of successors

Following the edges of a relation from node to node. Where finitely many nodes can be reached and
no chain closes, every chain ends; where each node has one successor, a chain that comes to rest
does not close.
-/
namespace Texo.Foundation

variable {Node : Type} {edge : Node → Node → Prop} {rest : Node → Prop}

/-- No chain of edges leads back to where it began. -/
def Acyclic (edge : Node → Node → Prop) : Prop := ∀ node, ¬ Relation.TransGen edge node node

/-- Following edges from a node comes to a node at rest. -/
inductive Settles (edge : Node → Node → Prop) (rest : Node → Prop) : Node → Prop where
  | here {node : Node} (rests : rest node) : Settles edge rest node
  | next {node other : Node} (taken : edge node other) (onward : Settles edge rest other) :
      Settles edge rest node

/-- Among finitely many targets, edges without a closed chain lead on only finitely often. -/
theorem Acyclic.accessible (acyclic : Acyclic edge) {targets : List Node}
    (lands : ∀ node other, edge node other → other ∈ targets) (node : Node) :
    Acc (fun later earlier => edge earlier later) node := by
  let onward : {target // target ∈ targets} → {target // target ∈ targets} → Prop :=
    fun later earlier => Relation.TransGen edge earlier.1 later.1
  have transitive : IsTrans _ onward := ⟨fun _ _ _ first second => second.trans first⟩
  have irreflexive : Std.Irrefl onward := ⟨fun target closed => acyclic target.1 closed⟩
  have finite : Finite {target // target ∈ targets} := (List.finite_toSet targets).to_subtype
  have founded : WellFounded onward := Finite.wellFounded_of_trans_of_irrefl onward
  have reached : ∀ target : {target // target ∈ targets},
      Acc (fun later earlier => edge earlier later) target.1 := by
    intro target
    induction target using founded.induction with
    | _ target ih =>
      constructor
      intro other taken
      exact ih ⟨other, lands _ _ taken⟩ (Relation.TransGen.single taken)
  constructor
  intro other taken
  exact reached ⟨other, lands _ _ taken⟩

/-- Where no chain closes and every target rests or leads on, every node that leads on settles. -/
theorem Acyclic.settles (acyclic : Acyclic edge) {targets : List Node}
    (lands : ∀ node other, edge node other → other ∈ targets)
    (goes : ∀ node other, edge node other → rest other ∨ ∃ later, edge other later)
    {node other : Node} (taken : edge node other) : Settles edge rest node := by
  have reached := acyclic.accessible lands node
  induction reached generalizing other with
  | intro node _ ih =>
    refine .next taken ?_
    rcases goes node other taken with rests | ⟨later, onward⟩
    · exact .here rests
    · exact ih other taken onward

/-- Where no chain closes, a group of nodes has one without an edge into the group. -/
theorem Acyclic.exists_last (acyclic : Acyclic edge) {targets : List Node}
    (lands : ∀ node other, edge node other → other ∈ targets) {group : Set Node}
    (inhabited : group.Nonempty) : ∃ node ∈ group, ∀ other ∈ group, ¬ edge node other := by
  obtain ⟨start, member⟩ := inhabited
  have reached := acyclic.accessible lands start
  induction reached with
  | intro node _ ih =>
    by_cases onward : ∃ other ∈ group, edge node other
    · obtain ⟨other, inside, taken⟩ := onward
      exact ih other taken inside
    · push Not at onward
      exact ⟨node, member, onward⟩

/-- What settles along some edges settles along more of them. -/
theorem Settles.mono {more : Node → Node → Prop} (wider : ∀ node other, edge node other → more node other)
    {node : Node} (settles : Settles edge rest node) : Settles more rest node := by
  induction settles with
  | here rests => exact .here rests
  | next taken _ ih => exact .next (wider _ _ taken) ih

/-- Where each link of a chain is the only edge of its node, and no node at rest has a link, a node
that settles is on no closed chain. -/
theorem Settles.open {link : Node → Node → Prop} {node : Node} (settles : Settles edge rest node)
    (only : ∀ node one other, link node one → edge node other → one = other)
    (stops : ∀ node other, rest node → ¬ link node other) : ¬ Relation.TransGen link node node := by
  induction settles with
  | here rests =>
    intro closed
    obtain ⟨other, taken, _⟩ := Relation.TransGen.head'_iff.mp closed
    exact stops _ _ rests taken
  | next taken _ ih =>
    intro closed
    obtain ⟨other, first, back⟩ := Relation.TransGen.head'_iff.mp closed
    have same := only _ _ _ first taken
    rw [same] at first back
    exact ih (Relation.TransGen.tail' back first)

/-- A closed chain goes on from each of its nodes to another of them. -/
theorem closed_next {node : Node} (closed : Relation.TransGen edge node node) :
    ∃ other, edge node other ∧ Relation.TransGen edge other other := by
  obtain ⟨other, first, back⟩ := Relation.TransGen.head'_iff.mp closed
  exact ⟨other, first, Relation.TransGen.tail' back first⟩

end Texo.Foundation
