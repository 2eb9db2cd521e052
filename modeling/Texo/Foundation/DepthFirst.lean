import Mathlib.Data.List.Nodup
import Mathlib.Data.Set.Card
import Mathlib.Logic.Relation

/-! # Depth-first walks

A walk over the nodes reachable from some pending ones: the top of the stack is visited once, its
successors are put on top, and the walk ends when a target stands on top or nothing is pending.
-/
namespace Texo.Foundation

variable {Node : Type} (next : Node → List Node)

/-- A node is reached over successors. -/
def Reaches : Node → Node → Prop := Relation.ReflTransGen fun node successor => successor ∈ next node

/-- A walk for a target behind some seen nodes: the nodes it visits, and whether it meets the
target. -/
inductive Walk (target : Node) : List Node → List Node → List Node → Bool → Prop
  | met (seen rest : List Node) : Walk target seen (target :: rest) [] true
  | drained (seen : List Node) : Walk target seen [] [] false
  | again {seen rest visited : List Node} {node : Node} {met : Bool} (other : node ≠ target)
      (known : node ∈ seen) (later : Walk target seen rest visited met) :
      Walk target seen (node :: rest) visited met
  | visit {seen rest visited : List Node} {node : Node} {met : Bool} (other : node ≠ target)
      (fresh : node ∉ seen)
      (later : Walk target (node :: seen) ((next node).reverse ++ rest) visited met) :
      Walk target seen (node :: rest) (node :: visited) met

variable {next}

namespace Walk

/-- Two walks from the same nodes are one walk. -/
theorem agree {target : Node} {seen pending visited visited' : List Node} {met met' : Bool}
    (walk : Walk next target seen pending visited met)
    (other : Walk next target seen pending visited' met') : visited = visited' ∧ met = met' := by
  induction walk generalizing visited' met' with
  | met seen rest =>
    cases other with
    | met => exact ⟨rfl, rfl⟩
    | again apart => exact absurd rfl apart
    | visit apart => exact absurd rfl apart
  | drained seen =>
    cases other
    exact ⟨rfl, rfl⟩
  | again apart known later ih =>
    cases other with
    | met => exact absurd rfl apart
    | again _ _ later' => exact ih later'
    | visit _ fresh _ => exact absurd known fresh
  | visit apart fresh later ih =>
    cases other with
    | met => exact absurd rfl apart
    | again _ known _ => exact absurd known fresh
    | visit _ _ later' =>
      obtain ⟨same, ends⟩ := ih later'
      exact ⟨congrArg _ same, ends⟩

/-- A walk that meets its target reaches it from a pending node. -/
theorem reaches {target : Node} {seen pending visited : List Node} {met : Bool}
    (walk : Walk next target seen pending visited met) (found : met = true) :
    ∃ node ∈ pending, Reaches next node target := by
  induction walk with
  | met seen rest => exact ⟨target, List.mem_cons_self, .refl⟩
  | drained seen => cases found
  | again other known later ih =>
    obtain ⟨node, pending, path⟩ := ih found
    exact ⟨node, List.mem_cons_of_mem _ pending, path⟩
  | @visit seen rest visited node met other fresh later ih =>
    obtain ⟨start, pending, path⟩ := ih found
    rcases List.mem_append.mp pending with successor | old
    · exact ⟨node, List.mem_cons_self, .head (List.mem_reverse.mp successor) path⟩
    · exact ⟨start, List.mem_cons_of_mem _ old, path⟩

/-- What a walk visits is reached from a pending node. -/
theorem visited_reached {target : Node} {seen pending visited : List Node} {met : Bool}
    (walk : Walk next target seen pending visited met) :
    ∀ node ∈ visited, ∃ start ∈ pending, Reaches next start node := by
  induction walk with
  | met seen rest => simp
  | drained seen => simp
  | again other known later ih =>
    intro node member
    obtain ⟨start, pending, path⟩ := ih node member
    exact ⟨start, List.mem_cons_of_mem _ pending, path⟩
  | @visit seen rest visited top met other fresh later ih =>
    intro node member
    rcases List.mem_cons.mp member with rfl | behind
    · exact ⟨node, List.mem_cons_self, .refl⟩
    · obtain ⟨start, pending, path⟩ := ih node behind
      rcases List.mem_append.mp pending with successor | old
      · exact ⟨top, List.mem_cons_self, .head (List.mem_reverse.mp successor) path⟩
      · exact ⟨start, List.mem_cons_of_mem _ old, path⟩

/-- A walk that drains has visited every pending node it had not seen, with all successors, and
the target is none of them. -/
theorem drained_closed {target : Node} {seen pending visited : List Node} {met : Bool}
    (walk : Walk next target seen pending visited met) (lost : met = false) :
    (∀ node ∈ pending, node ∈ seen ∨ node ∈ visited) ∧
      (∀ node ∈ visited, ∀ successor ∈ next node, successor ∈ seen ∨ successor ∈ visited) ∧
      target ∉ pending ∧ target ∉ visited := by
  induction walk with
  | met seen rest => cases lost
  | drained seen => simp
  | again other known later ih =>
    obtain ⟨pending, closed, apart, unvisited⟩ := ih lost
    refine ⟨?_, closed, ?_, unvisited⟩
    · intro node member
      rcases List.mem_cons.mp member with rfl | behind
      · exact Or.inl known
      · exact pending node behind
    · intro member
      rcases List.mem_cons.mp member with same | behind
      · exact other same.symm
      · exact apart behind
  | @visit seen rest visited top met other fresh later ih =>
    obtain ⟨pending, closed, apart, unvisited⟩ := ih lost
    have moved : ∀ node, node ∈ top :: seen ∨ node ∈ visited → node ∈ seen ∨ node ∈ top :: visited := by
      intro node either
      rcases either with known | behind
      · rcases List.mem_cons.mp known with rfl | old
        · exact Or.inr List.mem_cons_self
        · exact Or.inl old
      · exact Or.inr (List.mem_cons_of_mem _ behind)
    refine ⟨?_, ?_, ?_, ?_⟩
    · intro node member
      rcases List.mem_cons.mp member with rfl | behind
      · exact Or.inr List.mem_cons_self
      · exact moved node (pending node (List.mem_append_right _ behind))
    · intro node member successor direct
      rcases List.mem_cons.mp member with rfl | behind
      · exact moved successor
          (pending successor (List.mem_append_left _ (List.mem_reverse.mpr direct)))
      · exact moved successor (closed node behind successor direct)
    · intro member
      rcases List.mem_cons.mp member with same | behind
      · exact other same.symm
      · exact apart (List.mem_append_right _ behind)
    · intro member
      rcases List.mem_cons.mp member with same | behind
      · exact other same.symm
      · exact unvisited behind

/-- A walk from one node that drains has visited exactly what the node reaches. -/
theorem drained_visits {target start : Node} {visited : List Node}
    (walk : Walk next target [] [start] visited false) (node : Node) :
    Reaches next start node ↔ node ∈ visited := by
  obtain ⟨pending, closed, _⟩ := walk.drained_closed rfl
  constructor
  · intro path
    induction path with
    | refl =>
      rcases pending start List.mem_cons_self with known | visited
      · cases known
      · exact visited
    | tail _ direct ih =>
      rcases closed _ ih _ direct with known | visited
      · cases known
      · exact visited
  · intro member
    obtain ⟨source, pending, path⟩ := walk.visited_reached node member
    rw [List.mem_singleton.mp pending] at path
    exact path

/-- A walk from one node that drains has not been able to reach its target. -/
theorem drained_unreached {target start : Node} {visited : List Node}
    (walk : Walk next target [] [start] visited false) : ¬ Reaches next start target := by
  intro path
  exact (walk.drained_closed rfl).2.2.2 ((walk.drained_visits target).mp path)

end Walk

end Texo.Foundation
