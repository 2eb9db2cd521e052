import Mathlib.Data.List.Basic

/-! # Paths along edges

A machine is a list of edges; a path takes one after the other from a start. A fold over events
observes the machine when it stays quiet exactly as long as the events keep to the edges.
-/
namespace Texo.Foundation

variable {State Event Card : Type}

/-- A path along edges: every move leads to a state the present one has an edge to. -/
inductive EdgePath (edges : List (State × State)) : State → List (Option State) → State → Prop where
  | done (state : State) : EdgePath edges state [] state
  | move {state next final : State} {moves : List (Option State)} (edge : (state, next) ∈ edges)
    (rest : EdgePath edges next moves final) : EdgePath edges state (some next :: moves) final

/-- A fold that observes a machine: which cards are quiet, and which states a card stands in. -/
structure Observes (edges : List (State × State)) (step : Card → Event → Card)
    (target : Event → Option State) (quiet : Card → Prop) (stands : Card → State → Prop) :
    Prop where
  silent : ∀ {card state}, stands card state → quiet card
  lasting : ∀ {card event}, quiet (step card event) → quiet card
  legal : ∀ {card state event}, stands card state → quiet (step card event) →
    ∃ next, target event = some next ∧ (state, next) ∈ edges
  arrives : ∀ {card state event next}, stands card state → target event = some next →
    (state, next) ∈ edges → stands (step card event) next

variable {edges : List (State × State)} {step : Card → Event → Card}
  {target : Event → Option State} {quiet : Card → Prop} {stands : Card → State → Prop}

/-- A path ends in one state. -/
theorem EdgePath.unique {state final other : State} {moves : List (Option State)}
    (path : EdgePath edges state moves final) (twin : EdgePath edges state moves other) :
    final = other := by
  induction path with
  | done state =>
    cases twin
    rfl
  | move _ _ ih =>
    cases twin with
    | move _ rest => exact ih rest

/-- A fold that ends quiet was quiet at its start. -/
theorem Observes.quiet_start (observes : Observes edges step target quiet stands)
    {events : List Event} {card : Card} (silence : quiet (events.foldl step card)) : quiet card := by
  induction events generalizing card with
  | nil => exact silence
  | cons event rest ih =>
    have later : quiet (step card event) := ih silence
    exact observes.lasting later

/-- Along a path, the fold stands where the path ends. -/
theorem Observes.stands_of_path (observes : Observes edges step target quiet stands)
    {events : List Event} {card : Card} {state final : State} (start : stands card state)
    (path : EdgePath edges state (events.map target) final) :
    stands (events.foldl step card) final := by
  induction events generalizing card state with
  | nil =>
    cases path
    exact start
  | cons event rest ih =>
    rw [List.map_cons] at path
    rw [List.foldl_cons]
    cases moved : target event with
    | none =>
      rw [moved] at path
      cases path
    | some next =>
      rw [moved] at path
      cases path with
      | move edge onward =>
        have arrived : stands (step card event) next := observes.arrives start moved edge
        exact ih arrived onward

/-- The events of a quiet fold are a path. -/
theorem Observes.path_of_quiet (observes : Observes edges step target quiet stands)
    {events : List Event} {card : Card} {state : State} (start : stands card state)
    (silence : quiet (events.foldl step card)) :
    ∃ final, EdgePath edges state (events.map target) final := by
  induction events generalizing card state with
  | nil => exact ⟨state, EdgePath.done state⟩
  | cons event rest ih =>
    rw [List.foldl_cons] at silence
    have here : quiet (step card event) := observes.quiet_start silence
    obtain ⟨next, moved, edge⟩ := observes.legal start here
    have arrived : stands (step card event) next := observes.arrives start moved edge
    obtain ⟨final, onward⟩ := ih arrived silence
    rw [List.map_cons, moved]
    exact ⟨final, EdgePath.move edge onward⟩

/-- The run law: a fold is quiet exactly when its events are a path. -/
theorem Observes.quiet_iff (observes : Observes edges step target quiet stands)
    {events : List Event} {card : Card} {state : State} (start : stands card state) :
    quiet (events.foldl step card) ↔ ∃ final, EdgePath edges state (events.map target) final := by
  constructor
  · intro silence
    exact observes.path_of_quiet start silence
  · intro ⟨final, path⟩
    have arrived : stands (events.foldl step card) final := observes.stands_of_path start path
    exact observes.silent arrived

end Texo.Foundation
