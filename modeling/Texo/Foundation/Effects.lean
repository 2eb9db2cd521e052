import Mathlib.Data.List.Basic

/-! # Effects that may fail

A computation on a state returns a value or an error; the changes made before an error stay. The
rules here read a run off its parts: what a success came through, what every run keeps, and what a
clean-up behind an error leaves.
-/
namespace Texo.Foundation

/-- A computation that changes a state and may fail. -/
abbrev Effect (State Error : Type) : Type → Type := ExceptT Error (StateM State)

namespace Effect

variable {State Error First Second : Type}

/-- The outcome of a computation from a state, and the state it leaves. -/
def outcome (effect : Effect State Error First) (state : State) : Except Error First × State :=
  effect.run.run state

/-- A computation given by what it does to each state. -/
def of (run : State → Except Error First × State) : Effect State Error First :=
  ExceptT.mk fun state => run state

/-- A computation that reads the state only. -/
def reads (read : State → Except Error First) : Effect State Error First :=
  of fun state => (read state, state)

/-- A computation behind whose error the state is cleaned up. -/
def cleaning (clean : State → State) (effect : Effect State Error First) :
    Effect State Error First :=
  of fun state =>
    match effect.outcome state with
    | (.ok value, after) => (.ok value, after)
    | (.error error, after) => (.error error, clean after)

@[simp] theorem outcome_of (run : State → Except Error First × State) (state : State) :
    (of run).outcome state = run state := rfl

/-- A sequence goes on from where its first part succeeded. -/
theorem outcome_bind (first : Effect State Error First) (next : First → Effect State Error Second)
    (state : State) :
    (first >>= next).outcome state =
      match first.outcome state with
      | (.ok value, after) => (next value).outcome after
      | (.error error, after) => (.error error, after) := by
  unfold outcome
  rw [ExceptT.run_bind, StateT.run_bind]
  generalize first.run.run state = ended
  cases ended with
  | mk result after =>
    cases result with
    | error error => rfl
    | ok value => rfl

/-- A sequence succeeds through the success of each part. -/
theorem bind_ok {first : Effect State Error First} {next : First → Effect State Error Second}
    {state last : State} {value : Second} :
    (first >>= next).outcome state = (.ok value, last) ↔
      ∃ made after, first.outcome state = (.ok made, after) ∧
        (next made).outcome after = (.ok value, last) := by
  rw [outcome_bind]
  cases done : first.outcome state with
  | mk result after =>
    cases result with
    | error error =>
      constructor
      · intro failed
        cases failed
      · rintro ⟨_, _, same, _⟩
        cases same
    | ok made =>
      constructor
      · intro run
        exact ⟨made, after, rfl, run⟩
      · rintro ⟨_, _, same, run⟩
        cases same
        exact run

/-- A sequence fails where its first part fails, or the rest behind it. -/
theorem bind_error {first : Effect State Error First} {next : First → Effect State Error Second}
    {state last : State} {error : Error} :
    (first >>= next).outcome state = (.error error, last) ↔
      first.outcome state = (.error error, last) ∨
        ∃ made after, first.outcome state = (.ok made, after) ∧
          (next made).outcome after = (.error error, last) := by
  rw [outcome_bind]
  cases done : first.outcome state with
  | mk result after =>
    cases result with
    | error held =>
      constructor
      · intro failed
        cases failed
        exact Or.inl rfl
      · rintro (same | ⟨_, _, same, _⟩)
        · cases same
          rfl
        · cases same
    | ok made =>
      constructor
      · intro failed
        exact Or.inr ⟨made, after, rfl, failed⟩
      · rintro (same | ⟨_, _, same, failed⟩)
        · cases same
        · cases same
          exact failed

/-- Every run leaves a state that is related to the one it began in. -/
def Keeps (Related : State → State → Prop) (effect : Effect State Error First) : Prop :=
  ∀ state, Related state (effect.outcome state).2

/-- What every run keeps, one run keeps. -/
theorem Keeps.run {Related : State → State → Prop} {effect : Effect State Error First}
    (keeps : Keeps Related effect) {state last : State} {result : Except Error First}
    (done : effect.outcome state = (result, last)) : Related state last := by
  have related := keeps state
  rw [done] at related
  exact related

/-- A sequence keeps what its parts keep. -/
theorem Keeps.bind {Related : State → State → Prop}
    (trans : ∀ first second third, Related first second → Related second third →
      Related first third)
    {first : Effect State Error First} {next : First → Effect State Error Second}
    (head : Keeps Related first) (tail : ∀ value, Keeps Related (next value)) :
    Keeps Related (first >>= next) := by
  intro state
  rw [outcome_bind]
  have begun := head state
  cases done : first.outcome state with
  | mk result after =>
    rw [done] at begun
    cases result with
    | error error => exact begun
    | ok made => exact trans _ _ _ begun (tail made after)

/-- A computation that reads the state only leaves it as it is. -/
theorem Keeps.reads {Related : State → State → Prop} (refl : ∀ state, Related state state)
    (read : State → Except Error First) : Keeps Related (Effect.reads read) := refl

/-- What the steps of a fold keep, the fold keeps. -/
theorem Keeps.foldlM {Related : State → State → Prop} (refl : ∀ state, Related state state)
    (trans : ∀ first second third, Related first second → Related second third →
      Related first third)
    {step : First → Second → Effect State Error First} {items : List Second}
    (each : ∀ made, ∀ item ∈ items, Keeps Related (step made item)) (start : First) :
    Keeps Related (items.foldlM step start) := by
  induction items generalizing start with
  | nil => exact refl
  | cons item rest ih =>
    rw [List.foldlM_cons]
    refine Keeps.bind trans (each start item List.mem_cons_self) ?_
    intro made
    exact ih (fun later other inside => each later other (List.mem_cons_of_mem _ inside)) made

/-- A success with a clean-up is a success without it. -/
theorem cleaning_ok {clean : State → State} {effect : Effect State Error First}
    {state last : State} {value : First} :
    (cleaning clean effect).outcome state = (.ok value, last) ↔
      effect.outcome state = (.ok value, last) := by
  show (match effect.outcome state with
    | (.ok value, after) => (Except.ok value, after)
    | (.error error, after) => (.error error, clean after)) = _ ↔ _
  cases effect.outcome state with
  | mk result after =>
    cases result with
    | error error => exact iff_of_false (fun same => by cases same) (fun same => by cases same)
    | ok made => exact Iff.rfl

/-- An error with a clean-up is an error without it, cleaned up. -/
theorem cleaning_error {clean : State → State} {effect : Effect State Error First}
    {state last : State} {error : Error}
    (failed : (cleaning clean effect).outcome state = (.error error, last)) :
    ∃ after, effect.outcome state = (.error error, after) ∧ clean after = last := by
  have run : (match effect.outcome state with
    | (.ok value, after) => (Except.ok value, after)
    | (.error error, after) => (.error error, clean after)) = (.error error, last) := failed
  cases done : effect.outcome state with
  | mk result after =>
    rw [done] at run
    cases result with
    | ok made => cases run
    | error other =>
      cases run
      exact ⟨after, rfl, rfl⟩

end Effect

end Texo.Foundation
