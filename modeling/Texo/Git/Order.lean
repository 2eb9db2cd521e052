import Texo.Git.Ancestry

/-! # The order of source states

A source state is a commit with or without changes laid over it. A clean state comes before the
states of later commits and before the changed states of its own commit; a changed state comes
before nothing. This is a strict order, a comparison of two states says how they lie in it, and
what a comparison says both ways is inverse.
-/
namespace Texo.Git
open Texo.Events Texo.Knowledge Texo.Ops Texo.Foundation

/-- A commit and whether changes lie over it. -/
structure SourceState where
  commit : GitObjectId
  dirty : Bool
deriving DecidableEq, Repr

/-- The state of a recorded snapshot. -/
def recordedState (snapshot : SourceSnapshotRecordedV1) : SourceState :=
  ⟨snapshot.baseCommit, snapshot.dirty⟩

/-- The state of a capture. -/
def capturedState (capture : GitCapture) : SourceState := ⟨capture.baseCommit, capture.dirty⟩

namespace CommitGraph
variable (graph : CommitGraph)

/-- A clean state comes before a state of a later commit, or a changed state of its commit. -/
def Precedes (left right : SourceState) : Prop :=
  left.dirty = false ∧ ((left.commit = right.commit ∧ right.dirty = true) ∨
    (left.commit ≠ right.commit ∧ Reaches graph.parents right.commit left.commit))

/-- Two clean states of one commit. -/
def Equals (left right : SourceState) : Prop :=
  left.commit = right.commit ∧ left.dirty = false ∧ right.dirty = false

/-- What a relation says of two source states. -/
def Ordered : TemporalRelation → SourceState → SourceState → Prop
  | .same, left, right => Equals left right
  | .before, left, right => graph.Precedes left right
  | .after, left, right => graph.Precedes right left
  | .concurrent, left, right =>
    ¬ Equals left right ∧ ¬ graph.Precedes left right ∧ ¬ graph.Precedes right left
  | .unknown, _, _ => True

variable {graph}

/-- No state comes before one that comes before it. -/
theorem Precedes.asymm {left right : SourceState} (forth : graph.Precedes left right) :
    ¬ graph.Precedes right left := by
  intro back
  obtain ⟨leftClean, forth⟩ := forth
  obtain ⟨rightClean, back⟩ := back
  rcases forth with ⟨_, changed⟩ | ⟨different, later⟩
  · rw [rightClean] at changed
    cases changed
  · rcases back with ⟨_, changed⟩ | ⟨_, earlier⟩
    · rw [leftClean] at changed
      cases changed
    · exact different (CommitGraph.eq_of_reaches earlier later)

/-- What comes before a state comes before what that state comes before. -/
theorem Precedes.trans {first second third : SourceState} (forth : graph.Precedes first second)
    (later : graph.Precedes second third) : graph.Precedes first third := by
  obtain ⟨clean, forth⟩ := forth
  obtain ⟨middleClean, later⟩ := later
  rcases forth with ⟨_, changed⟩ | ⟨different, reaches⟩
  · rw [middleClean] at changed
    cases changed
  · rcases later with ⟨same, changed⟩ | ⟨_, further⟩
    · refine ⟨clean, Or.inr ?_⟩
      rw [← same]
      exact ⟨different, reaches⟩
    · have whole : Reaches graph.parents third.commit first.commit := further.trans reaches
      refine ⟨clean, Or.inr ⟨?_, whole⟩⟩
      intro same
      rw [same] at different reaches
      exact different (CommitGraph.eq_of_reaches further reaches)

/-- A state that comes before another is not the same. -/
theorem Precedes.not_equals {left right : SourceState} (forth : graph.Precedes left right) :
    ¬ Equals left right ∧ ¬ Equals right left := by
  obtain ⟨_, ⟨_, changed⟩ | ⟨different, _⟩⟩ := forth
  · constructor
    · rintro ⟨_, _, clean⟩
      rw [clean] at changed
      cases changed
    · rintro ⟨_, clean, _⟩
      rw [clean] at changed
      cases changed
  · exact ⟨fun equal => different equal.1, fun equal => different equal.1.symm⟩

/-- The relation of the states the other way round. -/
theorem Ordered.invert {relation : TemporalRelation} {left right : SourceState}
    (ordered : graph.Ordered relation left right) : graph.Ordered relation.invert right left := by
  cases relation with
  | same => exact ⟨ordered.1.symm, ordered.2.2, ordered.2.1⟩
  | before => exact ordered
  | after => exact ordered
  | concurrent =>
    obtain ⟨apart, forth, back⟩ := ordered
    exact ⟨fun equal => apart ⟨equal.1.symm, equal.2.2, equal.2.1⟩, back, forth⟩
  | unknown => trivial

/-- At most one known relation orders two states. -/
theorem Ordered.unique {relation other : TemporalRelation} {left right : SourceState}
    (ordered : graph.Ordered relation left right) (also : graph.Ordered other left right)
    (known : relation ≠ .unknown) (otherKnown : other ≠ .unknown) : relation = other := by
  cases relation with
  | same =>
    cases other with
    | same => rfl
    | before => exact absurd ordered also.not_equals.1
    | after => exact absurd ordered also.not_equals.2
    | concurrent => exact absurd ordered also.1
    | unknown => exact absurd rfl otherKnown
  | before =>
    cases other with
    | same => exact absurd also ordered.not_equals.1
    | before => rfl
    | after => exact absurd also ordered.asymm
    | concurrent => exact absurd ordered also.2.1
    | unknown => exact absurd rfl otherKnown
  | after =>
    cases other with
    | same => exact absurd also ordered.not_equals.2
    | before => exact absurd also ordered.asymm
    | after => rfl
    | concurrent => exact absurd ordered also.2.2
    | unknown => exact absurd rfl otherKnown
  | concurrent =>
    cases other with
    | same => exact absurd also ordered.1
    | before => exact absurd also ordered.2.1
    | after => exact absurd also ordered.2.2
    | concurrent => rfl
    | unknown => exact absurd rfl otherKnown
  | unknown => exact absurd rfl known

/-- Relations of two states both ways are inverse. -/
theorem Ordered.inverse {relation back : TemporalRelation} {left right : SourceState}
    (ordered : graph.Ordered relation left right) (turned : graph.Ordered back right left)
    (known : relation ≠ .unknown) (backKnown : back ≠ .unknown) : back = relation.invert := by
  have other : relation.invert ≠ .unknown := by
    cases relation <;> simp_all [TemporalRelation.invert]
  exact turned.unique ordered.invert backKnown other

end CommitGraph

/-- `MAX_GIT_ANCESTRY_WALK`. -/
def maxGitAncestryWalk : Nat := 100000

/-- A comparison of a snapshot with a capture says how their states are ordered in the full
history, where it compares commits as the walk over some present part of it does. -/
theorem overlayAwareComparison_ordered {graph : CommitGraph} {present : GitObjectId → Bool}
    {opened : Except TexoError Unit} {maxCommits : Nat} {world : GitWorld}
    (compares : world.compareCommits = fun left right =>
      compareCommits opened graph present left right maxCommits)
    {prior : SourceSnapshotRecordedV1} {capture : GitCapture} {compared : GitComparison}
    (done : world.overlayAwareComparison prior capture = .ok compared) :
    graph.Ordered compared.relation (recordedState prior) (capturedState capture) := by
  unfold GitWorld.overlayAwareComparison at done
  by_cases same : prior.baseCommit = capture.baseCommit
  · rw [if_pos same] at done
    rw [← Except.ok.inj done]
    have never : ∀ {left right : SourceState}, left.commit = right.commit → left.dirty = true →
        ¬ graph.Precedes left right := by
      intro left right _ changed before
      rw [before.1] at changed
      cases changed
    cases before : prior.dirty with
    | false =>
      cases now : capture.dirty with
      | false => exact ⟨same, before, now⟩
      | true => exact ⟨before, Or.inl ⟨same, now⟩⟩
    | true =>
      cases now : capture.dirty with
      | false => exact ⟨now, Or.inl ⟨same.symm, before⟩⟩
      | true =>
        refine ⟨?_, never same before, never same.symm now⟩
        rintro ⟨_, clean, _⟩
        have changed : (recordedState prior).dirty = true := before
        rw [clean] at changed
        cases changed
  · rw [if_neg same, compares] at done
    simp only [compareCommits, if_neg same] at done
    cases opened with
    | error error => cases done
    | ok _ =>
      have holds := @comparison_holds graph present maxCommits prior.baseCommit
        capture.baseCommit
      simp only [Except.map] at done
      rw [← Except.ok.inj done]
      simp only
      cases base : (comparison graph present prior.baseCommit capture.baseCommit
          maxCommits).relation with
      | same =>
        rw [base] at holds
        exact absurd holds same
      | before =>
        rw [base] at holds
        cases changed : prior.dirty with
        | false => exact ⟨changed, Or.inr holds⟩
        | true =>
          refine ⟨fun equal => same equal.1, ?_, ?_⟩
          · intro precedes
            have clean : prior.dirty = false := precedes.1
            rw [clean] at changed
            cases changed
          · rintro ⟨_, ⟨equal, _⟩ | ⟨_, back⟩⟩
            · exact same equal.symm
            · exact same (CommitGraph.eq_of_reaches back holds.2)
      | after =>
        rw [base] at holds
        cases changed : capture.dirty with
        | false => exact ⟨changed, Or.inr ⟨Ne.symm holds.1, holds.2⟩⟩
        | true =>
          refine ⟨fun equal => same equal.1, ?_, ?_⟩
          · rintro ⟨_, ⟨equal, _⟩ | ⟨_, forth⟩⟩
            · exact same equal
            · exact same (CommitGraph.eq_of_reaches holds.2 forth)
          · intro precedes
            have clean : capture.dirty = false := precedes.1
            rw [clean] at changed
            cases changed
      | concurrent =>
        rw [base] at holds
        refine ⟨fun equal => same equal.1, ?_, ?_⟩
        · rintro ⟨_, ⟨equal, _⟩ | ⟨_, forth⟩⟩
          · exact same equal
          · exact holds.1 forth
        · rintro ⟨_, ⟨equal, _⟩ | ⟨_, back⟩⟩
          · exact same equal.symm
          · exact holds.2 back
      | unknown => trivial

end Texo.Git
