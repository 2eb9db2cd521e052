import Texo.Claims.Replay
import Texo.Ops.SourceOrder

/-! # Grounded journals

In the journals the operations write, a recorded claim carries a claim id and only recorded
claims are superseded. What a journal records and supersedes grows append by append.
-/
namespace Texo.Ops
open Texo.Events Texo.Store Texo.Claims

variable [Blake3]

/-- A row that records a claim in the region of a workspace records it for that workspace. -/
theorem recorded_iff_notes {journal : Journal} (conforming : journal.Conforming)
    (workspaceId claimId : String) :
    Recorded (workspaceRows journal workspaceId) claimId ↔
      journal.Notes (recordedStatement workspaceId claimId) := by
  constructor
  · intro ⟨row, member, event, payload, named⟩
    obtain ⟨inside, inScope⟩ := Journal.mem_region.mp member
    have placed := (conforming row inside).placed
    rw [payload] at placed
    have scope : scopeForWorkspace event.workspaceId = row.scope :=
      congrArg Coordinate.scope (placed _ rfl)
    exact ⟨row, member, event, payload, scopeForWorkspace_injective (scope.trans inScope), named⟩
  · intro ⟨row, member, event, payload, _, named⟩
    exact ⟨row, member, event, payload, named⟩

/-- A row that supersedes a claim in the region of a workspace does so for that workspace. -/
theorem superseded_iff_notes {journal : Journal} (conforming : journal.Conforming)
    (workspaceId claimId : String) :
    Superseded (workspaceRows journal workspaceId) claimId ↔
      journal.Notes (supersededStatement workspaceId claimId) := by
  constructor
  · intro ⟨row, member, event, payload, named⟩
    obtain ⟨inside, inScope⟩ := Journal.mem_region.mp member
    have placed := (conforming row inside).placed
    rw [payload] at placed
    have scope : scopeForWorkspace event.workspaceId = row.scope :=
      congrArg Coordinate.scope (placed _ rfl)
    exact ⟨row, member, event, payload, scopeForWorkspace_injective (scope.trans inScope), named⟩
  · intro ⟨row, member, event, payload, _, named⟩
    exact ⟨row, member, event, payload, named⟩

/-- What an append records. -/
theorem recorded_append {env next : OpEnv} {payload : Payload}
    (appended : env.append payload = .ok next) (conforming : env.journal.Conforming)
    (workspaceId claimId : String) :
    Recorded (workspaceRows next.journal workspaceId) claimId ↔
      Recorded (workspaceRows env.journal workspaceId) claimId ∨
        (recordedStatement workspaceId claimId).tells payload := by
  rw [recorded_iff_notes (OpEnv.append_conforming appended conforming).2,
    recorded_iff_notes conforming, OpEnv.append_notes appended conforming]

/-- What an append supersedes. -/
theorem superseded_append {env next : OpEnv} {payload : Payload}
    (appended : env.append payload = .ok next) (conforming : env.journal.Conforming)
    (workspaceId claimId : String) :
    Superseded (workspaceRows next.journal workspaceId) claimId ↔
      Superseded (workspaceRows env.journal workspaceId) claimId ∨
        (supersededStatement workspaceId claimId).tells payload := by
  rw [superseded_iff_notes (OpEnv.append_conforming appended conforming).2,
    superseded_iff_notes conforming, OpEnv.append_notes appended conforming]

/-- Recorded claims carry claim ids, and superseded claims are recorded. -/
structure Grounded (journal : Journal) (workspaceId : String) : Prop where
  branded : ∀ claimId, Recorded (workspaceRows journal workspaceId) claimId →
    ∃ own : ClaimId, claimId = own.value
  recorded : ∀ claimId, Superseded (workspaceRows journal workspaceId) claimId →
    Recorded (workspaceRows journal workspaceId) claimId

/-- A payload keeps a journal grounded: it records a branded claim, supersedes a recorded one or
does neither. -/
structure Groundable (journal : Journal) (workspaceId : String) (payload : Payload) : Prop where
  branded : ∀ claimId, (recordedStatement workspaceId claimId).tells payload →
    ∃ own : ClaimId, claimId = own.value
  recorded : ∀ claimId, (supersededStatement workspaceId claimId).tells payload →
    Recorded (workspaceRows journal workspaceId) claimId

omit [Blake3] in
/-- The empty journal is grounded. -/
theorem grounded_empty (workspaceId : String) : Grounded Journal.empty workspaceId where
  branded := by
    intro claimId recorded
    obtain ⟨row, member, _⟩ := recorded
    cases member
  recorded := by
    intro claimId superseded
    obtain ⟨row, member, _⟩ := superseded
    cases member

/-- The step law of grounded journals. -/
theorem Grounded.append {env next : OpEnv} {payload : Payload} {workspaceId : String}
    (appended : env.append payload = .ok next) (conforming : env.journal.Conforming)
    (grounded : Grounded env.journal workspaceId)
    (fits : Groundable env.journal workspaceId payload) : Grounded next.journal workspaceId where
  branded := by
    intro claimId recorded
    rcases (recorded_append appended conforming workspaceId claimId).mp recorded with before | told
    · exact grounded.branded claimId before
    · exact fits.branded claimId told
  recorded := by
    intro claimId superseded
    apply (recorded_append appended conforming workspaceId claimId).mpr
    rcases (superseded_append appended conforming workspaceId claimId).mp superseded with
      before | told
    · exact Or.inl (grounded.recorded claimId before)
    · exact Or.inl (fits.recorded claimId told)

/-- The run law of grounded journals: each payload records a branded claim, or supersedes one
that is recorded before the run, or does neither. -/
theorem Grounded.appendAll {env next : OpEnv} {payloads : List Payload} {workspaceId : String}
    (appended : env.appendAll payloads = .ok next) (conforming : env.journal.Conforming)
    (grounded : Grounded env.journal workspaceId)
    (fits : ∀ payload ∈ payloads, Groundable env.journal workspaceId payload) :
    Grounded next.journal workspaceId := by
  induction payloads generalizing env with
  | nil =>
    have same : env = next := Except.ok.inj appended
    rw [← same]
    exact grounded
  | cons payload rest ih =>
    rw [OpEnv.appendAll, List.foldlM_cons] at appended
    obtain ⟨middle, first, later⟩ := Foundation.bind_eq_ok.mp appended
    have still := (OpEnv.append_conforming first conforming).2
    apply ih later still (grounded.append first conforming (fits payload (by simp)))
    intro other member
    have fit := fits other (by simp [member])
    refine ⟨fit.branded, ?_⟩
    intro claimId told
    exact (recorded_append first conforming workspaceId claimId).mpr
      (Or.inl (fit.recorded claimId told))

/-- A conforming claim entity with a card was recorded or superseded. -/
theorem recorded_or_superseded {rows : List Entry}
    (conforming : ∀ row ∈ rows, Conforms row) {claimId : String} {card : ClaimCard}
    (held : claimCardAt rows claimId = some card) : Recorded rows claimId ∨ Superseded rows claimId := by
  induction rows using List.reverseRecOn generalizing card with
  | nil => simp [claimCardAt, cardsOf] at held
  | append_singleton rows row ih =>
    rw [claimCardAt_snoc] at held
    by_cases here : row.entity = entityForClaim claimId ∧ relevant .claim row.payload.kind = true
    · rcases relevant_cases (conforming row (by simp)) here.1 here.2 with
        ⟨event, payload, named⟩ | ⟨event, payload, named⟩
      · exact Or.inl ⟨row, by simp, event, payload, named⟩
      · exact Or.inr ⟨row, by simp, event, payload, named⟩
    · rw [if_neg here] at held
      rcases ih (fun earlier member => conforming earlier (by simp [member])) held with
        ⟨old, member, event, payload, named⟩ | ⟨old, member, event, payload, named⟩
      · exact Or.inl ⟨old, by simp [member], event, payload, named⟩
      · exact Or.inr ⟨old, by simp [member], event, payload, named⟩

/-- Every claim a grounded view lists is recorded. -/
theorem Grounded.listed_recorded {journal : Journal} {workspaceId claimId : String}
    (conforming : journal.Conforming) (grounded : Grounded journal workspaceId)
    (listed : WorkspaceListed (viewOf workspaceId journal) claimId) :
    Recorded (workspaceRows journal workspaceId) claimId := by
  have rows : ∀ row ∈ workspaceRows journal workspaceId, Conforms row := fun row member =>
    conforming row (Journal.mem_region.mp member).1
  obtain ⟨claim, member, same⟩ := List.mem_map.mp listed
  obtain ⟨entity, present⟩ := mem_replayView_cards.mp (List.mem_map_of_mem member)
  obtain ⟨own, _, held⟩ := claimCardAt_of_card present
  have origin := originAt rows own
  unfold OriginAt at origin
  rw [held] at origin
  rcases origin with ⟨row, inside, payload, _⟩ | ⟨_, _, nowhere⟩
  · exact ⟨row, inside, _, payload, same⟩
  · rcases recorded_or_superseded rows held with recorded | superseded
    · exact absurd recorded nowhere
    · exact absurd (grounded.recorded own superseded) nowhere

/-- Every claim a grounded view lists carries a claim id. -/
theorem Grounded.listed_branded {journal : Journal} {workspaceId : String}
    (conforming : journal.Conforming) (grounded : Grounded journal workspaceId) (claimId : String)
    (listed : WorkspaceListed (viewOf workspaceId journal) claimId) :
    ∃ own, claimIdOf claimId = .ok own := by
  obtain ⟨own, rfl⟩ := grounded.branded claimId (grounded.listed_recorded conforming listed)
  exact ⟨own, by rw [claimIdOf, own.tryFrom_value (by decide)]⟩

end Texo.Ops
