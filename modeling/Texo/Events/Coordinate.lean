import Texo.Events.Ids

/-! # Entity and scope strings

Each event lies on one entity stream inside one workspace scope. The brand before
the first colon decides which projection reads the stream.
-/
namespace Texo.Events

/-- `scope_for_workspace`. -/
def scopeForWorkspace (workspaceId : String) : String := "workspace:" ++ workspaceId

/-- `entity_for_claim`. -/
def entityForClaim (claimId : String) : String := "claim:" ++ claimId

/-- `entity_for_conflict`. -/
def entityForConflict (conflictId : String) : String := "conflict:" ++ conflictId

/-- `entity_for_source`. -/
def entityForSource (sourceId : String) : String := "source:" ++ sourceId

/-- `entity_for_onboarding_projection`. -/
def entityForOnboardingProjection : String := "projection:onboarding"

/-- `entity_for_workspace_meta`. -/
def entityForWorkspaceMeta (workspaceId : String) : String := "workspace-meta:" ++ workspaceId

/-- `entity_for_session`. -/
def entityForSession (sessionId : String) : String := "session:" ++ sessionId

/-- `entity_for_relation_pair`. -/
def entityForRelationPair (pairId : String) : String := "relation:" ++ pairId

/-- `entity_for_relation_campaign`. -/
def entityForRelationCampaign (workspaceId : String) : String := "relation-campaign:" ++ workspaceId

/-- `entity_for_source_snapshot`. -/
def entityForSourceSnapshot (snapshotId : String) : String := "source-snapshot:" ++ snapshotId

/-- `entity_for_evidence`. -/
def entityForEvidence (occurrenceId : String) : String := "evidence:" ++ occurrenceId

/-- `entity_for_code_index`. -/
def entityForCodeIndex (indexId : String) : String := "code-index:" ++ indexId

/-- `entity_for_source_relation`. -/
def entityForSourceRelation (leftSnapshotId rightSnapshotId : String) : String :=
  "source-relation:" ++ leftSnapshotId ++ ":" ++ rightSnapshotId

/-- A stream of one scope, `batpak::coordinate::Coordinate`. -/
structure Coordinate where
  entity : String
  scope : String
deriving DecidableEq, Repr

/-- `coordinate_for_claim`. -/
def coordinateForClaim (workspaceId claimId : String) : Coordinate :=
  ⟨entityForClaim claimId, scopeForWorkspace workspaceId⟩

/-- `coordinate_for_conflict`. -/
def coordinateForConflict (workspaceId conflictId : String) : Coordinate :=
  ⟨entityForConflict conflictId, scopeForWorkspace workspaceId⟩

/-- `coordinate_for_source`. -/
def coordinateForSource (workspaceId sourceId : String) : Coordinate :=
  ⟨entityForSource sourceId, scopeForWorkspace workspaceId⟩

/-- `coordinate_for_relation_pair`. -/
def coordinateForRelationPair (workspaceId pairId : String) : Coordinate :=
  ⟨entityForRelationPair pairId, scopeForWorkspace workspaceId⟩

/-- `coordinate_for_relation_campaign`. -/
def coordinateForRelationCampaign (workspaceId : String) : Coordinate :=
  ⟨entityForRelationCampaign workspaceId, scopeForWorkspace workspaceId⟩

/-- `coordinate_for_source_snapshot`. -/
def coordinateForSourceSnapshot (workspaceId snapshotId : String) : Coordinate :=
  ⟨entityForSourceSnapshot snapshotId, scopeForWorkspace workspaceId⟩

/-- `coordinate_for_evidence`. -/
def coordinateForEvidence (workspaceId occurrenceId : String) : Coordinate :=
  ⟨entityForEvidence occurrenceId, scopeForWorkspace workspaceId⟩

/-- `coordinate_for_code_index`. -/
def coordinateForCodeIndex (workspaceId indexId : String) : Coordinate :=
  ⟨entityForCodeIndex indexId, scopeForWorkspace workspaceId⟩

/-- `coordinate_for_source_relation`. -/
def coordinateForSourceRelation (workspaceId leftSnapshotId rightSnapshotId : String) : Coordinate :=
  ⟨entityForSourceRelation leftSnapshotId rightSnapshotId, scopeForWorkspace workspaceId⟩

/-- Two concatenations with one leading part agree on the rest. -/
theorem append_right_injective (lead : String) : Function.Injective (lead ++ ·) := by
  intro a b same
  have characters : lead.toList ++ a.toList = lead.toList ++ b.toList := by
    simpa using congrArg String.toList same
  exact String.toList_inj.mp (List.append_cancel_left characters)

/-- One workspace owns each scope string. -/
theorem scopeForWorkspace_injective : Function.Injective scopeForWorkspace :=
  append_right_injective _

/-- One claim owns each claim entity. -/
theorem entityForClaim_injective : Function.Injective entityForClaim :=
  append_right_injective _

/-- One conflict owns each conflict entity. -/
theorem entityForConflict_injective : Function.Injective entityForConflict :=
  append_right_injective _

/-- One source owns each source entity. -/
theorem entityForSource_injective : Function.Injective entityForSource :=
  append_right_injective _

/-- Card family an entity belongs to. -/
inductive CardFamily where
  | claim
  | conflict
  | source
deriving DecidableEq, Repr

/-- `CardFamily::of`: the family is read off the coordinate brand. -/
def CardFamily.of (entity : String) : Option CardFamily :=
  if startsWith entity "claim:" then
    some .claim
  else if startsWith entity "conflict:" then
    some .conflict
  else if startsWith entity "source:" then
    some .source
  else
    none

/-- The leading characters decide a brand test, whatever follows them. -/
private theorem startsWith_append_of_length {lead entity rest : String}
    (short : lead.toList.length ≤ entity.toList.length) :
    startsWith (entity ++ rest) lead = startsWith entity lead := by
  simp only [startsWith, String.toList_append]
  rw [Bool.eq_iff_iff, List.isPrefixOf_iff_prefix, List.isPrefixOf_iff_prefix]
  constructor
  · intro h
    exact List.prefix_of_prefix_length_le h (List.prefix_append _ _) short
  · intro h
    exact h.trans (List.prefix_append _ _)

@[simp] theorem CardFamily.of_claim (claimId : String) :
    CardFamily.of (entityForClaim claimId) = some .claim := by
  simp [CardFamily.of, entityForClaim]

/-- An entity of the claim family is the entity of some claim. -/
theorem exists_of_family_claim {entity : String} (family : CardFamily.of entity = some .claim) :
    ∃ claimId, entity = entityForClaim claimId := by
  unfold CardFamily.of at family
  split at family
  · rename_i branded
    obtain ⟨rest, split⟩ := List.isPrefixOf_iff_prefix.mp branded
    refine ⟨String.ofList rest, ?_⟩
    apply String.toList_inj.mp
    simpa [entityForClaim] using split.symm
  · split at family
    · cases family
    · split at family <;> cases family

@[simp] theorem CardFamily.of_conflict (conflictId : String) :
    CardFamily.of (entityForConflict conflictId) = some .conflict := by
  have notClaim : startsWith ("conflict:" ++ conflictId) "claim:" = false := by
    rw [startsWith_append_of_length (by decide)]
    decide
  simp [CardFamily.of, entityForConflict, notClaim]

@[simp] theorem CardFamily.of_source (sourceId : String) :
    CardFamily.of (entityForSource sourceId) = some .source := by
  have notClaim : startsWith ("source:" ++ sourceId) "claim:" = false := by
    rw [startsWith_append_of_length (by decide)]
    decide
  have notConflict : startsWith ("source:" ++ sourceId) "conflict:" = false := by
    simp only [startsWith, String.toList_append]
    rfl
  simp [CardFamily.of, entityForSource, notClaim, notConflict]

end Texo.Events
