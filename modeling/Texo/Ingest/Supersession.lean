import Mathlib.Data.List.Sort
import Texo.Extract.Words
import Texo.Foundation.Sorting
import Texo.Ops.Common

/-! # Explicit replacement wording

A new claim with replacement wording retires the current claims of its subject that say
something else, unless source order forbids it. Each old claim is decided once, by the first
new claim that replaces it.
-/
namespace Texo.Ingest
open Texo.Events Texo.Extract Texo.Knowledge Texo.Claims Texo.Semantics Texo.Ops Texo.Foundation

/-- `ExplicitReplacementCandidate`. -/
structure ReplacementCandidate where
  claimId : ClaimId
  workspaceId : String
  sourceId : String
  normalizedText : String
  subjectHint : Option String
deriving DecidableEq

/-- Closed reason an explicit replacement could not become authority. -/
inductive ExplicitSupersessionHoldReason where
  | temporalReversed
  | temporalConcurrent
  | temporalUnknown
deriving DecidableEq, Repr

/-- One explicit replacement held by temporal policy. -/
structure HeldExplicitSupersession where
  oldClaimId : ClaimId
  newClaimId : ClaimId
  reason : ExplicitSupersessionHoldReason
deriving DecidableEq

/-- Applied and held outcomes of explicit replacement. -/
structure ExplicitSupersessionOutcome where
  applied : List ClaimSupersededV2
  held : List HeldExplicitSupersession
deriving DecidableEq

/-- Why a source order holds a replacement back, if it does. -/
def holdOfOrder : Option TemporalRelation → Option ExplicitSupersessionHoldReason
  | none => none
  | some .same => none
  | some .before => none
  | some .after => some .temporalReversed
  | some .concurrent => some .temporalConcurrent
  | some .unknown => some .temporalUnknown

/-- Why the policy holds a replacement back, if it does. -/
def holdReason (temporal : RelateTemporalPolicy) (old new : ClaimId) :
    Option ExplicitSupersessionHoldReason :=
  holdOfOrder (temporal.compareClaims old new)

/-- `by_subject`: the claims of one subject in view order. -/
def bySubject (view : WorkspaceView) (subject : Option String) : List Claims.ClaimView :=
  view.claims.filter fun claim => claim.card.subjectHint = subject

/-- One replacement a new claim proposes. -/
structure Proposal where
  oldClaimId : ClaimId
  new : ReplacementCandidate
deriving DecidableEq

/-- The old claim of a proposal, unless the pair is skipped. -/
def proposal (new : ReplacementCandidate) (old : Claims.ClaimView) : Option Proposal :=
  if old.card.claimId = new.claimId.value ∨ old.card.phase ≠ 1 ∨
      old.card.normalizedText = new.normalizedText then
    none
  else
    match Branded.tryFrom "claim_" old.card.claimId with
    | .error _ => none
    | .ok oldClaimId => some ⟨oldClaimId, new⟩

/-- The decisions of an inference so far. -/
structure Inference where
  seenOld : List String := []
  applied : List ClaimSupersededV2 := []
  held : List HeldExplicitSupersession := []

section
variable [Blake3]

/-- The supersession event of an accepted proposal. -/
def supersededEvent (observedAtMs : Nat) (accepted : Proposal) : ClaimSupersededV2 where
  oldClaimId := accepted.oldClaimId.value
  newClaimId := accepted.new.claimId.value
  workspaceId := accepted.new.workspaceId
  reason := "explicit replacement wording accepted by temporal policy"
  decidedBy := "texo.ingest.run"
  observedAtMs := observedAtMs
  transition := transitionRecord claimMachine (entityForClaim accepted.oldClaimId.value) 1 2
    [⟨0, "ingest:" ++ accepted.new.sourceId⟩] observedAtMs

/-- Decide one proposal: an old claim already seen is left alone. -/
def Inference.decide (temporal : RelateTemporalPolicy) (observedAtMs : Nat) (inference : Inference)
    (proposed : Proposal) : Inference :=
  if proposed.oldClaimId.value ∈ inference.seenOld then
    inference
  else
    let seen := { inference with seenOld := inference.seenOld ++ [proposed.oldClaimId.value] }
    match holdReason temporal proposed.oldClaimId proposed.new.claimId with
    | some reason =>
      { seen with
        held := inference.held ++ [⟨proposed.oldClaimId, proposed.new.claimId, reason⟩] }
    | none => { seen with applied := inference.applied ++ [supersededEvent observedAtMs proposed] }

/-- One old claim of the inner loop. -/
def Inference.consider (temporal : RelateTemporalPolicy) (observedAtMs : Nat)
    (new : ReplacementCandidate) (inference : Inference) (old : Claims.ClaimView) : Inference :=
  match proposal new old with
  | none => inference
  | some proposed => inference.decide temporal observedAtMs proposed

/-- One new claim of the outer loop. -/
def Inference.considerNew (view : WorkspaceView) (temporal : RelateTemporalPolicy)
    (observedAtMs : Nat) (inference : Inference) (new : ReplacementCandidate) : Inference :=
  if containsReplacementSignal new.normalizedText then
    (bySubject view new.subjectHint).foldl (Inference.consider temporal observedAtMs new) inference
  else
    inference

/-- The order applied supersessions are listed in. -/
def appliedLe (left right : ClaimSupersededV2) : Prop :=
  left.oldClaimId < right.oldClaimId ∨
    (left.oldClaimId = right.oldClaimId ∧ left.newClaimId ≤ right.newClaimId)

instance : DecidableRel appliedLe := fun left right =>
  inferInstanceAs (Decidable (left.oldClaimId < right.oldClaimId ∨
    (left.oldClaimId = right.oldClaimId ∧ left.newClaimId ≤ right.newClaimId)))

/-- The order held supersessions are listed in. -/
def heldLe (left right : HeldExplicitSupersession) : Prop :=
  left.oldClaimId.value < right.oldClaimId.value ∨
    (left.oldClaimId.value = right.oldClaimId.value ∧
      left.newClaimId.value ≤ right.newClaimId.value)

instance : DecidableRel heldLe := fun left right =>
  inferInstanceAs (Decidable (left.oldClaimId.value < right.oldClaimId.value ∨
    (left.oldClaimId.value = right.oldClaimId.value ∧
      left.newClaimId.value ≤ right.newClaimId.value)))

/-- `infer_explicit_supersessions`. -/
def inferExplicitSupersessions (view : WorkspaceView) (newClaims : List ReplacementCandidate)
    (observedAtMs : Nat) (temporal : RelateTemporalPolicy) : ExplicitSupersessionOutcome :=
  let inference := newClaims.foldl (Inference.considerNew view temporal observedAtMs) {}
  { applied := inference.applied.insertionSort appliedLe
    held := inference.held.insertionSort heldLe }

/-- One recorded claim as a replacement candidate. -/
def candidateOf (claim : ClaimRecordedV2) : Except TexoError ReplacementCandidate :=
  (claimIdOf claim.claimId).map fun claimId =>
    { claimId := claimId
      workspaceId := claim.workspaceId
      sourceId := claim.sourceId
      normalizedText := claim.normalizedText
      subjectHint := claim.subjectHint }

/-- `infer_supersessions`. -/
def inferSupersessions (view : WorkspaceView) (newClaims : List ClaimRecordedV2)
    (observedAtMs : Nat) (temporal : RelateTemporalPolicy) :
    Except TexoError ExplicitSupersessionOutcome :=
  (newClaims.mapM candidateOf).map fun candidates =>
    inferExplicitSupersessions view candidates observedAtMs temporal

/-- One listed claim as a replacement candidate, if it was indexed now. -/
def indexedCandidate (newClaimIds : List ClaimId) (claim : Claims.ClaimView) :
    Option ReplacementCandidate :=
  match Branded.tryFrom "claim_" claim.card.claimId with
  | .error _ => none
  | .ok claimId =>
    if claimId ∈ newClaimIds then
      some
        { claimId := claimId
          workspaceId := claim.card.workspaceId
          sourceId := claim.card.sourceId
          normalizedText := claim.card.normalizedText
          subjectHint := claim.card.subjectHint }
    else
      none

/-- `infer_indexed_supersessions`. -/
def inferIndexedSupersessions (view : WorkspaceView) (newClaimIds : List ClaimId)
    (observedAtMs : Nat) (temporal : RelateTemporalPolicy) : ExplicitSupersessionOutcome :=
  inferExplicitSupersessions view (view.claims.filterMap (indexedCandidate newClaimIds))
    observedAtMs temporal

end

/-- Every replacement the new claims propose, in the order it is considered. -/
def proposals (view : WorkspaceView) (newClaims : List ReplacementCandidate) : List Proposal :=
  newClaims.flatMap fun new =>
    if containsReplacementSignal new.normalizedText then
      (bySubject view new.subjectHint).filterMap (proposal new)
    else
      []

/-- The proposal that decides an old claim: the first one made for it. -/
def decidingProposal (view : WorkspaceView) (newClaims : List ReplacementCandidate)
    (oldClaimId : String) : Option Proposal :=
  (proposals view newClaims).find? fun proposed => proposed.oldClaimId.value = oldClaimId

/-- An old claim is replaced when its deciding proposal is in source order. -/
def Replaced (view : WorkspaceView) (temporal : RelateTemporalPolicy)
    (newClaims : List ReplacementCandidate) (oldClaimId : String) : Prop :=
  ∃ proposed, decidingProposal view newClaims oldClaimId = some proposed ∧
    holdReason temporal proposed.oldClaimId proposed.new.claimId = none

section
variable [Blake3]

/-- Both loops together decide the proposals one by one. -/
theorem foldl_considerNew (view : WorkspaceView) (temporal : RelateTemporalPolicy)
    (observedAtMs : Nat) (newClaims : List ReplacementCandidate) (inference : Inference) :
    newClaims.foldl (Inference.considerNew view temporal observedAtMs) inference =
      (proposals view newClaims).foldl (Inference.decide temporal observedAtMs) inference := by
  have inner : ∀ (new : ReplacementCandidate) (olds : List Claims.ClaimView) (start : Inference),
      olds.foldl (Inference.consider temporal observedAtMs new) start =
        (olds.filterMap (proposal new)).foldl (Inference.decide temporal observedAtMs) start := by
    intro new olds
    induction olds with
    | nil => intro start; rfl
    | cons old olds ih =>
      intro start
      rw [List.foldl_cons, ih, List.filterMap_cons, Inference.consider]
      cases proposal new old <;> rfl
  induction newClaims generalizing inference with
  | nil => rfl
  | cons new newClaims ih =>
    have split : proposals view (new :: newClaims) =
        (if containsReplacementSignal new.normalizedText then
          (bySubject view new.subjectHint).filterMap (proposal new) else []) ++
          proposals view newClaims := List.flatMap_cons
    rw [List.foldl_cons, ih, split, List.foldl_append]
    unfold Inference.considerNew
    by_cases signal : containsReplacementSignal new.normalizedText = true
    · rw [if_pos signal, if_pos signal, inner]
    · rw [if_neg signal, if_neg signal]
      rfl

/-- The proposals that decide: the first one for each old claim not seen before. -/
def deciding : List String → List Proposal → List Proposal
  | _, [] => []
  | seen, proposed :: rest =>
    if proposed.oldClaimId.value ∈ seen then
      deciding seen rest
    else
      proposed :: deciding (seen ++ [proposed.oldClaimId.value]) rest

omit [Blake3] in
/-- The first proposal of a list decides when its old claim is new. -/
theorem deciding_cons (seen : List String) (proposed : Proposal) (rest : List Proposal) :
    deciding seen (proposed :: rest) =
      if proposed.oldClaimId.value ∈ seen then
        deciding seen rest
      else
        proposed :: deciding (seen ++ [proposed.oldClaimId.value]) rest := rfl

/-- The event of a deciding proposal that source order allows. -/
def acceptedEvent (temporal : RelateTemporalPolicy) (observedAtMs : Nat) (made : Proposal) :
    Option ClaimSupersededV2 :=
  match holdReason temporal made.oldClaimId made.new.claimId with
  | some _ => none
  | none => some (supersededEvent observedAtMs made)

/-- The held row of a deciding proposal that source order does not allow. -/
def heldRow (temporal : RelateTemporalPolicy) (made : Proposal) : Option HeldExplicitSupersession :=
  (holdReason temporal made.oldClaimId made.new.claimId).map fun reason =>
    ⟨made.oldClaimId, made.new.claimId, reason⟩

/-- The decisions of an inference are those of its deciding proposals. -/
theorem foldl_decide (temporal : RelateTemporalPolicy) (observedAtMs : Nat)
    (proposed : List Proposal) (inference : Inference) :
    (proposed.foldl (Inference.decide temporal observedAtMs) inference).applied =
        inference.applied ++
          (deciding inference.seenOld proposed).filterMap (acceptedEvent temporal observedAtMs) ∧
      (proposed.foldl (Inference.decide temporal observedAtMs) inference).held =
        inference.held ++ (deciding inference.seenOld proposed).filterMap (heldRow temporal) := by
  induction proposed generalizing inference with
  | nil => simp [deciding]
  | cons made rest ih =>
    obtain ⟨applied, held⟩ := ih (inference.decide temporal observedAtMs made)
    rw [List.foldl_cons, applied, held, deciding_cons]
    unfold Inference.decide
    by_cases seen : made.oldClaimId.value ∈ inference.seenOld
    · simp only [if_pos seen, and_self]
    · simp only [if_neg seen]
      cases order : holdReason temporal made.oldClaimId made.new.claimId with
      | some reason => simp [acceptedEvent, heldRow, order]
      | none => simp [acceptedEvent, heldRow, order]

omit [Blake3] in
/-- A proposal decides when it is the first one for its old claim. -/
theorem mem_deciding {seen : List String} {proposed : List Proposal} {made : Proposal} :
    made ∈ deciding seen proposed ↔ made.oldClaimId.value ∉ seen ∧
      proposed.find? (fun other => other.oldClaimId.value = made.oldClaimId.value) = some made := by
  induction proposed generalizing seen with
  | nil => simp [deciding]
  | cons head rest ih =>
    rw [deciding_cons]
    by_cases known : head.oldClaimId.value ∈ seen
    · rw [if_pos known, ih]
      by_cases same : head.oldClaimId.value = made.oldClaimId.value
      · rw [same] at known
        simp [known]
      · rw [List.find?_cons_of_neg (by simpa using same)]
    · rw [if_neg known, List.mem_cons, ih]
      by_cases same : head.oldClaimId.value = made.oldClaimId.value
      · rw [List.find?_cons_of_pos (by simpa using same)]
        have out : made.oldClaimId.value ∉ seen := by rwa [← same]
        simp [out, same, eq_comm]
      · rw [List.find?_cons_of_neg (by simpa using same)]
        have other : made ≠ head := fun equal => same (by rw [equal])
        simp [other, Ne.symm same]

omit [Blake3] in
/-- Each old claim is decided once. -/
theorem nodup_deciding (seen : List String) (proposed : List Proposal) :
    ((deciding seen proposed).map fun made => made.oldClaimId.value).Nodup := by
  induction proposed generalizing seen with
  | nil => simp [deciding]
  | cons head rest ih =>
    rw [deciding_cons]
    split
    · exact ih seen
    · rw [List.map_cons, List.nodup_cons]
      refine ⟨?_, ih _⟩
      intro again
      obtain ⟨made, member, same⟩ := List.mem_map.mp again
      have out := (mem_deciding.mp member).1
      rw [same] at out
      simp at out

/-- The deciding proposals of a whole inference. -/
def decidingProposals (view : WorkspaceView) (newClaims : List ReplacementCandidate) :
    List Proposal := deciding [] (proposals view newClaims)

omit [Blake3] in
/-- The deciding proposals are those that decide their old claim. -/
theorem mem_decidingProposals {view : WorkspaceView} {newClaims : List ReplacementCandidate}
    {made : Proposal} : made ∈ decidingProposals view newClaims ↔
      decidingProposal view newClaims made.oldClaimId.value = some made := by
  simp [decidingProposals, mem_deciding, decidingProposal]

/-- The spec of explicit replacement: what is applied and held, by deciding proposal. -/
theorem inferExplicitSupersessions_eq (view : WorkspaceView)
    (newClaims : List ReplacementCandidate) (observedAtMs : Nat) (temporal : RelateTemporalPolicy) :
    inferExplicitSupersessions view newClaims observedAtMs temporal =
      { applied := ((decidingProposals view newClaims).filterMap
          (acceptedEvent temporal observedAtMs)).insertionSort appliedLe
        held := ((decidingProposals view newClaims).filterMap
          (heldRow temporal)).insertionSort heldLe } := by
  obtain ⟨applied, held⟩ := foldl_decide temporal observedAtMs (proposals view newClaims) {}
  simp only [inferExplicitSupersessions, foldl_considerNew, applied, held, List.nil_append,
    decidingProposals]

/-- A claim is retired by an inference exactly when it is replaced. -/
theorem mem_applied_iff {view : WorkspaceView} {newClaims : List ReplacementCandidate}
    {observedAtMs : Nat} {temporal : RelateTemporalPolicy} {oldClaimId : String} :
    (∃ event ∈ (inferExplicitSupersessions view newClaims observedAtMs temporal).applied,
      event.oldClaimId = oldClaimId) ↔ Replaced view temporal newClaims oldClaimId := by
  rw [inferExplicitSupersessions_eq]
  simp only [List.mem_insertionSort, List.mem_filterMap]
  constructor
  · rintro ⟨event, ⟨made, decides, accepted⟩, old⟩
    unfold acceptedEvent at accepted
    cases order : holdReason temporal made.oldClaimId made.new.claimId with
    | some reason => simp [order] at accepted
    | none =>
      simp only [order, Option.some.injEq] at accepted
      subst accepted
      have named : made.oldClaimId.value = oldClaimId := old
      rw [mem_decidingProposals, named] at decides
      exact ⟨made, decides, order⟩
  · rintro ⟨made, decides, order⟩
    have named : made.oldClaimId.value = oldClaimId := by simpa using List.find?_some decides
    refine ⟨supersededEvent observedAtMs made, ⟨made, ?_, ?_⟩, named⟩
    · rw [mem_decidingProposals, named]
      exact decides
    · simp [acceptedEvent, order]

/-- What a deciding proposal leads to: the supersession, or the hold source order puts on it. -/
def settledBy (temporal : RelateTemporalPolicy) (observedAtMs : Nat) (made : Proposal) :
    ClaimSupersededV2 ⊕ HeldExplicitSupersession :=
  match holdReason temporal made.oldClaimId made.new.claimId with
  | some reason => .inr ⟨made.oldClaimId, made.new.claimId, reason⟩
  | none => .inl (supersededEvent observedAtMs made)

/-- What an inference decides about an old claim, if it decides it. -/
def decision (view : WorkspaceView) (newClaims : List ReplacementCandidate) (observedAtMs : Nat)
    (temporal : RelateTemporalPolicy) (oldClaimId : String) :
    Option (ClaimSupersededV2 ⊕ HeldExplicitSupersession) :=
  (decidingProposal view newClaims oldClaimId).map (settledBy temporal observedAtMs)

omit [Blake3] in
/-- A deciding proposal is about the claim it decides. -/
theorem decidingProposal_named {view : WorkspaceView} {newClaims : List ReplacementCandidate}
    {oldClaimId : String} {made : Proposal}
    (decides : decidingProposal view newClaims oldClaimId = some made) :
    made.oldClaimId.value = oldClaimId := by
  simpa using List.find?_some decides

/-- The applied supersessions are the decisions to retire. -/
theorem mem_applied {view : WorkspaceView} {newClaims : List ReplacementCandidate}
    {observedAtMs : Nat} {temporal : RelateTemporalPolicy} {event : ClaimSupersededV2} :
    event ∈ (inferExplicitSupersessions view newClaims observedAtMs temporal).applied ↔
      decision view newClaims observedAtMs temporal event.oldClaimId = some (.inl event) := by
  rw [inferExplicitSupersessions_eq]
  simp only [List.mem_insertionSort, List.mem_filterMap, mem_decidingProposals, decision,
    Option.map_eq_some_iff]
  constructor
  · intro ⟨made, decides, accepted⟩
    unfold acceptedEvent at accepted
    cases order : holdReason temporal made.oldClaimId made.new.claimId with
    | some reason => simp [order] at accepted
    | none =>
      simp only [order, Option.some.injEq] at accepted
      subst accepted
      exact ⟨made, decides, by simp [settledBy, order]⟩
  · intro ⟨made, decides, settled⟩
    have named := decidingProposal_named decides
    refine ⟨made, by rw [named]; exact decides, ?_⟩
    unfold settledBy at settled
    unfold acceptedEvent
    cases order : holdReason temporal made.oldClaimId made.new.claimId with
    | some reason => simp [order] at settled
    | none => simpa [order] using settled

/-- The held supersessions are the decisions to hold. -/
theorem mem_held {view : WorkspaceView} {newClaims : List ReplacementCandidate}
    {observedAtMs : Nat} {temporal : RelateTemporalPolicy} {held : HeldExplicitSupersession} :
    held ∈ (inferExplicitSupersessions view newClaims observedAtMs temporal).held ↔
      decision view newClaims observedAtMs temporal held.oldClaimId.value = some (.inr held) := by
  rw [inferExplicitSupersessions_eq]
  simp only [List.mem_insertionSort, List.mem_filterMap, mem_decidingProposals, decision,
    Option.map_eq_some_iff]
  constructor
  · intro ⟨made, decides, rowed⟩
    unfold heldRow at rowed
    cases order : holdReason temporal made.oldClaimId made.new.claimId with
    | none => simp [order] at rowed
    | some reason =>
      simp only [order, Option.map_some, Option.some.injEq] at rowed
      subst rowed
      exact ⟨made, decides, by simp [settledBy, order]⟩
  · intro ⟨made, decides, settled⟩
    have named := decidingProposal_named decides
    refine ⟨made, by rw [named]; exact decides, ?_⟩
    unfold settledBy at settled
    unfold heldRow
    cases order : holdReason temporal made.oldClaimId made.new.claimId with
    | none => simp [order] at settled
    | some reason => simpa [order] using settled

/-- The old claim a decision is about. -/
def decidedClaim : ClaimSupersededV2 ⊕ HeldExplicitSupersession → String
  | .inl event => event.oldClaimId
  | .inr held => held.oldClaimId.value

/-- An outcome carries a decision. -/
def ExplicitSupersessionOutcome.Carries (outcome : ExplicitSupersessionOutcome) :
    ClaimSupersededV2 ⊕ HeldExplicitSupersession → Prop
  | .inl event => event ∈ outcome.applied
  | .inr held => held ∈ outcome.held

/-- The decision about an old claim is the one the outcome carries for it. -/
theorem decision_eq_some {view : WorkspaceView} {newClaims : List ReplacementCandidate}
    {observedAtMs : Nat} {temporal : RelateTemporalPolicy} {oldClaimId : String}
    {settled : ClaimSupersededV2 ⊕ HeldExplicitSupersession} :
    decision view newClaims observedAtMs temporal oldClaimId = some settled ↔
      decidedClaim settled = oldClaimId ∧
        (inferExplicitSupersessions view newClaims observedAtMs temporal).Carries settled := by
  have carried : ∀ settled, decision view newClaims observedAtMs temporal (decidedClaim settled) =
      some settled ↔
        (inferExplicitSupersessions view newClaims observedAtMs temporal).Carries settled := by
    intro settled
    cases settled with
    | inl event => exact mem_applied.symm
    | inr held => exact mem_held.symm
  constructor
  · intro decides
    have named : decidedClaim settled = oldClaimId := by
      obtain ⟨made, found, rfl⟩ := Option.map_eq_some_iff.mp decides
      rw [← decidingProposal_named found]
      unfold settledBy
      split <;> rfl
    refine ⟨named, (carried settled).mp ?_⟩
    rw [named]
    exact decides
  · intro ⟨named, carries⟩
    rw [← named]
    exact (carried settled).mpr carries

/-- Each old claim is retired by one applied supersession at most. -/
theorem nodup_applied (temporal : RelateTemporalPolicy) (observedAtMs : Nat) (view : WorkspaceView)
    (newClaims : List ReplacementCandidate) :
    (((decidingProposals view newClaims).filterMap
      (acceptedEvent temporal observedAtMs)).map ClaimSupersededV2.oldClaimId).Nodup := by
  apply nodup_map_filterMap (nodup_deciding [] (proposals view newClaims))
  intro made _ event accepted
  unfold acceptedEvent at accepted
  split at accepted
  · cases accepted
  · rw [← Option.some.inj accepted]
    rfl

/-- An inference retires each claim once. -/
theorem nodup_applied_sorted (view : WorkspaceView) (candidates : List ReplacementCandidate)
    (observedAtMs : Nat) (temporal : RelateTemporalPolicy) :
    ((inferExplicitSupersessions view candidates observedAtMs temporal).applied.map
      ClaimSupersededV2.oldClaimId).Nodup := by
  rw [inferExplicitSupersessions_eq]
  have sorted := (List.perm_insertionSort appliedLe ((decidingProposals view candidates).filterMap
    (acceptedEvent temporal observedAtMs))).map ClaimSupersededV2.oldClaimId
  exact sorted.nodup_iff.mpr (nodup_applied temporal observedAtMs view candidates)

omit [Blake3] in
/-- Each old claim is held by one row at most. -/
theorem nodup_held (temporal : RelateTemporalPolicy) (view : WorkspaceView)
    (newClaims : List ReplacementCandidate) :
    (((decidingProposals view newClaims).filterMap (heldRow temporal)).map
      fun held => held.oldClaimId.value).Nodup := by
  apply nodup_map_filterMap (nodup_deciding [] (proposals view newClaims))
  intro made _ held rowed
  obtain ⟨reason, _, rfl⟩ := Option.map_eq_some_iff.mp rowed
  rfl

omit [Blake3] in
/-- Applied supersessions tie only on one old claim. -/
theorem appliedLe_tied (left right : ClaimSupersededV2) (before : appliedLe left right)
    (after : appliedLe right left) : left.oldClaimId = right.oldClaimId := by
  rcases before with less | ⟨same, _⟩
  · rcases after with more | ⟨same, _⟩
    · exact absurd more less.asymm
    · exact same.symm
  · exact same

omit [Blake3] in
/-- Held supersessions tie only on one old claim. -/
theorem heldLe_tied (left right : HeldExplicitSupersession) (before : heldLe left right)
    (after : heldLe right left) : left.oldClaimId.value = right.oldClaimId.value := by
  rcases before with less | ⟨same, _⟩
  · rcases after with more | ⟨same, _⟩
    · exact absurd more less.asymm
    · exact same.symm
  · exact same

instance : Std.Total appliedLe where
  total left right := by
    rcases lt_trichotomy left.oldClaimId right.oldClaimId with less | same | more
    · exact Or.inl (Or.inl less)
    · rcases le_total left.newClaimId right.newClaimId with before | after
      · exact Or.inl (Or.inr ⟨same, before⟩)
      · exact Or.inr (Or.inr ⟨same.symm, after⟩)
    · exact Or.inr (Or.inl more)

instance : IsTrans ClaimSupersededV2 appliedLe where
  trans first second third := by
    intro earlier later
    rcases earlier with less | ⟨same, before⟩
    · rcases later with less' | ⟨same', _⟩
      · exact Or.inl (less.trans less')
      · exact Or.inl (same' ▸ less)
    · rcases later with less' | ⟨same', before'⟩
      · exact Or.inl (same ▸ less')
      · exact Or.inr ⟨same.trans same', before.trans before'⟩

instance : Std.Total heldLe where
  total left right := by
    rcases lt_trichotomy left.oldClaimId.value right.oldClaimId.value with less | same | more
    · exact Or.inl (Or.inl less)
    · rcases le_total left.newClaimId.value right.newClaimId.value with before | after
      · exact Or.inl (Or.inr ⟨same, before⟩)
      · exact Or.inr (Or.inr ⟨same.symm, after⟩)
    · exact Or.inr (Or.inl more)

instance : IsTrans HeldExplicitSupersession heldLe where
  trans first second third := by
    intro earlier later
    rcases earlier with less | ⟨same, before⟩
    · rcases later with less' | ⟨same', _⟩
      · exact Or.inl (less.trans less')
      · exact Or.inl (same' ▸ less)
    · rcases later with less' | ⟨same', before'⟩
      · exact Or.inl (same ▸ less')
      · exact Or.inr ⟨same.trans same', before.trans before'⟩

/-- Two inferences come out the same exactly when they decide every old claim the same. -/
theorem inferExplicitSupersessions_ext {view view' : WorkspaceView}
    {newClaims newClaims' : List ReplacementCandidate} {observedAtMs : Nat}
    {temporal temporal' : RelateTemporalPolicy} :
    inferExplicitSupersessions view newClaims observedAtMs temporal =
        inferExplicitSupersessions view' newClaims' observedAtMs temporal' ↔
      ∀ oldClaimId, decision view newClaims observedAtMs temporal oldClaimId =
        decision view' newClaims' observedAtMs temporal' oldClaimId := by
  constructor
  · intro same oldClaimId
    apply Option.ext
    intro settled
    rw [decision_eq_some, decision_eq_some, same]
  · intro same
    have applied : ∀ event,
        event ∈ (inferExplicitSupersessions view newClaims observedAtMs temporal).applied ↔
          event ∈ (inferExplicitSupersessions view' newClaims' observedAtMs temporal').applied := by
      intro event
      rw [mem_applied, mem_applied, same]
    have held : ∀ row,
        row ∈ (inferExplicitSupersessions view newClaims observedAtMs temporal).held ↔
          row ∈ (inferExplicitSupersessions view' newClaims' observedAtMs temporal').held := by
      intro row
      rw [mem_held, mem_held, same]
    rw [inferExplicitSupersessions_eq, inferExplicitSupersessions_eq] at applied held ⊢
    simp only [List.mem_insertionSort] at applied held
    rw [insertionSort_eq_of_keyed appliedLe (nodup_applied temporal observedAtMs view newClaims)
        (nodup_applied temporal' observedAtMs view' newClaims') applied appliedLe_tied,
      insertionSort_eq_of_keyed heldLe (nodup_held temporal view newClaims)
        (nodup_held temporal' view' newClaims') held heldLe_tied]

end

end Texo.Ingest
