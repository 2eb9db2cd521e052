import Texo.Relate.Backend

/-! # What a relate pass publishes

A pass appends the verdicts it acquired and the pairs it had to defer. A complete pass also
appends its supersessions and those of its conflicts that no conflict card stands for yet, and
every pass ends with a checkpoint of the campaign.
-/
namespace Texo.Relate
open Texo.Events Texo.Knowledge Texo.Foundation Texo.Store Texo.Claims Texo.Semantics Texo.Ops

/-- `RelateOutcome::unresolved`. -/
def unresolvedOf : RelateOutcome → List UnresolvedPair
  | .complete _ => []
  | .incomplete outcome => outcome.unresolved

/-- `relate_publication`: only a complete pass derives edges. -/
def relatePublication : RelateOutcome → RelatedClaims
  | .complete outcome =>
    { supersessions := outcome.related.supersessions, conflicts := outcome.related.conflicts }
  | .incomplete _ => {}

/-- The provenance of a pair's verdict, empty where there is none. -/
def cacheKeyOf (cacheKeys : PairMap String String) (older newer : ClaimId) : String :=
  (cacheKeys[(older.value, newer.value)]?).getD ""

/-- The event of one judgment. -/
def judgedEvent (workspaceId : WorkspaceId) (related : SemanticRelateOutput) (observedAtMs : Nat)
    (judgment : PairJudgment) : RelationJudgedV1 where
  workspaceId := workspaceId
  olderClaim := judgment.olderClaim
  newerClaim := judgment.newerClaim
  relation := judgment.verdict.relation.toSettled
  scorePpm := judgment.verdict.scorePpm
  judgeFingerprint := related.judgeFingerprint
  cacheKeyHex := cacheKeyOf related.cacheKeys judgment.olderClaim judgment.newerClaim
  observedAtMs := observedAtMs

/-- `append_relation_judgments`: verdicts reused from the journal are not appended again. -/
def relationJudgments (workspaceId : WorkspaceId) (related : SemanticRelateOutput)
    (observedAtMs : Nat) : List RelationJudgedV1 :=
  (related.outcome.judgments.filter fun judgment => !judgment.reusedAuthority).map
    (judgedEvent workspaceId related observedAtMs)

/-- `append_relation_deferrals`. -/
def relationDeferrals (workspaceId : WorkspaceId) (unresolved : List UnresolvedPair)
    (observedAtMs : Nat) : List RelationDeferredV1 :=
  unresolved.map fun pair =>
    { workspaceId := workspaceId
      olderClaim := pair.oldClaim
      newerClaim := pair.newClaim
      failureClass := pair.failure.failureClass
      attempts := pair.failure.attempts
      observedAtMs := observedAtMs }

section Digest
variable [Blake3]

/-- `append_relate_supersessions`, the event of one edge. -/
def relateSuperseded (workspaceId : String) (cacheKeys : PairMap String String) (observedAtMs : Nat)
    (edge : SupersessionEdge) : ClaimSupersededV2 where
  oldClaimId := edge.oldClaim.value
  newClaimId := edge.newClaim.value
  workspaceId := workspaceId
  reason := edge.reason
  decidedBy := "texo-relate"
  observedAtMs := observedAtMs
  transition := transitionRecord claimMachine (entityForClaim edge.oldClaim.value) 1 2
    [⟨0, "relate:" ++ cacheKeyOf cacheKeys edge.oldClaim edge.newClaim⟩] observedAtMs

/-- `append_relate_conflicts`, the event of one conflict. -/
def relateOpened (workspaceId : String) (cacheKeys : PairMap String String) (observedAtMs : Nat)
    (entry : ConflictEntry) : ConflictOpenedV2 where
  conflictId := entry.conflictId.value
  workspaceId := workspaceId
  claimA := entry.claimA.value
  claimB := entry.claimB.value
  reason := entry.reason
  detector := "texo-relate"
  observedAtMs := observedAtMs
  transition := transitionRecord conflictMachine (entityForConflict entry.conflictId.value) 0 1
    [⟨0, "relate:" ++ cacheKeyOf cacheKeys entry.claimA entry.claimB⟩] observedAtMs

end Digest

/-- `existing_conflicts`. -/
def existingConflicts (view : WorkspaceView) : List String :=
  view.conflicts.map ConflictCard.conflictId

/-- The conflicts `append_relate_conflicts` opens: those no card stands for. -/
def newConflicts (view : WorkspaceView) (conflicts : List ConflictEntry) : List ConflictEntry :=
  conflicts.filter fun entry => entry.conflictId.value ∉ existingConflicts view

variable [Blake3]

/-- The events a pass appends before its checkpoint, in order. -/
def publishedEvents (workspaceId : WorkspaceId) (view : WorkspaceView)
    (related : SemanticRelateOutput) (observedAtMs : Nat) : List Payload :=
  (relationJudgments workspaceId related observedAtMs).map .relationJudged ++
    (relationDeferrals workspaceId (unresolvedOf related.outcome) observedAtMs).map
      .relationDeferred ++
    (relatePublication related.outcome).supersessions.map (fun edge =>
      .claimSuperseded (relateSuperseded view.workspaceId related.cacheKeys observedAtMs edge)) ++
    (newConflicts view (relatePublication related.outcome).conflicts).map fun entry =>
      .conflictOpened (relateOpened view.workspaceId related.cacheKeys observedAtMs entry)

/-- The basis a pass leaves behind. -/
def resultBasis (basis : CampaignBasis) (view : WorkspaceView) : RelateOutcome → CampaignBasis
  | .complete outcome =>
    basis.afterPublication outcome.related.supersessions
      (newConflicts view outcome.related.conflicts)
  | .incomplete _ => basis

/-- The phase a pass leaves its campaign in. -/
def resultPhase : RelateOutcome → CampaignPhase
  | .complete _ => .complete
  | .incomplete outcome => .incomplete outcome.nextCandidateCursor

end Texo.Relate
