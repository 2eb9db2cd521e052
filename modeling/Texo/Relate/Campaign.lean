import Texo.Claims.Settlement
import Texo.Ops.Common

/-! # Relation campaigns

A campaign is named by two digests: one of the claims it relates with their eligibility and the
source order, one of the candidate policy. A checkpoint that carries both digests of the current
view says where the campaign stands.
-/
namespace Texo.Relate
open Texo.Events Texo.Knowledge Texo.Store Texo.Claims Texo.Semantics Texo.Ops

/-- `u64::to_be_bytes`. -/
def toBeBytes64 (value : Nat) : List UInt8 :=
  (List.range 8).map fun place => UInt8.ofNat (value / 256 ^ (7 - place))

/-- `hash_field`: the bytes a length-delimited field feeds to the digest. -/
def hashField (value : List UInt8) : List UInt8 := toBeBytes64 value.length ++ value

/-- `temporal_relation_tag`. -/
def temporalRelationTag : TemporalRelation → UInt8
  | .before => 1
  | .after => 2
  | .same => 3
  | .concurrent => 4
  | .unknown => 5

/-- What the temporal identity covers: every binding, then every order fact. -/
def temporalIdentity (policy : RelateTemporalPolicy) : List UInt8 :=
  hashField (asBytes "texo.relate.temporal-policy.v1") ++
    (policy.claimSnapshots.toList.flatMap fun binding =>
      hashField (asBytes binding.1) ++ hashField (asBytes binding.2)) ++
    policy.snapshotRelations.toList.flatMap fun fact =>
      hashField (asBytes fact.1.1) ++ hashField (asBytes fact.1.2) ++ [temporalRelationTag fact.2]

/-- Claims with their eligibility, and the identity of the source order. -/
structure CampaignBasis where
  claims : Std.ExtTreeMap String Bool
  temporalIdentityDigestHex : String

/-- One entry of a basis; the last entry of a claim stays. -/
def noteEligible (claims : Std.ExtTreeMap String Bool) (entry : String × Bool) :
    Std.ExtTreeMap String Bool :=
  claims.insert entry.1 entry.2

/-- A claim a relate pass may still relate. -/
def eligible (claim : Claims.ClaimView) : Bool := claim.status = .current

/-- `CampaignBasis::after_publication`: what was superseded or brought into conflict is no
longer eligible. -/
def CampaignBasis.afterPublication (basis : CampaignBasis) (supersessions : List SupersessionEdge)
    (conflicts : List ConflictEntry) : CampaignBasis :=
  let superseded := supersessions.foldl
    (fun claims edge => noteEligible claims (edge.oldClaim.value, false)) basis.claims
  { basis with
    claims := conflicts.foldl
      (fun claims conflict => noteEligible (noteEligible claims (conflict.claimA.value, false))
        (conflict.claimB.value, false)) superseded }

/-- What a basis digest covers. -/
def CampaignBasis.material (basis : CampaignBasis) : List UInt8 :=
  hashField (asBytes "texo.relate.campaign-basis.v1") ++
    (basis.claims.toList.flatMap fun entry =>
      hashField (asBytes entry.1) ++ [if entry.2 then 1 else 0]) ++
    hashField (asBytes basis.temporalIdentityDigestHex)

/-- The candidate policy: both thresholds as the bits of a float, and the resolved embedding
backend. -/
structure CandidatePolicy where
  clusterBits : UInt32
  prefilterBits : UInt32
  providerId : String
  baseUrl : String
  model : String
deriving DecidableEq

/-- `u32::to_be_bytes`. -/
def toBeBytes32 (value : UInt32) : List UInt8 :=
  (List.range 4).map fun place => UInt8.ofNat (value.toNat / 256 ^ (3 - place))

/-- What a candidate policy digest covers. -/
def CandidatePolicy.material (policy : CandidatePolicy) : List UInt8 :=
  hashField (asBytes "texo.relate.candidates.v1") ++ hashField (toBeBytes32 policy.clusterBits) ++
    hashField (toBeBytes32 policy.prefilterBits) ++ hashField (asBytes policy.providerId) ++
    hashField (asBytes policy.baseUrl) ++ hashField (asBytes policy.model)

/-- Where a relate run starts. -/
inductive CampaignStart where
  | alreadyComplete
  | run (cursor : Nat)
deriving DecidableEq, Repr

/-- `cursor_mismatch`. -/
def cursorMismatch (requested expected : Nat) : TexoError :=
  .opInput "texo.relate.run" ("candidate cursor " ++ toString requested ++
    " does not match durable resume cursor " ++ toString expected)

/-- A checkpoint that names both digests of the current view. -/
def RelationCampaignCheckpointV1.names (checkpoint : RelationCampaignCheckpointV1)
    (basisDigest policyDigest : String) : Bool :=
  checkpoint.resultBasisDigestHex = basisDigest && checkpoint.candidatePolicyDigestHex = policyDigest

/-- `resolve_start`. -/
def resolveStart (latest : Option RelationCampaignCheckpointV1) (basisDigest policyDigest : String)
    (requested : Option Nat) : Except TexoError CampaignStart :=
  match (latest.filter fun checkpoint =>
      RelationCampaignCheckpointV1.names checkpoint basisDigest policyDigest).map
        RelationCampaignCheckpointV1.phase, requested with
  | some .complete, _ => .ok .alreadyComplete
  | some (.incomplete next), none => .ok (.run next)
  | some (.incomplete next), some cursor =>
    if cursor = 0 ∨ cursor = next then .ok (.run next) else .error (cursorMismatch cursor next)
  | none, none => .ok (.run 0)
  | none, some cursor =>
    if cursor = 0 then
      .ok (.run cursor)
    else
      .error (.opInput "texo.relate.run" ("candidate cursor " ++ toString cursor ++
        " has no matching durable campaign; restart from cursor 0"))

/-- One row of the campaign stream; rows of other kinds are not read. -/
def scanCheckpoint (store : JournalRead) (card : CampaignCard) (entry : Entry) :
    Except TexoError CampaignCard :=
  if entry.payload.kind = .campaignCheckpoint then
    (store.readRaw entry).map card.applyEvent
  else
    .ok card

/-- `latest_checkpoint`: the last checkpoint up to the view's frontier. -/
def latestCheckpoint (store : JournalRead) (view : WorkspaceView) :
    Except TexoError (Option RelationCampaignCheckpointV1) :=
  (((store.journal.byEntity (entityForRelationCampaign view.workspaceId)).takeWhile
    fun entry => entry.sequence ≤ view.frontier).foldlM (scanCheckpoint store) {}).map
      CampaignCard.latest

section Digest
variable [Blake3]

/-- `RelateTemporalPolicy::campaign_identity_digest`. -/
def campaignIdentityDigest (policy : RelateTemporalPolicy) : String :=
  Blake3.hex (temporalIdentity policy)

/-- `CampaignBasis::from_view`. -/
def CampaignBasis.fromView (view : WorkspaceView) (temporal : RelateTemporalPolicy) :
    CampaignBasis where
  claims := (view.claims.map fun claim => (claim.card.claimId, eligible claim)).foldl noteEligible ∅
  temporalIdentityDigestHex := campaignIdentityDigest temporal

/-- `CampaignBasis::digest`. -/
def CampaignBasis.digest (basis : CampaignBasis) : String := Blake3.hex basis.material

/-- `candidate_policy_digest`. -/
def CandidatePolicy.digest (policy : CandidatePolicy) : String := Blake3.hex policy.material

/-- The completion test of `settlement_gate`. -/
def settlementComplete (store : JournalRead) (workspaceId : String) (policy : CandidatePolicy)
    (view : WorkspaceView) : Except TexoError Bool := do
  let temporal ← workspaceTemporalPolicy store workspaceId view
  let latest ← latestCheckpoint store view
  .ok (latest.any fun checkpoint =>
    RelationCampaignCheckpointV1.names checkpoint (CampaignBasis.fromView view temporal).digest
      policy.digest && checkpoint.phase = .complete)

end Digest

end Texo.Relate
