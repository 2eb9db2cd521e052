import Texo.Foundation.Folds
import Texo.Ops.Common

/-! # Source order read off the journal

On a readable journal the evidence, the snapshot relations and the policy built from them are
functions of the rows. The order of two claims is then the order of the snapshots that support
them, each taken into account only when its claim is listed.
-/
namespace Texo.Ops
open Texo.Events Texo.Knowledge Texo.Store Texo.Claims Texo.Semantics Texo.Foundation

/-- One row of the evidence replay. -/
def noteEvidence (scan : EvidenceScan) (row : Entry) : EvidenceScan :=
  scan.note row.sequence row.payload

/-- The evidence of some rows. -/
def evidenceOf (rows : List Entry) : EvidenceProjection := joinEvidence (rows.foldl noteEvidence {})

/-- One row of the source-order replay. -/
def noteOrder (projection : TemporalProjection) (row : Entry) : TemporalProjection :=
  match row.payload with
  | .sourceSnapshotRelation relation => insertTemporal projection relation
  | _ => projection

/-- The snapshot relations of some rows. -/
def orderOf (rows : List Entry) : TemporalProjection := rows.foldl noteOrder ∅

/-- A replay up to a frontier visits exactly the rows up to it. -/
theorem rowsThrough_readable (journal : Journal) (workspaceId : String) (frontier : Nat) :
    (readable journal).rowsThrough (scopeForWorkspace workspaceId) frontier =
      (workspaceRows journal workspaceId).takeWhile fun row => row.sequence ≤ frontier := by
  rw [JournalRead.rowsThrough, JournalRead.flatten_pages, rowsAfter_none]
  rfl

/-- Every row is up to the frontier of the rows. -/
theorem takeWhile_frontierOf {rows : List Entry} (ordered : Ordered Entry.sequence rows) :
    (rows.takeWhile fun row => row.sequence ≤ frontierOf rows) = rows := by
  rw [List.takeWhile_eq_self_iff]
  intro row member
  cases final : rows.getLast? with
  | none => simp [List.getLast?_eq_none_iff.mp final] at member
  | some last =>
    have bound := ordered.le_getLast final member
    simpa [frontierOf, final] using bound

/-- A replay up to the view's frontier visits every row. -/
theorem rowsThrough_frontier (journal : Journal) (workspaceId : String) :
    (readable journal).rowsThrough (scopeForWorkspace workspaceId)
      (viewOf workspaceId journal).frontier = workspaceRows journal workspaceId := by
  rw [rowsThrough_readable]
  exact takeWhile_frontierOf (journal.region_ordered _)

/-- The evidence scan of readable rows does not fail. -/
theorem foldlM_scanEvidence (journal : Journal) (rows : List Entry) (scan : EvidenceScan) :
    rows.foldlM (scanEvidence (readable journal)) scan = .ok (rows.foldl noteEvidence scan) := by
  induction rows generalizing scan with
  | nil => rfl
  | cons row rest ih =>
    have step : scanEvidence (readable journal) scan row = .ok (noteEvidence scan row) := by
      unfold scanEvidence
      by_cases kind : evidenceKind row.payload.kind = true
      · rw [if_pos kind]
        rfl
      · rw [if_neg kind]
        unfold noteEvidence
        cases stored : row.payload with
        | evidenceOccurrenceRecorded _ => exact absurd (by rw [stored]; rfl) kind
        | claimEvidenceLinked _ => exact absurd (by rw [stored]; rfl) kind
        | evidenceReconciliationAccepted _ => exact absurd (by rw [stored]; rfl) kind
        | _ => rfl
    rw [List.foldlM_cons, step]
    exact ih _

/-- The relation scan of readable rows does not fail. -/
theorem foldlM_scanTemporal (journal : Journal) (rows : List Entry)
    (projection : TemporalProjection) :
    rows.foldlM (scanTemporal (readable journal)) projection =
      .ok (rows.foldl noteOrder projection) := by
  induction rows generalizing projection with
  | nil => rfl
  | cons row rest ih =>
    have step : scanTemporal (readable journal) projection row = .ok (noteOrder projection row) := by
      unfold scanTemporal noteOrder
      by_cases kind : row.payload.kind = .sourceSnapshotRelation
      · rw [if_pos kind]
        rfl
      · rw [if_neg kind]
        cases stored : row.payload with
        | sourceSnapshotRelation _ => exact absurd (by rw [stored]; rfl) kind
        | _ => rfl
    rw [List.foldlM_cons, step]
    exact ih _

/-- The order facts a policy takes from some rows. -/
def orderFacts (rows : List Entry) : PairMap String TemporalRelation :=
  ((orderOf rows).toList.foldl (fun (policy : RelateTemporalPolicy) fact =>
    policy.insertRelationIds fact.1.1 fact.1.2 fact.2) {}).snapshotRelations

/-- The order of two claims by the snapshots they are bound to. -/
def compareSnapshots (relations : PairMap String TemporalRelation) :
    Option String → Option String → Option TemporalRelation
  | none, none => none
  | some left, some right =>
    if left = right then
      some .same
    else
      match relations[(left, right)]? with
      | some relation => some relation
      | none =>
        match relations[(right, left)]? with
        | some relation => some relation.invert
        | none => some .unknown
  | some _, none => some .unknown
  | none, some _ => some .unknown

/-- A policy compares claims by their snapshots. -/
theorem compareClaims_eq (policy : RelateTemporalPolicy) (left right : ClaimId) :
    policy.compareClaims left right = compareSnapshots policy.snapshotRelations
      policy.claimSnapshots[left.value]? policy.claimSnapshots[right.value]? := by
  unfold RelateTemporalPolicy.compareClaims
  cases policy.claimSnapshots[left.value]? <;> cases policy.claimSnapshots[right.value]? <;> rfl

/-- A claim id parses to an identifier of the same text. -/
theorem claimIdOf_value {value : String} {claimId : ClaimId} (parsed : claimIdOf value = .ok claimId) :
    claimId.value = value := by
  unfold claimIdOf Branded.tryFrom at parsed
  split at parsed
  · cases parsed
  · rename_i found
    split at found
    · cases found
    · split at found
      · rw [← Except.ok.inj parsed, ← Except.ok.inj found]
      · cases found

/-- The snapshot of the latest support of a claim. -/
def supportIn (evidence : EvidenceProjection) (claimId : String) : Option String :=
  (latestSupport (evidence.forClaim claimId)).map fun latest => latest.occurrence.snapshotId.value

/-- The snapshot that supports a claim in some rows. -/
def supportOf (rows : List Entry) (claimId : String) : Option String :=
  supportIn (evidenceOf rows) claimId

/-- Binding a claim changes nothing but its own snapshot. -/
theorem bindLatest_spec (evidence : EvidenceProjection) (policy : RelateTemporalPolicy)
    (own : ClaimId) :
    (bindLatest evidence policy own).snapshotRelations = policy.snapshotRelations ∧
      ∀ claimId : String, (bindLatest evidence policy own).claimSnapshots[claimId]? =
        if claimId = own.value then
          (supportIn evidence claimId).or policy.claimSnapshots[claimId]?
        else
          policy.claimSnapshots[claimId]? := by
  unfold bindLatest supportIn
  cases latest : latestSupport (evidence.forClaim own.value) with
  | none =>
    refine ⟨rfl, fun claimId => ?_⟩
    by_cases same : claimId = own.value
    · rw [if_pos same, same, latest]
      rfl
    · rw [if_neg same]
  | some found =>
    refine ⟨rfl, fun claimId => ?_⟩
    by_cases same : claimId = own.value
    · rw [if_pos same, same, latest]
      simp [RelateTemporalPolicy.bindClaim]
    · have other : ¬ own.value = claimId := fun equal => same equal.symm
      rw [if_neg same]
      simp [RelateTemporalPolicy.bindClaim, Std.ExtTreeMap.getElem?_insert, other]

/-- Claims of a view that are all bound carry claim ids. -/
theorem branded_of_bound {evidence : EvidenceProjection} {claims : List Claims.ClaimView}
    {policy bound : RelateTemporalPolicy}
    (run : claims.foldlM (bindViewClaim evidence) policy = .ok bound) :
    ∀ claim ∈ claims, ∃ own, claimIdOf claim.card.claimId = .ok own := by
  induction claims generalizing policy with
  | nil =>
    intro claim listed
    cases listed
  | cons head rest ih =>
    rw [List.foldlM_cons] at run
    obtain ⟨next, first, later⟩ := Foundation.bind_eq_ok.mp run
    intro claim listed
    rcases List.mem_cons.mp listed with rfl | inside
    · unfold bindViewClaim at first
      cases parsed : claimIdOf claim.card.claimId with
      | error error =>
        rw [parsed] at first
        cases first
      | ok own => exact ⟨own, rfl⟩
    · exact ih later claim inside

/-- Binding the claims of a view binds each listed claim to its support. -/
theorem foldlM_bindViewClaim {evidence : EvidenceProjection} {claims : List Claims.ClaimView}
    {policy bound : RelateTemporalPolicy}
    (run : claims.foldlM (bindViewClaim evidence) policy = .ok bound) :
    bound.snapshotRelations = policy.snapshotRelations ∧ ∀ claimId : String,
      bound.claimSnapshots[claimId]? =
        if claimId ∈ claims.map fun claim => claim.card.claimId then
          (supportIn evidence claimId).or policy.claimSnapshots[claimId]?
        else
          policy.claimSnapshots[claimId]? := by
  induction claims generalizing policy with
  | nil =>
    have same : policy = bound := Except.ok.inj run
    simp [same]
  | cons claim rest ih =>
    rw [List.foldlM_cons] at run
    unfold bindViewClaim at run
    cases parsed : claimIdOf claim.card.claimId with
    | error error => simp [parsed, Except.map, bind, Except.bind] at run
    | ok own =>
      have named := claimIdOf_value parsed
      simp only [parsed, Except.map, bind, Except.bind] at run
      obtain ⟨relations, snapshots⟩ := ih run
      obtain ⟨ownRelations, ownSnapshots⟩ := bindLatest_spec evidence policy own
      refine ⟨relations.trans ownRelations, fun claimId => ?_⟩
      rw [snapshots claimId, ownSnapshots claimId, named]
      simp only [List.map_cons, List.mem_cons]
      by_cases same : claimId = claim.card.claimId
      · simp only [same, true_or, if_true]
        split
        · cases supportIn evidence claim.card.claimId <;> rfl
        · rfl
      · simp only [same, false_or, if_false]

/-- Adding order facts leaves bindings alone, and the facts depend only on earlier facts. -/
theorem foldl_insertRelationIds (facts : List ((String × String) × TemporalRelation))
    (policy : RelateTemporalPolicy) :
    (facts.foldl (fun policy fact => policy.insertRelationIds fact.1.1 fact.1.2 fact.2)
        policy).claimSnapshots = policy.claimSnapshots ∧
      ∀ other : RelateTemporalPolicy, other.snapshotRelations = policy.snapshotRelations →
        (facts.foldl (fun policy fact => policy.insertRelationIds fact.1.1 fact.1.2 fact.2)
          policy).snapshotRelations =
        (facts.foldl (fun policy fact => policy.insertRelationIds fact.1.1 fact.1.2 fact.2)
          other).snapshotRelations := by
  induction facts generalizing policy with
  | nil => exact ⟨rfl, fun other same => same.symm⟩
  | cons fact rest ih =>
    obtain ⟨snapshots, relations⟩ := ih (policy.insertRelationIds fact.1.1 fact.1.2 fact.2)
    constructor
    · rw [List.foldl_cons, snapshots]
      unfold RelateTemporalPolicy.insertRelationIds
      split <;> rfl
    · intro other same
      rw [List.foldl_cons, List.foldl_cons]
      apply relations
      unfold RelateTemporalPolicy.insertRelationIds
      rw [same]
      split
      · exact same
      · rfl

/-- The claims a view lists. -/
def WorkspaceListed (view : WorkspaceView) (claimId : String) : Prop :=
  claimId ∈ view.claims.map fun claim => claim.card.claimId

instance (view : WorkspaceView) (claimId : String) : Decidable (WorkspaceListed view claimId) :=
  inferInstanceAs (Decidable (claimId ∈ view.claims.map fun claim => claim.card.claimId))

/-- The evidence of the current view is the evidence of all rows. -/
theorem assembleEvidence_current (journal : Journal) (workspaceId : String) :
    assembleEvidenceThrough (readable journal) workspaceId (viewOf workspaceId journal).frontier =
      .ok (evidenceOf (workspaceRows journal workspaceId)) := by
  rw [assembleEvidenceThrough, rowsThrough_frontier, foldlM_scanEvidence]
  rfl

/-- The source order of the current view is the order of all rows. -/
theorem assembleTemporal_current (journal : Journal) (workspaceId : String) :
    assembleTemporalThrough (readable journal) workspaceId (viewOf workspaceId journal).frontier =
      .ok (orderOf (workspaceRows journal workspaceId)) := by
  rw [assembleTemporalThrough, rowsThrough_frontier, foldlM_scanTemporal]
  rfl

/-- The workspace policy exists where every listed claim carries a claim id. -/
theorem workspaceTemporalPolicy_total {journal : Journal} {workspaceId : String}
    (branded : ∀ claimId, WorkspaceListed (viewOf workspaceId journal) claimId →
      ∃ own, claimIdOf claimId = .ok own) :
    ∃ temporal, workspaceTemporalPolicy (readable journal) workspaceId
      (viewOf workspaceId journal) = .ok temporal := by
  unfold workspaceTemporalPolicy workspaceTemporalPolicyThrough
  rw [assembleEvidence_current, assembleTemporal_current]
  have binds : ∀ policy, ∀ claim ∈ (viewOf workspaceId journal).claims, ∃ next,
      bindViewClaim (evidenceOf (workspaceRows journal workspaceId)) policy claim = .ok next := by
    intro policy claim listed
    obtain ⟨own, parsed⟩ := branded claim.card.claimId (List.mem_map.mpr ⟨claim, listed, rfl⟩)
    exact ⟨_, by rw [bindViewClaim, parsed]; rfl⟩
  obtain ⟨bound, run⟩ := Foundation.foldlM_total binds {}
  simp only [run, bind, Except.bind]
  exact ⟨_, rfl⟩

/-- A policy through a frontier holds the order facts up to it, and binds each listed claim to the
snapshot that supports it there. -/
theorem workspaceTemporalPolicyThrough_maps {journal : Journal} {workspaceId : String}
    {view : WorkspaceView} {frontier : Nat} {temporal : RelateTemporalPolicy}
    (assembled : workspaceTemporalPolicyThrough (readable journal) workspaceId view frontier =
      .ok temporal) :
    temporal.snapshotRelations =
        orderFacts ((readable journal).rowsThrough (scopeForWorkspace workspaceId) frontier) ∧
      ∀ claimId : String, temporal.claimSnapshots[claimId]? =
        if WorkspaceListed view claimId then
          supportOf ((readable journal).rowsThrough (scopeForWorkspace workspaceId) frontier) claimId
        else none := by
  unfold workspaceTemporalPolicyThrough assembleEvidenceThrough assembleTemporalThrough at assembled
  simp only [foldlM_scanEvidence, foldlM_scanTemporal, Except.map, bind, Except.bind] at assembled
  generalize (readable journal).rowsThrough (scopeForWorkspace workspaceId) frontier = rows
    at assembled ⊢
  cases bound : view.claims.foldlM (bindViewClaim (evidenceOf rows)) {} with
  | error error =>
    have failed := assembled
    unfold evidenceOf at bound
    simp [bound] at failed
  | ok policy =>
    have done := assembled
    unfold evidenceOf at bound
    simp only [bound, Except.ok.injEq] at done
    obtain ⟨relations, snapshots⟩ := foldlM_bindViewClaim bound
    obtain ⟨bindings, facts⟩ := foldl_insertRelationIds (orderOf rows).toList policy
    subst done
    unfold orderOf at bindings facts
    refine ⟨facts {} relations.symm, fun claimId => ?_⟩
    rw [bindings, snapshots]
    simp only [Std.ExtTreeMap.getElem?_empty, Option.or_none]
    rfl

/-- The spec of a policy through a frontier: two claims compare as the snapshots that support them
up to it, where they are listed. -/
theorem workspaceTemporalPolicyThrough_spec {journal : Journal} {workspaceId : String}
    {view : WorkspaceView} {frontier : Nat} {temporal : RelateTemporalPolicy}
    (assembled : workspaceTemporalPolicyThrough (readable journal) workspaceId view frontier =
      .ok temporal) (left right : ClaimId) :
    temporal.compareClaims left right =
      compareSnapshots
        (orderFacts ((readable journal).rowsThrough (scopeForWorkspace workspaceId) frontier))
        (if WorkspaceListed view left.value then
          supportOf ((readable journal).rowsThrough (scopeForWorkspace workspaceId) frontier)
            left.value else none)
        (if WorkspaceListed view right.value then
          supportOf ((readable journal).rowsThrough (scopeForWorkspace workspaceId) frontier)
            right.value else none) := by
  obtain ⟨relations, snapshots⟩ := workspaceTemporalPolicyThrough_maps assembled
  rw [compareClaims_eq, relations, snapshots, snapshots]

/-- The spec of the workspace policy: two claims compare as the snapshots that support them
where they are listed. -/
theorem workspaceTemporalPolicy_spec {journal : Journal} {workspaceId : String}
    {temporal : RelateTemporalPolicy}
    (assembled : workspaceTemporalPolicy (readable journal) workspaceId (viewOf workspaceId journal) =
      .ok temporal) (left right : ClaimId) :
    temporal.compareClaims left right =
      compareSnapshots (orderFacts (workspaceRows journal workspaceId))
        (if WorkspaceListed (viewOf workspaceId journal) left.value then
          supportOf (workspaceRows journal workspaceId) left.value else none)
        (if WorkspaceListed (viewOf workspaceId journal) right.value then
          supportOf (workspaceRows journal workspaceId) right.value else none) := by
  have spec := workspaceTemporalPolicyThrough_spec assembled left right
  rw [rowsThrough_frontier] at spec
  exact spec

/-- The claims of a view with a policy carry claim ids. -/
theorem branded_of_policy {store : JournalRead} {workspaceId : String} {view : WorkspaceView}
    {frontier : Nat} {temporal : RelateTemporalPolicy}
    (assembled : workspaceTemporalPolicyThrough store workspaceId view frontier = .ok temporal) :
    ∀ claim ∈ view.claims, ∃ own, claimIdOf claim.card.claimId = .ok own := by
  unfold workspaceTemporalPolicyThrough at assembled
  obtain ⟨evidence, _, assembled⟩ := Foundation.bind_eq_ok.mp assembled
  obtain ⟨relations, _, assembled⟩ := Foundation.bind_eq_ok.mp assembled
  obtain ⟨bound, run, _⟩ := Foundation.bind_eq_ok.mp assembled
  exact branded_of_bound run

/-- A policy of a view exists through every frontier of every journal, or through none. -/
theorem workspaceTemporalPolicyThrough_exists {journal : Journal} (other : Journal)
    {workspaceId : String} {view : WorkspaceView} {frontier : Nat} {temporal : RelateTemporalPolicy}
    (assembled : workspaceTemporalPolicyThrough (readable journal) workspaceId view frontier =
      .ok temporal) (later : Nat) :
    ∃ policy, workspaceTemporalPolicyThrough (readable other) workspaceId view later = .ok policy := by
  have branded := branded_of_policy assembled
  unfold workspaceTemporalPolicyThrough assembleEvidenceThrough assembleTemporalThrough
  simp only [foldlM_scanEvidence, foldlM_scanTemporal, Except.map, bind, Except.bind]
  have binds : ∀ evidence policy, ∀ claim ∈ view.claims, ∃ next,
      bindViewClaim evidence policy claim = .ok next := by
    intro evidence policy claim listed
    obtain ⟨own, parsed⟩ := branded claim listed
    exact ⟨_, by rw [bindViewClaim, parsed]; rfl⟩
  obtain ⟨bound, run⟩ := Foundation.foldlM_total (binds (joinEvidence
    (((readable other).rowsThrough (scopeForWorkspace workspaceId) later).foldl noteEvidence {}))) {}
  rw [run]
  exact ⟨_, rfl⟩

end Texo.Ops
