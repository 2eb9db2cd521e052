import Texo.Foundation.Sweep
import Texo.Ops.Candidates
import Texo.Ops.IndexHistory
import Texo.Ops.LinkedPairs
import Texo.Store.Growth

/-! # Progress of repeated reconciliations

The limit of all cuts the plan of a reconciliation before the linked pairs are left out of it.
Repeated runs link what the plan holds and nothing else, so they come to a pair behind the limit
never.
-/
namespace Texo.Ops
open Texo.Events Texo.Knowledge Texo.Store Texo.Claims Texo.CodeIndex Texo.Foundation Texo.Ingest

/-- `claims_from_view`. -/
def claimsFromView (view : WorkspaceView) : Except TexoError (List ReconcileClaim) :=
  (view.claims.filter fun claim => claim.status = .current).mapM fun claim =>
    (claimIdOf claim.card.claimId).map fun claimId => {
      claimId := claimId
      text := claim.card.text
      subjectHint := claim.card.subjectHint.getD ""
      predicateHint := claim.card.predicateHint.getD ""
      objectHint := claim.card.objectHint.getD ""
    }

/-- What a plan is drawn from. -/
structure PlanGround where
  claims : List ReconcileClaim
  artifact : CodeIndexArtifact
  limits : ReconcileLimits
deriving DecidableEq

/-- What `knowledge_reconcile` draws its plan from. -/
def planGround (artifactAt : SourceSnapshotId → Except TexoError CodeIndexArtifact)
    (workspaceId : String) (input : KnowledgeReconcileInput) (journal : Journal) :
    Except TexoError PlanGround := do
  let (limits, _, _) ← input.validated
  let view := viewOf workspaceId journal
  let latest ← latestSourceSnapshot (readable journal) workspaceId (some view.frontier)
  let snapshot ← latest.elim
    (.error (.opInput reconcileOp "no source snapshot exists; run `texo index` first")) .ok
  let artifact ← artifactAt snapshot.snapshotId
  let claims ← claimsFromView view
  pure ⟨claims, artifact, limits⟩

/-- A judge that answers every candidate once, with a verdict or without. -/
def Answering (evaluate : List ReconcileCandidate → Nat → Nat →
    Except TexoError ReconcileBackendOutput) : Prop :=
  ∀ candidates budgetSecs concurrency backend,
    evaluate candidates budgetSecs concurrency = .ok backend →
      candidates.Perm
        (backend.proposals.map CachedCandidateProposal.candidate ++ backend.unresolved)

/-- The pair has a link and its occurrence is recorded. -/
def PairLinked (workspaceId : String) (journal : Journal)
    (pair : ClaimId × EvidenceOccurrenceId) : Prop :=
  Linked (workspaceRows journal workspaceId) pair.1 pair.2 ∧
    OccurrenceRecorded (workspaceRows journal workspaceId) pair.2

/-- Every link has its occurrence. -/
def LinksRecorded (workspaceId : String) (journal : Journal) : Prop :=
  ∀ claimId occurrenceId, Linked (workspaceRows journal workspaceId) claimId occurrenceId →
    OccurrenceRecorded (workspaceRows journal workspaceId) occurrenceId

section
variable [Blake3]

/-- The journal policy takes a link only after its occurrence. -/
theorem LinksRecorded.append {env next : OpEnv} {payload : Payload} {workspaceId : String}
    (appended : env.append payload = .ok next) (conforming : env.journal.Conforming)
    (alone : ∀ row ∈ env.journal.entries, row.scope = scopeForWorkspace workspaceId)
    (recorded : LinksRecorded workspaceId env.journal) : LinksRecorded workspaceId next.journal := by
  have still := (OpEnv.append_conforming appended conforming).2
  intro claimId occurrenceId linked
  rw [linked_iff_notes still, OpEnv.append_notes appended conforming,
    ← linked_iff_notes conforming] at linked
  rw [occurrenceRecorded_iff_notes still, OpEnv.append_notes appended conforming,
    ← occurrenceRecorded_iff_notes conforming]
  left
  rcases linked with before | ⟨event, rfl, here, claim, occurrence⟩
  · exact recorded claimId occurrenceId before
  · have required : requireOccurrence env.journal event.occurrenceId = .ok () := by
      unfold OpEnv.append at appended
      rw [policyAppend, appendClaimEvidenceLinked] at appended
      cases checked : requireOccurrence env.journal event.occurrenceId with
      | ok _ => rfl
      | error error =>
        rw [checked] at appended
        cases appended
    unfold requireOccurrence at required
    split at required
    · rename_i found
      obtain ⟨row, listed, kind⟩ := List.any_eq_true.mp found
      obtain ⟨member, entity⟩ := List.mem_filter.mp listed
      have placed := (conforming row member).placed
      cases stored : row.payload with
      | evidenceOccurrenceRecorded held =>
        rw [stored] at placed
        have there : entityForEvidence held.occurrence.occurrenceId.value = row.entity :=
          congrArg Coordinate.entity (placed _ rfl)
        have same : entityForEvidence held.occurrence.occurrenceId.value =
            entityForEvidence event.occurrenceId.value := there.trans (of_decide_eq_true entity)
        have named : held.occurrence.occurrenceId = occurrenceId := by
          rw [← occurrence]
          apply Branded.ext
          exact append_right_injective "evidence:" same
        exact ⟨row, Journal.mem_region.mpr ⟨member, alone row member⟩, held, stored, named⟩
      | _ =>
        rw [stored] at kind
        cases of_decide_eq_true kind
    · cases required

variable [CharTables]

/-- The world of runs over the artifacts of snapshots. -/
def indexedWorld (artifactAt : SourceSnapshotId → Except TexoError CodeIndexArtifact)
    (evaluate : List ReconcileCandidate → Nat → Nat → Except TexoError ReconcileBackendOutput) :
    ReconcileWorld where
  planned view snapshotId limits := do
    let artifact ← artifactAt snapshotId
    let claims ← claimsFromView view
    pure ((planCandidates claims artifact limits).candidates.map
      RankedCandidate.toReconcileCandidate)
  evaluate := evaluate

/-- The pairs within the limit of their claims. -/
def PlanGround.within (ground : PlanGround) : Set (ClaimId × EvidenceOccurrenceId) :=
  { pair | ∃ candidate ∈ takeEach ground.limits.perClaim
      (ground.claims.map (rankedPairs ground.artifact)), pairKey candidate = pair }

/-- The pairs a plan holds. -/
def PlanGround.planned (ground : PlanGround) : Set (ClaimId × EvidenceOccurrenceId) :=
  { pair | ∃ candidate ∈ (planCandidates ground.claims ground.artifact ground.limits).candidates,
      pairKey candidate = pair }

/-- A run that goes through, with every proposal accepted. -/
def AcceptedRun (world : ReconcileWorld) (workspaceId : String) (input : KnowledgeReconcileInput)
    (journal next : Journal) : Prop :=
  ∃ fuse output last, knowledgeReconcile fuse world workspaceId input journal = .ok (output, last) ∧
    output.rejected = 0 ∧ output.unresolved = [] ∧ last.journal = next

omit [CharTables] in
/-- Appending proposals without a rejection appends the chain of each, and nothing else. -/
theorem appendProposals_accepted {terms : ReconcileTerms} {fuse : Nat} {env last : OpEnv}
    {proposals : List CachedCandidateProposal} {accepted : List ReconcileAcceptedRow}
    (appended : appendProposals terms fuse env proposals = .ok ((accepted, 0), last)) :
    ∃ payloads, env.appendAll payloads = .ok last ∧
      (∀ payload ∈ payloads, evidenceKind payload.kind = true) ∧
      (∀ claimId occurrenceId,
        (∃ payload ∈ payloads,
          (linkStatement terms.workspaceId.value claimId occurrenceId).tells payload) ↔
        ∃ proposed ∈ proposals, proposed.candidate.claimId = claimId ∧
          proposed.candidate.occurrence.occurrenceId = occurrenceId) ∧
      ∀ occurrenceId,
        (∃ payload ∈ payloads,
          (occurrenceStatement terms.workspaceId.value occurrenceId).tells payload) ↔
        ∃ proposed ∈ proposals, proposed.candidate.occurrence.occurrenceId = occurrenceId := by
  induction proposals generalizing fuse env accepted with
  | nil =>
    have same : env = last := congrArg Prod.snd (Except.ok.inj appended)
    refine ⟨[], by rw [same]; rfl, ?_, ?_, ?_⟩ <;> simp
  | cons proposed rest ih =>
    unfold appendProposals at appended
    cases judged : acceptProposal proposed.verdict terms.minScorePpm with
    | none =>
      simp only [judged] at appended
      cases later : appendProposals terms fuse env rest with
      | error failure =>
        rw [later] at appended
        cases appended
      | ok result =>
        obtain ⟨⟨rows, rejected⟩, reached⟩ := result
        rw [later] at appended
        cases appended
    | some verdict =>
      obtain ⟨stance, scorePpm⟩ := verdict
      simp only [judged] at appended
      split at appended
      · rcases appendWithin_cases fuse env (terms.chain proposed stance scorePpm) with
          ⟨left, next, run, all⟩ | ⟨failure, _, _, run, _, _⟩
        · simp only [run] at appended
          cases later : appendProposals terms left next rest with
          | error failure =>
            rw [later] at appended
            cases appended
          | ok result =>
            obtain ⟨⟨rows, rejected⟩, reached⟩ := result
            rw [later] at appended
            have parts := Except.ok.inj appended
            have none : rejected = 0 := congrArg (fun result => result.1.2) parts
            have reaches : reached = last := congrArg Prod.snd parts
            rw [none, reaches] at later
            obtain ⟨payloads, tail, kinds, links, occurrences⟩ := ih later
            refine ⟨terms.chain proposed stance scorePpm ++ payloads, ?_, ?_, ?_, ?_⟩
            · rw [appendAll_append all, tail]
            · intro payload member
              rcases List.mem_append.mp member with own | other
              · unfold ReconcileTerms.chain at own
                simp only [List.mem_cons, List.not_mem_nil, or_false] at own
                rcases own with rfl | rfl | rfl <;> rfl
              · exact kinds payload other
            · intro claimId occurrenceId
              have own : (∃ payload ∈ terms.chain proposed stance scorePpm,
                  (linkStatement terms.workspaceId.value claimId occurrenceId).tells payload) ↔
                  proposed.candidate.claimId = claimId ∧
                    proposed.candidate.occurrence.occurrenceId = occurrenceId := by
                simp [ReconcileTerms.chain, linkStatement, ReconcileTerms.link]
              simp only [List.mem_append, or_and_right, exists_or, own, links, List.mem_cons,
                exists_eq_left]
            · intro occurrenceId
              have own : (∃ payload ∈ terms.chain proposed stance scorePpm,
                  (occurrenceStatement terms.workspaceId.value occurrenceId).tells payload) ↔
                  proposed.candidate.occurrence.occurrenceId = occurrenceId := by
                simp [ReconcileTerms.chain, occurrenceStatement]
              simp only [List.mem_append, or_and_right, exists_or, own, occurrences, List.mem_cons,
                exists_eq_left]
        · simp only [run] at appended
          cases appended
      · cases appended

/-- What a run over an indexed world has planned before its first append. -/
theorem prepareReconcile_indexed
    {artifactAt : SourceSnapshotId → Except TexoError CodeIndexArtifact}
    {evaluate : List ReconcileCandidate → Nat → Nat → Except TexoError ReconcileBackendOutput}
    {workspaceId : String} {input : KnowledgeReconcileInput} {journal : Journal}
    {plan : ReconcilePlan}
    (prepared : prepareReconcile (indexedWorld artifactAt evaluate) workspaceId input journal =
      .ok plan) :
    ∃ ground, planGround artifactAt workspaceId input journal = .ok ground ∧
      ∃ budgetSecs concurrency, evaluate
        (((planCandidates ground.claims ground.artifact ground.limits).candidates.map
          RankedCandidate.toReconcileCandidate).filter fun candidate =>
            !linkedIn (evidenceOf (workspaceRows journal workspaceId)) candidate)
        budgetSecs concurrency = .ok plan.backend := by
  unfold prepareReconcile at prepared
  obtain ⟨⟨limits, budgetSecs, concurrency⟩, validated, prepared⟩ := bind_eq_ok.mp prepared
  obtain ⟨latest, scanned, prepared⟩ := bind_eq_ok.mp prepared
  obtain ⟨snapshot, found, prepared⟩ := bind_eq_ok.mp prepared
  obtain ⟨candidates, planned, prepared⟩ := bind_eq_ok.mp prepared
  obtain ⟨evidence, assembled, prepared⟩ := bind_eq_ok.mp prepared
  obtain ⟨backend, judged, prepared⟩ := bind_eq_ok.mp prepared
  obtain ⟨own, named, prepared⟩ := bind_eq_ok.mp prepared
  obtain ⟨artifact, loaded, planned⟩ := bind_eq_ok.mp planned
  obtain ⟨claims, converted, planned⟩ := bind_eq_ok.mp planned
  have replayed : evidenceOf (workspaceRows journal workspaceId) = evidence := by
    rw [assembleEvidenceThrough, rowsThrough_frontier, foldlM_scanEvidence] at assembled
    exact Except.ok.inj assembled
  refine ⟨⟨claims, artifact, limits⟩, ?_, budgetSecs, concurrency, ?_⟩
  · unfold planGround
    refine bind_eq_ok.mpr ⟨(limits, budgetSecs, concurrency), validated, ?_⟩
    refine bind_eq_ok.mpr ⟨latest, scanned, ?_⟩
    refine bind_eq_ok.mpr ⟨snapshot, found, ?_⟩
    refine bind_eq_ok.mpr ⟨artifact, loaded, ?_⟩
    exact bind_eq_ok.mpr ⟨claims, converted, rfl⟩
  · rw [replayed, Except.ok.inj planned, ← Except.ok.inj prepared]
    exact judged

omit [CharTables] in
/-- Appended evidence changes nothing of what a plan is drawn from. -/
theorem planGround_appendAll (artifactAt : SourceSnapshotId → Except TexoError CodeIndexArtifact)
    (workspaceId : String) (input : KnowledgeReconcileInput) {env next : OpEnv}
    {payloads : List Payload} (appended : env.appendAll payloads = .ok next)
    (kinds : ∀ payload ∈ payloads, evidenceKind payload.kind = true) :
    planGround artifactAt workspaceId input next.journal =
      planGround artifactAt workspaceId input env.journal := by
  have snapshots := snapshotsOf_appendAll_other appended (by
    intro payload member same
    have kind := kinds payload member
    rw [same] at kind
    cases kind) workspaceId
  obtain ⟨rows, grown, carried⟩ := OpEnv.appendAll_rows appended
  have cards : cardsOf (workspaceRows next.journal workspaceId) =
      cardsOf (workspaceRows env.journal workspaceId) := by
    unfold workspaceRows Journal.region cardsOf
    rw [grown, List.filter_append, List.foldl_append]
    apply foldl_foldCard_of_not_folds
    intro row member
    have kind := kinds row.payload (carried row (List.mem_of_mem_filter member))
    unfold folds
    cases CardFamily.of row.entity with
    | none => rfl
    | some family =>
      cases stored : row.payload.kind <;> rw [stored] at kind <;> cases kind <;> cases family <;> rfl
  have claims : (viewOf workspaceId next.journal).claims = (viewOf workspaceId env.journal).claims := by
    unfold viewOf replayView
    rw [cards]
    rfl
  unfold planGround claimsFromView
  simp only [latestSourceSnapshot_current, snapshots, claims]

/-- What an accepted run does: its ground stays, and it links the pairs of its plan. -/
theorem AcceptedRun.spec {artifactAt : SourceSnapshotId → Except TexoError CodeIndexArtifact}
    {evaluate : List ReconcileCandidate → Nat → Nat → Except TexoError ReconcileBackendOutput}
    {workspaceId : String} {input : KnowledgeReconcileInput} {journal next : Journal}
    {ground : PlanGround} (answers : Answering evaluate) (conforming : journal.Conforming)
    (recorded : LinksRecorded workspaceId journal)
    (grounds : planGround artifactAt workspaceId input journal = .ok ground)
    (run : AcceptedRun (indexedWorld artifactAt evaluate) workspaceId input journal next) :
    next.Conforming ∧ LinksRecorded workspaceId next ∧
      planGround artifactAt workspaceId input next = .ok ground ∧
      ∀ pair, PairLinked workspaceId next pair ↔
        PairLinked workspaceId journal pair ∨ pair ∈ ground.planned := by
  obtain ⟨fuse, output, last, done, none, resolved, rfl⟩ := run
  unfold knowledgeReconcile at done
  cases prepared : prepareReconcile (indexedWorld artifactAt evaluate) workspaceId input journal with
  | error error =>
    simp only [prepared] at done
    cases done
  | ok plan =>
    simp only [prepared] at done
    cases appended : appendProposals plan.terms fuse { workspaceId := workspaceId, journal := journal }
        plan.backend.proposals with
    | error failure =>
      rw [appended] at done
      cases done
    | ok result =>
      obtain ⟨⟨rows, rejected⟩, reached⟩ := result
      rw [appended] at done
      have parts := Except.ok.inj done
      have same : reached = last := congrArg Prod.snd parts
      have whole := congrArg Prod.fst parts
      have rejects : rejected = 0 := (congrArg KnowledgeReconcileOutput.rejected whole).trans none
      have settled : plan.backend.unresolved = [] :=
        (congrArg KnowledgeReconcileOutput.unresolved whole).trans resolved
      rw [rejects, same] at appended
      have here := prepareReconcile_here prepared
      obtain ⟨drawn, same, budgetSecs, concurrency, judged⟩ := prepareReconcile_indexed prepared
      obtain rfl : ground = drawn := Except.ok.inj (grounds.symm.trans same)
      have asked := answers _ _ _ _ judged
      rw [settled, List.append_nil] at asked
      obtain ⟨payloads, all, kinds, links, occurrences⟩ := appendProposals_accepted appended
      rw [here] at links occurrences
      have answered : ∀ candidate, (∃ proposed ∈ plan.backend.proposals,
          proposed.candidate = candidate) ↔
          (∃ ranked ∈ (planCandidates ground.claims ground.artifact ground.limits).candidates,
            ranked.toReconcileCandidate = candidate) ∧
          linkedIn (evidenceOf (workspaceRows journal workspaceId)) candidate = false := by
        intro candidate
        have moved := @List.Perm.mem_iff _ candidate _ _ asked
        rw [List.mem_filter, List.mem_map, List.mem_map, Bool.not_eq_true'] at moved
        exact moved.symm
      obtain ⟨_, _, still, notes⟩ := OpEnv.appendAll_spec all conforming
      have linked : ∀ claimId occurrenceId,
          Linked (workspaceRows last.journal workspaceId) claimId occurrenceId ↔
            Linked (workspaceRows journal workspaceId) claimId occurrenceId ∨
              ∃ proposed ∈ plan.backend.proposals, proposed.candidate.claimId = claimId ∧
                proposed.candidate.occurrence.occurrenceId = occurrenceId := by
        intro claimId occurrenceId
        rw [linked_iff_notes still, notes, links, linked_iff_notes conforming]
      have known : ∀ occurrenceId,
          OccurrenceRecorded (workspaceRows last.journal workspaceId) occurrenceId ↔
            OccurrenceRecorded (workspaceRows journal workspaceId) occurrenceId ∨
              ∃ proposed ∈ plan.backend.proposals,
                proposed.candidate.occurrence.occurrenceId = occurrenceId := by
        intro occurrenceId
        rw [occurrenceRecorded_iff_notes still, notes, occurrences,
          occurrenceRecorded_iff_notes conforming]
      refine ⟨still, ?_, ?_, ?_⟩
      · intro claimId occurrenceId held
        rw [known]
        rcases (linked claimId occurrenceId).mp held with before | ⟨proposed, member, _, occurrence⟩
        · exact Or.inl (recorded claimId occurrenceId before)
        · exact Or.inr ⟨proposed, member, occurrence⟩
      · rw [planGround_appendAll artifactAt workspaceId input all kinds]
        exact grounds
      · rintro ⟨claimId, occurrenceId⟩
        unfold PairLinked
        rw [linked, known]
        constructor
        · rintro ⟨before | ⟨proposed, member, claim, occurrence⟩, _⟩
          · exact Or.inl ⟨before, recorded claimId occurrenceId before⟩
          · obtain ⟨⟨ranked, planned, made⟩, _⟩ := (answered _).mp ⟨proposed, member, rfl⟩
            refine Or.inr ⟨ranked, planned, ?_⟩
            unfold pairKey
            rw [made, claim, occurrence]
        · rintro (⟨before, there⟩ | ⟨ranked, planned, key⟩)
          · exact ⟨Or.inl before, Or.inl there⟩
          · obtain ⟨rfl, rfl⟩ := Prod.mk.inj key
            by_cases already :
                linkedIn (evidenceOf (workspaceRows journal workspaceId)) ranked.toReconcileCandidate =
                  true
            · obtain ⟨before, there⟩ := (linkedIn_iff _ _).mp already
              exact ⟨Or.inl before, Or.inl there⟩
            · rw [Bool.not_eq_true] at already
              obtain ⟨proposed, member, made⟩ := (answered _).mpr ⟨⟨ranked, planned, rfl⟩, already⟩
              refine ⟨Or.inr ⟨proposed, member, ?_, ?_⟩, Or.inr ⟨proposed, member, ?_⟩⟩ <;> rw [made]

/-- Accepted runs sweep the pairs of the plan. -/
theorem acceptedRuns_sweep {artifactAt : SourceSnapshotId → Except TexoError CodeIndexArtifact}
    {evaluate : List ReconcileCandidate → Nat → Nat → Except TexoError ReconcileBackendOutput}
    {workspaceId : String} {input : KnowledgeReconcileInput} {start : Journal}
    {ground : PlanGround} (answers : Answering evaluate) (conforming : start.Conforming)
    (recorded : LinksRecorded workspaceId start)
    (grounds : planGround artifactAt workspaceId input start = .ok ground) :
    Sweeps (AcceptedRun (indexedWorld artifactAt evaluate) workspaceId input)
      (PairLinked workspaceId) ground.planned start := by
  intro journal next reached run
  have held : journal.Conforming ∧ LinksRecorded workspaceId journal ∧
      planGround artifactAt workspaceId input journal = .ok ground := by
    clear run
    induction reached with
    | refl => exact ⟨conforming, recorded, grounds⟩
    | tail _ one ih =>
      obtain ⟨kept, known, same⟩ := ih
      obtain ⟨kept, known, same, _⟩ := AcceptedRun.spec answers kept known same one
      exact ⟨kept, known, same⟩
  exact (AcceptedRun.spec answers held.1 held.2.1 held.2.2 run).2.2.2

/-- Where every proposal is accepted, repeated reconciliations always consider an unlinked pair
while one is left within the limit of its claim, and link all of these, exactly where each of them
that the limit of all cuts off is linked before the first run. -/
theorem reconcile_progress_iff
    {artifactAt : SourceSnapshotId → Except TexoError CodeIndexArtifact}
    {evaluate : List ReconcileCandidate → Nat → Nat → Except TexoError ReconcileBackendOutput}
    {workspaceId : String} {input : KnowledgeReconcileInput} {start next : Journal}
    {ground : PlanGround} (answers : Answering evaluate) (conforming : start.Conforming)
    (recorded : LinksRecorded workspaceId start)
    (grounds : planGround artifactAt workspaceId input start = .ok ground)
    (first : AcceptedRun (indexedWorld artifactAt evaluate) workspaceId input start next) :
    ((∀ journal, Relation.ReflTransGen
          (AcceptedRun (indexedWorld artifactAt evaluate) workspaceId input) start journal →
        Progresses (PairLinked workspaceId) ground.planned ground.within journal) ∧
      ∃ journal, Relation.ReflTransGen
          (AcceptedRun (indexedWorld artifactAt evaluate) workspaceId input) start journal ∧
        ∀ pair ∈ ground.within, PairLinked workspaceId journal pair) ↔
      ∀ pair ∈ ground.within, pair ∉ ground.planned → PairLinked workspaceId start pair :=
  (acceptedRuns_sweep answers conforming recorded grounds).progress_iff first

end

section
variable [Blake3]

/-- A workspace with a snapshot and one claim. -/
def retriesStart : Journal :=
  appendedAfter Journal.empty [.sourceSnapshotRecorded reconciledSnapshot,
    .claimRecorded { plainClaim "claim_a" with text := "retries" }]

end

/-- A use on a line of its own, in a file of a whole digest. -/
def recordedUse (range : Nat × Nat) : CodeOccurrence :=
  { symbolUse range range "retries" with sourceDigestHex := String.ofList (List.replicate 64 'd') }

/-- What a run is drawn from that plans one candidate at most. -/
def retriesGround : PlanGround :=
  ⟨[retriesClaim], usesIndex [recordedUse (0, 7), recordedUse (8, 15)], { total := 1 }⟩

/-- Such a run. -/
def retriesInput : KnowledgeReconcileInput where
  observedAtMs := 1
  maxCandidates := some 1

/-- The world of the workspace: its index, and a judge that accepts. -/
def retriesWorld [Blake3] [CharTables] : ReconcileWorld :=
  indexedWorld (fun _ => .ok retriesGround.artifact) (reconciledWorld .duplicate).evaluate

/-- The judge answers every candidate. -/
theorem reconciledWorld_answering : Answering (reconciledWorld .duplicate).evaluate := by
  intro candidates budgetSecs concurrency backend judged
  rw [← Except.ok.inj judged, List.append_nil, List.map_map]
  exact List.Perm.of_eq (List.map_id candidates).symm

/-- No row of the workspace links anything. -/
theorem retriesStart_unlinked :
    let _ := numeralDigest
    ∀ claimId occurrenceId, ¬Linked (workspaceRows retriesStart "demo") claimId occurrenceId := by
  intro _
  have none : (workspaceRows retriesStart "demo").all
      (fun row => row.payload.kind ≠ .claimEvidenceLinked) = true := by
    decide +kernel
  intro claimId occurrenceId ⟨row, member, link, carries, _⟩
  have kind := of_decide_eq_true (List.all_eq_true.mp none row member)
  apply kind
  rw [carries]
  rfl

/-- A run of the workspace is drawn from its claim and its index. -/
theorem retriesGround_drawn :
    let _ := numeralDigest
    planGround (fun _ => .ok retriesGround.artifact) "demo" retriesInput retriesStart =
      .ok retriesGround := by
  intro _
  have drawn : (planGround (fun _ => .ok retriesGround.artifact) "demo" retriesInput
      retriesStart).toOption = some retriesGround := by
    decide +kernel
  cases ground : planGround (fun _ => .ok retriesGround.artifact) "demo" retriesInput
      retriesStart with
  | error error =>
    rw [ground] at drawn
    cases drawn
  | ok held =>
    rw [ground] at drawn
    exact congrArg Except.ok (Option.some.inj drawn)

/-- A run of the workspace goes through, its proposal accepted. -/
theorem retries_accepted :
    let _ := numeralDigest
    let _ := asciiTables
    ∃ next, AcceptedRun retriesWorld "demo" retriesInput retriesStart next := by
  let _ := numeralDigest
  let _ := asciiTables
  have passed : ((knowledgeReconcile 9 retriesWorld "demo" retriesInput
      retriesStart).toOption.any fun result =>
        result.1.rejected = 0 ∧ result.1.unresolved = []) = true := by
    decide +kernel
  cases done : knowledgeReconcile 9 retriesWorld "demo" retriesInput retriesStart with
  | error failure =>
    rw [done] at passed
    cases passed
  | ok result =>
    rw [done] at passed
    obtain ⟨none, resolved⟩ := of_decide_eq_true passed
    exact ⟨result.2.journal, 9, result.1, result.2, done, none, resolved, rfl⟩

/-- The pairs of the workspace: two within the limit of the claim, the first of them planned. -/
theorem retriesGround_pairs :
    let _ := numeralDigest
    let _ := asciiTables
    ∃ first second, first ≠ second ∧ retriesGround.within = {first, second} ∧
      retriesGround.planned = {first} := by
  intro _ _
  have two : ((takeEach retriesGround.limits.perClaim
      (retriesGround.claims.map (rankedPairs retriesGround.artifact))).map pairKey).length = 2 ∧
      ((takeEach retriesGround.limits.perClaim
        (retriesGround.claims.map (rankedPairs retriesGround.artifact))).map pairKey).Nodup := by
    decide +kernel
  obtain ⟨first, second, listed⟩ := List.length_eq_two.mp two.1
  have different : first ≠ second := by
    have apart := two.2
    rw [listed] at apart
    simpa using apart
  refine ⟨first, second, different, ?_, ?_⟩
  · ext pair
    show (∃ candidate ∈ _, pairKey candidate = pair) ↔ _
    rw [← List.mem_map, listed]
    simp
  · ext pair
    show (∃ candidate ∈ _, pairKey candidate = pair) ↔ _
    rw [← List.mem_map, planCandidates_candidates, List.map_take, listed]
    simp [retriesGround]

/-- The first run of the workspace, and what the runs after it come to. -/
theorem reconcile_progress_workspace :
    let _ := numeralDigest
    let _ := asciiTables
    ∃ next, AcceptedRun retriesWorld "demo" retriesInput retriesStart next ∧
      (((∀ journal, Relation.ReflTransGen (AcceptedRun retriesWorld "demo" retriesInput)
            retriesStart journal →
          Progresses (PairLinked "demo") retriesGround.planned retriesGround.within journal) ∧
        ∃ journal, Relation.ReflTransGen (AcceptedRun retriesWorld "demo" retriesInput)
            retriesStart journal ∧
          ∀ pair ∈ retriesGround.within, PairLinked "demo" journal pair) ↔
        ∀ pair ∈ retriesGround.within, pair ∉ retriesGround.planned →
          PairLinked "demo" retriesStart pair) := by
  intro _ _
  obtain ⟨next, first⟩ := retries_accepted
  have recorded : LinksRecorded "demo" retriesStart := by
    intro claimId occurrenceId linked
    exact absurd linked (retriesStart_unlinked claimId occurrenceId)
  exact ⟨next, first, reconcile_progress_iff reconciledWorld_answering
    (appendedAfter_conforming Journal.conforming_empty _) recorded retriesGround_drawn first⟩

/-- With room for one of two pairs, the runs after the first consider a linked pair for ever. -/
theorem second_pair_never_considered :
    let _ := numeralDigest
    let _ := asciiTables
    ∃ next, AcceptedRun retriesWorld "demo" retriesInput retriesStart next ∧
      planGround (fun _ => .ok retriesGround.artifact) "demo" retriesInput next =
        .ok retriesGround ∧
      ¬Progresses (PairLinked "demo") retriesGround.planned retriesGround.within next := by
  intro _ _
  obtain ⟨next, run⟩ := retries_accepted
  have recorded : LinksRecorded "demo" retriesStart := by
    intro claimId occurrenceId linked
    exact absurd linked (retriesStart_unlinked claimId occurrenceId)
  obtain ⟨_, _, drawn, linked⟩ := AcceptedRun.spec reconciledWorld_answering
    (appendedAfter_conforming Journal.conforming_empty _) recorded retriesGround_drawn run
  obtain ⟨first, second, different, within, planned⟩ := retriesGround_pairs
  refine ⟨next, run, drawn, fun progress => ?_⟩
  have behind : ¬PairLinked "demo" next second := by
    rw [linked second, planned]
    rintro (⟨before, _⟩ | considered)
    · exact retriesStart_unlinked _ _ before
    · exact different considered.symm
  obtain ⟨pair, considered, unlinked⟩ := progress ⟨second, by rw [within]; simp, behind⟩
  exact unlinked ((linked pair).mpr (Or.inr considered))

end Texo.Ops
