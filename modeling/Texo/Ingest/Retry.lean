import Mathlib.Data.Set.Basic
import Mathlib.Logic.Relation
import Texo.Ingest.Replacement
import Texo.Ingest.Run

/-! # Ingest after a crash

A run that stops early leaves a leading part of its appends. The next run plans only files the
view has not observed and draws replacements only from the claims it plans itself, so what a
stopped run has not appended for a file it has already observed is not appended later.
-/
namespace Texo.Ingest
open Texo.Events Texo.Store Texo.Claims Texo.Semantics Texo.Ops Texo.Foundation

section
variable [Blake3]

/-- Claims recorded in a workspace. -/
def recordedClaims (workspaceId : String) (journal : Journal) : Set String :=
  {claimId | journal.Notes (recordedStatement workspaceId claimId)}

/-- Claims superseded in a workspace. -/
def supersededClaims (workspaceId : String) (journal : Journal) : Set String :=
  {claimId | journal.Notes (supersededStatement workspaceId claimId)}

/-- Recording is decided by the rows of the workspace. -/
theorem mem_recordedClaims {workspaceId claimId : String} {journal : Journal}
    (conforming : journal.Conforming) :
    claimId ∈ recordedClaims workspaceId journal ↔
      isRecorded (workspaceRows journal workspaceId) claimId = true := by
  rw [isRecorded_iff]
  constructor
  · rintro ⟨row, member, event, payload, _, named⟩
    exact ⟨row, member, event, payload, named⟩
  · rintro ⟨row, member, event, payload, named⟩
    obtain ⟨inside, scope⟩ := Journal.mem_region.mp member
    obtain ⟨ownScope, _⟩ := eventId_of_recorded (conforming row inside) payload
    exact ⟨row, member, event, payload, scopeForWorkspace_injective (ownScope.symm.trans scope), named⟩

/-- An ingest of unchanged files in one workspace. -/
structure FileIngest where
  config : WorkspaceConfig
  world : SourceWorld
  workspaceId : String

namespace FileIngest

/-- One appending run of the ingest. -/
def run (ingest : FileIngest) (fuse : Nat) (strict : Bool) (observedAtMs : Nat) (journal : Journal) :
    Except (Failure Journal) (IngestRunOutput × Journal) :=
  ingestRun fuse ingest.config ingest.world ingest.workspaceId ⟨false, strict, observedAtMs⟩ journal

/-- A run that stops leaves a journal behind. -/
def Stops (ingest : FileIngest) (journal left : Journal) : Prop :=
  ∃ fuse strict observedAtMs failure,
    ingest.run fuse strict observedAtMs journal = .error failure ∧ failure.left = left

/-- Runs that stop, one after another. -/
def StopsRepeatedly (ingest : FileIngest) : Journal → Journal → Prop :=
  Relation.ReflTransGen ingest.Stops

/-- A claim of the files. -/
def Offered (ingest : FileIngest) (claimId : String) : Prop :=
  ∃ document ∈ ingest.world.documents,
    claimId ∈ offeredIds ingestOp ingest.config ingest.world ingest.workspaceId document

/-- A claim of a file the journal has not observed yet. -/
def Awaited (ingest : FileIngest) (journal : Journal) (claimId : String) : Prop :=
  ∃ document ∈ ingest.world.unobserved (viewOf ingest.workspaceId journal),
    claimId ∈ offeredIds ingestOp ingest.config ingest.world ingest.workspaceId document

/-- A claim of the files that is not recorded although every file that holds it is observed. -/
def Stranded (ingest : FileIngest) (journal : Journal) (claimId : String) : Prop :=
  ingest.Offered claimId ∧ claimId ∉ recordedClaims ingest.workspaceId journal ∧
    ¬ ingest.Awaited journal claimId

/-- The claims of the files the journal has not observed yet, read at some time. -/
def awaitedClaims (ingest : FileIngest) (observedAtMs : Nat) (journal : Journal) :
    List ClaimRecordedV2 :=
  (ingest.world.unobserved (viewOf ingest.workspaceId journal)).flatMap
    (offeredClaims ingestOp ingest.config ingest.world ingest.workspaceId observedAtMs)

/-- An awaited claim replaces a claim that is current or awaited itself, semantics leave that to
ingest, and the evidence in the journal does not hold it back. -/
def Retires (ingest : FileIngest) (observedAtMs : Nat) (journal : Journal) (claimId : String) :
    Prop :=
  ingest.config.semanticsEnabled = false ∧ ∃ candidates proposed,
    (ingest.awaitedClaims observedAtMs journal).mapM candidateOf = .ok candidates ∧
    replacementOf (workspaceRows journal ingest.workspaceId)
      (ingest.awaitedClaims observedAtMs journal) candidates claimId = some proposed ∧
    holdOfOrder (evidenceOrder (workspaceRows journal ingest.workspaceId) claimId
      proposed.new.claimId.value) = none

end FileIngest

/-- An applied supersession lies in the workspace of one of the new claims. -/
theorem workspaceId_of_applied {view : WorkspaceView} {newClaims : List ReplacementCandidate}
    {observedAtMs : Nat} {temporal : RelateTemporalPolicy} {event : ClaimSupersededV2}
    (applied : event ∈ (inferExplicitSupersessions view newClaims observedAtMs temporal).applied) :
    ∃ candidate ∈ newClaims, event.workspaceId = candidate.workspaceId := by
  rw [inferExplicitSupersessions_eq, List.mem_insertionSort] at applied
  obtain ⟨made, decides, accepted⟩ := List.mem_filterMap.mp applied
  unfold acceptedEvent at accepted
  split at accepted
  · cases accepted
  · have event := (Option.some.inj accepted).symm
    subst event
    have proposed := List.mem_of_find?_eq_some (mem_decidingProposals.mp decides)
    obtain ⟨candidate, member, inner⟩ := List.mem_flatMap.mp proposed
    refine ⟨candidate, member, ?_⟩
    split at inner
    · obtain ⟨old, _, paired⟩ := List.mem_filterMap.mp inner
      unfold proposal at paired
      split at paired
      · cases paired
      · split at paired
        · cases paired
        · rw [← Option.some.inj paired]
          rfl
    · cases inner

omit [Blake3] in
/-- Candidates keep the workspace of their claims. -/
theorem workspaceId_of_candidateOf {claim : ClaimRecordedV2} {candidate : ReplacementCandidate}
    (made : candidateOf claim = .ok candidate) : candidate.workspaceId = claim.workspaceId := by
  unfold candidateOf at made
  cases parsed : claimIdOf claim.claimId with
  | error error => simp [parsed, Except.map] at made
  | ok claimId =>
    simp only [parsed, Except.map, Except.ok.injEq] at made
    rw [← made]

/-- What an ingest decides to retire is what the awaited claims replace. -/
theorem retires_iff {ingest : FileIngest} {observedAtMs : Nat} {journal : Journal} {plan : SourcePlan}
    {appended : OpEnv} {inference : ExplicitSupersessionOutcome} (conforming : journal.Conforming)
    (decides : Decides ingest.config ingest.world ingest.workspaceId observedAtMs journal plan
      appended inference) (claimId : String) :
    (∃ event ∈ inference.applied, event.workspaceId = ingest.workspaceId ∧
      event.oldClaimId = claimId) ↔ ingest.Retires observedAtMs journal claimId := by
  obtain ⟨planned, recorded, inferred⟩ := decides
  obtain ⟨_, here, awaited⟩ := newClaims_ids planned
  have same : ingest.awaitedClaims observedAtMs journal = plan.newClaims := awaited.symm
  unfold inferIngestSupersessions at inferred
  by_cases semantics : ingest.config.semanticsEnabled = true
  · simp only [semantics, if_true, Except.ok.injEq] at inferred
    subst inferred
    simp [FileIngest.Retires, semantics]
  · simp only [semantics] at inferred
    have disabled : ingest.config.semanticsEnabled = false := by simpa using semantics
    cases policy : workspaceTemporalPolicy (readable appended.journal) ingest.workspaceId
        (viewOf ingest.workspaceId appended.journal) with
    | error error => simp [policy, bind, Except.bind] at inferred
    | ok temporal =>
      simp only [policy, bind, Except.bind, inferSupersessions, Bool.false_eq_true, if_false]
        at inferred
      cases made : plan.newClaims.mapM candidateOf with
      | error error => simp [made, Except.map] at inferred
      | ok candidates =>
        simp only [made, Except.map, Except.ok.injEq] at inferred
        subst inferred
        obtain ⟨deciding, order⟩ :=
          decided_after_plan here recorded conforming policy made claimId
        constructor
        · rintro ⟨event, member, _, old⟩
          obtain ⟨proposed, decides, free⟩ := mem_applied_iff.mp ⟨event, member, old⟩
          refine ⟨disabled, candidates, proposed, by rw [same, made], ?_, ?_⟩
          · rw [same, ← decides, deciding]
          · rw [← order proposed decides, free]
        · rintro ⟨_, candidates', proposed, made', replaced, free⟩
          rw [same, made] at made'
          cases made'
          rw [same, ← deciding] at replaced
          obtain ⟨event, member, old⟩ := mem_applied_iff.mpr
            ⟨proposed, replaced, by rw [order proposed replaced, free]⟩
          refine ⟨event, member, ?_, old⟩
          obtain ⟨candidate, among, workspace⟩ := workspaceId_of_applied member
          obtain ⟨claim, new, source⟩ := mem_of_mapM made among
          rw [workspace, workspaceId_of_candidateOf source]
          exact here claim new

/-- Planned events record the plan's claims. -/
theorem recorded_events {plan : SourcePlan} {workspaceId claimId : String}
    (here : ∀ claim ∈ plan.newClaims, claim.workspaceId = workspaceId) :
    (∃ payload ∈ plan.events, (recordedStatement workspaceId claimId).tells payload) ↔
      claimId ∈ plan.newClaims.map ClaimRecordedV2.claimId := by
  constructor
  · rintro ⟨payload, member, event, rfl, _, named⟩
    obtain ⟨source, planned, inner⟩ := List.mem_flatMap.mp member
    rcases List.mem_cons.mp inner with impossible | later
    · cases impossible
    · obtain ⟨claim, held, same⟩ := List.mem_map.mp later
      cases same
      exact List.mem_map.mpr ⟨event, List.mem_flatMap.mpr ⟨source, planned, held⟩, named⟩
  · intro member
    obtain ⟨claim, new, named⟩ := List.mem_map.mp member
    obtain ⟨source, planned, held⟩ := List.mem_flatMap.mp new
    refine ⟨.claimRecorded claim, List.mem_flatMap.mpr ⟨source, planned, ?_⟩, claim, rfl,
      here claim new, named⟩
    exact List.mem_cons_of_mem _ (List.mem_map_of_mem held)

/-- Planned events supersede nothing. -/
theorem superseded_events {plan : SourcePlan} {workspaceId claimId : String} :
    ¬ ∃ payload ∈ plan.events, (supersededStatement workspaceId claimId).tells payload := by
  rintro ⟨payload, member, event, rfl, _⟩
  obtain ⟨source, _, inner⟩ := List.mem_flatMap.mp member
  rcases List.mem_cons.mp inner with impossible | later
  · cases impossible
  · obtain ⟨claim, _, same⟩ := List.mem_map.mp later
    cases same

/-- Supersession events record nothing. -/
theorem recorded_superseded {applied : List ClaimSupersededV2} {workspaceId claimId : String} :
    ¬ ∃ payload ∈ applied.map Payload.claimSuperseded,
      (recordedStatement workspaceId claimId).tells payload := by
  rintro ⟨payload, member, event, rfl, _⟩
  obtain ⟨other, _, same⟩ := List.mem_map.mp member
  cases same

/-- Supersession events retire the old claims of their workspace. -/
theorem superseded_superseded {applied : List ClaimSupersededV2} {workspaceId claimId : String} :
    (∃ payload ∈ applied.map Payload.claimSuperseded,
      (supersededStatement workspaceId claimId).tells payload) ↔
      ∃ event ∈ applied, event.workspaceId = workspaceId ∧ event.oldClaimId = claimId := by
  constructor
  · rintro ⟨payload, member, event, rfl, here, named⟩
    obtain ⟨other, held, same⟩ := List.mem_map.mp member
    cases same
    exact ⟨event, held, here, named⟩
  · rintro ⟨event, held, here, named⟩
    exact ⟨_, List.mem_map_of_mem held, event, rfl, here, named⟩

namespace FileIngest

/-- The plan's claims are the awaited ones. -/
theorem awaited_iff {ingest : FileIngest} {observedAtMs : Nat} {journal : Journal}
    {plan : SourcePlan}
    (planned : planOn ingest.config ingest.world ingest.workspaceId observedAtMs journal = .ok plan)
    (claimId : String) :
    claimId ∈ plan.newClaims.map ClaimRecordedV2.claimId ↔ ingest.Awaited journal claimId := by
  rw [(newClaims_ids planned).1, List.mem_flatMap]
  rfl

/-- Awaited claims are claims of the files. -/
theorem Awaited.offered {ingest : FileIngest} {journal : Journal} {claimId : String}
    (awaited : ingest.Awaited journal claimId) : ingest.Offered claimId := by
  obtain ⟨document, member, holds⟩ := awaited
  exact ⟨document, (List.mem_filter.mp member).1, holds⟩

/-- A run that succeeds keeps the journal conforming, records the awaited claims and retires
what they replace. -/
theorem run_ok {ingest : FileIngest} {fuse observedAtMs : Nat} {strict : Bool}
    {journal next : Journal} {output : IngestRunOutput} (conforming : journal.Conforming)
    (succeeds : ingest.run fuse strict observedAtMs journal = .ok (output, next)) :
    next.Conforming ∧ (∀ claimId, claimId ∈ recordedClaims ingest.workspaceId next ↔
      claimId ∈ recordedClaims ingest.workspaceId journal ∨ ingest.Awaited journal claimId) ∧
    ∀ claimId, claimId ∈ supersededClaims ingest.workspaceId next ↔
      claimId ∈ supersededClaims ingest.workspaceId journal ∨
        ingest.Retires observedAtMs journal claimId := by
  rcases ingestRun_cases fuse ingest.config ingest.world ingest.workspaceId strict observedAtMs
    conforming with ⟨other, plan, appended, inference, settled, ran, decides, retired⟩ |
      ⟨failure, failed, _⟩
  · have same : (other, settled.journal) = (output, next) := Except.ok.inj (ran.symm.trans succeeds)
    cases same
    obtain ⟨_, _, middle, first⟩ := OpEnv.appendAll_spec decides.recorded conforming
    obtain ⟨_, _, last, second⟩ := OpEnv.appendAll_spec retired middle
    refine ⟨last, ?_, ?_⟩
    · intro claimId
      show settled.journal.Notes _ ↔ journal.Notes _ ∨ _
      rw [second, first, recorded_events (newClaims_ids decides.planned).2.1,
        awaited_iff decides.planned]
      exact or_iff_left recorded_superseded
    · intro claimId
      show settled.journal.Notes _ ↔ journal.Notes _ ∨ _
      rw [second, first, superseded_superseded, retires_iff conforming decides]
      exact or_congr (or_iff_left superseded_events) Iff.rfl
  · exact absurd (failed.symm.trans succeeds) (by simp)

/-- A run that stops keeps the journal conforming and records only claims of the files. -/
theorem stops_step {ingest : FileIngest} {journal left : Journal} (conforming : journal.Conforming)
    (stops : ingest.Stops journal left) :
    left.Conforming ∧ ∀ claimId,
      (claimId ∈ recordedClaims ingest.workspaceId journal →
        claimId ∈ recordedClaims ingest.workspaceId left) ∧
      (claimId ∈ recordedClaims ingest.workspaceId left →
        claimId ∈ recordedClaims ingest.workspaceId journal ∨ ingest.Offered claimId) := by
  obtain ⟨fuse, strict, observedAtMs, failure, failed, rfl⟩ := stops
  rcases ingestRun_cases fuse ingest.config ingest.world ingest.workspaceId strict observedAtMs
    conforming with ⟨other, _, _, _, settled, ran, _⟩ | ⟨other, ran, left⟩
  · exact absurd (ran.symm.trans failed) (by simp)
  · have same : other = failure := Except.error.inj (ran.symm.trans failed)
    subst same
    rcases left with unchanged | ⟨plan, done, rest, stopped, planned, split, all, last⟩ |
      ⟨plan, appended, inference, done, rest, stopped, decides, split, all, last⟩
    · rw [unchanged]
      exact ⟨conforming, fun claimId => ⟨id, Or.inl⟩⟩
    · obtain ⟨_, _, still, notes⟩ := OpEnv.appendAll_spec all conforming
      rw [← last]
      refine ⟨still, fun claimId => ⟨fun before => (notes _).mpr (Or.inl before), ?_⟩⟩
      intro recorded
      rcases (notes _).mp recorded with before | ⟨payload, member, tells⟩
      · exact Or.inl before
      · have whole : ∃ payload ∈ plan.events,
            (recordedStatement ingest.workspaceId claimId).tells payload :=
          ⟨payload, by rw [split]; exact List.mem_append_left _ member, tells⟩
        rw [recorded_events (newClaims_ids planned).2.1, awaited_iff planned] at whole
        exact Or.inr whole.offered
    · obtain ⟨_, _, middle, first⟩ := OpEnv.appendAll_spec decides.recorded conforming
      obtain ⟨_, _, still, second⟩ := OpEnv.appendAll_spec all middle
      rw [← last]
      refine ⟨still, fun claimId => ⟨fun before =>
        (second _).mpr (Or.inl ((first _).mpr (Or.inl before))), ?_⟩⟩
      intro recorded
      rcases (second _).mp recorded with early | ⟨payload, member, tells⟩
      · rcases (first _).mp early with before | told
        · exact Or.inl before
        · rw [recorded_events (newClaims_ids decides.planned).2.1, awaited_iff decides.planned] at told
          exact Or.inr told.offered
      · exact absurd ⟨payload, by rw [split]; exact List.mem_append_left _ member, tells⟩
          recorded_superseded

/-- The run law of stopped runs. -/
theorem stops_run {ingest : FileIngest} {journal left : Journal} (conforming : journal.Conforming)
    (stops : ingest.StopsRepeatedly journal left) :
    left.Conforming ∧ ∀ claimId,
      (claimId ∈ recordedClaims ingest.workspaceId journal →
        claimId ∈ recordedClaims ingest.workspaceId left) ∧
      (claimId ∈ recordedClaims ingest.workspaceId left →
        claimId ∈ recordedClaims ingest.workspaceId journal ∨ ingest.Offered claimId) := by
  induction stops with
  | refl => exact ⟨conforming, fun claimId => ⟨id, Or.inl⟩⟩
  | tail _ last ih =>
    obtain ⟨middle, before⟩ := ih
    obtain ⟨still, after⟩ := stops_step middle last
    refine ⟨still, fun claimId => ⟨fun recorded => (after claimId).1 ((before claimId).1 recorded), ?_⟩⟩
    intro recorded
    rcases (after claimId).2 recorded with earlier | offered
    · exact (before claimId).2 earlier
    · exact Or.inr offered

omit [Blake3] in
/-- What is recorded or awaited is the same when what is neither is the same among the offered. -/
theorem recovered_iff {before after awaitedBefore awaitedAfter offered : Prop}
    (kept : before → after) (bounded : after → before ∨ offered)
    (beforeOffered : awaitedBefore → offered) (afterOffered : awaitedAfter → offered) :
    (after ∨ awaitedAfter ↔ before ∨ awaitedBefore) ↔
      (offered ∧ ¬ after ∧ ¬ awaitedAfter ↔ offered ∧ ¬ before ∧ ¬ awaitedBefore) := by
  by_cases among : offered
  · simp only [among, true_and, ← not_or]
    exact not_iff_not.symm
  · have idleBefore : ¬ awaitedBefore := fun waits => among (beforeOffered waits)
    have idleAfter : ¬ awaitedAfter := fun waits => among (afterOffered waits)
    have same : after ↔ before := ⟨fun there => (bounded there).resolve_right among, kept⟩
    simp [among, idleBefore, idleAfter, same]

/-- After any number of stopped runs, the run that succeeds records and supersedes what one
uninterrupted run would have exactly when the stopped runs left no claim of the files stranded,
and every claim is retired already or still replaced by the files not yet observed just when the
whole set of files replaces it. -/
theorem retry_completes_iff {ingest : FileIngest} {journal left whole retried : Journal}
    {wholeFuse wholeAt retryFuse retryAt : Nat} {wholeStrict retryStrict : Bool}
    {wholeOutput retryOutput : IngestRunOutput} (conforming : journal.Conforming)
    (stopped : ingest.StopsRepeatedly journal left)
    (uninterrupted : ingest.run wholeFuse wholeStrict wholeAt journal = .ok (wholeOutput, whole))
    (succeeds : ingest.run retryFuse retryStrict retryAt left = .ok (retryOutput, retried)) :
    (recordedClaims ingest.workspaceId retried = recordedClaims ingest.workspaceId whole ∧
      supersededClaims ingest.workspaceId retried = supersededClaims ingest.workspaceId whole) ↔
    (∀ claimId, ingest.Stranded left claimId ↔ ingest.Stranded journal claimId) ∧
      ∀ claimId,
        (claimId ∈ supersededClaims ingest.workspaceId left ∨ ingest.Retires retryAt left claimId) ↔
        (claimId ∈ supersededClaims ingest.workspaceId journal ∨
          ingest.Retires wholeAt journal claimId) := by
  obtain ⟨still, between⟩ := stops_run conforming stopped
  obtain ⟨_, wholeRecords, wholeRetires⟩ := run_ok conforming uninterrupted
  obtain ⟨_, retryRecords, retryRetires⟩ := run_ok still succeeds
  refine and_congr ?_ ?_
  · rw [Set.ext_iff]
    refine forall_congr' fun claimId => ?_
    rw [retryRecords, wholeRecords]
    exact recovered_iff (between claimId).1 (between claimId).2 Awaited.offered Awaited.offered
  · rw [Set.ext_iff]
    refine forall_congr' fun claimId => ?_
    rw [retryRetires, wholeRetires]

end FileIngest

end

/-- A digest that reads its bytes back in decimal, last byte first. -/
@[reducible] def tailDigest : Blake3 where
  hex := fun bytes => String.join (bytes.reverse.map fun byte => toString byte.toNat)

/-- One file with two claim lines, read by the heuristics. -/
def twoLineIngest : FileIngest where
  config := {}
  world :=
    { inputPath := "/w"
      discovery := .ok { files := [⟨"/w/a.md", "a.md", .text "Alpha is slow.\nBeta is fast."⟩] }
      runExtractor := fun _ _ => .failed "no command"
      rowsJson := fun _ => "[]" }
  workspaceId := "demo"

/-- The journal a run leaves, whether or not it succeeds. -/
def journalAfter {Output : Type} : Except (Failure Journal) (Output × Journal) → Journal
  | .error failure => failure.left
  | .ok (_, journal) => journal

/-- A successful run leaves the journal it returns. -/
theorem journalAfter_ok {Output : Type} {result : Except (Failure Journal) (Output × Journal)}
    (succeeds : result.isOk = true) : ∃ output, result = .ok (output, journalAfter result) := by
  cases result with
  | error failure => cases succeeds
  | ok pair => exact ⟨pair.1, rfl⟩

/-- The first run stops after the observation and the first of two claims. -/
theorem twoLineIngest_stops :
    let _ := tailDigest
    twoLineIngest.StopsRepeatedly Journal.empty
      (journalAfter (twoLineIngest.run 2 false 5 Journal.empty)) := by
  intro digest
  apply Relation.ReflTransGen.single
  cases ran : twoLineIngest.run 2 false 5 Journal.empty with
  | error failure => exact ⟨2, false, 5, failure, ran, rfl⟩
  | ok pair =>
    have stopped : (twoLineIngest.run 2 false 5 Journal.empty).isOk = false := by decide
    rw [ran] at stopped
    cases stopped

/-- The two-line file after a stop behind its first claim. -/
theorem retry_completes_iff_two_lines :
    let _ := tailDigest
    ∃ left whole retried, twoLineIngest.StopsRepeatedly Journal.empty left ∧
      (∃ output, twoLineIngest.run 9 false 5 Journal.empty = .ok (output, whole)) ∧
      (∃ output, twoLineIngest.run 9 false 6 left = .ok (output, retried)) ∧
      ((recordedClaims "demo" retried = recordedClaims "demo" whole ∧
          supersededClaims "demo" retried = supersededClaims "demo" whole) ↔
        (∀ claimId, twoLineIngest.Stranded left claimId ↔
          twoLineIngest.Stranded Journal.empty claimId) ∧
        ∀ claimId,
          (claimId ∈ supersededClaims "demo" left ∨ twoLineIngest.Retires 6 left claimId) ↔
          (claimId ∈ supersededClaims "demo" Journal.empty ∨
            twoLineIngest.Retires 5 Journal.empty claimId)) := by
  intro digest
  obtain ⟨output, whole⟩ := journalAfter_ok
    (by decide : (twoLineIngest.run 9 false 5 Journal.empty).isOk = true)
  obtain ⟨again, retried⟩ := journalAfter_ok
    (by decide : (twoLineIngest.run 9 false 6
      (journalAfter (twoLineIngest.run 2 false 5 Journal.empty))).isOk = true)
  exact ⟨_, _, _, twoLineIngest_stops, ⟨output, whole⟩, ⟨again, retried⟩,
    FileIngest.retry_completes_iff Journal.conforming_empty twoLineIngest_stops whole retried⟩

/-- A run that stops behind the first of two claims strands the second one: the file counts as
observed, and no later run records the claim that an uninterrupted run would have. -/
theorem stopped_run_strands_claim :
    let _ := tailDigest
    ∃ left whole retried, twoLineIngest.StopsRepeatedly Journal.empty left ∧
      (∃ output, twoLineIngest.run 9 false 5 Journal.empty = .ok (output, whole)) ∧
      (∃ output, twoLineIngest.run 9 false 6 left = .ok (output, retried)) ∧
      recordedClaims "demo" retried ≠ recordedClaims "demo" whole := by
  intro digest
  obtain ⟨output, whole⟩ := journalAfter_ok
    (by decide : (twoLineIngest.run 9 false 5 Journal.empty).isOk = true)
  obtain ⟨again, retried⟩ := journalAfter_ok
    (by decide : (twoLineIngest.run 9 false 6
      (journalAfter (twoLineIngest.run 2 false 5 Journal.empty))).isOk = true)
  refine ⟨_, _, _, twoLineIngest_stops, ⟨output, whole⟩, ⟨again, retried⟩, ?_⟩
  have still := (FileIngest.stops_run Journal.conforming_empty twoLineIngest_stops).1
  have wholeConforms := (FileIngest.run_ok Journal.conforming_empty whole).1
  have retriedConforms := (FileIngest.run_ok still retried).1
  have recorded : "claim_461161159710" ∈ recordedClaims "demo"
      (journalAfter (twoLineIngest.run 9 false 5 Journal.empty)) :=
    (mem_recordedClaims wholeConforms).mpr (by decide)
  have lost : "claim_461161159710" ∉ recordedClaims "demo"
      (journalAfter (twoLineIngest.run 9 false 6
        (journalAfter (twoLineIngest.run 2 false 5 Journal.empty)))) := by
    rw [mem_recordedClaims retriedConforms]
    decide
  intro same
  rw [same] at lost
  exact lost recorded

end Texo.Ingest
