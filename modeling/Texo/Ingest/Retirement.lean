import Texo.Claims.Streams
import Texo.Ingest.SessionEnd

/-! # What a session end retires

The claims a session end retires, read off the rows it looks at, and how rows of other session
ends move them: a claim that is retired already is not retired anew, a claim that is recorded
meanwhile may be.
-/
namespace Texo.Ingest
open Texo.Events Texo.Extract Texo.Knowledge Texo.Store Texo.Claims Texo.Semantics Texo.Ops
  Texo.Foundation Texo.Sessions

/-- Whether a payload retires a claim. -/
def supersedes (claimId : String) : Payload → Bool
  | .claimSuperseded event => event.oldClaimId = claimId
  | _ => false

/-- Whether a payload records a claim. -/
def records (claimId : String) : Payload → Bool
  | .claimRecorded event => event.claimId = claimId
  | _ => false

/-- The replacement by which an inference on some rows retires a claim, with claims known on top
of those the rows record. -/
def retirement (rows : List Entry) (known : List ClaimRecordedV2)
    (candidates : List ReplacementCandidate) (claimId : String) : Option Proposal :=
  (replacementOf rows known candidates claimId).filter fun made =>
    holdOfOrder (compareSnapshots (orderFacts rows) (supportOf rows claimId)
      (if isRecorded rows made.new.claimId.value then supportOf rows made.new.claimId.value
      else none)) = none

/-- Cards with one recording are replaced alike. -/
theorem replaces_of_record {card card' : ClaimCard} (same : card'.record = card.record) :
    replaces card' = replaces card := by
  have subject : card'.subjectHint = card.subjectHint :=
    congrArg ClaimRecordedV2.subjectHint same
  have own : card'.claimId = card.claimId := congrArg ClaimRecordedV2.claimId same
  have text : card'.normalizedText = card.normalizedText :=
    congrArg ClaimRecordedV2.normalizedText same
  funext new
  simp only [replaces, subject, own, text]

section
variable [Blake3]

/-- A claim payload lies in the workspace it names. -/
theorem inWorkspace_claimRecorded {workspaceId : String} {event : ClaimRecordedV2} :
    InWorkspace workspaceId (.claimRecorded event) ↔ event.workspaceId = workspaceId := by
  constructor
  · intro here
    exact scopeForWorkspace_injective (here _ rfl)
  · intro same coordinate lies
    rw [← Option.some.inj lies, ← same]
    rfl

/-- A supersession lies in the workspace it names. -/
theorem inWorkspace_claimSuperseded {workspaceId : String} {event : ClaimSupersededV2} :
    InWorkspace workspaceId (.claimSuperseded event) ↔ event.workspaceId = workspaceId := by
  constructor
  · intro here
    exact scopeForWorkspace_injective (here _ rfl)
  · intro same coordinate lies
    rw [← Option.some.inj lies, ← same]
    rfl

/-- The claims an inference on a view retires, each with its replacement. -/
theorem mem_applied_retirement {journal : Journal} {workspaceId : String}
    (conforming : journal.Conforming) {temporal : RelateTemporalPolicy}
    (policy : workspaceTemporalPolicy (readable journal) workspaceId (viewOf workspaceId journal) =
      .ok temporal) {candidates : List ReplacementCandidate} {observedAtMs : Nat}
    {event : ClaimSupersededV2} :
    event ∈ (inferExplicitSupersessions (viewOf workspaceId journal) candidates observedAtMs
        temporal).applied ↔
      ∃ made, retirement (workspaceRows journal workspaceId) [] candidates event.oldClaimId =
        some made ∧ event = supersededEvent observedAtMs made := by
  have rows : ∀ row ∈ workspaceRows journal workspaceId, Conforms row := fun row member =>
    conforming row (Journal.mem_region.mp member).1
  have held : ∀ claimId made, replacementOf (workspaceRows journal workspaceId) [] candidates
      claimId = some made → holdReason temporal made.oldClaimId made.new.claimId =
        holdOfOrder (compareSnapshots (orderFacts (workspaceRows journal workspaceId))
          (supportOf (workspaceRows journal workspaceId) claimId)
          (if isRecorded (workspaceRows journal workspaceId) made.new.claimId.value then
            supportOf (workspaceRows journal workspaceId) made.new.claimId.value else none)) := by
    intro claimId made replaced
    obtain ⟨whenRecorded, whenNew⟩ := holdReason_current conforming policy replaced
    by_cases new : Recorded (workspaceRows journal workspaceId) made.new.claimId.value
    · rw [whenRecorded new, if_pos (isRecorded_iff.mpr new)]
      rfl
    · rw [whenNew new, if_neg fun found => new (isRecorded_iff.mp found)]
  rw [mem_applied, decision, viewOf, decidingProposal_replay rows, Option.map_eq_some_iff]
  unfold retirement
  constructor
  · rintro ⟨made, replaced, settled⟩
    unfold settledBy at settled
    cases order : holdReason temporal made.oldClaimId made.new.claimId with
    | some reason => simp [order] at settled
    | none =>
      have same : supersededEvent observedAtMs made = event := by simpa [order] using settled
      refine ⟨made, ?_, same.symm⟩
      have free := held _ made replaced
      rw [order] at free
      rw [Option.filter_eq_some_iff]
      exact ⟨replaced, by simpa using free.symm⟩
  · rintro ⟨made, retired, same⟩
    obtain ⟨replaced, free⟩ := Option.filter_eq_some_iff.mp retired
    refine ⟨made, replaced, ?_⟩
    have order : holdReason temporal made.oldClaimId made.new.claimId = none := by
      rw [held _ made replaced]
      simpa using free
    simp [settledBy, order, same]

omit [Blake3] in
/-- Rows of an ingest or a session end say nothing about source order. -/
theorem order_appendable {row : Entry} (kind : Appendable row.payload) (rows : List Entry) :
    evidenceOf (rows ++ [row]) = evidenceOf rows ∧ Ops.orderOf (rows ++ [row]) = Ops.orderOf rows := by
  simp only [evidenceOf, Ops.orderOf, List.foldl_append, List.foldl_cons, List.foldl_nil]
  unfold noteEvidence noteOrder
  cases stored : row.payload with
  | sourceObserved _ => exact ⟨rfl, rfl⟩
  | claimRecorded _ => exact ⟨rfl, rfl⟩
  | claimSuperseded _ => exact ⟨rfl, rfl⟩
  | _ => rw [stored] at kind; exact kind.elim

/-- Appends of an ingest or a session end leave the source order alone. -/
theorem order_appendAll (workspaceId : String) {env next : OpEnv} {payloads : List Payload}
    (appended : env.appendAll payloads = .ok next)
    (kinds : ∀ payload ∈ payloads, Appendable payload) :
    evidenceOf (workspaceRows next.journal workspaceId) =
        evidenceOf (workspaceRows env.journal workspaceId) ∧
      Ops.orderOf (workspaceRows next.journal workspaceId) =
        Ops.orderOf (workspaceRows env.journal workspaceId) := by
  induction payloads generalizing env with
  | nil =>
    have same : env = next := Except.ok.inj appended
    rw [same]
    exact ⟨rfl, rfl⟩
  | cons payload rest ih =>
    rw [OpEnv.appendAll, List.foldlM_cons] at appended
    obtain ⟨middle, first, later⟩ := bind_eq_ok.mp appended
    obtain ⟨evidence, order⟩ := ih later fun other member => kinds other (by simp [member])
    rw [evidence, order]
    rcases OpEnv.append_region first (scopeForWorkspace workspaceId) with
      same | ⟨row, grown, carries, _, _⟩
    · unfold workspaceRows
      rw [same]
      exact ⟨rfl, rfl⟩
    · unfold workspaceRows
      rw [grown]
      exact order_appendable (carries ▸ kinds payload (by simp)) _

/-- An append that retires another claim leaves an open claim alone. -/
theorem openClaim_superseded {env next : OpEnv} {event : ClaimSupersededV2} {workspaceId : String}
    (appended : env.append (.claimSuperseded event) = .ok next)
    (conforming : env.journal.Conforming) (here : event.workspaceId = workspaceId)
    {claimId : String} (other : event.oldClaimId ≠ claimId) (newClaims : List ClaimRecordedV2) :
    openClaim (workspaceRows next.journal workspaceId) newClaims claimId =
      openClaim (workspaceRows env.journal workspaceId) newClaims claimId := by
  have recorded : isRecorded (workspaceRows next.journal workspaceId) claimId =
      isRecorded (workspaceRows env.journal workspaceId) claimId := by
    rw [Bool.eq_iff_iff, isRecorded_iff, isRecorded_iff,
      recorded_append appended conforming workspaceId claimId]
    constructor
    · intro told
      rcases told with before | ⟨_, impossible, _⟩
      · exact before
      · cases impossible
    · exact Or.inl
  have card : claimCardAt (workspaceRows next.journal workspaceId) claimId =
      claimCardAt (workspaceRows env.journal workspaceId) claimId := by
    apply claimCardAt_stream
    have grown := streamOf_append appended conforming (inWorkspace_claimSuperseded.mpr here)
      (Or.inl (CardFamily.of_claim claimId))
    refine grown.trans (if_neg ?_)
    intro ⟨about, _⟩
    exact other (entityForClaim_injective (Option.some.inj about))
  unfold openClaim
  rw [recorded, card]

/-- The run law of open claims: appends that do not retire a claim open what they record. -/
theorem openClaim_appendAll {env next : OpEnv} {payloads : List Payload} {workspaceId : String}
    (appended : env.appendAll payloads = .ok next) (conforming : env.journal.Conforming)
    (kinds : ∀ payload ∈ payloads, Appendable payload)
    (here : ∀ payload ∈ payloads, InWorkspace workspaceId payload) {claimId : String}
    (untouched : ∀ payload ∈ payloads, supersedes claimId payload = false)
    (newClaims : List ClaimRecordedV2) :
    openClaim (workspaceRows next.journal workspaceId) newClaims claimId =
      openClaim (workspaceRows env.journal workspaceId) (recordings payloads ++ newClaims)
        claimId := by
  induction payloads generalizing env with
  | nil =>
    have same : env = next := Except.ok.inj appended
    rw [same]
    rfl
  | cons payload rest ih =>
    rw [OpEnv.appendAll, List.foldlM_cons] at appended
    obtain ⟨middle, first, later⟩ := bind_eq_ok.mp appended
    have still := (OpEnv.append_conforming first conforming).2
    have more := ih later still (fun other member => kinds other (by simp [member]))
      (fun other member => here other (by simp [member]))
      fun other member => untouched other (by simp [member])
    have split : recordings (payload :: rest) = recordings [payload] ++ recordings rest := by
      rw [recordings, recordings, recordings, ← List.filterMap_append]
      rfl
    rw [more, split, List.append_assoc]
    have kind := kinds payload (by simp)
    have place := here payload (by simp)
    have apart := untouched payload (by simp)
    cases payload with
    | sourceObserved event =>
      exact (openClaim_step first conforming trivial).1 _ _
    | claimRecorded event =>
      exact (openClaim_step first conforming (inWorkspace_claimRecorded.mp place)).1 _ _
    | claimSuperseded event =>
      exact openClaim_superseded first conforming (inWorkspace_claimSuperseded.mp place)
        (by simpa [supersedes] using apart) _
    | _ => exact kind.elim

omit [Blake3] in
/-- A card that stays current when it is superseded was current, with its recording. -/
theorem current_of_onSuperseded {card : ClaimCard} {event : ClaimSupersededV2}
    (current : (card.onSuperseded event).phase = 1) : card.phase = 1 := by
  unfold ClaimCard.onSuperseded at current
  by_cases successor : card.supersededBy.isSome = true
  · simpa only [successor, if_true] using current
  · simp only [if_neg successor] at current
    omega

/-- A supersession row leaves an open claim open with its recording, or closes it. -/
theorem openClaim_retired {rows : List Entry} (conforming : ∀ row ∈ rows, Conforms row)
    {row : Entry} (conforms : Conforms row) {event : ClaimSupersededV2}
    (payload : row.payload = .claimSuperseded event) {claimId : String}
    (recorded : Recorded rows claimId) (same : event.oldClaimId = claimId) {card' : ClaimCard}
    (opened : openClaim (rows ++ [row]) [] claimId = some card') :
    ∃ card, openClaim rows [] claimId = some card ∧ card'.record = card.record := by
  have known := isRecorded_iff.mpr recorded
  have still : isRecorded (rows ++ [row]) claimId = true := by
    unfold isRecorded at known ⊢
    rw [List.any_append, known]
    rfl
  have entity : row.entity = entityForClaim claimId := by
    have placed := conforms.placed
    rw [payload] at placed
    rw [← same]
    exact (congrArg Coordinate.entity (placed _ rfl)).symm
  have origin := originAt conforming claimId
  unfold OriginAt at origin
  cases held : claimCardAt rows claimId with
  | none =>
    rw [held] at origin
    exact absurd recorded origin
  | some card =>
    have after : claimCardAt (rows ++ [row]) claimId = some (card.onSuperseded event) := by
      rw [claimCardAt_snoc, if_pos ⟨entity, by rw [payload]; rfl⟩, held, payload]
      rfl
    rw [openClaim, if_pos still, after] at opened
    obtain ⟨kept, current⟩ := Option.filter_eq_some_iff.mp opened
    have equal := Option.some.inj kept
    subst equal
    refine ⟨card, ?_, by simp⟩
    rw [openClaim, if_pos known, held]
    have phase : card.phase = 1 := current_of_onSuperseded (by simpa using current)
    simp [Option.filter, phase]

/-- One append leaves an open claim that is recorded open with its recording, or closes it. -/
theorem openClaim_recorded_append {env next : OpEnv} {payload : Payload} {workspaceId : String}
    (appended : env.append payload = .ok next) (conforming : env.journal.Conforming)
    (kind : Appendable payload) (here : InWorkspace workspaceId payload) {claimId : String}
    (recorded : Recorded (workspaceRows env.journal workspaceId) claimId) {card' : ClaimCard}
    (opened : openClaim (workspaceRows next.journal workspaceId) [] claimId = some card') :
    ∃ card, openClaim (workspaceRows env.journal workspaceId) [] claimId = some card ∧
      card'.record = card.record := by
  have known := isRecorded_iff.mpr recorded
  have ignored : ∀ newClaims, openClaim (workspaceRows env.journal workspaceId) newClaims claimId =
      openClaim (workspaceRows env.journal workspaceId) [] claimId := by
    intro newClaims
    rw [openClaim, openClaim, if_pos known, if_pos known]
  cases payload with
  | sourceObserved event =>
    refine ⟨card', ?_, rfl⟩
    rw [← opened, (openClaim_step appended conforming trivial).1]
    exact (ignored _).symm
  | claimRecorded event =>
    refine ⟨card', ?_, rfl⟩
    rw [← opened, (openClaim_step appended conforming (inWorkspace_claimRecorded.mp here)).1]
    exact (ignored _).symm
  | claimSuperseded event =>
    by_cases same : event.oldClaimId = claimId
    · rcases OpEnv.append_region appended (scopeForWorkspace workspaceId) with
        unchanged | ⟨row, grown, carries, conforms, _⟩
      · refine ⟨card', ?_, rfl⟩
        rw [← opened]
        unfold workspaceRows
        rw [unchanged]
      · unfold workspaceRows at opened recorded ⊢
        rw [grown] at opened
        have rows : ∀ row ∈ env.journal.region (scopeForWorkspace workspaceId), Conforms row :=
          fun row member => conforming row (Journal.mem_region.mp member).1
        exact openClaim_retired rows conforms carries recorded same opened
    · refine ⟨card', ?_, rfl⟩
      rw [← opened]
      exact (openClaim_superseded appended conforming (inWorkspace_claimSuperseded.mp here) same
        []).symm
  | _ => exact kind.elim

/-- The run law of a recorded open claim. -/
theorem openClaim_recorded_appendAll {env next : OpEnv} {payloads : List Payload}
    {workspaceId : String} (appended : env.appendAll payloads = .ok next)
    (conforming : env.journal.Conforming) (kinds : ∀ payload ∈ payloads, Appendable payload)
    (here : ∀ payload ∈ payloads, InWorkspace workspaceId payload) {claimId : String}
    (recorded : Recorded (workspaceRows env.journal workspaceId) claimId) {card' : ClaimCard}
    (opened : openClaim (workspaceRows next.journal workspaceId) [] claimId = some card') :
    ∃ card, openClaim (workspaceRows env.journal workspaceId) [] claimId = some card ∧
      card'.record = card.record := by
  induction payloads generalizing env with
  | nil =>
    have same : env = next := Except.ok.inj appended
    rw [same]
    exact ⟨card', opened, rfl⟩
  | cons payload rest ih =>
    rw [OpEnv.appendAll, List.foldlM_cons] at appended
    obtain ⟨middle, first, later⟩ := bind_eq_ok.mp appended
    have known := (recorded_append first conforming workspaceId claimId).mpr (Or.inl recorded)
    obtain ⟨card, between, same⟩ := ih later (OpEnv.append_conforming first conforming).2
      (fun other member => kinds other (by simp [member]))
      (fun other member => here other (by simp [member])) known
    obtain ⟨start, before, equal⟩ := openClaim_recorded_append first conforming
      (kinds payload (by simp)) (here payload (by simp)) recorded between
    exact ⟨start, before, same.trans equal⟩

/-- Rows in between hold a retirement back as before, when they record none of the candidates. -/
theorem retirement_eq {env next : OpEnv} {payloads : List Payload} {workspaceId : String}
    (appended : env.appendAll payloads = .ok next)
    (kinds : ∀ payload ∈ payloads, Appendable payload) {candidates : List ReplacementCandidate}
    (apart : ∀ new ∈ candidates,
      Recorded (workspaceRows next.journal workspaceId) new.claimId.value ↔
        Recorded (workspaceRows env.journal workspaceId) new.claimId.value)
    {known known' : List ClaimRecordedV2} {claimId : String}
    (same : replacementOf (workspaceRows next.journal workspaceId) known candidates claimId =
      replacementOf (workspaceRows env.journal workspaceId) known' candidates claimId) :
    retirement (workspaceRows next.journal workspaceId) known candidates claimId =
      retirement (workspaceRows env.journal workspaceId) known' candidates claimId := by
  obtain ⟨evidence, order⟩ := order_appendAll workspaceId appended kinds
  unfold retirement
  rw [same]
  apply Option.ext
  intro made
  rw [Option.filter_eq_some_iff, Option.filter_eq_some_iff]
  refine and_congr_right fun replaced => ?_
  have candidate := (replacementOf_named replaced).2
  have found : isRecorded (workspaceRows next.journal workspaceId) made.new.claimId.value =
      isRecorded (workspaceRows env.journal workspaceId) made.new.claimId.value := by
    rw [Bool.eq_iff_iff, isRecorded_iff, isRecorded_iff]
    exact apart _ candidate
  unfold supportOf orderFacts
  rw [found, evidence, order]

/-- A claim that is recorded before the rows in between is retired after them as before them,
unless they retire it. -/
theorem retirement_of_later {env next : OpEnv} {payloads : List Payload} {workspaceId : String}
    (appended : env.appendAll payloads = .ok next) (conforming : env.journal.Conforming)
    (kinds : ∀ payload ∈ payloads, Appendable payload)
    (here : ∀ payload ∈ payloads, InWorkspace workspaceId payload)
    {candidates : List ReplacementCandidate}
    (apart : ∀ new ∈ candidates,
      Recorded (workspaceRows next.journal workspaceId) new.claimId.value ↔
        Recorded (workspaceRows env.journal workspaceId) new.claimId.value)
    {claimId : String} (recorded : Recorded (workspaceRows env.journal workspaceId) claimId)
    {made : Proposal}
    (retired : retirement (workspaceRows next.journal workspaceId) [] candidates claimId =
      some made) :
    retirement (workspaceRows env.journal workspaceId) [] candidates claimId = some made := by
  rw [← retired]
  symm
  apply retirement_eq appended kinds apart
  obtain ⟨replaced, _⟩ := Option.filter_eq_some_iff.mp retired
  unfold replacementOf at replaced ⊢
  split at replaced
  · rename_i card' own opened parsed
    obtain ⟨card, before, same⟩ := openClaim_recorded_appendAll appended conforming kinds here
      recorded opened
    rw [before, parsed]
    simp only
    rw [replaces_of_record same]
  · cases replaced

/-- A claim that the rows in between do not retire is retired after them as before them with
what they record. -/
theorem retirement_of_untouched {env next : OpEnv} {payloads : List Payload} {workspaceId : String}
    (appended : env.appendAll payloads = .ok next) (conforming : env.journal.Conforming)
    (kinds : ∀ payload ∈ payloads, Appendable payload)
    (here : ∀ payload ∈ payloads, InWorkspace workspaceId payload)
    {candidates : List ReplacementCandidate}
    (apart : ∀ new ∈ candidates,
      Recorded (workspaceRows next.journal workspaceId) new.claimId.value ↔
        Recorded (workspaceRows env.journal workspaceId) new.claimId.value)
    {claimId : String}
    (untouched : ∀ payload ∈ payloads, supersedes claimId payload = false) :
    retirement (workspaceRows next.journal workspaceId) [] candidates claimId =
      retirement (workspaceRows env.journal workspaceId) (recordings payloads) candidates
        claimId := by
  apply retirement_eq appended kinds apart
  unfold replacementOf
  rw [openClaim_appendAll appended conforming kinds here untouched, List.append_nil]

omit [Blake3] in
/-- Claims known on top make no difference to a recorded claim. -/
theorem retirement_recorded {rows : List Entry} {claimId : String} (recorded : Recorded rows claimId)
    (known : List ClaimRecordedV2) (candidates : List ReplacementCandidate) :
    retirement rows known candidates claimId = retirement rows [] candidates claimId := by
  unfold retirement
  rw [replacementOf_recorded recorded known]

omit [Blake3] in
/-- A claim that is neither recorded nor known is not retired. -/
theorem retirement_unknown {rows : List Entry} {claimId : String}
    (unrecorded : ¬ Recorded rows claimId) {known : List ClaimRecordedV2}
    (unknown : claimId ∉ known.map ClaimRecordedV2.claimId)
    (candidates : List ReplacementCandidate) : retirement rows known candidates claimId = none := by
  have absent : ¬ isRecorded rows claimId = true := fun found => unrecorded (isRecorded_iff.mp found)
  have nowhere : known.find? (fun claim => claim.claimId = claimId) = none := by
    rw [List.find?_eq_none]
    intro claim member same
    exact unknown (List.mem_map.mpr ⟨claim, member, by simpa using same⟩)
  unfold retirement replacementOf openClaim
  rw [if_neg absent, nowhere]
  rfl

omit [Blake3] in
/-- A claim known early is retired with what is known later as with what is known early. -/
theorem retirement_early {rows : List Entry} {claimId : String} {known later : List ClaimRecordedV2}
    (early : claimId ∈ known.map ClaimRecordedV2.claimId) (candidates : List ReplacementCandidate) :
    retirement rows (known ++ later) candidates claimId =
      retirement rows known candidates claimId := by
  obtain ⟨claim, member, named⟩ := List.mem_map.mp early
  have found : ∃ first, known.find? (fun claim => claim.claimId = claimId) = some first := by
    apply Option.isSome_iff_exists.mp
    rw [List.find?_isSome]
    exact ⟨claim, member, by simpa using named⟩
  obtain ⟨first, found⟩ := found
  unfold retirement replacementOf openClaim
  rw [List.find?_append, found]
  rfl

end

end Texo.Ingest
