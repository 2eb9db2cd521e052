import Texo.Claims.Replay
import Texo.Foundation.Folds
import Texo.Ingest.Plan
import Texo.Ingest.Supersession
import Texo.Ops.SourceOrder

/-! # Explicit replacement read off the journal

Which claim an explicit replacement retires, as a function of the journal rows and of the new
claims: the old claim's card as it stands, or the first new claim under its id, and the first
new claim whose wording replaces it.
-/
namespace Texo.Ingest
open Texo.Events Texo.Extract Texo.Knowledge Texo.Store Texo.Claims Texo.Semantics Texo.Ops
  Texo.Foundation

/-- Whether the wording of a new claim replaces a card. -/
def replaces (card : ClaimCard) (new : ReplacementCandidate) : Bool :=
  containsReplacementSignal new.normalizedText && card.subjectHint = new.subjectHint &&
    card.claimId ≠ new.claimId.value && card.normalizedText ≠ new.normalizedText

/-- Whether some rows record a claim. -/
def isRecorded (rows : List Entry) (claimId : String) : Bool :=
  rows.any fun row =>
    match row.payload with
    | .claimRecorded event => event.claimId = claimId
    | _ => false

/-- The rows that record a claim are found. -/
theorem isRecorded_iff {rows : List Entry} {claimId : String} :
    isRecorded rows claimId = true ↔ Recorded rows claimId := by
  unfold isRecorded Recorded
  rw [List.any_eq_true]
  refine exists_congr fun row => and_congr_right fun _ => ?_
  cases row.payload with
  | claimRecorded event => simp
  | _ => simp

/-- The card of a claim that is current once the new claims are recorded: its card where the
rows record it, the first new claim under its id otherwise. -/
def openClaim (rows : List Entry) (newClaims : List ClaimRecordedV2) (claimId : String) :
    Option ClaimCard :=
  if isRecorded rows claimId then
    (claimCardAt rows claimId).filter fun card => card.phase = 1
  else
    (newClaims.find? fun claim => claim.claimId = claimId).map
      ((claimCardAt rows claimId).getD {}).onRecorded

/-- The proposal that decides a claim, read off the rows. -/
def replacementOf (rows : List Entry) (newClaims : List ClaimRecordedV2)
    (candidates : List ReplacementCandidate) (claimId : String) : Option Proposal :=
  match openClaim rows newClaims claimId, Branded.tryFrom "claim_" claimId with
  | some card, .ok oldClaimId =>
    (candidates.find? (replaces card)).map fun new => ⟨oldClaimId, new⟩
  | _, _ => none

/-- A value that every hit of a search has is what the search finds. -/
theorem find?_eq_of_hit {Item : Type} {hits : Item → Bool} {items : List Item} {value : Item}
    (member : value ∈ items) (hit : hits value = true)
    (only : ∀ item ∈ items, hits item = true → item = value) : items.find? hits = some value := by
  cases found : items.find? hits with
  | none => exact absurd hit (by simpa using List.find?_eq_none.mp found value member)
  | some item =>
    rw [only item (List.mem_of_find?_eq_some found) (List.find?_some found)]

/-- What a proposal says about its claims. -/
theorem proposal_some {new : ReplacementCandidate} {old : Claims.ClaimView} {made : Proposal} :
    proposal new old = some made ↔ made.new = new ∧
      Branded.tryFrom "claim_" old.card.claimId = .ok made.oldClaimId ∧ old.card.phase = 1 ∧
      old.card.claimId ≠ new.claimId.value ∧ old.card.normalizedText ≠ new.normalizedText := by
  unfold proposal
  by_cases skipped : old.card.claimId = new.claimId.value ∨ old.card.phase ≠ 1 ∨
      old.card.normalizedText = new.normalizedText
  · rw [if_pos skipped]
    constructor
    · intro impossible
      cases impossible
    · rintro ⟨_, _, phase, other, text⟩
      rcases skipped with same | phase' | same
      · exact absurd same other
      · exact absurd phase phase'
      · exact absurd same text
  · rw [if_neg skipped]
    simp only [not_or, not_not] at skipped
    obtain ⟨other, phase, text⟩ := skipped
    cases Branded.tryFrom "claim_" old.card.claimId with
    | error error => simp
    | ok own =>
      constructor
      · intro same
        have here := Option.some.inj same
        subst here
        exact ⟨rfl, rfl, phase, other, text⟩
      · rintro ⟨rfl, same, _⟩
        rw [Except.ok.inj same]

/-- Searching proposals one new claim at a time finds the first new claim that replaces. -/
theorem findSome?_replaces (card : ClaimCard) (oldClaimId : ClaimId)
    (candidates : List ReplacementCandidate) :
    candidates.findSome? (fun new => if replaces card new then some (⟨oldClaimId, new⟩ : Proposal)
      else none) = (candidates.find? (replaces card)).map fun new => ⟨oldClaimId, new⟩ := by
  induction candidates with
  | nil => rfl
  | cons new rest ih =>
    rw [List.findSome?_cons, List.find?_cons]
    cases replaces card new with
    | true => rfl
    | false => simpa using ih

section
variable [Blake3]

/-- A listed claim that is current is the open claim of its id. -/
theorem openClaim_of_listed {workspaceId : String} {rows : List Entry}
    (conforming : ∀ row ∈ rows, Conforms row) {claim : Claims.ClaimView}
    (listed : claim ∈ (replayView workspaceId rows).claims) (current : claim.card.phase = 1) :
    openClaim rows [] claim.card.claimId = some claim.card := by
  obtain ⟨held, row, member, payload⟩ := listed_recorded conforming listed (by omega)
  have recorded : isRecorded rows claim.card.claimId = true :=
    isRecorded_iff.mpr ⟨row, member, claim.card.record, payload, rfl⟩
  rw [openClaim, if_pos recorded, held]
  simp [Option.filter, current]

/-- An open claim of the rows is listed under its own id. -/
theorem listed_of_openClaim (workspaceId : String) {rows : List Entry}
    (conforming : ∀ row ∈ rows, Conforms row) {claimId : String} {card : ClaimCard}
    (opened : openClaim rows [] claimId = some card) :
    card.claimId = claimId ∧ card.phase = 1 ∧
      ∃ claim ∈ (replayView workspaceId rows).claims, claim.card = card := by
  unfold openClaim at opened
  split at opened
  · rename_i recorded
    obtain ⟨held, current⟩ := Option.filter_eq_some_iff.mp opened
    have phase : card.phase = 1 := by simpa using current
    have origin := originAt conforming claimId
    unfold OriginAt at origin
    rw [held] at origin
    have there : (cardsOf rows)[entityForClaim claimId]? = some (CachedCard.claim card) := by
      rw [cardsOf_entityForClaim, held]
      rfl
    have shown : card ∈ (replayView workspaceId rows).claims.map ClaimView.card :=
      mem_replayView_cards.mpr ⟨_, there⟩
    obtain ⟨claim, listed, same⟩ := List.mem_map.mp shown
    rcases origin with ⟨_, _, _, named⟩ | ⟨_, _, nowhere⟩
    · exact ⟨named, phase, claim, listed, same⟩
    · exact absurd (isRecorded_iff.mp recorded) nowhere
  · simp at opened

/-- In a replayed view the deciding proposal of a claim is the one read off the rows. -/
theorem decidingProposal_replay {workspaceId : String} {rows : List Entry}
    (conforming : ∀ row ∈ rows, Conforms row) (candidates : List ReplacementCandidate)
    (claimId : String) :
    decidingProposal (replayView workspaceId rows) candidates claimId =
      replacementOf rows [] candidates claimId := by
  have hit : ∀ (new : ReplacementCandidate) (made : Proposal),
      made ∈ (if containsReplacementSignal new.normalizedText then
        (bySubject (replayView workspaceId rows) new.subjectHint).filterMap (proposal new) else []) →
      made.oldClaimId.value = claimId → ∃ card, openClaim rows [] claimId = some card ∧
        Branded.tryFrom "claim_" claimId = .ok made.oldClaimId ∧ replaces card new = true ∧
        made.new = new := by
    intro new made member named
    split at member
    · rename_i signal
      obtain ⟨old, listed, paired⟩ := List.mem_filterMap.mp member
      obtain ⟨inView, subject⟩ := List.mem_filter.mp listed
      obtain ⟨same, parsed, phase, other, text⟩ := proposal_some.mp paired
      have value : claimIdOf old.card.claimId = .ok made.oldClaimId := by simp [claimIdOf, parsed]
      have here : old.card.claimId = claimId := (claimIdOf_value value).symm.trans named
      refine ⟨old.card, ?_, here ▸ parsed, ?_, same⟩
      · rw [← here]
        exact openClaim_of_listed conforming inView phase
      · simp [replaces, signal, other, text, of_decide_eq_true subject]
    · cases member
  unfold decidingProposal proposals
  rw [List.find?_flatMap]
  unfold replacementOf
  cases opened : openClaim rows [] claimId with
  | none =>
    rw [List.findSome?_eq_none_iff]
    intro new _
    rw [List.find?_eq_none]
    intro made member named
    obtain ⟨card, there, _⟩ := hit new made member (by simpa using named)
    rw [opened] at there
    cases there
  | some card =>
    cases parsed : Branded.tryFrom "claim_" claimId with
    | error error =>
      rw [List.findSome?_eq_none_iff]
      intro new _
      rw [List.find?_eq_none]
      intro made member named
      obtain ⟨_, _, there, _⟩ := hit new made member (by simpa using named)
      rw [parsed] at there
      cases there
    | ok oldClaimId =>
      have value : oldClaimId.value = claimId :=
        claimIdOf_value (by simp [claimIdOf, parsed] : claimIdOf claimId = .ok oldClaimId)
      obtain ⟨own, current, claim, listed, held⟩ :=
        listed_of_openClaim workspaceId conforming opened
      have pointwise : (fun new : ReplacementCandidate =>
          (if containsReplacementSignal new.normalizedText then
            (bySubject (replayView workspaceId rows) new.subjectHint).filterMap (proposal new)
          else []).find? fun made => made.oldClaimId.value = claimId) = fun new =>
          if replaces card new then some (⟨oldClaimId, new⟩ : Proposal) else none := by
        funext new
        by_cases replaced : replaces card new = true
        · rw [if_pos replaced]
          have wording := replaced
          simp only [replaces, Bool.and_eq_true, decide_eq_true_eq] at wording
          obtain ⟨⟨⟨signal, subject⟩, other⟩, text⟩ := wording
          apply find?_eq_of_hit
          · rw [if_pos signal]
            refine List.mem_filterMap.mpr ⟨claim, List.mem_filter.mpr ⟨listed, ?_⟩,
              proposal_some.mpr ⟨rfl, ?_, ?_, ?_, ?_⟩⟩
            · simpa [held] using subject
            · rw [held, own]
              exact parsed
            · rw [held]
              exact current
            · rw [held]
              exact other
            · rw [held]
              exact text
          · simpa using value
          · intro made member named
            obtain ⟨_, _, there, _, same⟩ := hit new made member (by simpa using named)
            rw [parsed] at there
            cases made
            cases same
            cases there
            rfl
        · rw [if_neg replaced, List.find?_eq_none]
          intro made member named
          obtain ⟨other, there, _, again, _⟩ := hit new made member (by simpa using named)
          rw [opened] at there
          cases there
          exact replaced again
      rw [pointwise]
      exact findSome?_replaces card oldClaimId candidates

/-- A conforming row that records a claim carries the key of that claim. -/
theorem eventId_of_recorded {row : Entry} (conforms : Conforms row) {event : ClaimRecordedV2}
    (payload : row.payload = .claimRecorded event) :
    row.scope = scopeForWorkspace event.workspaceId ∧
      row.eventId = .forOperation "texo.claim.recorded.v2" [event.workspaceId, event.claimId] := by
  have placed := conforms.placed
  have named := conforms.admissible
  rw [payload] at placed named
  exact ⟨(congrArg Coordinate.scope (placed _ rfl)).symm, named⟩

/-- Recording a claim that is recorded already changes no row, and any other claim becomes
recorded by one new row. -/
theorem append_claimRecorded {env next : OpEnv} {event : ClaimRecordedV2} {workspaceId : String}
    (appended : env.append (.claimRecorded event) = .ok next)
    (conforming : env.journal.Conforming) (here : event.workspaceId = workspaceId) :
    (Recorded (workspaceRows env.journal workspaceId) event.claimId ∧
      workspaceRows next.journal workspaceId = workspaceRows env.journal workspaceId) ∨
    (¬ Recorded (workspaceRows env.journal workspaceId) event.claimId ∧
      ∃ row, workspaceRows next.journal workspaceId =
          workspaceRows env.journal workspaceId ++ [row] ∧
        row.payload = .claimRecorded event ∧ Conforms row) := by
  rcases OpEnv.append_region appended (scopeForWorkspace workspaceId) with
    same | ⟨row, grown, payload, conforms, fresh⟩
  · refine Or.inl ⟨?_, same⟩
    have noted := (OpEnv.append_notes appended conforming
      (recordedStatement workspaceId event.claimId)).mpr (Or.inr ⟨event, rfl, here, rfl⟩)
    obtain ⟨row, member, other, stored, _, named⟩ := noted
    rw [same] at member
    exact ⟨row, member, other, stored, named⟩
  · refine Or.inr ⟨?_, row, grown, payload, conforms⟩
    rintro ⟨old, member, other, stored, named⟩
    obtain ⟨inside, scope⟩ := Journal.mem_region.mp member
    obtain ⟨oldScope, oldId⟩ := eventId_of_recorded (conforming old inside) stored
    obtain ⟨_, rowId⟩ := eventId_of_recorded conforms payload
    have workspace : other.workspaceId = workspaceId :=
      scopeForWorkspace_injective (oldScope.symm.trans scope)
    apply fresh old inside
    rw [oldId, rowId, named, workspace, here]

/-- The claims a list of payloads records. -/
def recordings (payloads : List Payload) : List ClaimRecordedV2 :=
  payloads.filterMap fun
    | .claimRecorded event => some event
    | _ => none

/-- Payloads an ingest appends before it draws replacements. -/
def IngestPayload (workspaceId : String) : Payload → Prop
  | .sourceObserved _ => True
  | .claimRecorded event => event.workspaceId = workspaceId
  | _ => False

omit [Blake3] in
/-- Rows an ingest appends say nothing about source order. -/
theorem order_ingestPayload {workspaceId : String} {row : Entry}
    (kind : IngestPayload workspaceId row.payload) (rows : List Entry) :
    evidenceOf (rows ++ [row]) = evidenceOf rows ∧ Ops.orderOf (rows ++ [row]) = Ops.orderOf rows := by
  simp only [evidenceOf, Ops.orderOf, List.foldl_append, List.foldl_cons, List.foldl_nil]
  unfold noteEvidence noteOrder
  cases stored : row.payload with
  | sourceObserved _ => exact ⟨rfl, rfl⟩
  | claimRecorded _ => exact ⟨rfl, rfl⟩
  | _ => rw [stored] at kind; exact kind.elim

omit [Blake3] in
/-- An observation row changes no open claim. -/
theorem openClaim_observed {rows : List Entry} {row : Entry} {event : SourceObservedV2}
    (payload : row.payload = .sourceObserved event) (newClaims : List ClaimRecordedV2)
    (claimId : String) : openClaim (rows ++ [row]) newClaims claimId =
      openClaim rows newClaims claimId := by
  have card : claimCardAt (rows ++ [row]) claimId = claimCardAt rows claimId := by
    rw [claimCardAt_snoc, if_neg]
    rintro ⟨_, kind⟩
    rw [payload] at kind
    cases kind
  have recorded : isRecorded (rows ++ [row]) claimId = isRecorded rows claimId := by
    simp [isRecorded, payload]
  unfold openClaim
  rw [recorded, card]

omit [Blake3] in
/-- A claim recorded already is open as it was, whatever is new under its id. -/
theorem openClaim_known {rows : List Entry} {event : ClaimRecordedV2}
    (known : Recorded rows event.claimId) (newClaims : List ClaimRecordedV2) (claimId : String) :
    openClaim rows (event :: newClaims) claimId = openClaim rows newClaims claimId := by
  unfold openClaim
  by_cases recorded : isRecorded rows claimId = true
  · rw [if_pos recorded, if_pos recorded]
  · rw [if_neg recorded, if_neg recorded, List.find?_cons_of_neg]
    simp only [decide_eq_true_eq]
    intro same
    rw [same] at known
    exact recorded (isRecorded_iff.mpr known)

/-- The row of a newly recorded claim opens that claim. -/
theorem openClaim_recorded {rows : List Entry} {row : Entry} {event : ClaimRecordedV2}
    (conforms : Conforms row) (payload : row.payload = .claimRecorded event)
    (fresh : ¬ Recorded rows event.claimId) (newClaims : List ClaimRecordedV2) (claimId : String) :
    openClaim (rows ++ [row]) newClaims claimId = openClaim rows (event :: newClaims) claimId := by
  have entity := entity_of_recorded conforms payload
  by_cases own : event.claimId = claimId
  · have before : isRecorded rows claimId = false := by
      rw [← own]
      exact Bool.eq_false_iff.mpr fun recorded => fresh (isRecorded_iff.mp recorded)
    have after : isRecorded (rows ++ [row]) claimId = true := by simp [isRecorded, payload, own]
    have card : claimCardAt (rows ++ [row]) claimId =
        some (((claimCardAt rows claimId).getD {}).onRecorded event) := by
      rw [claimCardAt_snoc, if_pos ⟨by rw [entity, own], by rw [payload]; rfl⟩, payload]
      rfl
    unfold openClaim
    rw [if_pos after, before, card, List.find?_cons_of_pos (by simpa using own)]
    rfl
  · have card : claimCardAt (rows ++ [row]) claimId = claimCardAt rows claimId := by
      rw [claimCardAt_snoc, if_neg]
      rintro ⟨here, _⟩
      rw [entity] at here
      exact own (entityForClaim_injective here)
    have recorded : isRecorded (rows ++ [row]) claimId = isRecorded rows claimId := by
      simp [isRecorded, payload, own]
    unfold openClaim
    rw [recorded, card, List.find?_cons_of_neg (by simpa using own)]

/-- One planned append: the open claims after it are the open claims before it with its claim
among the new ones, and it says nothing about source order. -/
theorem openClaim_step {env next : OpEnv} {payload : Payload} {workspaceId : String}
    (appended : env.append payload = .ok next) (conforming : env.journal.Conforming)
    (kind : IngestPayload workspaceId payload) :
    (∀ newClaims claimId,
      openClaim (workspaceRows next.journal workspaceId) newClaims claimId =
        openClaim (workspaceRows env.journal workspaceId) (recordings [payload] ++ newClaims)
          claimId) ∧
    evidenceOf (workspaceRows next.journal workspaceId) =
      evidenceOf (workspaceRows env.journal workspaceId) ∧
    Ops.orderOf (workspaceRows next.journal workspaceId) =
      Ops.orderOf (workspaceRows env.journal workspaceId) := by
  have order : evidenceOf (workspaceRows next.journal workspaceId) =
      evidenceOf (workspaceRows env.journal workspaceId) ∧
      Ops.orderOf (workspaceRows next.journal workspaceId) =
        Ops.orderOf (workspaceRows env.journal workspaceId) := by
    rcases OpEnv.append_region appended (scopeForWorkspace workspaceId) with
      same | ⟨row, grown, carries, _, _⟩
    · unfold workspaceRows
      rw [same]
      exact ⟨rfl, rfl⟩
    · unfold workspaceRows
      rw [grown]
      exact order_ingestPayload (carries ▸ kind) _
  refine ⟨?_, order⟩
  intro newClaims claimId
  cases payload with
  | sourceObserved event =>
    show _ = openClaim _ newClaims claimId
    rcases OpEnv.append_region appended (scopeForWorkspace workspaceId) with
      same | ⟨row, grown, carries, _, _⟩
    · unfold workspaceRows
      rw [same]
    · unfold workspaceRows
      rw [grown]
      exact openClaim_observed carries newClaims claimId
  | claimRecorded event =>
    show _ = openClaim _ (event :: newClaims) claimId
    rcases append_claimRecorded appended conforming kind with
      ⟨known, same⟩ | ⟨fresh, row, grown, carries, conforms⟩
    · rw [same, openClaim_known known]
    · rw [grown]
      exact openClaim_recorded conforms carries fresh newClaims claimId
  | _ => exact kind.elim

/-- The run law of planned appends. -/
theorem openClaim_run {env next : OpEnv} {payloads : List Payload} {workspaceId : String}
    (appended : env.appendAll payloads = .ok next) (conforming : env.journal.Conforming)
    (kinds : ∀ payload ∈ payloads, IngestPayload workspaceId payload) :
    (∀ newClaims claimId,
      openClaim (workspaceRows next.journal workspaceId) newClaims claimId =
        openClaim (workspaceRows env.journal workspaceId) (recordings payloads ++ newClaims)
          claimId) ∧
    evidenceOf (workspaceRows next.journal workspaceId) =
      evidenceOf (workspaceRows env.journal workspaceId) ∧
    Ops.orderOf (workspaceRows next.journal workspaceId) =
      Ops.orderOf (workspaceRows env.journal workspaceId) := by
  induction payloads generalizing env with
  | nil =>
    have same : env = next := Except.ok.inj appended
    subst same
    exact ⟨fun _ _ => rfl, rfl, rfl⟩
  | cons payload rest ih =>
    rw [OpEnv.appendAll, List.foldlM_cons] at appended
    cases first : env.append payload with
    | error error => simp [first, bind, Except.bind] at appended
    | ok middle =>
      simp only [first, bind, Except.bind] at appended
      obtain ⟨cards, evidence, order⟩ := openClaim_step first conforming (kinds payload (by simp))
      obtain ⟨moreCards, moreEvidence, moreOrder⟩ := ih appended
        (OpEnv.append_conforming first conforming).2 fun later member => kinds later (by simp [member])
      refine ⟨?_, moreEvidence.trans evidence, moreOrder.trans order⟩
      intro newClaims claimId
      have split : recordings (payload :: rest) = recordings [payload] ++ recordings rest := by
        rw [recordings, recordings, recordings, ← List.filterMap_append]
        rfl
      rw [moreCards, cards, split, List.append_assoc]

/-- A view lists exactly the recorded claims. -/
theorem listed_iff_recorded {journal : Journal} (conforming : journal.Conforming)
    {workspaceId claimId : String} (named : claimId ≠ "") :
    WorkspaceListed (viewOf workspaceId journal) claimId ↔
      Recorded (workspaceRows journal workspaceId) claimId := by
  have rows : ∀ row ∈ workspaceRows journal workspaceId, Conforms row := fun row member =>
    conforming row (Journal.mem_region.mp member).1
  constructor
  · intro listed
    obtain ⟨claim, member, same⟩ := List.mem_map.mp listed
    obtain ⟨entity, present⟩ := mem_replayView_cards.mp (List.mem_map_of_mem member)
    obtain ⟨own, _, held⟩ := claimCardAt_of_card present
    have origin := originAt rows own
    unfold OriginAt at origin
    rw [held] at origin
    rcases origin with ⟨row, inside, payload, _⟩ | ⟨unnamed, _, _⟩
    · exact ⟨row, inside, _, payload, same⟩
    · exact absurd (same.symm.trans unnamed) named
  · intro recorded
    have origin := originAt rows claimId
    unfold OriginAt at origin
    cases held : claimCardAt (workspaceRows journal workspaceId) claimId with
    | none =>
      rw [held] at origin
      exact absurd recorded origin
    | some card =>
      rw [held] at origin
      rcases origin with ⟨_, _, _, own⟩ | ⟨_, _, nowhere⟩
      · have there : (cardsOf (workspaceRows journal workspaceId))[entityForClaim claimId]? =
            some (CachedCard.claim card) := by
          rw [cardsOf_entityForClaim, held]
          rfl
        have shown : card ∈ (viewOf workspaceId journal).claims.map ClaimView.card :=
          mem_replayView_cards.mpr ⟨_, there⟩
        obtain ⟨claim, member, same⟩ := List.mem_map.mp shown
        exact List.mem_map.mpr ⟨claim, member, by rw [same, own]⟩
      · exact absurd recorded nowhere

/-- The order the journal gives two claims by the evidence that supports them. -/
def evidenceOrder (rows : List Entry) (old new : String) : Option TemporalRelation :=
  compareSnapshots (orderFacts rows) (supportOf rows old) (supportOf rows new)

omit [Blake3] in
/-- The payloads of a plan are its observations and its claims. -/
theorem events_kinds {plan : SourcePlan} {workspaceId : String}
    (here : ∀ claim ∈ plan.newClaims, claim.workspaceId = workspaceId) :
    ∀ payload ∈ plan.events, IngestPayload workspaceId payload := by
  intro payload member
  obtain ⟨source, planned, inner⟩ := List.mem_flatMap.mp member
  rcases List.mem_cons.mp inner with rfl | later
  · trivial
  · obtain ⟨claim, held, rfl⟩ := List.mem_map.mp later
    exact here claim (List.mem_flatMap.mpr ⟨source, planned, held⟩)

omit [Blake3] in
/-- The payloads of a plan record its claims in order. -/
theorem recordings_events (plan : SourcePlan) : recordings plan.events = plan.newClaims := by
  have claims : ∀ items : List ClaimRecordedV2,
      recordings (items.map Payload.claimRecorded) = items := by
    intro items
    induction items with
    | nil => rfl
    | cons item items ih => exact congrArg (item :: ·) ih
  unfold SourcePlan.events SourcePlan.newClaims
  induction plan.sources with
  | nil => rfl
  | cons source rest ih =>
    have split : recordings (((source :: rest).flatMap fun source : PlannedSource =>
        Payload.sourceObserved source.observed :: source.claims.map .claimRecorded)) =
        recordings (source.claims.map .claimRecorded) ++ recordings (rest.flatMap fun source =>
          .sourceObserved source.observed :: source.claims.map .claimRecorded) := by
      rw [List.flatMap_cons, recordings, List.cons_append, List.filterMap_cons_none rfl,
        List.filterMap_append]
      rfl
    rw [split, ih, claims, List.flatMap_cons]

/-- The claims of a plan are recorded once its events are appended. -/
theorem recorded_after_plan {env appended : OpEnv} {plan : SourcePlan} {workspaceId : String}
    (here : ∀ claim ∈ plan.newClaims, claim.workspaceId = workspaceId)
    (recorded : env.appendAll plan.events = .ok appended) (conforming : env.journal.Conforming)
    {claim : ClaimRecordedV2} (new : claim ∈ plan.newClaims) :
    Recorded (workspaceRows appended.journal workspaceId) claim.claimId := by
  obtain ⟨_, _, _, notes⟩ := OpEnv.appendAll_spec recorded conforming
  obtain ⟨source, planned, held⟩ := List.mem_flatMap.mp new
  have told : ∃ payload ∈ plan.events,
      (recordedStatement workspaceId claim.claimId).tells payload := by
    refine ⟨.claimRecorded claim, List.mem_flatMap.mpr ⟨source, planned, ?_⟩, claim, rfl,
      here claim new, rfl⟩
    exact List.mem_cons_of_mem _ (List.mem_map_of_mem held)
  obtain ⟨row, member, event, stored, _, named⟩ := (notes _).mpr (Or.inr told)
  exact ⟨row, member, event, stored, named⟩

/-- What an inference decides once a plan is in, read off the journal before it: which proposal
decides a claim, and whether source order holds it back. -/
theorem decided_after_plan {env appended : OpEnv} {plan : SourcePlan} {workspaceId : String}
    (here : ∀ claim ∈ plan.newClaims, claim.workspaceId = workspaceId)
    (recorded : env.appendAll plan.events = .ok appended) (conforming : env.journal.Conforming)
    {temporal : RelateTemporalPolicy} {candidates : List ReplacementCandidate}
    (policy : workspaceTemporalPolicy (readable appended.journal) workspaceId
      (viewOf workspaceId appended.journal) = .ok temporal)
    (made : plan.newClaims.mapM candidateOf = .ok candidates) (claimId : String) :
    decidingProposal (viewOf workspaceId appended.journal) candidates claimId =
        replacementOf (workspaceRows env.journal workspaceId) plan.newClaims candidates claimId ∧
      ∀ proposed, decidingProposal (viewOf workspaceId appended.journal) candidates claimId =
        some proposed → holdReason temporal proposed.oldClaimId proposed.new.claimId =
          holdOfOrder (evidenceOrder (workspaceRows env.journal workspaceId) claimId
            proposed.new.claimId.value) := by
  have still := (OpEnv.appendAll_spec recorded conforming).2.2.1
  have rows : ∀ row ∈ workspaceRows appended.journal workspaceId, Conforms row := fun row member =>
    still row (Journal.mem_region.mp member).1
  obtain ⟨cards, evidence, order⟩ := openClaim_run recorded conforming (events_kinds here)
  have opened := cards [] claimId
  rw [recordings_events, List.append_nil] at opened
  have deciding : decidingProposal (viewOf workspaceId appended.journal) candidates claimId =
      replacementOf (workspaceRows env.journal workspaceId) plan.newClaims candidates claimId := by
    unfold viewOf
    rw [decidingProposal_replay rows, replacementOf, opened]
    rfl
  refine ⟨deciding, ?_⟩
  intro proposed decides
  have named : proposed.oldClaimId.value = claimId := by simpa using List.find?_some decides
  have oldListed : WorkspaceListed (viewOf workspaceId appended.journal) claimId := by
    unfold viewOf at decides
    rw [decidingProposal_replay rows, replacementOf] at decides
    cases found : openClaim (workspaceRows appended.journal workspaceId) [] claimId with
    | none => simp [found] at decides
    | some card =>
      obtain ⟨own, _, claim, listed, held⟩ :=
        listed_of_openClaim workspaceId rows found
      exact List.mem_map.mpr ⟨claim, listed, by rw [held, own]⟩
  have newListed : WorkspaceListed (viewOf workspaceId appended.journal)
      proposed.new.claimId.value := by
    rw [deciding, replacementOf] at decides
    have among : proposed.new ∈ candidates := by
      split at decides
      · obtain ⟨new, found, same⟩ := Option.map_eq_some_iff.mp decides
        rw [← same]
        exact List.mem_of_find?_eq_some found
      · cases decides
    obtain ⟨claim, new, source⟩ := mem_of_mapM made among
    have value : proposed.new.claimId.value = claim.claimId := by
      unfold candidateOf at source
      cases parsed : claimIdOf claim.claimId with
      | error error => simp [parsed, Except.map] at source
      | ok own =>
        simp only [parsed, Except.map, Except.ok.injEq] at source
        rw [← source]
        exact claimIdOf_value parsed
    rw [listed_iff_recorded still (proposed.new.claimId.value_ne_empty (by decide)), value]
    exact recorded_after_plan here recorded conforming new
  unfold holdReason
  rw [workspaceTemporalPolicy_spec policy, named, if_pos oldListed, if_pos newListed]
  unfold evidenceOrder supportOf orderFacts
  rw [evidence, order]

end

end Texo.Ingest
