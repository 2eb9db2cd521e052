import Texo.Claims.Standing
import Texo.Ops.SourceOrder
import Texo.Relate.Orderly
import Texo.Store.Growth

/-! # The basis of a campaign after a publication

A pass predicts the basis it leaves by editing the basis it read. The basis of the view that is
assembled afterwards is read off streams, so the two agree where the events in between withdraw
exactly the claims the pass has marked, and say nothing of evidence or source order.
-/
namespace Texo.Relate
open Texo.Events Texo.Knowledge Texo.Foundation Texo.Store Texo.Claims Texo.Semantics Texo.Ops
  Texo.Ingest

section Maps

/-- The claim is no longer eligible. -/
def withdraw (claims : Std.ExtTreeMap String Bool) (claimId : String) :
    Std.ExtTreeMap String Bool :=
  noteEligible claims (claimId, false)

/-- An entry decides its claim and no other. -/
theorem getElem?_noteEligible (claims : Std.ExtTreeMap String Bool) (entry : String × Bool)
    (claimId : String) :
    (noteEligible claims entry)[claimId]? =
      if claimId = entry.1 then some entry.2 else claims[claimId]? := by
  unfold noteEligible
  rw [Std.ExtTreeMap.getElem?_insert]
  by_cases same : claimId = entry.1
  · rw [if_pos same, if_pos (by rw [same]; exact Std.ReflCmp.compare_self)]
  · rw [if_neg same, if_neg]
    intro equal
    exact same (Std.LawfulEqCmp.eq_of_compare equal).symm

/-- Entries of distinct claims are all kept. -/
theorem getElem?_foldl_noteEligible {entries : List (String × Bool)}
    (once : (entries.map Prod.fst).Nodup) (claims : Std.ExtTreeMap String Bool) (claimId : String)
    (flag : Bool) :
    (entries.foldl noteEligible claims)[claimId]? = some flag ↔
      (claimId, flag) ∈ entries ∨
        (claimId ∉ entries.map Prod.fst ∧ claims[claimId]? = some flag) := by
  induction entries generalizing claims with
  | nil => simp
  | cons entry rest ih =>
    obtain ⟨own, ownFlag⟩ := entry
    rw [List.map_cons, List.nodup_cons] at once
    rw [List.foldl_cons, ih once.2, getElem?_noteEligible]
    by_cases same : claimId = own
    · have absent : (claimId, flag) ∉ rest := by
        intro member
        rw [same] at member
        exact once.1 (List.mem_map.mpr ⟨_, member, rfl⟩)
      rw [same] at absent ⊢
      simp only [absent, false_or, once.1, not_false_eq_true, true_and, if_true, List.mem_cons,
        Prod.mk.injEq, or_false, List.map_cons, not_true_eq_false, false_and,
        Option.some.injEq]
      exact eq_comm
    · simp only [same, if_false, List.mem_cons, Prod.mk.injEq, false_and, false_or, List.map_cons]

/-- Withdrawn claims are no longer eligible, and no other claim changes. -/
theorem getElem?_foldl_withdraw (gone : List String) (claims : Std.ExtTreeMap String Bool)
    (claimId : String) :
    (gone.foldl withdraw claims)[claimId]? =
      if claimId ∈ gone then some false else claims[claimId]? := by
  induction gone generalizing claims with
  | nil => simp
  | cons own rest ih =>
    rw [List.foldl_cons, ih, withdraw, getElem?_noteEligible]
    by_cases later : claimId ∈ rest
    · rw [if_pos later, if_pos (List.mem_cons_of_mem own later)]
    · rw [if_neg later]
      by_cases same : claimId = own
      · rw [if_pos same, if_pos (by rw [same]; exact List.mem_cons_self)]
      · rw [if_neg same, if_neg (by simp [same, later])]

end Maps

section Eligibility

variable [Blake3] {journal journal' : Journal} {workspaceId : String}

/-- The basis of an orderly workspace holds its recorded claims, eligible where they stand. -/
theorem claims_fromView (orderly : Orderly journal workspaceId) (temporal : RelateTemporalPolicy)
    (claimId : String) :
    ((CampaignBasis.fromView (viewOf workspaceId journal) temporal).claims[claimId]? = none ↔
        streamOf (workspaceRows journal workspaceId) (entityForClaim claimId) = []) ∧
      ((CampaignBasis.fromView (viewOf workspaceId journal) temporal).claims[claimId]? = some true ↔
        Standing (workspaceRows journal workspaceId) claimId) := by
  have ids : ((viewOf workspaceId journal).claims.map fun claim =>
      (claim.card.claimId, eligible claim)).map Prod.fst =
      (viewOf workspaceId journal).claims.map fun claim => claim.card.claimId := by
    rw [List.map_map]
    rfl
  have once : (((viewOf workspaceId journal).claims.map fun claim =>
      (claim.card.claimId, eligible claim)).map Prod.fst).Nodup := by
    rw [ids]
    exact orderly.lawful.distinct orderly.conforming
  have listed : claimId ∈ (viewOf workspaceId journal).claims.map
      (fun claim => claim.card.claimId) ↔
      streamOf (workspaceRows journal workspaceId) (entityForClaim claimId) ≠ [] :=
    orderly.lawful.listed_iff orderly.conforming
  have held : ∀ flag, (CampaignBasis.fromView (viewOf workspaceId journal)
      temporal).claims[claimId]? = some flag ↔
      ∃ claim ∈ (viewOf workspaceId journal).claims,
        claim.card.claimId = claimId ∧ eligible claim = flag := by
    intro flag
    refine (getElem?_foldl_noteEligible once ∅ claimId flag).trans ?_
    simp
  have current : ∀ claim ∈ (viewOf workspaceId journal).claims, (eligible claim = true ↔
      Standing (workspaceRows journal workspaceId) claim.card.claimId) := by
    intro claim inside
    exact decide_eq_true_iff.trans (orderly.lawful.current_iff orderly.conforming inside)
  constructor
  · rw [Option.eq_none_iff_forall_ne_some]
    constructor
    · intro absent
      by_contra begun
      obtain ⟨claim, inside, named⟩ := List.mem_map.mp (listed.mpr begun)
      exact absent _ ((held _).mpr ⟨claim, inside, named, rfl⟩)
    · intro empty flag shown
      obtain ⟨claim, inside, named, _⟩ := (held flag).mp shown
      exact listed.mp (List.mem_map.mpr ⟨claim, inside, named⟩) empty
  · rw [held]
    constructor
    · rintro ⟨claim, inside, named, stands⟩
      rw [← named]
      exact (current claim inside).mp stands
    · intro stands
      obtain ⟨claim, inside, named⟩ := List.mem_map.mp (listed.mpr stands.begun)
      refine ⟨claim, inside, named, (current claim inside).mpr ?_⟩
      rw [named]
      exact stands

omit [Blake3] in
/-- Two flags agree where both are absent, or both set. -/
theorem flags_ext {one two : Option Bool} (absent : one = none ↔ two = none)
    (set : one = some true ↔ two = some true) : one = two := by
  cases one with
  | none => exact (absent.mp rfl).symm
  | some flag =>
    cases two with
    | none => exact absurd (absent.mpr rfl) (by simp)
    | some other =>
      cases flag with
      | true => exact (set.mp rfl).symm
      | false =>
        cases other with
        | true => exact set.mpr rfl
        | false => rfl

/-- The basis after a withdrawal of recorded claims is the basis before, with them withdrawn. -/
theorem claims_of_withdrawal (orderly : Orderly journal workspaceId)
    (later : Orderly journal' workspaceId) {gone : List String}
    (withdrawal : Withdrawal (workspaceRows journal workspaceId)
      (workspaceRows journal' workspaceId) gone)
    (begun : ∀ claimId ∈ gone,
      streamOf (workspaceRows journal workspaceId) (entityForClaim claimId) ≠ [])
    (temporal temporal' : RelateTemporalPolicy) :
    (CampaignBasis.fromView (viewOf workspaceId journal') temporal').claims =
      gone.foldl withdraw
        (CampaignBasis.fromView (viewOf workspaceId journal) temporal).claims := by
  apply Std.ExtTreeMap.ext_getElem?
  intro claimId
  obtain ⟨absent, stands⟩ := claims_fromView orderly temporal claimId
  obtain ⟨absent', stands'⟩ := claims_fromView later temporal' claimId
  rw [withdrawal.begun] at absent'
  rw [withdrawal.stands] at stands'
  rw [getElem?_foldl_withdraw]
  apply flags_ext
  · rw [absent']
    split
    · rename_i withdrawn
      exact iff_of_false (begun claimId withdrawn) (by simp)
    · exact absent.symm
  · rw [stands']
    split
    · rename_i withdrawn
      exact iff_of_false (fun both => both.2 withdrawn) (by simp)
    · rename_i remains
      rw [and_iff_left remains]
      exact stands.symm

end Eligibility

section Quiet

/-- A payload that says nothing of evidence, of source order or of a recording. -/
structure Quiet (payload : Payload) : Prop where
  evidence : evidenceKind payload.kind = false
  order : payload.kind ≠ .sourceSnapshotRelation
  recording : payload.kind ≠ .claimRecorded

/-- Rows that leave a state alone leave it alone together. -/
theorem foldl_idle {State : Type} {step : State → Entry → State} {rows : List Entry}
    (idle : ∀ state, ∀ row ∈ rows, step state row = state) (state : State) :
    rows.foldl step state = state := by
  induction rows with
  | nil => rfl
  | cons row rest ih =>
    rw [List.foldl_cons, idle state row List.mem_cons_self]
    exact ih fun other later member => idle other later (List.mem_cons_of_mem _ member)

variable {rows more : List Entry} (quiet : ∀ row ∈ more, Quiet row.payload)

include quiet

/-- Quiet rows add no evidence. -/
theorem evidenceOf_quiet : evidenceOf (rows ++ more) = evidenceOf rows := by
  unfold evidenceOf
  rw [List.foldl_append]
  apply congrArg joinEvidence
  apply foldl_idle
  intro scan row member
  have evidence := (quiet row member).evidence
  unfold noteEvidence
  cases stored : row.payload with
  | evidenceOccurrenceRecorded _ =>
    rw [stored] at evidence
    cases evidence
  | claimEvidenceLinked _ =>
    rw [stored] at evidence
    cases evidence
  | evidenceReconciliationAccepted _ =>
    rw [stored] at evidence
    cases evidence
  | _ => rfl

/-- Quiet rows add no order fact. -/
theorem orderFacts_quiet : orderFacts (rows ++ more) = orderFacts rows := by
  have order : Ops.orderOf (rows ++ more) = Ops.orderOf rows := by
    unfold Ops.orderOf
    rw [List.foldl_append]
    apply foldl_idle
    intro projection row member
    have other := (quiet row member).order
    unfold noteOrder
    cases stored : row.payload with
    | sourceSnapshotRelation _ => exact absurd (by rw [stored]; rfl) other
    | _ => rfl
  unfold orderFacts
  rw [order]

/-- Quiet rows record no claim. -/
theorem noteReceipt_quiet (receipts : Std.ExtTreeMap String Nat) :
    more.foldl noteReceipt receipts = receipts := by
  apply foldl_idle
  intro receipts row member
  unfold noteReceipt recordedClaim
  rw [if_neg fun both => (quiet row member).recording both.1]

end Quiet

section Again

/-- What stands in a list after a fold of supersessions is the id of a card. -/
theorem mem_foldl_noteSuperseded {cards : List ClaimCard}
    {supersedes : Std.ExtTreeMap String (List String)} {known : List String}
    (start : ∀ (newId : String) (olds : List String), supersedes[newId]? = some olds →
      ∀ old ∈ olds, old ∈ known)
    (inside : ∀ card ∈ cards, card.claimId ∈ known) {newId : String} {olds : List String}
    (held : (cards.foldl noteSuperseded supersedes)[newId]? = some olds) :
    ∀ old ∈ olds, old ∈ known := by
  induction cards generalizing supersedes with
  | nil => exact start newId olds held
  | cons card rest ih =>
    rw [List.foldl_cons] at held
    refine ih ?_ (fun other member => inside other (List.mem_cons_of_mem _ member)) held
    intro newId olds shown
    unfold noteSuperseded at shown
    split at shown
    · exact start newId olds shown
    · rename_i successor _
      rw [Std.ExtTreeMap.getElem?_insert] at shown
      split at shown
      · rw [← Option.some.inj shown]
        intro old member
        rcases List.mem_append.mp member with earlier | own
        · cases before : supersedes[successor]? with
          | none =>
            rw [before] at earlier
            cases earlier
          | some olds' =>
            rw [before] at earlier
            exact start successor olds' before old earlier
        · rw [List.mem_singleton.mp own]
          exact inside card List.mem_cons_self
      · exact start newId olds shown

/-- What a listed claim supersedes is told by the map of supersessions. -/
theorem mem_supersedes_claimViews {openConflicts : List String}
    {supersedes : Std.ExtTreeMap String (List String)} {cards : List ClaimCard}
    {known : List String}
    (start : ∀ (newId : String) (olds : List String), supersedes[newId]? = some olds →
      ∀ old ∈ olds, old ∈ known)
    {claim : Claims.ClaimView} (listed : claim ∈ claimViews openConflicts supersedes cards) :
    ∀ old ∈ claim.supersedes, old ∈ known := by
  induction cards generalizing supersedes with
  | nil => cases listed
  | cons card rest ih =>
    rcases List.mem_cons.mp listed with rfl | later
    · intro old member
      dsimp only at member
      cases held : supersedes[card.claimId]? with
      | none =>
        rw [held] at member
        cases member
      | some olds =>
        rw [held] at member
        exact start _ olds held old member
    · refine ih ?_ later
      intro newId olds shown
      rw [Std.ExtTreeMap.getElem?_erase] at shown
      split at shown
      · cases shown
      · exact start newId olds shown

/-- A listed claim supersedes listed claims. -/
theorem listed_of_supersedes {workspaceId : String} {rows : List Entry} {claim : Claims.ClaimView}
    (listed : claim ∈ (replayView workspaceId rows).claims) :
    ∀ old ∈ claim.supersedes,
      old ∈ (replayView workspaceId rows).claims.map fun claim => claim.card.claimId := by
  have ids : ((replayView workspaceId rows).claims.map fun claim => claim.card.claimId) =
      ((claimCards rows).insertionSort fun left right => left.claimId ≤ right.claimId).map
        ClaimCard.claimId := by
    rw [← map_card_replayView workspaceId, List.map_map]
    rfl
  rw [ids]
  refine mem_supersedes_claimViews ?_ listed
  intro newId olds shown old member
  unfold supersessions at shown
  rw [Std.ExtTreeMap.getElem?_map] at shown
  obtain ⟨unsorted, held, same⟩ := Option.map_eq_some_iff.mp shown
  rw [← same, List.mem_insertionSort] at member
  exact mem_foldl_noteSuperseded (fun _ _ none => by simp at none)
    (fun card inside => List.mem_map_of_mem inside) held old member

/-- A claim that could be read is read again with its card and other ids it supersedes. -/
theorem semanticClaim_again {receipts : Std.ExtTreeMap String Nat} {claim again : Claims.ClaimView}
    {related : Semantics.ClaimView} (made : semanticClaim receipts claim = .ok related)
    (card : again.card = claim.card)
    (branded : ∀ old ∈ again.supersedes, ∃ own, claimIdOf old = .ok own) :
    ∃ other, semanticClaim receipts again = .ok other := by
  have mapped := mapM_eq_filterMap branded
  unfold semanticClaim at made ⊢
  rw [card]
  obtain ⟨claimId, parsed, made⟩ := bind_eq_ok.mp made
  obtain ⟨source, read, made⟩ := bind_eq_ok.mp made
  rw [parsed, ok_bind, read, ok_bind]
  split at made
  · cases made
  · obtain ⟨olds, _, made⟩ := bind_eq_ok.mp made
    obtain ⟨successor, retired, _⟩ := bind_eq_ok.mp made
    rw [mapped, ok_bind, retired, ok_bind]
    exact ⟨_, rfl⟩

end Again

section Succession

variable [Blake3]

/-- One store follows another of the same workspace: the rows in between are quiet, and withdraw
some recorded claims. -/
structure Succession (journal journal' : Journal) (workspaceId : String) (gone : List String) :
    Prop where
  before : Orderly journal workspaceId
  after : Orderly journal' workspaceId
  quiet : ∃ more, workspaceRows journal' workspaceId = workspaceRows journal workspaceId ++ more ∧
    ∀ row ∈ more, Quiet row.payload
  withdrawal : Withdrawal (workspaceRows journal workspaceId) (workspaceRows journal' workspaceId)
    gone
  recorded : ∀ claimId ∈ gone,
    streamOf (workspaceRows journal workspaceId) (entityForClaim claimId) ≠ []

variable {journal journal' : Journal} {workspaceId : String} {gone : List String}

/-- Both views list the same claims. -/
theorem Succession.listed (next : Succession journal journal' workspaceId gone) (claimId : String) :
    WorkspaceListed (viewOf workspaceId journal') claimId ↔
      WorkspaceListed (viewOf workspaceId journal) claimId := by
  have now : WorkspaceListed (viewOf workspaceId journal) claimId ↔
      streamOf (workspaceRows journal workspaceId) (entityForClaim claimId) ≠ [] :=
    next.before.lawful.listed_iff next.before.conforming
  have later : WorkspaceListed (viewOf workspaceId journal') claimId ↔
      streamOf (workspaceRows journal' workspaceId) (entityForClaim claimId) ≠ [] :=
    next.after.lawful.listed_iff next.after.conforming
  rw [now, later, not_iff_not]
  exact next.withdrawal.begun claimId

/-- Source order is the same in both. -/
theorem Succession.temporal (next : Succession journal journal' workspaceId gone)
    {temporal : RelateTemporalPolicy}
    (assembled : workspaceTemporalPolicy (readable journal) workspaceId
      (viewOf workspaceId journal) = .ok temporal) :
    workspaceTemporalPolicy (readable journal') workspaceId (viewOf workspaceId journal') =
      .ok temporal := by
  obtain ⟨more, grown, quiet⟩ := next.quiet
  have branded := branded_of_policy assembled
  have total : ∃ later, workspaceTemporalPolicy (readable journal') workspaceId
      (viewOf workspaceId journal') = .ok later := by
    apply workspaceTemporalPolicy_total
    intro claimId listed
    obtain ⟨claim, inside, named⟩ := List.mem_map.mp ((next.listed claimId).mp listed)
    rw [← named]
    exact branded claim inside
  obtain ⟨later, assembled'⟩ := total
  obtain ⟨relations, bindings⟩ := workspaceTemporalPolicyThrough_maps assembled
  obtain ⟨relations', bindings'⟩ := workspaceTemporalPolicyThrough_maps assembled'
  rw [rowsThrough_frontier] at relations bindings relations' bindings'
  rw [grown, orderFacts_quiet quiet] at relations'
  have support : supportOf (workspaceRows journal' workspaceId) =
      supportOf (workspaceRows journal workspaceId) := by
    funext claimId
    unfold supportOf
    rw [grown, evidenceOf_quiet quiet]
  have snapshots : later.claimSnapshots = temporal.claimSnapshots := by
    apply Std.ExtTreeMap.ext_getElem?
    intro claimId
    rw [bindings, bindings', support]
    exact if_congr (next.listed claimId) rfl rfl
  rw [assembled']
  apply congrArg Except.ok
  cases later
  cases temporal
  dsimp only at snapshots relations relations'
  rw [snapshots, relations', relations]

/-- A claim that still stands shows the card it showed before. -/
theorem Succession.card (next : Succession journal journal' workspaceId gone)
    {claim : Claims.ClaimView} (listed : claim ∈ (viewOf workspaceId journal').claims)
    (current : eligible claim = true) :
    ∃ earlier ∈ (viewOf workspaceId journal).claims, eligible earlier = true ∧
      claim.card = earlier.card := by
  have stands : Standing (workspaceRows journal' workspaceId) claim.card.claimId :=
    (next.after.lawful.current_iff next.after.conforming listed).mp (of_decide_eq_true current)
  have stood := ((next.withdrawal.stands claim.card.claimId).mp stands).1
  have held : (cardsOf (workspaceRows journal' workspaceId))[entityForClaim claim.card.claimId]? =
      some (.claim claim.card) :=
    (next.after.lawful.claim next.after.conforming (List.mem_map_of_mem listed)).2.2.2.2
  rw [cardsOf_streamCard, next.withdrawal.kept _ stands, ← cardsOf_streamCard] at held
  have inside : claim.card ∈ (viewOf workspaceId journal).claims.map Claims.ClaimView.card :=
    mem_replayView_cards.mpr ⟨_, held⟩
  obtain ⟨earlier, among, same⟩ := List.mem_map.mp inside
  rw [← same] at stood
  exact ⟨earlier, among,
    decide_eq_true ((next.before.lawful.current_iff next.before.conforming among).mpr stood),
    same.symm⟩

/-- The claims of the later view can be read where those of the earlier one could. -/
theorem Succession.semanticClaims (next : Succession journal journal' workspaceId gone)
    {claims : List Semantics.ClaimView}
    (read : semanticClaimsFromView (readable journal) workspaceId (viewOf workspaceId journal) =
      .ok claims)
    {temporal : RelateTemporalPolicy}
    (assembled : workspaceTemporalPolicy (readable journal) workspaceId
      (viewOf workspaceId journal) = .ok temporal) :
    ∃ later, semanticClaimsFromView (readable journal') workspaceId
      (viewOf workspaceId journal') = .ok later := by
  obtain ⟨more, grown, quiet⟩ := next.quiet
  have receipts : claimRecordReceipts (readable journal') workspaceId =
      claimRecordReceipts (readable journal) workspaceId := by
    have rows : journal'.region (scopeForWorkspace workspaceId) =
        journal.region (scopeForWorkspace workspaceId) ++ more := grown
    show (journal'.region (scopeForWorkspace workspaceId)).foldl noteReceipt ∅ =
      (journal.region (scopeForWorkspace workspaceId)).foldl noteReceipt ∅
    rw [rows, List.foldl_append]
    exact noteReceipt_quiet quiet _
  unfold semanticClaimsFromView at read
  obtain ⟨listed, mapped, _⟩ := bind_eq_ok.mp read
  have each : ∀ claim ∈ (viewOf workspaceId journal').claims.filter eligible,
      ∃ related, semanticClaim (claimRecordReceipts (readable journal') workspaceId) claim =
        .ok related := by
    intro claim member
    obtain ⟨inside, current⟩ := List.mem_filter.mp member
    obtain ⟨earlier, among, stood, card⟩ := next.card inside current
    obtain ⟨related, made⟩ := each_of_mapM mapped (List.mem_filter.mpr ⟨among, stood⟩)
    rw [receipts]
    refine semanticClaim_again made card ?_
    intro old supersedes
    have known : WorkspaceListed (viewOf workspaceId journal') old :=
      listed_of_supersedes inside old supersedes
    obtain ⟨other, there, named⟩ := List.mem_map.mp ((next.listed old).mp known)
    rw [← named]
    exact branded_of_policy assembled other there
  refine ⟨((viewOf workspaceId journal').claims.filter eligible |>.filterMap fun claim =>
    (semanticClaim (claimRecordReceipts (readable journal') workspaceId)
      claim).toOption).insertionSort relateLe, ?_⟩
  unfold semanticClaimsFromView
  dsimp only
  rw [mapM_eq_filterMap each]
  rfl

/-- Successions follow each other. -/
theorem Succession.trans {middle : Journal} {later : List String}
    (one : Succession journal middle workspaceId gone)
    (two : Succession middle journal' workspaceId later) :
    Succession journal journal' workspaceId (gone ++ later) where
  before := one.before
  after := two.after
  quiet := by
    obtain ⟨more, grown, quiet⟩ := one.quiet
    obtain ⟨rest, grown', quiet'⟩ := two.quiet
    refine ⟨more ++ rest, by rw [grown', grown, List.append_assoc], ?_⟩
    intro row member
    rcases List.mem_append.mp member with early | late
    · exact quiet row early
    · exact quiet' row late
  withdrawal := one.withdrawal.trans two.withdrawal
  recorded := by
    intro claimId member
    rcases List.mem_append.mp member with early | late
    · exact one.recorded claimId early
    · exact fun empty =>
        two.recorded claimId late ((one.withdrawal.begun claimId).mpr empty)

end Succession

section Appends

/-- What a payload closes it is about. -/
theorem about_of_closing {payload : Payload} {entity : String}
    (closes : closing payload = some entity) : lifecycleEntity payload = some entity := by
  cases payload with
  | claimSuperseded event => exact closes
  | conflictResolved event => exact closes
  | _ => cases closes

/-- The entities closed are among those the payloads are about. -/
theorem closing_sublist (payloads : List Payload) :
    (payloads.filterMap closing).Sublist (payloads.filterMap lifecycleEntity) := by
  induction payloads with
  | nil => exact List.Sublist.refl _
  | cons payload rest ih =>
    rw [List.filterMap_cons, List.filterMap_cons]
    cases closes : closing payload with
    | none =>
      cases lifecycleEntity payload with
      | none => exact ih
      | some entity => exact ih.cons entity
    | some entity =>
      rw [about_of_closing closes]
      exact ih.cons_cons entity

/-- What a payload withdraws is told by the stream of its own entity. -/
theorem withdraws_of_stream {rows rows' : List Entry} {payload : Payload}
    (same : ∀ entity, lifecycleEntity payload = some entity →
      streamOf rows' entity = streamOf rows entity)
    (withdraws : Withdraws rows payload) : Withdraws rows' payload := by
  cases payload with
  | claimRecorded event => exact withdraws
  | conflictResolved event => exact withdraws
  | claimSuperseded event =>
    show phaseOf (streamOf rows' (entityForClaim event.oldClaimId)) = some 1
    rw [same _ rfl]
    exact withdraws
  | conflictOpened event => exact (same _ rfl).trans withdraws
  | _ => trivial

variable [Blake3]

/-- The run law of withdrawals: payloads about different entities withdraw their claims one after
another. -/
theorem withdrawal_of_appendAll {env next : OpEnv} {payloads : List Payload} {workspaceId : String}
    (orderly : Orderly env.journal workspaceId) (appended : env.appendAll payloads = .ok next)
    (legal : ∀ payload ∈ payloads, Legal env.journal workspaceId payload)
    (withdraws : ∀ payload ∈ payloads, Withdraws (workspaceRows env.journal workspaceId) payload)
    (apart : (payloads.filterMap lifecycleEntity).Nodup) :
    Withdrawal (workspaceRows env.journal workspaceId) (workspaceRows next.journal workspaceId)
      (payloads.flatMap withdrawn) := by
  induction payloads generalizing env with
  | nil =>
    have same : env = next := Except.ok.inj appended
    rw [← same]
    exact Withdrawal.refl _
  | cons payload rest ih =>
    rw [OpEnv.appendAll, List.foldlM_cons] at appended
    obtain ⟨middle, first, later⟩ := bind_eq_ok.mp appended
    have now := legal payload List.mem_cons_self
    have grows : ∀ entity, HasLifecycle entity →
        streamOf (workspaceRows middle.journal workspaceId) entity =
          extendStream entity (streamOf (workspaceRows env.journal workspaceId) entity) payload :=
      fun entity family => streamOf_append first orderly.conforming now.here family
    have step := withdrawal_of_append grows (withdraws payload List.mem_cons_self)
    have others : ∀ other ∈ rest, ∀ entity, lifecycleEntity payload = some entity →
        lifecycleEntity other ≠ some entity := by
      intro other member entity about otherAbout
      rw [List.filterMap_cons, about] at apart
      exact (List.nodup_cons.mp apart).1 (List.mem_filterMap.mpr ⟨other, member, otherAbout⟩)
    have restApart : (rest.filterMap lifecycleEntity).Nodup := by
      rw [List.filterMap_cons] at apart
      split at apart
      · exact apart
      · exact (List.nodup_cons.mp apart).2
    rw [List.flatMap_cons]
    refine step.trans (ih (orderly.append first now) later ?_ ?_ restApart)
    · intro other member
      refine Legal.append first orderly.conforming orderly.lawful now
        (legal other (List.mem_cons_of_mem _ member)) ?_
      intro entity closes otherCloses
      exact others other member entity (about_of_closing closes) (about_of_closing otherCloses)
    · intro other member
      refine withdraws_of_stream ?_ (withdraws other (List.mem_cons_of_mem _ member))
      intro entity otherAbout
      apply stream_other grows (hasLifecycle_of_about otherAbout)
      intro about
      exact others other member entity about otherAbout

/-- Quiet payloads about different entities lead to a successor of the store. -/
theorem succession_of_appendAll {env next : OpEnv} {payloads : List Payload} {workspaceId : String}
    (orderly : Orderly env.journal workspaceId) (appended : env.appendAll payloads = .ok next)
    (legal : ∀ payload ∈ payloads, Legal env.journal workspaceId payload)
    (withdraws : ∀ payload ∈ payloads, Withdraws (workspaceRows env.journal workspaceId) payload)
    (apart : (payloads.filterMap lifecycleEntity).Nodup)
    (quiet : ∀ payload ∈ payloads, Quiet payload)
    (recorded : ∀ claimId ∈ payloads.flatMap withdrawn,
      streamOf (workspaceRows env.journal workspaceId) (entityForClaim claimId) ≠ []) :
    Succession env.journal next.journal workspaceId (payloads.flatMap withdrawn) where
  before := orderly
  after := orderly.appendAll appended legal (apart.sublist (closing_sublist payloads))
  quiet := by
    obtain ⟨rows, grown, carried⟩ := OpEnv.appendAll_rows appended
    refine ⟨rows.filter fun row => row.scope = scopeForWorkspace workspaceId, ?_, ?_⟩
    · unfold workspaceRows Journal.region
      rw [grown, List.filter_append]
    · intro row member
      exact quiet row.payload (carried row (List.mem_filter.mp member).1)
  withdrawal := withdrawal_of_appendAll orderly appended legal withdraws apart
  recorded := recorded

end Appends

section Checkpoint

/-- The checkpoint a campaign stream ends with. -/
def lastCheckpoint (journal : Journal) (workspaceId : String) :
    Option RelationCampaignCheckpointV1 :=
  ((journal.byEntity (entityForRelationCampaign workspaceId)).foldl
    (fun card row => card.applyEvent row.payload) ({} : CampaignCard)).latest

/-- The checkpoint scan of readable rows does not fail. -/
theorem foldlM_scanCheckpoint (journal : Journal) (rows : List Entry) (card : CampaignCard) :
    rows.foldlM (scanCheckpoint (readable journal)) card =
      .ok (rows.foldl (fun card row => card.applyEvent row.payload) card) := by
  induction rows generalizing card with
  | nil => rfl
  | cons row rest ih =>
    have step : scanCheckpoint (readable journal) card row =
        .ok (card.applyEvent row.payload) := by
      unfold scanCheckpoint
      by_cases kind : row.payload.kind = .campaignCheckpoint
      · rw [if_pos kind]
        rfl
      · rw [if_neg kind]
        cases stored : row.payload with
        | campaignCheckpoint _ => exact absurd (by rw [stored]; rfl) kind
        | _ => rfl
    rw [List.foldlM_cons, step]
    exact ih _

/-- An orderly workspace's latest checkpoint is the last of its stream. -/
theorem latestCheckpoint_readable [Blake3] {journal : Journal} {workspaceId : String}
    (orderly : Orderly journal workspaceId) :
    latestCheckpoint (readable journal) (viewOf workspaceId journal) =
      .ok (lastCheckpoint journal workspaceId) := by
  have whole : ((journal.byEntity (entityForRelationCampaign workspaceId)).takeWhile
      fun row => row.sequence ≤ (viewOf workspaceId journal).frontier) =
      journal.byEntity (entityForRelationCampaign workspaceId) := by
    rw [List.takeWhile_eq_self_iff]
    intro row member
    have inside : row ∈ workspaceRows journal workspaceId := by
      unfold workspaceRows
      rw [orderly.region]
      exact (List.mem_filter.mp member).1
    have all := takeWhile_frontierOf (journal.region_ordered (scopeForWorkspace workspaceId))
    exact List.takeWhile_eq_self_iff.mp all row inside
  show ((((readable journal).journal.byEntity (entityForRelationCampaign workspaceId)).takeWhile
    fun row => row.sequence ≤ (viewOf workspaceId journal).frontier).foldlM
      (scanCheckpoint (readable journal)) {}).map CampaignCard.latest = _
  have same : (readable journal).journal = journal := rfl
  rw [same, whole, foldlM_scanCheckpoint]
  rfl

/-- A checkpoint that ends the stream is the last. -/
theorem lastCheckpoint_append {journal grown : Journal} {row : Entry} {workspaceId : String}
    {payload : RelationCampaignCheckpointV1} (entries : grown.entries = journal.entries ++ [row])
    (placed : row.entity = entityForRelationCampaign workspaceId)
    (carries : row.payload = .campaignCheckpoint payload) :
    lastCheckpoint grown workspaceId = some payload := by
  have rows : grown.byEntity (entityForRelationCampaign workspaceId) =
      journal.byEntity (entityForRelationCampaign workspaceId) ++ [row] := by
    unfold Journal.byEntity
    rw [entries, List.filter_append]
    simp [placed]
  unfold lastCheckpoint
  rw [rows, List.foldl_append, List.foldl_cons, List.foldl_nil, carries]
  rfl

end Checkpoint

section Prepare

variable [Blake3] {Score : Type}

omit [Blake3] in
/-- A workspace id passes its own check. -/
theorem workspaceIdOf_value (workspaceId : WorkspaceId) :
    workspaceIdOf workspaceId.value = .ok workspaceId := by
  unfold workspaceIdOf WorkspaceId.new
  rw [dif_pos workspaceId.valid]

/-- After a succession a pass can be prepared again wherever its start is resolved. -/
theorem Succession.prepare {world : RelateWorld Score} {env : OpEnv} {options : RelatePassOptions}
    {prepared : PreparedRelatePass} (prepares : Prepares world env options prepared)
    {journal : Journal} {gone : List String}
    (next : Succession env.journal journal env.workspaceId gone) (again : RelateWorld Score)
    (later : RelatePassOptions) {start : CampaignStart}
    (started : resolveStart (lastCheckpoint journal env.workspaceId)
      (CampaignBasis.fromView (viewOf env.workspaceId journal) prepared.temporal).digest
      again.policy.digest later.candidateCursor = .ok start) :
    ∃ ready, prepareRelatePass again { workspaceId := env.workspaceId, journal := journal } later =
        .ok ready ∧ ready.execution = campaignExecution start later.rejudgePair.isSome := by
  obtain ⟨claims, read⟩ := next.semanticClaims prepares.claims prepares.temporal
  have named : workspaceIdOf (viewOf env.workspaceId journal).workspaceId =
      .ok prepared.workspaceId := by
    have own : (viewOf env.workspaceId journal).workspaceId = prepared.workspaceId.value :=
      prepares.named.symm
    rw [own]
    exact workspaceIdOf_value prepared.workspaceId
  unfold prepareRelatePass
  dsimp only
  rw [assembleCurrentView_readable, ok_bind, read, ok_bind, next.temporal prepares.temporal,
    ok_bind, named, ok_bind, latestCheckpoint_readable next.after, ok_bind, started, ok_bind]
  exact ⟨_, rfl, rfl⟩

/-- Where a pass after a succession starts is resolved from the last checkpoint. -/
theorem Succession.started {world : RelateWorld Score} {env : OpEnv} {options : RelatePassOptions}
    {prepared : PreparedRelatePass} (prepares : Prepares world env options prepared)
    {journal : Journal} {gone : List String}
    (next : Succession env.journal journal env.workspaceId gone) {again : RelateWorld Score}
    {later : RelatePassOptions} {ready : PreparedRelatePass}
    (done : prepareRelatePass again { workspaceId := env.workspaceId, journal := journal } later =
      .ok ready) :
    ∃ start, resolveStart (lastCheckpoint journal env.workspaceId)
        (CampaignBasis.fromView (viewOf env.workspaceId journal) prepared.temporal).digest
        again.policy.digest later.candidateCursor = .ok start ∧
      ready.execution = campaignExecution start later.rejudgePair.isSome := by
  have readied := prepareRelatePass_prepares done
  have temporal : prepared.temporal = ready.temporal := by
    have ordered := readied.temporal
    dsimp only at ordered
    rw [next.temporal prepares.temporal] at ordered
    exact Except.ok.inj ordered
  obtain ⟨latest, start, found, started, executes⟩ := readied.started
  dsimp only at found
  rw [latestCheckpoint_readable next.after] at found
  rw [← Except.ok.inj found, readied.basis, ← temporal] at started
  exact ⟨start, started, executes⟩

end Prepare

end Texo.Relate
