import Mathlib.Data.List.Induction
import Texo.Ops.IndexOrder
import Texo.Ops.Reconcile

/-! # Provenance of reconciled evidence

A link repeats for its pair whatever it says; an acceptance repeats only under its own
judge. The evidence projection shows each link with the first acceptance of its pair. That
one decided the link as long as no run links a pair for which an earlier run left an
acceptance of another stance or another judge.
-/
namespace Texo.Ops
open Texo.Events Texo.Knowledge Texo.Store Texo.Claims Texo.Semantics Texo.Foundation Texo.Ingest

/-- Some row links the pair. -/
def Linked (rows : List Entry) (claimId : ClaimId) (occurrenceId : EvidenceOccurrenceId) : Prop :=
  ∃ row ∈ rows, ∃ link, row.payload = .claimEvidenceLinked link ∧ link.claimId = claimId ∧
    link.occurrenceId = occurrenceId

/-- The row accepts the pair. -/
def accepts (claimId : ClaimId) (occurrenceId : EvidenceOccurrenceId) (row : Entry) : Bool :=
  match row.payload with
  | .evidenceReconciliationAccepted accepted =>
    accepted.claimId = claimId ∧ accepted.occurrenceId = occurrenceId
  | _ => false

/-- The first row that accepts the pair. -/
def firstAcceptance (rows : List Entry) (claimId : ClaimId) (occurrenceId : EvidenceOccurrenceId) :
    Option Entry :=
  rows.find? (accepts claimId occurrenceId)

/-- A row accepts a pair through its payload. -/
theorem accepts_iff {claimId : ClaimId} {occurrenceId : EvidenceOccurrenceId} {row : Entry} :
    accepts claimId occurrenceId row = true ↔
      ∃ accepted, row.payload = .evidenceReconciliationAccepted accepted ∧
        accepted.claimId = claimId ∧ accepted.occurrenceId = occurrenceId := by
  unfold accepts
  cases row.payload with
  | evidenceReconciliationAccepted accepted => simp
  | _ => simp

/-- The first acceptance is a row that accepts the pair. -/
theorem firstAcceptance_some {rows : List Entry} {claimId : ClaimId}
    {occurrenceId : EvidenceOccurrenceId} {row : Entry}
    (first : firstAcceptance rows claimId occurrenceId = some row) :
    row ∈ rows ∧ ∃ accepted, row.payload = .evidenceReconciliationAccepted accepted ∧
      accepted.claimId = claimId ∧ accepted.occurrenceId = occurrenceId :=
  ⟨List.mem_of_find?_eq_some first, accepts_iff.mp (List.find?_some first)⟩

/-- A first acceptance stays the first. -/
theorem firstAcceptance_append {rows : List Entry} {claimId : ClaimId}
    {occurrenceId : EvidenceOccurrenceId} {row : Entry}
    (first : firstAcceptance rows claimId occurrenceId = some row) (more : List Entry) :
    firstAcceptance (rows ++ more) claimId occurrenceId = some row := by
  unfold firstAcceptance at first ⊢
  rw [List.find?_append, first]
  rfl

/-- A first acceptance up to a frontier is the first of all rows up to it. -/
theorem firstAcceptance_takeWhile {rows : List Entry} (ordered : Ordered Entry.sequence rows)
    {claimId : ClaimId} {occurrenceId : EvidenceOccurrenceId} {row : Entry} {frontier : Nat}
    (first : firstAcceptance rows claimId occurrenceId = some row)
    (reached : row.sequence ≤ frontier) :
    firstAcceptance (rows.takeWhile fun row => row.sequence ≤ frontier) claimId occurrenceId =
      some row := by
  unfold firstAcceptance at first ⊢
  induction rows with
  | nil => cases first
  | cons head rest ih =>
    have member := List.mem_of_find?_eq_some first
    have low : head.sequence ≤ frontier := by
      rcases List.mem_cons.mp member with rfl | later
      · exact reached
      · have below := (List.pairwise_cons.mp ordered).1 row later
        omega
    rw [List.takeWhile_cons_of_pos (by simpa using low)]
    rw [List.find?_cons] at first ⊢
    split at first
    · exact first
    · exact ih (List.pairwise_cons.mp ordered).2 first

section
variable [Blake3]

/-- A row under the identity of a link is a link of the same pair, in the workspace. -/
theorem link_row {journal : Journal} (conforming : journal.Conforming) {row : Entry}
    (member : row ∈ journal.entries) {link : ClaimEvidenceLinkedV1}
    (admissible : Admissible (.claimEvidenceLinked link) row.eventId) :
    row ∈ workspaceRows journal link.workspaceId.value ∧ ∃ held,
      row.payload = .claimEvidenceLinked held ∧ held.claimId = link.claimId ∧
        held.occurrenceId = link.occurrenceId := by
  have own := (conforming row member).admissible
  have kind : row.payload.kind = .claimEvidenceLinked :=
    kind_of_admissible admissible (by simp [domainOperation, Payload.kind]) own
  cases stored : row.payload with
  | claimEvidenceLinked held =>
    rw [stored] at own
    have same : row.eventId = _ := admissible
    rw [show row.eventId = _ from own] at same
    injection same with _ parts
    injection parts with workspace parts
    injection parts with claim parts
    injection parts with occurrence _
    have placed := (conforming row member).placed _ (by rw [stored]; rfl)
    have scope : row.scope = scopeForWorkspace link.workspaceId.value := by
      rw [← workspace]
      exact (congrArg Coordinate.scope placed).symm
    exact ⟨Journal.mem_region.mpr ⟨member, scope⟩, held, rfl, Branded.ext claim,
      Branded.ext occurrence⟩
  | _ =>
    rw [stored] at kind
    cases kind

/-- A row under the identity of an acceptance is an acceptance of the same pair, in the
workspace. -/
theorem acceptance_row {journal : Journal} (conforming : journal.Conforming) {row : Entry}
    (member : row ∈ journal.entries) {accepted : EvidenceReconciliationAcceptedV1}
    (admissible : Admissible (.evidenceReconciliationAccepted accepted) row.eventId) :
    row ∈ workspaceRows journal accepted.workspaceId.value ∧
      accepts accepted.claimId accepted.occurrenceId row = true := by
  have own := (conforming row member).admissible
  have kind : row.payload.kind = .evidenceReconciliationAccepted :=
    kind_of_admissible admissible (by simp [domainOperation, Payload.kind]) own
  cases stored : row.payload with
  | evidenceReconciliationAccepted held =>
    rw [stored] at own
    have same : row.eventId = _ := admissible
    rw [show row.eventId = _ from own] at same
    injection same with _ parts
    injection parts with workspace parts
    injection parts with claim parts
    injection parts with occurrence _
    have placed := (conforming row member).placed _ (by rw [stored]; rfl)
    have scope : row.scope = scopeForWorkspace accepted.workspaceId.value := by
      rw [← workspace]
      exact (congrArg Coordinate.scope placed).symm
    exact ⟨Journal.mem_region.mpr ⟨member, scope⟩,
      accepts_iff.mpr ⟨held, stored, Branded.ext claim, Branded.ext occurrence⟩⟩
  | _ =>
    rw [stored] at kind
    cases kind

/-- The workspace of a placed row is that of its payload. -/
theorem workspace_of_row {journal : Journal} (conforming : journal.Conforming) {row : Entry}
    {workspaceId : String} (member : row ∈ workspaceRows journal workspaceId) {claim : String}
    {own : String} (placed : coordinateOf row.payload = some (coordinateForClaim own claim)) :
    own = workspaceId := by
  have inside := Journal.mem_region.mp member
  have there := (conforming row inside.1).placed _ placed
  have scopes : scopeForWorkspace own = scopeForWorkspace workspaceId :=
    (congrArg Coordinate.scope there).trans inside.2
  exact scopeForWorkspace_injective scopes

/-- The chain of an accepted proposal is never refused. -/
theorem chain_total (terms : ReconcileTerms) (stance : EvidenceStance) (scorePpm : Nat)
    {proposed : CachedCandidateProposal}
    (valid : proposed.candidate.occurrence.validate = true) {env : OpEnv}
    (conforming : env.journal.Conforming) :
    ∃ next, env.appendAll (terms.chain proposed stance scorePpm) = .ok next := by
  let recorded : EvidenceOccurrenceRecordedV1 :=
    ⟨terms.workspaceId, proposed.candidate.occurrence, terms.observedAtMs⟩
  obtain ⟨first, step⟩ : ∃ first, env.append (.evidenceOccurrenceRecorded recorded) = .ok first := by
    unfold OpEnv.append
    rw [policyAppend, appendEvidenceOccurrenceRecorded, if_pos valid]
    exact ⟨_, rfl⟩
  have firstConforming := (OpEnv.append_conforming step conforming).2
  have noted : ∀ journal, first.journal.Extends journal →
      Committed journal (.evidenceOccurrenceRecorded recorded) := by
    intro journal grown
    obtain ⟨receipt, _, admissible, outcome⟩ := append_receipt step conforming
    rcases outcome with ⟨unchanged, row, member, used⟩ | ⟨row, rows, used, _⟩
    · exact ⟨row, grown.mem (by rw [unchanged]; exact member), used.symm ▸ admissible⟩
    · exact ⟨row, grown.mem (by rw [rows]; simp), used.symm ▸ admissible⟩
  obtain ⟨second, accepted⟩ : ∃ second, first.append
      (.evidenceReconciliationAccepted (terms.acceptance proposed stance scorePpm)) = .ok second := by
    have required : requireOccurrence first.journal
        (terms.acceptance proposed stance scorePpm).occurrenceId = .ok () :=
      requireOccurrence_committed firstConforming recorded (noted _ (Journal.Extends.refl _))
    unfold OpEnv.append
    rw [policyAppend, appendEvidenceReconciliationAccepted, required]
    exact ⟨_, rfl⟩
  obtain ⟨grown, secondConforming⟩ := OpEnv.append_conforming accepted firstConforming
  obtain ⟨third, linked⟩ : ∃ third, second.append
      (.claimEvidenceLinked (terms.link proposed.candidate stance)) = .ok third := by
    have required : requireOccurrence second.journal
        (terms.link proposed.candidate stance).occurrenceId = .ok () :=
      requireOccurrence_committed secondConforming recorded (noted _ grown)
    unfold OpEnv.append
    rw [policyAppend, appendClaimEvidenceLinked, required]
    exact ⟨_, rfl⟩
  refine ⟨third, ?_⟩
  unfold ReconcileTerms.chain OpEnv.appendAll
  rw [List.foldlM_cons]
  apply bind_eq_ok.mpr
  refine ⟨first, step, ?_⟩
  rw [List.foldlM_cons]
  apply bind_eq_ok.mpr
  refine ⟨second, accepted, ?_⟩
  rw [List.foldlM_cons]
  apply bind_eq_ok.mpr
  exact ⟨third, linked, rfl⟩

/-- Appends one list after another. -/
theorem appendAll_append {env middle : OpEnv} {front : List Payload}
    (first : env.appendAll front = .ok middle) (back : List Payload) :
    env.appendAll (front ++ back) = middle.appendAll back := by
  unfold OpEnv.appendAll at first ⊢
  rw [List.foldlM_append, first]
  rfl

/-- A run appends its events as far as its fuse reaches. -/
theorem appendProposals_run (terms : ReconcileTerms) (proposals : List CachedCandidateProposal)
    (fuse : Nat) {env : OpEnv} (conforming : env.journal.Conforming) :
    env.appendAll ((terms.events proposals).take fuse) =
      .ok (stateAfter (appendProposals terms fuse env proposals)) := by
  induction proposals generalizing fuse env with
  | nil =>
    have none : (terms.events []).take fuse = [] := List.take_nil
    rw [none]
    rfl
  | cons proposed rest ih =>
    unfold ReconcileTerms.events appendProposals
    cases judged : acceptProposal proposed.verdict terms.minScorePpm with
    | none =>
      have later := ih fuse conforming
      revert later
      cases appendProposals terms fuse env rest with
      | error failure => exact id
      | ok result => exact id
    | some accepted =>
      obtain ⟨stance, scorePpm⟩ := accepted
      by_cases valid : proposed.candidate.occurrence.validate = true
      · simp only [if_pos valid]
        obtain ⟨next, all⟩ := chain_total terms stance scorePpm valid conforming
        obtain ⟨taken, short⟩ := appendWithin_take fuse all
        by_cases room : (terms.chain proposed stance scorePpm).length ≤ fuse
        · rw [appendWithin_room room all]
          have later := ih (fuse - (terms.chain proposed stance scorePpm).length)
            (OpEnv.appendAll_spec all conforming).2.2.1
          rw [List.take_append, List.take_of_length_le room, appendAll_append all, later]
          dsimp only
          cases appendProposals terms (fuse - (terms.chain proposed stance scorePpm).length) next
              rest with
          | error failure => rfl
          | ok result => rfl
        · have less : fuse < (terms.chain proposed stance scorePpm).length := by omega
          obtain ⟨failure, stopped⟩ := short less
          rw [List.take_append_of_le_length (by omega), taken, stopped]
          rfl
      · simp only [if_neg valid]
        rw [List.take_nil]
        rfl

/-- The link of a row has its stance from the first acceptance of its pair, which is among the
receipts of the run. -/
def Justified (workspaceId : String) (env : OpEnv) (row : Entry) (link : ClaimEvidenceLinkedV1) :
    Prop :=
  ∃ accepted held,
    firstAcceptance (workspaceRows env.journal workspaceId) link.claimId link.occurrenceId =
        some accepted ∧
      accepted.payload = .evidenceReconciliationAccepted held ∧ held.stance = link.stance ∧
        accepted.sequence < row.sequence ∧ accepted.eventId ∈ env.receipts

/-- What holds of a run that has appended some payloads, one acceptance among them perhaps
still without its link. -/
structure Reached (terms : ReconcileTerms) (before : Journal) (done : List Payload)
    (waiting : Option EvidenceReconciliationAcceptedV1) (env : OpEnv) : Prop where
  conforming : env.journal.Conforming
  grown : ∃ more, workspaceRows env.journal terms.workspaceId.value =
    workspaceRows before terms.workspaceId.value ++ more
  versions : ∀ row ∈ workspaceRows env.journal terms.workspaceId.value, ∀ held,
    row.payload = .evidenceReconciliationAccepted held → held.policyVersion = policyVersion
  justified : ∀ row ∈ workspaceRows env.journal terms.workspaceId.value, ∀ link,
    row.payload = .claimEvidenceLinked link → link.method = .semanticPolicy →
      row ∈ workspaceRows before terms.workspaceId.value ∨
        Justified terms.workspaceId.value env row link
  noted : ∀ link, .claimEvidenceLinked link ∈ done →
    Linked (workspaceRows env.journal terms.workspaceId.value) link.claimId link.occurrenceId
  first : ∀ claimId occurrenceId row,
    ¬ Linked (workspaceRows env.journal terms.workspaceId.value) claimId occurrenceId →
      firstAcceptance (workspaceRows env.journal terms.workspaceId.value) claimId occurrenceId =
        some row →
      firstAcceptance (workspaceRows before terms.workspaceId.value) claimId occurrenceId =
          some row ∨
        ∃ held, waiting = some held ∧ row.payload = .evidenceReconciliationAccepted held
  awaited : ∀ held, waiting = some held → ∃ receipt ∈ env.receipts,
    Admissible (.evidenceReconciliationAccepted held) receipt ∧
      ∃ row ∈ env.journal.entries, row.eventId = receipt

/-- One append by what it does to the rows of a workspace. -/
theorem append_rows {env next : OpEnv} {payload : Payload}
    (appended : env.append payload = .ok next) (conforming : env.journal.Conforming)
    (workspaceId : String) :
    (∃ receipt, next.receipts = env.receipts ++ [receipt] ∧ Admissible payload receipt ∧
        ∃ row ∈ next.journal.entries, row.eventId = receipt) ∧
      (workspaceRows next.journal workspaceId = workspaceRows env.journal workspaceId ∨
        ∃ row, workspaceRows next.journal workspaceId =
            workspaceRows env.journal workspaceId ++ [row] ∧ row.payload = payload ∧
          (∀ other ∈ env.journal.entries, other.eventId ≠ row.eventId) ∧
            (∀ other ∈ workspaceRows env.journal workspaceId, other.sequence < row.sequence)) := by
  constructor
  · obtain ⟨receipt, noted, admissible, outcome⟩ := append_receipt appended conforming
    refine ⟨receipt, noted, admissible, ?_⟩
    rcases outcome with ⟨unchanged, row, member, used⟩ | ⟨row, rows, used, _⟩
    · exact ⟨row, by rw [unchanged]; exact member, used⟩
    · exact ⟨row, by rw [rows]; simp, used⟩
  · rcases OpEnv.append_region appended (scopeForWorkspace workspaceId) with
      same | ⟨row, rows, carries, _, fresh⟩
    · exact Or.inl same
    · refine Or.inr ⟨row, rows, carries, fresh, ?_⟩
      have ordered := next.journal.region_ordered (scopeForWorkspace workspaceId)
      rw [rows] at ordered
      intro other member
      exact (Ordered.of_append ordered).2.2 other member row List.mem_cons_self

omit [Blake3] in
/-- A justification outlasts further rows and receipts. -/
theorem Justified.later {workspaceId : String} {env next : OpEnv} {row : Entry}
    {link : ClaimEvidenceLinkedV1} (justified : Justified workspaceId env row link)
    {more : List Entry} (rows : workspaceRows next.journal workspaceId =
      workspaceRows env.journal workspaceId ++ more) {receipts : List EventId}
    (noted : next.receipts = env.receipts ++ receipts) : Justified workspaceId next row link := by
  obtain ⟨accepted, held, first, payload, stance, earlier, receipt⟩ := justified
  refine ⟨accepted, held, ?_, payload, stance, earlier, ?_⟩
  · rw [rows]
    exact firstAcceptance_append first more
  · rw [noted]
    exact List.mem_append_left _ receipt

omit [Blake3] in
/-- A link outlasts further rows. -/
theorem Linked.append {rows : List Entry} {claimId : ClaimId} {occurrenceId : EvidenceOccurrenceId}
    (linked : Linked rows claimId occurrenceId) (more : List Entry) :
    Linked (rows ++ more) claimId occurrenceId := by
  obtain ⟨row, member, held⟩ := linked
  exact ⟨row, List.mem_append_left _ member, held⟩

omit [Blake3] in
/-- The acceptance a payload is. -/
def acceptanceOf : Payload → Option EvidenceReconciliationAcceptedV1
  | .evidenceReconciliationAccepted event => some event
  | _ => none

/-- Appending anything but a link; an acceptance waits for its link. -/
theorem Reached.unlinked {terms : ReconcileTerms} {before : Journal} {done : List Payload}
    {env next : OpEnv} (reached : Reached terms before done none env) {payload : Payload}
    (kind : payload.kind ≠ .claimEvidenceLinked)
    (version : ∀ held, payload = .evidenceReconciliationAccepted held →
      held.policyVersion = policyVersion)
    (appended : env.append payload = .ok next) :
    Reached terms before (done ++ [payload]) (acceptanceOf payload) next := by
  obtain ⟨⟨receipt, noted, admissible, committed⟩, outcome⟩ :=
    append_rows appended reached.conforming terms.workspaceId.value
  obtain ⟨more, rows, plain⟩ : ∃ more, workspaceRows next.journal terms.workspaceId.value =
      workspaceRows env.journal terms.workspaceId.value ++ more ∧
        ∀ row ∈ more, row.payload = payload := by
    rcases outcome with same | ⟨row, rows, carries, _, _⟩
    · exact ⟨[], by rw [same, List.append_nil], by simp⟩
    · exact ⟨[row], rows, by simpa using carries⟩
  refine ⟨(OpEnv.append_conforming appended reached.conforming).2, ?_, ?_, ?_, ?_, ?_, ?_⟩
  · obtain ⟨earlier, split⟩ := reached.grown
    exact ⟨earlier ++ more, by rw [rows, split, List.append_assoc]⟩
  · intro row member held carries
    rw [rows] at member
    rcases List.mem_append.mp member with old | new
    · exact reached.versions row old held carries
    · exact version held ((plain row new).symm.trans carries)
  · intro row member link carries semantic
    rw [rows] at member
    rcases List.mem_append.mp member with old | new
    · rcases reached.justified row old link carries semantic with start | justified
      · exact Or.inl start
      · exact Or.inr (justified.later rows noted)
    · rw [plain row new] at carries
      rw [carries] at kind
      exact absurd rfl kind
  · intro link member
    rcases List.mem_append.mp member with old | new
    · rw [rows]
      exact (reached.noted link old).append more
    · rw [← List.mem_singleton.mp new] at kind
      exact absurd rfl kind
  · intro claimId occurrenceId row unlinked first
    have still : ¬ Linked (workspaceRows env.journal terms.workspaceId.value) claimId
        occurrenceId := by
      intro linked
      rw [rows] at unlinked
      exact unlinked (linked.append more)
    rw [rows] at first
    unfold firstAcceptance at first
    rw [List.find?_append] at first
    cases known : (workspaceRows env.journal terms.workspaceId.value).find?
        (accepts claimId occurrenceId) with
    | none =>
      rw [known, Option.none_or] at first
      obtain ⟨held, carries, _, _⟩ := accepts_iff.mp (List.find?_some first)
      right
      refine ⟨held, ?_, carries⟩
      rw [← plain row (List.mem_of_find?_eq_some first), carries]
      rfl
    | some held =>
      rw [known] at first
      have same : held = row := Option.some.inj first
      rcases reached.first claimId occurrenceId held still known with start | ⟨_, waits, _⟩
      · exact Or.inl (same ▸ start)
      · cases waits
  · intro held waits
    have same : payload = .evidenceReconciliationAccepted held := by
      cases payload with
      | evidenceReconciliationAccepted event => rw [Option.some.inj waits]
      | _ => cases waits
    exact ⟨receipt, by rw [noted]; simp, same ▸ admissible, committed⟩

/-- The links of a run agree with what an earlier run left: the first acceptance of a pair that
the run links has its judge and the stance of the link. -/
def LinksAgree (terms : ReconcileTerms) (before : Journal) (performed : List Payload) : Prop :=
  ∀ done link rest, performed = done ++ .claimEvidenceLinked link :: rest →
    ¬ Linked (workspaceRows before terms.workspaceId.value) link.claimId link.occurrenceId →
    (∀ other, .claimEvidenceLinked other ∈ done → other.claimId = link.claimId →
      other.occurrenceId ≠ link.occurrenceId) →
    ∀ row held, firstAcceptance (workspaceRows before terms.workspaceId.value) link.claimId
        link.occurrenceId = some row →
      row.payload = .evidenceReconciliationAccepted held →
      held.judgeFingerprint = terms.judgeFingerprint ∧ held.stance = link.stance

/-- A new link agrees with the first acceptance of its pair. -/
theorem Reached.justified_new {terms : ReconcileTerms} {before : Journal}
    {done rest : List Payload} {proposed : CachedCandidateProposal} {stance : EvidenceStance}
    {scorePpm : Nat} {env next : OpEnv}
    (reached : Reached terms before done (some (terms.acceptance proposed stance scorePpm)) env)
    (agree : LinksAgree terms before
      (done ++ .claimEvidenceLinked (terms.link proposed.candidate stance) :: rest))
    {added : Entry} (fresh : ∀ other ∈ env.journal.entries, other.eventId ≠ added.eventId)
    (earlier : ∀ other ∈ workspaceRows env.journal terms.workspaceId.value,
      other.sequence < added.sequence)
    (grown : workspaceRows next.journal terms.workspaceId.value =
      workspaceRows env.journal terms.workspaceId.value ++ [added])
    {receipt : EventId} (noted : next.receipts = env.receipts ++ [receipt])
    (named : Admissible (.claimEvidenceLinked (terms.link proposed.candidate stance))
      added.eventId) :
    Justified terms.workspaceId.value next added (terms.link proposed.candidate stance) := by
  let link := terms.link proposed.candidate stance
  have unlinked : ¬ Linked (workspaceRows env.journal terms.workspaceId.value) link.claimId
      link.occurrenceId := by
    intro ⟨row, member, held, carries, claim, occurrence⟩
    have inside := (Journal.mem_region.mp member).1
    have own := (reached.conforming row inside).admissible
    have workspace : held.workspaceId.value = terms.workspaceId.value :=
      workspace_of_row reached.conforming member (by rw [carries]; rfl)
    rw [carries] at own
    apply fresh row inside
    rw [show row.eventId = _ from own, show added.eventId = _ from named, workspace, claim,
      occurrence]
    rfl
  obtain ⟨waited, inReceipts, acceptable, holder, holds, holderNamed⟩ := reached.awaited _ rfl
  obtain ⟨accepted, first⟩ : ∃ accepted, firstAcceptance
      (workspaceRows env.journal terms.workspaceId.value) link.claimId link.occurrenceId =
        some accepted := by
    obtain ⟨listed, matched⟩ :=
      acceptance_row reached.conforming holds (holderNamed.symm ▸ acceptable)
    cases known : firstAcceptance (workspaceRows env.journal terms.workspaceId.value)
        link.claimId link.occurrenceId with
    | some accepted => exact ⟨accepted, rfl⟩
    | none => exact absurd matched (List.find?_eq_none.mp known holder listed)
  obtain ⟨listed, held, carries, claim, occurrence⟩ := firstAcceptance_some first
  -- An acceptance of the run's own judge for the pair has the identity the run was given.
  have identity : held.judgeFingerprint = terms.judgeFingerprint → accepted.eventId = waited := by
    intro judge
    have own := (reached.conforming accepted (Journal.mem_region.mp listed).1).admissible
    have workspace : held.workspaceId.value = terms.workspaceId.value :=
      workspace_of_row reached.conforming listed (by rw [carries]; rfl)
    have version := reached.versions accepted listed held carries
    rw [carries] at own
    rw [show accepted.eventId = _ from own, show waited = _ from acceptable, workspace, claim,
      occurrence, judge, version]
    rfl
  have decided : held.stance = link.stance ∧ accepted.eventId = waited := by
    rcases reached.first link.claimId link.occurrenceId accepted unlinked first with
      start | ⟨own, waits, same⟩
    · have before : ¬ Linked (workspaceRows before terms.workspaceId.value) link.claimId
          link.occurrenceId := by
        intro linked
        obtain ⟨more, split⟩ := reached.grown
        rw [split] at unlinked
        exact unlinked (linked.append more)
      have judged := agree done link rest rfl before (by
        intro other member sameClaim sameOccurrence
        apply unlinked
        rw [← sameClaim, ← sameOccurrence]
        exact reached.noted other member) accepted held start carries
      exact ⟨judged.2, identity judged.1⟩
    · rw [same] at carries
      injection carries with equal
      rw [← equal, ← Option.some.inj waits]
      refine ⟨rfl, identity ?_⟩
      rw [← equal, ← Option.some.inj waits]
      rfl
  refine ⟨accepted, held, ?_, carries, decided.1, earlier accepted listed, ?_⟩
  · rw [grown]
    exact firstAcceptance_append first [added]
  · rw [noted, decided.2]
    exact List.mem_append_left _ inReceipts

/-- Appending the link an acceptance waits for. -/
theorem Reached.linked {terms : ReconcileTerms} {before : Journal} {done : List Payload}
    (rest : List Payload) {proposed : CachedCandidateProposal} {stance : EvidenceStance} {scorePpm : Nat}
    {env next : OpEnv}
    (reached : Reached terms before done (some (terms.acceptance proposed stance scorePpm)) env)
    (agree : LinksAgree terms before
      (done ++ .claimEvidenceLinked (terms.link proposed.candidate stance) :: rest))
    (appended : env.append (.claimEvidenceLinked (terms.link proposed.candidate stance)) =
      .ok next) :
    Reached terms before
      (done ++ [.claimEvidenceLinked (terms.link proposed.candidate stance)]) none next := by
  have conforming := (OpEnv.append_conforming appended reached.conforming).2
  obtain ⟨⟨receipt, noted, admissible, here, inside, used⟩, outcome⟩ :=
    append_rows appended reached.conforming terms.workspaceId.value
  -- Whatever the append did, the pair is linked now.
  have now : Linked (workspaceRows next.journal terms.workspaceId.value)
      proposed.candidate.claimId proposed.candidate.occurrence.occurrenceId := by
    obtain ⟨member, held, carries, claim, occurrence⟩ :=
      link_row conforming inside (used.symm ▸ admissible)
    exact ⟨here, member, held, carries, claim, occurrence⟩
  obtain ⟨more, rows, plain⟩ : ∃ more, workspaceRows next.journal terms.workspaceId.value =
      workspaceRows env.journal terms.workspaceId.value ++ more ∧
        ∀ row ∈ more, row.payload = .claimEvidenceLinked (terms.link proposed.candidate stance) := by
    rcases outcome with same | ⟨row, rows, carries, _, _⟩
    · exact ⟨[], by rw [same, List.append_nil], by simp⟩
    · exact ⟨[row], rows, by simpa using carries⟩
  refine ⟨conforming, ?_, ?_, ?_, ?_, ?_, ?_⟩
  · obtain ⟨earlier, split⟩ := reached.grown
    exact ⟨earlier ++ more, by rw [rows, split, List.append_assoc]⟩
  · intro row member held carries
    rw [rows] at member
    rcases List.mem_append.mp member with old | new
    · exact reached.versions row old held carries
    · rw [plain row new] at carries
      cases carries
  · intro row member link carries semantic
    rcases outcome with same | ⟨added, grown, addedCarries, fresh, earlier⟩
    · rw [same] at member
      rcases reached.justified row member link carries semantic with start | justified
      · exact Or.inl start
      · exact Or.inr (justified.later rows noted)
    · rw [grown] at member
      rcases List.mem_append.mp member with old | new
      · rcases reached.justified row old link carries semantic with start | justified
        · exact Or.inl start
        · exact Or.inr (justified.later rows noted)
      · have same : row = added := List.mem_singleton.mp new
        rw [same, addedCarries] at carries
        injection carries with own
        rw [← own, same]
        right
        apply reached.justified_new agree fresh earlier grown noted
        have placed := (conforming added (by
          have listed : added ∈ workspaceRows next.journal terms.workspaceId.value := by
            rw [grown]
            simp
          exact (Journal.mem_region.mp listed).1)).admissible
        rw [addedCarries] at placed
        exact placed
  · intro link member
    rcases List.mem_append.mp member with old | new
    · rw [rows]
      exact (reached.noted link old).append more
    · injection List.mem_singleton.mp new with same
      rw [same]
      exact now
  · intro claimId occurrenceId row unlinked first
    have still : ¬ Linked (workspaceRows env.journal terms.workspaceId.value) claimId
        occurrenceId := by
      intro linked
      rw [rows] at unlinked
      exact unlinked (linked.append more)
    have same : firstAcceptance (workspaceRows env.journal terms.workspaceId.value) claimId
        occurrenceId = some row := by
      rw [rows] at first
      unfold firstAcceptance at first ⊢
      rw [List.find?_append] at first
      have quiet : more.find? (accepts claimId occurrenceId) = none := by
        rw [List.find?_eq_none]
        intro other member
        simp [accepts, plain other member]
      rwa [quiet, Option.or_none] at first
    rcases reached.first claimId occurrenceId row still same with start | ⟨held, waits, carries⟩
    · exact Or.inl start
    · -- The waiting acceptance is of the pair that is linked now.
      obtain ⟨_, accepted, accepts, claim, occurrence⟩ := firstAcceptance_some same
      rw [carries] at accepts
      injection accepts with equal
      rw [← equal, ← Option.some.inj waits] at claim occurrence
      rw [← claim, ← occurrence] at unlinked
      exact absurd now unlinked
  · intro held waits
    cases waits

/-- A run of appends begins with the first. -/
theorem appendAll_cons {env next : OpEnv} {payload : Payload} {rest : List Payload}
    (appended : env.appendAll (payload :: rest) = .ok next) :
    ∃ middle, env.append payload = .ok middle ∧ middle.appendAll rest = .ok next := by
  rw [OpEnv.appendAll, List.foldlM_cons] at appended
  exact bind_eq_ok.mp appended

/-- The run law: wherever a run stops, its links are justified. -/
theorem Reached.run {terms : ReconcileTerms} {before : Journal}
    {proposals : List CachedCandidateProposal} {fuse : Nat} {done : List Payload} {env next : OpEnv}
    (reached : Reached terms before done none env)
    (agree : LinksAgree terms before (done ++ (terms.events proposals).take fuse))
    (appended : env.appendAll ((terms.events proposals).take fuse) = .ok next) :
    ∃ all waiting, Reached terms before all waiting next := by
  induction proposals generalizing fuse done env with
  | nil =>
    have none : (terms.events []).take fuse = [] := List.take_nil
    rw [none] at appended
    have same : env = next := Except.ok.inj appended
    exact ⟨done, _, same ▸ reached⟩
  | cons proposed rest ih =>
    unfold ReconcileTerms.events at appended agree
    cases judged : acceptProposal proposed.verdict terms.minScorePpm with
    | none =>
      rw [judged] at appended agree
      exact ih reached agree appended
    | some accepted =>
      obtain ⟨stance, scorePpm⟩ := accepted
      rw [judged] at appended agree
      dsimp only at appended agree
      by_cases valid : proposed.candidate.occurrence.validate = true
      · rw [if_pos valid] at appended agree
        unfold ReconcileTerms.chain at appended agree
        -- The chain is cut where the fuse ends: before it, after one or two events, or nowhere.
        cases fuse with
        | zero =>
          have same : env = next := Except.ok.inj appended
          exact ⟨done, _, same ▸ reached⟩
        | succ fuse =>
          obtain ⟨first, recorded, appended⟩ := appendAll_cons appended
          have one := reached.unlinked (by simp [Payload.kind]) (by intro _ same; cases same)
            recorded
          cases fuse with
          | zero =>
            have same : first = next := Except.ok.inj appended
            exact ⟨_, _, same ▸ one⟩
          | succ fuse =>
            obtain ⟨second, accepted, appended⟩ := appendAll_cons appended
            have two := Reached.unlinked one (by simp [Payload.kind])
              (by intro held same; injection same with same; rw [← same]; rfl) accepted
            cases fuse with
            | zero =>
              have same : second = next := Except.ok.inj appended
              exact ⟨_, _, same ▸ two⟩
            | succ fuse =>
              obtain ⟨third, linked, appended⟩ := appendAll_cons appended
              have three := Reached.linked ((terms.events rest).take fuse) two
                (by simpa using agree) linked
              exact ih three (by simpa using agree) appended
      · rw [if_neg valid, List.take_nil] at appended
        have same : env = next := Except.ok.inj appended
        exact ⟨done, _, same ▸ reached⟩

end

/-- The provenance an acceptance gives the links of its pair. -/
def provenanceOf (accepted : EvidenceReconciliationAcceptedV1) (sequence : Nat) :
    ReconciliationProvenance where
  scorePpm := accepted.scorePpm
  judgeFingerprint := accepted.judgeFingerprint
  cacheKeyHex := accepted.cacheKeyHex
  policyVersion := accepted.policyVersion
  observedAtMs := accepted.observedAtMs
  acceptanceSequence := sequence

/-- The acceptances an evidence scan keeps are the first of each pair. -/
theorem reconciliations_scan {rows : List Entry} (scan : EvidenceScan) (claimId : ClaimId)
    (occurrenceId : EvidenceOccurrenceId) {row : Entry} {held : EvidenceReconciliationAcceptedV1}
    (unseen : scan.reconciliations[(claimId.value, occurrenceId.value)]? = none)
    (first : firstAcceptance rows claimId occurrenceId = some row)
    (carries : row.payload = .evidenceReconciliationAccepted held) :
    (rows.foldl noteEvidence scan).reconciliations[(claimId.value, occurrenceId.value)]? =
      some (held, row.sequence) := by
  have kept : ∀ (rows : List Entry) (scan : EvidenceScan) value,
      scan.reconciliations[(claimId.value, occurrenceId.value)]? = some value →
      (rows.foldl noteEvidence scan).reconciliations[(claimId.value, occurrenceId.value)]? =
        some value := by
    intro rows
    induction rows with
    | nil => exact fun _ _ known => known
    | cons row rest ih =>
      intro scan value known
      apply ih
      unfold noteEvidence EvidenceScan.note
      cases row.payload with
      | evidenceReconciliationAccepted accepted =>
        dsimp only
        rw [Std.ExtTreeMap.getElem?_insertIfNew, known]
        split
        · rename_i absent
          obtain ⟨same, missing⟩ := absent
          rw [Std.LawfulEqCmp.eq_of_compare same] at missing
          exact absurd (Std.ExtTreeMap.mem_iff_isSome_getElem?.mpr (by rw [known]; rfl)) missing
        · rfl
      | _ => exact known
  induction rows generalizing scan with
  | nil => cases first
  | cons head rest ih =>
    rw [List.foldl_cons]
    unfold firstAcceptance at first
    rw [List.find?_cons] at first
    by_cases matched : accepts claimId occurrenceId head = true
    · rw [matched] at first
      have same : head = row := Option.some.inj first
      obtain ⟨accepted, stored, claim, occurrence⟩ := accepts_iff.mp matched
      rw [same, carries] at stored
      injection stored with equal
      apply kept
      unfold noteEvidence
      rw [same, carries]
      unfold EvidenceScan.note
      dsimp only
      rw [equal, claim, occurrence, Std.ExtTreeMap.getElem?_insertIfNew, if_pos]
      refine ⟨Std.ReflCmp.compare_self, ?_⟩
      rw [Std.ExtTreeMap.mem_iff_isSome_getElem?, unseen]
      exact Bool.false_ne_true
    · rw [Bool.not_eq_true] at matched
      rw [matched] at first
      apply ih (noteEvidence scan head) _ first
      unfold noteEvidence EvidenceScan.note
      cases stored : head.payload with
      | evidenceReconciliationAccepted accepted =>
        dsimp only
        rw [Std.ExtTreeMap.getElem?_insertIfNew, if_neg, unseen]
        intro ⟨same, _⟩
        have parts := Prod.mk.inj (Std.LawfulEqCmp.eq_of_compare same)
        have also : accepts claimId occurrenceId head = true :=
          accepts_iff.mpr ⟨accepted, stored, Branded.ext parts.1, Branded.ext parts.2⟩
        rw [matched] at also
        cases also
      | _ => exact unseen

/-- The links an evidence scan collects are those of its rows. -/
theorem links_scan (rows : List Entry) (scan : EvidenceScan) {link : ClaimEvidenceLinkedV1 × Nat}
    (member : link ∈ (rows.foldl noteEvidence scan).links) :
    link ∈ scan.links ∨ ∃ row ∈ rows, row.payload = .claimEvidenceLinked link.1 ∧
      row.sequence = link.2 := by
  induction rows generalizing scan with
  | nil => exact Or.inl member
  | cons head rest ih =>
    rw [List.foldl_cons] at member
    rcases ih _ member with known | ⟨row, inside, carries⟩
    · unfold noteEvidence EvidenceScan.note at known
      cases stored : head.payload with
      | claimEvidenceLinked event =>
        rw [stored] at known
        rcases List.mem_append.mp known with old | new
        · exact Or.inl old
        · rw [List.mem_singleton.mp new]
          exact Or.inr ⟨head, List.mem_cons_self, stored, rfl⟩
      | _ =>
        rw [stored] at known
        exact Or.inl known
    · exact Or.inr ⟨row, List.mem_cons_of_mem _ inside, carries⟩

/-- The evidence of a link under a scan. -/
def linkEvidence (scan : EvidenceScan) (link : ClaimEvidenceLinkedV1 × Nat)
    (occurrence : EvidenceOccurrence × Nat) : ClaimEvidence where
  claimId := link.1.claimId.value
  occurrence := occurrence.1
  stance := link.1.stance
  method := link.1.method
  occurrenceSequence := occurrence.2
  linkSequence := link.2
  reconciliation :=
    (scan.reconciliations[(link.1.claimId.value, link.1.occurrenceId.value)]?).map fun accepted =>
      provenanceOf accepted.1 accepted.2

/-- Every piece of joined evidence is that of a link. -/
theorem mem_joinEvidence {scan : EvidenceScan} {claimId : String} {item : ClaimEvidence}
    (member : item ∈ (joinEvidence scan).forClaim claimId) :
    ∃ link ∈ scan.links, ∃ occurrence, item = linkEvidence scan link occurrence := by
  have joined : ∀ (links : List (ClaimEvidenceLinkedV1 × Nat)) (projection : EvidenceProjection),
      (∀ link ∈ links, link ∈ scan.links) →
      (∀ claimId, ∀ item ∈ projection.forClaim claimId,
        ∃ link ∈ scan.links, ∃ occurrence, item = linkEvidence scan link occurrence) →
      ∀ claimId, ∀ item ∈ (links.foldl (joinLink scan) projection).forClaim claimId,
        ∃ link ∈ scan.links, ∃ occurrence, item = linkEvidence scan link occurrence := by
    intro links
    induction links with
    | nil => exact fun _ _ held => held
    | cons link rest ih =>
      intro projection listed held
      rw [List.foldl_cons]
      apply ih _ fun other inside => listed other (List.mem_cons_of_mem _ inside)
      intro claimId item member
      unfold joinLink at member
      split at member
      · exact held claimId item member
      · rename_i occurrence _
        unfold EvidenceProjection.forClaim at member
        rw [Std.ExtTreeMap.getElem?_insert] at member
        split at member
        · rw [Option.getD_some] at member
          rcases List.mem_append.mp member with old | new
          · exact held _ item old
          · exact ⟨link, listed link List.mem_cons_self, occurrence, List.mem_singleton.mp new⟩
        · exact held claimId item member
  unfold joinEvidence EvidenceProjection.forClaim at member
  dsimp only at member
  rw [Std.ExtTreeMap.getElem?_map] at member
  apply joined scan.links {} (fun _ listed => listed) (by
    intro claimId item inside
    simp [EvidenceProjection.forClaim] at inside) claimId item
  unfold EvidenceProjection.forClaim
  cases found : (scan.links.foldl (joinLink scan) {}).byClaim[claimId]? with
  | none =>
    rw [found] at member
    cases member
  | some evidence =>
    rw [found] at member
    exact (List.mem_insertionSort _).mp member

section
variable [Blake3]

/-- One run of `texo.knowledge.reconcile`: what it is given, and after how many appends the
store fails, if it does. -/
structure ReconcileRun where
  fuse : Nat
  world : ReconcileWorld
  input : KnowledgeReconcileInput

/-- What a run leaves. -/
def ReconcileRun.after (run : ReconcileRun) (workspaceId : String) (before : Journal) : OpEnv :=
  stateAfter (knowledgeReconcile run.fuse run.world workspaceId run.input before)

/-- The links a run appends agree with the acceptances earlier runs left for their pairs. -/
def ReconcileRun.Agrees (run : ReconcileRun) (workspaceId : String) (before : Journal) : Prop :=
  ∀ plan, prepareReconcile run.world workspaceId run.input before = .ok plan →
    LinksAgree plan.terms before ((plan.terms.events plan.backend.proposals).take run.fuse)

omit [Blake3] in
/-- No other operation accepts a reconciliation or links under the semantic policy. -/
def Apart : Payload → Prop
  | .evidenceReconciliationAccepted _ => False
  | .claimEvidenceLinked link => link.method ≠ .semanticPolicy
  | _ => True

omit [Blake3] in
/-- One step of a history: a reconciliation, or appends of other operations. -/
inductive ReconcileStep where
  | reconcile (run : ReconcileRun)
  | others (payloads : List Payload) (apart : ∀ payload ∈ payloads, Apart payload)

/-- What a step leaves. -/
def ReconcileStep.after (workspaceId : String) (journal : Journal) : ReconcileStep → OpEnv
  | .reconcile run => run.after workspaceId journal
  | .others payloads _ =>
    stateAfter (appendWithin payloads.length { workspaceId := workspaceId, journal := journal }
      payloads)

/-- The journal a history leaves. -/
def journalAfter (workspaceId : String) (start : Journal) (steps : List ReconcileStep) : Journal :=
  steps.foldl (fun journal step => (step.after workspaceId journal).journal) start

/-- The evidence carries the acceptance that decided its link: an accepted event of the journal
with the link's stance, which the run that appended the link appended or repeated. -/
def Decided (workspaceId : String) (start : Journal) (steps : List ReconcileStep)
    (item : ClaimEvidence) : Prop :=
  ∃ front run back, steps = front ++ .reconcile run :: back ∧
    (∃ row ∈ (run.after workspaceId (journalAfter workspaceId start front)).journal.entries,
      row ∉ (journalAfter workspaceId start front).entries ∧ row.sequence = item.linkSequence) ∧
    ∃ accepted ∈ (journalAfter workspaceId start steps).entries, ∃ held,
      accepted.payload = .evidenceReconciliationAccepted held ∧
      item.reconciliation = some (provenanceOf held accepted.sequence) ∧
      held.stance = item.stance ∧
      accepted.eventId ∈ (run.after workspaceId (journalAfter workspaceId start front)).receipts

/-- Acceptances of a workspace are of the one policy version. -/
def OneVersion (rows : List Entry) : Prop :=
  ∀ row ∈ rows, ∀ held, row.payload = .evidenceReconciliationAccepted held →
    held.policyVersion = policyVersion

/-- What one run does to the rows of its workspace: it extends them, and every semantic link it
adds is justified by its own receipts. -/
theorem ReconcileRun.after_spec (run : ReconcileRun) {workspaceId : String} {before : Journal}
    (conforming : before.Conforming) (version : OneVersion (workspaceRows before workspaceId))
    (agrees : run.Agrees workspaceId before) :
    (run.after workspaceId before).journal.Conforming ∧
      (∃ more, workspaceRows (run.after workspaceId before).journal workspaceId =
        workspaceRows before workspaceId ++ more) ∧
      OneVersion (workspaceRows (run.after workspaceId before).journal workspaceId) ∧
      ∀ row ∈ workspaceRows (run.after workspaceId before).journal workspaceId, ∀ link,
        row.payload = .claimEvidenceLinked link → link.method = .semanticPolicy →
          row ∈ workspaceRows before workspaceId ∨
            Justified workspaceId (run.after workspaceId before) row link := by
  unfold ReconcileRun.after
  cases prepared : prepareReconcile run.world workspaceId run.input before with
  | error error =>
    rw [knowledgeReconcile_unprepared prepared]
    exact ⟨conforming, ⟨[], (List.append_nil _).symm⟩, version, fun row member _ _ _ => Or.inl member⟩
  | ok plan =>
    have here := prepareReconcile_here prepared
    have started : Reached plan.terms before [] none
        { workspaceId := workspaceId, journal := before } := by
      refine ⟨conforming, ⟨[], (List.append_nil _).symm⟩, ?_, ?_, by simp, ?_, by simp⟩
      · rw [here]
        exact version
      · intro row member _ _ _
        exact Or.inl member
      · intro _ _ row _ first
        exact Or.inl first
    have all := appendProposals_run plan.terms plan.backend.proposals run.fuse
      (show OpEnv.journal { workspaceId := workspaceId, journal := before } |>.Conforming
        from conforming)
    rw [knowledgeReconcile_after prepared]
    obtain ⟨done, waiting, reached⟩ := Reached.run started
      (by simpa using agrees plan prepared) all
    obtain ⟨kept, grown, versions, justified, _, _, _⟩ := reached
    rw [here] at grown versions justified
    exact ⟨kept, grown, versions, justified⟩

/-- What appends of other operations do to the rows of a workspace. -/
theorem others_spec (workspaceId : String) {env next : OpEnv} {payloads : List Payload}
    (apart : ∀ payload ∈ payloads, Apart payload) (appended : env.appendAll payloads = .ok next) :
    ∃ more, workspaceRows next.journal workspaceId = workspaceRows env.journal workspaceId ++ more ∧
      ∀ row ∈ more, Apart row.payload := by
  induction payloads generalizing env with
  | nil =>
    have same : env = next := Except.ok.inj appended
    exact ⟨[], by rw [same, List.append_nil], by simp⟩
  | cons payload rest ih =>
    obtain ⟨middle, first, later⟩ := appendAll_cons appended
    obtain ⟨more, rows, plain⟩ := ih (fun other inside => apart other (List.mem_cons_of_mem _ inside))
      later
    rcases OpEnv.append_region first (scopeForWorkspace workspaceId) with
      same | ⟨row, grown, carries, _, _⟩
    · exact ⟨more, by rw [rows, workspaceRows, same]; rfl, plain⟩
    · refine ⟨row :: more, ?_, ?_⟩
      · rw [rows, workspaceRows, grown, List.append_assoc]
        rfl
      · intro other member
        rcases List.mem_cons.mp member with rfl | inside
        · rw [carries]
          exact apart payload List.mem_cons_self
        · exact plain other inside

/-- What holds of the journal a history leaves. -/
structure Traced (workspaceId : String) (start : Journal) (steps : List ReconcileStep) : Prop where
  conforming : (journalAfter workspaceId start steps).Conforming
  version : OneVersion (workspaceRows (journalAfter workspaceId start steps) workspaceId)
  decided : ∀ row ∈ workspaceRows (journalAfter workspaceId start steps) workspaceId, ∀ link,
    row.payload = .claimEvidenceLinked link → link.method = .semanticPolicy →
      ∃ front run back, steps = front ++ .reconcile run :: back ∧
        row ∈ (run.after workspaceId (journalAfter workspaceId start front)).journal.entries ∧
        row ∉ (journalAfter workspaceId start front).entries ∧
        ∃ accepted held,
          firstAcceptance (workspaceRows (journalAfter workspaceId start steps) workspaceId)
              link.claimId link.occurrenceId = some accepted ∧
            accepted.payload = .evidenceReconciliationAccepted held ∧ held.stance = link.stance ∧
            accepted.sequence < row.sequence ∧ accepted.eventId ∈
              (run.after workspaceId (journalAfter workspaceId start front)).receipts

/-- One more step of a history. -/
theorem Traced.step {workspaceId : String} {start : Journal} {steps : List ReconcileStep}
    (traced : Traced workspaceId start steps) (step : ReconcileStep)
    (agrees : ∀ run, step = .reconcile run → run.Agrees workspaceId
      (journalAfter workspaceId start steps)) :
    Traced workspaceId start (steps ++ [step]) := by
  let before := journalAfter workspaceId start steps
  have now : journalAfter workspaceId start (steps ++ [step]) =
      (step.after workspaceId before).journal := by
    unfold journalAfter
    rw [List.foldl_append]
    rfl
  have old : ∀ more, workspaceRows (step.after workspaceId before).journal workspaceId =
        workspaceRows before workspaceId ++ more →
      ∀ row ∈ workspaceRows before workspaceId, ∀ link,
        row.payload = .claimEvidenceLinked link → link.method = .semanticPolicy →
      ∃ front run back, steps ++ [step] = front ++ .reconcile run :: back ∧
        row ∈ (run.after workspaceId (journalAfter workspaceId start front)).journal.entries ∧
        row ∉ (journalAfter workspaceId start front).entries ∧
        ∃ accepted held,
          firstAcceptance (workspaceRows (step.after workspaceId before).journal workspaceId)
              link.claimId link.occurrenceId = some accepted ∧
            accepted.payload = .evidenceReconciliationAccepted held ∧ held.stance = link.stance ∧
            accepted.sequence < row.sequence ∧ accepted.eventId ∈
              (run.after workspaceId (journalAfter workspaceId start front)).receipts := by
    intro more rows row member link carries semantic
    obtain ⟨front, run, back, split, inside, new, accepted, held, first, rest⟩ :=
      traced.decided row member link carries semantic
    refine ⟨front, run, back ++ [step], by rw [split]; simp, inside, new, accepted, held, ?_, rest⟩
    rw [rows]
    exact firstAcceptance_append first more
  cases step with
  | reconcile run =>
    obtain ⟨conforming, ⟨more, rows⟩, version, justified⟩ :=
      run.after_spec traced.conforming traced.version (agrees run rfl)
    refine ⟨by rw [now]; exact conforming, by rw [now]; exact version, ?_⟩
    rw [now]
    intro row member link carries semantic
    by_cases known : row ∈ workspaceRows before workspaceId
    · exact old more rows row known link carries semantic
    · rcases justified row member link carries semantic with start | fresh
      · exact absurd start known
      · obtain ⟨accepted, held, first, rest⟩ := fresh
        have inside := Journal.mem_region.mp member
        refine ⟨steps, run, [], rfl, inside.1, ?_, accepted, held, first, rest⟩
        intro earlier
        exact known (Journal.mem_region.mpr ⟨earlier, inside.2⟩)
  | others payloads apart =>
    have appended : ∃ done rest, payloads = done ++ rest ∧
        OpEnv.appendAll { workspaceId := workspaceId, journal := before } done =
          .ok ((ReconcileStep.others payloads apart).after workspaceId before) := by
      show ∃ done rest, payloads = done ++ rest ∧
        OpEnv.appendAll { workspaceId := workspaceId, journal := before } done =
          .ok (stateAfter (appendWithin payloads.length _ payloads))
      rcases appendWithin_cases payloads.length { workspaceId := workspaceId, journal := before }
          payloads with ⟨left, next, run, all⟩ | ⟨failure, done, rest, run, split, all⟩
      · exact ⟨payloads, [], (List.append_nil _).symm, by rw [run]; exact all⟩
      · exact ⟨done, rest, split, by rw [run]; exact all⟩
    obtain ⟨done, rest, split, all⟩ := appended
    obtain ⟨more, rows, plain⟩ := others_spec workspaceId
      (fun payload inside => apart payload (by rw [split]; exact List.mem_append_left rest inside))
      all
    have rows : workspaceRows ((ReconcileStep.others payloads apart).after workspaceId before).journal
        workspaceId = workspaceRows before workspaceId ++ more := rows
    refine ⟨by rw [now]; exact (OpEnv.appendAll_spec all traced.conforming).2.2.1, ?_, ?_⟩
    · rw [now, rows]
      intro row member held carries
      rcases List.mem_append.mp member with earlier | new
      · exact traced.version row earlier held carries
      · have none := plain row new
        rw [carries] at none
        exact none.elim
    · rw [now]
      intro row member link carries semantic
      have member' := member
      rw [rows] at member'
      rcases List.mem_append.mp member' with earlier | new
      · exact old more rows row earlier link carries semantic
      · have none := plain row new
        rw [carries] at none
        exact absurd semantic none

/-- The run law of histories. -/
theorem Traced.history {workspaceId : String} {start : Journal} (conforming : start.Conforming)
    (fresh : ∀ row ∈ workspaceRows start workspaceId, Apart row.payload)
    (steps : List ReconcileStep)
    (agrees : ∀ front run back, steps = front ++ .reconcile run :: back →
      run.Agrees workspaceId (journalAfter workspaceId start front)) :
    Traced workspaceId start steps := by
  induction steps using List.reverseRecOn with
  | nil =>
    refine ⟨conforming, ?_, ?_⟩
    · intro row member held carries
      have none := fresh row member
      rw [carries] at none
      exact none.elim
    · intro row member link carries semantic
      have none := fresh row member
      rw [carries] at none
      exact absurd semantic none
  | append_singleton steps step ih =>
    apply Traced.step
    · apply ih
      intro front run back split
      exact agrees front run (back ++ [step]) (by rw [split]; simp)
    · intro run same
      exact agrees steps run [] (by rw [same])

/-- Evidence shows the acceptance that decided its link. From a journal without reconciled
evidence, over any reconciliations, cut off anywhere, and any appends of other operations in
between: as long as no run links a pair for which an earlier run left a first acceptance of
another judge or another stance, every piece of semantic evidence, read through any frontier in
any state reached, carries the acceptance of its stance that its own run appended or
repeated. -/
theorem provenance_decided {workspaceId : String} {start : Journal} (conforming : start.Conforming)
    (fresh : ∀ row ∈ workspaceRows start workspaceId, Apart row.payload)
    (steps : List ReconcileStep)
    (agrees : ∀ front run back, steps = front ++ .reconcile run :: back →
      run.Agrees workspaceId (journalAfter workspaceId start front)) :
    ∀ front back, steps = front ++ back → ∀ frontier projection,
      assembleEvidenceThrough (readable (journalAfter workspaceId start front)) workspaceId
          frontier = .ok projection →
        ∀ claimId, ∀ item ∈ projection.forClaim claimId, item.method = .semanticPolicy →
          Decided workspaceId start front item := by
  intro front back split frontier projection assembled claimId item listed semantic
  have traced : Traced workspaceId start front := by
    apply Traced.history conforming fresh
    intro earlier run later whole
    exact agrees earlier run (later ++ back) (by rw [split, whole]; simp)
  let journal := journalAfter workspaceId start front
  unfold assembleEvidenceThrough at assembled
  rw [foldlM_scanEvidence, rowsThrough_readable] at assembled
  have projected : joinEvidence (((workspaceRows journal workspaceId).takeWhile
      fun row => row.sequence ≤ frontier).foldl noteEvidence {}) = projection :=
    Except.ok.inj assembled
  rw [← projected] at listed
  obtain ⟨link, collected, occurrence, shown⟩ := mem_joinEvidence listed
  rcases links_scan _ _ collected with none | ⟨row, inside, carries, sequence⟩
  · cases none
  · have member := List.takeWhile_subset _ inside
    have method : link.1.method = .semanticPolicy := by
      rw [shown] at semantic
      exact semantic
    obtain ⟨earlier, run, later, whole, there, new, accepted, held, first, payload, stance, below,
      receipt⟩ := traced.decided row member link.1 carries method
    obtain ⟨acceptedIn, _⟩ := firstAcceptance_some first
    -- The acceptance lies before the link, so the frontier that reaches one reaches both.
    have through : firstAcceptance ((workspaceRows journal workspaceId).takeWhile
        fun row => row.sequence ≤ frontier) link.1.claimId link.1.occurrenceId = some accepted := by
      have reaches : row.sequence ≤ frontier := by
        simpa using List.mem_takeWhile_imp inside
      have ordered := journal.region_ordered (scopeForWorkspace workspaceId)
      exact firstAcceptance_takeWhile ordered first (by omega)
    have kept := reconciliations_scan {} link.1.claimId link.1.occurrenceId (by simp) through payload
    refine ⟨earlier, run, later, whole, ⟨row, there, new, ?_⟩, accepted, ?_, held, payload, ?_, ?_,
      receipt⟩
    · rw [shown]
      exact sequence
    · exact (Journal.mem_region.mp acceptedIn).1
    · rw [shown]
      show Option.map _ _ = _
      rw [kept]
      rfl
    · rw [shown]
      exact stance

end

/-- The snapshot of a demonstration workspace. -/
def reconciledSnapshot : SourceSnapshotRecordedV1 where
  workspaceId := ⟨"demo", Eq.refl true⟩
  repositoryId := ⟨"repo_a", Eq.refl true⟩
  snapshotId := ⟨"snapshot_a", Eq.refl true⟩
  baseCommit := ⟨.sha1, "c0"⟩
  baseTree := ⟨.sha1, "t0"⟩
  indexDigestHex := "00"
  overlayDigestHex := "00"
  dirty := false
  coverage := ⟨.lexical, 1, 1, false, []⟩
  captureMaxFiles := 1
  captureMaxFileBytes := 1
  captureMaxTotalBytes := 1
  observedAtMs := 0

/-- The one candidate pair of the workspace. -/
def reconciledCandidate : ReconcileCandidate where
  claimId := ⟨"claim_a", Eq.refl true⟩
  claimText := "four retries"
  occurrence :=
    { occurrenceId := ⟨"evidence_a", Eq.refl true⟩
      snapshotId := ⟨"snapshot_a", Eq.refl true⟩
      sourceKind := .lexical
      path := "a.rs"
      byteRange := (0, 1)
      lineRange := (1, 1)
      gitBlob := none
      sourceDigestHex := String.ofList (List.replicate 64 'a')
      excerpt := "4"
      analyzerFingerprint := "lex"
      analysisQuality := .lexical }
  codePrompt := "4"

/-- A judge that finds one relation in every candidate. -/
def reconciledWorld (relation : ClaimRelation) : ReconcileWorld where
  planned _ _ _ := .ok [reconciledCandidate]
  evaluate candidates _ _ :=
    .ok ⟨candidates.map fun candidate => ⟨candidate, ⟨relation, 900000⟩, "k"⟩, [], "judge"⟩

/-- A run under such a judge. -/
def reconciledRun (fuse : Nat) (relation : ClaimRelation) : ReconcileRun where
  fuse := fuse
  world := reconciledWorld relation
  input := { observedAtMs := 1 }

/-- A run is cut off between its acceptance and its link, and the pair is judged again,
differently, by the same judge. -/
def rejudgedHistory : List ReconcileStep :=
  [.reconcile (reconciledRun 2 .duplicate), .reconcile (reconciledRun 3 .conflict)]

section
variable [Blake3]

/-- A workspace with a snapshot and no evidence. -/
def reconciledStart : Journal :=
  appendedAfter Journal.empty [.sourceSnapshotRecorded reconciledSnapshot]

/-- The workspace conforms. -/
theorem reconciledStart_conforming : reconciledStart.Conforming :=
  appendedAfter_conforming Journal.conforming_empty _

omit [Blake3] in
/-- In a workspace without reconciled evidence every run agrees with what it finds. -/
theorem ReconcileRun.agrees_of_fresh {run : ReconcileRun} {workspaceId : String} {before : Journal}
    (fresh : ∀ row ∈ workspaceRows before workspaceId, Apart row.payload) :
    run.Agrees workspaceId before := by
  intro plan prepared done link rest _ _ _ row held first carries
  rw [prepareReconcile_here prepared] at first
  have none := fresh row (firstAcceptance_some first).1
  rw [carries] at none
  exact none.elim

/-- The evidence of the pair's claim, as far as it is compared. -/
def reconciledEvidence (journal : Journal) :
    Option (List (EvidenceLinkMethod × EvidenceStance × Option Nat)) :=
  (assembleEvidenceThrough (readable journal) "demo" 9).toOption.map fun projection =>
    (projection.forClaim "claim_a").map fun item =>
      (item.method, item.stance, item.reconciliation.map (·.acceptanceSequence))

end

/-- The first row of the workspace is apart from reconciled evidence. -/
theorem reconciledStart_fresh :
    let _ := numeralDigest
    ∀ row ∈ workspaceRows reconciledStart "demo", Apart row.payload := by
  let _ := numeralDigest
  have kinds : (workspaceRows reconciledStart "demo").all
      (fun row => row.payload.kind = .sourceSnapshotRecorded) = true := by
    decide +kernel
  intro _ row member
  have kind := of_decide_eq_true (List.all_eq_true.mp kinds row member)
  cases stored : row.payload with
  | evidenceReconciliationAccepted held =>
    rw [stored] at kind
    cases kind
  | claimEvidenceLinked link =>
    rw [stored] at kind
    cases kind
  | _ => trivial

/-- What the second judgement leaves: a contradicting link with the acceptance at sequence 3. -/
theorem rejudged_evidence :
    let _ := numeralDigest
    reconciledEvidence (journalAfter "demo" reconciledStart rejudgedHistory) =
      some [(.semanticPolicy, .contradicts, some 3)] := by
  decide +kernel

/-- The acceptance at sequence 3 is supporting. -/
theorem rejudged_acceptance :
    let _ := numeralDigest
    (journalAfter "demo" reconciledStart rejudgedHistory).entries.all (fun row =>
      row.sequence ≠ 3 || row.payload = .evidenceReconciliationAccepted
        (ReconcileTerms.acceptance ⟨⟨"demo", by decide⟩, 1, 700000, "judge"⟩
          ⟨reconciledCandidate, ⟨.duplicate, 900000⟩, "k"⟩ .supports 900000)) = true := by
  decide +kernel

/-- What one whole run leaves: a supporting link with its own acceptance. -/
theorem judged_evidence :
    let _ := numeralDigest
    reconciledEvidence (journalAfter "demo" reconciledStart
      [.reconcile (reconciledRun 3 .duplicate)]) = some [(.semanticPolicy, .supports, some 3)] := by
  decide +kernel

/-- Evidence of one piece is a piece of evidence. -/
theorem reconciledEvidence_item [Blake3] {journal : Journal} {stance : EvidenceStance}
    {sequence : Nat}
    (evidence : reconciledEvidence journal = some [(.semanticPolicy, stance, some sequence)]) :
    ∃ projection item, assembleEvidenceThrough (readable journal) "demo" 9 = .ok projection ∧
      item ∈ projection.forClaim "claim_a" ∧ item.method = .semanticPolicy ∧
        item.stance = stance ∧ item.reconciliation.map (·.acceptanceSequence) = some sequence := by
  unfold reconciledEvidence at evidence
  obtain ⟨projection, read, shown⟩ := Option.map_eq_some_iff.mp evidence
  obtain ⟨item, one, same⟩ := List.map_eq_singleton_iff.mp shown
  refine ⟨projection, item, ?_, by rw [one]; simp, congrArg Prod.fst same,
    congrArg (fun row => row.2.1) same, congrArg (fun row => row.2.2) same⟩
  cases assembled : assembleEvidenceThrough (readable journal) "demo" 9 with
  | error error =>
    rw [assembled] at read
    cases read
  | ok held =>
    rw [assembled] at read
    rw [Option.some.inj read]

/-- One whole run in a fresh workspace leaves evidence that its acceptance decided. -/
theorem provenance_decided_run :
    let _ := numeralDigest
    ∃ projection item, assembleEvidenceThrough (readable (journalAfter "demo" reconciledStart
        [.reconcile (reconciledRun 3 .duplicate)])) "demo" 9 = .ok projection ∧
      item ∈ projection.forClaim "claim_a" ∧ item.method = .semanticPolicy ∧
        Decided "demo" reconciledStart [.reconcile (reconciledRun 3 .duplicate)] item := by
  let _ := numeralDigest
  obtain ⟨projection, item, assembled, listed, semantic, _⟩ :=
    reconciledEvidence_item judged_evidence
  refine ⟨projection, item, assembled, listed, semantic, ?_⟩
  refine provenance_decided reconciledStart_conforming reconciledStart_fresh
    [.reconcile (reconciledRun 3 .duplicate)] ?_ _ [] (List.append_nil _).symm 9 projection
    assembled "claim_a" item listed semantic
  intro front run back split
  cases front with
  | nil => exact ReconcileRun.agrees_of_fresh reconciledStart_fresh
  | cons first rest =>
    have lengths := congrArg List.length split
    simp only [List.length_cons, List.length_nil, List.length_append] at lengths
    omega

/-- After a run cut off before its link and a second verdict, the contradicting link is shown
with the supporting acceptance. -/
theorem rejudged_undecided :
    let _ := numeralDigest
    reconciledStart.Conforming ∧ (∀ row ∈ workspaceRows reconciledStart "demo", Apart row.payload) ∧
      ∃ projection item, assembleEvidenceThrough (readable (journalAfter "demo" reconciledStart
          rejudgedHistory)) "demo" 9 = .ok projection ∧
        item ∈ projection.forClaim "claim_a" ∧ item.method = .semanticPolicy ∧
          item.stance = .contradicts ∧
          ¬ Decided "demo" reconciledStart rejudgedHistory item := by
  let _ := numeralDigest
  refine ⟨reconciledStart_conforming, reconciledStart_fresh, ?_⟩
  obtain ⟨projection, item, assembled, listed, semantic, stance, sequence⟩ :=
    reconciledEvidence_item rejudged_evidence
  refine ⟨projection, item, assembled, listed, semantic, stance, ?_⟩
  intro ⟨_, _, _, _, _, accepted, member, held, carries, shown, agrees, _⟩
  rw [shown] at sequence
  have third : accepted.sequence = 3 := Option.some.inj sequence
  have known := List.all_eq_true.mp rejudged_acceptance accepted member
  rw [Bool.or_eq_true] at known
  rcases known with other | supporting
  · exact of_decide_eq_true other third
  · rw [carries] at supporting
    injection of_decide_eq_true supporting with same
    rw [same, stance] at agrees
    cases agrees

end Texo.Ops
