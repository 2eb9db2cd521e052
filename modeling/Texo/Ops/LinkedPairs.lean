import Texo.Ops.Provenance

/-! # Linked pairs

A pair of a claim and an occurrence counts as linked where the rows of its workspace hold a link of
the pair and record the occurrence.
-/
namespace Texo.Ops
open Texo.Events Texo.Knowledge Texo.Store Texo.Claims Texo.Foundation

/-- Some row records the occurrence. -/
def OccurrenceRecorded (rows : List Entry) (occurrenceId : EvidenceOccurrenceId) : Prop :=
  ∃ row ∈ rows, ∃ event, row.payload = .evidenceOccurrenceRecorded event ∧
    event.occurrence.occurrenceId = occurrenceId

section
variable [Blake3]

/-- A pair was linked. -/
def linkStatement (workspaceId : String) (claimId : ClaimId) (occurrenceId : EvidenceOccurrenceId) :
    Statement (scopeForWorkspace workspaceId) where
  tells := fun payload => ∃ event, payload = .claimEvidenceLinked event ∧
    event.workspaceId.value = workspaceId ∧ event.claimId = claimId ∧
    event.occurrenceId = occurrenceId
  placed := by
    rintro payload ⟨event, rfl, rfl, _⟩
    exact ⟨_, rfl⟩
  keyed := by
    rintro payload ⟨event, rfl, _⟩
    simp [domainOperation, Payload.kind]
  stable := by
    rintro payload other id ⟨event, rfl, rfl, rfl, rfl⟩ named own kind
    have key : id = _ := named
    cases other with
    | claimEvidenceLinked other =>
      rw [key] at own
      simp only [Admissible, EventId.forOperation.injEq, List.cons.injEq] at own
      exact ⟨other, rfl, own.2.1.symm, Branded.ext own.2.2.1.symm, Branded.ext own.2.2.2.1.symm⟩
    | _ => cases kind

/-- An occurrence was recorded. -/
def occurrenceStatement (workspaceId : String) (occurrenceId : EvidenceOccurrenceId) :
    Statement (scopeForWorkspace workspaceId) where
  tells := fun payload => ∃ event, payload = .evidenceOccurrenceRecorded event ∧
    event.workspaceId.value = workspaceId ∧ event.occurrence.occurrenceId = occurrenceId
  placed := by
    rintro payload ⟨event, rfl, rfl, _⟩
    exact ⟨_, rfl⟩
  keyed := by
    rintro payload ⟨event, rfl, _⟩
    simp [domainOperation, Payload.kind]
  stable := by
    rintro payload other id ⟨event, rfl, rfl, rfl⟩ named own kind
    have key : id = _ := named
    cases other with
    | evidenceOccurrenceRecorded other =>
      rw [key] at own
      simp only [Admissible, EventId.forOperation.injEq, List.cons.injEq] at own
      exact ⟨other, rfl, own.2.1.symm, Branded.ext own.2.2.1.symm⟩
    | _ => cases kind

/-- A row that links a pair in the region of a workspace does so for that workspace. -/
theorem linked_iff_notes {journal : Journal} (conforming : journal.Conforming) (workspaceId : String)
    (claimId : ClaimId) (occurrenceId : EvidenceOccurrenceId) :
    Linked (workspaceRows journal workspaceId) claimId occurrenceId ↔
      journal.Notes (linkStatement workspaceId claimId occurrenceId) := by
  constructor
  · rintro ⟨row, member, event, payload, claim, occurrence⟩
    have here := workspace_of_row conforming member (by rw [payload]; rfl)
    exact ⟨row, member, event, payload, here, claim, occurrence⟩
  · rintro ⟨row, member, event, payload, _, claim, occurrence⟩
    exact ⟨row, member, event, payload, claim, occurrence⟩

/-- A row that records an occurrence in the region of a workspace does so for that workspace. -/
theorem occurrenceRecorded_iff_notes {journal : Journal} (conforming : journal.Conforming)
    (workspaceId : String) (occurrenceId : EvidenceOccurrenceId) :
    OccurrenceRecorded (workspaceRows journal workspaceId) occurrenceId ↔
      journal.Notes (occurrenceStatement workspaceId occurrenceId) := by
  constructor
  · rintro ⟨row, member, event, payload, named⟩
    obtain ⟨inside, inScope⟩ := Journal.mem_region.mp member
    have placed := (conforming row inside).placed
    rw [payload] at placed
    have scope : scopeForWorkspace event.workspaceId.value = row.scope :=
      congrArg Coordinate.scope (placed _ rfl)
    exact ⟨row, member, event, payload, scopeForWorkspace_injective (scope.trans inScope), named⟩
  · rintro ⟨row, member, event, payload, _, named⟩
    exact ⟨row, member, event, payload, named⟩

end

/-- The evidence of a claim is that of its links whose occurrence is known, link after link. -/
theorem forClaim_joinLink (scan : EvidenceScan) (links : List (ClaimEvidenceLinkedV1 × Nat))
    (projection : EvidenceProjection) (claimId : String) :
    (links.foldl (joinLink scan) projection).forClaim claimId =
      projection.forClaim claimId ++ links.filterMap fun link =>
        if link.1.claimId.value = claimId then
          (scan.occurrences[link.1.occurrenceId]?).map (linkEvidence scan link)
        else
          none := by
  induction links generalizing projection with
  | nil => simp
  | cons link rest ih =>
    rw [List.foldl_cons, ih, List.filterMap_cons]
    unfold joinLink
    cases known : scan.occurrences[link.1.occurrenceId]? with
    | none =>
      simp only [Option.map_none, ite_self]
      rfl
    | some occurrence =>
      by_cases here : link.1.claimId.value = claimId
      · simp only [if_pos here, Option.map_some]
        rw [← here]
        unfold EvidenceProjection.forClaim
        rw [Std.ExtTreeMap.getElem?_insert_self, Option.getD_some, List.append_assoc]
        rfl
      · simp only [if_neg here]
        congr 1
        unfold EvidenceProjection.forClaim
        rw [Std.ExtTreeMap.getElem?_insert, if_neg]
        intro same
        exact here (Std.LawfulEqCmp.eq_of_compare same)

/-- The evidence of a joined scan. -/
theorem mem_forClaim_joinEvidence {scan : EvidenceScan} {claimId : String} {item : ClaimEvidence} :
    item ∈ (joinEvidence scan).forClaim claimId ↔
      ∃ link ∈ scan.links, link.1.claimId.value = claimId ∧
        ∃ occurrence, scan.occurrences[link.1.occurrenceId]? = some occurrence ∧
          linkEvidence scan link occurrence = item := by
  have joined := forClaim_joinLink scan scan.links {} claimId
  have empty : ({} : EvidenceProjection).forClaim claimId = [] := by
    simp [EvidenceProjection.forClaim]
  have sorted : item ∈ (joinEvidence scan).forClaim claimId ↔
      item ∈ (scan.links.foldl (joinLink scan) {}).forClaim claimId := by
    unfold joinEvidence EvidenceProjection.forClaim
    dsimp only
    rw [Std.ExtTreeMap.getElem?_map]
    cases (scan.links.foldl (joinLink scan) {}).byClaim[claimId]? with
    | none => rfl
    | some evidence => exact List.mem_insertionSort _
  rw [sorted, joined, empty, List.nil_append, List.mem_filterMap]
  constructor
  · rintro ⟨link, listed, made⟩
    by_cases here : link.1.claimId.value = claimId
    · rw [if_pos here] at made
      obtain ⟨occurrence, known, same⟩ := Option.map_eq_some_iff.mp made
      exact ⟨link, listed, here, occurrence, known, same⟩
    · rw [if_neg here] at made
      cases made
  · rintro ⟨link, listed, here, occurrence, known, same⟩
    refine ⟨link, listed, ?_⟩
    rw [if_pos here, known, ← same]
    rfl

/-- The links of a scan are those of its rows. -/
theorem mem_links_scan {rows : List Entry} {scan : EvidenceScan} {link : ClaimEvidenceLinkedV1} :
    (∃ sequence, (link, sequence) ∈ (rows.foldl noteEvidence scan).links) ↔
      (∃ sequence, (link, sequence) ∈ scan.links) ∨
        ∃ row ∈ rows, row.payload = .claimEvidenceLinked link := by
  induction rows generalizing scan with
  | nil => simp
  | cons row rest ih =>
    rw [List.foldl_cons, ih]
    have step : (∃ sequence, (link, sequence) ∈ (noteEvidence scan row).links) ↔
        (∃ sequence, (link, sequence) ∈ scan.links) ∨ row.payload = .claimEvidenceLinked link := by
      unfold noteEvidence EvidenceScan.note
      cases stored : row.payload with
      | claimEvidenceLinked event =>
        simp only [List.mem_append, List.mem_singleton, Prod.mk.injEq, exists_or,
          Payload.claimEvidenceLinked.injEq]
        constructor
        · rintro (old | ⟨_, new, _⟩)
          · exact Or.inl old
          · exact Or.inr new.symm
        · rintro (old | new)
          · exact Or.inl old
          · exact Or.inr ⟨_, new.symm, rfl⟩
      | _ => simp
    rw [step, or_assoc]
    simp

/-- The occurrences of a scan are those of its rows, each under its own id. -/
theorem occurrences_scan {rows : List Entry} (scan : EvidenceScan)
    (keyed : ∀ (id : EvidenceOccurrenceId) (held : EvidenceOccurrence × Nat),
      scan.occurrences[id]? = some held → held.1.occurrenceId = id) :
    (∀ (id : EvidenceOccurrenceId) (held : EvidenceOccurrence × Nat),
      (rows.foldl noteEvidence scan).occurrences[id]? = some held →
        held.1.occurrenceId = id) ∧
      ∀ id : EvidenceOccurrenceId, ((rows.foldl noteEvidence scan).occurrences[id]?).isSome = true ↔
        (scan.occurrences[id]?).isSome = true ∨ OccurrenceRecorded rows id := by
  induction rows generalizing scan with
  | nil => exact ⟨keyed, fun id => by simp [OccurrenceRecorded]⟩
  | cons row rest ih =>
    rw [List.foldl_cons]
    have step : (∀ (id : EvidenceOccurrenceId) (held : EvidenceOccurrence × Nat),
          (noteEvidence scan row).occurrences[id]? = some held → held.1.occurrenceId = id) ∧
        ∀ id : EvidenceOccurrenceId, ((noteEvidence scan row).occurrences[id]?).isSome = true ↔
          (scan.occurrences[id]?).isSome = true ∨ ∃ event,
            row.payload = .evidenceOccurrenceRecorded event ∧ event.occurrence.occurrenceId = id := by
      unfold noteEvidence EvidenceScan.note
      cases stored : row.payload with
      | evidenceOccurrenceRecorded event =>
        constructor
        · intro id held found
          rw [Std.ExtTreeMap.getElem?_insert] at found
          split at found
          · rename_i same
            rw [← Option.some.inj found]
            exact Std.LawfulEqCmp.eq_of_compare same
          · exact keyed id held found
        · intro id
          rw [Std.ExtTreeMap.getElem?_insert]
          split
          · rename_i same
            exact iff_of_true rfl (Or.inr ⟨event, rfl, Std.LawfulEqCmp.eq_of_compare same⟩)
          · rename_i different
            constructor
            · exact Or.inl
            · rintro (old | ⟨other, same, named⟩)
              · exact old
              · injection same with same
                rw [same, named] at different
                exact absurd Std.ReflCmp.compare_self different
      | _ => exact ⟨keyed, fun id => by simp⟩
    obtain ⟨later, known⟩ := ih (noteEvidence scan row) step.1
    refine ⟨later, fun id => ?_⟩
    rw [known id, step.2 id, or_assoc]
    unfold OccurrenceRecorded
    simp

/-- A pair counts as linked where its rows link it and record its occurrence. -/
theorem linkedIn_iff (rows : List Entry) (candidate : ReconcileCandidate) :
    linkedIn (evidenceOf rows) candidate = true ↔
      Linked rows candidate.claimId candidate.occurrence.occurrenceId ∧
        OccurrenceRecorded rows candidate.occurrence.occurrenceId := by
  obtain ⟨keyed, known⟩ := @occurrences_scan rows {} (by
    intro id held found
    simp at found)
  unfold linkedIn evidenceOf
  rw [List.any_eq_true]
  constructor
  · rintro ⟨item, member, same⟩
    obtain ⟨⟨link, sequence⟩, listed, claim, occurrence, found, rfl⟩ :=
      mem_forClaim_joinEvidence.mp member
    have named : link.occurrenceId = candidate.occurrence.occurrenceId :=
      (keyed _ _ found).symm.trans (of_decide_eq_true same)
    obtain none | ⟨row, inside, carries⟩ := mem_links_scan.mp ⟨sequence, listed⟩
    · simp at none
    · refine ⟨⟨row, inside, link, carries, Branded.ext claim, named⟩, ?_⟩
      have recorded := (known link.occurrenceId).mp (by rw [found]; rfl)
      rw [named] at recorded
      simpa using recorded
  · rintro ⟨⟨row, inside, link, carries, claim, named⟩, recorded⟩
    obtain ⟨sequence, listed⟩ := mem_links_scan.mpr (Or.inr ⟨row, inside, carries⟩)
    have there := (known candidate.occurrence.occurrenceId).mpr (Or.inr recorded)
    obtain ⟨occurrence, found⟩ := Option.isSome_iff_exists.mp there
    refine ⟨linkEvidence _ (link, sequence) occurrence, mem_forClaim_joinEvidence.mpr
      ⟨(link, sequence), listed, congrArg Branded.value claim, occurrence, ?_, rfl⟩, ?_⟩
    · rw [← found, ← named]
    · exact decide_eq_true (keyed _ _ found)

end Texo.Ops
