import Texo.Ops.SourceOrder

/-! # Looking source order up

The replayed relations answer for two snapshots with the fact of the pair, with the inverse of the
fact the other way, or not at all. A policy holds the same facts, so two claims it binds compare as
their snapshots do.
-/
namespace Texo.Ops
open Texo.Events Texo.Knowledge Texo.Store Texo.Claims Texo.Semantics Texo.Foundation

/-- `TemporalProjection::compare`. -/
def compareTemporal (projection : TemporalProjection) (left right : SourceSnapshotId) :
    TemporalRelation :=
  if left = right then
    .same
  else
    match projection[(left.value, right.value)]? with
    | some relation => relation
    | none =>
      match projection[(right.value, left.value)]? with
      | some relation => relation.invert
      | none => .unknown

/-- A fact of some rows is that of a row. -/
theorem orderOf_row {rows : List Entry} {left right : String} {relation : TemporalRelation}
    (fact : (orderOf rows)[(left, right)]? = some relation) :
    ∃ row ∈ rows, ∃ event, row.payload = .sourceSnapshotRelation event ∧
      event.leftSnapshotId.value = left ∧ event.rightSnapshotId.value = right ∧
      event.relation = relation := by
  unfold orderOf at fact
  suffices kept : ∀ (rows : List Entry) (projection : TemporalProjection),
      (rows.foldl noteOrder projection)[(left, right)]? = some relation →
      projection[(left, right)]? = some relation ∨ ∃ row ∈ rows, ∃ event,
        row.payload = .sourceSnapshotRelation event ∧ event.leftSnapshotId.value = left ∧
        event.rightSnapshotId.value = right ∧ event.relation = relation by
    rcases kept rows ∅ fact with nothing | told
    · simp at nothing
    · exact told
  intro rows
  induction rows with
  | nil => exact fun projection held => Or.inl held
  | cons row rest ih =>
    intro projection held
    rcases ih _ held with before | ⟨later, member, told⟩
    · unfold noteOrder at before
      split at before
      · rename_i event carried
        unfold insertTemporal at before
        rw [Std.ExtTreeMap.getElem?_insertIfNew] at before
        split at before
        · rename_i found
          have keys : (event.leftSnapshotId.value, event.rightSnapshotId.value) = (left, right) :=
            Std.LawfulEqCmp.eq_of_compare found.1
          obtain ⟨first, second⟩ := Prod.mk.inj keys
          exact Or.inr ⟨row, List.mem_cons_self, event, carried, first, second,
            Option.some.inj before⟩
        · exact Or.inl before
      · exact Or.inl before
    · exact Or.inr ⟨later, List.mem_cons_of_mem _ member, told⟩

/-- A policy's fact of a pair is the one it has, or the first one added. -/
theorem foldl_insertRelationIds_getElem? (facts : List ((String × String) × TemporalRelation))
    (policy : RelateTemporalPolicy) (pair : String × String) :
    (facts.foldl (fun policy fact => policy.insertRelationIds fact.1.1 fact.1.2 fact.2)
      policy).snapshotRelations[pair]? =
      policy.snapshotRelations[pair]?.or
        ((facts.find? fun fact => fact.1 = pair).map Prod.snd) := by
  induction facts generalizing policy with
  | nil => simp
  | cons fact rest ih =>
    rw [List.foldl_cons, ih, List.find?_cons]
    unfold RelateTemporalPolicy.insertRelationIds
    by_cases known : policy.snapshotRelations.contains (fact.1.1, fact.1.2) = true
    · rw [if_pos known]
      by_cases same : fact.1 = pair
      · have there : pair ∈ policy.snapshotRelations := by
          rw [← same]
          exact Std.ExtTreeMap.contains_iff_mem.mp known
        obtain ⟨relation, held⟩ := Option.isSome_iff_exists.mp
          (Std.ExtTreeMap.isSome_getElem?_iff_mem.mpr there)
        rw [held]
        rfl
      · simp [same]
    · rw [if_neg known]
      simp only [Std.ExtTreeMap.getElem?_insert]
      by_cases same : fact.1 = pair
      · have missing : policy.snapshotRelations[pair]? = none := by
          rw [← same]
          apply Std.ExtTreeMap.getElem?_eq_none
          intro there
          exact known (Std.ExtTreeMap.contains_iff_mem.mpr there)
        simp [same, missing]
      · have other : ¬ comparePair (fact.1.1, fact.1.2) pair = .eq :=
          fun equal => same (Std.LawfulEqCmp.eq_of_compare equal)
        simp [same, other]

/-- The facts a policy takes from some rows are the facts of the rows. -/
theorem orderFacts_getElem? (rows : List Entry) (pair : String × String) :
    (orderFacts rows)[pair]? = (orderOf rows)[pair]? := by
  unfold orderFacts
  rw [foldl_insertRelationIds_getElem?]
  simp only [Std.ExtTreeMap.getElem?_empty, Option.none_or]
  cases found : (orderOf rows).toList.find? fun fact => fact.1 = pair with
  | none =>
    cases held : (orderOf rows)[pair]? with
    | none => rfl
    | some relation =>
      have listed := Std.ExtTreeMap.mem_toList_iff_getElem?_eq_some.mpr held
      have missing := List.find?_eq_none.mp found _ listed
      simp at missing
  | some fact =>
    have listed := List.mem_of_find?_eq_some found
    have named : fact.1 = pair := by simpa using List.find?_some found
    have held := Std.ExtTreeMap.mem_toList_iff_getElem?_eq_some.mp listed
    rw [← named, held]
    rfl

/-- The relations of a policy through a frontier are the facts of the rows through it. -/
theorem workspaceTemporalPolicyThrough_relations {journal : Journal} {workspaceId : String}
    {view : WorkspaceView} {frontier : Nat} {policy : RelateTemporalPolicy}
    (assembled : workspaceTemporalPolicyThrough (readable journal) workspaceId view frontier =
      .ok policy) :
    policy.snapshotRelations =
      orderFacts ((readable journal).rowsThrough (scopeForWorkspace workspaceId) frontier) := by
  unfold workspaceTemporalPolicyThrough at assembled
  obtain ⟨evidence, _, assembled⟩ := Foundation.bind_eq_ok.mp assembled
  obtain ⟨relations, temporal, assembled⟩ := Foundation.bind_eq_ok.mp assembled
  obtain ⟨bound, run, assembled⟩ := Foundation.bind_eq_ok.mp assembled
  unfold assembleTemporalThrough at temporal
  rw [foldlM_scanTemporal] at temporal
  rw [← Except.ok.inj assembled]
  have kept := (foldlM_bindViewClaim run).1
  have facts := (foldl_insertRelationIds relations.toList bound).2 {} kept.symm
  rw [facts, ← Except.ok.inj temporal]
  rfl

/-- Claims that a policy binds compare as their snapshots do in the replayed relations. -/
theorem compareClaims_compareTemporal {journal : Journal} {workspaceId : String}
    {view : WorkspaceView} {frontier : Nat} {policy : RelateTemporalPolicy}
    (assembled : workspaceTemporalPolicyThrough (readable journal) workspaceId view frontier =
      .ok policy) {left right : ClaimId} (apart : left ≠ right) (first second : SourceSnapshotId) :
    ((policy.bindClaim left first).bindClaim right second).compareClaims left right =
      some (compareTemporal
        (orderOf ((readable journal).rowsThrough (scopeForWorkspace workspaceId) frontier))
        first second) := by
  have other : ¬ right.value = left.value := fun same => apart (Branded.ext same.symm)
  have bound : ((policy.bindClaim left first).bindClaim right second).claimSnapshots[left.value]? =
      some first.value := by
    have missed : ¬ compare right.value left.value = .eq :=
      fun equal => other (Std.LawfulEqOrd.eq_of_compare equal)
    show ((policy.claimSnapshots.insert left.value first.value).insert right.value
      second.value)[left.value]? = _
    rw [Std.ExtTreeMap.getElem?_insert, if_neg missed, Std.ExtTreeMap.getElem?_insert_self]
  have boundRight : ((policy.bindClaim left first).bindClaim right
      second).claimSnapshots[right.value]? = some second.value := by
    simp [RelateTemporalPolicy.bindClaim]
  have relations : ((policy.bindClaim left first).bindClaim right second).snapshotRelations =
      orderFacts ((readable journal).rowsThrough (scopeForWorkspace workspaceId) frontier) := by
    show policy.snapshotRelations = _
    exact workspaceTemporalPolicyThrough_relations assembled
  rw [compareClaims_eq, bound, boundRight, relations]
  unfold compareSnapshots compareTemporal
  simp only [orderFacts_getElem?]
  by_cases same : first = second
  · rw [if_pos same, if_pos (congrArg Branded.value same)]
  · have values : ¬ first.value = second.value := fun equal => same (Branded.ext equal)
    rw [if_neg same, if_neg values]
    cases (orderOf ((readable journal).rowsThrough (scopeForWorkspace workspaceId) frontier))[
        (first.value, second.value)]? with
    | some relation => rfl
    | none =>
      cases (orderOf ((readable journal).rowsThrough (scopeForWorkspace workspaceId) frontier))[
          (second.value, first.value)]? <;> rfl

end Texo.Ops
