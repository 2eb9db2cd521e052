import Texo.Claims.Lifecycle
import Texo.Ingest.Run

/-! # Orderly workspaces

The store of a workspace holds that workspace alone. It is orderly when every row was committed
by its policy in the workspace's scope and every claim and conflict follows its machine. Payloads
that are legal for the view they were decided on, and close different entities, keep it orderly,
however many of them the store accepts.
-/
namespace Texo.Ops
open Texo.Events Texo.Store Texo.Claims Texo.Foundation Texo.Ingest

/-- The state a run leaves, whether or not it succeeds. -/
def stateAfter {State Output : Type} : Except (Failure State) (Output × State) → State
  | .error failure => failure.left
  | .ok (_, state) => state

variable [Blake3]

/-- `append_json` of one payload, then `take_one_receipt`. -/
def appendOne (fuse : Nat) (op : String) (env : OpEnv) (payload : Payload) :
    Except (Failure OpEnv) (EventId × Nat × OpEnv) :=
  match appendWithin fuse env [payload] with
  | .error failure => .error failure
  | .ok (left, appended) =>
    match appended.receipts.getLast? with
    | none =>
      .error ⟨.opRuntime op "append produced no receipt" false, { appended with receipts := [] }⟩
    | some receipt => .ok (receipt, left, { appended with receipts := [] })

/-- A store that holds one workspace, whose rows conform and whose lifecycles are lawful. -/
structure Orderly (journal : Journal) (workspaceId : String) : Prop where
  conforming : journal.Conforming
  lawful : Lawful journal workspaceId
  own : ∀ row ∈ journal.entries, row.scope = scopeForWorkspace workspaceId

/-- The empty store is orderly. -/
theorem orderly_empty (workspaceId : String) : Orderly Journal.empty workspaceId where
  conforming := Journal.conforming_empty
  lawful := lawful_empty workspaceId
  own := fun _ member => by cases member

/-- An orderly store holds nothing but its workspace. -/
theorem Orderly.region {journal : Journal} {workspaceId : String}
    (orderly : Orderly journal workspaceId) :
    journal.region (scopeForWorkspace workspaceId) = journal.entries := by
  apply List.filter_eq_self.mpr
  intro row member
  exact decide_eq_true (orderly.own row member)

/-- The step law of orderly stores. -/
theorem Orderly.append {env next : OpEnv} {payload : Payload} {workspaceId : String}
    (orderly : Orderly env.journal workspaceId) (appended : env.append payload = .ok next)
    (legal : Legal env.journal workspaceId payload) : Orderly next.journal workspaceId where
  conforming := (OpEnv.append_conforming appended orderly.conforming).2
  lawful := orderly.lawful.append appended orderly.conforming legal
  own := by
    obtain ⟨_, ⟨_, _, unchanged, _⟩ | ⟨row, grown, carries, conforms⟩⟩ :=
      OpEnv.append_cases appended
    · rw [unchanged]
      exact orderly.own
    · intro other member
      rw [grown] at member
      rcases List.mem_append.mp member with earlier | last
      · exact orderly.own other earlier
      · rw [List.mem_singleton.mp last]
        have lies : ∃ coordinate, coordinateOf payload = some coordinate := by
          cases payload with
          | foreign rawKind => cases appended
          | _ => exact ⟨_, rfl⟩
        obtain ⟨coordinate, lies⟩ := lies
        have placed := conforms.placed coordinate (by rw [carries]; exact lies)
        have scope := legal.here coordinate lies
        rw [placed] at scope
        exact scope

/-- The run law of orderly stores: what the store accepts of legal payloads keeps it orderly. -/
theorem Orderly.appendAll {env next : OpEnv} {payloads : List Payload} {workspaceId : String}
    (orderly : Orderly env.journal workspaceId) (appended : env.appendAll payloads = .ok next)
    (legal : ∀ payload ∈ payloads, Legal env.journal workspaceId payload)
    (apart : (payloads.filterMap closing).Nodup) : Orderly next.journal workspaceId := by
  induction payloads generalizing env with
  | nil =>
    have same : env = next := Except.ok.inj appended
    rw [← same]
    exact orderly
  | cons payload rest ih =>
    rw [OpEnv.appendAll, List.foldlM_cons] at appended
    obtain ⟨middle, first, later⟩ := bind_eq_ok.mp appended
    have now := legal payload (by simp)
    have restApart : (rest.filterMap closing).Nodup := by
      rw [List.filterMap_cons] at apart
      split at apart
      · exact apart
      · exact (List.nodup_cons.mp apart).2
    refine ih (orderly.append first now) later ?_ restApart
    intro other member
    refine Legal.append first orderly.conforming orderly.lawful now (legal other (by simp [member])) ?_
    intro entity closes otherCloses
    rw [List.filterMap_cons, closes] at apart
    exact (List.nodup_cons.mp apart).1 (List.mem_filterMap.mpr ⟨other, member, otherCloses⟩)

/-- However many legal payloads the store accepts, it stays orderly. -/
theorem Orderly.appendWithin {env : OpEnv} {payloads : List Payload} {workspaceId : String}
    (orderly : Orderly env.journal workspaceId) (fuse : Nat)
    (legal : ∀ payload ∈ payloads, Legal env.journal workspaceId payload)
    (apart : (payloads.filterMap closing).Nodup) :
    Orderly (stateAfter (Ingest.appendWithin fuse env payloads)).journal workspaceId := by
  rcases appendWithin_cases fuse env payloads with
    ⟨left, next, run, all⟩ | ⟨failure, done, rest, run, split, all⟩
  · rw [run]
    exact orderly.appendAll all legal apart
  · rw [run]
    refine orderly.appendAll all (fun payload member => legal payload ?_) ?_
    · rw [split]
      exact List.mem_append_left rest member
    · rw [split, List.filterMap_append] at apart
      exact (List.nodup_append.mp apart).1

/-- A payload on a stream of the workspace lies in it. -/
theorem inWorkspace_of_coordinate {payload : Payload} {entity workspaceId : String}
    (lies : coordinateOf payload = some ⟨entity, scopeForWorkspace workspaceId⟩) :
    InWorkspace workspaceId payload := by
  intro coordinate other
  rw [← Option.some.inj (lies.symm.trans other)]

/-- A payload about no claim and no conflict is legal anywhere. -/
theorem legal_inert {journal : Journal} {workspaceId : String} {payload : Payload}
    (here : InWorkspace workspaceId payload) (inert : lifecycleEntity payload = none) :
    Legal journal workspaceId payload where
  here := here
  truthful := by
    intro record carried
    cases payload with
    | claimSuperseded event => cases inert
    | conflictOpened event => cases inert
    | conflictResolved event => cases inert
    | _ => cases carried
  moves := by
    intro entity about
    rw [inert] at about
    cases about

/-- A payload that opens its entity is legal anywhere: where the entity has begun, it repeats. -/
theorem legal_opening {journal : Journal} {workspaceId : String} {payload : Payload}
    (here : InWorkspace workspaceId payload) (truthful : Truthful payload) {next : Nat}
    (opens : lifecycleEdge payload = some (0, next)) : Legal journal workspaceId payload where
  here := here
  truthful := truthful
  moves := fun _ _ => ⟨(0, next), opens, Or.inl rfl⟩

/-- An inert append leaves what is legal legal. -/
theorem Orderly.inert {env next : OpEnv} {payload : Payload} {workspaceId : String}
    (orderly : Orderly env.journal workspaceId) (appended : env.append payload = .ok next)
    (here : InWorkspace workspaceId payload) (inert : lifecycleEntity payload = none)
    {other : Payload} (legal : Legal env.journal workspaceId other) :
    Legal next.journal workspaceId other := by
  refine Legal.append appended orderly.conforming orderly.lawful (legal_inert here inert) legal ?_
  intro entity closes
  cases payload with
  | claimSuperseded event => cases inert
  | conflictResolved event => cases inert
  | _ => cases closes

/-- The run law of inert appends: they keep the store orderly and what is legal in it legal. -/
theorem Orderly.inertAll {env next : OpEnv} {payloads : List Payload} {workspaceId : String}
    (orderly : Orderly env.journal workspaceId) (appended : env.appendAll payloads = .ok next)
    (here : ∀ payload ∈ payloads, InWorkspace workspaceId payload)
    (inert : ∀ payload ∈ payloads, lifecycleEntity payload = none) :
    Orderly next.journal workspaceId ∧
      ∀ other, Legal env.journal workspaceId other → Legal next.journal workspaceId other := by
  induction payloads generalizing env with
  | nil =>
    have same : env = next := Except.ok.inj appended
    rw [← same]
    exact ⟨orderly, fun _ legal => legal⟩
  | cons payload rest ih =>
    rw [OpEnv.appendAll, List.foldlM_cons] at appended
    obtain ⟨middle, first, later⟩ := bind_eq_ok.mp appended
    have firstHere := here payload (by simp)
    have firstInert := inert payload (by simp)
    obtain ⟨ends, keeps⟩ := ih (orderly.append first (legal_inert firstHere firstInert)) later
      (fun other member => here other (by simp [member]))
      (fun other member => inert other (by simp [member]))
    exact ⟨ends, fun other legal =>
      keeps other (orderly.inert first firstHere firstInert legal)⟩

/-- A recording of a claim of the workspace is legal. -/
theorem legal_recorded (journal : Journal) {event : ClaimRecordedV2} {workspaceId : String}
    (here : event.workspaceId = workspaceId) :
    Legal journal workspaceId (.claimRecorded event) := by
  rw [← here]
  exact legal_opening (inWorkspace_of_coordinate rfl) (fun _ carried => by cases carried) rfl

/-- An opening of a conflict of the workspace is legal where its record says so. -/
theorem legal_opened (journal : Journal) {event : ConflictOpenedV2} {workspaceId : String}
    (here : event.workspaceId = workspaceId)
    (told : event.transition.previousState = 0 ∧ event.transition.nextState = 1) :
    Legal journal workspaceId (.conflictOpened event) := by
  rw [← here]
  refine legal_opening (inWorkspace_of_coordinate rfl) ?_ rfl
  intro record carried
  rw [← Option.some.inj carried, told.1, told.2]
  rfl

/-- A supersession of a listed current claim is legal. -/
theorem Orderly.superseded {journal : Journal} {workspaceId : String}
    (orderly : Orderly journal workspaceId) {event : ClaimSupersededV2}
    (here : event.workspaceId = workspaceId)
    (told : event.transition.previousState = 1 ∧ event.transition.nextState = 2) {card : ClaimCard}
    (listed : card ∈ (viewOf workspaceId journal).claims.map ClaimView.card)
    (current : card.phase = 1) (named : event.oldClaimId = card.claimId) :
    Legal journal workspaceId (.claimSuperseded event) where
  here := by
    rw [← here]
    exact inWorkspace_of_coordinate rfl
  truthful := by
    intro record carried
    rw [← Option.some.inj carried, told.1, told.2]
    rfl
  moves := by
    intro entity about
    obtain ⟨reached, _⟩ := orderly.lawful.claim orderly.conforming listed
    refine ⟨(1, 2), rfl, Or.inr ?_⟩
    rw [← Option.some.inj about, named, reached, current]

/-- A resolution of a listed open conflict is legal. -/
theorem Orderly.resolved {journal : Journal} {workspaceId : String}
    (orderly : Orderly journal workspaceId) {event : ConflictResolvedV2}
    (here : event.workspaceId = workspaceId) {target : Nat}
    (edge : lifecycleEdge (.conflictResolved event) = some (1, target))
    (told : event.transition.previousState = 1 ∧ event.transition.nextState = target)
    {card : ConflictCard} (listed : card ∈ (viewOf workspaceId journal).conflicts)
    (opened : card.phase = 1) (named : event.conflictId = card.conflictId) :
    Legal journal workspaceId (.conflictResolved event) where
  here := by
    rw [← here]
    exact inWorkspace_of_coordinate rfl
  truthful := by
    intro record carried
    rw [← Option.some.inj carried, told.1, told.2]
    exact edge
  moves := by
    intro entity about
    obtain ⟨reached, _⟩ := orderly.lawful.conflict orderly.conforming listed
    refine ⟨(1, target), edge, Or.inr ?_⟩
    rw [← Option.some.inj about, named, reached, opened]

/-- Appending one legal payload and taking its receipt keeps the store orderly. -/
theorem appendOne_orderly (fuse : Nat) (op : String) {env : OpEnv} {payload : Payload}
    {workspaceId : String} (orderly : Orderly env.journal workspaceId)
    (legal : Legal env.journal workspaceId payload) :
    match appendOne fuse op env payload with
    | .error failure => Orderly failure.left.journal workspaceId
    | .ok (_, _, taken) => Orderly taken.journal workspaceId := by
  have kept : Orderly (stateAfter (Ingest.appendWithin fuse env [payload])).journal workspaceId := by
    refine orderly.appendWithin fuse ?_ ?_
    · intro other member
      rw [List.mem_singleton.mp member]
      exact legal
    · cases found : closing payload with
      | none => simp [found]
      | some entity => simp [found]
  unfold appendOne
  revert kept
  cases Ingest.appendWithin fuse env [payload] with
  | error failure => exact id
  | ok pair =>
    intro kept
    simp only
    cases pair.2.receipts.getLast? with
    | none => exact kept
    | some receipt => exact kept

end Texo.Ops
