import Texo.Foundation.Interleaving
import Texo.Ingest.ConcurrentEnds

/-! # Orders of appends

However the appends of two session ends fall, the stream of a claim comes to hold its recording
and then the supersessions that name it: the one repeats of the other are no-ops, and no claim
is retired before it is recorded. What a claim ends as is thus decided by what each of the two
session ends retires, and that by the view it was served.
-/
namespace Texo.Ingest
open Texo.Events Texo.Store Texo.Claims Texo.Ops Texo.Foundation Texo.Sessions

/-- A stream holds the recording of a claim. -/
def RecordedIn (stream : List Payload) (workspaceId claimId : String) : Prop :=
  ∃ payload ∈ stream, lifecycleKey payload =
    some (.forOperation "texo.claim.recorded.v2" [workspaceId, claimId])

/-- An append keeps what a stream holds. -/
theorem mem_extendStream {entity : String} {stream : List Payload} {payload other : Payload}
    (held : other ∈ stream) : other ∈ extendStream entity stream payload := by
  unfold extendStream
  split
  · exact List.mem_append_left _ held
  · exact held

theorem RecordedIn.extend {entity workspaceId claimId : String} {stream : List Payload}
    (recorded : RecordedIn stream workspaceId claimId) (payload : Payload) :
    RecordedIn (extendStream entity stream payload) workspaceId claimId := by
  obtain ⟨held, member, key⟩ := recorded
  exact ⟨held, mem_extendStream member, key⟩

section
variable [Blake3]

/-- A recording leaves its key in the stream of its claim. -/
theorem recordedIn_extend_records {stream : List Payload} {workspaceId claimId : String}
    {payload : Payload} (recording : records claimId payload = true)
    (here : InWorkspace workspaceId payload) :
    RecordedIn (extendStream (entityForClaim claimId) stream payload) workspaceId claimId := by
  cases payload with
  | claimRecorded event =>
    have named : event.claimId = claimId := of_decide_eq_true recording
    have workspace := inWorkspace_claimRecorded.mp here
    unfold extendStream
    split
    · exact ⟨.claimRecorded event, by simp, by rw [lifecycleKey, named, workspace]⟩
    · rename_i idle
      have about : lifecycleEntity (.claimRecorded event) = some (entityForClaim claimId) := by
        rw [lifecycleEntity, named]
      have again : repeated stream (.claimRecorded event) = true := by
        rw [← Bool.not_eq_false]
        exact fun fresh => idle ⟨about, fresh⟩
      obtain ⟨other, member, same⟩ := List.any_eq_true.mp again
      refine ⟨other, member, ?_⟩
      rw [of_decide_eq_true same, lifecycleKey, named, workspace]
  | _ => cases recording

/-- A recording of a claim whose recording the stream holds is a repeat. -/
theorem extendStream_records {stream : List Payload} {workspaceId claimId : String}
    {payload : Payload} (recording : records claimId payload = true)
    (here : InWorkspace workspaceId payload)
    (recorded : RecordedIn stream workspaceId claimId) :
    extendStream (entityForClaim claimId) stream payload = stream := by
  cases payload with
  | claimRecorded event =>
    have named : event.claimId = claimId := of_decide_eq_true recording
    have workspace := inWorkspace_claimRecorded.mp here
    obtain ⟨held, member, key⟩ := recorded
    have again : repeated stream (.claimRecorded event) = true := by
      apply List.any_eq_true.mpr
      refine ⟨held, member, decide_eq_true ?_⟩
      rw [key, lifecycleKey, named, workspace]
    rw [extendStream, if_neg]
    rintro ⟨_, fresh⟩
    rw [again] at fresh
    cases fresh
  | _ => cases recording

omit [Blake3] in
/-- An append that neither records nor supersedes a claim leaves its stream alone. -/
theorem extendStream_idle {stream : List Payload} {claimId : String} {payload : Payload}
    (kind : Appendable payload) (recording : records claimId payload = false)
    (retiring : supersedes claimId payload = false) :
    extendStream (entityForClaim claimId) stream payload = stream := by
  rw [extendStream, if_neg]
  rintro ⟨about, _⟩
  cases payload with
  | claimRecorded event =>
    have named := entityForClaim_injective (Option.some.inj about)
    exact of_decide_eq_false recording named
  | claimSuperseded event =>
    have named := entityForClaim_injective (Option.some.inj about)
    exact of_decide_eq_false retiring named
  | sourceObserved event => cases about
  | _ => exact kind.elim

/-- Recordings of a claim whose recording the stream holds are repeats. -/
theorem foldl_records {stream : List Payload} {workspaceId claimId : String}
    {payloads : List Payload} (here : ∀ payload ∈ payloads, InWorkspace workspaceId payload)
    (recorded : RecordedIn stream workspaceId claimId) :
    (payloads.filter (records claimId)).foldl (extendStream (entityForClaim claimId)) stream =
      stream := by
  induction payloads with
  | nil => rfl
  | cons payload rest ih =>
    have later := ih fun other member => here other (by simp [member])
    by_cases recording : records claimId payload = true
    · rw [List.filter_cons_of_pos recording, List.foldl_cons,
        extendStream_records recording (here payload (by simp)) recorded, later]
    · rw [List.filter_cons_of_neg recording, later]

/-- Appends that never retire a claim before it is recorded lead its stream where its recordings
and then its supersessions lead it. -/
theorem foldl_extendStream {stream : List Payload} {workspaceId claimId : String}
    {payloads : List Payload} (kinds : ∀ payload ∈ payloads, Appendable payload)
    (here : ∀ payload ∈ payloads, InWorkspace workspaceId payload)
    (founded : RecordedIn stream workspaceId claimId ∨
      ∀ before payload after, payloads = before ++ payload :: after →
        supersedes claimId payload = true → ∃ recording ∈ before, records claimId recording = true) :
    payloads.foldl (extendStream (entityForClaim claimId)) stream =
      (payloads.filter (supersedes claimId)).foldl (extendStream (entityForClaim claimId))
        ((payloads.filter (records claimId)).foldl (extendStream (entityForClaim claimId))
          stream) := by
  induction payloads generalizing stream with
  | nil => rfl
  | cons payload rest ih =>
    have restKinds : ∀ other ∈ rest, Appendable other := fun other member =>
      kinds other (by simp [member])
    have restHere : ∀ other ∈ rest, InWorkspace workspaceId other := fun other member =>
      here other (by simp [member])
    rw [List.foldl_cons]
    by_cases recording : records claimId payload = true
    · have retiring : ¬ supersedes claimId payload = true := by
        cases payload with
        | claimRecorded event => exact Bool.false_ne_true
        | _ => cases recording
      rw [List.filter_cons_of_pos recording, List.filter_cons_of_neg retiring, List.foldl_cons]
      exact ih restKinds restHere
        (Or.inl (recordedIn_extend_records recording (here payload (by simp))))
    · rw [List.filter_cons_of_neg recording]
      by_cases retiring : supersedes claimId payload = true
      · have recorded : RecordedIn stream workspaceId claimId := by
          rcases founded with recorded | order
          · exact recorded
          · obtain ⟨_, nowhere, _⟩ := order [] payload rest rfl retiring
            cases nowhere
        rw [List.filter_cons_of_pos retiring, List.foldl_cons,
          ih restKinds restHere (Or.inl (recorded.extend payload)),
          foldl_records restHere (recorded.extend payload), foldl_records restHere recorded]
      · rw [List.filter_cons_of_neg retiring,
          extendStream_idle (kinds payload (by simp)) (Bool.not_eq_true _ ▸ recording)
            (Bool.not_eq_true _ ▸ retiring)]
        apply ih restKinds restHere
        rcases founded with recorded | order
        · exact Or.inl recorded
        · refine Or.inr fun before later after split retires => ?_
          obtain ⟨found, member, recorded⟩ := order (payload :: before) later after
            (by rw [split]; rfl) retires
          rcases List.mem_cons.mp member with same | earlier
          · rw [same] at recorded
            exact absurd recorded recording
          · exact ⟨found, earlier, recorded⟩

/-- A claim that is recorded for a workspace has its recording in its stream. -/
theorem recordedIn_stream {journal : Journal} (conforming : journal.Conforming)
    {workspaceId claimId : String} (recorded : Recorded (workspaceRows journal workspaceId) claimId) :
    RecordedIn (streamOf (workspaceRows journal workspaceId) (entityForClaim claimId)) workspaceId
      claimId := by
  obtain ⟨row, member, event, payload, workspace, named⟩ :=
    (recorded_iff_notes conforming workspaceId claimId).mp recorded
  have conforms := conforming row (Journal.mem_region.mp member).1
  have about : lifecycleEntity row.payload = some (entityForClaim claimId) := by
    rw [payload, lifecycleEntity, named]
  refine ⟨row.payload, mem_streamOf.mpr ⟨row, member, ?_, rfl⟩, ?_⟩
  · exact (writes_iff_lifecycle conforms (Or.inl (by simp))).mpr about
  · rw [payload, lifecycleKey, workspace, named]

namespace SessionEnds

omit [Blake3] in
/-- There are two sides. -/
theorem side_cases (side party : Side) : party = side ∨ party = side.other := by
  cases side <;> cases party <;> simp [Side.other]

omit [Blake3] in
@[simp] theorem side_other_other (side : Side) : side.other.other = side := by
  cases side <;> rfl

omit [Blake3] in
theorem side_other_ne (side : Side) : side.other ≠ side := by
  cases side <;> decide

/-- The supersession of a claim a session end appends, with claims of the other known. -/
def retirings (ends : SessionEnds) (side : Side) (journal : Journal) (known : List ClaimRecordedV2)
    (claimId : String) : List Payload :=
  ((ends.retires side journal known claimId).map fun made =>
    Payload.claimSuperseded (supersededEvent (ends.request side).observedAtMs made)).toList

/-- How the appends of two session ends fall when one of them is served its view on a journal and
the other later, behind some appends of the first. -/
structure Schedule (ends : SessionEnds) (journal : Journal) (first : Side)
    (trace seen : List (Side × Payload)) : Prop where
  earlier : seen <+: trace
  unserved : doneBy first.other seen = []
  own : doneBy first trace = ends.events first journal
  other : ∃ env : OpEnv,
    OpEnv.appendAll { workspaceId := ends.workspaceId, journal := journal } (seen.map Prod.snd) =
      .ok env ∧
    doneBy first.other trace = ends.events first.other env.journal

/-- What the other is served behind is the first's. -/
theorem Schedule.seen_own {ends : SessionEnds} {journal : Journal} {first : Side}
    {trace seen : List (Side × Payload)} (schedule : ends.Schedule journal first trace seen) :
    seen.map Prod.snd = doneBy first seen := by
  have all : (seen.map Prod.snd).filter (fun _ => true) =
      (doneBy first seen).filter (fun _ => true) :=
    filter_of_alone (side_cases first) (by rw [schedule.unserved]; rfl)
  simpa using all

/-- What the other is served behind is among the events of the first. -/
theorem Schedule.seen_members {ends : SessionEnds} {journal : Journal} {first : Side}
    {trace seen : List (Side × Payload)} (schedule : ends.Schedule journal first trace seen) :
    ∀ payload ∈ seen.map Prod.snd, payload ∈ ends.events first journal := by
  intro payload member
  rw [schedule.seen_own, mem_doneBy] at member
  rw [← schedule.own, mem_doneBy]
  exact schedule.earlier.mem member

/-- What the other is served: a sound journal, on which it plans what it planned before. -/
theorem Schedule.served {ends : SessionEnds} {journal : Journal} {first : Side}
    {trace seen : List (Side × Payload)} (schedule : ends.Schedule journal first trace seen)
    (conforming : journal.Conforming) (grounded : Grounded journal ends.workspaceId)
    (apart : ends.Apart journal) :
    ∃ env : OpEnv,
      OpEnv.appendAll { workspaceId := ends.workspaceId, journal := journal } (seen.map Prod.snd) =
        .ok env ∧
      env.journal.Conforming ∧ Grounded env.journal ends.workspaceId ∧
      ends.base first.other env.journal = ends.base first.other journal ∧
      doneBy first.other trace = ends.events first.other env.journal := by
  obtain ⟨env, appended, done⟩ := schedule.other
  obtain ⟨still, kept, based, _⟩ :=
    after_events conforming grounded apart schedule.seen_members appended
  exact ⟨env, appended, still, kept, based, done⟩

/-- Either party's appends are an ingest's and lie in the workspace. -/
theorem Schedule.kinds {ends : SessionEnds} {journal : Journal} {first : Side}
    {trace seen : List (Side × Payload)} (schedule : ends.Schedule journal first trace seen)
    (conforming : journal.Conforming) (grounded : Grounded journal ends.workspaceId)
    (apart : ends.Apart journal) :
    ∀ payload ∈ trace.map Prod.snd, Appendable payload ∧ InWorkspace ends.workspaceId payload := by
  obtain ⟨env, _, still, kept, _, done⟩ := schedule.served conforming grounded apart
  intro payload member
  obtain ⟨⟨side, _⟩, listed, rfl⟩ := List.mem_map.mp member
  have own := mem_doneBy.mpr listed
  rcases side_cases first side with rfl | rfl
  · rw [schedule.own] at own
    exact ends.events_kind _ conforming grounded own
  · rw [done] at own
    exact ends.events_kind _ still kept own

/-- The recordings of a session end are planned. -/
theorem records_events (ends : SessionEnds) (side : Side) {journal : Journal}
    (conforming : journal.Conforming) (grounded : Grounded journal ends.workspaceId)
    (claimId : String) :
    (ends.events side journal).filter (records claimId) =
      (ends.base side journal).filter (records claimId) := by
  obtain ⟨applied, whole, _, _⟩ := ends.events_spec side conforming grounded
  have none : (applied.map Payload.claimSuperseded).filter (records claimId) = [] := by
    rw [List.filter_eq_nil_iff]
    intro payload member
    obtain ⟨event, _, rfl⟩ := List.mem_map.mp member
    exact Bool.false_ne_true
  rw [whole, List.filter_append, none, List.append_nil]

/-- A claim a session end does not record has no recording in its plan. -/
theorem base_unclaimed {ends : SessionEnds} {side : Side} {journal : Journal} {claimId : String}
    (unclaimed : claimId ∉ (ends.claims side journal).map ClaimRecordedV2.claimId) :
    (ends.base side journal).filter (records claimId) = [] := by
  rw [List.filter_eq_nil_iff]
  intro payload member recording
  cases payload with
  | claimRecorded event =>
    apply unclaimed
    rw [← (of_decide_eq_true recording : event.claimId = claimId)]
    exact List.mem_map_of_mem (List.mem_filterMap.mpr ⟨_, member, rfl⟩)
  | _ => cases recording

/-- A claim is recorded by at most one of the two session ends. -/
theorem base_either {ends : SessionEnds} {journal : Journal} (apart : ends.Apart journal)
    (side : Side) (claimId : String) :
    (ends.base side journal).filter (records claimId) = [] ∨
      (ends.base side.other journal).filter (records claimId) = [] := by
  by_cases claimed : claimId ∈ (ends.claims side journal).map ClaimRecordedV2.claimId
  · exact Or.inr (base_unclaimed (apart.claims_other side claimed))
  · exact Or.inl (base_unclaimed claimed)

/-- The recordings of a claim under a schedule. -/
theorem Schedule.filter_records {ends : SessionEnds} {journal : Journal} {first : Side}
    {trace seen : List (Side × Payload)} (schedule : ends.Schedule journal first trace seen)
    (conforming : journal.Conforming) (grounded : Grounded journal ends.workspaceId)
    (apart : ends.Apart journal) (claimId : String) :
    (trace.map Prod.snd).filter (records claimId) =
      (ends.base first journal).filter (records claimId) ++
        (ends.base first.other journal).filter (records claimId) := by
  obtain ⟨env, _, still, kept, based, done⟩ := schedule.served conforming grounded apart
  have own : (doneBy first trace).filter (records claimId) =
      (ends.base first journal).filter (records claimId) := by
    rw [schedule.own, ends.records_events first conforming grounded]
  have other : (doneBy first.other trace).filter (records claimId) =
      (ends.base first.other journal).filter (records claimId) := by
    rw [done, ends.records_events first.other still kept, based]
  rw [filter_of_either (side_cases first), own, other]
  rw [own, other]
  exact base_either apart first claimId

/-- The supersessions of a claim under a schedule. -/
theorem Schedule.filter_supersedes {ends : SessionEnds} {journal : Journal} {first : Side}
    {trace seen : List (Side × Payload)} (schedule : ends.Schedule journal first trace seen)
    (conforming : journal.Conforming) (grounded : Grounded journal ends.workspaceId)
    (apart : ends.Apart journal) (unentangled : ends.Unentangled journal) (claimId : String) :
    (trace.map Prod.snd).filter (supersedes claimId) =
      ends.retirings first journal [] claimId ++
        ends.retirings first.other journal (recordings (seen.map Prod.snd)) claimId := by
  obtain ⟨env, appended, still, kept, _, done⟩ := schedule.served conforming grounded apart
  have own : (doneBy first trace).filter (supersedes claimId) =
      ends.retirings first journal [] claimId := by
    rw [schedule.own, ends.supersedes_events first conforming grounded]
    rfl
  have other : (doneBy first.other trace).filter (supersedes claimId) =
      ends.retirings first.other journal (recordings (seen.map Prod.snd)) claimId := by
    rw [done, ends.supersedes_events first.other still kept, retirings,
      ← retires_after conforming grounded apart unentangled schedule.seen_members appended]
    rfl
  rw [filter_of_either (side_cases first), own, other]
  rw [own, other]
  cases retired : ends.retires first journal [] claimId with
  | none => exact Or.inl (by rw [retirings, retired]; rfl)
  | some made =>
    right
    have recorded : Recorded (workspaceRows journal ends.workspaceId) claimId := by
      by_contra unrecorded
      have unknown : claimId ∉ ([] : List ClaimRecordedV2).map ClaimRecordedV2.claimId := by simp
      have never := retirement_unknown unrecorded unknown (ends.candidates first journal)
      rw [retires, never] at retired
      cases retired
    have never := unentangled.once_other first (by rw [retired]; rfl)
    unfold retires at never
    rw [retirings, retires, retirement_recorded recorded, never]
    rfl

/-- Under a schedule no claim is retired before it is recorded. -/
theorem Schedule.founded {ends : SessionEnds} {journal : Journal} {first : Side}
    {trace seen : List (Side × Payload)} (schedule : ends.Schedule journal first trace seen)
    (conforming : journal.Conforming) (grounded : Grounded journal ends.workspaceId)
    (apart : ends.Apart journal) (claimId : String) :
    RecordedIn (streamOf (workspaceRows journal ends.workspaceId) (entityForClaim claimId))
        ends.workspaceId claimId ∨
      ∀ before payload after, trace.map Prod.snd = before ++ payload :: after →
        supersedes claimId payload = true → ∃ recording ∈ before, records claimId recording = true := by
  by_cases recorded : Recorded (workspaceRows journal ends.workspaceId) claimId
  · exact Or.inl (recordedIn_stream conforming recorded)
  right
  intro before payload after split retiring
  obtain ⟨env, appended, still, kept, _, done⟩ := schedule.served conforming grounded apart
  obtain ⟨early, rest, whole, rfl, tail⟩ := List.map_eq_append_iff.mp split
  obtain ⟨⟨side, own⟩, later, rfl, rfl, rfl⟩ := List.map_eq_cons_iff.mp tail
  have listed : (side, own) ∈ trace := by rw [whole]; simp
  have retired : ∀ {shown : Journal}, shown.Conforming → Grounded shown ends.workspaceId →
      own ∈ ends.events side shown → Recorded (workspaceRows shown ends.workspaceId) claimId := by
    intro shown sound based member
    rcases ends.events_member side sound based member with
      planned | ⟨made, old, rfl, named, _, known, _⟩
    · rw [((ends.base_spec side sound based).1 own planned).2.2 claimId] at retiring
      cases retiring
    · have same : made.oldClaimId.value = claimId := of_decide_eq_true retiring
      rw [← same, named]
      exact known
  rcases side_cases first side with rfl | rfl
  · have member := mem_doneBy.mpr listed
    rw [schedule.own] at member
    exact absurd (retired conforming grounded member) recorded
  · have member := mem_doneBy.mpr listed
    rw [done] at member
    have known := retired still kept member
    have behind : seen <+: early := by
      apply List.prefix_of_prefix_length_le schedule.earlier ⟨_, whole.symm⟩
      by_contra longer
      have more : early ++ [(first.other, own)] <+: seen := by
        apply List.prefix_of_prefix_length_le ⟨later, by rw [whole]; simp⟩ schedule.earlier
        simp only [List.length_append, List.length_singleton]
        omega
      have inside : own ∈ doneBy first.other seen := mem_doneBy.mpr (more.mem (by simp))
      rw [schedule.unserved] at inside
      cases inside
    rw [recorded_iff_notes still] at known
    obtain ⟨_, _, _, notes⟩ := OpEnv.appendAll_spec appended conforming
    rcases (notes _).mp known with earlier | ⟨told, inSeen, event, same, _, named⟩
    · exact absurd ((recorded_iff_notes conforming _ _).mpr earlier) recorded
    · refine ⟨told, ?_, ?_⟩
      · obtain ⟨work, member, snd⟩ := List.mem_map.mp inSeen
        rw [← snd]
        exact List.mem_map_of_mem (behind.mem member)
      · rw [same]
        exact decide_eq_true named

/-- The stream of a claim once both session ends are served, by what each of them retires. -/
def settledStream (ends : SessionEnds) (journal : Journal) (first : Side)
    (known : List ClaimRecordedV2) (claimId : String) : List Payload :=
  (ends.retirings first journal [] claimId ++
      ends.retirings first.other journal known claimId).foldl
    (extendStream (entityForClaim claimId))
    (((ends.base first journal).filter (records claimId) ++
        (ends.base first.other journal).filter (records claimId)).foldl
      (extendStream (entityForClaim claimId))
      (streamOf (workspaceRows journal ends.workspaceId) (entityForClaim claimId)))

/-- The stream a schedule leads a claim to. -/
theorem Schedule.stream {ends : SessionEnds} {journal : Journal} {first : Side}
    {trace seen : List (Side × Payload)} (schedule : ends.Schedule journal first trace seen)
    (conforming : journal.Conforming) (grounded : Grounded journal ends.workspaceId)
    (apart : ends.Apart journal) (unentangled : ends.Unentangled journal) {final : OpEnv}
    (appended : OpEnv.appendAll { workspaceId := ends.workspaceId, journal := journal }
      (trace.map Prod.snd) = .ok final) (claimId : String) :
    streamOf (workspaceRows final.journal ends.workspaceId) (entityForClaim claimId) =
      ends.settledStream journal first (recordings (seen.map Prod.snd)) claimId := by
  have kinds := schedule.kinds conforming grounded apart
  have grown := streamOf_appendAll appended conforming (fun payload member => (kinds payload member).2)
    (Or.inl (by simp : CardFamily.of (entityForClaim claimId) = some .claim))
  have sorted := foldl_extendStream
    (fun payload member => (kinds payload member).1) (fun payload member => (kinds payload member).2)
    (schedule.founded conforming grounded apart claimId)
  rw [settledStream, ← schedule.filter_supersedes conforming grounded apart unentangled,
    ← schedule.filter_records conforming grounded apart]
  exact grown.trans sorted

end SessionEnds

end

end Texo.Ingest
