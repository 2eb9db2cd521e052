import Mathlib.Data.Set.Card
import Texo.Foundation.Folds
import Texo.Store.Policy

/-! # How appends grow a journal

Appends only add rows, each with a payload that was appended, and leave every appended payload
committed. A used identity adds nothing, so the rows of a kind grow by the identities that no
row had before and not by the number of appends.
-/
namespace Texo.Store
open Texo.Events Texo.Foundation

/-- Rows of one kind. -/
def Journal.countOf (journal : Journal) (kind : EventKind) : Nat :=
  journal.entries.countP fun entry => entry.payload.kind = kind

/-- No row was committed under an identity. -/
def Journal.Unused (journal : Journal) (id : EventId) : Prop :=
  ∀ entry ∈ journal.entries, entry.eventId ≠ id

variable [Blake3]

/-- What a run of appends adds: rows with the appended payloads. -/
theorem OpEnv.appendAll_rows {env next : OpEnv} {payloads : List Payload}
    (appended : env.appendAll payloads = .ok next) :
    ∃ rows, next.journal.entries = env.journal.entries ++ rows ∧
      ∀ row ∈ rows, row.payload ∈ payloads := by
  induction payloads generalizing env with
  | nil =>
    have same : env = next := Except.ok.inj appended
    exact ⟨[], by simp [same], by simp⟩
  | cons payload rest ih =>
    rw [OpEnv.appendAll, List.foldlM_cons] at appended
    obtain ⟨middle, first, later⟩ := bind_eq_ok.mp appended
    obtain ⟨rows, grown, carried⟩ := ih later
    obtain ⟨_, ⟨_, _, unchanged, _⟩ | ⟨entry, added, carries, _⟩⟩ := OpEnv.append_cases first
    · refine ⟨rows, by rw [grown, unchanged], ?_⟩
      intro row member
      exact List.mem_cons_of_mem _ (carried row member)
    · refine ⟨entry :: rows, by rw [grown, added, List.append_assoc]; rfl, ?_⟩
      intro row member
      rcases List.mem_cons.mp member with rfl | member
      · rw [carries]
        exact List.mem_cons_self
      · exact List.mem_cons_of_mem _ (carried row member)

/-- An appended payload is committed: some row has an identity of it. -/
theorem OpEnv.append_committed {env next : OpEnv} {payload : Payload}
    (appended : env.append payload = .ok next) (conforming : env.journal.Conforming) :
    ∃ row ∈ next.journal.entries, Admissible payload row.eventId := by
  obtain ⟨_, ⟨entry, member, unchanged, why⟩ | ⟨entry, added, carries, conforms⟩⟩ :=
    OpEnv.append_cases appended
  · refine ⟨entry, by rw [unchanged]; exact member, ?_⟩
    rcases why with admissible | carries
    · exact admissible
    · rw [← carries]
      exact (conforming entry member).admissible
  · refine ⟨entry, by rw [added]; simp, ?_⟩
    rw [← carries]
    exact conforms.admissible

/-- A run of appends leaves each of its payloads committed. -/
theorem OpEnv.appendAll_committed {env next : OpEnv} {payloads : List Payload}
    (appended : env.appendAll payloads = .ok next) (conforming : env.journal.Conforming)
    {payload : Payload} (member : payload ∈ payloads) :
    ∃ row ∈ next.journal.entries, Admissible payload row.eventId := by
  induction payloads generalizing env with
  | nil => cases member
  | cons head rest ih =>
    rw [OpEnv.appendAll, List.foldlM_cons] at appended
    obtain ⟨middle, first, later⟩ := bind_eq_ok.mp appended
    have still := (OpEnv.append_conforming first conforming).2
    rcases List.mem_cons.mp member with rfl | inside
    · obtain ⟨row, there, admissible⟩ := OpEnv.append_committed first conforming
      exact ⟨row, (OpEnv.appendAll_spec later still).2.1.mem there, admissible⟩
    · exact ih later still inside

/-- The growth law: the rows of a kind grow by the identities of its payloads that were unused. -/
theorem OpEnv.appendAll_countOf {env next : OpEnv} {payloads : List Payload} {kind : EventKind}
    (appended : env.appendAll payloads = .ok next) (conforming : env.journal.Conforming)
    (operation : domainOperation kind ≠ none)
    (keyed : ∀ payload ∈ payloads, payload.kind = kind → ∀ one other, Admissible payload one →
      Admissible payload other → one = other) :
    next.journal.countOf kind = env.journal.countOf kind +
      {id | env.journal.Unused id ∧ ∃ payload ∈ payloads, payload.kind = kind ∧
        Admissible payload id}.ncard := by
  obtain ⟨rows, grown, carried⟩ := OpEnv.appendAll_rows appended
  have still := (OpEnv.appendAll_spec appended conforming).2.2.1
  have nodup := next.journal.distinct
  rw [grown, List.map_append] at nodup
  obtain ⟨_, rowsNodup, apart⟩ := List.nodup_append.mp nodup
  let ofKind := rows.filter fun row => row.payload.kind = kind
  have ids : {id | env.journal.Unused id ∧ ∃ payload ∈ payloads, payload.kind = kind ∧
      Admissible payload id} = ((ofKind.map Entry.eventId).toFinset : Set EventId) := by
    ext id
    simp only [Set.mem_ofPred_eq, Finset.mem_coe, List.mem_toFinset, List.mem_map]
    constructor
    · intro ⟨unused, payload, member, same, admissible⟩
      obtain ⟨row, inside, named⟩ := OpEnv.appendAll_committed appended conforming member
      have equal : row.eventId = id := keyed payload member same _ _ named admissible
      rw [grown] at inside
      rcases List.mem_append.mp inside with early | late
      · exact absurd equal (unused row early)
      · have own := (still row (by rw [grown]; exact List.mem_append_right _ late)).admissible
        have alike := kind_of_admissible named (by rw [same]; exact operation) own
        exact ⟨row, List.mem_filter.mpr ⟨late, decide_eq_true (alike.trans same)⟩, equal⟩
    · intro ⟨row, member, equal⟩
      obtain ⟨late, same⟩ := List.mem_filter.mp member
      refine ⟨?_, row.payload, carried row late, of_decide_eq_true same, ?_⟩
      · intro entry early clash
        exact apart _ (List.mem_map_of_mem early) _ (List.mem_map_of_mem late)
          (clash.trans equal.symm)
      · rw [← equal]
        exact (still row (by rw [grown]; exact List.mem_append_right _ late)).admissible
  have distinct : (ofKind.map Entry.eventId).Nodup :=
    rowsNodup.sublist (List.filter_sublist.map Entry.eventId)
  have size : (ofKind.map Entry.eventId).length = rows.countP fun row => row.payload.kind = kind := by
    rw [List.length_map, List.countP_eq_length_filter]
  rw [ids, Set.ncard_coe_finset, List.toFinset_card_of_nodup distinct, size]
  show next.journal.entries.countP _ = env.journal.entries.countP _ + _
  rw [grown, List.countP_append]

/-- What the rows of a kind tell: one statement and one identity for each label. -/
structure Register (kind : EventKind) (Label : Type) where
  scope : String
  statement : Label → Statement scope
  key : Label → EventId
  injective : Function.Injective key
  named : ∀ label payload id, (statement label).tells payload →
    (Admissible payload id ↔ id = key label)
  ofKind : ∀ label payload, (statement label).tells payload → payload.kind = kind

namespace Register
variable {kind : EventKind} {Label : Type}

/-- The labels a journal notes. -/
def noted (register : Register kind Label) (journal : Journal) : Set Label :=
  {label | journal.Notes (register.statement label)}

/-- The labels some payloads tell. -/
def told (register : Register kind Label) (payloads : List Payload) : Set Label :=
  {label | ∃ payload ∈ payloads, (register.statement label).tells payload}

/-- The identity of a told label is unused exactly where the label is not noted. -/
theorem unused_iff (register : Register kind Label) {journal : Journal}
    (conforming : journal.Conforming) {label : Label} {payload : Payload}
    (tells : (register.statement label).tells payload) :
    journal.Unused (register.key label) ↔ label ∉ register.noted journal := by
  have own : Admissible payload (register.key label) :=
    (register.named label payload _ tells).mpr rfl
  constructor
  · rintro unused ⟨row, member, also⟩
    have inside := (Journal.mem_region.mp member).1
    have admissible := (conforming row inside).admissible
    exact unused row inside ((register.named label row.payload _ also).mp admissible)
  · intro missing row member same
    apply missing
    have admissible := (conforming row member).admissible
    rw [same] at admissible
    have keyed := (register.statement label).keyed payload tells
    have also := (register.statement label).stable payload row.payload _ tells own admissible
      (kind_of_admissible own keyed admissible)
    obtain ⟨entity, lies⟩ := (register.statement label).placed row.payload also
    have inScope := congrArg Coordinate.scope ((conforming row member).placed _ lies)
    exact ⟨row, Journal.mem_region.mpr ⟨member, inScope.symm⟩, also⟩

/-- The growth law of registers: the rows of a kind grow by the told labels that were not noted. -/
theorem appendAll_countOf (register : Register kind Label) {env next : OpEnv}
    {payloads : List Payload} (appended : env.appendAll payloads = .ok next)
    (conforming : env.journal.Conforming)
    (labelled : ∀ payload ∈ payloads, payload.kind = kind →
      ∃ label, (register.statement label).tells payload) (operation : domainOperation kind ≠ none) :
    next.journal.countOf kind = env.journal.countOf kind +
      (register.told payloads \ register.noted env.journal).ncard := by
  have keyed : ∀ payload ∈ payloads, payload.kind = kind → ∀ one other, Admissible payload one →
      Admissible payload other → one = other := by
    intro payload member same one other first second
    obtain ⟨label, tells⟩ := labelled payload member same
    have left := (register.named label payload one tells).mp first
    have right := (register.named label payload other tells).mp second
    rw [left, right]
  rw [OpEnv.appendAll_countOf appended conforming operation keyed]
  have image : {id | env.journal.Unused id ∧ ∃ payload ∈ payloads, payload.kind = kind ∧
      Admissible payload id} =
      register.key '' (register.told payloads \ register.noted env.journal) := by
    ext id
    constructor
    · rintro ⟨unused, payload, member, same, admissible⟩
      obtain ⟨label, tells⟩ := labelled payload member same
      have equal := (register.named label payload id tells).mp admissible
      rw [equal] at unused
      exact ⟨label, ⟨⟨payload, member, tells⟩, (register.unused_iff conforming tells).mp unused⟩,
        equal.symm⟩
    · rintro ⟨label, ⟨⟨payload, member, tells⟩, missing⟩, equal⟩
      rw [← equal]
      exact ⟨(register.unused_iff conforming tells).mpr missing, payload, member,
        register.ofKind label payload tells, (register.named label payload _ tells).mpr rfl⟩
  rw [image, Set.ncard_image_of_injective _ register.injective]

end Register

end Texo.Store
