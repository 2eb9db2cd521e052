import Mathlib.Data.List.Pairwise
import Mathlib.Logic.Function.Basic

/-! # Record-once memos

A memo keeps one encoded record under each key. A call reads the record under its key
first; when none decodes, it computes a fresh answer and records it, if the record can
be written. Whether a memo is transparent depends only on the calls that share a key.
-/
namespace Texo.Foundation

/-- An encoding whose records read back as written, where they read back at all. -/
structure RecordCodec (Value Bytes : Type) where
  encode : Value → Bytes
  decode : Bytes → Option Value
  faithful : ∀ {value kept}, decode (encode value) = some kept → kept = value

/-- The encoded records by their keys. -/
abbrev Memo (Key Bytes : Type) := Key → Option Bytes

/-- One call: its key, the answer computed when no record decodes, and whether the
record of that answer can be written. -/
structure MemoCall (Key Failure Value : Type) where
  key : Key
  fresh : Except Failure Value
  recorded : Bool

variable {Key Bytes Failure Value : Type}

/-- The record of a key, decoded. -/
def Memo.recall (codec : RecordCodec Value Bytes) (memo : Memo Key Bytes) (key : Key) :
    Option Value :=
  (memo key).bind codec.decode

section
variable [DecidableEq Key]

/-- The answer of one call and the memo it leaves. -/
def Memo.answer (codec : RecordCodec Value Bytes) (memo : Memo Key Bytes)
    (call : MemoCall Key Failure Value) : Except Failure Value × Memo Key Bytes :=
  match memo.recall codec call.key with
  | some value => (.ok value, memo)
  | none =>
    match call.fresh with
    | .error failure => (.error failure, memo)
    | .ok value =>
      (.ok value,
        if call.recorded then Function.update memo call.key (some (codec.encode value)) else memo)

/-- The answers of a list of calls, each on the memo the calls before it left. -/
def Memo.answers (codec : RecordCodec Value Bytes) :
    Memo Key Bytes → List (MemoCall Key Failure Value) → List (Except Failure Value)
  | _, [] => []
  | memo, call :: rest =>
    (memo.answer codec call).1 :: Memo.answers codec (memo.answer codec call).2 rest

end

/-- The call leaves a record that reads back. -/
def MemoCall.Kept (codec : RecordCodec Value Bytes) (call : MemoCall Key Failure Value) : Prop :=
  call.recorded = true ∧ ∃ value, call.fresh = .ok value ∧
    codec.decode (codec.encode value) = some value

/-- A later call under the key of one that left a record would answer as that record. -/
def MemoCall.Agrees (codec : RecordCodec Value Bytes)
    (earlier later : MemoCall Key Failure Value) : Prop :=
  earlier.key = later.key → earlier.Kept codec → later.fresh = earlier.fresh

/-- The records of the memo are the fresh answers of the calls that read them. -/
def Memo.Serves (codec : RecordCodec Value Bytes) (memo : Memo Key Bytes)
    (calls : List (MemoCall Key Failure Value)) : Prop :=
  ∀ call ∈ calls, ∀ value, memo.recall codec call.key = some value → call.fresh = .ok value

variable [DecidableEq Key] {codec : RecordCodec Value Bytes} {memo : Memo Key Bytes}
  {call : MemoCall Key Failure Value}

/-- A call whose record decodes answers with it and leaves the memo. -/
theorem Memo.answer_hit {value : Value} (hit : memo.recall codec call.key = some value) :
    memo.answer codec call = (.ok value, memo) := by
  unfold Memo.answer
  rw [hit]

/-- A call without a record answers freshly. -/
theorem Memo.answer_miss (miss : memo.recall codec call.key = none) :
    (memo.answer codec call).1 = call.fresh := by
  unfold Memo.answer
  rw [miss]
  cases call.fresh with
  | error failure => rfl
  | ok value => rfl

/-- After a call without a record, its key reads back what the call left, and every other
key reads as before. -/
theorem Memo.recall_answer_miss (miss : memo.recall codec call.key = none) (key : Key)
    (value : Value) :
    (memo.answer codec call).2.recall codec key = some value ↔
      (key = call.key ∧ call.Kept codec ∧ call.fresh = .ok value) ∨
        (key ≠ call.key ∧ memo.recall codec key = some value) := by
  unfold Memo.answer
  rw [miss]
  have here : key = call.key → memo.recall codec key ≠ some value := by
    intro same
    rw [same, miss]
    simp
  cases computed : call.fresh with
  | error failure =>
    have unkept : ¬call.Kept codec := by
      intro kept
      obtain ⟨_, _, fresh, _⟩ := kept
      rw [computed] at fresh
      cases fresh
    by_cases same : key = call.key
    · simp [unkept, here same]
    · simp [same]
  | ok fresh =>
    have keptIff : call.Kept codec ↔
        call.recorded = true ∧ codec.decode (codec.encode fresh) = some fresh := by
      simp [MemoCall.Kept, computed]
    by_cases written : call.recorded = true
    · by_cases same : key = call.key
      · subst same
        have reads : Memo.recall codec
            (Function.update memo call.key (some (codec.encode fresh))) call.key =
              codec.decode (codec.encode fresh) := by
          simp [Memo.recall]
        dsimp only
        rw [if_pos written, reads, keptIff]
        constructor
        · intro decodes
          have exact_record : value = fresh := codec.faithful decodes
          subst exact_record
          exact Or.inl ⟨rfl, ⟨written, decodes⟩, rfl⟩
        · intro either
          cases either with
          | inl kept =>
            rw [kept.2.1.2, Except.ok.inj kept.2.2]
          | inr other => exact absurd rfl other.1
      · simp [written, same, Memo.recall]
    · have unkept : ¬call.Kept codec := fun kept => written kept.1
      by_cases same : key = call.key
      · simp [written, unkept, here same]
      · simp [written, same]

/-- From any memo, every call answers freshly exactly when the memo serves the calls and
the calls that share a key agree. -/
theorem Memo.answers_eq_fresh_iff_serves (calls : List (MemoCall Key Failure Value))
    (memo : Memo Key Bytes) :
    memo.answers codec calls = calls.map MemoCall.fresh ↔
      memo.Serves codec calls ∧ calls.Pairwise (MemoCall.Agrees codec) := by
  induction calls generalizing memo with
  | nil => simp [Memo.answers, Memo.Serves]
  | cons call rest ih =>
    rw [Memo.answers, List.map_cons, List.cons.injEq, ih, List.pairwise_cons]
    have split : memo.Serves codec (call :: rest) ↔
        (∀ value, memo.recall codec call.key = some value → call.fresh = .ok value) ∧
          memo.Serves codec rest := by
      simp [Memo.Serves]
    rw [split]
    cases recalled : memo.recall codec call.key with
    | some value =>
      rw [Memo.answer_hit recalled]
      constructor
      · rintro ⟨first, serves, agree⟩
        refine ⟨⟨fun other same => ?_, serves⟩, ?_, agree⟩
        · rw [← Option.some.inj same]
          exact first.symm
        · intro later member same _
          rw [serves later member value (same ▸ recalled)]
          exact first
      · rintro ⟨⟨first, serves⟩, _, agree⟩
        exact ⟨(first value rfl).symm, serves, agree⟩
    | none =>
      rw [Memo.answer_miss recalled]
      -- What the memo serves after the call: the record of the call to the calls of its
      -- key, and its old records to the others.
      have after : (memo.answer codec call).2.Serves codec rest ↔
          memo.Serves codec rest ∧ ∀ later ∈ rest, MemoCall.Agrees codec call later := by
        constructor
        · intro serves
          constructor
          · intro later member value reads
            have other : later.key ≠ call.key := by
              intro same
              rw [same, recalled] at reads
              cases reads
            exact serves later member value
              ((Memo.recall_answer_miss recalled later.key value).mpr (Or.inr ⟨other, reads⟩))
          · intro later member same kept
            obtain ⟨value, fresh, _⟩ := kept.2
            rw [fresh]
            exact serves later member value
              ((Memo.recall_answer_miss recalled later.key value).mpr
                (Or.inl ⟨same.symm, kept, fresh⟩))
        · rintro ⟨serves, agree⟩ later member value reads
          cases (Memo.recall_answer_miss recalled later.key value).mp reads with
          | inl own =>
            rw [agree later member own.1.symm own.2.1]
            exact own.2.2
          | inr other => exact serves later member value other.2
      rw [after]
      constructor
      · rintro ⟨_, ⟨serves, agree⟩, pairs⟩
        have none_read : ∀ value, none = some value → call.fresh = .ok value := by
          intro value reads
          cases reads
        exact ⟨⟨none_read, serves⟩, agree, pairs⟩
      · rintro ⟨⟨_, serves⟩, agree, pairs⟩
        exact ⟨rfl, ⟨serves, agree⟩, pairs⟩

/-- A memo that starts empty is transparent exactly when the calls that share a key with
an earlier recorded one would answer as that one did. -/
theorem Memo.answers_eq_fresh_iff (calls : List (MemoCall Key Failure Value)) :
    Memo.answers codec (fun _ : Key => none) calls = calls.map MemoCall.fresh ↔
      calls.Pairwise (MemoCall.Agrees codec) := by
  rw [Memo.answers_eq_fresh_iff_serves]
  have serves : Memo.Serves codec (fun _ : Key => (none : Option Bytes)) calls := by
    intro call _ value reads
    simp [Memo.recall] at reads
  simp [serves]

end Texo.Foundation
