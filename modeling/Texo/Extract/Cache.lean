import Texo.Events.Ids
import Texo.Foundation.Memo
import Texo.Knowledge.Token
import Texo.Semantics.Pipeline

/-! # Record-once caches

The caches wrap a proposer and a relater: the first call over an input writes a record
under a digest of that input, and later calls under the same digest return the record
without touching the model. The digested material joins free text with two separator
characters, so inputs that contain them can share a digest.
-/
namespace Texo.Extract
open Texo.Events Texo.Foundation Texo.Knowledge Texo.Semantics

/-- Field separator mixed into cache key material. -/
def sep : String := "\x1f"

/-- Separator between heading-path frames. -/
def headingSep : String := "\x1e"

/-- One atomic claim proposed by an extractor. -/
structure ProposedClaim where
  text : String
  subject : String
  predicate : String
  object : String
  confidencePpm : Nat
deriving DecidableEq, Repr

/-- The relating backend and the identity of its output contract. -/
structure ClaimRelater (Failure : Type) where
  relate : String → String → Except Failure RelationVerdict
  fingerprint : String

/-- The proposing backend and the identity of its output contract. -/
structure Proposer (Failure : Type) where
  propose : String → List String → Except Failure (List ProposedClaim)
  fingerprint : String

/-- A relater behind a directory of records; its codec is the JSON of one verdict. -/
structure CachingRelater (Failure Bytes : Type) where
  inner : ClaimRelater Failure
  codec : RecordCodec RelationVerdict Bytes

/-- A proposer behind a directory of records; its codec is the JSON of its claims. -/
structure CachingProposer (Failure Bytes : Type) where
  inner : Proposer Failure
  codec : RecordCodec (List ProposedClaim) Bytes

/-- `path_for`: the file of one key. -/
def pathFor (key : String) : String := key ++ ".json"

/-- Distinct keys have distinct files. -/
@[simp] theorem pathFor_inj {left right : String} : pathFor left = pathFor right ↔ left = right := by
  unfold pathFor
  exact String.append_left_inj _

section
variable [Blake3] {Failure Bytes : Type}

/-- The material digested for an ordered pair. -/
def CachingRelater.material (relater : CachingRelater Failure Bytes) (older newer : String) :
    String :=
  relater.inner.fingerprint ++ sep ++ older ++ sep ++ newer

/-- `CachingRelater::cache_key`: content-addressed key for an ordered pair. -/
def CachingRelater.cacheKey (relater : CachingRelater Failure Bytes) (older newer : String) :
    String :=
  blake3HashHex (relater.material older newer)

/-- The material digested for a span under its headings. -/
def CachingProposer.material (proposer : CachingProposer Failure Bytes) (spanText : String)
    (headingPath : List String) : String :=
  proposer.inner.fingerprint ++ sep ++ headingSep.intercalate headingPath ++ sep ++ spanText

/-- `CachingProposer::cache_key`: content-addressed key for a span. -/
def CachingProposer.cacheKey (proposer : CachingProposer Failure Bytes) (spanText : String)
    (headingPath : List String) : String :=
  blake3HashHex (proposer.material spanText headingPath)

/-- One relate call, and whether `write_atomic` succeeds in it. -/
structure RelateCall where
  older : String
  newer : String
  written : Bool := true

/-- One propose call, and whether `write_atomic` succeeds in it. -/
structure ProposeCall where
  spanText : String
  headingPath : List String
  written : Bool := true

/-- A relate call as the directory sees it. -/
def CachingRelater.lookup (relater : CachingRelater Failure Bytes) (call : RelateCall) :
    MemoCall String Failure RelationVerdict where
  key := pathFor (relater.cacheKey call.older call.newer)
  fresh := relater.inner.relate call.older call.newer
  recorded := call.written

/-- A propose call as the directory sees it. -/
def CachingProposer.lookup (proposer : CachingProposer Failure Bytes) (call : ProposeCall) :
    MemoCall String Failure (List ProposedClaim) where
  key := pathFor (proposer.cacheKey call.spanText call.headingPath)
  fresh := proposer.inner.propose call.spanText call.headingPath
  recorded := call.written

/-- `CachingRelater::relate`: a record that reads back is the answer; otherwise the inner
relater is asked and its verdict recorded, a failed write being skipped. -/
def CachingRelater.relate (relater : CachingRelater Failure Bytes) (dir : Memo String Bytes)
    (call : RelateCall) : Except Failure RelationVerdict × Memo String Bytes :=
  dir.answer relater.codec (relater.lookup call)

/-- `CachingProposer::propose`: the same over a span and its headings. -/
def CachingProposer.propose (proposer : CachingProposer Failure Bytes) (dir : Memo String Bytes)
    (call : ProposeCall) : Except Failure (List ProposedClaim) × Memo String Bytes :=
  dir.answer proposer.codec (proposer.lookup call)

/-- `CachingRelater::evict`: the record of one ordered pair is removed, and the answer tells
whether there was one. -/
def CachingRelater.evict (relater : CachingRelater Failure Bytes) (dir : Memo String Bytes)
    (older newer : String) : Bool × Memo String Bytes :=
  let path := pathFor (relater.cacheKey older newer)
  ((dir path).isSome, Function.update dir path none)

/-- The answers of a list of relate calls. -/
def CachingRelater.answers (relater : CachingRelater Failure Bytes) :
    Memo String Bytes → List RelateCall → List (Except Failure RelationVerdict)
  | _, [] => []
  | dir, call :: rest =>
    (relater.relate dir call).1 :: relater.answers (relater.relate dir call).2 rest

/-- The answers of a list of propose calls. -/
def CachingProposer.answers (proposer : CachingProposer Failure Bytes) :
    Memo String Bytes → List ProposeCall → List (Except Failure (List ProposedClaim))
  | _, [] => []
  | dir, call :: rest =>
    (proposer.propose dir call).1 :: proposer.answers (proposer.propose dir call).2 rest

/-- Relate calls read the directory as their lookups do. -/
theorem CachingRelater.answers_eq (relater : CachingRelater Failure Bytes)
    (calls : List RelateCall) (dir : Memo String Bytes) :
    relater.answers dir calls = dir.answers relater.codec (calls.map relater.lookup) := by
  induction calls generalizing dir with
  | nil => rfl
  | cons call rest ih =>
    rw [CachingRelater.answers, ih]
    rfl

/-- Propose calls read the directory as their lookups do. -/
theorem CachingProposer.answers_eq (proposer : CachingProposer Failure Bytes)
    (calls : List ProposeCall) (dir : Memo String Bytes) :
    proposer.answers dir calls = dir.answers proposer.codec (calls.map proposer.lookup) := by
  induction calls generalizing dir with
  | nil => rfl
  | cons call rest ih =>
    rw [CachingProposer.answers, ih]
    rfl

/-- After an eviction, the next call over the pair is answered by the inner relater. -/
theorem CachingRelater.relate_evict (relater : CachingRelater Failure Bytes)
    (dir : Memo String Bytes) (call : RelateCall) :
    (relater.relate (relater.evict dir call.older call.newer).2 call).1 =
      relater.inner.relate call.older call.newer := by
  apply Memo.answer_miss
  simp [Memo.recall, CachingRelater.evict, CachingRelater.lookup]

/-- The call leaves a record that reads back. -/
def CachingRelater.Records (relater : CachingRelater Failure Bytes) (call : RelateCall) : Prop :=
  call.written = true ∧ ∃ verdict, relater.inner.relate call.older call.newer = .ok verdict ∧
    relater.codec.decode (relater.codec.encode verdict) = some verdict

/-- The call leaves a record that reads back. -/
def CachingProposer.Records (proposer : CachingProposer Failure Bytes) (call : ProposeCall) :
    Prop :=
  call.written = true ∧ ∃ claims, proposer.inner.propose call.spanText call.headingPath = .ok claims ∧
    proposer.codec.decode (proposer.codec.encode claims) = some claims

/-- A later call whose pair has the key of a recorded one has the same inner verdict. -/
def CachingRelater.KeysAgree (relater : CachingRelater Failure Bytes)
    (earlier later : RelateCall) : Prop :=
  relater.cacheKey earlier.older earlier.newer = relater.cacheKey later.older later.newer →
    relater.Records earlier →
      relater.inner.relate later.older later.newer = relater.inner.relate earlier.older earlier.newer

/-- A later call whose span has the key of a recorded one has the same inner claims. -/
def CachingProposer.KeysAgree (proposer : CachingProposer Failure Bytes)
    (earlier later : ProposeCall) : Prop :=
  proposer.cacheKey earlier.spanText earlier.headingPath =
      proposer.cacheKey later.spanText later.headingPath →
    proposer.Records earlier →
      proposer.inner.propose later.spanText later.headingPath =
        proposer.inner.propose earlier.spanText earlier.headingPath

/-- From an empty directory, every relate call returns the inner verdict exactly when the
calls whose pairs share a key agree. -/
theorem CachingRelater.answers_iff (relater : CachingRelater Failure Bytes)
    (calls : List RelateCall) :
    relater.answers (fun _ => none) calls =
        calls.map (fun call => relater.inner.relate call.older call.newer) ↔
      calls.Pairwise relater.KeysAgree := by
  rw [relater.answers_eq]
  have fresh : calls.map (fun call => relater.inner.relate call.older call.newer) =
      (calls.map relater.lookup).map MemoCall.fresh := by
    rw [List.map_map]
    rfl
  rw [fresh, Memo.answers_eq_fresh_iff, List.pairwise_map]
  simp only [MemoCall.Agrees, MemoCall.Kept, CachingRelater.lookup, pathFor_inj]
  rfl

/-- From an empty directory, every propose call returns the inner claims exactly when the
calls whose spans share a key agree. -/
theorem CachingProposer.answers_iff (proposer : CachingProposer Failure Bytes)
    (calls : List ProposeCall) :
    proposer.answers (fun _ => none) calls =
        calls.map (fun call => proposer.inner.propose call.spanText call.headingPath) ↔
      calls.Pairwise proposer.KeysAgree := by
  rw [proposer.answers_eq]
  have fresh : calls.map (fun call => proposer.inner.propose call.spanText call.headingPath) =
      (calls.map proposer.lookup).map MemoCall.fresh := by
    rw [List.map_map]
    rfl
  rw [fresh, Memo.answers_eq_fresh_iff, List.pairwise_map]
  simp only [MemoCall.Agrees, MemoCall.Kept, CachingProposer.lookup, pathFor_inj]
  rfl

/-- Both caches are transparent exactly on the calls whose shared keys agree: every call of
every list, from an empty directory, returns what the wrapped backend returns for its own
input if and only if no call shares its key with an earlier recorded call over which the
backend answers otherwise. -/
theorem cached_answers_iff (relater : CachingRelater Failure Bytes) (relateCalls : List RelateCall)
    (proposer : CachingProposer Failure Bytes) (proposeCalls : List ProposeCall) :
    (relater.answers (fun _ => none) relateCalls =
          relateCalls.map (fun call => relater.inner.relate call.older call.newer) ↔
        relateCalls.Pairwise relater.KeysAgree) ∧
      (proposer.answers (fun _ => none) proposeCalls =
          proposeCalls.map (fun call => proposer.inner.propose call.spanText call.headingPath) ↔
        proposeCalls.Pairwise proposer.KeysAgree) :=
  ⟨relater.answers_iff relateCalls, proposer.answers_iff proposeCalls⟩

omit [Blake3] in
/-- Two texts split at their first separator agree on both sides of it. -/
theorem split_at_separator {mark : Char} {left left' right right' : List Char}
    (plain : mark ∉ left) (plain' : mark ∉ left')
    (same : left ++ mark :: right = left' ++ mark :: right') : left = left' ∧ right = right' := by
  induction left generalizing left' with
  | nil =>
    cases left' with
    | nil => exact ⟨rfl, (List.cons.inj same).2⟩
    | cons head tail =>
      have first : mark = head := (List.cons.inj same).1
      exact absurd (first ▸ List.mem_cons_self) plain'
  | cons head tail ih =>
    cases left' with
    | nil =>
      have first : head = mark := (List.cons.inj same).1
      exact absurd (first ▸ List.mem_cons_self) plain
    | cons head' tail' =>
      rw [List.mem_cons, not_or] at plain plain'
      have heads : head = head' := (List.cons.inj same).1
      have tails := ih plain.2 plain'.2 (List.cons.inj same).2
      rw [heads, tails.1]
      exact ⟨rfl, tails.2⟩

/-- Without digest collisions, pairs whose older texts do not contain the separator have
their own keys. -/
theorem CachingRelater.cacheKey_inj (relater : CachingRelater Failure Bytes)
    (collisionFree : ∀ left right, blake3HashHex left = blake3HashHex right → left = right)
    {older newer older' newer' : String} (plain : '\x1f' ∉ older.toList)
    (plain' : '\x1f' ∉ older'.toList)
    (same : relater.cacheKey older newer = relater.cacheKey older' newer') :
    older = older' ∧ newer = newer' := by
  have materials : relater.material older newer = relater.material older' newer' :=
    collisionFree _ _ same
  have lists := congrArg String.toList materials
  simp only [CachingRelater.material, String.toList_append, List.append_assoc] at lists
  have joined : older.toList ++ '\x1f' :: newer.toList = older'.toList ++ '\x1f' :: newer'.toList :=
    List.append_cancel_left (List.append_cancel_left lists)
  have both := split_at_separator plain plain' joined
  exact ⟨String.toList_injective both.1, String.toList_injective both.2⟩

/-- Without digest collisions, a list of calls whose older texts do not contain the
separator is answered as the inner relater answers it. -/
theorem CachingRelater.answers_plain (relater : CachingRelater Failure Bytes)
    (collisionFree : ∀ left right, blake3HashHex left = blake3HashHex right → left = right)
    (calls : List RelateCall) (plain : ∀ call ∈ calls, '\x1f' ∉ call.older.toList) :
    relater.answers (fun _ => none) calls =
      calls.map (fun call => relater.inner.relate call.older call.newer) := by
  apply (relater.answers_iff calls).mpr
  apply List.Pairwise.imp_of_mem _ (List.pairwise_of_forall (R := fun _ _ => True) (by simp))
  intro earlier later earlierMember laterMember _ same _
  have pair := relater.cacheKey_inj collisionFree (plain earlier earlierMember)
    (plain later laterMember) same
  rw [pair.1, pair.2]

end

/-- A relater that lets every statement about tuesday supersede. -/
def tuesdayRelater : CachingRelater String RelationVerdict where
  inner :=
    { relate := fun _ newer =>
        .ok ⟨if newer = "tuesday" then .supersedes else .unrelated, 900000⟩
      fingerprint := "fp-1" }
  codec := ⟨id, some, fun same => (Option.some.inj same).symm⟩

/-- A proposer that proposes one claim about the last heading. -/
def headingProposer : CachingProposer String (List ProposedClaim) where
  inner :=
    { propose := fun spanText headingPath =>
        .ok [⟨spanText, headingPath.getLastD "untitled", "is", "set", 900000⟩]
      fingerprint := "fp-1" }
  codec := ⟨id, some, fun same => (Option.some.inj same).symm⟩

/-- Pairs whose joined texts coincide get each other's verdict, and a span under no heading
gets the claims of the same span under an empty one. -/
theorem shared_key_answers :
    let _ := numeralDigest
    tuesdayRelater.answers (fun _ => none)
          [⟨"friday\x1fmonday", "tuesday", true⟩, ⟨"friday", "monday\x1ftuesday", true⟩] ≠
        [tuesdayRelater.inner.relate "friday\x1fmonday" "tuesday",
          tuesdayRelater.inner.relate "friday" "monday\x1ftuesday"] ∧
      headingProposer.answers (fun _ => none) [⟨"ships", [], true⟩, ⟨"ships", [""], true⟩] ≠
        [headingProposer.inner.propose "ships" [], headingProposer.inner.propose "ships" [""]] := by
  let _ := numeralDigest
  constructor
  · intro same
    have pairs := (tuesdayRelater.answers_iff
      [⟨"friday\x1fmonday", "tuesday", true⟩, ⟨"friday", "monday\x1ftuesday", true⟩]).mp same
    have agree := List.rel_of_pairwise_cons pairs (List.mem_singleton_self _)
    have keys : tuesdayRelater.cacheKey "friday\x1fmonday" "tuesday" =
        tuesdayRelater.cacheKey "friday" "monday\x1ftuesday" :=
      congrArg blake3HashHex (by decide)
    have verdicts := agree keys ⟨rfl, _, rfl, rfl⟩
    exact absurd verdicts (by decide)
  · intro same
    have spans := (headingProposer.answers_iff [⟨"ships", [], true⟩, ⟨"ships", [""], true⟩]).mp same
    have agree := List.rel_of_pairwise_cons spans (List.mem_singleton_self _)
    have keys : headingProposer.cacheKey "ships" [] = headingProposer.cacheKey "ships" [""] :=
      congrArg blake3HashHex (by decide)
    have claims := agree keys ⟨rfl, _, rfl, rfl⟩
    exact absurd claims (by decide)

end Texo.Extract
