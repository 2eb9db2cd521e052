import Mathlib.Data.List.Basic
import Mathlib.Data.String.Basic
import Std.Data.ExtTreeMap

/-! # Branded identifiers

Identifier parsing and derivation. A branded identifier is a string that carries
the proof of its leading brand, so a claim id can never stand where a conflict id
is expected. Content digests come from one parameter, `Blake3`; every derived
identifier is a bounded cut of such a digest.
-/
namespace Texo.Events

/-- `str::starts_with`, computed on characters. -/
def startsWith (value lead : String) : Bool := lead.toList.isPrefixOf value.toList

/-- A concatenation starts with its first part. -/
@[simp] theorem startsWith_append (lead rest : String) : startsWith (lead ++ rest) lead = true := by
  simp [startsWith]

/-- Failure to parse a branded identifier. -/
inductive IdParseError where
  | empty
  | badPrefix (expected : String)
  | invalidWorkspace
  | hashTooShort (min : Nat)
deriving DecidableEq, Repr

/-- An identifier string together with the proof of its brand. -/
structure Branded (lead : String) where
  /-- The whole identifier, brand included. -/
  value : String
  /-- Only branded strings are identifiers. -/
  branded : startsWith value lead = true
deriving DecidableEq

/-- Identifiers with one text are one identifier. -/
@[ext] theorem Branded.ext {lead : String} {a b : Branded lead} (same : a.value = b.value) :
    a = b := by
  cases a
  cases b
  cases same
  rfl

/-- Identifiers are ordered as their strings. -/
instance (lead : String) : Ord (Branded lead) := ⟨compareOn Branded.value⟩

instance (lead : String) : Std.TransOrd (Branded lead) :=
  inferInstanceAs (Std.TransCmp (compareOn Branded.value))

instance (lead : String) : Std.LawfulEqOrd (Branded lead) where
  compare_self := by
    intro id
    show compare id.value id.value = .eq
    exact Std.ReflCmp.compare_self
  eq_of_compare := by
    intro a b same
    have values : compare a.value b.value = .eq := same
    exact Branded.ext (Std.LawfulEqCmp.eq_of_compare values)

/-- `expect_prefix` followed by the unchecked constructor: the only fallible way
to an identifier. -/
def Branded.tryFrom (lead value : String) : Except IdParseError (Branded lead) :=
  if value = "" then
    .error .empty
  else if h : startsWith value lead = true then
    .ok ⟨value, h⟩
  else
    .error (.badPrefix lead)

/-- An identifier is not empty. -/
theorem Branded.value_ne_empty {lead : String} (id : Branded lead) (branded : lead ≠ "") :
    id.value ≠ "" := by
  intro empty
  have start := id.branded
  rw [empty, startsWith] at start
  have nothing : lead.toList = [] := by simpa using start
  exact branded (String.toList_eq_nil_iff.mp nothing)

/-- An identifier reads back as itself. -/
theorem Branded.tryFrom_value {lead : String} (id : Branded lead) (branded : lead ≠ "") :
    Branded.tryFrom lead id.value = .ok id := by
  have nonempty := id.value_ne_empty branded
  simp [Branded.tryFrom, nonempty, id.branded]

/-- A parsed identifier is the text it was parsed from. -/
theorem Branded.value_of_tryFrom {lead value : String} {id : Branded lead}
    (parsed : Branded.tryFrom lead value = .ok id) : id.value = value := by
  unfold Branded.tryFrom at parsed
  split at parsed
  · cases parsed
  · split at parsed
    · rw [← Except.ok.inj parsed]
    · cases parsed

/-- Branded `ClaimId` identifier. -/
abbrev ClaimId := Branded "claim_"

instance : LawfulBEq ClaimId := inferInstance

/-- Branded `SourceId` identifier. -/
abbrev SourceId := Branded "src_"

/-- Branded `ConflictId` identifier. -/
abbrev ConflictId := Branded "conflict_"

/-- Branded `RelationPairId` identifier. -/
abbrev RelationPairId := Branded "pair_"

/-- Stable repository identity scoped by configuration. -/
abbrev RepositoryId := Branded "repo_"

/-- Identity of one frozen source snapshot. -/
abbrev SourceSnapshotId := Branded "snapshot_"

/-- Identity of one exact occurrence of evidence. -/
abbrev EvidenceOccurrenceId := Branded "evidence_"

/-- Identity of one versioned code-intelligence index. -/
abbrev CodeIndexId := Branded "code_index_"

/-- `validate_workspace`: non-empty, without path separators or NUL. -/
def validateWorkspace (value : String) : Bool :=
  value ≠ "" && value.toList.all fun c => c ≠ '/' && c ≠ '\\' && c ≠ '\x00'

/-- Workspace scope identifier. -/
structure WorkspaceId where
  /-- The validated segment. -/
  value : String
  /-- Only path-safe segments name a workspace. -/
  valid : validateWorkspace value = true
deriving DecidableEq

/-- `WorkspaceId::new`: the fallible constructor. -/
def WorkspaceId.new (value : String) : Except IdParseError WorkspaceId :=
  if h : validateWorkspace value = true then .ok ⟨value, h⟩ else .error .invalidWorkspace

/-- The content digest of the program, `blake3::hash(..).to_hex()`. -/
class Blake3 where
  /-- Lowercase hexadecimal digest of raw bytes. -/
  hex : List UInt8 → String

/-- `str::as_bytes`: the UTF-8 bytes of a string. -/
def asBytes (text : String) : List UInt8 := text.toList.flatMap String.utf8EncodeChar

variable [Blake3]

/-- `blake3_hash_hex`: digest of a string. -/
def blake3HashHex (input : String) : String := Blake3.hex (asBytes input)

/-- `&digest[..count]`: a leading cut of a hexadecimal digest. -/
def cut (digest : String) (count : Nat) : String := String.ofList (digest.toList.take count)

/-- Number of body-hash hex characters carried in a derived source id. -/
def sourceIdHashLen : Nat := 12

/-- `source_id_from_hash`: a hash too short to cut is refused. -/
def sourceIdFromHash (bodyHashHex : String) : Except IdParseError SourceId :=
  if bodyHashHex.toList.length < sourceIdHashLen then
    .error (.hashTooShort sourceIdHashLen)
  else
    .ok ⟨"src_" ++ cut bodyHashHex sourceIdHashLen, startsWith_append _ _⟩

/-- `claim_id_from_parts`: deterministic claim id. -/
def claimIdFromParts (sourceId : SourceId) (lineStart : Nat) (normalizedText : String) : ClaimId :=
  let material := sourceId.value ++ toString lineStart ++ normalizedText
  ⟨"claim_" ++ cut (blake3HashHex material) 12, startsWith_append _ _⟩

/-- `conflict_id_from_pair`: deterministic conflict id of an unordered pair. -/
def conflictIdFromPair (a b : ClaimId) : ConflictId :=
  let material := if a.value ≤ b.value then a.value ++ b.value else b.value ++ a.value
  ⟨"conflict_" ++ cut (blake3HashHex material) 12, startsWith_append _ _⟩

/-- `relation_pair_id`: provider-neutral identity of an ordered logical pair. -/
def relationPairId (workspaceId : WorkspaceId) (older newer : ClaimId) : RelationPairId :=
  let material := workspaceId.value ++ "\x1f" ++ older.value ++ "\x1f" ++ newer.value
  ⟨"pair_" ++ cut (blake3HashHex material) 12, startsWith_append _ _⟩

/-- The conflict id does not depend on the order of its claims. -/
theorem conflictIdFromPair_comm (a b : ClaimId) : conflictIdFromPair a b = conflictIdFromPair b a := by
  unfold conflictIdFromPair
  by_cases forward : a.value ≤ b.value
  · by_cases backward : b.value ≤ a.value
    · rw [Branded.ext (le_antisymm forward backward)]
    · simp [forward, backward]
  · have backward : b.value ≤ a.value := le_of_not_ge forward
    simp [forward, backward]

end Texo.Events
