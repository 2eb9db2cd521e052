import Texo.Foundation.Fields
import Texo.Foundation.Folds
import Texo.Knowledge.Contracts

/-! # Snapshot tokens

A token writes a snapshot descriptor as text: version, frontier, anchor, source snapshot and
the leading half of a digest over all of them. Workspace and journal enter the digest only, so
a token says nothing about them and yet is bound to both.
-/
namespace Texo.Knowledge
open Texo.Events Texo.Foundation

/-- Characters of a portable identifier: ASCII letters, digits, `_` and `-`. -/
def identifierChar (c : Char) : Bool := c.isAlphanum || c = '_' || c = '-'

/-- The checks of `JournalId::new`: portable characters and dots, at most 128 bytes. -/
def validateJournalId (value : String) : Bool :=
  value ≠ "" && value.utf8ByteSize ≤ 128 && value.toList.all fun c => identifierChar c || c = '.'

/-- Stable identity of one physical journal. -/
structure JournalId where
  /-- The validated identifier. -/
  value : String
  /-- Only portable identifiers name a journal. -/
  valid : validateJournalId value = true
deriving DecidableEq

/-- Failure to construct a knowledge contract value. -/
inductive KnowledgeContractError where
  | invalidIdentifier (kind : String)
  | invalidDigest (field : String) (length : Nat)
  | reversedRange (first last : Nat)
  | invalidLineRange (first last : Nat)
  | excerptTooLarge (actual maximum : Nat)
deriving DecidableEq, Repr

/-- `validate_lower_hex`. -/
def validateLowerHex (field value : String) (length : Nat) : Except KnowledgeContractError Unit :=
  require (isLowerHex value length = true) (.invalidDigest field length)

/-- The shape `knowledge_id!::parse` accepts: the lead, something after it, portable
characters only. -/
def wellFormedId (lead value : String) : Bool :=
  startsWith value lead && lead.utf8ByteSize < value.utf8ByteSize && value.toList.all identifierChar

/-- `SourceSnapshotId::parse`. -/
def SourceSnapshotId.parse (value : String) : Except KnowledgeContractError SourceSnapshotId :=
  if h : startsWith value "snapshot_" = true then
    if wellFormedId "snapshot_" value = true then
      .ok ⟨value, h⟩
    else
      .error (.invalidIdentifier "SourceSnapshotId")
  else
    .error (.invalidIdentifier "SourceSnapshotId")

/-- Descriptor bound by a snapshot token. -/
structure SnapshotDescriptor where
  workspaceId : WorkspaceId
  journalId : JournalId
  frontier : Nat
  anchorEventIdHex : String
  sourceSnapshotId : Option SourceSnapshotId
deriving DecidableEq

/-- The anchor as a token writes it. -/
def anchorField (anchorEventIdHex : String) : String :=
  if anchorEventIdHex = "" then "-" else anchorEventIdHex

/-- The source snapshot as a token writes it. -/
def sourceField (sourceSnapshotId : Option SourceSnapshotId) : String :=
  match sourceSnapshotId with
  | none => "none"
  | some snapshotId => snapshotId.value

/-- The text whose digest binds a token to its coordinates. -/
def tokenMaterial (workspaceId : WorkspaceId) (journalId : JournalId) (frontier : Nat)
    (anchor source : String) : String :=
  String.intercalate "\x1f" ["texo.snapshot-token.v2", workspaceId.value, journalId.value,
    toString frontier, anchor, source]

/-- The material of a descriptor's token. -/
def SnapshotDescriptor.material (descriptor : SnapshotDescriptor) : String :=
  tokenMaterial descriptor.workspaceId descriptor.journalId descriptor.frontier
    (anchorField descriptor.anchorEventIdHex) (sourceField descriptor.sourceSnapshotId)

/-- A descriptor its fields' types and the readers of its coordinates allow: the frontier is a
`u64`, the anchor is empty or an event id, and the source snapshot parses. -/
structure SnapshotDescriptor.WellFormed (descriptor : SnapshotDescriptor) : Prop where
  frontier : descriptor.frontier < 2 ^ 64
  anchor : descriptor.anchorEventIdHex = "" ∨ isLowerHex descriptor.anchorEventIdHex 32 = true
  source : ∀ snapshotId, descriptor.sourceSnapshotId = some snapshotId →
    wellFormedId "snapshot_" snapshotId.value = true

/-- `invalid`: the refusal of a malformed token. -/
def invalidToken : KnowledgeContractError := .invalidIdentifier "SnapshotToken"

/-- `fields.next().ok_or_else(invalid)`: the next field and those after it. -/
def nextField : List String → Except KnowledgeContractError (String × List String)
  | [] => .error invalidToken
  | field :: rest => .ok (field, rest)

/-- `str::parse::<u64>` with its error replaced. -/
def parseFrontier (text : String) : Except KnowledgeContractError Nat :=
  match parseUnsigned (2 ^ 64) text.toList with
  | none => .error invalidToken
  | some frontier => .ok frontier

/-- The source snapshot a token names. -/
def parseSource (source : String) : Except KnowledgeContractError (Option SourceSnapshotId) :=
  if source = "none" then .ok none else (SourceSnapshotId.parse source).map some

/-- `str::split('.')`. -/
def splitFields (value : String) : List String := (value.toList.splitOn '.').map String.ofList

/-- The fields of a text that one more field is taken from. -/
theorem nextField_eq_ok {fields rest : List String} {field : String} :
    nextField fields = .ok (field, rest) ↔ fields = field :: rest := by
  cases fields with
  | nil => exact iff_of_false (fun ok => by cases ok) (fun same => by cases same)
  | cons head tail => simp [nextField]

/-- A frontier field holds an unsigned numeral. -/
theorem parseFrontier_eq_ok {text : String} {frontier : Nat} :
    parseFrontier text = .ok frontier ↔ parseUnsigned (2 ^ 64) text.toList = some frontier := by
  unfold parseFrontier
  cases parseUnsigned (2 ^ 64) text.toList with
  | none => exact iff_of_false (fun ok => by cases ok) (fun same => by cases same)
  | some value => simp

/-- A digit of a lowercase hexadecimal number. -/
def lowerHexChar (c : Char) : Bool := c.isDigit || ('a' ≤ c && c ≤ 'f')

/-- A text of single-byte characters is as many bytes long as it has characters. -/
theorem utf8ByteSize_ascii {text : List Char} (ascii : ∀ c ∈ text, c.utf8Size = 1) :
    (String.ofList text).utf8ByteSize = text.length := by
  induction text with
  | nil => rfl
  | cons c rest ih =>
    have tail := ih fun other member => ascii other (by simp [member])
    have split : String.ofList (c :: rest) = String.singleton c ++ String.ofList rest := by
      apply String.toList_injective
      simp
    rw [split, String.utf8ByteSize_append, String.utf8ByteSize_singleton, ascii c (by simp), tail,
      List.length_cons]
    omega

/-- A hexadecimal digit is a single byte. -/
theorem utf8Size_lowerHexChar {c : Char} (digit : lowerHexChar c = true) : c.utf8Size = 1 := by
  rw [Char.utf8Size_eq_one_iff]
  simp only [lowerHexChar, Char.isDigit, Bool.or_eq_true, Bool.and_eq_true, decide_eq_true_eq,
    Char.le_def, UInt32.le_iff_toNat_le] at digit ⊢
  have high : 'f'.val.toNat = 102 := rfl
  have nine : '9'.val.toNat = 57 := rfl
  have limit : (127 : UInt32).toNat = 127 := rfl
  rcases digit with decimal | letter
  · omega
  · omega

/-- A hexadecimal text of a length has that many characters, all digits. -/
theorem isLowerHex_iff {value : String} {length : Nat} :
    isLowerHex value length = true ↔
      value.toList.length = length ∧ ∀ c ∈ value.toList, lowerHexChar c = true := by
  have unfolded : isLowerHex value length = true ↔
      value.utf8ByteSize = length ∧ ∀ c ∈ value.toList, lowerHexChar c = true := by
    simp [isLowerHex, lowerHexChar]
  rw [unfolded]
  apply and_congr_left
  intro digits
  have size := utf8ByteSize_ascii fun c member => utf8Size_lowerHexChar (digits c member)
  rw [String.ofList_toList] at size
  rw [size]

/-- Hexadecimal text has no dot. -/
theorem dot_notMem_lowerHex {value : String} {length : Nat} (hex : isLowerHex value length = true) :
    '.' ∉ value.toList := by
  intro member
  have digit := (isLowerHex_iff.mp hex).2 '.' member
  exact absurd digit (by decide)

/-- A leading cut of a hexadecimal digest is hexadecimal. -/
theorem isLowerHex_cut {digest : String} {length count : Nat}
    (hex : isLowerHex digest length = true) (short : count ≤ length) :
    isLowerHex (cut digest count) count = true := by
  obtain ⟨long, digits⟩ := isLowerHex_iff.mp hex
  apply isLowerHex_iff.mpr
  rw [cut, String.toList_ofList, List.length_take, long]
  constructor
  · omega
  · intro c member
    exact digits c (List.mem_of_mem_take member)

/-- Fields without dots read back from the text that joins them. -/
theorem splitFields_intercalate {fields : List String} (nonempty : fields ≠ [])
    (clear : ∀ field ∈ fields, '.' ∉ field.toList) :
    splitFields (String.intercalate "." fields) = fields := by
  have lists : ∀ chars ∈ fields.map String.toList, '.' ∉ chars := by
    intro chars member
    obtain ⟨field, there, same⟩ := List.mem_map.mp member
    exact same ▸ clear field there
  have dot : ".".toList = ['.'] := by decide
  rw [splitFields, String.toList_intercalate, dot, List.splitOn_intercalate '.' lists (by simpa)]
  simp

/-- A text is its fields, joined by dots. -/
theorem intercalate_splitFields (value : String) :
    String.intercalate "." (splitFields value) = value := by
  apply String.toList_injective
  have dot : ".".toList = ['.'] := by decide
  have chars : (splitFields value).map String.toList = value.toList.splitOn '.' := by
    simp [splitFields]
  rw [String.toList_intercalate, dot, chars, List.intercalate_splitOn]

/-- An anchor reads back from its field. -/
theorem anchorField_read {anchor : String} (event : anchor = "-" ∨ isLowerHex anchor 32 = true) :
    anchorField (if anchor = "-" then "" else anchor) = anchor := by
  by_cases none : anchor = "-"
  · rw [if_pos none, none]
    rfl
  · have hex : isLowerHex anchor 32 = true := event.resolve_left none
    have nonempty : anchor ≠ "" := by
      intro empty
      rw [empty] at hex
      exact absurd hex (by decide)
    rw [if_neg none, anchorField, if_neg nonempty]

/-- The field of an anchor is a dash or an event id, and reads as the anchor. -/
theorem anchorField_written {anchor : String} (event : anchor = "" ∨ isLowerHex anchor 32 = true) :
    (anchorField anchor = "-" ∨ isLowerHex (anchorField anchor) 32 = true) ∧
      (if anchorField anchor = "-" then "" else anchorField anchor) = anchor := by
  by_cases none : anchor = ""
  · rw [none]
    exact ⟨Or.inl rfl, rfl⟩
  · have hex : isLowerHex anchor 32 = true := event.resolve_left none
    have dashless : anchor ≠ "-" := by
      intro dash
      rw [dash] at hex
      exact absurd hex (by decide)
    rw [anchorField, if_neg none, if_neg dashless]
    exact ⟨Or.inr hex, rfl⟩

/-- A source snapshot reads back from its field. -/
theorem parseSource_sourceField {sourceSnapshotId : Option SourceSnapshotId}
    (wellFormed : ∀ snapshotId, sourceSnapshotId = some snapshotId →
      wellFormedId "snapshot_" snapshotId.value = true) :
    parseSource (sourceField sourceSnapshotId) = .ok sourceSnapshotId := by
  cases sourceSnapshotId with
  | none => rfl
  | some snapshotId =>
    have named : snapshotId.value ≠ "none" := by
      intro none
      have branded := snapshotId.branded
      rw [none] at branded
      exact absurd branded (by decide)
    simp [sourceField, parseSource, named, SourceSnapshotId.parse, snapshotId.branded,
      wellFormed snapshotId rfl, Except.map]

/-- An accepted source field is the field of the snapshot it names. -/
theorem sourceField_parseSource {source : String} {sourceSnapshotId : Option SourceSnapshotId}
    (parsed : parseSource source = .ok sourceSnapshotId) : sourceField sourceSnapshotId = source := by
  unfold parseSource at parsed
  by_cases none : source = "none"
  · rw [if_pos none] at parsed
    rw [← Except.ok.inj parsed, none]
    rfl
  · rw [if_neg none] at parsed
    unfold SourceSnapshotId.parse at parsed
    split at parsed
    · split at parsed
      · have same := Except.ok.inj parsed
        rw [← same]
        rfl
      · cases parsed
    · cases parsed

/-- The fields of a well-formed snapshot id have no dot. -/
theorem dot_notMem_sourceField {sourceSnapshotId : Option SourceSnapshotId}
    (wellFormed : ∀ snapshotId, sourceSnapshotId = some snapshotId →
      wellFormedId "snapshot_" snapshotId.value = true) :
    '.' ∉ (sourceField sourceSnapshotId).toList := by
  cases sourceSnapshotId with
  | none => decide
  | some snapshotId =>
    intro member
    have formed := wellFormed snapshotId rfl
    simp only [wellFormedId, Bool.and_eq_true, List.all_eq_true] at formed
    have portable := formed.2 '.' member
    exact absurd portable (by decide)

/-- A number's text has no dot. -/
theorem dot_notMem_toString (frontier : Nat) : '.' ∉ (toString frontier).toList := by
  rw [Nat.toString_eq_repr, Nat.toList_repr]
  have dot : '.'.isDigit = false := by decide
  exact notMem_decimal dot frontier

/-- The material of two tokens over one frontier, anchor and source names one workspace and
one journal. -/
theorem tokenMaterial_inj {workspaceId workspaceId' : WorkspaceId} {journalId journalId' : JournalId}
    {frontier : Nat} {anchor source : String}
    (same : tokenMaterial workspaceId journalId frontier anchor source =
      tokenMaterial workspaceId' journalId' frontier anchor source) :
    workspaceId = workspaceId' ∧ journalId = journalId' := by
  have separator : ∀ journal : JournalId, '\x1f' ∉ journal.value.toList := by
    intro journal member
    have valid := journal.valid
    simp only [validateJournalId, Bool.and_eq_true, List.all_eq_true] at valid
    exact absurd (valid.2 '\x1f' member) (by decide)
  have unit : "\x1f".toList = ['\x1f'] := by decide
  have chars := congrArg String.toList same
  simp only [tokenMaterial, String.toList_intercalate, unit, List.map_cons, List.map_nil,
    List.intercalate_cons_cons, List.append_assoc, List.append_cancel_left_eq] at chars
  simp only [← List.append_assoc, List.append_cancel_right_eq] at chars
  have joined : workspaceId.value.toList ++ '\x1f' :: journalId.value.toList =
      workspaceId'.value.toList ++ '\x1f' :: journalId'.value.toList := by
    simpa only [List.append_assoc, List.cons_append, List.nil_append] using chars
  obtain ⟨workspaces, journals⟩ :=
    append_cons_inj_last (separator journalId) (separator journalId') joined
  constructor
  · cases workspaceId
    cases workspaceId'
    simpa using String.toList_injective workspaces
  · cases journalId
    cases journalId'
    simpa using String.toList_injective journals

/-- The condition under which a token is the one its descriptor is written as: its frontier
is spelled without a plus sign and without leading zeros. -/
def PlainFrontier (value : String) : Prop := PlainNumeral ((splitFields value).getD 1 "").toList

instance (value : String) : Decidable (PlainFrontier value) :=
  inferInstanceAs (Decidable (PlainNumeral ((splitFields value).getD 1 "").toList))

section Digest
variable [Blake3]

/-- `snapshot_token_digest`, cut to the checksum a token carries. -/
def tokenChecksum (material : String) : String := cut (blake3HashHex material) 32

/-- `SnapshotToken::for_descriptor`. -/
def SnapshotToken.forDescriptor (descriptor : SnapshotDescriptor) : String :=
  String.intercalate "." ["texo_snap_v2", toString descriptor.frontier,
    anchorField descriptor.anchorEventIdHex, sourceField descriptor.sourceSnapshotId,
    tokenChecksum descriptor.material]

/-- `SnapshotToken::resolve_for_journal`. -/
def SnapshotToken.resolveForJournal (value : String) (workspaceId : WorkspaceId)
    (journalId : JournalId) : Except KnowledgeContractError SnapshotDescriptor := do
  let (version, fields) ← nextField (splitFields value)
  require (version = "texo_snap_v2") invalidToken
  let (frontierText, fields) ← nextField fields
  let frontier ← parseFrontier frontierText
  let (anchor, fields) ← nextField fields
  require (anchor = "-" ∨ isLowerHex anchor 32 = true) (.invalidDigest "snapshot anchor" 32)
  let (source, fields) ← nextField fields
  let (checksum, fields) ← nextField fields
  require (fields = []) invalidToken
  validateLowerHex "snapshot token checksum" checksum 32
  require (checksum = tokenChecksum (tokenMaterial workspaceId journalId frontier anchor source))
    invalidToken
  let sourceSnapshotId ← parseSource source
  return { workspaceId, journalId, frontier
           anchorEventIdHex := if anchor = "-" then "" else anchor
           sourceSnapshotId }

/-- What a token that resolves to a descriptor is made of. -/
structure TokenReads (workspaceId : WorkspaceId) (journalId : JournalId) (value : String)
    (descriptor : SnapshotDescriptor) (frontierText anchor source : String) : Prop where
  fields : splitFields value = ["texo_snap_v2", frontierText, anchor, source,
    tokenChecksum (tokenMaterial workspaceId journalId descriptor.frontier anchor source)]
  frontier : parseUnsigned (2 ^ 64) frontierText.toList = some descriptor.frontier
  event : anchor = "-" ∨ isLowerHex anchor 32 = true
  checksum : isLowerHex
    (tokenChecksum (tokenMaterial workspaceId journalId descriptor.frontier anchor source)) 32 = true
  snapshot : parseSource source = .ok descriptor.sourceSnapshotId
  anchored : descriptor.anchorEventIdHex = if anchor = "-" then "" else anchor
  workspace : descriptor.workspaceId = workspaceId
  journal : descriptor.journalId = journalId

/-- The spec of the resolver: it accepts exactly the texts whose fields read as the
descriptor. -/
theorem resolveForJournal_eq_ok {workspaceId : WorkspaceId} {journalId : JournalId} {value : String}
    {descriptor : SnapshotDescriptor} :
    SnapshotToken.resolveForJournal value workspaceId journalId = .ok descriptor ↔
      ∃ frontierText anchor source,
        TokenReads workspaceId journalId value descriptor frontierText anchor source := by
  unfold SnapshotToken.resolveForJournal validateLowerHex
  simp only [bind_eq_ok, Prod.exists, nextField_eq_ok, require_eq_ok, parseFrontier_eq_ok, pure,
    Except.pure, Except.ok.injEq]
  constructor
  · intro ⟨_, _, fields, _, named, frontierText, _, later, frontier, parsed, anchor, _, anchored, _,
      event, source, _, sourced, _, _, last, _, nothing, _, hex, _, bound, snapshot, found, same⟩
    subst named later anchored sourced last nothing bound same
    exact ⟨frontierText, anchor, source, fields, parsed, event, hex, found, rfl, rfl, rfl⟩
  · intro ⟨frontierText, anchor, source, reads⟩
    refine ⟨_, _, reads.fields, (), rfl, _, _, rfl, _, reads.frontier, _, _, rfl, (), reads.event,
      _, _, rfl, _, _, rfl, (), rfl, (), reads.checksum, (), rfl, _, reads.snapshot, ?_⟩
    rw [← reads.anchored, ← reads.workspace, ← reads.journal]

/-- Every coordinate of a resolved descriptor reads back from its own field. -/
theorem TokenReads.material {workspaceId : WorkspaceId} {journalId : JournalId} {value : String}
    {descriptor : SnapshotDescriptor} {frontierText anchor source : String}
    (reads : TokenReads workspaceId journalId value descriptor frontierText anchor source) :
    anchorField descriptor.anchorEventIdHex = anchor ∧
      sourceField descriptor.sourceSnapshotId = source ∧
      descriptor.material =
        tokenMaterial workspaceId journalId descriptor.frontier anchor source := by
  have anchored : anchorField descriptor.anchorEventIdHex = anchor := by
    rw [reads.anchored]
    exact anchorField_read reads.event
  have sourced := sourceField_parseSource reads.snapshot
  refine ⟨anchored, sourced, ?_⟩
  rw [SnapshotDescriptor.material, anchored, sourced, reads.workspace, reads.journal]

/-- A token's descriptor is written as the token exactly when the token's frontier is plain. -/
theorem TokenReads.forDescriptor_iff {workspaceId : WorkspaceId} {journalId : JournalId}
    {value : String} {descriptor : SnapshotDescriptor} {frontierText anchor source : String}
    (reads : TokenReads workspaceId journalId value descriptor frontierText anchor source) :
    SnapshotToken.forDescriptor descriptor = value ↔ PlainFrontier value := by
  obtain ⟨anchored, sourced, material⟩ := reads.material
  have whole : value = String.intercalate "." ["texo_snap_v2", frontierText, anchor, source,
      tokenChecksum (tokenMaterial workspaceId journalId descriptor.frontier anchor source)] := by
    rw [← reads.fields, intercalate_splitFields]
  have written : SnapshotToken.forDescriptor descriptor = String.intercalate "." ["texo_snap_v2",
      toString descriptor.frontier, anchor, source,
      tokenChecksum (tokenMaterial workspaceId journalId descriptor.frontier anchor source)] := by
    rw [SnapshotToken.forDescriptor, anchored, sourced, material]
  have spelled : SnapshotToken.forDescriptor descriptor = value ↔
      toString descriptor.frontier = frontierText := by
    rw [written]
    nth_rewrite 1 [whole]
    constructor
    · intro same
      have chars := congrArg String.toList same
      simp only [String.toList_intercalate, List.map_cons, List.map_nil,
        List.intercalate_cons_cons, List.append_assoc, List.append_cancel_left_eq,
        List.append_cancel_right_eq] at chars
      exact String.toList_injective chars
    · intro same
      rw [same]
  have field : (splitFields value).getD 1 "" = frontierText := by
    rw [reads.fields]
    rfl
  rw [spelled, PlainFrontier, field, ← decimal_iff_plain reads.frontier, ← String.toList_inj,
    Nat.toString_eq_repr, Nat.toList_repr]

/-- The token of a well-formed descriptor resolves to the descriptor. -/
theorem resolveForJournal_forDescriptor (digests : ∀ bytes, isLowerHex (Blake3.hex bytes) 64 = true)
    {descriptor : SnapshotDescriptor} (wellFormed : descriptor.WellFormed) :
    SnapshotToken.resolveForJournal (SnapshotToken.forDescriptor descriptor)
      descriptor.workspaceId descriptor.journalId = .ok descriptor := by
  obtain ⟨event, anchored⟩ := anchorField_written wellFormed.anchor
  have checksum : isLowerHex (tokenChecksum descriptor.material) 32 = true :=
    isLowerHex_cut (digests _) (by decide)
  have numeral : parseUnsigned (2 ^ 64) (toString descriptor.frontier).toList =
      some descriptor.frontier := by
    rw [Nat.toString_eq_repr, Nat.toList_repr]
    exact parseUnsigned_decimal wellFormed.frontier
  apply resolveForJournal_eq_ok.mpr
  refine ⟨toString descriptor.frontier, anchorField descriptor.anchorEventIdHex,
    sourceField descriptor.sourceSnapshotId, ?_, numeral, event, checksum,
    parseSource_sourceField wellFormed.source, anchored.symm, rfl, rfl⟩
  apply splitFields_intercalate (by simp)
  intro field member
  simp only [List.mem_cons, List.not_mem_nil, or_false] at member
  rcases member with rfl | rfl | rfl | rfl | rfl
  · decide
  · exact dot_notMem_toString _
  · rcases event with dash | hex
    · rw [dash]
      decide
    · exact dot_notMem_lowerHex hex
  · exact dot_notMem_sourceField wellFormed.source
  · exact dot_notMem_lowerHex checksum

/-- Token codec. The token of every well-formed descriptor resolves to the descriptor. A token
a workspace and journal accept is the one its descriptor is written as exactly when it
spells its frontier plainly. Two resolutions of one token are of one workspace and one
journal, where its checksum distinguishes their materials. -/
theorem snapshot_token_codec (digests : ∀ bytes, isLowerHex (Blake3.hex bytes) 64 = true) :
    (∀ descriptor : SnapshotDescriptor, descriptor.WellFormed →
      SnapshotToken.resolveForJournal (SnapshotToken.forDescriptor descriptor)
        descriptor.workspaceId descriptor.journalId = .ok descriptor) ∧
    (∀ value workspaceId journalId descriptor,
      SnapshotToken.resolveForJournal value workspaceId journalId = .ok descriptor →
        (SnapshotToken.forDescriptor descriptor = value ↔ PlainFrontier value)) ∧
    (∀ value workspaceId journalId workspaceId' journalId' descriptor descriptor',
      SnapshotToken.resolveForJournal value workspaceId journalId = .ok descriptor →
      SnapshotToken.resolveForJournal value workspaceId' journalId' = .ok descriptor' →
      (tokenChecksum descriptor.material = tokenChecksum descriptor'.material →
        descriptor.material = descriptor'.material) →
        workspaceId = workspaceId' ∧ journalId = journalId') := by
  refine ⟨fun descriptor wellFormed => resolveForJournal_forDescriptor digests wellFormed, ?_, ?_⟩
  · intro value workspaceId journalId descriptor resolved
    obtain ⟨frontierText, anchor, source, reads⟩ := resolveForJournal_eq_ok.mp resolved
    exact reads.forDescriptor_iff
  · intro value workspaceId journalId workspaceId' journalId' descriptor descriptor' resolved
      resolved' collisionFree
    obtain ⟨frontierText, anchor, source, reads⟩ := resolveForJournal_eq_ok.mp resolved
    obtain ⟨frontierText', anchor', source', reads'⟩ := resolveForJournal_eq_ok.mp resolved'
    have fields := reads.fields.symm.trans reads'.fields
    simp only [List.cons.injEq, and_true, true_and] at fields
    obtain ⟨texts, anchors, sources, checksums⟩ := fields
    have frontiers : descriptor.frontier = descriptor'.frontier := by
      have parsed := reads.frontier
      rw [texts, reads'.frontier] at parsed
      exact (Option.some.inj parsed).symm
    obtain ⟨_, _, material⟩ := reads.material
    obtain ⟨_, _, material'⟩ := reads'.material
    rw [material, material'] at collisionFree
    have same := collisionFree checksums
    rw [← frontiers, ← anchors, ← sources] at same
    exact tokenMaterial_inj same

end Digest

/-- A digest of 64 hexadecimal digits: the bytes as a number, in base sixteen. -/
@[reducible] def numeralDigest : Blake3 where
  hex bytes :=
    let number := bytes.foldl (fun value byte => value * 257 + byte.toNat) 0
    String.ofList ((List.range 64).map fun digit => Nat.digitChar (number / 16 ^ digit % 16))

/-- The numeral digest is 64 lowercase hexadecimal digits. -/
theorem numeralDigest_isLowerHex (bytes : List UInt8) :
    let _ := numeralDigest
    isLowerHex (Blake3.hex bytes) 64 = true := by
  apply isLowerHex_iff.mpr
  constructor
  · simp [Blake3.hex]
  · intro c member
    simp only [Blake3.hex, String.toList_ofList, List.mem_map] at member
    obtain ⟨digit, _, same⟩ := member
    generalize bytes.foldl (fun value byte => value * 257 + byte.toNat) 0 / 16 ^ digit = number at same
    have small : number % 16 < 16 := Nat.mod_lt _ (by decide)
    have digits : ∀ value, value < 16 → lowerHexChar (Nat.digitChar value) = true := by decide
    rw [← same]
    exact digits _ small

/-- The descriptor of a demonstration workspace, read through sequence 42. -/
def demoDescriptor : SnapshotDescriptor where
  workspaceId := ⟨"demo", Eq.refl true⟩
  journalId := ⟨"canonical", Eq.refl true⟩
  frontier := 42
  anchorEventIdHex := "abababababababababababababababab"
  sourceSnapshotId := some ⟨"snapshot_0123", Eq.refl true⟩

/-- The token of the descriptor, its frontier spelled with a plus sign. -/
def signedToken : String :=
  let _ := numeralDigest
  String.intercalate "." ["texo_snap_v2", "+42", demoDescriptor.anchorEventIdHex, "snapshot_0123",
    tokenChecksum demoDescriptor.material]

/-- The codec on the demonstration descriptor. -/
theorem snapshot_token_codec_demo :
    let _ := numeralDigest
    SnapshotToken.resolveForJournal (SnapshotToken.forDescriptor demoDescriptor)
      demoDescriptor.workspaceId demoDescriptor.journalId = .ok demoDescriptor := by
  let _ := numeralDigest
  have wellFormed : demoDescriptor.WellFormed := by
    constructor
    · decide
    · exact Or.inr (by decide)
    · intro snapshotId same
      rw [← Option.some.inj same]
      decide
  exact (snapshot_token_codec numeralDigest_isLowerHex).1 demoDescriptor wellFormed

/-- A plus sign before the frontier leaves a token accepted, though its descriptor is written
as another token. -/
theorem signed_token_accepted :
    let _ := numeralDigest
    SnapshotToken.resolveForJournal signedToken demoDescriptor.workspaceId demoDescriptor.journalId =
        .ok demoDescriptor ∧
      SnapshotToken.forDescriptor demoDescriptor ≠ signedToken := by
  constructor
  · decide +kernel
  · decide +kernel

end Texo.Knowledge
