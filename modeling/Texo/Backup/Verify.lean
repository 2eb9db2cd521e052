import Texo.Backup.Paths
import Texo.Backup.Tree
import Texo.Config.Root
import Texo.Error

/-! # Backup verification

The offline verification of a backup directory against its own manifest: every check adds
its findings, and a backup is verified where no check found anything. The manifest and
configuration decoders and the storage substrate's own evidence are outside the program.
-/
namespace Texo.Backup

open Texo.Events (Blake3)
open Texo.Foundation

/-- `MANIFEST_SCHEMA`. -/
def manifestSchema : String := "texo.backup.v2"

/-- `MANIFEST_FILE`. -/
def manifestFile : String := "backup.json"

/-- `CONFIG_FILE`. -/
def configFile : String := "config.toml"

/-- `STORE_DIR`. -/
def storeDir : String := "store"

/-- `MAX_MANIFEST_BYTES`. -/
def maxManifestBytes : Nat := 4 * 1024 * 1024

/-- `MAX_CONFIG_BYTES`. -/
def maxConfigBytes : Nat := 1024 * 1024

/-- `MAX_STORE_FILE_BYTES`. -/
def maxStoreFileBytes : Nat := 2 * 1024 * 1024 * 1024

/-- `MAX_STORE_FILES`. -/
def maxStoreFiles : Nat := 100000

/-- A digest of 32 bytes. -/
abbrev Digest := List UInt8

/-- The value of one hexadecimal digit. -/
def hexDigitValue (digit : Char) : Option Nat :=
  if '0' ≤ digit ∧ digit ≤ '9' then some (digit.toNat - '0'.toNat)
  else if 'a' ≤ digit ∧ digit ≤ 'f' then some (digit.toNat - 'a'.toNat + 10)
  else if 'A' ≤ digit ∧ digit ≤ 'F' then some (digit.toNat - 'A'.toNat + 10)
  else none

/-- Pairs of hexadecimal digits as bytes. -/
def hexPairs : List Char → Option (List UInt8)
  | high :: low :: rest => do
    let high ← hexDigitValue high
    let low ← hexDigitValue low
    let tail ← hexPairs rest
    pure (UInt8.ofNat (high * 16 + low) :: tail)
  | [] => some []
  | [_] => none

/-- `digest_from_hex`. -/
def digestFromHex (value : String) : Option Digest :=
  if (Events.asBytes value).length ≠ 64 then none else hexPairs value.toList

/-- `FileRecord`. -/
structure FileRecord where
  name : String
  bytes : Nat
  hashHex : String
deriving DecidableEq, Repr

/-- `BackupSegmentRef`. -/
structure BackupSegmentRef where
  segmentId : Nat
  bytesDigest : Digest
deriving DecidableEq, Repr

/-- `BackupManifestBody`. -/
structure BackupManifestBody where
  schemaVersion : Nat
  backupId : Digest
  layoutRevision : Nat
  toolingRevision : Nat
  segments : List BackupSegmentRef
deriving DecidableEq, Repr

/-- The body of a `SnapshotEvidenceReport`, as far as the program reads it. -/
structure SnapshotBody where
  schemaVersion : Nat
  snapshotId : Digest
  destinationPathDigest : Digest
  copiedSegmentIdsSorted : List Nat
deriving DecidableEq, Repr

/-- `SnapshotEvidenceReport`. -/
structure SnapshotEvidenceReport where
  body : SnapshotBody
  bodyHash : Digest
deriving DecidableEq, Repr

/-- `BackupManifest`. -/
structure BackupManifest where
  schema : String
  workspaceId : String
  storePath : String
  createdAtMs : Nat
  snapshot : SnapshotEvidenceReport
  substrateManifest : BackupManifestBody
  substrateManifestHashHex : String
  storeFiles : List FileRecord
  configBytes : Nat
  configHashHex : String
deriving DecidableEq, Repr

/-- What opening a copy of the store read-only and walking its chain comes to. -/
inductive StoreOpening where
  | intact
  | broken (chain : String)
  | unwalked (error : String)
  | unopened (error : String)
  | uncopied (error : String)
deriving DecidableEq, Repr

/-- What verification uses of code outside the program: the decoders of the two files, the
substrate's schema versions, digests and restore proof, and its store. -/
structure Substrate where
  parseManifest : List UInt8 → Except String BackupManifest
  parseConfig : List UInt8 → Except Config.ConfigError Config.TexoRootConfig
  snapshotSchemaVersion : Nat
  manifestBodySchemaVersion : Nat
  snapshotReportBodyHash : SnapshotBody → Except String Digest
  backupManifestBodyHash : BackupManifestBody → Except String Digest
  restoreProofFindings : BackupManifestBody → List BackupSegmentRef → Except String (List String)
  openStore : List (String × List UInt8) → StoreOpening

/-- `BackupFinding`. -/
structure BackupFinding where
  kind : String
  detail : String
deriving DecidableEq, Repr

/-- `BackupVerifyReport`, less its constant schema. -/
structure BackupVerifyReport where
  verified : Bool
  dest : String
  workspaceId : String
  storeFilesValid : Nat
  storeFilesExpected : Nat
  manifestHashHex : String
  findings : List BackupFinding
deriving DecidableEq, Repr

/-- The path of a name text in a directory, if it can be the name of an entry. -/
def pathIn (directory : List EntryName) (name : String) : Option (List EntryName) :=
  (EntryName.of? (Events.asBytes name)).map fun entry => directory ++ [entry]

/-- The path of a fixed name at the top of a backup. -/
def topPath (name : String) : List EntryName := (pathIn [] name).getD []

/-- `Path::join`, as shown. -/
def shownIn (directory name : String) : String := directory ++ "/" ++ name

/-- A finding where a check fails. -/
def flagUnless (holds : Prop) [Decidable holds] (kind detail : String) : List BackupFinding :=
  if holds then [] else [⟨kind, detail⟩]

/-- `empty_report_with_hash`. -/
def emptyReport (dest manifestHashHex : String) (finding : BackupFinding) : BackupVerifyReport where
  verified := false
  dest := dest
  workspaceId := ""
  storeFilesValid := 0
  storeFilesExpected := 0
  manifestHashHex := manifestHashHex
  findings := [finding]

section
variable [Blake3]

/-- `check_snapshot_evidence`. -/
def checkSnapshotEvidence (substrate : Substrate) (dest : String) (manifest : BackupManifest) :
    List BackupFinding :=
  flagUnless (manifest.snapshot.body.schemaVersion = substrate.snapshotSchemaVersion)
      "snapshot_schema_unsupported"
      ("unsupported snapshot schema " ++ toString manifest.snapshot.body.schemaVersion) ++
    (match substrate.snapshotReportBodyHash manifest.snapshot.body with
    | .ok hash =>
      flagUnless (hash = manifest.snapshot.bodyHash) "snapshot_evidence_mismatch"
        "snapshot evidence body hash does not recompute"
    | .error error =>
      [⟨"snapshot_evidence_mismatch", "snapshot evidence cannot be encoded: " ++ error⟩]) ++
    flagUnless
      (digestFromHex (Blake3.hex (Events.asBytes (shownIn dest storeDir))) =
        some manifest.snapshot.body.destinationPathDigest)
      "snapshot_destination_mismatch" "snapshot evidence is bound to a different destination path"

/-- What one store entry adds to the observed segments of `check_substrate_restore_proof`. -/
def observeSegment (dest : String) (tree : Tree) (entry : EntryName) :
    List BackupSegmentRef × List BackupFinding :=
  let name := entry.shown
  if extension name.toList ≠ some "fbat".toList then ([], [])
  else
    match parseU64 (fileStem name.toList) with
    | some segmentId =>
      if segmentFileName segmentId ≠ name.toList then
        ([], [⟨"substrate_restore_proof_invalid", "invalid segment filename `" ++ name ++ "`"⟩])
      else
        match tree.hashRegularBounded (shownIn (shownIn dest storeDir) name)
            (topPath storeDir ++ [entry]) maxStoreFileBytes with
        | .ok (hash, _) =>
          match digestFromHex hash with
          | some bytesDigest => ([⟨segmentId, bytesDigest⟩], [])
          | none =>
            ([], [⟨"substrate_restore_proof_invalid", "invalid digest for `" ++ name ++ "`"⟩])
        | .error detail => ([], [⟨"substrate_restore_proof_invalid", detail⟩])
    | none =>
      ([], [⟨"substrate_restore_proof_invalid", "invalid segment filename `" ++ name ++ "`"⟩])

/-- `check_substrate_restore_proof`. -/
def checkSubstrateRestoreProof (substrate : Substrate) (dest : String) (tree : Tree)
    (manifest : BackupManifest) : List BackupFinding :=
  let observed := (tree.children (topPath storeDir)).map (observeSegment dest tree)
  flagUnless (manifest.substrateManifest.schemaVersion = substrate.manifestBodySchemaVersion)
      "substrate_manifest_schema_unsupported"
      ("unsupported substrate manifest schema " ++
        toString manifest.substrateManifest.schemaVersion) ++
    flagUnless (manifest.substrateManifest.backupId = manifest.snapshot.body.snapshotId)
      "substrate_manifest_snapshot_mismatch"
      "substrate backup identity does not match snapshot identity" ++
    (match substrate.backupManifestBodyHash manifest.substrateManifest with
    | .ok computed =>
      flagUnless (digestFromHex manifest.substrateManifestHashHex = some computed)
        "substrate_manifest_hash_mismatch" "substrate manifest body hash does not recompute"
    | .error error =>
      [⟨"substrate_manifest_invalid", "substrate manifest cannot be encoded: " ++ error⟩]) ++
    (match tree.find? (topPath storeDir) with
    | some .directory =>
      observed.flatMap Prod.snd ++
        (match substrate.restoreProofFindings manifest.substrateManifest
            (observed.flatMap Prod.fst) with
        | .ok proof =>
          flagUnless (proof = []) "substrate_restore_proof_failed"
            ("BatPak restore proof findings: " ++ toString proof)
        | .error error =>
          [⟨"substrate_restore_proof_invalid", "BatPak restore proof cannot be encoded: " ++ error⟩])
    -- A link is not followed here: `check_store_files` refuses it whatever it leads to.
    | _ => [⟨"substrate_restore_proof_invalid", "store directory cannot be read"⟩])

/-- `check_top_level`. -/
def checkTopLevel (tree : Tree) : List BackupFinding :=
  (tree.children []).flatMap fun entry =>
    flagUnless (entry.shown ∈ [manifestFile, configFile, storeDir]) "unexpected_backup_entry"
      ("unrecorded top-level entry `" ++ entry.shown ++ "`")

/-- The records checked so far by `check_store_files`: the expected names, the count of valid
files and the findings. -/
structure StoreCheck where
  expected : List String := []
  valid : Nat := 0
  findings : List BackupFinding := []
deriving DecidableEq, Repr

/-- One record in `check_store_files`. -/
def StoreCheck.record (dest : String) (tree : Tree) (check : StoreCheck) (record : FileRecord) :
    StoreCheck :=
  if !safeFlatName record.name || check.expected.contains record.name then
    { check with findings := check.findings ++
        [⟨"store_record_invalid", "unsafe or duplicate store file `" ++ record.name ++ "`"⟩] }
  else
    let shown := shownIn (shownIn dest storeDir) record.name
    let hashed := match pathIn (topPath storeDir) record.name with
      | some path => tree.hashRegularBounded shown path maxStoreFileBytes
      | none => .error (shown ++ ": file name contained an unexpected NUL byte")
    match hashed with
    | .ok (hash, bytes) =>
      if hash = record.hashHex ∧ bytes = record.bytes then
        { check with expected := record.name :: check.expected, valid := check.valid + 1 }
      else
        { check with
          expected := record.name :: check.expected
          findings := check.findings ++ [⟨"store_file_mismatch",
            record.name ++ " expected " ++ toString record.bytes ++ " bytes/" ++ record.hashHex ++
              " but found " ++ toString bytes ++ "/" ++ hash⟩] }
    | .error detail =>
      { check with
        expected := record.name :: check.expected
        findings := check.findings ++ [⟨"store_file_invalid", detail⟩] }

/-- `check_store_files`: the count of valid files and the findings. -/
def checkStoreFiles (dest : String) (tree : Tree) (manifest : BackupManifest) :
    Nat × List BackupFinding :=
  match tree.find? (topPath storeDir) with
  | some .directory =>
    let check := manifest.storeFiles.foldl (StoreCheck.record dest tree) {}
    (check.valid, check.findings ++
      (tree.children (topPath storeDir)).flatMap fun entry =>
        flagUnless (entry.shown ∈ check.expected) "unexpected_store_file"
          ("unrecorded store entry `" ++ entry.shown ++ "`"))
  | some _ =>
    (0, [⟨"store_directory_invalid",
      "store must be a regular directory, not a symbolic link or file"⟩])
  | none => (0, [⟨"store_directory_invalid", "No such file or directory (os error 2)"⟩])

/-- `check_config`: the findings; the configuration is valid where there are none. -/
def checkConfig (dest : String) (tree : Tree) (manifest : BackupManifest) : List BackupFinding :=
  match tree.hashRegularBounded (shownIn dest configFile) (topPath configFile) maxConfigBytes with
  | .ok (hash, bytes) =>
    flagUnless (hash = manifest.configHashHex ∧ bytes = manifest.configBytes) "config_mismatch"
      ("expected " ++ toString manifest.configBytes ++ "/" ++ manifest.configHashHex ++
        " but found " ++ toString bytes ++ "/" ++ hash)
  | .error detail => [⟨"config_invalid", detail⟩]

omit [Blake3] in
/-- `TexoRootConfig::load` from a file of the tree. -/
def loadConfig (substrate : Substrate) (tree : Tree) :
    Except Config.ConfigError Config.TexoRootConfig :=
  match tree.find? (topPath configFile) with
  | some (.file content) => substrate.parseConfig content
  | _ => .error (.io "No such file or directory (os error 2)")

variable [Config.PrivateEndpoints]

omit [Blake3] in
/-- `check_config_binding`. -/
def checkConfigBinding (substrate : Substrate) (tree : Tree) (manifest : BackupManifest) :
    List BackupFinding :=
  match loadConfig substrate tree with
  | .error error => [⟨"config_binding_invalid", error.message⟩]
  | .ok config =>
    match config.resolve (some manifest.workspaceId) with
    | .ok workspace =>
      flagUnless (workspace.storePath = manifest.storePath) "config_binding_mismatch"
        ("manifest store path `" ++ manifest.storePath ++ "` differs from config `" ++
          workspace.storePath ++ "`")
    | .error error => [⟨"config_binding_mismatch", error.message⟩]

omit [Blake3] [Config.PrivateEndpoints] in
/-- The recorded files as `VerificationCopy::create` copies them. -/
def copyRecords (tree : Tree) (records : List FileRecord) :
    Except String (List (String × List UInt8)) :=
  records.mapM fun record =>
    match (pathIn (topPath storeDir) record.name).bind tree.find? with
    | some (.file content) => .ok (record.name, content)
    | _ => .error ("unsafe store record in verification copy")

omit [Blake3] [Config.PrivateEndpoints] in
/-- `check_store_read_only`. -/
def checkStoreReadOnly (substrate : Substrate) (tree : Tree) (manifest : BackupManifest) :
    List BackupFinding :=
  match copyRecords tree manifest.storeFiles with
  | .error error =>
    [⟨"store_open_invalid",
      "snapshot cannot be prepared for read-only verification: " ++ error⟩]
  | .ok copies =>
    match substrate.openStore copies with
    | .intact => []
    | .broken chain => [⟨"store_chain_invalid", "snapshot chain verification failed: " ++ chain⟩]
    | .unwalked error =>
      [⟨"store_chain_invalid", "snapshot chain verification errored: " ++ error⟩]
    | .unopened error => [⟨"store_open_invalid", "snapshot cannot open read-only: " ++ error⟩]
    | .uncopied error =>
      [⟨"store_open_invalid",
        "snapshot cannot be prepared for read-only verification: " ++ error⟩]

/-- The findings of every check that follows a readable manifest. -/
def manifestFindings (substrate : Substrate) (dest : String) (expected : Option String)
    (tree : Tree) (manifestHashHex : String) (manifest : BackupManifest) : List BackupFinding :=
  let configFindings := checkConfig dest tree manifest
  let storeFiles := checkStoreFiles dest tree manifest
  flagUnless (∀ pin ∈ expected, pin = manifestHashHex) "manifest_hash_mismatch"
      ("manifest hash is " ++ manifestHashHex ++ "; it does not match the out-of-band pin") ++
    flagUnless (manifest.schema = manifestSchema) "manifest_schema_unsupported"
      ("unsupported schema `" ++ manifest.schema ++ "`") ++
    flagUnless (manifest.storeFiles.length ≤ maxStoreFiles) "manifest_file_limit"
      ("manifest records more than " ++ toString maxStoreFiles ++ " store files") ++
    checkTopLevel tree ++
    checkSnapshotEvidence substrate dest manifest ++
    checkSubstrateRestoreProof substrate dest tree manifest ++
    storeFiles.2 ++
    configFindings ++
    (if configFindings = [] then checkConfigBinding substrate tree manifest else []) ++
    (if storeFiles.1 = manifest.storeFiles.length then
      checkStoreReadOnly substrate tree manifest else [])

/-- `verify_with_expected_manifest_hash` from the manifest on, on a directory. -/
def verifyTree (substrate : Substrate) (dest : String) (expected : Option String) (tree : Tree) :
    BackupVerifyReport :=
  match tree.readRegularBounded (shownIn dest manifestFile) (topPath manifestFile)
      maxManifestBytes with
  | .error detail => emptyReport dest "" ⟨"manifest_invalid", detail⟩
  | .ok bytes =>
    let manifestHashHex := Blake3.hex bytes
    match substrate.parseManifest bytes with
    | .error error => emptyReport dest manifestHashHex ⟨"manifest_invalid", error⟩
    | .ok manifest =>
      let findings := manifestFindings substrate dest expected tree manifestHashHex manifest
      {
        verified := findings.isEmpty
        dest := dest
        workspaceId := manifest.workspaceId
        storeFilesValid := (checkStoreFiles dest tree manifest).1
        storeFilesExpected := manifest.storeFiles.length
        manifestHashHex := manifestHashHex
        findings := findings
      }

/-- What stands at the path of a backup. -/
inductive Place where
  | missing
  | irregular
  | directory (tree : Tree)

omit [Blake3] [Config.PrivateEndpoints] in
/-- A pinned digest is 64 hexadecimal characters. -/
def pinWellFormed (pin : String) : Bool :=
  (Events.asBytes pin).length = 64 && pin.toList.all fun digit => (hexDigitValue digit).isSome

/-- `verify_with_expected_manifest_hash`; `original` is the path as given, `dest` the
absolute one. -/
def verifyWithExpectedManifestHash (substrate : Substrate) (original dest : String)
    (expected : Option String) (place : Place) : Except TexoError BackupVerifyReport := do
  require (∀ pin ∈ expected, pinWellFormed pin = true) (.opInput "texo backup verify"
    "expected manifest hash must be exactly 64 hexadecimal characters")
  match place with
  | .missing =>
    pure (emptyReport original "" ⟨"backup_missing", "backup destination does not exist"⟩)
  | .irregular =>
    pure (emptyReport original ""
      ⟨"backup_root_invalid", "backup root must be a regular directory"⟩)
  | .directory tree => pure (verifyTree substrate dest expected tree)

end

end Texo.Backup
