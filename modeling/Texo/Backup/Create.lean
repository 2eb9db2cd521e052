import Texo.Backup.Disk
import Texo.Backup.Evidence

/-! # Creating a backup

The destination is made first and the manifest last, and whatever fails in between takes the
destination away again. What is left behind an error is the file system as it was, up to empty
directories above the destination; what is left behind a success is a backup that verifies.
-/
namespace Texo.Backup

open Texo.Events (Blake3)
open Texo.Foundation

/-- `snapshot_with_evidence` of the open store: what it reports and writes, below a path. -/
structure Snapshotter where
  run : Nat → Tree → List EntryName → Except BackupError SnapshotEvidenceReport × Tree
  confined : ∀ calls tree path other, ¬ path <+: other →
    (run calls tree path).2.find? other = tree.find? other

/-- `BackupCreateReport`, less its constant schema. -/
structure BackupCreateReport where
  dest : String
  workspaceId : String
  storeFileCount : Nat
  storeBytes : Nat
  snapshotIdHex : String
  substrateManifestHashHex : String
  manifestHashHex : String
deriving DecidableEq, Repr

/-- The name `.texo`. -/
def texoDir : List EntryName := topPath ".texo"

/-- `hex_bytes`. -/
def hexBytes (bytes : List UInt8) : String :=
  String.ofList (bytes.flatMap fun byte =>
    [Nat.digitChar (byte.toNat / 16), Nat.digitChar (byte.toNat % 16)])

/-- `reject_overlap`, of canonical paths. -/
def rejectOverlap (root store dest : List EntryName) : Except BackupError Unit :=
  require (∀ live ∈ [root, root ++ texoDir, store], ¬ live <+: dest ∧ ¬ dest <+: live)
    (.backup "backup destination must not overlap the workspace root, .texo, or live store")

/-- `snapshot_with_evidence` as a call. -/
def takeSnapshot (snapshotter : Snapshotter) (path : List EntryName) :
    DiskEffect SnapshotEvidenceReport :=
  .of fun disk =>
    ((snapshotter.run disk.calls disk.tree path).1,
      ⟨(snapshotter.run disk.calls disk.tree path).2, disk.calls + 1⟩)

/-- An entry is a regular file. -/
def EntryKind.isFile : EntryKind → Bool
  | .file _ => true
  | _ => false

/-- The names of the findings, as `create` and `restore` list them. -/
def BackupVerifyReport.kinds (report : BackupVerifyReport) : String :=
  ", ".intercalate (report.findings.map BackupFinding.kind)

section

variable [Blake3]

/-- `hash_regular_bounded` as a call. -/
def hashFile (faults : Faults) (path : List EntryName) (limit : Nat) :
    DiskEffect (String × Nat) :=
  look faults fun tree => (tree.hashRegularBounded (shownPath path) path limit).mapError .backup

/-- One entry in `hash_store_files`. -/
def hashEntry (faults : Faults) (directory : List EntryName) (records : List FileRecord)
    (name : EntryName) : DiskEffect (List FileRecord) := do
  let kind ← symlinkMetadata faults (directory ++ [name])
  give (require (kind.any EntryKind.isFile = true)
    (.backup ("snapshot entry `" ++ shownPath (directory ++ [name]) ++ "` is not a regular file")))
  give (require (Events.asBytes name.shown = name.bytes)
    (.backup "snapshot file name is not UTF-8"))
  give (require (records.length < maxStoreFiles)
    (.backup ("snapshot exceeds the " ++ toString maxStoreFiles ++ "-file limit")))
  let hashed ← hashFile faults (directory ++ [name]) maxStoreFileBytes
  pure (records ++ [⟨name.shown, hashed.2, hashed.1⟩])

/-- `hash_store_files`. -/
def hashStoreFiles (faults : Faults) (directory : List EntryName) :
    DiskEffect (List FileRecord) := do
  let names ← look faults fun tree =>
    if tree.find? directory = some .directory then .ok (tree.children directory)
    else .error (.io "No such file or directory (os error 2)")
  let records ← names.foldlM (hashEntry faults directory) []
  pure (records.mergeSort fun left right => decide (left.name ≤ right.name))

/-- `copy_config`. -/
def copyConfig (faults : Faults) (root dest : List EntryName) : DiskEffect (String × Nat) := do
  let source := root ++ texoDir ++ topPath configFile
  let bytes ← look faults fun tree =>
    (tree.readRegularBounded (shownPath source) source maxConfigBytes).mapError .backup
  writeNewSynced faults (dest ++ topPath configFile) bytes
  pure (Blake3.hex bytes, bytes.length)

omit [Blake3] in
/-- One record in `segment_refs_from_records`. -/
def segmentRef (record : FileRecord) : Except BackupError (Option BackupSegmentRef) :=
  if extension record.name.toList ≠ some "fbat".toList then .ok none
  else do
    let segmentId ← (parseU64 (fileStem record.name.toList)).elim
      (.error (.backup ("invalid segment filename `" ++ record.name ++ "`"))) .ok
    require (segmentFileName segmentId = record.name.toList)
      (.backup ("non-canonical segment filename `" ++ record.name ++ "`"))
    let bytesDigest ← (digestFromHex record.hashHex).elim
      (.error (.backup ("invalid segment digest for `" ++ record.name ++ "`"))) .ok
    pure (some ⟨segmentId, bytesDigest⟩)

omit [Blake3] in
/-- `segment_refs_from_records`. -/
def segmentRefsFromRecords (records : List FileRecord) :
    Except BackupError (List BackupSegmentRef) := do
  let found ← records.mapM segmentRef
  pure ((found.filterMap id).mergeSort fun left right =>
    decide (left.segmentId < right.segmentId ∨
      left.segmentId = right.segmentId ∧ left.bytesDigest ≤ right.bytesDigest))

omit [Blake3] in
/-- `build_substrate_manifest`. -/
def buildSubstrateManifest (substrate : Substrate) (snapshot : SnapshotEvidenceReport)
    (records : List FileRecord) : Except BackupError BackupManifestBody := do
  let segments ← segmentRefsFromRecords records
  let observed := segments.map BackupSegmentRef.segmentId
  require ((∀ id ∈ snapshot.body.copiedSegmentIdsSorted, id ∈ observed) ∧
      ∀ id ∈ observed, id ∈ snapshot.body.copiedSegmentIdsSorted)
    (.backup "snapshot segment evidence does not match copied segment files")
  pure {
    schemaVersion := substrate.manifestBodySchemaVersion
    backupId := snapshot.body.snapshotId
    layoutRevision := 1
    toolingRevision := 1
    segments := segments
  }

/-- `BackupDestination::create`. -/
def createDestination (faults : Faults) (dest : List EntryName) : DiskEffect Unit := do
  let stands ← symlinkMetadata faults dest
  give (require (stands = none) (.backup "backup destination already exists"))
  createDirAll faults [] dest.dropLast
  createDir faults dest

variable [Config.PrivateEndpoints]

omit [Blake3] [Config.PrivateEndpoints] in
/-- What stands at the path of a backup. -/
def Place.standing (tree : Tree) (path : List EntryName) : Place :=
  match tree.metadata path with
  | none => .missing
  | some .directory => .directory (tree.subtree path)
  | some _ => .irregular

/-- `verify_with_expected_manifest_hash` as a call. -/
def verifyAt (substrate : Substrate) (faults : Faults) (expected : Option String)
    (path : List EntryName) : DiskEffect BackupVerifyReport :=
  look faults fun tree =>
    (verifyWithExpectedManifestHash substrate (shownPath path) (shownPath path) expected
      (Place.standing tree path)).mapError .refused

/-- `create` behind the destination, whose manifest is written as `render` says. -/
def fillBackup (substrate : Substrate) (snapshotter : Snapshotter)
    (render : BackupManifest → List UInt8) (faults : Faults) (root dest : List EntryName)
    (workspace : Config.WorkspaceConfig) (createdAtMs : Nat) : DiskEffect BackupCreateReport := do
  let storeDest := dest ++ topPath storeDir
  let snapshot ← takeSnapshot snapshotter storeDest
  let storeFiles ← hashStoreFiles faults storeDest
  let substrateManifest ← give (buildSubstrateManifest substrate snapshot storeFiles)
  let substrateHash ← give ((substrate.backupManifestBodyHash substrateManifest).mapError fun error =>
    .backup ("substrate manifest encoding failed: " ++ error))
  let config ← copyConfig faults root dest
  let manifestBytes := render {
    schema := manifestSchema
    workspaceId := workspace.workspaceId
    storePath := workspace.storePath
    createdAtMs := createdAtMs
    snapshot := snapshot
    substrateManifest := substrateManifest
    substrateManifestHashHex := hexBytes substrateHash
    storeFiles := storeFiles
    configBytes := config.2
    configHashHex := config.1
  }
  writeNewSynced faults (dest ++ topPath manifestFile) manifestBytes
  syncDirectory faults dest
  let verified ← verifyAt substrate faults none dest
  give (require (verified.verified = true)
    (.backup ("prepared backup failed self-verification: " ++ verified.kinds)))
  syncDirectory faults dest.dropLast
  pure {
    dest := shownPath dest
    workspaceId := workspace.workspaceId
    storeFileCount := storeFiles.length
    storeBytes := (storeFiles.map FileRecord.bytes).sum
    snapshotIdHex := hexBytes snapshot.body.snapshotId
    substrateManifestHashHex := hexBytes substrateHash
    manifestHashHex := Blake3.hex manifestBytes
  }

/-- `create`; what fails behind the destination takes it away again. -/
def create (substrate : Substrate) (snapshotter : Snapshotter)
    (render : BackupManifest → List UInt8) (faults : Faults) (root store dest : List EntryName)
    (workspace : Config.WorkspaceConfig) (createdAtMs : Nat) : DiskEffect BackupCreateReport := do
  give (rejectOverlap root store dest)
  createDestination faults dest
  Effect.cleaning (Disk.removeAll dest)
    (fillBackup substrate snapshotter render faults root dest workspace createdAtMs)

end

section Laws

variable [Blake3] {faults : Faults} {disk last : Disk}

omit [Blake3] in
/-- The directories above a destination leave it as it was. -/
theorem createDirAll_apart {dest path : List EntryName} (named : dest ≠ []) (below : dest <+: path)
    {result : Except BackupError Unit}
    (done : (createDirAll faults [] dest.dropLast).outcome disk = (result, last)) :
    last.tree.find? path = disk.tree.find? path := by
  have above : (within fun other => other <+: dest.dropLast).Holds disk last := by
    refine (createDirAll_keeps fun part _ inner => Or.inl ?_).run done
    rw [List.nil_append]
    exact inner
  apply kept_of_within above
  intro inside
  have shorter := (below.trans inside).length_le
  have positive := List.length_pos_of_ne_nil named
  rw [List.length_dropLast] at shorter
  omega

omit [Blake3] in
/-- Around its path a destination is made without a change. -/
theorem createDestination_keeps (faults : Faults) (dest : List EntryName) :
    (createDestination faults dest).Keeps (around dest).Holds := by
  refine Effect.Keeps.bind Allowed.joins (look_keeps _) fun _ => ?_
  refine Effect.Keeps.bind Allowed.joins (give_keeps _) fun _ => ?_
  refine Effect.Keeps.bind Allowed.joins (createDirAll_keeps fun part _ inner => ?_) fun _ =>
    createDir_keeps (Or.inl (List.prefix_refl dest))
  rw [List.nil_append]
  exact Or.inr (Or.inr ⟨inner.trans (List.dropLast_prefix dest), rfl, rfl⟩)

omit [Blake3] in
/-- What was found to stand nowhere has a name, and nothing stands below it. -/
theorem nothing_below {tree : Tree} {path : List EntryName} (absent : tree.metadata path = none) :
    path ≠ [] ∧ ∀ other, path <+: other → tree.find? other = none := by
  unfold Tree.metadata at absent
  by_cases top : path = []
  · rw [if_pos top] at absent
    cases absent
  · rw [if_neg top] at absent
    refine ⟨top, ?_⟩
    rintro other ⟨rest, rfl⟩
    exact Tree.find?_of_below top absent rest

omit [Blake3] in
/-- A destination that is not made is left as it was. -/
theorem createDestination_error {dest : List EntryName} {error : BackupError}
    (failed : (createDestination faults dest).outcome disk = (.error error, last)) :
    ∀ path, dest <+: path → last.tree.find? path = disk.tree.find? path := by
  intro path below
  unfold createDestination symlinkMetadata at failed
  rcases Effect.bind_error.mp failed with unseen | ⟨stands, looked, first, failed⟩
  · rw [look_tree unseen]
  obtain ⟨seen, rfl⟩ := look_ok first
  rcases Effect.bind_error.mp failed with refused | ⟨_, checked, second, failed⟩
  · rw [give_tree refused]
  obtain ⟨free, rfl⟩ := give_ok second
  have absent := require_eq_ok.mp free
  rw [← Except.ok.inj seen] at absent
  rcases Effect.bind_error.mp failed with broken | ⟨_, made, third, failed⟩
  · have apart := createDirAll_apart (nothing_below absent).1 below broken
    exact apart
  · have apart := createDirAll_apart (nothing_below absent).1 below third
    rw [call_unbroken failed]
    exact apart

omit [Blake3] in
/-- A destination is made where nothing stood. -/
theorem createDestination_ok {dest : List EntryName} {value : Unit}
    (done : (createDestination faults dest).outcome disk = (.ok value, last)) :
    dest ≠ [] ∧ ∀ path, dest <+: path → disk.tree.find? path = none := by
  unfold createDestination symlinkMetadata at done
  obtain ⟨stands, looked, first, done⟩ := Effect.bind_ok.mp done
  obtain ⟨seen, rfl⟩ := look_ok first
  obtain ⟨_, checked, second, _⟩ := Effect.bind_ok.mp done
  obtain ⟨free, rfl⟩ := give_ok second
  have absent := require_eq_ok.mp free
  rw [← Except.ok.inj seen] at absent
  exact nothing_below absent

/-- Hashing a store changes nothing. -/
theorem hashStoreFiles_keeps {allowed : Allowed} (directory : List EntryName) :
    (hashStoreFiles faults directory).Keeps allowed.Holds := by
  have each : ∀ records name, (hashEntry faults directory records name).Keeps allowed.Holds :=
    fun _ _ => Effect.Keeps.bind Allowed.joins (look_keeps _) fun _ =>
      Effect.Keeps.bind Allowed.joins (give_keeps _) fun _ =>
        Effect.Keeps.bind Allowed.joins (give_keeps _) fun _ =>
          Effect.Keeps.bind Allowed.joins (give_keeps _) fun _ =>
            Effect.Keeps.bind Allowed.joins (look_keeps _) fun _ => Allowed.stays
  exact Effect.Keeps.bind Allowed.joins (look_keeps _) fun _ =>
    Effect.Keeps.bind Allowed.joins
      (Effect.Keeps.foldlM Allowed.stays Allowed.joins (fun made name _ => each made name) _)
      fun _ => Allowed.stays

/-- The names of entries that were hashed are text. -/
theorem hashEntries_text {directory : List EntryName} {names : List EntryName}
    {records found : List FileRecord}
    (done : (names.foldlM (hashEntry faults directory) records).outcome disk = (.ok found, last)) :
    ∀ name ∈ names, name.IsUtf8 := by
  induction names generalizing records disk with
  | nil => simp
  | cons name rest ih =>
    rw [List.foldlM_cons] at done
    obtain ⟨made, after, first, done⟩ := Effect.bind_ok.mp done
    intro other member
    rcases List.mem_cons.mp member with same | later
    · unfold hashEntry at first
      obtain ⟨_, _, _, first⟩ := Effect.bind_ok.mp first
      obtain ⟨_, _, _, first⟩ := Effect.bind_ok.mp first
      obtain ⟨_, _, checked, _⟩ := Effect.bind_ok.mp first
      obtain ⟨passed, _⟩ := give_ok checked
      rw [same]
      exact ⟨name.shown.toList, (require_eq_ok.mp passed).symm⟩
    · exact ih done other later

/-- A store that was hashed holds names of text only. -/
theorem hashStoreFiles_text {directory : List EntryName} {records : List FileRecord}
    (done : (hashStoreFiles faults directory).outcome disk = (.ok records, last)) :
    ∀ name ∈ disk.tree.children directory, name.IsUtf8 := by
  unfold hashStoreFiles at done
  obtain ⟨names, after, first, done⟩ := Effect.bind_ok.mp done
  obtain ⟨listed, rfl⟩ := look_ok first
  obtain ⟨_, _, hashed, _⟩ := Effect.bind_ok.mp done
  split at listed
  · cases listed
    exact hashEntries_text hashed
  · cases listed

/-- The configuration is copied where it may come to stand. -/
theorem copyConfig_keeps {allowed : Allowed} {root dest : List EntryName}
    (made : ∀ kind content,
      allowed.allows (dest ++ topPath configFile) kind (some (.file content))) :
    (copyConfig faults root dest).Keeps allowed.Holds :=
  Effect.Keeps.bind Allowed.joins (look_keeps _) fun bytes =>
    Effect.Keeps.bind Allowed.joins (writeNewSynced_keeps bytes made) fun _ => Allowed.stays

variable [Config.PrivateEndpoints] {substrate : Substrate} {snapshotter : Snapshotter}
  {render : BackupManifest → List UInt8} {root store dest : List EntryName}
  {workspace : Config.WorkspaceConfig} {createdAtMs : Nat}

/-- Behind the destination only the destination is written to. -/
theorem fillBackup_keeps : (fillBackup substrate snapshotter render faults root dest workspace
    createdAtMs).Keeps (around dest).Holds := by
  have below : ∀ rest, dest <+: dest ++ rest := List.prefix_append dest
  refine Effect.Keeps.bind Allowed.joins ?_ fun snapshot => ?_
  · intro disk path
    by_cases inside : dest ++ topPath storeDir <+: path
    · exact Or.inl ((below _).trans inside)
    · exact Or.inr (Or.inl (snapshotter.confined disk.calls disk.tree _ path inside))
  refine Effect.Keeps.bind Allowed.joins (hashStoreFiles_keeps _) fun storeFiles => ?_
  refine Effect.Keeps.bind Allowed.joins (give_keeps _) fun substrateManifest => ?_
  refine Effect.Keeps.bind Allowed.joins (give_keeps _) fun substrateHash => ?_
  refine Effect.Keeps.bind Allowed.joins
    (copyConfig_keeps fun _ _ => Or.inl (below _)) fun config => ?_
  refine Effect.Keeps.bind Allowed.joins
    (writeNewSynced_keeps _ fun _ _ => Or.inl (below _)) fun _ => ?_
  refine Effect.Keeps.bind Allowed.joins (look_keeps _) fun _ => ?_
  refine Effect.Keeps.bind Allowed.joins (look_keeps _) fun verified => ?_
  refine Effect.Keeps.bind Allowed.joins (give_keeps _) fun _ => ?_
  exact Effect.Keeps.bind Allowed.joins (look_keeps _) fun _ => Allowed.stays

/-- A backup that was created: it verifies, also against the pin that was reported, the names in
its store are text, and the store holds what the snapshot wrote. -/
structure Complete (substrate : Substrate) (snapshotter : Snapshotter) (dest : List EntryName)
    (report : BackupCreateReport) (tree : Tree) : Prop where
  stands : tree.find? dest = some .directory
  accepted : Accepts substrate (shownPath dest) (shownPath dest) none (tree.subtree dest)
  pinned : (verifyTree substrate (shownPath dest) (some report.manifestHashHex)
    (tree.subtree dest)).verified = true
  text : ∀ name ∈ (tree.subtree dest).children (topPath storeDir), name.IsUtf8
  taken : ∃ calls before, ∀ name, tree.find? (dest ++ topPath storeDir ++ [name]) =
    (snapshotter.run calls before (dest ++ topPath storeDir)).2.find?
      (dest ++ topPath storeDir ++ [name])

/-- A tree that verifies verifies against the digest of its manifest. -/
theorem verifyTree_pinned {shown : String} {tree : Tree} {bytes : List UInt8}
    (held : tree.find? (topPath manifestFile) = some (.file bytes))
    (verified : (verifyTree substrate shown none tree).verified = true) :
    (verifyTree substrate shown (some (Blake3.hex bytes)) tree).verified = true := by
  unfold verifyTree at verified ⊢
  cases read : tree.readRegularBounded (shownIn shown manifestFile) (topPath manifestFile)
      maxManifestBytes with
  | error detail =>
    rw [read] at verified
    cases verified
  | ok content =>
    have same := (Tree.readRegularBounded_ok read).symm.trans held
    cases same
    rw [read] at verified
    dsimp only at verified ⊢
    cases parsed : substrate.parseManifest bytes with
    | error error =>
      rw [parsed] at verified
      cases verified
    | ok manifest =>
      rw [parsed] at verified
      dsimp only at verified ⊢
      have pin : manifestFindings substrate shown (some (Blake3.hex bytes)) tree (Blake3.hex bytes)
          manifest = manifestFindings substrate shown none tree (Blake3.hex bytes) manifest := by
        unfold manifestFindings flagUnless
        simp
      rw [pin]
      exact verified

/-- Only a directory verifies. -/
theorem directory_of_verified {shown : String} {expected : Option String} {place : Place}
    {report : BackupVerifyReport}
    (run : verifyWithExpectedManifestHash substrate shown shown expected place = .ok report)
    (verified : report.verified = true) : ∃ tree, place = .directory tree := by
  cases place with
  | directory tree => exact ⟨tree, rfl⟩
  | missing =>
    obtain ⟨_, _, told⟩ := bind_eq_ok.mp run
    cases told
    cases verified
  | irregular =>
    obtain ⟨_, _, told⟩ := bind_eq_ok.mp run
    cases told
    cases verified

/-- What verifies at a path stands there. -/
theorem verifyAt_ok {expected : Option String} {path : List EntryName}
    {report : BackupVerifyReport}
    (done : (verifyAt substrate faults expected path).outcome disk = (.ok report, last))
    (verified : report.verified = true) :
    last.tree = disk.tree ∧ disk.tree.metadata path = some .directory ∧
      verifyWithExpectedManifestHash substrate (shownPath path) (shownPath path) expected
        (.directory (disk.tree.subtree path)) = .ok report := by
  obtain ⟨checked, rfl⟩ := look_ok done
  have run : verifyWithExpectedManifestHash substrate (shownPath path) (shownPath path) expected
      (Place.standing disk.tree path) = .ok report := by
    cases ran : verifyWithExpectedManifestHash substrate (shownPath path) (shownPath path) expected
        (Place.standing disk.tree path) with
    | error error =>
      rw [ran] at checked
      cases checked
    | ok found =>
      rw [ran] at checked
      rw [Except.ok.inj checked]
  obtain ⟨tree, standing⟩ := directory_of_verified run verified
  have stands : disk.tree.metadata path = some .directory := by
    unfold Place.standing at standing
    cases found : disk.tree.metadata path with
    | none =>
      rw [found] at standing
      cases standing
    | some kind =>
      rw [found] at standing
      cases kind with
      | directory => rfl
      | file content => cases standing
      | symlink target => cases standing
  unfold Place.standing at run
  rw [stands] at run
  exact ⟨rfl, stands, run⟩

/-- A filled destination is a complete backup. -/
theorem fillBackup_ok (named : dest ≠ []) {report : BackupCreateReport}
    (done : (fillBackup substrate snapshotter render faults root dest workspace
      createdAtMs).outcome disk = (.ok report, last)) :
    Complete substrate snapshotter dest report last.tree := by
  obtain ⟨storeName, storeTop, _⟩ := @topPath_eq storeDir (by simp)
  obtain ⟨configName, configTop, _⟩ := @topPath_eq configFile (by simp)
  obtain ⟨manifestName, manifestTop, _⟩ := @topPath_eq manifestFile (by simp)
  unfold fillBackup at done
  obtain ⟨snapshot, taken, snapped, done⟩ := Effect.bind_ok.mp done
  obtain ⟨storeFiles, hashed, hashing, done⟩ := Effect.bind_ok.mp done
  obtain ⟨substrateManifest, _, built, done⟩ := Effect.bind_ok.mp done
  obtain ⟨_, rfl⟩ := give_ok built
  obtain ⟨substrateHash, _, digested, done⟩ := Effect.bind_ok.mp done
  obtain ⟨_, rfl⟩ := give_ok digested
  obtain ⟨config, configured, copied, done⟩ := Effect.bind_ok.mp done
  obtain ⟨_, written, wrote, done⟩ := Effect.bind_ok.mp done
  obtain ⟨_, synced, syncs, done⟩ := Effect.bind_ok.mp done
  obtain ⟨_, rfl⟩ := look_ok syncs
  obtain ⟨verification, looked, verifies, done⟩ := Effect.bind_ok.mp done
  obtain ⟨_, _, passes, done⟩ := Effect.bind_ok.mp done
  obtain ⟨passed, rfl⟩ := give_ok passes
  have verified := require_eq_ok.mp passed
  obtain ⟨_, _, finished, done⟩ := Effect.bind_ok.mp done
  obtain ⟨_, rfl⟩ := look_ok finished
  obtain ⟨same, stands, run⟩ := verifyAt_ok verifies verified
  obtain ⟨ended, bytes, hash, manifest⟩ : last.tree = written.tree ∧ ∃ bytes,
      report.manifestHashHex = Blake3.hex bytes ∧
        written.tree.find? (dest ++ topPath manifestFile) = some (.file bytes) := by
    cases done
    exact ⟨same, _, rfl, writeNewSynced_ok wrote⟩
  have inner : (written.tree.subtree dest).find? (topPath manifestFile) = some (.file bytes) :=
    (Tree.find?_subtree _ _ (by rw [manifestTop]; simp)).trans manifest
  -- Behind the hashing only the configuration and the manifest are written.
  have kept : ∀ name, written.tree.find? (dest ++ topPath storeDir ++ [name]) =
      taken.tree.find? (dest ++ topPath storeDir ++ [name]) := by
    intro name
    have apart : ∀ top : EntryName, dest ++ topPath storeDir ++ [name] ≠ dest ++ [top] := by
      intro top equal
      have sizes := congrArg List.length equal
      rw [storeTop] at sizes
      simp at sizes
    have hashedSame : (within fun _ => False).Holds taken hashed :=
      (hashStoreFiles_keeps _).run hashing
    have configOnly : (within fun path => path = dest ++ topPath configFile).Holds hashed
        configured := (copyConfig_keeps fun _ _ => Or.inl rfl).run copied
    have manifestOnly : (within fun path => path = dest ++ topPath manifestFile).Holds configured
        written := (writeNewSynced_keeps _ fun _ _ => Or.inl rfl).run wrote
    rw [kept_of_within manifestOnly (by rw [manifestTop]; exact apart manifestName),
      kept_of_within configOnly (by rw [configTop]; exact apart configName),
      kept_of_within hashedSame id]
  unfold Tree.metadata at stands
  rw [if_neg named] at stands
  rw [← ended] at stands run inner kept
  refine ⟨stands, ⟨verification, run, verified⟩, ?_, ?_, disk.calls, disk.tree, ?_⟩
  · rw [hash]
    apply verifyTree_pinned inner
    unfold verifyWithExpectedManifestHash at run
    obtain ⟨_, _, told⟩ := bind_eq_ok.mp run
    rw [← Except.ok.inj told] at verified
    exact verified
  · intro name member
    obtain ⟨kind, found⟩ := Tree.mem_children.mp member
    rw [Tree.find?_subtree _ _ (by simp), ← List.append_assoc, kept] at found
    exact hashStoreFiles_text hashing name (Tree.mem_children.mpr ⟨kind, found⟩)
  · intro name
    rw [kept]
    have wrote : taken = ⟨(snapshotter.run disk.calls disk.tree (dest ++ topPath storeDir)).2,
        disk.calls + 1⟩ := (congrArg Prod.snd snapped).symm
    rw [wrote]

/-- Behind a success a backup is complete, where nothing stood before. -/
theorem create_ok {report : BackupCreateReport}
    (ran : (create substrate snapshotter render faults root store dest workspace
      createdAtMs).outcome disk = (.ok report, last)) :
    (around dest).Holds disk last ∧ disk.tree.find? dest = none ∧
      Complete substrate snapshotter dest report last.tree := by
  unfold create at ran
  obtain ⟨_, _, clear, ran⟩ := Effect.bind_ok.mp ran
  obtain ⟨_, rfl⟩ := give_ok clear
  obtain ⟨_, opened, made, ran⟩ := Effect.bind_ok.mp ran
  obtain ⟨named, absent⟩ := createDestination_ok made
  have filled := Effect.cleaning_ok.mp ran
  exact ⟨Allowed.joins _ _ _ ((createDestination_keeps faults dest).run made)
    (fillBackup_keeps.run filled), absent dest (List.prefix_refl dest), fillBackup_ok named filled⟩

/-- Behind an error the destination is as it was. -/
theorem create_error {error : BackupError}
    (ran : (create substrate snapshotter render faults root store dest workspace
      createdAtMs).outcome disk = (.error error, last)) :
    (around dest).Holds disk last ∧
      ∀ path, dest <+: path → last.tree.find? path = disk.tree.find? path := by
  unfold create at ran
  rcases Effect.bind_error.mp ran with refused | ⟨_, _, clear, ran⟩
  · rw [give_tree refused]
    exact ⟨Allowed.stays disk, fun _ _ => rfl⟩
  obtain ⟨_, rfl⟩ := give_ok clear
  rcases Effect.bind_error.mp ran with unmade | ⟨_, opened, made, ran⟩
  · exact ⟨(createDestination_keeps faults dest).run unmade, createDestination_error unmade⟩
  obtain ⟨_, absent⟩ := createDestination_ok made
  obtain ⟨left, failed, rfl⟩ := Effect.cleaning_error ran
  have removed : ∀ path, (left.removeAll dest).tree.find? path =
      if dest <+: path then none else left.tree.find? path := Tree.find?_removeAll left.tree dest
  refine ⟨Allowed.joins _ _ _ ((createDestination_keeps faults dest).run made)
    (Allowed.joins _ _ _ (fillBackup_keeps.run failed) fun path => ?_), fun path below => ?_⟩
  · rw [removed]
    by_cases below : dest <+: path
    · exact Or.inl below
    · exact Or.inr (Or.inl (if_neg below))
  · rw [removed, if_pos below, absent path below]

end Laws

end Texo.Backup
