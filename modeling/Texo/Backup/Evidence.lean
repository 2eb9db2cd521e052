import Mathlib.Data.List.Induction
import Texo.Backup.Verify

/-! # What a pinned verification fixes

A verified backup holds its manifest, its configuration and a store directory, and in the
store a regular file with the recorded digest for each record. Store entries are compared
with the records by the text they are shown as, so the listing is fixed by the manifest as
long as that text determines the name.
-/
namespace Texo.Backup

open Texo.Events (Blake3)
open Texo.Foundation

/-- Entry names are equal when their bytes are. -/
theorem EntryName.ext {name other : EntryName} (same : name.bytes = other.bytes) : name = other := by
  cases name
  cases other
  simpa using same

/-- The entry name of some bytes has those bytes. -/
theorem EntryName.of?_bytes {bytes : List UInt8} {name : EntryName}
    (named : EntryName.of? bytes = some name) : name.bytes = bytes := by
  unfold EntryName.of? at named
  split at named
  · rw [← Option.some.inj named]
  · cases named

/-- The fixed names of a backup are names of entries. -/
theorem topPath_eq {name : String} (fixed : name ∈ [manifestFile, configFile, storeDir]) :
    ∃ entry : EntryName, topPath name = [entry] ∧ entry.bytes = Events.asBytes name := by
  have valid : validEntryName (Events.asBytes name) = true := by
    rcases List.mem_cons.mp fixed with rfl | rest
    · decide +kernel
    · rcases List.mem_cons.mp rest with rfl | last
      · decide +kernel
      · rw [List.mem_singleton.mp last]
        decide +kernel
  refine ⟨⟨Events.asBytes name, valid⟩, ?_, rfl⟩
  simp [topPath, pathIn, EntryName.of?, valid]

/-- The fixed names hold no replacement character. -/
theorem topName_clean {name : String} (fixed : name ∈ [manifestFile, configFile, storeDir]) :
    replacementChar ∉ name.toList := by
  rcases List.mem_cons.mp fixed with rfl | rest
  · decide +kernel
  · rcases List.mem_cons.mp rest with rfl | last
    · decide +kernel
    · rw [List.mem_singleton.mp last]
      decide +kernel

/-- An entry shown as a fixed name has it. -/
theorem topPath_shown {entry : EntryName} (fixed : entry.shown ∈ [manifestFile, configFile, storeDir]) :
    [entry] = topPath entry.shown := by
  obtain ⟨top, path, bytes⟩ := topPath_eq fixed
  have same : entry = top := by
    apply EntryName.ext
    rw [bytes, EntryName.asBytes_shown_of_clean (topName_clean fixed)]
  rw [path, same]

/-- A check finds nothing exactly when it holds. -/
theorem flagUnless_eq_nil {holds : Prop} [Decidable holds] {kind detail : String} :
    flagUnless holds kind detail = [] ↔ holds := by
  unfold flagUnless
  split
  · rename_i passed
    exact iff_of_true rfl passed
  · rename_i failed
    exact iff_of_false (List.cons_ne_nil _ _) failed

section
variable [Blake3]

/-- A record of the manifest stands in the store as recorded. -/
def Recorded (tree : Tree) (record : FileRecord) : Prop :=
  ∃ name content, EntryName.of? (Events.asBytes record.name) = some name ∧
    tree.find? (topPath storeDir ++ [name]) = some (.file content) ∧
      Blake3.hex content = record.hashHex ∧ content.length = record.bytes

/-- A record adds no finding exactly when it was new, safe and stands as recorded. -/
theorem StoreCheck.record_clean {dest : String} {tree : Tree} {check : StoreCheck}
    {record : FileRecord} (clean : (check.record dest tree record).findings = []) :
    check.findings = [] ∧ Recorded tree record ∧
      (check.record dest tree record).expected = record.name :: check.expected := by
  unfold StoreCheck.record at clean ⊢
  split at clean
  · exact absurd (List.append_eq_nil_iff.mp clean).2 (List.cons_ne_nil _ _)
  · rename_i safe
    rw [if_neg safe]
    dsimp only at clean ⊢
    cases named : pathIn (topPath storeDir) record.name with
    | none =>
      rw [named] at clean
      exact absurd (List.append_eq_nil_iff.mp clean).2 (List.cons_ne_nil _ _)
    | some path =>
      rw [named] at clean
      obtain ⟨name, entry, rfl⟩ := Option.map_eq_some_iff.mp named
      dsimp only at clean ⊢
      cases hashed : tree.hashRegularBounded (shownIn (shownIn dest storeDir) record.name)
          (topPath storeDir ++ [name]) maxStoreFileBytes with
      | error detail =>
        rw [hashed] at clean
        exact absurd (List.append_eq_nil_iff.mp clean).2 (List.cons_ne_nil _ _)
      | ok digest =>
        rw [hashed] at clean
        obtain ⟨content, found, rfl⟩ := Tree.hashRegularBounded_ok hashed
        dsimp only at clean ⊢
        by_cases same : Blake3.hex content = record.hashHex ∧ content.length = record.bytes
        · rw [if_pos same] at clean ⊢
          exact ⟨clean, ⟨name, content, entry, found, same⟩, rfl⟩
        · rw [if_neg same] at clean
          exact absurd (List.append_eq_nil_iff.mp clean).2 (List.cons_ne_nil _ _)

/-- The run law: with no finding, every record stands as recorded, and the expected names
are theirs. -/
theorem StoreCheck.records_clean {dest : String} {tree : Tree} {records : List FileRecord}
    {check : StoreCheck}
    (clean : (records.foldl (StoreCheck.record dest tree) check).findings = []) :
    check.findings = [] ∧ (∀ record ∈ records, Recorded tree record) ∧
      ∀ name, name ∈ (records.foldl (StoreCheck.record dest tree) check).expected ↔
        name ∈ check.expected ∨ ∃ record ∈ records, record.name = name := by
  induction records generalizing check with
  | nil => exact ⟨clean, by simp, by simp⟩
  | cons record rest ih =>
    rw [List.foldl_cons] at clean ⊢
    obtain ⟨now, later, names⟩ := ih clean
    obtain ⟨start, stands, expected⟩ := StoreCheck.record_clean now
    refine ⟨start, ?_, ?_⟩
    · intro other member
      rcases List.mem_cons.mp member with rfl | inside
      · exact stands
      · exact later other inside
    · intro name
      rw [names, expected]
      constructor
      · intro known
        rcases known with first | ⟨other, inside, named⟩
        · rcases List.mem_cons.mp first with rfl | before
          · exact Or.inr ⟨record, List.mem_cons_self, rfl⟩
          · exact Or.inl before
        · exact Or.inr ⟨other, List.mem_cons_of_mem _ inside, named⟩
      · intro known
        rcases known with before | ⟨other, inside, named⟩
        · exact Or.inl (List.mem_cons_of_mem _ before)
        · rcases List.mem_cons.mp inside with rfl | late
          · exact Or.inl (named ▸ List.mem_cons_self)
          · exact Or.inr ⟨other, late, named⟩

variable [Config.PrivateEndpoints]

/-- A backup directory is verified against a pin. -/
def Accepts (substrate : Substrate) (original dest : String) (pin : Option String) (tree : Tree) :
    Prop :=
  ∃ report, verifyWithExpectedManifestHash substrate original dest pin (.directory tree) =
    .ok report ∧ report.verified = true

/-- What a verified tree holds, under the manifest it was verified against. -/
structure Verified (substrate : Substrate) (pin : Option String) (tree : Tree)
    (bytes : List UInt8) (manifest : BackupManifest) : Prop where
  stands : tree.find? (topPath manifestFile) = some (.file bytes)
  parsed : substrate.parseManifest bytes = .ok manifest
  pinned : ∀ expected ∈ pin, expected = Blake3.hex bytes
  top : ∀ entry ∈ tree.children [], entry.shown ∈ [manifestFile, configFile, storeDir]
  store : tree.find? (topPath storeDir) = some .directory
  records : ∀ record ∈ manifest.storeFiles, Recorded tree record
  listed : ∀ entry ∈ tree.children (topPath storeDir),
    ∃ record ∈ manifest.storeFiles, record.name = entry.shown
  config : ∃ content, tree.find? (topPath configFile) = some (.file content) ∧
    Blake3.hex content = manifest.configHashHex
  binding : checkConfigBinding substrate tree manifest = []

omit [Config.PrivateEndpoints] in
/-- What a clean store check shows. -/
theorem checkStoreFiles_clean {dest : String} {tree : Tree} {manifest : BackupManifest}
    (clean : (checkStoreFiles dest tree manifest).2 = []) :
    tree.find? (topPath storeDir) = some .directory ∧
      (∀ record ∈ manifest.storeFiles, Recorded tree record) ∧
        ∀ entry ∈ tree.children (topPath storeDir),
          ∃ record ∈ manifest.storeFiles, record.name = entry.shown := by
  unfold checkStoreFiles at clean
  split at clean
  · rename_i found
    obtain ⟨quiet, unexpected⟩ := List.append_eq_nil_iff.mp clean
    obtain ⟨_, stands, names⟩ := StoreCheck.records_clean quiet
    refine ⟨found, stands, ?_⟩
    intro entry member
    have known := flagUnless_eq_nil.mp (List.flatMap_eq_nil_iff.mp unexpected entry member)
    rcases (names entry.shown).mp known with before | recorded
    · cases before
    · exact recorded
  · cases clean
  · cases clean

omit [Config.PrivateEndpoints] in
/-- What a clean configuration check shows. -/
theorem checkConfig_clean {dest : String} {tree : Tree} {manifest : BackupManifest}
    (clean : checkConfig dest tree manifest = []) :
    ∃ content, tree.find? (topPath configFile) = some (.file content) ∧
      Blake3.hex content = manifest.configHashHex := by
  unfold checkConfig at clean
  cases hashed : tree.hashRegularBounded (shownIn dest configFile) (topPath configFile)
      maxConfigBytes with
  | error detail =>
    rw [hashed] at clean
    cases clean
  | ok digest =>
    rw [hashed] at clean
    obtain ⟨content, found, rfl⟩ := Tree.hashRegularBounded_ok hashed
    exact ⟨content, found, (flagUnless_eq_nil.mp clean).1⟩

/-- An accepted tree is verified under the manifest it holds. -/
theorem Accepts.verified {substrate : Substrate} {original dest : String} {pin : Option String}
    {tree : Tree} (accepted : Accepts substrate original dest pin tree) :
    ∃ bytes manifest, Verified substrate pin tree bytes manifest := by
  obtain ⟨report, run, verified⟩ := accepted
  unfold verifyWithExpectedManifestHash at run
  obtain ⟨_, _, run⟩ := bind_eq_ok.mp run
  rw [← Except.ok.inj run] at verified
  unfold verifyTree at verified
  cases read : tree.readRegularBounded (shownIn dest manifestFile) (topPath manifestFile)
      maxManifestBytes with
  | error detail =>
    rw [read] at verified
    cases verified
  | ok bytes =>
    rw [read] at verified
    dsimp only at verified
    cases parsed : substrate.parseManifest bytes with
    | error error =>
      rw [parsed] at verified
      cases verified
    | ok manifest =>
      rw [parsed] at verified
      have clean : manifestFindings substrate dest pin tree (Blake3.hex bytes) manifest = [] :=
        List.isEmpty_iff.mp verified
      unfold manifestFindings at clean
      simp only [List.append_eq_nil_iff] at clean
      obtain ⟨⟨⟨⟨⟨⟨⟨⟨⟨pinned, _⟩, _⟩, top⟩, _⟩, _⟩, store⟩, config⟩, binding⟩, _⟩ := clean
      rw [if_pos config] at binding
      obtain ⟨directory, records, listed⟩ := checkStoreFiles_clean store
      refine ⟨bytes, manifest, Tree.readRegularBounded_ok read, parsed,
        flagUnless_eq_nil.mp pinned, ?_, directory, records, listed, checkConfig_clean config,
        binding⟩
      intro entry member
      exact flagUnless_eq_nil.mp (List.flatMap_eq_nil_iff.mp top entry member)

omit [Config.PrivateEndpoints] in
/-- What the bytes of a manifest say stands in a backup. -/
inductive Listed (bytes : List UInt8) (manifest : BackupManifest) :
    List EntryName → EntryKind → Prop where
  | manifest : Listed bytes manifest (topPath manifestFile) (.file bytes)
  | config {content} (hash : Blake3.hex content = manifest.configHashHex) :
    Listed bytes manifest (topPath configFile) (.file content)
  | store : Listed bytes manifest (topPath storeDir) .directory
  | recorded {record name content} (member : record ∈ manifest.storeFiles)
    (named : name.bytes = Events.asBytes record.name)
    (hash : Blake3.hex content = record.hashHex) :
    Listed bytes manifest (topPath storeDir ++ [name]) (.file content)

variable {substrate : Substrate} {pin : Option String} {tree : Tree} {bytes : List UInt8}
  {manifest : BackupManifest}

/-- Everything the manifest says stands in a verified tree. -/
theorem Verified.of_listed (verified : Verified substrate pin tree bytes manifest)
    (collisionFree : Function.Injective Blake3.hex) {path : List EntryName} {kind : EntryKind}
    (listed : Listed bytes manifest path kind) : tree.find? path = some kind := by
  cases listed with
  | manifest => exact verified.stands
  | config hash =>
    obtain ⟨content, found, same⟩ := verified.config
    rw [found, collisionFree (same.trans hash.symm)]
  | store => exact verified.store
  | recorded member named hash =>
    obtain ⟨name, content, entry, found, same, _⟩ := verified.records _ member
    have held : name = _ := EntryName.ext ((EntryName.of?_bytes entry).trans named.symm)
    rw [← held, found, collisionFree (same.trans hash.symm)]

/-- Where the names in the store are well-formed text, a verified tree holds nothing but what
the manifest says. -/
theorem Verified.listed_of_utf8 (verified : Verified substrate pin tree bytes manifest)
    (wellFormed : ∀ name ∈ tree.children (topPath storeDir), name.IsUtf8)
    {path : List EntryName} {kind : EntryKind} (found : tree.find? path = some kind) :
    Listed bytes manifest path kind := by
  -- Induction on the depth: the only directory above an entry is the store.
  induction path using List.reverseRecOn generalizing kind with
  | nil =>
    rw [tree.find?_root] at found
    cases found
  | append_singleton path name ih =>
    by_cases inner : path = []
    · rw [inner, List.nil_append] at found ⊢
      have fixed := verified.top name (Tree.mem_children.mpr ⟨kind, found⟩)
      rw [topPath_shown fixed] at found ⊢
      simp only [List.mem_cons, List.not_mem_nil, or_false] at fixed
      rcases fixed with isManifest | isConfig | isStore
      · rw [isManifest] at found ⊢
        rw [verified.stands] at found
        rw [← Option.some.inj found]
        exact .manifest
      · rw [isConfig] at found ⊢
        obtain ⟨content, held, hash⟩ := verified.config
        rw [held] at found
        rw [← Option.some.inj found]
        exact .config hash
      · rw [isStore] at found ⊢
        rw [verified.store] at found
        rw [← Option.some.inj found]
        exact .store
    · have above := ih (tree.find?_below found inner)
      cases above with
      | store =>
        have member : name ∈ tree.children (topPath storeDir) := Tree.mem_children.mpr ⟨kind, found⟩
        obtain ⟨record, recorded, named⟩ := verified.listed name member
        obtain ⟨held, content, entry, stands, hash, _⟩ := verified.records record recorded
        have bytes : name.bytes = Events.asBytes record.name := by
          rw [named, EntryName.asBytes_shown (wellFormed name member)]
        have same : held = name := EntryName.ext ((EntryName.of?_bytes entry).trans bytes.symm)
        rw [same, found] at stands
        rw [Option.some.inj stands]
        exact .recorded recorded bytes hash

/-- When a pinned verification fixes a backup. Of two trees one pin accepts at one path, the
first with names of well-formed text, the second holds exactly what the first does if and
only if the names in its store are well-formed text too. -/
theorem pinned_entries_iff (collisionFree : Function.Injective Blake3.hex) {substrate : Substrate}
    {original dest pin : String} {kept given : Tree}
    (named : ∀ entry ∈ kept.entries, ∀ name ∈ entry.1, name.IsUtf8)
    (acceptedKept : Accepts substrate original dest (some pin) kept)
    (acceptedGiven : Accepts substrate original dest (some pin) given) :
    (∀ path, given.find? path = kept.find? path) ↔
      ∀ name ∈ given.children (topPath storeDir), name.IsUtf8 := by
  constructor
  · intro same name member
    obtain ⟨kind, found⟩ := Tree.mem_children.mp member
    rw [same] at found
    exact named _ (Tree.find?_eq_some.mp found) name (by simp)
  · intro wellFormed path
    obtain ⟨bytes, manifest, keeps⟩ := acceptedKept.verified
    obtain ⟨givenBytes, givenManifest, gives⟩ := acceptedGiven.verified
    have oneBytes : givenBytes = bytes :=
      collisionFree ((gives.pinned pin rfl).symm.trans (keeps.pinned pin rfl))
    have oneManifest : givenManifest = manifest := by
      have parsed := gives.parsed
      rw [oneBytes, keeps.parsed] at parsed
      exact (Except.ok.inj parsed).symm
    rw [oneBytes, oneManifest] at gives
    have keptNames : ∀ name ∈ kept.children (topPath storeDir), name.IsUtf8 := by
      intro name member
      obtain ⟨kind, found⟩ := Tree.mem_children.mp member
      exact named _ (Tree.find?_eq_some.mp found) name (by simp)
    apply Option.ext
    intro kind
    constructor
    · intro found
      exact keeps.of_listed collisionFree (gives.listed_of_utf8 wellFormed found)
    · intro found
      exact gives.of_listed collisionFree (keeps.listed_of_utf8 keptNames found)

end

/-- Bytes as a number, no two lists the same. -/
def byteNumber (bytes : List UInt8) : Nat :=
  bytes.foldl (fun value byte => value * 257 + byte.toNat + 1) 0

/-- A collision-free digest: the number of the bytes in 64 hexadecimal digits, lowest first,
what does not fit in them in unary behind. -/
@[reducible] def spelledDigest : Blake3 where
  hex bytes := String.ofList
    (((List.range 64).map fun digit => Nat.digitChar (byteNumber bytes / 16 ^ digit % 16)) ++
      List.replicate (byteNumber bytes / 16 ^ 64) 'f')

/-- The number of some bytes determines them. -/
theorem byteNumber_inj {bytes other : List UInt8} (same : byteNumber bytes = byteNumber other) :
    bytes = other := by
  have step : ∀ front (byte : UInt8), byteNumber (front ++ [byte]) =
      byteNumber front * 257 + byte.toNat + 1 := by
    intro front byte
    simp [byteNumber, List.foldl_append]
  induction bytes using List.reverseRecOn generalizing other with
  | nil =>
    cases other using List.reverseRecOn with
    | nil => rfl
    | append_singleton front byte =>
      rw [step] at same
      have zero : byteNumber [] = 0 := rfl
      omega
  | append_singleton front byte ih =>
    cases other using List.reverseRecOn with
    | nil =>
      rw [step] at same
      have zero : byteNumber [] = 0 := rfl
      omega
    | append_singleton front' byte' =>
      rw [step, step] at same
      have small := byte.toNat_lt
      have small' := byte'.toNat_lt
      have bytes : byte.toNat = byte'.toNat := by omega
      have fronts : byteNumber front = byteNumber front' := by omega
      rw [ih fronts, UInt8.toNat_inj.mp bytes]

/-- Numbers with the same hexadecimal digits agree in as many digits. -/
theorem mod_of_digits {number other : Nat} (count : Nat)
    (same : ∀ digit < count, Nat.digitChar (number / 16 ^ digit % 16) =
      Nat.digitChar (other / 16 ^ digit % 16)) : number % 16 ^ count = other % 16 ^ count := by
  have distinct : ∀ digit < 16, ∀ digit' < 16, Nat.digitChar digit = Nat.digitChar digit' →
      digit = digit' := by decide
  induction count with
  | zero => simp [Nat.mod_one]
  | succ count ih =>
    have front := ih fun digit below => same digit (by omega)
    have last := distinct _ (Nat.mod_lt _ (by decide)) _ (Nat.mod_lt _ (by decide))
      (same count (by omega))
    rw [Nat.mod_pow_succ, Nat.mod_pow_succ, front, last]

/-- The spelled digest is collision free. -/
theorem spelledDigest_injective : Function.Injective spelledDigest.hex := by
  intro bytes other same
  have lists := String.ofList_injective same
  have sizes := congrArg List.length lists
  simp only [List.length_append, List.length_map, List.length_range, List.length_replicate] at sizes
  have overflow : byteNumber bytes / 16 ^ 64 = byteNumber other / 16 ^ 64 := by omega
  have digits := (List.append_inj lists (by simp)).1
  have fits : byteNumber bytes % 16 ^ 64 = byteNumber other % 16 ^ 64 := by
    apply mod_of_digits
    intro digit below
    exact List.map_inj_left.mp digits digit (List.mem_range.mpr below)
  apply byteNumber_inj
  rw [← Nat.div_add_mod (byteNumber bytes) (16 ^ 64), overflow, fits, Nat.div_add_mod]

/-- A collision-free digest: the number of the bytes in decimal digits, lowest first. -/
@[reducible] def reversedDigest : Blake3 where
  hex bytes := String.ofList (Nat.toDigits 10 (byteNumber bytes)).reverse

/-- The reversed digest is collision free. -/
theorem reversedDigest_injective : Function.Injective reversedDigest.hex := by
  intro bytes other same
  have digits := List.reverse_injective (String.ofList_injective same)
  have numbers := congrArg (fun digits => Nat.ofDigitChars 10 digits 0) digits
  simp only [Nat.ofDigitChars_ten_toDigits] at numbers
  exact byteNumber_inj numbers

/-- The first bytes of a manifest, standing for the whole of it. -/
def demoManifestBytes : List UInt8 := Events.asBytes "\x7b\"schema\":\"texo.backup.v2\","

/-- The first line of a root configuration, standing for the whole of it. -/
def demoConfigBytes : List UInt8 := Events.asBytes "default_workspace = \"demo\""

/-- The configuration of the demonstration workspace. -/
def demoConfig : Config.TexoRootConfig where
  defaultWorkspace := "demo"
  workspaces := .singleton "demo" .demo

/-- The record of a store file. -/
def fileRecord (name : String) (content : List UInt8) : FileRecord :=
  ⟨name, content.length, spelledDigest.hex content⟩

/-- A manifest of the demonstration workspace over some store files, bound to a destination. -/
def demoManifest (dest : String) (files : List (String × List UInt8))
    (segments : List BackupSegmentRef) : BackupManifest where
  schema := manifestSchema
  workspaceId := "demo"
  storePath := Config.defaultStorePath
  createdAtMs := 0
  snapshot := ⟨⟨1, [7], (digestFromHex (spelledDigest.hex
    (Events.asBytes (shownIn dest storeDir)))).getD [], [1]⟩, [8]⟩
  substrateManifest := ⟨1, [7], 1, 1, segments⟩
  substrateManifestHashHex := spelledDigest.hex [9]
  storeFiles := files.map fun file => fileRecord file.1 file.2
  configBytes := demoConfigBytes.length
  configHashHex := spelledDigest.hex demoConfigBytes

/-- A substrate that reads one manifest and one configuration, and whose evidence agrees with
that manifest. -/
def demoSubstrate (manifest : BackupManifest) (config : Config.TexoRootConfig) : Substrate where
  parseManifest bytes := if bytes = demoManifestBytes then .ok manifest else .error "expected value"
  parseConfig bytes :=
    if bytes = demoConfigBytes then .ok config else .error (.parse "expected an equals")
  snapshotSchemaVersion := 1
  manifestBodySchemaVersion := 1
  snapshotReportBodyHash _ := .ok [8]
  backupManifestBodyHash _ := .ok ((digestFromHex (spelledDigest.hex [9])).getD [])
  restoreProofFindings body observed :=
    .ok (if observed = body.segments then [] else ["segment set differs"])
  openStore _ := .intact

/-- No endpoint is private. -/
@[reducible] def noEndpoints : Config.PrivateEndpoints where
  isPrivate _ := false

/-- The segment of the demonstration store. -/
def demoSegment : BackupSegmentRef := ⟨1, (digestFromHex (spelledDigest.hex [1])).getD []⟩

/-- A store file shown with a replacement character because its name holds one. -/
def demoNoteName : String := "note" ++ String.singleton replacementChar

/-- The manifest of a store of one segment and one note. -/
def notedManifest : BackupManifest :=
  demoManifest "/backup" [("000001.fbat", [1]), (demoNoteName, [2])] [demoSegment]

/-- The name of a text, as an entry. -/
def demoName (name : String) (valid : validEntryName (Events.asBytes name) = true) : EntryName :=
  ⟨Events.asBytes name, valid⟩

/-- The entries of a backup of one segment and one note. -/
def notedEntries : List (List EntryName × EntryKind) :=
  let store := demoName storeDir (by decide +kernel)
  [ ([demoName manifestFile (by decide +kernel)], .file demoManifestBytes),
    ([demoName configFile (by decide +kernel)], .file demoConfigBytes),
    ([store], .directory),
    ([store, demoName "000001.fbat" (by decide +kernel)], .file [1]),
    ([store, demoName demoNoteName (by decide +kernel)], .file [2]) ]

/-- A note under a name that is not text. -/
def strayName : EntryName := ⟨Events.asBytes "note" ++ [0xFF], by decide +kernel⟩

/-- The backup as it was recorded. -/
def notedTree : Tree where
  entries := notedEntries
  distinct := by decide +kernel
  rooted := by decide +kernel

/-- The backup with a second note, under a name shown like the first. -/
def strayTree : Tree where
  entries := notedEntries ++
    [([demoName storeDir (by decide +kernel), strayName], .file [3])]
  distinct := by decide +kernel
  rooted := by decide +kernel

/-- The pin of the recorded backup. -/
def demoPin : String := spelledDigest.hex demoManifestBytes

/-- Both trees are accepted under the pin. -/
theorem noted_accepted :
    let _ := spelledDigest
    let _ := noEndpoints
    Accepts (demoSubstrate notedManifest demoConfig) "/backup" "/backup" (some demoPin) notedTree ∧
      Accepts (demoSubstrate notedManifest demoConfig) "/backup" "/backup" (some demoPin)
        strayTree := by
  let _ := spelledDigest
  let _ := noEndpoints
  have runs : ∀ tree ∈ [notedTree, strayTree], ((verifyWithExpectedManifestHash
      (demoSubstrate notedManifest demoConfig) "/backup" "/backup" (some demoPin)
        (.directory tree)).toOption.map BackupVerifyReport.verified) = some true := by
    decide +kernel
  have accepts : ∀ tree ∈ [notedTree, strayTree],
      Accepts (demoSubstrate notedManifest demoConfig) "/backup" "/backup" (some demoPin) tree := by
    intro tree member
    obtain ⟨report, run, verified⟩ := Option.map_eq_some_iff.mp (runs tree member)
    refine ⟨report, ?_, verified⟩
    cases ran : verifyWithExpectedManifestHash (demoSubstrate notedManifest demoConfig) "/backup"
        "/backup" (some demoPin) (.directory tree) with
    | error error =>
      rw [ran] at run
      cases run
    | ok held =>
      rw [ran] at run
      rw [Option.some.inj run]
  exact ⟨accepts _ (by simp), accepts _ (by simp)⟩

/-- Every name of the recorded backup is text. -/
theorem noted_utf8 : ∀ entry ∈ notedTree.entries, ∀ name ∈ entry.1, name.IsUtf8 := by
  have named : ∀ text valid, (demoName text valid).IsUtf8 := fun text _ => ⟨text.toList, rfl⟩
  intro entry member name inside
  simp only [notedTree, notedEntries, List.mem_cons, List.not_mem_nil, or_false] at member
  rcases member with rfl | rfl | rfl | rfl | rfl
  · rw [List.mem_singleton.mp inside]
    exact named _ _
  · rw [List.mem_singleton.mp inside]
    exact named _ _
  · rw [List.mem_singleton.mp inside]
    exact named _ _
  · rcases List.mem_cons.mp inside with rfl | last
    · exact named _ _
    · rw [List.mem_singleton.mp last]
      exact named _ _
  · rcases List.mem_cons.mp inside with rfl | last
    · exact named _ _
    · rw [List.mem_singleton.mp last]
      exact named _ _

/-- The recorded backup against itself and the one with the stray note: the first holds what
was recorded, as its names are text; the second does not. -/
theorem pinned_entries_noted :
    let _ := spelledDigest
    let _ := noEndpoints
    (∀ name ∈ notedTree.children (topPath storeDir), name.IsUtf8) ∧
      ((∀ path, strayTree.find? path = notedTree.find? path) ↔
        ∀ name ∈ strayTree.children (topPath storeDir), name.IsUtf8) := by
  let _ := spelledDigest
  let _ := noEndpoints
  exact ⟨(pinned_entries_iff spelledDigest_injective noted_utf8 noted_accepted.1
      noted_accepted.1).mp fun _ => rfl,
    pinned_entries_iff spelledDigest_injective noted_utf8 noted_accepted.1 noted_accepted.2⟩

/-- The pin accepts a backup with one more store file than was recorded: its name is shown
as the name of a recorded file. -/
theorem stray_name_accepted :
    let _ := spelledDigest
    let _ := noEndpoints
    Function.Injective (Blake3.hex) ∧
      (∀ entry ∈ notedTree.entries, ∀ name ∈ entry.1, name.IsUtf8) ∧
      Accepts (demoSubstrate notedManifest demoConfig) "/backup" "/backup" (some demoPin)
        notedTree ∧
      Accepts (demoSubstrate notedManifest demoConfig) "/backup" "/backup" (some demoPin)
        strayTree ∧
      strayTree.find? (topPath storeDir ++ [strayName]) = some (.file [3]) ∧
      notedTree.find? (topPath storeDir ++ [strayName]) = none := by
  let _ := spelledDigest
  let _ := noEndpoints
  exact ⟨spelledDigest_injective, noted_utf8, noted_accepted.1, noted_accepted.2,
    by decide +kernel, by decide +kernel⟩

end Texo.Backup
