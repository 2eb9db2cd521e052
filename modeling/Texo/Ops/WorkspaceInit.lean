import Texo.Config.Root
import Texo.Foundation.CharBoundary
import Texo.Foundation.KeyedLog
import Texo.Store.Journal

/-! # Initialising a workspace

A run of `texo.workspace.init` enters its workspace into the config file and records the digest of the
file in the journal, once for each workspace and digest. A digest that recurs behind another one is not
recorded again, so the last event of the workspace need not be about the file on disk.
-/
namespace Texo.Ops
open Texo.Config Texo.Events Texo.Foundation Texo.Store

/-- The TOML form of a config file. The gateway and the semantic settings of its workspaces are kept
as they are read; a file that is rendered reads as what it was rendered from. -/
class ConfigCodec (Settings : Type) where
  unset : Settings
  load : List UInt8 → Except ConfigError (TexoRootConfig × Settings)
  render : TexoRootConfig × Settings → Except String (List UInt8)
  load_render : ∀ config raw, render config = .ok raw → load raw = .ok config

/-- `WorkspaceInitializedV2`. -/
structure WorkspaceInitialized where
  workspaceId : String
  schema : String
  configDigestHex : String
  createdAtMs : Nat
deriving DecidableEq, Repr

/-- The idempotency key of `append_workspace_initialized`. -/
def WorkspaceInitialized.eventId (payload : WorkspaceInitialized) : EventId :=
  .forOperation "texo.workspace.initialized.v2" [payload.workspaceId, payload.configDigestHex]

/-- The failures of `workspace_init`. -/
inductive InitError where
  | config (detail : String)
  | io (detail : String)
  | store (detail : String)
deriving DecidableEq, Repr

/-- `WorkspaceInitInput`, with the root and the time of the environment. -/
structure InitRequest where
  workspaceId : String
  root : String
  observedAtMs : Nat

/-- What fails in a run: the write of the file, which leaves some file behind, or the append. -/
structure InitFaults where
  write : Option (Option (List UInt8)) := none
  append : Bool := false

/-- `WorkspaceInitOutput`. -/
structure InitOutput where
  workspaceId : String
  configPath : String
  alreadyInitialized : Bool
  receipt : EventId
deriving DecidableEq

/-- The config file and the events of `WorkspaceInitialized` in journal order. -/
structure InitState where
  config : Option (List UInt8)
  journal : List WorkspaceInitialized
deriving DecidableEq

/-- The entry of a workspace as the default one, with fresh settings unless it has some. -/
def enterWorkspace (workspaceId : String) (config : TexoRootConfig) : TexoRootConfig where
  defaultWorkspace := workspaceId
  workspaces :=
    if config.workspaces.contains workspaceId then config.workspaces
    else config.workspaces.insert workspaceId (.forId workspaceId)

section
variable {Settings : Type} [ConfigCodec Settings]

variable (Settings) in
/-- The config of a root, or an empty one. -/
def loadedConfig (workspaceId : String) (file : Option (List UInt8)) :
    Except InitError (TexoRootConfig × Settings) :=
  match file with
  | none => .ok (⟨workspaceId, .empty⟩, ConfigCodec.unset)
  | some raw => (ConfigCodec.load raw).mapError fun error => .config error.message

variable (Settings) in
/-- The config file a run leaves on disk. -/
def renderedConfig (workspaceId : String) (file : Option (List UInt8)) :
    Except InitError (List UInt8) :=
  match loadedConfig Settings workspaceId file with
  | .error error => .error error
  | .ok (config, settings) =>
    (ConfigCodec.render (enterWorkspace workspaceId config, settings)).mapError .config

/-- The last event of a workspace. -/
def lastInitialized (workspaceId : String) (journal : List WorkspaceInitialized) :
    Option WorkspaceInitialized :=
  latest (fun row => row.workspaceId = workspaceId) journal

/-- `journal_digest_matches`. -/
def journalDigestMatches (workspaceId digest : String) (journal : List WorkspaceInitialized) : Bool :=
  match lastInitialized workspaceId journal with
  | none => false
  | some row => row.configDigestHex = digest

variable (Settings) in
/-- `workspace_init`. -/
def workspaceInit [Blake3] (request : InitRequest) (faults : InitFaults) (state : InitState) :
    Except InitError InitOutput × InitState :=
  match renderedConfig Settings request.workspaceId state.config with
  | .error error => (.error error, state)
  | .ok raw =>
    let unchanged : Bool := state.config = some raw
    match if unchanged then none else faults.write with
    | some left => (.error (.io "config file"), { state with config := left })
    | none =>
      let payload : WorkspaceInitialized :=
        ⟨request.workspaceId, "texo.v2", Blake3.hex raw, request.observedAtMs⟩
      if faults.append then
        (.error (.store "append"), { state with config := some raw })
      else
        (.ok {
          workspaceId := request.workspaceId
          configPath := request.root ++ "/.texo/config.toml"
          alreadyInitialized := unchanged &&
            journalDigestMatches request.workspaceId (Blake3.hex raw) state.journal
          receipt := payload.eventId
        }, ⟨some raw, commit WorkspaceInitialized.eventId state.journal payload⟩)

/-- One step of a history: the file is edited, or a run of the operation. -/
inductive InitStep where
  | edit (file : Option (List UInt8))
  | init (request : InitRequest) (faults : InitFaults)

variable (Settings) in
/-- The state after a step. -/
def InitStep.apply [Blake3] (state : InitState) : InitStep → InitState
  | .edit file => { state with config := file }
  | .init request faults => (workspaceInit Settings request faults state).2

variable (Settings) in
/-- The state after a history, from a root without a config and a fresh store. -/
def runInit [Blake3] (steps : List InitStep) : InitState :=
  steps.foldl (InitStep.apply Settings) ⟨none, []⟩

variable (Settings) in
/-- The last event of a workspace is about the file on disk, and another run finds nothing to do. -/
structure Initialized [Blake3] (workspaceId : String) (state : InitState) : Prop where
  recorded : ∃ raw row, state.config = some raw ∧
    lastInitialized workspaceId state.journal = some row ∧ row.configDigestHex = Blake3.hex raw
  settled : ∀ root observedAtMs, ∃ output,
    workspaceInit Settings ⟨workspaceId, root, observedAtMs⟩ {} state = (.ok output, state) ∧
      output.alreadyInitialized = true

variable (Settings) in
/-- The digest a run records is new for its workspace, or that of its last event. -/
def DigestCurrent [Blake3] (workspaceId : String) (state : InitState) : Prop :=
  ∀ raw, renderedConfig Settings workspaceId state.config = .ok raw →
    (∀ row ∈ state.journal, row.workspaceId = workspaceId → row.configDigestHex ≠ Blake3.hex raw) ∨
      ∃ row, lastInitialized workspaceId state.journal = some row ∧
        row.configDigestHex = Blake3.hex raw

/-- A workspace that is entered stays as it is. -/
theorem enterWorkspace_again (workspaceId : String) (config : TexoRootConfig) :
    enterWorkspace workspaceId (enterWorkspace workspaceId config) =
      enterWorkspace workspaceId config := by
  have entered : (enterWorkspace workspaceId config).workspaces.contains workspaceId = true := by
    unfold enterWorkspace
    dsimp only
    by_cases known : config.workspaces.contains workspaceId = true
    · rw [if_pos known]
      exact known
    · rw [if_neg known]
      unfold OrderedMap.contains
      rw [OrderedMap.find?_insert, if_pos rfl]
      rfl
  show TexoRootConfig.mk workspaceId (if (enterWorkspace workspaceId config).workspaces.contains
    workspaceId then _ else _) = _
  rw [if_pos entered]
  rfl

/-- A file that a run has left is rendered as it is. -/
theorem renderedConfig_again {workspaceId : String} {file : Option (List UInt8)} {raw : List UInt8}
    (rendered : renderedConfig Settings workspaceId file = .ok raw) :
    renderedConfig Settings workspaceId (some raw) = .ok raw := by
  unfold renderedConfig at rendered
  split at rendered
  · cases rendered
  · rename_i config settings _
    cases written : ConfigCodec.render (enterWorkspace workspaceId config, settings) with
    | error detail =>
      rw [written] at rendered
      cases rendered
    | ok bytes =>
      rw [written] at rendered
      cases rendered
      have loaded : loadedConfig Settings workspaceId (some raw) =
          .ok (enterWorkspace workspaceId config, settings) := by
        unfold loadedConfig
        dsimp only
        rw [ConfigCodec.load_render _ _ written]
        rfl
      unfold renderedConfig
      rw [loaded]
      dsimp only
      rw [enterWorkspace_again, written]
      rfl

/-- The last event of a workspace has its workspace. -/
theorem workspaceId_of_last {workspaceId : String} {journal : List WorkspaceInitialized}
    {row : WorkspaceInitialized} (found : lastInitialized workspaceId journal = some row) :
    row.workspaceId = workspaceId := by
  simpa using (mem_of_latest found).2

variable [Blake3]

/-- The event that a run records. -/
def InitRequest.payload (request : InitRequest) (raw : List UInt8) : WorkspaceInitialized :=
  ⟨request.workspaceId, "texo.v2", Blake3.hex raw, request.observedAtMs⟩

/-- What a successful run leaves: the rendered file, and its event. -/
theorem workspaceInit_eq_ok {request : InitRequest} {faults : InitFaults} {state after : InitState}
    {output : InitOutput}
    (done : workspaceInit Settings request faults state = (.ok output, after)) :
    ∃ raw, renderedConfig Settings request.workspaceId state.config = .ok raw ∧
      after = ⟨some raw, commit WorkspaceInitialized.eventId state.journal (request.payload raw)⟩ := by
  unfold workspaceInit at done
  split at done
  · cases (Prod.mk.inj done).1
  · rename_i raw rendered
    dsimp only at done
    split at done
    · cases (Prod.mk.inj done).1
    · split at done
      · cases (Prod.mk.inj done).1
      · exact ⟨raw, rendered, (Prod.mk.inj done).2.symm⟩

/-- A run without faults leaves the rendered file, and its event. -/
theorem workspaceInit_rendered {request : InitRequest} {state : InitState} {raw : List UInt8}
    (rendered : renderedConfig Settings request.workspaceId state.config = .ok raw) :
    workspaceInit Settings request {} state =
      (.ok ⟨request.workspaceId, request.root ++ "/.texo/config.toml",
          state.config = some raw &&
            journalDigestMatches request.workspaceId (Blake3.hex raw) state.journal,
          (request.payload raw).eventId⟩,
        ⟨some raw, commit WorkspaceInitialized.eventId state.journal (request.payload raw)⟩) := by
  unfold workspaceInit
  rw [rendered]
  dsimp only
  rw [ite_self]
  rfl

/-- Two events of a workspace have one key exactly where they have one digest. -/
theorem eventId_eq_payload {row : WorkspaceInitialized} {request : InitRequest} {raw : List UInt8} :
    row.eventId = (request.payload raw).eventId ↔
      row.workspaceId = request.workspaceId ∧ row.configDigestHex = Blake3.hex raw := by
  unfold WorkspaceInitialized.eventId InitRequest.payload
  simp

/-- A run on a file that is recorded last changes nothing. -/
theorem workspaceInit_settled {workspaceId : String} {raw : List UInt8}
    {journal : List WorkspaceInitialized} {row : WorkspaceInitialized}
    (rendered : renderedConfig Settings workspaceId (some raw) = .ok raw)
    (found : lastInitialized workspaceId journal = some row)
    (same : row.configDigestHex = Blake3.hex raw) (root : String) (observedAtMs : Nat) :
    ∃ output, workspaceInit Settings ⟨workspaceId, root, observedAtMs⟩ {} ⟨some raw, journal⟩ =
        (.ok output, ⟨some raw, journal⟩) ∧ output.alreadyInitialized = true := by
  have known : ∃ other ∈ journal, other.eventId =
      (InitRequest.payload ⟨workspaceId, root, observedAtMs⟩ raw).eventId :=
    ⟨row, (mem_of_latest found).1, eventId_eq_payload.mpr ⟨workspaceId_of_last found, same⟩⟩
  have matched : journalDigestMatches workspaceId (Blake3.hex raw) journal = true := by
    unfold journalDigestMatches
    rw [found]
    exact decide_eq_true same
  have kept := commit_known known
  refine ⟨⟨workspaceId, root ++ "/.texo/config.toml", true,
    (InitRequest.payload ⟨workspaceId, root, observedAtMs⟩ raw).eventId⟩, ?_, rfl⟩
  unfold workspaceInit
  dsimp only
  rw [rendered]
  dsimp only
  rw [decide_eq_true rfl, if_pos rfl]
  dsimp only
  rw [matched]
  show (Except.ok _, InitState.mk (some raw) (commit WorkspaceInitialized.eventId journal
    (InitRequest.payload ⟨workspaceId, root, observedAtMs⟩ raw))) = _
  rw [kept]
  rfl

/-- A successful run leaves its workspace initialised exactly where its digest is current. -/
theorem initialized_iff {request : InitRequest} {faults : InitFaults} {state after : InitState}
    {output : InitOutput}
    (done : workspaceInit Settings request faults state = (.ok output, after)) :
    Initialized Settings request.workspaceId after ↔
      DigestCurrent Settings request.workspaceId state := by
  obtain ⟨raw, rendered, rfl⟩ := workspaceInit_eq_ok done
  have keyed : (∃ row, lastInitialized request.workspaceId
        (commit WorkspaceInitialized.eventId state.journal (request.payload raw)) = some row ∧
        row.eventId = (request.payload raw).eventId) ↔
      (∀ row ∈ state.journal, row.eventId ≠ (request.payload raw).eventId) ∨
        ∃ row, lastInitialized request.workspaceId state.journal = some row ∧
          row.eventId = (request.payload raw).eventId :=
    latest_commit_iff (decide_eq_true rfl)
  have current : DigestCurrent Settings request.workspaceId state ↔
      (∀ row ∈ state.journal, row.eventId ≠ (request.payload raw).eventId) ∨
        ∃ row, lastInitialized request.workspaceId state.journal = some row ∧
          row.eventId = (request.payload raw).eventId := by
    unfold DigestCurrent
    constructor
    · intro fits
      rcases fits raw rendered with fresh | ⟨row, found, same⟩
      · left
        intro row member equal
        obtain ⟨workspace, digest⟩ := eventId_eq_payload.mp equal
        exact fresh row member workspace digest
      · right
        exact ⟨row, found, eventId_eq_payload.mpr ⟨workspaceId_of_last found, same⟩⟩
    · intro fits other renders
      rw [rendered] at renders
      cases renders
      rcases fits with fresh | ⟨row, found, same⟩
      · left
        intro row member workspace digest
        exact fresh row member (eventId_eq_payload.mpr ⟨workspace, digest⟩)
      · right
        exact ⟨row, found, (eventId_eq_payload.mp same).2⟩
  rw [current, ← keyed]
  constructor
  · intro settled
    obtain ⟨found, row, file, last, same⟩ := settled.recorded
    cases file
    exact ⟨row, last, eventId_eq_payload.mpr ⟨workspaceId_of_last last, same⟩⟩
  · rintro ⟨row, last, same⟩
    have digest := (eventId_eq_payload.mp same).2
    exact ⟨⟨raw, row, rfl, last, digest⟩,
      workspaceInit_settled (renderedConfig_again rendered) last digest⟩

variable (Settings) in
/-- Each successful run of a history leaves its workspace initialised. -/
def InitializedAfterEach (steps : List InitStep) : Prop :=
  ∀ before request faults behind output after, steps = before ++ .init request faults :: behind →
    workspaceInit Settings request faults (runInit Settings before) = (.ok output, after) →
      Initialized Settings request.workspaceId after

/-- A history leaves its workspaces initialised after each run exactly where each run's digest is
current. -/
theorem initializedAfterEach_iff (steps : List InitStep) :
    InitializedAfterEach Settings steps ↔
      ∀ before request faults behind output after, steps = before ++ .init request faults :: behind →
        workspaceInit Settings request faults (runInit Settings before) = (.ok output, after) →
          DigestCurrent Settings request.workspaceId (runInit Settings before) := by
  unfold InitializedAfterEach
  constructor
  · intro each before request faults behind output after split done
    exact (initialized_iff done).mp (each before request faults behind output after split done)
  · intro each before request faults behind output after split done
    exact (initialized_iff done).mpr (each before request faults behind output after split done)

end

section Recurrence

instance {Key Value : Type} [LT Key] [DecidableEq Key] [DecidableEq Value] :
    DecidableEq (OrderedMap Key Value) := fun left right =>
  decidable_of_iff (left.entries = right.entries)
    ⟨fun same => by
      cases left
      cases right
      cases same
      rfl, congrArg OrderedMap.entries⟩

deriving instance DecidableEq for WorkspaceEntry, TexoRootConfig

/-- A config with only the demo workspace, of some documents. -/
def demoConfig (docsGlob : String) : TexoRootConfig :=
  ⟨"demo", .singleton "demo" { WorkspaceEntry.demo with docsGlob := docsGlob }⟩

/-- Its file. -/
def demoConfigFile (docsGlob : String) : List UInt8 := asBytes
  ("default_workspace = \"demo\"\n\n[workspaces.demo]\nprimary_journal = \"canonical\"\n" ++
    "docs_glob = \"" ++ docsGlob ++ "\"\n\n[workspaces.demo.journals.canonical]\n" ++
    "role = \"canonical\"\nstore_path = \".texo/store\"\n")

/-- The TOML form of two configs with their files. -/
@[reducible] def twoConfigs (first second : TexoRootConfig) (firstFile secondFile : List UInt8)
    (apart : secondFile ≠ firstFile) : ConfigCodec Unit where
  unset := ()
  load raw :=
    if raw = firstFile then .ok (first, ())
    else if raw = secondFile then .ok (second, ())
    else .error (.parse "unexpected")
  render config :=
    if config = (first, ()) then .ok firstFile
    else if config = (second, ()) then .ok secondFile
    else .error "unexpected"
  load_render := by
    intro config raw rendered
    split at rendered
    · rename_i same
      cases rendered
      rw [if_pos rfl, same]
    · split at rendered
      · rename_i same
        cases rendered
        rw [if_neg apart, if_pos rfl, same]
      · cases rendered

/-- The size of a file of a demo config. -/
theorem length_demoConfigFile :
    (demoConfigFile defaultDocsGlob).length = 197 ∧ (demoConfigFile "docs/**/*.md").length = 187 := by
  have bytes (docsGlob : String) : demoConfigFile docsGlob = _ := encodeChars_toList _
  rw [bytes, bytes]
  decide +kernel

/-- Two globs have two files. -/
theorem demoConfigFile_ne : demoConfigFile "docs/**/*.md" ≠ demoConfigFile defaultDocsGlob := by
  intro same
  have sizes := congrArg List.length same
  rw [length_demoConfigFile.1, length_demoConfigFile.2] at sizes
  cases sizes

/-- The TOML form of the configs of two globs. -/
@[reducible] def demoConfigCodec : ConfigCodec Unit :=
  twoConfigs (demoConfig defaultDocsGlob) (demoConfig "docs/**/*.md")
    (demoConfigFile defaultDocsGlob) (demoConfigFile "docs/**/*.md") demoConfigFile_ne

/-- The size of some bytes, in place of their digest. -/
@[reducible] def sizeDigest : Blake3 where
  hex bytes := toString bytes.length

/-- A run for the demo workspace. -/
def demoRequest : InitRequest := ⟨"demo", "/repo", 1700000000000⟩

/-- A workspace is initialised, its documents are moved and moved back, with a run after each. -/
def movedBack : List InitStep :=
  [.init demoRequest {}, .edit (some (demoConfigFile "docs/**/*.md")), .init demoRequest {},
    .edit (some (demoConfigFile defaultDocsGlob)), .init demoRequest {}]

section
variable {firstFile secondFile : List UInt8} (apart : secondFile ≠ firstFile)

/-- What a run on the file of a demo config leaves on disk. -/
theorem renderedConfig_demo :
    let _ := twoConfigs (demoConfig defaultDocsGlob) (demoConfig "docs/**/*.md") firstFile
      secondFile apart
    renderedConfig Unit "demo" none = .ok firstFile ∧
      renderedConfig Unit "demo" (some firstFile) = .ok firstFile ∧
      renderedConfig Unit "demo" (some secondFile) = .ok secondFile := by
  intro _
  have other : (demoConfig "docs/**/*.md", ()) ≠ (demoConfig defaultDocsGlob, ()) := by decide
  have entered : enterWorkspace "demo" ⟨"demo", .empty⟩ = demoConfig defaultDocsGlob := by decide
  have kept : enterWorkspace "demo" (demoConfig "docs/**/*.md") = demoConfig "docs/**/*.md" := by
    decide
  have writes : ConfigCodec.render (demoConfig defaultDocsGlob, ()) = .ok firstFile := if_pos rfl
  have writesOther : ConfigCodec.render (demoConfig "docs/**/*.md", ()) = .ok secondFile :=
    (if_neg other).trans (if_pos rfl)
  have reads : loadedConfig Unit "demo" (some secondFile) = .ok (demoConfig "docs/**/*.md", ()) := by
    unfold loadedConfig
    dsimp only
    rw [ConfigCodec.load_render _ _ writesOther]
    rfl
  have first : renderedConfig Unit "demo" none = .ok firstFile := by
    unfold renderedConfig loadedConfig
    dsimp only
    rw [entered]
    exact congrArg (Except.mapError InitError.config) writes
  refine ⟨first, renderedConfig_again first, ?_⟩
  unfold renderedConfig
  rw [reads]
  dsimp only
  rw [kept]
  exact congrArg (Except.mapError InitError.config) writesOther

/-- The row of a run for the demo workspace. -/
def demoRow (digest : String) : WorkspaceInitialized := ⟨"demo", "texo.v2", digest, 1700000000000⟩

/-- Behind the moves and the runs in between, another run records nothing: the first digest recurs
behind the second. -/
theorem movedBack_settles [Blake3] {digest other : String} (named : Blake3.hex firstFile = digest)
    (renamed : Blake3.hex secondFile = other) (differs : digest ≠ other) :
    let _ := twoConfigs (demoConfig defaultDocsGlob) (demoConfig "docs/**/*.md") firstFile
      secondFile apart
    let before : List InitStep := [.init demoRequest {}, .edit (some secondFile),
      .init demoRequest {}, .edit (some firstFile)]
    runInit Unit before = ⟨some firstFile, [demoRow digest, demoRow other]⟩ ∧
      workspaceInit Unit demoRequest {} (runInit Unit before) =
        (.ok ⟨"demo", "/repo/.texo/config.toml", false,
          .forOperation "texo.workspace.initialized.v2" ["demo", digest]⟩, runInit Unit before) := by
  intro _ before
  obtain ⟨fresh, early, late⟩ := renderedConfig_demo apart
  have row : demoRequest.payload firstFile = demoRow digest := by
    unfold InitRequest.payload
    rw [named]
    rfl
  have rowOther : demoRequest.payload secondFile = demoRow other := by
    unfold InitRequest.payload
    rw [renamed]
    rfl
  have keys : (demoRow digest).eventId ≠ (demoRow other).eventId := by
    unfold WorkspaceInitialized.eventId demoRow
    simp [differs]
  have started : (workspaceInit Unit demoRequest {} ⟨none, []⟩).2 =
      ⟨some firstFile, [demoRow digest]⟩ := by
    rw [workspaceInit_rendered fresh, row]
    dsimp only
    rw [commit_fresh fun _ member => absurd member List.not_mem_nil]
    rfl
  have moved : (workspaceInit Unit demoRequest {} ⟨some secondFile, [demoRow digest]⟩).2 =
      ⟨some secondFile, [demoRow digest, demoRow other]⟩ := by
    rw [workspaceInit_rendered late, rowOther]
    dsimp only
    rw [commit_fresh fun _ member => List.mem_singleton.mp member ▸ keys]
    rfl
  have ends : runInit Unit before = ⟨some firstFile, [demoRow digest, demoRow other]⟩ := by
    show InitStep.apply Unit (InitStep.apply Unit (InitStep.apply Unit
      (workspaceInit Unit demoRequest {} ⟨none, []⟩).2 (.edit (some secondFile)))
      (.init demoRequest {})) (.edit (some firstFile)) = _
    rw [started]
    show InitStep.apply Unit (workspaceInit Unit demoRequest {}
      ⟨some secondFile, [demoRow digest]⟩).2 (.edit (some firstFile)) = _
    rw [moved]
    rfl
  have unmatched : journalDigestMatches "demo" digest [demoRow digest, demoRow other] = false :=
    decide_eq_false differs.symm
  refine ⟨ends, ?_⟩
  rw [ends, workspaceInit_rendered early, row]
  dsimp only
  rw [named, commit_known ⟨demoRow digest, List.mem_cons_self, rfl⟩]
  show (Except.ok (InitOutput.mk _ _ (_ && journalDigestMatches "demo" digest _) _), _) = _
  rw [unmatched, Bool.and_false]
  rfl

end

/-- The run on the earlier config leaves the later one as the last that is recorded. -/
theorem movedBack_not_initialized :
    let _ := demoConfigCodec
    let _ := sizeDigest
    (runInit Unit movedBack).config = some (demoConfigFile defaultDocsGlob) ∧
      ((runInit Unit movedBack).journal.map WorkspaceInitialized.configDigestHex) = ["197", "187"] ∧
      ¬InitializedAfterEach Unit movedBack := by
  intro _ _
  have named : Blake3.hex (demoConfigFile defaultDocsGlob) = "197" :=
    (congrArg toString length_demoConfigFile.1).trans rfl
  have renamed : Blake3.hex (demoConfigFile "docs/**/*.md") = "187" :=
    (congrArg toString length_demoConfigFile.2).trans rfl
  obtain ⟨ends, unsettled⟩ := movedBack_settles demoConfigFile_ne named renamed (by decide)
  have split : movedBack = movedBack.take 4 ++ .init demoRequest {} :: [] := rfl
  have last : runInit Unit movedBack =
      (workspaceInit Unit demoRequest {} (runInit Unit (movedBack.take 4))).2 := by
    unfold runInit
    rw [split, List.foldl_append]
    rfl
  have same : runInit Unit movedBack = runInit Unit (movedBack.take 4) :=
    last.trans (congrArg Prod.snd unsettled)
  refine ⟨?_, ?_, ?_⟩
  · rw [same]
    exact congrArg InitState.config ends
  · rw [same]
    exact congrArg (fun state => state.journal.map WorkspaceInitialized.configDigestHex) ends
  · intro each
    have settled := each _ demoRequest {} [] _ _ split unsettled
    obtain ⟨output, again, found⟩ := settled.settled "/repo" 1700000000000
    have other := again.symm.trans unsettled
    rw [Except.ok.inj (Prod.mk.inj other).1] at found
    cases found

end Recurrence

end Texo.Ops
