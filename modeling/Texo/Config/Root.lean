import Texo.Config.Topology

/-! # Root configuration

The workspaces of `.texo/config.toml` and the resolution of one of them to its primary
journal. The semantic and gateway settings a file also carries are read by no modelled
function.
-/
namespace Texo.Config

open Texo.Foundation

/-- `WorkspaceEntry`. -/
structure WorkspaceEntry where
  primaryJournal : String
  journals : Journals
  docsGlob : String
  extractorCmd : Option String

/-- `TexoRootConfig`. -/
structure TexoRootConfig where
  defaultWorkspace : String
  workspaces : OrderedMap String WorkspaceEntry

/-- `WorkspaceConfig`: one workspace, resolved. -/
structure WorkspaceConfig where
  workspaceId : String
  storePath : String
  docsGlob : String
  extractorCmd : Option String
deriving DecidableEq, Repr

/-- `ConfigError`, the external failures by their texts. -/
inductive ConfigError where
  | io (detail : String)
  | parse (detail : String)
  | unknownWorkspace (id : String)
  | topology (error : TopologyError)
deriving DecidableEq, Repr

/-- `ConfigError::fmt`. -/
def ConfigError.message : ConfigError → String
  | .io detail => "io: " ++ detail
  | .parse detail => "parse: " ++ detail
  | .unknownWorkspace id => "unknown workspace: " ++ id
  | .topology error => "topology: " ++ error.message

/-- `DEFAULT_WORKSPACE_ID`. -/
def defaultWorkspaceId : String := "demo"

/-- `DEFAULT_STORE_PATH`. -/
def defaultStorePath : String := ".texo/store"

/-- The glob a fresh workspace scans. -/
def defaultDocsGlob : String := "sample_sources/**/*.md"

/-- A workspace whose only journal is canonical, at a store path. -/
def WorkspaceEntry.single (storePath : String) : WorkspaceEntry where
  primaryJournal := "canonical"
  journals := .singleton "canonical" (.canonical storePath)
  docsGlob := defaultDocsGlob
  extractorCmd := none

/-- `WorkspaceEntry::demo`. -/
def WorkspaceEntry.demo : WorkspaceEntry := .single defaultStorePath

/-- `WorkspaceEntry::for_id`. -/
def WorkspaceEntry.forId (workspaceId : String) : WorkspaceEntry :=
  if workspaceId = defaultWorkspaceId then .demo else .single (".texo/stores/" ++ workspaceId)

section
variable [PrivateEndpoints]

/-- `WorkspaceEntry::primary`. -/
def WorkspaceEntry.primary (entry : WorkspaceEntry) : Except ConfigError ResolvedJournal :=
  (resolveJournal entry.primaryJournal entry.journals none).mapError .topology

/-- `WorkspaceEntry::set_primary_store_path`. -/
def WorkspaceEntry.setPrimaryStorePath (entry : WorkspaceEntry) (storePath : String) :
    Except ConfigError WorkspaceEntry := do
  let primary ← entry.primary
  require (entry.journals.contains primary.id.value) (.topology (.missingJournal primary.id.value))
  pure { entry with
    journals := entry.journals.modify primary.id.value fun journal =>
      { journal with storePath := storePath } }

/-- `TexoRootConfig::resolve_journal`. -/
def TexoRootConfig.resolveJournal (config : TexoRootConfig) (workspaceId journalId : Option String) :
    Except ConfigError (WorkspaceConfig × ResolvedJournal) := do
  let id := workspaceId.getD config.defaultWorkspace
  let entry ← (config.workspaces.find? id).elim (.error (.unknownWorkspace id)) .ok
  let journal ← (Config.resolveJournal entry.primaryJournal entry.journals journalId).mapError
    .topology
  pure ({
    workspaceId := id
    storePath := journal.storePath
    docsGlob := entry.docsGlob
    extractorCmd := entry.extractorCmd
  }, journal)

/-- `TexoRootConfig::resolve`. -/
def TexoRootConfig.resolve (config : TexoRootConfig) (workspaceId : Option String) :
    Except ConfigError WorkspaceConfig :=
  (config.resolveJournal workspaceId none).map Prod.fst

end

end Texo.Config
