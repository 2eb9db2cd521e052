import Texo.Extract.Words
import Texo.Events.Ids
import Texo.Foundation.OrderedMap
import Texo.Foundation.Folds

/-! # Journal topology

The physical journals of a workspace: their declarations, the checks every declaration
passes together, and the resolution of one journal by its id. Nothing the checks of two
different declarations share looks at a store path except its uniqueness.
-/
namespace Texo.Config

open Texo.Foundation

/-- `TopologyError`. -/
inductive TopologyError where
  | empty
  | invalidJournalId (id : String)
  | missingJournal (id : String)
  | primaryNotCanonical (id : String)
  | emptyStorePath (id : String)
  | canonicalHasReplicaFields (id : String)
  | replicaMissingSource (id : String)
  | replicaMissingMode (id : String)
  | invalidRemoteSource (id : String)
  | remoteExactFork (id : String)
  | missingSource (replica sourceJournal : String)
  | replicaCycle (id : String)
  | duplicateStorePath (first second path : String)
deriving DecidableEq, Repr

/-- `TopologyError::fmt`. -/
def TopologyError.message : TopologyError → String
  | .empty => "workspace topology declares no journals"
  | .invalidJournalId id => "invalid journal id: " ++ id
  | .missingJournal id => "journal is not declared: " ++ id
  | .primaryNotCanonical id => "primary journal must be canonical: " ++ id
  | .emptyStorePath id => "journal has an empty store path: " ++ id
  | .canonicalHasReplicaFields id => "canonical journal carries replica fields: " ++ id
  | .replicaMissingSource id => "replica is missing source_journal: " ++ id
  | .replicaMissingMode id => "replica is missing replica_mode: " ++ id
  | .invalidRemoteSource id => "replica has invalid remote source fields: " ++ id
  | .remoteExactFork id => "remote replica cannot use exact_fork mode: " ++ id
  | .missingSource replica source =>
    "replica " ++ replica ++ " references missing source journal " ++ source
  | .replicaCycle id => "replica lineage contains a cycle at " ++ id
  | .duplicateStorePath first second path =>
    "journals " ++ first ++ " and " ++ second ++ " share store path " ++ path

/-- A byte of a journal id. -/
def journalIdByte (byte : UInt8) : Bool :=
  (0x30 ≤ byte && byte ≤ 0x39) || (0x41 ≤ byte && byte ≤ 0x5A) || (0x61 ≤ byte && byte ≤ 0x7A) ||
    byte == 0x2D || byte == 0x5F || byte == 0x2E

/-- The law of a journal id. -/
def validJournalId (value : String) : Bool :=
  let bytes := Events.asBytes value
  !bytes.isEmpty && bytes.length ≤ 128 && bytes.all journalIdByte

/-- `JournalId`. -/
structure JournalId where
  value : String
  valid : validJournalId value = true
deriving DecidableEq

/-- `JournalId::new`. -/
def JournalId.new (value : String) : Except TopologyError JournalId :=
  if valid : validJournalId value = true then .ok ⟨value, valid⟩
  else .error (.invalidJournalId value)

/-- `JournalRole`. -/
inductive JournalRole where
  | canonical
  | replica
deriving DecidableEq, Repr

/-- `ReplicaMode`. -/
inductive ReplicaMode where
  | exactFork
  | importedReadModel
deriving DecidableEq, Repr

/-- `JournalEntry`: one journal declaration. -/
structure JournalEntry where
  role : JournalRole
  storePath : String
  sourceJournal : Option String := none
  replicaMode : Option ReplicaMode := none
  sourceEndpoint : Option String := none
  sourceTokenEnv : Option String := none
deriving DecidableEq, Repr

/-- `JournalEntry::canonical`. -/
def JournalEntry.canonical (storePath : String) : JournalEntry :=
  { role := .canonical, storePath := storePath }

/-- `ResolvedJournal`. -/
structure ResolvedJournal where
  id : JournalId
  role : JournalRole
  storePath : String
  sourceJournal : Option JournalId
  replicaMode : Option ReplicaMode
  sourceEndpoint : Option String
  sourceTokenEnv : Option String
deriving DecidableEq

/-- The journals of one workspace by their ids. -/
abbrev Journals := OrderedMap String JournalEntry

/-- `private_socket_addr`, as far as whether it accepts an endpoint. -/
class PrivateEndpoints where
  /-- The endpoint is an address of a local or private network. -/
  isPrivate : String → Bool

/-- `valid_env_name`. -/
def validEnvName (value : String) : Bool :=
  let bytes := Events.asBytes value
  !bytes.isEmpty && bytes.all fun byte =>
    (0x41 ≤ byte && byte ≤ 0x5A) || (0x30 ≤ byte && byte ≤ 0x39) || byte == 0x5F

section
variable [PrivateEndpoints]

/-- The remote source fields of a replica are both absent, or both present and safe. -/
def remoteSourceValid (entry : JournalEntry) : Bool :=
  match entry.sourceEndpoint, entry.sourceTokenEnv with
  | some endpoint, some tokenEnv => PrivateEndpoints.isPrivate endpoint && validEnvName tokenEnv
  | none, none => true
  | _, _ => false

/-- The role fields of a declaration in `validate_all`. -/
def validateRole (journals : Journals) (id : JournalId) (entry : JournalEntry) :
    Except TopologyError Unit :=
  match entry.role with
  | .canonical =>
    if entry.sourceJournal.isSome || entry.replicaMode.isSome || entry.sourceEndpoint.isSome ||
        entry.sourceTokenEnv.isSome then
      .error (.canonicalHasReplicaFields id.value)
    else .ok ()
  | .replica => do
    let declared ← entry.sourceJournal.elim (.error (.replicaMissingSource id.value)) .ok
    let source ← JournalId.new declared
    require (source ≠ id) (.replicaCycle id.value)
    require (journals.contains source.value) (.missingSource id.value source.value)
    require entry.replicaMode.isSome (.replicaMissingMode id.value)
    require (remoteSourceValid entry) (.invalidRemoteSource id.value)
    require (!(entry.sourceEndpoint.isSome && entry.replicaMode = some .exactFork))
      (.remoteExactFork id.value)

/-- One declaration in `validate_all`, after the store paths of those before it. -/
def validateEntry (journals : Journals) (paths : List (String × String))
    (declared : String × JournalEntry) : Except TopologyError (List (String × String)) := do
  let id ← JournalId.new declared.1
  require (!(Extract.trim declared.2.storePath.toList).isEmpty) (.emptyStorePath id.value)
  match paths.find? fun path => path.1 = declared.2.storePath with
  | some first => .error (.duplicateStorePath first.2 id.value declared.2.storePath)
  | none => pure ()
  validateRole journals id declared.2
  pure ((declared.2.storePath, id.value) :: paths)

end

/-- The upstream id a journal declares. -/
def Journals.upstream (journals : Journals) (id : String) : Option String :=
  (journals.find? id).bind (·.sourceJournal)

/-- The lineage walk of one journal in `validate_all`: `false` on a cycle. -/
def lineageEnds (journals : Journals) : Nat → List String → String → Bool
  | 0, _, _ => false
  | fuel + 1, seen, cursor =>
    match journals.upstream cursor with
    | none => true
    | some source =>
      if cursor ∈ seen then false else lineageEnds journals fuel (cursor :: seen) source

/-- The lineage of one journal in `validate_all`. -/
def validateLineage (journals : Journals) (id : String) : Except TopologyError Unit :=
  require (lineageEnds journals (journals.entries.length + 1) [] id) (.replicaCycle id)

section
variable [PrivateEndpoints]

/-- `validate_all`. -/
def validateAll (journals : Journals) : Except TopologyError Unit := do
  require (!journals.entries.isEmpty) .empty
  let _ ← journals.entries.foldlM (validateEntry journals) []
  (journals.entries.map Prod.fst).forM (validateLineage journals)

/-- `resolve_journal`. -/
def resolveJournal (primaryJournal : String) (journals : Journals) (selected : Option String) :
    Except TopologyError ResolvedJournal := do
  let primary ← JournalId.new primaryJournal
  let primaryEntry ← (journals.find? primary.value).elim (.error (.missingJournal primary.value)) .ok
  require (primaryEntry.role = .canonical) (.primaryNotCanonical primary.value)
  validateAll journals
  let id ← JournalId.new (selected.getD primary.value)
  let entry ← (journals.find? id.value).elim (.error (.missingJournal id.value)) .ok
  let sourceJournal ← entry.sourceJournal.mapM JournalId.new
  pure {
    id := id
    role := entry.role
    storePath := entry.storePath
    sourceJournal := sourceJournal
    replicaMode := entry.replicaMode
    sourceEndpoint := entry.sourceEndpoint
    sourceTokenEnv := entry.sourceTokenEnv
  }

end

end Texo.Config
