import Texo.Events.Ids

/-! # Errors

The failures of the modelled operations, each with the data its message carries.
-/
namespace Texo

/-- Closed snapshot-read failure class. -/
inductive SnapshotFailureKind where
  | invalidToken
  | unavailable
  | anchorMismatch
  | sourceUnavailable
deriving DecidableEq, Repr

/-- `SnapshotFailureKind::fmt`. -/
def SnapshotFailureKind.message : SnapshotFailureKind → String
  | .invalidToken => "invalid token"
  | .unavailable => "unavailable"
  | .anchorMismatch => "anchor mismatch"
  | .sourceUnavailable => "source unavailable"

/-- `TexoError`, restricted to the variants the modelled operations raise. -/
inductive TexoError where
  | io (detail : String)
  | store (detail : String)
  | decode (entity detail : String)
  | opInput (op detail : String)
  | opRuntime (op detail : String) (denied : Bool)
  | missingEntity (entity : String)
  | statusParse (value : String)
  | transition (machine : String) (start target : Nat) (context : Option String)
  | source (path detail : String)
  | extract (detail : String)
  | semantics (backend detail : String)
  | idParse (error : Events.IdParseError)
  | snapshot (kind : SnapshotFailureKind) (detail : String)
  | model (detail : String)
deriving DecidableEq, Repr

/-- `IdParseError::fmt`. -/
def Events.IdParseError.message : Events.IdParseError → String
  | .empty => "identifier must not be empty"
  | .badPrefix expected => "identifier must start with `" ++ expected ++ "`"
  | .invalidWorkspace => "invalid workspace id"
  | .hashTooShort min => "body hash must be at least " ++ toString min ++ " hex characters"

/-- `TexoError::fmt`. -/
def TexoError.message : TexoError → String
  | .io detail => "io: " ++ detail
  | .store detail => "store: " ++ detail
  | .decode entity detail => "journal decode for " ++ entity ++ ": " ++ detail
  | .opInput op detail => "op input " ++ op ++ ": " ++ detail
  | .opRuntime op detail _ => "op runtime " ++ op ++ ": " ++ detail
  | .missingEntity entity => "domain missing: " ++ entity
  | .statusParse value => "domain status: " ++ value
  | .transition machine start target context =>
    "domain transition " ++ machine ++ ": " ++ toString start ++ " -> " ++ toString target ++
      (match context with
      | none => ""
      | some value => " (" ++ value ++ ")")
  | .source path detail => "source " ++ path ++ ": " ++ detail
  | .extract detail => "extract: " ++ detail
  | .semantics backend detail => "semantics " ++ backend ++ ": " ++ detail
  | .idParse error => "domain id: " ++ error.message
  | .snapshot kind detail => "snapshot " ++ kind.message ++ ": " ++ detail
  | .model detail => "model: " ++ detail

/-- A failed operation together with the mutable state it leaves behind: `&mut`
arguments keep their partial updates when a function returns early. -/
structure Failure (State : Type) where
  error : TexoError
  left : State

/-- The mutable state after a call, whether it succeeded or failed. -/
def settled {State : Type} : Except (Failure State) State → State
  | .ok state => state
  | .error failure => failure.left

@[simp] theorem settled_ok {State : Type} (state : State) :
    settled (.ok state : Except (Failure State) State) = state := rfl

@[simp] theorem settled_error {State : Type} (failure : Failure State) :
    settled (.error failure : Except (Failure State) State) = failure.left := rfl

/-- `u64::saturating_add`. -/
def saturatingAdd (a b : Nat) : Nat := min (a + b) (2 ^ 64 - 1)

/-- `u32::saturating_add`. -/
def saturatingAdd32 (a b : Nat) : Nat := min (a + b) (2 ^ 32 - 1)

end Texo
