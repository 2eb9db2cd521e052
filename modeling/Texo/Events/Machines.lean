import Mathlib.Data.List.Sort
import Texo.Events.Ids

/-! # Claim and conflict transition records

Every domain transition carries a versioned record: the machine it moves, the
edge it takes and the keys of the decisions that caused it.
-/
namespace Texo.Events

/-- Claim state machine identifier. -/
def claimMachine : String := "texo.claim.v2"

/-- Legal claim state edges. -/
def claimEdges : List (Nat × Nat) := [(0, 1), (1, 2)]

/-- Conflict state machine identifier. -/
def conflictMachine : String := "texo.conflict.v2"

/-- Legal conflict state edges. -/
def conflictEdges : List (Nat × Nat) := [(0, 1), (1, 2), (1, 3)]

/-- Cause reference for a domain state transition. -/
structure TransitionCauseV1 where
  lane : Nat
  key : String
deriving DecidableEq, Repr

/-- Versioned transition record stored inside domain transition payloads. -/
structure TransitionRecordV1 where
  schemaVersion : Nat
  machine : String
  previousState : Nat
  nextState : Nat
  transitionIdHex : String
  causes : List TransitionCauseV1
deriving DecidableEq, Repr

/-- `u64::to_be_bytes`: eight base-256 digits, most significant first. -/
def toBeBytes (value : Nat) : List UInt8 :=
  (List.range 8).reverse.map fun place => UInt8.ofNat (value / 256 ^ place)

variable [Blake3]

/-- `transition_id`: the digest of the edge and its sorted cause keys. -/
def transitionId (machine entity : String) (previousState nextState : Nat)
    (causes : List TransitionCauseV1) (observedAtMs : Nat) : String :=
  let causeKeys := (causes.map (·.key)).insertionSort (· ≤ ·)
  Blake3.hex (asBytes machine ++ asBytes entity ++ toBeBytes previousState ++
    toBeBytes nextState ++ causeKeys.flatMap asBytes ++ toBeBytes observedAtMs)

/-- `transition_record`: the record of one domain edge. -/
def transitionRecord (machine entity : String) (previousState nextState : Nat)
    (causes : List TransitionCauseV1) (observedAtMs : Nat) : TransitionRecordV1 where
  schemaVersion := 1
  machine := machine
  previousState := previousState
  nextState := nextState
  transitionIdHex := transitionId machine entity previousState nextState causes observedAtMs
  causes := causes

/-- The transition id ignores the order in which causes are listed. -/
theorem transitionId_perm (machine entity : String) (previousState nextState : Nat)
    {left right : List TransitionCauseV1} (observedAtMs : Nat)
    (same : (left.map (·.key)).Perm (right.map (·.key))) :
    transitionId machine entity previousState nextState left observedAtMs =
      transitionId machine entity previousState nextState right observedAtMs := by
  have keys : (left.map (·.key)).insertionSort (· ≤ ·) =
      (right.map (·.key)).insertionSort (· ≤ ·) :=
    (((List.perm_insertionSort _ _).trans same).trans
      (List.perm_insertionSort _ _).symm).eq_of_pairwise'
      List.sortedLE_insertionSort.pairwise List.sortedLE_insertionSort.pairwise
  simp only [transitionId, keys]

end Texo.Events
