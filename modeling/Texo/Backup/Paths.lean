import Mathlib.Algebra.GroupWithZero.Nat
import Mathlib.Data.List.Basic

/-! # Path text

The parts of a path text that the backup code looks at: its components, its file name and
the extension of a file name.
-/
namespace Texo.Backup

/-- `Component`, on a system without path prefixes. -/
inductive Component where
  | rootDir
  | curDir
  | parentDir
  | normal (name : List Char)
deriving DecidableEq, Repr

/-- The component of one segment between separators; a `.` stands only where it opens a
relative path. -/
def segmentComponent (opening : Bool) (segment : List Char) : Option Component :=
  if segment = [] then none
  else if segment = ['.'] then (if opening then some .curDir else none)
  else if segment = ['.', '.'] then some .parentDir
  else some (.normal segment)

/-- `Path::components`. -/
def components (path : List Char) : List Component :=
  match path with
  | '/' :: rest => .rootDir :: (rest.splitOn '/').filterMap (segmentComponent false)
  | _ =>
    match path.splitOn '/' with
    | [] => []
    | first :: rest =>
      (segmentComponent true first).toList ++ rest.filterMap (segmentComponent false)

/-- `Path::file_name`. -/
def fileName (path : List Char) : Option (List Char) :=
  match (components path).getLast? with
  | some (.normal name) => some name
  | _ => none

/-- The component is an ordinary name. -/
def Component.isNormal : Component → Bool
  | .normal _ => true
  | _ => false

/-- `safe_flat_name`. -/
def safeFlatName (name : String) : Bool :=
  !name.toList.isEmpty && (components name.toList).all Component.isNormal &&
    fileName name.toList = some name.toList

/-- The parts of a file name around its last dot, unless that dot opens the name. -/
def splitLastDot (name : List Char) : Option (List Char × List Char) :=
  if name = ['.', '.'] || !name.contains '.' then none
  else
    let stem := ((name.reverse.dropWhile (· ≠ '.')).drop 1).reverse
    if stem = [] then none else some (stem, (name.reverse.takeWhile (· ≠ '.')).reverse)

/-- `Path::extension` of a file name. -/
def extension (name : List Char) : Option (List Char) := (splitLastDot name).map Prod.snd

/-- `Path::file_stem` of a file name. -/
def fileStem (name : List Char) : List Char := (splitLastDot name).elim name Prod.fst

/-- The value of decimal digits. -/
def decimalValue (digits : List Char) : Nat :=
  digits.foldl (fun value digit => value * 10 + (digit.toNat - '0'.toNat)) 0

/-- `str::parse::<u64>`. -/
def parseU64 (text : List Char) : Option Nat :=
  let digits := match text with
    | '+' :: rest => rest
    | _ => text
  if digits.isEmpty || !digits.all Char.isDigit then none
  else if decimalValue digits < 2 ^ 64 then some (decimalValue digits)
  else none

/-- `format!("{segment_id:06}.fbat")`. -/
def segmentFileName (segmentId : Nat) : List Char :=
  let digits := (toString segmentId).toList
  List.replicate (6 - digits.length) '0' ++ digits ++ ".fbat".toList

end Texo.Backup
