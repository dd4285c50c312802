import Mathlib
import DebBuilder.Run.Model

/-!
# A Run and its publications

The parts of a Run document that the publication, the pruning and the eligibility for
publication read: the recorded artifact, the publication attempts with their stored
proofs, and the record of a pruned artifact.  A text that a document lacks, or that is
null there, is empty here.

## Main definitions

* `Scalar`, `Scalar.int?` — a JSON value without structure, and `int` of it.
* `PublicationProof` — `PublicationProofV1` as it is stored.
* `PublicationAttempt`, `RunArtifact`, `BuildRun` — the document.
-/

namespace DebBuilder.Publishing

/-! ## Numbers of a document -/

/-- A JSON value that is no list and no object. -/
inductive Scalar
  | null
  | bool (b : Bool)
  | int (n : Int)
  | float (q : Rat)
  | str (s : String)
  deriving DecidableEq, Repr

/-- The decimal digits of `int` of a string, with single underscores between them. -/
def digitsValue (n : Nat) : List Char → Option Nat
  | [] => some n
  | ['_'] => none
  | '_' :: c :: cs => if c.isDigit then digitsValue (10 * n + (c.toNat - 48)) cs else none
  | c :: cs => if c.isDigit then digitsValue (10 * n + (c.toNat - 48)) cs else none

/-- `int` of a trimmed decimal string. -/
def decimal? (s : String) : Option Int :=
  match s.toList with
  | '-' :: c :: cs => if c.isDigit then (digitsValue 0 (c :: cs)).map fun n => -(n : Int) else none
  | '+' :: c :: cs => if c.isDigit then (digitsValue 0 (c :: cs)).map Int.ofNat else none
  | c :: cs => if c.isDigit then (digitsValue 0 (c :: cs)).map Int.ofNat else none
  | [] => none

/-- `int(value)`, when it raises nothing. -/
def Scalar.int? : Scalar → Option Int
  | null => none
  | bool b => some (if b then 1 else 0)
  | int n => some n
  | float q => some (Int.tdiv q.num q.den)
  | str s => decimal? s.trimAscii.toString

/-- `value == n`: a Boolean and a float equal the integers that they are. -/
def Scalar.equals (n : Int) : Scalar → Bool
  | null | str _ => false
  | bool b => n = if b then 1 else 0
  | int m => m = n
  | float q => q = n

/-! ## Proofs -/

/-- The entry of an exported index, and the file it was read from. -/
structure IndexEvidence where
  path : String
  device : Int
  inode : Int
  filename : String
  size : Int
  sha256 : String
  deriving DecidableEq, Repr

/-- A file of the pool. -/
structure PoolEvidence where
  path : String
  size : Int
  sha256 : String
  device : Int
  inode : Int
  deriving DecidableEq, Repr

/-- What was found for one architecture of the repository. -/
structure Target where
  databaseArchitecture : String
  index : IndexEvidence
  pool : PoolEvidence
  deriving DecidableEq, Repr

/-- `RepositoryLease.identity` -/
structure RepositoryIdentity where
  root : String
  device : Int
  inode : Int
  deriving DecidableEq, Repr

structure Distribution where
  requested : String
  codename : String
  suite : String
  deriving DecidableEq, Repr

structure SourceEvidence where
  path : String
  size : Int
  sha256 : String
  device : Int
  inode : Int
  deriving DecidableEq, Repr

/-- `PublicationProofV1` -/
structure PublicationProof where
  schema : String
  proofVersion : Int
  verifiedAt : String
  repository : RepositoryIdentity
  distribution : Distribution
  component : String
  package : String
  version : String
  architecture : String
  targets : List Target
  source : SourceEvidence
  deriving DecidableEq, Repr

/-! ## Publication attempts -/

inductive PublicationStatus
  | running | success | failed
  deriving DecidableEq, Repr

/-- The repository that an attempt is about. -/
structure AttemptRepository where
  root : String
  distribution : String
  component : String
  deriving DecidableEq, Repr

/-- An entry of `publications`. -/
structure PublicationAttempt where
  id : String
  buildRunId : String
  artifact : String
  package : String
  version : String
  architecture : String
  status : PublicationStatus
  repository : AttemptRepository
  proof : Option PublicationProof
  error : Option String
  deriving DecidableEq, Repr

/-! ## The artifact of a Run -/

/-- What the inspection of a package file found. -/
structure Inspection where
  package : String
  version : String
  architecture : String
  deriving DecidableEq, Repr

/-- `source` of a pruning record or intent. -/
structure PrunedSource where
  path : String
  name : String
  size : Int
  sha256 : String
  deriving DecidableEq, Repr

/-- `pruning` of an artifact. -/
structure PruningRecord where
  schema : String
  pruningVersion : Int
  status : String
  reason : String
  prunedAt : String
  source : PrunedSource
  attemptId : String
  proof : PublicationProof
  deriving DecidableEq, Repr

/-- `artifact` of a Run. -/
structure RunArtifact where
  path : String
  size : Scalar
  sha256 : String
  inspection : Inspection
  pruning : Option PruningRecord
  deriving DecidableEq, Repr

/-- A Build Run document. -/
structure BuildRun where
  id : RunId
  mode : RunMode
  status : RunStatus
  workspace : String
  artifact : Option RunArtifact
  publications : List PublicationAttempt
  deriving DecidableEq, Repr

end DebBuilder.Publishing
