import Mathlib
import DebBuilder.Lib.Fallible
import DebBuilder.Automation.Ledger

/-!
# Validation contracts

`validation_contracts.py`: the strict contracts of an attempt, of its prepared
dependencies and of its result.  A document here is one whose JSON has the fields of its
contract; the functions check their values and return the canonical document.  The rows
that no modelled function reads (repositories, packages, diagnostics, enforcement and
commands, and the details of a result's error) are left to the reading of the file.

## Main definitions

* `ArtifactIdentity`, `normalizeArtifactIdentity` — the identity of a package.
* `Attempt`, `normalizeValidationAttempt` — `attempt.json`.
* `Prepared`, `normalizePreparedRuntimeDependencies` — `prepared.json`.
* `Result`, `normalizeValidationResult` — `result.json`.
* `AutomationMetadata`, `automationValid` — `automation.json`.
-/

namespace DebBuilder.Validation
open Lib
open Automation (isLower isUpper isDigit isHexChar)

/-- `ValidationContractError` -/
structure ContractError where
  code : String
  message : String
  path : String := "$"
  deriving DecidableEq, Repr

/-- The error of a field that breaks the contract. -/
def invalidContract (message path : String) : ContractError := ⟨"invalid_contract", message, path⟩

/-! ## Strings and numbers -/

/-- `str.isspace` of one character. -/
def isSpace (c : Char) : Bool :=
  let n := c.toNat
  (9 ≤ n && n ≤ 13) || (28 ≤ n && n ≤ 32) || n ∈ [0x85, 0xa0, 0x1680, 0x2028, 0x2029, 0x202f,
    0x205f, 0x3000] || (0x2000 ≤ n && n ≤ 0x200a)

/-- `value != value.strip()` -/
def padded (value : String) : Bool :=
  value.toList.head?.any isSpace || value.toList.getLast?.any isSpace

/-- A character below the printable ones, or the deletion. -/
def isControl (c : Char) : Bool := c.toNat < 32 || c.toNat = 127

/-- A pattern of one first character and at most `more` others. -/
def shaped (first rest : Char → Bool) (more : Nat) (value : String) : Bool :=
  match value.toList with
  | [] => false
  | c :: cs => first c && cs.all rest && cs.length ≤ more

def isAlnum (c : Char) : Bool := isLower c || isUpper c || isDigit c

/-- `SAFE_ID` -/
def safeId : String → Bool := shaped isAlnum (fun c => isAlnum c || c ∈ ['.', '_', '+', '-']) 127

/-- `SAFE_PACKAGE` -/
def safePackage : String → Bool :=
  shaped (fun c => isLower c || isDigit c) (fun c => isLower c || isDigit c || c ∈ ['+', '.', '-']) 127

/-- `SAFE_ARCHITECTURE` -/
def safeArchitecture : String → Bool :=
  shaped (fun c => isLower c || isDigit c) (fun c => isLower c || isDigit c || c = '-') 31

/-- `SAFE_CODE` -/
def safeCode : String → Bool :=
  shaped (fun c => isLower c || isDigit c)
    (fun c => isLower c || isDigit c || c ∈ ['.', '_', '-']) 127

/-- `DEBIAN_VERSION_PATTERN`: its epoch and its revision are of the characters of its
upstream part. -/
def debianVersion (value : String) : Bool :=
  shaped isDigit (fun c => isAlnum c || c ∈ ['.', '+', ':', '~', '-']) value.length value

/-- `SHA256` -/
def isSha256 (value : String) : Bool := value.toList.length = 64 && value.toList.all isHexChar

/-- `OCI_IMAGE_ID` -/
def isImageId (value : String) : Bool :=
  value.startsWith "sha256:" && isSha256 (String.ofList (value.toList.drop 7))

/-- `str.lower` of the ASCII letters. -/
def lower (value : String) : String := String.ofList (value.toList.map Char.toLower)

/-- `_string` -/
def string (value path : String) (maximum : Nat) (pattern : String → Bool) :
    Except ContractError String :=
  if value = "" ∨ padded value then
    .error (invalidContract (path ++ " must be a non-empty string") path)
  else if maximum < value.length ∨ value.toList.any isControl then
    .error (invalidContract (path ++ " is not a bounded printable string") path)
  else if !pattern value then .error (invalidContract (path ++ " has an invalid format") path)
  else .ok value

/-- `_sha256` -/
def sha256 (value path : String) : Except ContractError String :=
  if isSha256 (lower value) then .ok (lower value)
  else .error (invalidContract (path ++ " must be a SHA-256 digest") path)

/-- `MAX_SAFE_INTEGER` -/
def maxSafeInteger : Int := 2 ^ 53 - 1

/-- `_positive_size` -/
def positiveSize (value : Int) (path : String) : Except ContractError Int :=
  if 0 < value ∧ value ≤ maxSafeInteger then .ok value
  else .error (invalidContract (path ++ " must be a positive JSON-safe integer") path)

/-- A timestamp of a file, and the instant that it names. -/
structure Timestamp where
  text : String
  instant : Int
  deriving DecidableEq, Repr

instance : LT Timestamp := ⟨fun a b => a.instant < b.instant⟩

instance (a b : Timestamp) : Decidable (a < b) := inferInstanceAs (Decidable (a.instant < b.instant))

/-! ## Identities -/

/-- The immutable identity of a package file. -/
structure ArtifactIdentity where
  package : String
  version : String
  architecture : String
  size : Int
  sha256 : String
  deriving DecidableEq, Repr

/-- `normalize_artifact_identity` -/
def normalizeArtifactIdentity (value : ArtifactIdentity) (path : String) :
    Except ContractError ArtifactIdentity := do
  let package ← string value.package (path ++ ".package") 128 safePackage
  let version ← string value.version (path ++ ".version") 256 debianVersion
  let architecture ← string value.architecture (path ++ ".architecture") 32 safeArchitecture
  let size ← positiveSize value.size (path ++ ".size")
  let digest ← Validation.sha256 value.sha256 (path ++ ".sha256")
  return { package, version, architecture, size, sha256 := digest }

/-- An OCI image. -/
structure ImageIdentity where
  name : String
  id : Option String
  digest : Option String
  deriving DecidableEq, Repr

/-- `_durable_identity_string` -/
def durableIdentityString (value path : String) (maximum : Nat) : Except ContractError String := do
  let text ← string value path maximum fun _ => true
  refuse (text.startsWith "/" || (lower text).startsWith "file:/")
    ⟨"ephemeral_contract_data", path ++ " must not contain a local filesystem path", path⟩
  refuse (text.toList.any isSpace) (invalidContract (path ++ " must not contain whitespace") path)
  return text

/-- A field that may be null. -/
def nullable {α : Type} (check : α → Except ContractError α) :
    Option α → Except ContractError (Option α)
  | none => .ok none
  | some value => (check value).map some

/-- `normalize_image_identity` -/
def normalizeImageIdentity (value : ImageIdentity) (path : String) :
    Except ContractError ImageIdentity := do
  let name ← durableIdentityString value.name (path ++ ".name") 512
  let id ← nullable (durableIdentityString · (path ++ ".id") 512) value.id
  let digest ← nullable (durableIdentityString · (path ++ ".digest") 512) value.digest
  return { name, id, digest }

/-- `_normalize_prepared_image_identity` -/
def normalizePreparedImageIdentity (value : ImageIdentity) (path : String) :
    Except ContractError ImageIdentity := do
  let image ← normalizeImageIdentity value path
  refuse (!image.id.any fun id => isImageId (lower id))
    (invalidContract (path ++ ".id must identify the exact OCI image by SHA-256") (path ++ ".id"))
  return { image with id := image.id.map lower }

/-! ## Attempts -/

/-- `VALIDATION_STATUSES` -/
inductive Status
  | queued | running | cancelling | cancelled | success | failed
  deriving DecidableEq, Repr

/-- `ACTIVE_STATUSES` -/
def Status.active : Status → Bool
  | queued | running | cancelling => true
  | cancelled | success | failed => false

/-- What an attempt is about. -/
structure Inputs where
  profile : String
  artifact : ArtifactIdentity
  previousArtifact : Option ArtifactIdentity
  deriving DecidableEq, Repr

structure Profile where
  name : String
  image : ImageIdentity
  deriving DecidableEq, Repr

/-- The reference of an attempt to its result. -/
structure ResultReference where
  status : Status
  reference : Option String
  deriving DecidableEq, Repr

/-- The error of an attempt or of a result. -/
structure AttemptError where
  code : String
  message : String
  deriving DecidableEq, Repr

/-- `attempt.json` -/
structure Attempt where
  contractVersion : Int
  id : String
  buildRunId : String
  inputs : Inputs
  selectedProfile : Profile
  createdAt : Timestamp
  startedAt : Option Timestamp
  finishedAt : Option Timestamp
  status : Status
  result : Option ResultReference
  error : Option AttemptError
  deriving DecidableEq, Repr

/-- The versions that a contract supports: the current one. -/
def contractVersion (what : String) (current version : Int) : Except ContractError Unit := do
  refuse (version > current)
    ⟨"future_contract_version", what ++ " is newer than supported", "$.contract_version"⟩
  refuse (version ≠ current)
    ⟨"unsupported_contract_version", what ++ " version is unsupported", "$.contract_version"⟩

/-- Previous and current artifact are of one package. -/
def compatible (previous : Option ArtifactIdentity) (current : ArtifactIdentity) : Bool :=
  previous.all fun p => p.package = current.package && p.architecture = current.architecture

/-- Membership in a list of path components is decided with this instance. -/
local instance lawfulBEqComponent : LawfulBEq (List Char) := inferInstance

/-- `_normalize_attempt_result` -/
def normalizeAttemptResult (value : ResultReference) (path : String) :
    Except ContractError ResultReference := do
  refuse (value.status.active) (invalidContract (path ++ ".status is invalid") (path ++ ".status"))
  let reference ← nullable (string · (path ++ ".reference") 256 fun _ => true) value.reference
  refuse (reference.any fun r => r.startsWith "/" || r.toList.any (· ∈ ['\\', '?', '#']) ||
      (r.toList.splitOn '/').any (· ∈ [[], ['.'], ['.', '.']]))
    ⟨"ephemeral_contract_data", "Validation result reference must be a safe relative path",
      path ++ ".reference"⟩
  return { value with reference }

/-- `_normalize_attempt_error`, less the texts that its message must not hold. -/
def normalizeAttemptError (value : AttemptError) (path : String) :
    Except ContractError AttemptError := do
  let code ← string value.code (path ++ ".code") 128 safeCode
  let message ← string value.message (path ++ ".message") 1000 fun _ => true
  return { code, message }

/-- The rules of `normalize_validation_attempt` on the fields that go with a status, in
their order. -/
def statusRules (a : Attempt) : Except ContractError Unit := do
  refuse (a.status = .queued ∧
      (a.startedAt ≠ none ∨ a.finishedAt ≠ none ∨ a.result ≠ none ∨ a.error ≠ none))
    (invalidContract "Queued validation attempt has terminal or started fields" "$.status")
  refuse ((a.status = .running ∨ a.status = .cancelling) ∧
      (a.startedAt = none ∨ a.finishedAt ≠ none ∨ a.result ≠ none ∨ a.error ≠ none))
    (invalidContract "Active validation attempt has inconsistent fields" "$.status")
  refuse (a.status = .cancelled ∧ (a.finishedAt = none ∨ a.error = none))
    (invalidContract "Cancelled validation attempt has inconsistent terminal fields" "$.status")
  refuse (a.status = .success ∧
      (a.startedAt = none ∨ a.finishedAt = none ∨ a.result.all (·.status ≠ a.status)))
    (invalidContract "Terminal validation attempt has inconsistent result fields" "$.status")
  refuse ((a.status = .failed ∨ a.status = .cancelled) ∧
      (a.finishedAt = none ∨ a.result.any (·.status ≠ a.status)))
    (invalidContract "Terminal validation attempt has inconsistent result fields" "$.status")
  refuse (a.status = .success ∧ a.error ≠ none)
    (invalidContract "Successful validation attempt must not contain an error" "$.error")
  refuse (a.status = .success ∧ a.result.all (·.reference ≠ some "result.json"))
    (invalidContract "Successful validation attempt requires result.json" "$.result")
  refuse (a.result.any (·.reference ≠ some "result.json"))
    (invalidContract "Validation result reference must be result.json" "$.result.reference")
  refuse (a.status = .failed ∧ a.error = none)
    (invalidContract "Failed validation attempt requires an error" "$.error")
  refuse (a.startedAt.any (· < a.createdAt))
    (invalidContract "Validation attempt started before creation" "$.started_at")
  refuse (a.finishedAt.any (· < a.startedAt.getD a.createdAt))
    (invalidContract "Validation attempt finished before it started" "$.finished_at")

/-- `normalize_validation_attempt` -/
def normalizeValidationAttempt (value : Attempt) : Except ContractError Attempt := do
  contractVersion "Validation attempt contract" 1 value.contractVersion
  let id ← string value.id "$.id" 128 safeId
  let buildRunId ← string value.buildRunId "$.build_run_id" 128 safeId
  let profile ← string value.inputs.profile "$.inputs.profile" 128 safeId
  let artifact ← normalizeArtifactIdentity value.inputs.artifact "$.inputs.artifact"
  let previousArtifact ←
    nullable (normalizeArtifactIdentity · "$.inputs.previous_artifact") value.inputs.previousArtifact
  refuse (!compatible previousArtifact artifact)
    (invalidContract "Previous immutable artifact identity is incompatible with current artifact"
      "$.inputs.previous_artifact")
  let name ← string value.selectedProfile.name "$.selected_profile.name" 128 safeId
  refuse (name ≠ profile)
    (invalidContract "Selected profile does not match immutable inputs" "$.selected_profile.name")
  let image ← normalizeImageIdentity value.selectedProfile.image "$.selected_profile.image"
  let result ← nullable (normalizeAttemptResult · "$.result") value.result
  let error ← nullable (normalizeAttemptError · "$.error") value.error
  let attempt := { value with
    id, buildRunId, inputs := { profile, artifact, previousArtifact }
    selectedProfile := { name, image }, result, error }
  statusRules attempt
  return attempt

/-! ## Prepared dependencies -/

/-- `prepared.json`, without its package and repository rows. -/
structure Prepared where
  contractVersion : Int
  profileName : String
  image : ImageIdentity
  nativeArchitecture : String
  current : ArtifactIdentity
  previous : Option ArtifactIdentity
  startedAt : Timestamp
  finishedAt : Timestamp
  deriving DecidableEq, Repr

/-- `normalize_prepared_runtime_dependencies` -/
def normalizePreparedRuntimeDependencies (value : Prepared) : Except ContractError Prepared := do
  contractVersion "Prepared dependency contract" 1 value.contractVersion
  let profileName ← string value.profileName "$.profile_name" 128 safeId
  let nativeArchitecture ←
    string value.nativeArchitecture "$.native_architecture" 32 safeArchitecture
  refuse (nativeArchitecture = "all")
    (invalidContract "Native architecture must not be all" "$.native_architecture")
  let current ← normalizeArtifactIdentity value.current "$.artifacts.current"
  let previous ← nullable (normalizeArtifactIdentity · "$.artifacts.previous") value.previous
  refuse (current.architecture ≠ "all" ∧ current.architecture ≠ nativeArchitecture)
    (invalidContract "Current artifact architecture is not native or all"
      "$.artifacts.current.architecture")
  refuse (!compatible previous current)
    (invalidContract "Previous artifact identity is incompatible with current artifact"
      "$.artifacts.previous")
  refuse (value.finishedAt < value.startedAt)
    (invalidContract "Prepared dependency timestamps are out of order" "$.finished_at")
  let image ← normalizePreparedImageIdentity value.image "$.image"
  return { value with profileName, image, nativeArchitecture, current, previous }

/-! ## Results -/

/-- One check of a lifecycle. -/
structure LifecycleCheck where
  name : String
  succeeded : Bool
  deriving DecidableEq, Repr

/-- `REQUIRED_SUCCESS_CHECKS` -/
def requiredSuccessChecks : List String :=
  ["lifecycle_network_disabled", "package_install", "package_status_installed", "package_remove",
    "package_purge", "package_absent_after_purge"]

/-- `execution` of a result. -/
structure Execution where
  networkDisabled : Bool
  networkVerified : Bool
  cleanupSucceeded : Bool
  absenceProved : Bool
  deriving DecidableEq, Repr

/-- `result.json`, without its commands. -/
structure Result where
  contractVersion : Int
  attemptId : String
  buildRunId : String
  artifact : ArtifactIdentity
  profile : Profile
  status : Status
  startedAt : Timestamp
  finishedAt : Timestamp
  checks : List LifecycleCheck
  execution : Execution
  error : Option AttemptError
  deriving DecidableEq, Repr

/-- The proof that a successful result carries: every required check succeeded exactly
once, no check failed, the network was off and the container is gone. -/
def Result.completeProof (r : Result) : Bool :=
  r.error = none && r.execution.networkDisabled && r.execution.networkVerified &&
    r.execution.cleanupSucceeded && r.execution.absenceProved && r.checks.all (·.succeeded) &&
    requiredSuccessChecks.all fun name =>
      r.checks.countP (fun row => row.name = name && row.succeeded) = 1

/-- `_normalize_result_checks` -/
def normalizeResultChecks (value : List LifecycleCheck) (path : String) :
    Except ContractError Unit := do
  refuse (value.isEmpty || 256 < value.length)
    (invalidContract (path ++ " must be a non-empty bounded list") path)
  value.zipIdx.forM fun (row, index) => do
    let _ ← string row.name (path ++ "[" ++ toString index ++ "].name") 256 fun _ => true

/-- `normalize_validation_result` -/
def normalizeValidationResult (value : Result) : Except ContractError Result := do
  contractVersion "Validation result contract" 1 value.contractVersion
  let attemptId ← string value.attemptId "$.attempt_id" 128 safeId
  let buildRunId ← string value.buildRunId "$.build_run_id" 128 safeId
  let artifact ← normalizeArtifactIdentity value.artifact "$.artifact"
  let name ← string value.profile.name "$.profile.name" 128 safeId
  let image ← normalizePreparedImageIdentity value.profile.image "$.profile.image"
  refuse value.status.active (invalidContract "Validation result status is invalid" "$.status")
  refuse (value.finishedAt < value.startedAt)
    (invalidContract "Validation result timestamps are out of order" "$.finished_at")
  normalizeResultChecks value.checks "$.checks"
  let error ← nullable (normalizeAttemptError · "$.error") value.error
  refuse (value.status = .success ∧ !{ value with error }.completeProof)
    (invalidContract "Successful Validation lacks complete lifecycle proof" "$.status")
  refuse (value.status ≠ .success ∧ error = none)
    (invalidContract "Unsuccessful Validation requires a bounded error" "$.error")
  refuse (!value.execution.absenceProved)
    (invalidContract "Terminal Validation result requires OCI absence proof" "$.execution.cleanup")
  return { value with attemptId, buildRunId, artifact, profile := { name, image }, error }

/-! ## Automation metadata -/

inductive PublicationState
  | notRequested | pending | complete | cancelled
  deriving DecidableEq, Repr

/-- The coordination fields, which come together. -/
structure Coordination where
  attemptKey : String
  generation : Int
  policy : String
  deriving DecidableEq, Repr

/-- `automation.json` -/
structure AutomationMetadata where
  automatic : Bool
  publishAfterSuccess : Bool
  publicationState : PublicationState
  coordination : Option Coordination
  deriving DecidableEq, Repr

/-- `automation-v1-[0-9a-f]{64}` -/
def isAttemptKey (value : String) : Bool :=
  value.startsWith "automation-v1-" && isSha256 (String.ofList (value.toList.drop 14))

/-- The checks of `normalize_validation_automation`, which changes nothing. -/
def automationValid (a : AutomationMetadata) : Bool :=
  (!a.publishAfterSuccess || a.automatic) &&
    (a.publishAfterSuccess = (a.publicationState ≠ .notRequested)) &&
    a.coordination.all fun c => a.automatic && isAttemptKey c.attemptKey && 0 ≤ c.generation &&
      c.generation < 8 && c.policy ∈ ["build_validate", "full"] &&
      a.publishAfterSuccess = (c.policy = "full")

end DebBuilder.Validation
