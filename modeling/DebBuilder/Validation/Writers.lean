import Mathlib
import DebBuilder.Validation.Attempts
import DebBuilder.Validation.Canonical

/-!
# The writers of an attempt

The functions of `dependency_preparation.py` and `validation_service.py` that compute a
new document of an attempt from what its files hold.  Each of them runs while the path of
`attempt.json` is locked, and its answer is written before the lock is released.

## Main definitions

* `newAttempt` — the document of an admission.
* `claimAttempt`, `resolveImage`, `prepareDependencies`, `failPreparation` —
  `prepare_runtime_dependencies`.
* `completeLifecycleAttempt` — the result of a lifecycle, and the attempt after it.
* `cancelDurable`, `failIfActive`, `recoverAttempt` — the others that end an attempt.
-/

namespace DebBuilder.Validation
open Lib

/-- The error of a contract, as its caller sees it. -/
def contract {α : Type} : Except ContractError α → Except Fault α
  | .ok value => .ok value
  | .error e => .error (.value (some e.code))

/-- `DependencyPreparationError("validation_attempt_state_invalid", …)` -/
def stateInvalid : Fault := .preparation "validation_attempt_state_invalid"

/-- `_terminal_attempt`, and `_terminal_cancelled`. -/
def terminalAttempt (attempt : Attempt) (status : Status) (code message : String)
    (now : Timestamp) : Except ContractError Attempt :=
  normalizeValidationAttempt
    { attempt with
      status, finishedAt := some now, result := none
      error := if status = .success then none else some ⟨code, message⟩ }

/-- `_terminal_failed` -/
def terminalFailed (attempt : Attempt) (code message : String) (now : Timestamp) :
    Except ContractError Attempt :=
  normalizeValidationAttempt
    { attempt with
      status := .failed, startedAt := some (attempt.startedAt.getD attempt.createdAt)
      finishedAt := some now, result := none, error := some ⟨code, message⟩ }

/-! ## Admission -/

/-- The attempt of `_admit_locked`. -/
def newAttempt (runId id : String) (inputs : Inputs) (image : ImageIdentity) (now : Timestamp) :
    Except ContractError Attempt :=
  normalizeValidationAttempt
    { contractVersion := 1, id, buildRunId := runId, inputs
      selectedProfile := ⟨inputs.profile, image⟩, createdAt := now, startedAt := none
      finishedAt := none, status := .queued, result := none, error := none }

/-! ## Preparation -/

/-- The attempt as the preparation and the lifecycle read it: without its other files. -/
def readAttempt (files : AttemptFiles) : Except Fault Attempt :=
  keeping normalizeValidationAttempt files.attempt

/-- The attempt belongs to this directory. -/
def Attempt.ownedBy (runId id : String) (attempt : Attempt) : Bool :=
  attempt.id = id && attempt.buildRunId = runId

/-- The claim of a queued attempt. -/
def claimAttempt (runId id : String) (files : AttemptFiles) (now : Timestamp) :
    Except Fault Attempt := do
  let attempt ← readAttempt files
  refuse (!attempt.ownedBy runId id || attempt.status ≠ .queued) stateInvalid
  contract (normalizeValidationAttempt
    { attempt with status := .running, startedAt := some now })

/-- The update after the admitted image was provisioned. -/
def resolveImage (files : AttemptFiles) (image resolved : ImageIdentity) : Except Fault Attempt := do
  let latest ← readAttempt files
  refuse (latest.status = .cancelling) (.preparation "execution_cancelled")
  refuse (latest.status ≠ .running ∨ latest.selectedProfile.image ≠ image)
    (.preparation "validation_admission_identity_changed")
  contract (normalizeValidationAttempt
    { latest with selectedProfile := ⟨latest.selectedProfile.name, resolved⟩ })

/-- The dependencies that were prepared for a claimed attempt. -/
def prepareDependencies (attempt : Attempt) (nativeArchitecture : String)
    (started now : Timestamp) : Except ContractError Prepared :=
  normalizePreparedRuntimeDependencies
    { contractVersion := 1, profileName := attempt.inputs.profile
      image := attempt.selectedProfile.image, nativeArchitecture
      current := attempt.inputs.artifact, previous := attempt.inputs.previousArtifact
      startedAt := started, finishedAt := now }

/-- What ended a preparation: a cancellation, or an error with its code. -/
inductive Interruption
  | cancelled
  | error (code : String)
  deriving DecidableEq, Repr

/-- The handler of the preparation: what it writes, if it writes. -/
def failPreparation (files : AttemptFiles) (interruption : Interruption)
    (cleanupUnresolved : Bool) (now : Timestamp) : Except Fault (Option Attempt) := do
  let attempt ← readAttempt files
  if attempt.status.active then
    if cleanupUnresolved then
      some <$> contract (normalizeValidationAttempt { attempt with status := .cancelling })
    else if attempt.status = .cancelling ∨ interruption = .cancelled then
      some <$> contract (terminalAttempt attempt .cancelled "validation_preparation_cancelled"
        "Dependency preparation was cancelled" now)
    else
      let code := match interruption with
        | .cancelled => "dependency_preparation_failed"
        | .error code => code
      some <$> contract (terminalAttempt attempt .failed code "Dependency preparation failed" now)
  else return none

/-! ## Lifecycle -/

/-- What the lifecycle answers, or what its exception is turned into. -/
structure Lifecycle where
  status : String
  errorCode : String
  startedAt : Option Timestamp
  finishedAt : Option Timestamp
  checks : List LifecycleCheck
  execution : Execution
  deriving DecidableEq, Repr

/-- The codes of a cleanup that is not resolved. -/
def cleanupUnresolvedCodes : List String :=
  ["validation_container_cleanup_unproved", "validation_container_cleanup_failed",
    "validation_container_cleanup_unresolved"]

/-- The status that a lifecycle reports; anything else is a failure. -/
def lifecycleStatus (status : String) : Status :=
  if status = "success" then .success else if status = "cancelled" then .cancelled else .failed

/-- The code of a result's error. -/
def lifecycleCode (status : Status) (code : String) : String :=
  let reported :=
    if code ≠ "" then code
    else if status = .cancelled then "validation_lifecycle_cancelled" else "validation_lifecycle_failed"
  if safeCode reported then reported else "validation_lifecycle_failed"

/-- `_canonical_lifecycle_result` -/
def canonicalLifecycleResult (attempt : Attempt) (prepared : Prepared) (validation : Lifecycle)
    (now : Timestamp) : Except ContractError Result :=
  let reported := lifecycleStatus validation.status
  let missing : Bool := validation.checks.isEmpty && reported = .success
  let status := if missing then .failed else reported
  let code :=
    if missing then "validation_lifecycle_evidence_missing"
    else lifecycleCode reported validation.errorCode
  let message :=
    if status = .cancelled then "Offline lifecycle validation was cancelled"
    else "Offline lifecycle validation failed"
  normalizeValidationResult
    { contractVersion := 1, attemptId := attempt.id, buildRunId := attempt.buildRunId
      artifact := attempt.inputs.artifact, profile := attempt.selectedProfile, status
      startedAt := validation.startedAt.getD prepared.finishedAt
      finishedAt := validation.finishedAt.getD now
      checks :=
        if validation.checks.isEmpty then [⟨"lifecycle_execution", false⟩] else validation.checks
      execution := validation.execution
      error := if status = .success then none else some ⟨code, message⟩ }

/-- A cancelled attempt has a cancelled result. -/
def cancelledResult (attempt : Attempt) (result : Result) : Except ContractError Result :=
  if attempt.status = .cancelling ∧ result.status ≠ .cancelled then
    normalizeValidationResult
      { result with
        status := .cancelled
        error := some
          ⟨"validation_lifecycle_cancelled", "Offline lifecycle validation was cancelled"⟩ }
  else .ok result

/-- What `complete_lifecycle_attempt` writes: the result, if there is one, and then the
attempt, unless its contract is broken. -/
structure Completion where
  result : Option Result
  attempt : Except ContractError Attempt

/-- The attempt that ends with a result. -/
def settledAttempt (attempt : Attempt) (result : Result) : Except ContractError Attempt :=
  normalizeValidationAttempt
    { attempt with
      status := result.status, finishedAt := some result.finishedAt
      result := some ⟨result.status, some "result.json"⟩
      error := if result.status = .success then none else result.error }

/-- `complete_lifecycle_attempt` -/
def completeLifecycleAttempt (runId id : String) (files : AttemptFiles) (validation : Lifecycle)
    (now : Timestamp) : Except Fault Completion := do
  let attempt ← readAttempt files
  refuse (!attempt.ownedBy runId id || (attempt.status ≠ .running && attempt.status ≠ .cancelling))
    stateInvalid
  let prepared ← keeping normalizePreparedRuntimeDependencies files.prepared
  if validation.errorCode ∈ cleanupUnresolvedCodes then
    let cancelling ← contract (normalizeValidationAttempt
      { attempt with status := .cancelling, finishedAt := none, result := none, error := none })
    return ⟨none, .ok cancelling⟩
  else
    let result ← contract (canonicalLifecycleResult attempt prepared validation now)
    let result ← contract (cancelledResult attempt result)
    return ⟨some result, settledAttempt attempt result⟩

/-! ## The other ends -/

/-- `_cancel_durable`: what it writes, if it writes. -/
def cancelDurable (runId id : String) (files : AttemptFiles) (code message : String)
    (now : Timestamp) : Except Fault (Option Attempt) := do
  let attempt ← loadAttempt runId id files
  if attempt.status.active then
    let cancelled ← contract
      (if attempt.status = .queued then terminalAttempt attempt .cancelled code message now
        else normalizeValidationAttempt { attempt with status := .cancelling })
    some <$> contract (normalizeValidationAttempt cancelled)
  else return none

/-- `_fail_if_active`: what it writes, if it writes. -/
def failIfActive (runId id : String) (files : AttemptFiles) (code : String) (now : Timestamp) :
    Except Fault (Option Attempt) := do
  let attempt ← loadAttempt runId id files
  if attempt.status = .queued ∨ attempt.status = .running then
    let failed ← contract (terminalFailed attempt
      (if code = "" ∨ 128 < code.length then "validation_worker_error" else code)
      "Validation execution failed unexpectedly" now)
    some <$> contract (normalizeValidationAttempt failed)
  else return none

/-- The end of an attempt in `recover_interrupted_attempts`. -/
def recoveredAttempt (attempt : Attempt) (prepared : Option Prepared) (now : Timestamp) :
    Except ContractError Attempt :=
  if attempt.status = .cancelling then
    terminalAttempt attempt .cancelled "validation_recovery_cancelled"
      "Validation cancellation completed during startup recovery" now
  else if prepared.isSome then
    terminalAttempt attempt .failed "validation_lifecycle_interrupted"
      "Offline lifecycle validation was interrupted after dependency preparation" now
  else
    terminalAttempt attempt .failed "validation_preparation_interrupted"
      "Dependency preparation was interrupted before durable completion" now

/-- The prepared dependencies, as the recovery reads them. -/
def readOptionalPrepared (files : AttemptFiles) : Except Fault (Option Prepared) :=
  if files.prepared.present
    then some <$> keeping normalizePreparedRuntimeDependencies files.prepared else .ok none

/-- One record of `recover_interrupted_attempts`: what it writes, if it writes.  `absent`
says that the absence of the attempt's containers was proved. -/
def recoverAttempt (runId id : String) (files : AttemptFiles) (absent : Bool) (now : Timestamp) :
    Except Fault (Option Attempt) := do
  let attempt ← loadAttempt runId id files
  if attempt.status = .running ∨ attempt.status = .cancelling then
    refuse (!absent) (.preparation "validation_attempt_recovery_unverifiable")
    let prepared ← readOptionalPrepared files
    let automation ← admitting (.preparation "validation_attempt_recovery_unverifiable")
      (fun _ => .preparation "validation_attempt_recovery_unverifiable") files.automation.load
    refuse (automationValid automation = false)
      (.preparation "validation_attempt_recovery_unverifiable")
    some <$> contract (recoveredAttempt attempt prepared now)
  else return none

end DebBuilder.Validation
