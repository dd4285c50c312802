import Mathlib
import DebBuilder.Automation.State
import DebBuilder.Lib.Pool

/-!
# The orchestrator

`AutomationOrchestrator` and `enqueue_preallocated_recipe_run` as programs over the state
of automation, and the system that runs them next to the detector, the operators, the
workers and restarts of the process.

A handler holds copies of the entry and of the row that it read or was last answered with;
they may be older than the ledger, as in the source.  The handlers call one another; each
gets as an argument what it calls, and `validationHandler` and `runHandler` close the
recursion up to the depth at which the interpreter raises.

## Main definitions

* `scheduleRetry`, `finish` — how a generation leaves a stage.
* `enqueueRun` — create, link and submit the preallocated Run.
* `admitValidation`, `handleValidation`, `publish`, `handleRun`, `admitRun` — the handlers.
* `advance` — one call of the orchestrator for one generation.
* `Call`, `automation` — the system.
-/

namespace DebBuilder.Automation
open Function Lib

variable {cfg : Config}

/-! ## Constants and pure checks -/

/-- `TERMINAL_RUN_STATUSES` is `RunStatus.terminal`; these are the others. -/
def maxValidationRetries : Nat := 2
def maxPublicationRetries : Nat := 3
def minRetrySeconds : Nat := 60
def maxRetrySeconds : Nat := 15 * 60

/-- `VALIDATION_TRANSIENT_CODES`. -/
def validationTransientCodes : List String :=
  ["dependency_preparation_failed", "dependency_download_failed",
    "dependency_repository_unavailable", "apt_update_failed", "validation_preparation_failed",
    "validation_preparation_interrupted", "validation_image_unavailable",
    "validation_worker_error"]

/-- `PUBLICATION_TRANSIENT_CODES`. -/
def publicationTransientCodes : List String :=
  ["repository_mutation_busy", "publication_execution_failed",
    "publication_reconciliation_failed", "publication_interrupted", "reprepro_include_failed"]

/-- `PUBLICATION_BLOCKED_CODES`. -/
def publicationBlockedCodes : List String :=
  ["downgrade_refused", "publication_identity_conflict", "publication_proof_failed",
    "publication_proof_invalid", "artifact_not_ready", "artifact_mutated",
    "artifact_identity_mismatch", "artifact_not_available", "publication_confirmation_required",
    "component_not_configured", "repository_configuration_unsupported"]

/-- `RUN_ADMISSION_TRANSIENT_CODES`. -/
def runAdmissionTransientCodes : List String :=
  ["execution_queue_full", "execution_manager_unavailable", "execution_recovery_unresolved",
    "storage_pressure_admission_blocked", "storage_measurement_unavailable"]

/-- The statuses in which a Run owns its identity. -/
def owningStatuses : List RunStatus := [.pending, .queued, .running, .prepared, .success]

/-- `_initial_authorized`. -/
def initialAuthorized (attempt : Attempt) (row : Row) (recipe : Option Recipe) : Bool :=
  recipe.any fun r => r.active && r.enabled && r.policy = row.desiredPolicy &&
    r.sha256 = attempt.recipeSha256

/-- `_downstream_authorized`. -/
def downstreamAuthorized (recipe : Option Recipe) (required : Policy) : Bool :=
  recipe.any fun r => r.active && r.enabled && required.rank ≤ r.policy.rank

/-- The order in which the generations of a Recipe take their turns. -/
def turnBefore (a b : Time × AttemptKey × Nat) : Bool :=
  a.1 < b.1 || a.1 = b.1 && (a.2.1 < b.2.1 || a.2.1 = b.2.1 && a.2.2 < b.2.2)

theorem turnBefore_irrefl (a : Time × AttemptKey × Nat) : turnBefore a a = false := by
  have htime : ¬ a.1 < a.1 := Nat.lt_irrefl _
  have hkey : ¬ a.2.1 < a.2.1 := String.lt_irrefl _
  have hgeneration : ¬ a.2.2 < a.2.2 := Nat.lt_irrefl _
  simp only [turnBefore, htime, hkey, hgeneration, decide_false, Bool.and_false, Bool.or_self]

/-- `_is_recipe_turn`: no live generation of the Recipe comes before this one. -/
def isRecipeTurn (attempts : List Entry) (row : Row) (attempt : Attempt) : Bool :=
  let turns := (attempts.filter (·.recipeId = attempt.recipeId)).flatMap fun entry =>
    (entry.generations.filter Row.live).map fun r => (r.createdAt, entry.key, r.generation)
  turns = [] || !turns.any fun t => turnBefore t (row.createdAt, attempt.key, row.generation)

/-- `_retry_due`. -/
def retryDue (row : Row) (clock : Time) : Bool :=
  row.state ≠ .retryDelayed || row.notBefore.any (· ≤ clock)

/-- `_delay`, from the wall clock. -/
def delay (clock : Time) (count : Nat) : Time :=
  clock + 1000000 * min maxRetrySeconds (minRetrySeconds * 2 ^ (count - 1))

/-- The counter that a retry of the row's stage counts. -/
def Row.retryField (row : Row) : Nat :=
  match row.stage with
  | .runAdmission => row.runRetryCount
  | .validationAdmission | .validation => row.validationRetryCount
  | .publication => row.publicationRetryCount
  | .detection | .run | .terminal => row.retryCount

/-- `row["run_id"]`, where the code takes it to be there. -/
def Row.run (row : Row) : RunId := row.runId.getD ""

/-- `(error or {}).get("code") or default` -/
def codeOr (code : Option String) (default : String) : String :=
  match code with
  | some code => if code = "" then default else code
  | none => default

/-- `_reason`. -/
def reason (attempts : List Entry) (entry : Entry) : String :=
  let identity := entry.upstreamIdentity
  let candidates := attempts.filter fun e =>
    e.key ≠ entry.key && e.recipeId = entry.recipeId && e.createdAt < entry.createdAt
  let plain := if identity.tracking = .latestRelease then "new_release" else "ref_advanced"
  match latestBy (fun a b => a.createdAt < b.createdAt) candidates with
  | none => plain
  | some previous =>
      let prior := previous.upstreamIdentity
      if prior = identity ∧ previous.recipeSha256 ≠ entry.recipeSha256 then
        "recipe_revision_changed"
      else if identity.tracking = .latestRelease ∧ identity.sourceType = .releaseAsset ∧
          prior.releaseId = identity.releaseId ∧ prior ≠ identity then "release_asset_changed"
      else plain

/-! ## Calls that several handlers share -/

def admissionOpen : Code cfg Bool := .look fun c _ => .ok c.admissionOpen

/-- `ledger.read` -/
def readLedger : Code cfg (List Entry) := .look fun c s => c.read s.ledger.attempts

/-- `_recipe` -/
def loadRecipe (id : RecipeId) : Code cfg (Option Recipe) :=
  .look fun c s =>
    match c.fault with
    | some f => if f.isReadError then .ok none else .error f
    | none => .ok ((s.recipes id).filter (·.name = id))

/-- `store.load` -/
def loadRun (r : RunId) : Code cfg (Option Run) := .look fun c s => c.read (s.store r).doc?

/-- What opening a lease or calling a pure helper of another module may raise. -/
def mayRaise : Code cfg Unit := .look fun c _ => c.read ()

/-- A call under the mutation lease, which may be refused. -/
def leased {α : Type} (call : Code cfg α) : Code cfg α := do
  mayRaise
  call

/-- A call of the ledger for a row of which the handler holds `held`. -/
def ask (entry : Entry) (held : Row) (request : Choice → Request) : Code cfg Row :=
  .act fun c s => s.ask c (entry.key, held.generation) held (request c)

def advanceLifecycle (entry : Entry) (row : Row) (stage : Stage)
    (validationAttemptId publicationAttemptId : Option String) : Code cfg Row :=
  ask entry row fun _ => .advanceLifecycle stage validationAttemptId publicationAttemptId

/-- `_schedule_retry`. -/
def scheduleRetry (entry : Entry) (row : Row) (code diagnostic : String) : Code cfg Unit := do
  let count := row.retryField + 1
  let _ ← ask entry row fun c => .finish .transientRetryable .transient count
    (some (delay c.clock count)) (some code) (some diagnostic)

/-- `_finish`; a notification that fails is only logged. -/
def finish (entry : Entry) (row : Row) (classification : Classification)
    (code diagnostic : String) : Code cfg Unit := do
  let finished ← ask entry row fun _ => .finish classification
    (if classification = .blockedManual then .operator else .none) row.retryCount none
    (if code = "" then none else some code) (some diagnostic)
  if finished.completionNotified then pure ()
  else do
    let _ ← ask entry row fun _ => .markCompletionNotified

/-! ## Validation and publication -/

/-- `load_automation` -/
def loadAutomation (r : RunId) (id : String) : Code cfg (Option ValidationAutomation) :=
  .look fun c s => do
    c.read ()
    match s.attempt? r id with
    | none => .error (.validationAdmission "validation_automation_missing")
    | some attempt => .ok attempt.automation

/-- `list_attempts(strict=False)`, newest first. -/
def newestAttempts (r : RunId) : Code cfg (List String) :=
  .look fun c s =>
    match c.fault with
    | some f => if f.isInventoryError then .ok [] else .error f
    | none => .ok ((s.listAttempts r).reverse.map (·.id))

/-- The loop of `_reconcile_validation_link`: the newest attempt of this generation. -/
def reconcileFrom (entry : Entry) (row : Row) : List String → Code cfg (Option Row)
  | [] => pure none
  | id :: ids => do
      match ← (loadAutomation row.run id).attempt with
      | .error f => if f.isReadError then reconcileFrom entry row ids else .throw f
      | .ok metadata =>
          if metadata = some ⟨entry.key, row.generation, row.desiredPolicy⟩ then
            if row.validationAttemptId = some id then pure none
            else do
              let linked ← advanceLifecycle entry row .validation (some id) none
              pure (some linked)
          else reconcileFrom entry row ids

/-- `_reconcile_validation_link`; `none` when the row is answered as it is. -/
def reconcileValidationLink (entry : Entry) (row : Row) : Code cfg (Option Row) := do
  let ids ← newestAttempts row.run
  reconcileFrom entry row ids

/-- `load_attempt` -/
def loadAttempt (r : RunId) (id : String) : Code cfg ValidationAttempt :=
  .look fun c s => do
    c.read ()
    match s.attempt? r id with
    | none => .error (.validationAdmission "validation_attempt_not_found")
    | some attempt => .ok attempt

/-- `cancel_publication_intent` and `complete_publication_intent`, which touch nothing that
automation reads. -/
def settlePublicationIntent : Code cfg Unit := mayRaise

/-- How `_publish` leaves a failed publication. -/
def publicationFailed (entry : Entry) (row : Row) (code : String) : Code cfg Unit :=
  if code ∈ publicationTransientCodes ∧ row.publicationRetryCount < maxPublicationRetries then
    scheduleRetry entry row code "publication_transient_retry"
  else do
    settlePublicationIntent
    finish entry row
      (if code ∈ publicationBlockedCodes then .blockedManual else .terminalFailure)
      code "publication_failed"

/-- `self.publish`, from its durable start to its durable end. -/
def publishArtifact (r : RunId) : Code cfg Publication := do
  let id ← .act fun c s => s.beginPublication c r
  .act fun c s => s.endPublication c r id

/-- `result.get("id")`, linked when it is there. -/
def linkPublication (entry : Entry) (row : Row) (result : Publication) : Code cfg Row :=
  if result.id = "" then pure row
  else advanceLifecycle entry row .publication none (some result.id)

/-- `_publish`, from the answer of `self.publish` on. -/
def publicationEnded (entry : Entry) (row : Row) (result : Publication) : Code cfg Unit := do
  let row ← linkPublication entry row result
  let persisted ← loadRun row.run
  let proof := persisted.bind fun run =>
    (run.publications.find? (·.id = result.id)).bind fun attempt =>
      successfulPublicationProof attempt run.id run.artifact
  if proof.isSome then do
    settlePublicationIntent
    finish entry row .success "" "publication_succeeded"
  else
    publicationFailed entry row <| codeOr result.errorCode <|
      if result.status = .success then "publication_proof_invalid"
      else "publication_execution_failed"

/-- The `except Exception` of `_publish`. -/
def publicationRaised (entry : Entry) (row : Row) (f : Fault) : Code cfg Unit :=
  let code := f.code "publication_execution_failed"
  if !f.isException then .throw f
  else if code = "application_shutting_down" then pure ()
  else do
    if ← admissionOpen then publicationFailed entry row code else pure ()

/-- `_publish`, once no failed attempt is left to handle. -/
def publishRun (entry : Entry) (row : Row) : Code cfg Unit := do
  match ← loadRun row.run with
  | none => finish entry row .blockedManual "build_run_not_found" "publication_state_unavailable"
  | some _ =>
      match ← (leased (advanceLifecycle entry row .publication none none)).attempt with
      | .error f => publicationRaised entry row f
      | .ok row =>
          match ← (leased (publishArtifact row.run)).attempt with
          | .error f => publicationRaised entry row f
          | .ok result => publicationEnded entry row result

/-- `_publish`. -/
def publish (entry : Entry) (row : Row) : Code cfg Unit := do
  if ← admissionOpen then
    let recipe ← loadRecipe entry.recipeId
    if !downstreamAuthorized recipe .full then do
      settlePublicationIntent
      finish entry row .disabled "automation_publication_disabled" "publication_admission_disabled"
    else
      let run ← loadRun row.run
      match run.bind (·.publications.getLast?) with
      | some previous =>
          if previous.status = .failed ∧ row.state ≠ .retryDelayed then do
            let row ← advanceLifecycle entry row .publication none (some previous.id)
            publicationFailed entry row (codeOr previous.errorCode "publication_execution_failed")
          else publishRun entry row
      | none => publishRun entry row
  else pure ()

/-- `_handle_validation`, once the row has an attempt. -/
def validationEnded (entry : Entry) (row : Row) (id : String) : Code cfg Unit := do
  match ← (loadAttempt row.run id).attempt with
  | .error (.validationAdmission code) =>
      finish entry row .blockedManual code "validation_state_unavailable"
  | .error f => .throw f
  | .ok attempt =>
      match attempt.status with
      | .queued | .running | .cancelling => pure ()
      | .cancelled =>
          finish entry row .cancelled (codeOr attempt.errorCode "validation_cancelled")
            "validation_cancelled"
      | .failed => do
          let code := codeOr attempt.errorCode "validation_failed"
          -- `public_attempt` loads the Run and the evidence of the attempt
          mayRaise
          if attempt.phase = .preparation ∧ code ∈ validationTransientCodes ∧
              row.validationRetryCount < maxValidationRetries then
            scheduleRetry entry row code "validation_transient_retry"
          else finish entry row .terminalFailure code "validation_failed"
      | .success =>
          if row.desiredPolicy = .buildValidate then
            finish entry row .success "" "validation_succeeded"
          else publish entry row

/-- `_handle_validation`. -/
def handleValidation (admitValidation : Entry → Row → Code cfg Unit) (entry : Entry) (row : Row) :
    Code cfg Unit := do
  let linked ← reconcileValidationLink entry row
  let row := linked.getD row
  match row.validationAttemptId with
  | none => admitValidation entry row
  | some id => validationEnded entry row id

/-- The publication intent of the linked attempt is cancelled; a failure to do so is
passed over. -/
def dropPublicationIntent (row : Row) : Code cfg Unit := do
  if row.validationAttemptId = none then pure ()
  else
    match ← settlePublicationIntent.attempt with
    | .ok () => pure ()
    | .error f => if f.isReadError then pure () else .throw f

/-- The handlers of `_admit_validation` for what admission raises. -/
def validationRefused (entry : Entry) (row : Row) (f : Fault) : Code cfg Unit := do
  match f with
  | .validationAdmission code =>
      if code = "validation_queue_full" ∨ code = "validation_manager_shutting_down" then do
        if ← admissionOpen then scheduleRetry entry row code "validation_admission_delayed"
        else pure ()
      else finish entry row .terminalFailure code "validation_admission_failed"
  | f =>
      let code := f.code "validation_admission_failed"
      if !f.isException then .throw f
      else if code = "application_shutting_down" then pure ()
      else do
        if ← admissionOpen then finish entry row .terminalFailure code "validation_admission_failed"
        else pure ()

/-- The branch of `_admit_validation` without a Validation manager. -/
def delayValidation (entry : Entry) (row : Row) : Code cfg Unit := do
  match ← (leased (advanceLifecycle entry row .validationAdmission none none)).attempt with
  | .ok row =>
      scheduleRetry entry row "validation_manager_unavailable" "validation_admission_delayed"
  | .error f =>
      if !f.isException then .throw f
      else if f.code "" = "application_shutting_down" then pure ()
      else do
        if ← admissionOpen then .throw f else pure ()

/-- The branch of `_admit_validation` that admits an attempt and links it. -/
def startValidation (handleValidation : Entry → Row → Code cfg Unit) (entry : Entry) (row : Row) :
    Code cfg Unit := do
  match ← (leased (advanceLifecycle entry row .validationAdmission none none)).attempt with
  | .error f => validationRefused entry row f
  | .ok row =>
      match ← (Prog.act fun c s => s.admitAttempt c row.run
          ⟨entry.key, row.generation, row.desiredPolicy⟩).attempt with
      | .error f => validationRefused entry row f
      | .ok id => do
          let linked ← advanceLifecycle entry row .validation (some id) none
          match ← (loadAttempt row.run id).attempt with
          | .error (.validationAdmission _) => pure ()
          | .error f => .throw f
          | .ok current =>
              if current.status.active then pure () else handleValidation entry linked

/-- `_admit_validation`. -/
def admitValidation (handleValidation : Entry → Row → Code cfg Unit) (entry : Entry) (row : Row) :
    Code cfg Unit := do
  if ← admissionOpen then
    match ← reconcileValidationLink entry row with
    | some row => handleValidation entry row
    | none => do
        let recipe ← loadRecipe entry.recipeId
        let required := if row.desiredPolicy = .full then Policy.full else .buildValidate
        if !downstreamAuthorized recipe required then do
          dropPublicationIntent row
          finish entry row .disabled "automation_downstream_disabled" "downstream_admission_disabled"
        else do
          if ← Prog.look fun c _ => .ok c.validationManager then
            startValidation handleValidation entry row
          else delayValidation entry row
  else pure ()

/-! ## Admission of the Run -/

/-- How `enqueue_preallocated_recipe_run` answers a failed submission; a Run that is
submitted already is none. -/
def submissionFault : Fault → Option Fault
  | .exc (.manager (.queueFull ..)) => some (.coded "execution_queue_full")
  | .exc (.manager .notAccepting) | .exc (.manager .stopped) =>
      some (.coded "execution_manager_unavailable")
  | .exc (.manager (.alreadySubmitted _)) => none
  | .exc (.manager _) => some (.coded "execution_enqueue_failed")
  | f => some f

/-- `_require_storage_admission_clear`, which a Run that was just created has passed. -/
def storageAdmission (createdNow : Bool) : Code cfg Unit := if createdNow then pure () else mayRaise

/-- The last part of `_enqueue_prepared_preallocated_recipe_run`: the Run is checked against
this admission, linked, and submitted when it is pending. -/
def linkAndSubmit (r : RunId) (recipe : Recipe) (mode : RunMode) (origin : Origin)
    (automation : RunAutomation) (createdCallback : RunId → Code cfg Row) (createdNow : Bool)
    (run : Run) : Code cfg Unit := do
  if run.id ≠ r ∨ run.recipeId ≠ recipe.name ∨ run.recipeSha256 ≠ recipe.sha256 ∨
      run.mode ≠ mode ∨ run.origin ≠ some origin ∨ run.automation ≠ some automation then
    .throw (.coded "automation_run_binding_invalid")
  else if run.status ≠ .pending then do
    let _ ← createdCallback run.id
  else do
    storageAdmission createdNow
    let _ ← createdCallback run.id
    match ← (Prog.act fun c s => s.submit c r).attempt with
    | .ok () => pure ()
    | .error f =>
        match submissionFault f with
        | some f => .throw f
        | none => pure ()

/-- `enqueue_preallocated_recipe_run`. -/
def enqueueRun (r : RunId) (recipe : Recipe) (mode : RunMode) (origin : Origin)
    (automation : RunAutomation) (createdCallback : RunId → Code cfg Row) : Code cfg Unit := do
  -- the manager, the Settings, the resource limits and the containment cleanup
  mayRaise
  match ← loadRun r with
  | some run => linkAndSubmit r recipe mode origin automation createdCallback false run
  | none =>
      storageAdmission false
      match ← (Prog.act fun c s => s.createRun c r recipe mode origin automation).attempt with
      | .ok run => linkAndSubmit r recipe mode origin automation createdCallback true run
      | .error f =>
          if f = .exc .fileExists then
            match ← loadRun r with
            | some run => linkAndSubmit r recipe mode origin automation createdCallback false run
            | none => .throw (.coded "execution_creation_persistence_unresolved")
          else .throw f

/-- The Run has exactly the Recipe and the upstream identity of the attempt; a display
version is not enough. -/
def sharesIdentity (attempt : Attempt) (row : Row) (run : Run) : Bool :=
  run.recipeId = attempt.recipeId &&
    (match run.automation with
      | some automation => automation.expectedUpstreamIdentity = attempt.upstreamIdentity
      | none => run.manualSourceProvenance = some attempt.upstreamIdentity) &&
    (run.mode = .build || row.desiredPolicy = .test)

/-- What `_admit_run` searches: a Run that owns the identity already. -/
def ownsIdentity (attempt : Attempt) (row : Row) (run : Run) : Bool :=
  sharesIdentity attempt row run && run.status ∈ owningStatuses

/-- The search, which a preallocated generation skips, with its entry of the lease. -/
def findOwner (entry : Entry) (row : Row) : Code cfg Bool :=
  .act fun c s =>
    match c.fault with
    | some f => (.error f, s)
    | none =>
        if row.preallocatedRunId ≠ none then (.ok false, s)
        else match s.runs.find? (ownsIdentity entry.toAttempt row) with
          | none => (.ok false, s)
          | some run => (.ok true, { s with
              owners := ((entry.key, row.generation), run.id, run.status) :: s.owners })

def bindingInvalid (message : String) : Fault :=
  .ledger ⟨"automation_run_binding_invalid", message, "$"⟩

/-- `ledger.read()["attempts"][key]["generations"][generation]` -/
def readRow (entry : Entry) (row : Row) : Code cfg Row := do
  let attempts ← readLedger
  match findRow attempts (entry.key, row.generation) with
  | some found => pure found.2
  | none => .throw (.ledger ⟨"automation_attempt_not_found",
      "Automation generation was not found", "$"⟩)

/-- The Run that `reconcile_preallocated_run` looks for. -/
def loadPreallocated (r : RunId) : Code cfg (Option Run) := do
  match ← (loadRun r).attempt with
  | .ok run => pure run
  | .error f =>
      .throw (if f.isReadError then bindingInvalid "Preallocated Run cannot be verified" else f)

/-- `reconcile_preallocated_run`: it links a Run that is there, and discards a workspace
that never got one. -/
def reconcilePreallocatedRun (entry : Entry) (row : Row) : Code cfg Row := do
  let row ← readRow entry row
  match row.runId, row.preallocatedRunId with
  | some _, _ | none, none => pure row
  | none, some r => do
      match ← loadPreallocated r with
      | some _ => ask entry row fun _ => .linkRun r
      | none => do
          if ← Prog.act fun c s => s.discard c r then pure row
          else .throw (bindingInvalid "Incomplete preallocated Run cannot be discarded")

/-- The id of the Run is fixed before its workspace is made. -/
def claimRun (entry : Entry) (row : Row) : Code cfg Row :=
  if row.preallocatedRunId = none then ask entry row fun c => .preallocateRun c.fresh
  else reconcilePreallocatedRun entry row

/-- Which Recipe is admitted, by the live one: `none` when the claim is stale. -/
def admissible (attempt : Attempt) (row : Row) (recipe : Recipe) (live : Option Recipe)
    (existing : Bool) : Option Recipe :=
  if existing then
    if downstreamAuthorized live row.desiredPolicy then some recipe else none
  else if initialAuthorized attempt row live then live else none

/-- The rest of the leased part of `_admit_run`; `false` when the claim is stale. -/
def enqueueClaimed (entry : Entry) (row : Row) (recipe : Recipe) (existing : Bool) :
    Code cfg Bool := do
  let live ← loadRecipe entry.recipeId
  match admissible entry.toAttempt row recipe live existing with
  | none => pure false
  | some recipe => do
      let attempts ← readLedger
      enqueueRun (row.preallocatedRunId.getD "") recipe
        (if row.desiredPolicy = .test then .dryRun else .build)
        ⟨"automation", "upstream_change", reason attempts entry⟩
        ⟨entry.key, row.generation, row.desiredPolicy, entry.upstreamIdentity⟩
        fun r => ask entry row fun _ => .linkRun r
      pure true

/-- The `except Exception` of `_admit_run`. -/
def admissionRefused (entry : Entry) (row : Row) (f : Fault) : Code cfg Unit :=
  let code := f.code "execution_admission_failed"
  if !f.isException then .throw f
  else if code = "application_shutting_down" then pure ()
  else do
    if ← admissionOpen then
      if code ∈ runAdmissionTransientCodes then do
        if ← admissionOpen then scheduleRetry entry row code "run_admission_delayed" else pure ()
      else finish entry row .terminalFailure code "run_admission_failed"
    else pure ()

/-- The end of `_admit_run`, after the Run was submitted. -/
def runAdmitted (handleRun : Entry → Row → Code cfg Unit) (entry : Entry) (row : Row) :
    Code cfg Unit := do
  let linked ← readRow entry row
  let _ ← advanceLifecycle entry row .run none none
  let current ← loadRun linked.run
  if current.any (·.status.terminal) then do
    let row ← readRow entry row
    handleRun entry row
  else pure ()

/-- The leased part of `_admit_run`.  An exception is handled with the row that was held
when it was raised. -/
def admitRecipe (handleRun : Entry → Row → Code cfg Unit) (entry : Entry) (row : Row)
    (recipe : Recipe) (existing : Bool) : Code cfg Unit := do
  match ← (findOwner entry row).attempt with
  | .error f => admissionRefused entry row f
  | .ok true => finish entry row .success "existing_run_owns_identity" "existing_run_owns_identity"
  | .ok false =>
      match ← (claimRun entry row).attempt with
      | .error f => admissionRefused entry row f
      | .ok row =>
          match ← (enqueueClaimed entry row recipe existing).attempt with
          | .error f => admissionRefused entry row f
          | .ok true => runAdmitted handleRun entry row
          | .ok false =>
              if existing then
                finish entry row .disabled "automation_run_admission_disabled"
                  "pending_run_admission_disabled"
              else finish entry row .disabled "recipe_changed_before_run" "stale_claim_suppressed"

/-- The Recipe to admit: the snapshot of a linked Run, else the one at hand.  `.error` when
the snapshot is invalid. -/
def recipeToAdmit (row : Row) (recipe : Option Recipe) (existing : Bool) :
    Code cfg (Except Unit (Option Recipe)) :=
  if existing && row.runId.isSome then
    .look fun c s =>
      match c.fault with
      | some f => if f.isReadError then .ok (.error ()) else .error f
      | none => .ok (match s.snapshots row.run with
          | some snapshot => .ok (some snapshot)
          | none => .error ())
  else pure (.ok recipe)

/-- `_admit_run`. -/
def admitRun (handleRun : Entry → Row → Code cfg Unit) (entry : Entry) (row : Row)
    (recipe : Option Recipe) (existing : Bool) : Code cfg Unit := do
  if ← admissionOpen then
    if !existing && !initialAuthorized entry.toAttempt row recipe then
      finish entry row .disabled "recipe_changed_before_run" "stale_claim_suppressed"
    else if existing && !downstreamAuthorized recipe row.desiredPolicy then
      finish entry row .disabled "automation_run_admission_disabled" "pending_run_admission_disabled"
    else
      match ← recipeToAdmit row recipe existing with
      | .error () =>
          finish entry row .blockedManual "build_run_snapshot_invalid" "run_state_unavailable"
      | .ok none => finish entry row .disabled "recipe_unavailable" "stale_claim_suppressed"
      | .ok (some recipe) => admitRecipe handleRun entry row recipe existing
  else pure ()

/-- `_handle_run`. -/
def handleRun (admitRun : Entry → Row → Option Recipe → Bool → Code cfg Unit)
    (admitValidation : Entry → Row → Code cfg Unit) (entry : Entry) (row : Row) :
    Code cfg Unit := do
  match ← loadRun row.run with
  | none => finish entry row .blockedManual "automation_run_not_found" "run_state_unavailable"
  | some run =>
      match run.status with
      | .pending => do
          let recipe ← loadRecipe entry.recipeId
          admitRun entry row recipe true
      | .queued | .running | .cancelling => pure ()
      | .cancelled =>
          finish entry row .cancelled (codeOr (run.error.map (·.code)) "execution_cancelled")
            "run_cancelled"
      | .prepared | .success | .failed =>
          if run.status ≠ (if row.desiredPolicy = .test then .prepared else .success) then
            finish entry row .terminalFailure (codeOr (run.error.map (·.code)) "execution_failed")
              "run_failed"
          else if row.desiredPolicy = .test then finish entry row .success "" "test_succeeded"
          else if row.desiredPolicy = .build then finish entry row .success "" "build_succeeded"
          else admitValidation entry row

/-! ## The recursion of the handlers -/

/-- What the interpreter raises when the handlers are nested too deeply. -/
def recursionError : Fault := .exc (.other "RecursionError" true false)

/-- `_handle_validation`, up to a depth of nested handlers. -/
def validationHandler : Nat → Entry → Row → Code cfg Unit
  | 0 => fun _ _ => .throw recursionError
  | n + 1 => handleValidation (admitValidation (validationHandler n))

/-- `_admit_validation`, up to a depth of nested handlers. -/
def validationAdmitter (depth : Nat) : Entry → Row → Code cfg Unit :=
  admitValidation (validationHandler depth)

/-- `_handle_run`, up to a depth of nested handlers. -/
def runHandler : Nat → Entry → Row → Code cfg Unit
  | 0 => fun _ _ => .throw recursionError
  | n + 1 => handleRun (admitRun (runHandler n)) (validationAdmitter n)

/-! ## One call of the orchestrator -/

/-- The handler of a row that is due. -/
def dispatch (depth : Nat) (entry : Entry) (row : Row) : Code cfg Unit :=
  if row.runId.isSome then
    match row.stage with
    | .validationAdmission => validationAdmitter depth entry row
    | .validation =>
        if row.state = .retryDelayed then validationAdmitter depth entry row
        else validationHandler depth entry row
    | .publication => validationHandler depth entry row
    | .detection | .runAdmission | .run | .terminal => runHandler depth entry row
  else do
    let recipe ← loadRecipe entry.recipeId
    admitRun (runHandler depth) entry row recipe false

/-- The body of `advance`, under the lock of the generation. -/
def advanceLocked (depth : Nat) (slot : Slot) : Code cfg Unit := do
  let attempts ← readLedger
  match findEntry attempts slot.1, findRow attempts slot with
  | some entry, some (_, row) => do
      let clock ← Prog.look fun c _ => .ok c.clock
      if row.state.stopped || !retryDue row clock || !isRecipeTurn attempts row entry.toAttempt then
        pure ()
      else dispatch depth entry row
  | _, _ => pure ()

/-- `lock.acquire(blocking=False)` -/
def acquire (slot : Slot) : Code cfg Bool :=
  .act fun _ s => (.ok (!s.locks slot), { s with locks := update s.locks slot true })

/-- `lock.release()` -/
def release (slot : Slot) : Code cfg Unit :=
  .act fun _ s => (.ok (), { s with locks := update s.locks slot false })

/-- `except AutomationLedgerError`: the failure is logged. -/
def logLedgerError (p : Code cfg Unit) : Code cfg Unit :=
  p.handle fun f =>
    match f with
    | .ledger _ => pure ()
    | f => .throw f

/-- `advance`. -/
def advance (depth : Nat) (slot : Slot) : Code cfg Unit := do
  if ← acquire slot then (logLedgerError (advanceLocked depth slot)).ensuring (release slot)
  else pure ()

/-! ## The system -/

/-- The calls that threads make: those of the orchestrator, of the detector and of the
operators, and what the managers and the editors do to the other stores. -/
inductive Call where
  | advance (depth : Nat) (slot : Slot)
  | claim (recipeId : RecipeId) (identity : Identity) (sha256 : String) (policy : Policy)
      (detectedAt : Time) (baselineOnFirst : Bool)
  | explicitRetry (recipeId : RecipeId) (key : AttemptKey) (expectedGeneration : Int)
      (expectedUpdatedAt : Option Time)
  | editRecipe (id : RecipeId) (recipe : Option Recipe)
  | createRun (r : RunId)
  | moveRun (r : RunId)
  | moveAttempts (r : RunId)

/-- The state of the latest generation of an attempt. -/
def latestState (attempts : List Entry) (key : AttemptKey) : RowState :=
  (((findEntry attempts key).bind (·.generations.getLast?)).map (·.state)).getD .claimed

/-- `claim_current_recipe`. -/
def claim (recipeId : RecipeId) (identity : Identity) (sha256 : String) (policy : Policy)
    (detectedAt : Time) (baselineOnFirst : Bool) : Code cfg Unit :=
  let digest := sha256.toLower
  let key := cfg.attemptKey recipeId identity digest
  .act fun c s => s.add c key
    (claimEntry cfg s.ledger.attempts (s.recipes recipeId) recipeId identity sha256 policy
      detectedAt baselineOnFirst c.now)
    fun result answered s' =>
      { s' with claims := ⟨⟨key, recipeId, digest, identity⟩, policy, baselineOnFirst,
          result.created, latestState s'.ledger.attempts key, answered⟩ :: s'.claims }

/-- `explicit_retry_current_recipe`. -/
def retry (recipeId : RecipeId) (key : AttemptKey) (expectedGeneration : Int)
    (expectedUpdatedAt : Option Time) : Code cfg Unit :=
  .act fun c s => s.add c key
    (explicitRetry s.ledger.attempts (s.recipes recipeId) recipeId key expectedGeneration
      expectedUpdatedAt c.now)
    fun result _ s' =>
      { s' with retries := ⟨key, expectedGeneration.toNat, latestState s.ledger.attempts key,
          result.generation, result.created⟩ :: s'.retries }

/-- A Recipe is edited or deleted. -/
def editRecipe (id : RecipeId) (recipe : Option Recipe) : Code cfg Unit :=
  .act fun _ s => (.ok (), { s with recipes := update s.recipes id recipe })

/-- An operator admits a Run of its own. -/
def createOwnRun (r : RunId) : Code cfg Unit :=
  .act fun c s =>
    match c.run with
    | some run =>
        if !(s.store r).onDisk ∧ run.id = r ∧ run.automation = none ∧ run.status = .pending then
          (.ok (), { s with store := update s.store r (.run run), runIds := r :: s.runIds })
        else (.ok (), s)
    | none => (.ok (), s)

/-- The execution of a Run, a publication, recovery or pruning rewrites its document. -/
def moveRun (r : RunId) : Code cfg Unit :=
  .act fun c s =>
    match (s.store r).doc?, c.run with
    | some old, some new =>
        if runMayBecome old new then (.ok (), { s with store := update s.store r (.run new) })
        else (.ok (), s)
    | _, _ => (.ok (), s)

/-- The Validation worker rewrites the attempts of a Run, or an operator adds one. -/
def moveAttempts (r : RunId) : Code cfg Unit :=
  .act fun c s =>
    if attemptsMayBecome (s.validations r) c.attempts then
      (.ok (), { s with validations := update s.validations r c.attempts })
    else (.ok (), s)

/-- The code of a call. -/
def Call.code : Call → Code cfg Unit
  | .advance depth slot => Automation.advance depth slot
  | .claim recipeId identity sha256 policy detectedAt baselineOnFirst =>
      Automation.claim recipeId identity sha256 policy detectedAt baselineOnFirst
  | .explicitRetry recipeId key expectedGeneration expectedUpdatedAt =>
      retry recipeId key expectedGeneration expectedUpdatedAt
  | .editRecipe id recipe => Automation.editRecipe id recipe
  | .createRun r => createOwnRun r
  | .moveRun r => Automation.moveRun r
  | .moveAttempts r => Automation.moveAttempts r

/-- Automation, and restarts of its process: the durable stores stay, the locks are lost. -/
def automation (cfg : Config) : System Call (State cfg) Choice Fault Unit where
  code := Call.code
  restart s := some { s with locks := fun _ => false }

end DebBuilder.Automation
