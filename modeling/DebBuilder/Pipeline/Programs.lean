import Mathlib
import DebBuilder.Pipeline.Job
import DebBuilder.Lib.Pool

/-!
# The pipeline

`build_pipeline.py` as a program of the worker, from `execute_queued_recipe_run` down to
the checkpoints between its stages, with what is done on each exception.  A stage that
is code of another module calls the functions it was given, in any order and any number
of times, and then returns or raises; when one of them raises, the stage may do anything.

Lifecycle notifications are left out: their exceptions are swallowed.

## Main definitions

* `observe`, `checkpoint`, `claimTerminal` — what consults the control.
* `sourceStage`, …, `packageStage`, `upstreamStages` — the stages.
* `runPipelineLocked`, `executePipelineRun`, `executeQueuedRecipeRun` — the execution.
* `work` — what the worker does with the Run, with its finalizer.
* `execution` — the worker and the requests as a system.
-/

namespace DebBuilder
namespace Pipeline
open Lib

/-- Programs of the pipeline. -/
abbrev Code (α : Type) := Prog Job JobChoice Raised α

variable (r : RunId)

/-! ## Steps -/

/-- An edit of the document in memory. -/
def edit (f : Time → Run → Run) : Code Time :=
  .act fun c s => (.ok c.now, { s with run := f c.now s.run })

/-- `append_event` -/
def appendEvent : Code Unit := .act fun c s => s.appendEvent c r

/-- Several events, one after the other. -/
def appendEvents : Nat → Code Unit
  | 0 => pure ()
  | n + 1 => do
      appendEvent r
      appendEvents n

/-- `time.monotonic()` -/
def clock : Code Time := .look fun c _ => .ok c.now

/-- `_start_step` -/
def startStep (name : StepName) : Code Time := do
  let _ ← edit fun now run => run.beginStep name now
  appendEvent r
  clock

/-- `_finish_step` -/
def finishStep (name : StepName) (started : Time) (status : StepStatus) (summary : String)
    (error : Option RunError) : Code Unit := do
  let _ ← edit fun now run => run.finishStep name started now status summary error
  appendEvent r

/-- The part of `_observe_cancellation` that records a request. -/
def recordRequest (request : CancelRequest) (stage : String) : Code Unit := do
  if ← Prog.look fun _ s => .ok (decide (s.run.status = .running)) then
    let _ ← edit fun _ run => run.observe request stage
    appendEvent r
  else pure ()

/-- `run.get("cancellation") or request` -/
def cancelNote (request : CancelRequest) (run : Run) : CancelNote :=
  match run.cancellation with
  | some c => { code := c.code, reason := c.reason, stage := some c.stage
                requestedAt := some c.requestedAt }
  | none => { code := request.code, reason := request.reason
              requestedAt := some request.requestedAt }

/-- `_observe_cancellation`: the request is read before the event. -/
def observe (stage : String) : Code (Option CancelNote) := do
  let request ← Prog.look fun _ s => .ok s.control.request
  let event ← Prog.look fun _ s => .ok s.control.event
  match event, request with
  | true, some request => do
      recordRequest r request stage
      Prog.look fun _ s => .ok (some (cancelNote request s.run))
  | _, _ => pure none

/-- `_cancellation_checkpoint` -/
def checkpoint (stage : String) : Code Unit := do
  match ← observe r stage with
  | some note => .throw (.cancelled note "")
  | none => pure ()

/-- `_claim_terminal`, for an end in `status`. -/
def claimTerminal (stage : String) (status : RunStatus) : Code Unit := do
  if ← Prog.look fun _ s => .ok (decide (s.control.owner = .terminalOwned)) then pure ()
  else do
    if ← Prog.act fun _ s => (.ok (s.claimTerminal status).1, (s.claimTerminal status).2) then
      pure ()
    else do
      checkpoint r stage
      .throw (.other (.runtime "execution terminal ownership could not be settled"))

/-- `_response`, which reads the log. -/
def response : Code Unit := .act fun c s =>
  match c.log with
  | some e => s.raising (.other e)
  | none => (.ok (), s)

/-- A subscript of the result of a stage after the claim. -/
def subscript : Code Unit := .act fun c s =>
  match c.missing with
  | some e => s.raising (.other e)
  | none => (.ok (), s)

/-- A stage of another module, with the functions that it may call. -/
def runStage (callbacks : List (Code Unit)) : Nat → Code Facts
  | 0 => .halt (.other (.runtime "stage"))
  | n + 1 => do
      match ← Prog.look fun c _ => .ok c.stage with
      | .callback i => do
          let _ ← (callbacks.getD i (pure ())).attempt
          runStage callbacks n
      | .returns facts => pure facts
      | .raises e => .throw e

/-- `try: body  except kinds as exc: handler` -/
def catching (kinds : List StageError) (body : Code Unit) (handler : StageFailure → Code Unit) :
    Code Unit := do
  match ← body.attempt with
  | .error (.stage failure) => if failure.kind ∈ kinds then handler failure else .throw (.stage failure)
  | .error e => .throw e
  | .ok () => pure ()

/-- The error of a stage's exception. -/
def stageError (name : StepName) (failure : StageFailure) : RunError where
  stage := name.text
  code := failure.code
  message := failure.message
  details := failure.details

/-- The end of a step with its exception, and of the Run. -/
def failStep (name : StepName) (started : Time) (failure : StageFailure) : Code Unit := do
  finishStep r name started .failed failure.message (some (stageError name failure))
  let _ ← edit fun _ run => run.fail (stageError name failure)
  pure ()

/-- `if condition: body` -/
def onlyIf (condition : Bool) (body : Code Unit) : Code Unit := if condition then body else pure ()

/-- `if run["status"] != "failed": body` -/
def unlessFailed (body : Code Unit) : Code Unit := do
  if ← Prog.look fun _ s => .ok (decide (s.run.status = .failed)) then pure () else body

/-- A step that starts, stops at a checkpoint, and is skipped. -/
def skipStep (name : StepName) (summary : String) : Code Unit := do
  let started ← startStep r name
  checkpoint r name.text
  finishStep r name started .skipped summary none

/-! ## The stages of a source or archive build -/

variable (plan : Plan) (dryRun : Bool) (n : Nat)

/-- The mode is `upstream_archive`. -/
def archiveMode : Bool := plan.artifactMode = .upstreamArchive

/-- The source stage: acquisition, with the identity checks around it. -/
def sourceStage : Code Unit := do
  let started ← startStep r .source
  catching [.source, .upstreamArchive]
    (do
      checkpoint r "source"
      let _ ← runStage [] n
      checkpoint r "source"
      finishStep r .source started .success "source" none)
    (failStep r .source started)

/-- The exception of a primary project that is not a Python project. -/
def requiresPython : Raised :=
  .stage { kind := .detection, code := "auxiliary_node_install_requires_python"
           message := "Auxiliary npm installation requires a primary Python project", details := [] }

/-- The detection itself. -/
def detect : Code Facts := do
  if archiveMode plan then pure {}
  else do
    let facts ← runStage [] n
    if plan.auxiliaryNodeInstall && !facts.python then .throw requiresPython
    else pure facts

/-- The detection stage; its facts are those of the last stage that returned. -/
def detectionStage (k : Facts → Code Unit) : Code Unit := do
  let started ← startStep r .detection
  match ← (do
    checkpoint r "detection"
    let facts ← detect plan n
    checkpoint r "detection"
    finishStep r .detection started .success "detection" none
    pure facts : Code Facts).attempt with
  | .ok facts => k facts
  | .error (.stage failure) =>
      if failure.kind ∈ [StageError.detection] then failStep r .detection started failure
      else .throw (.stage failure)
  | .error e => .throw e

/-- The preparation of a Node toolchain. -/
def prepareToolchain : Code Unit := do
  let _ ← runStage [checkpoint r "dependencies"] n
  checkpoint r "dependencies"
  let _ ← runStage [checkpoint r "dependencies"] n
  checkpoint r "dependencies"
  let _ ← runStage [] n
  appendEvent r

/-- The exception of a failed auxiliary installation. -/
def installFailed (facts : Facts) : Raised :=
  .stage { kind := .auxiliaryNodeInstall
           code := if facts.timedOut then "auxiliary_node_install_timeout"
             else "auxiliary_node_install_failed"
           message := if facts.timedOut then "Auxiliary npm installation timed out"
             else "Auxiliary npm installation failed"
           details := [] }

/-- The exception of an auxiliary installation without a toolchain. -/
def toolchainUnavailable : Raised :=
  .stage { kind := .auxiliaryNodeInstall, code := "auxiliary_node_toolchain_unavailable"
           message := "Auxiliary npm installation requires a prepared Run-local Node toolchain"
           details := [] }

/-- A callback that observes a cancellation and goes on. -/
def onCancel (stage : String) : Code Unit := do
  let _ ← observe r stage
  pure ()

/-- `npm ci`, whose command observes a cancellation. -/
def npmCi : Code Unit := do
  let facts ← runStage [onCancel r "dependencies"] n
  appendEvent r
  let _ ← runStage [] n
  if facts.installed then pure () else .throw (installFailed facts)

/-- The auxiliary installation. -/
def auxiliaryInstall (prepared : Bool) : Code Unit := do
  if prepared then do
    let _ ← runStage [] n
    if dryRun then appendEvent r else npmCi r n
  else .throw toolchainUnavailable

/-- The dependency stage of a source build. -/
def checkDependencies (facts : Facts) (started : Time) : Code Unit := do
  onlyIf facts.node (prepareToolchain r n)
  let _ ← runStage [onCancel r "dependencies"] n
  checkpoint r "dependencies"
  onlyIf plan.auxiliaryNodeInstall (auxiliaryInstall r dryRun n facts.node)
  appendEvents r 6
  finishStep r .dependencies started .success "dependencies" none

/-- The dependency stage. -/
def dependenciesStage (facts : Facts) : Code Unit := do
  let started ← startStep r .dependencies
  checkpoint r "dependencies"
  if archiveMode plan then
    finishStep r .dependencies started .skipped
      "No build dependencies: upstream release artifact" none
  else
    catching [.dependency, .nodeToolchain, .detection, .auxiliaryNodeInstall]
      (checkDependencies r plan dryRun n facts started)
      fun failure => do
        appendEvents r 6
        failStep r .dependencies started failure

/-- The check that the inputs of the auxiliary installation have not changed. -/
def resealInputs : Code Unit := do
  let _ ← runStage [] n
  pure ()

/-- The stage of the source changes. -/
def sourceChangesStage : Code Unit := do
  let started ← startStep r .sourceChanges
  checkpoint r "source_changes"
  if archiveMode plan then
    finishStep r .sourceChanges started .skipped "No source changes: upstream release artifact" none
  else
    catching [.sourceChange, .detection]
      (do
        let _ ← runStage [do appendEvent r; checkpoint r "source_changes"] n
        checkpoint r "source_changes"
        onlyIf plan.auxiliaryNodeInstall (resealInputs n)
        finishStep r .sourceChanges started .success "source changes" none)
      (failStep r .sourceChanges started)

/-- The build stage, whose commands observe a cancellation. -/
def buildStage : Code Unit := do
  let started ← startStep r .build
  checkpoint r "build"
  if archiveMode plan then
    finishStep r .build started .skipped "Upstream release artifact · no source build" none
  else
    catching [.build, .nodeToolchain]
      (do
        let _ ← runStage [appendEvent r, do appendEvent r; checkpoint r "build",
          onCancel r "build"] n
        checkpoint r "build"
        finishStep r .build started (if dryRun then .skipped else .success) "build" none)
      (failStep r .build started)

/-- The step that a packaging exception of the staging stage names. -/
def stagingStep (failure : StageFailure) : StepName :=
  if failure.code = "invalid_debian_metadata" then .debianMetadata
  else if failure.code = "invalid_systemd_service" then .systemd
  else .staging

/-- The step has not ended: it is still pending, or running. -/
def restart (name : StepName) (now : Time) (run : Run) : Run :=
  if run.steps.any fun s => s.name = name && s.status = .pending then run.beginStep name now else run

/-- The staging step is running. -/
def stagingRuns (run : Run) : Bool := run.steps.any fun s => s.name = .staging && s.status = .running

/-- The end of the staging step, when another step has failed. -/
def failStagingStep (started : Time) (name : StepName) (failure : StageFailure) : Code Unit := do
  if ← Prog.look fun _ s => .ok (decide (name ≠ .staging) && stagingRuns s.run) then
    finishStep r .staging started .failed "Staging could not be completed"
      (some (stageError name failure))
  else pure ()

/-- What the staging stage does on a packaging exception. -/
def failStaging (started : Time) (failure : StageFailure) : Code Unit := do
  let name := stagingStep failure
  let now ← edit (restart name)
  finishStep r name now .failed failure.message (some (stageError name failure))
  failStagingStep r started name failure
  let _ ← edit fun _ run => run.fail (stageError name failure)
  pure ()

/-- The staging stage. -/
def stagingStage : Code Unit := do
  let started ← startStep r .staging
  catching [.packaging]
    (do
      checkpoint r "staging"
      let facts ← runStage [checkpoint r "systemd", checkpoint r "debian_metadata"] n
      checkpoint r "staging"
      let _ ← runStage [] n
      checkpoint r "staging"
      let _ ← runStage [] n
      finishStep r .staging started .success "staging" none
      let started ← startStep r .debianMetadata
      checkpoint r "debian_metadata"
      finishStep r .debianMetadata started .success "DEBIAN/control and package scripts generated" none
      let started ← startStep r .systemd
      checkpoint r "systemd"
      finishStep r .systemd started (if facts.systemd then .success else .skipped) "systemd" none)
    (failStaging r started)

/-- The status of the end, once it has been claimed. -/
def conclude (status : RunStatus) : Code Unit := do
  let _ ← edit fun _ run => { run with status }
  pure ()

/-- The end of a dry run. -/
def concludeDryRun : Code Unit := do
  let started ← startStep r .artifact
  checkpoint r "artifact"
  finishStep r .artifact started .skipped "Dry-run: no artifact created" none
  checkpoint r "prepared"
  claimTerminal r "prepared" .prepared
  conclude .prepared

/-- The packaging exception is one of the artifact, and not of the package. -/
def ofArtifact (failure : StageFailure) : Bool :=
  failure.code = "deb_inspection_failed" ∨
    failure.details.any fun d => d.1 = "artifact" && d.2 ≠ ""

/-- What the package stage does on a packaging exception. -/
def failPackage (started : Time) (failure : StageFailure) : Code Unit := do
  if ofArtifact failure then do
    finishStep r .package started .success "package" none
    let started ← startStep r .artifact
    failStep r .artifact started failure
  else failStep r .package started failure

/-- The package stage, to the end of the Run. -/
def packageStage : Code Unit := do
  let started ← startStep r .package
  checkpoint r "package"
  if dryRun then do
    finishStep r .package started .skipped "Dry-run: dpkg-deb --build not executed" none
    concludeDryRun r
  else
    catching [.packaging]
      (do
        let _ ← runStage [onCancel r "package", checkpoint r "artifact"] n
        checkpoint r "artifact"
        let _ ← runStage [] n
        finishStep r .package started .success "package" none
        let started ← startStep r .artifact
        checkpoint r "artifact"
        claimTerminal r "artifact" .success
        conclude .success
        subscript
        finishStep r .artifact started .success "artifact" none)
      (failPackage r started)

/-! ## An upstream package -/

/-- The steps that an upstream package does not need. -/
def skippedSteps : List StepName :=
  [.dependencies, .sourceChanges, .build, .staging, .debianMetadata, .systemd, .package]

/-- `for name in …: _skip_step(…)` -/
def skipSteps : List StepName → Code Unit
  | [] => pure ()
  | name :: names => do
      skipStep r name "Not applicable: upstream_artifact"
      skipSteps names

/-- The end of an upstream package. -/
def acquireArtifact (started : Time) : Code Unit := do
  let _ ← runStage [onCancel r "artifact"] n
  checkpoint r "artifact"
  let _ ← runStage [] n
  checkpoint r "artifact"
  claimTerminal r "artifact" .success
  subscript
  conclude .success
  finishStep r .artifact started .success "artifact" none

/-- The step of an upstream exception: the first that is running. -/
def failUpstream (started : Time) (failure : StageFailure) : Code Unit := do
  let name ← Prog.look fun _ s => .ok ((s.run.activeStep.map (·.name)).getD .source)
  let now ← clock
  failStep r name (if name = .source then started else now) failure

/-- `_run_upstream_artifact`, up to its end. -/
def upstreamStages : Code Unit := do
  let started ← startStep r .source
  catching [.upstreamArtifact]
    (do
      checkpoint r "source"
      let _ ← runStage [] n
      checkpoint r "source"
      finishStep r .source started .success "source" none
      let selection ← startStep r .detection
      checkpoint r "detection"
      let _ ← runStage [] n
      checkpoint r "detection"
      finishStep r .detection selection .success "detection" none
      skipSteps r skippedSteps
      let artifact ← startStep r .artifact
      checkpoint r "artifact"
      if dryRun then do
        finishStep r .artifact artifact .skipped "Dry-run: upstream artifact not downloaded" none
        checkpoint r "artifact"
        claimTerminal r "prepared" .prepared
        conclude .prepared
      else acquireArtifact r n artifact)
    (failUpstream r started)

/-! ## The execution -/

/-- `_finish_terminal_run` -/
def finishTerminalRun (started : Time) : Code Unit := do
  let status ← Prog.look fun _ s => .ok s.run.status
  claimTerminal r status.text status
  let _ ← edit fun now run =>
    { run with finishedAt := some now, duration := some (now - started) }
  Prog.act fun c s => s.save c r
  response

/-- The stages after the detection. -/
def laterStages (facts : Facts) : Code Unit := do
  unlessFailed (dependenciesStage r plan dryRun n facts)
  unlessFailed (sourceChangesStage r plan n)
  unlessFailed (buildStage r plan dryRun n)
  unlessFailed (stagingStage r n)
  unlessFailed (packageStage r dryRun n)

/-- `_run_upstream_artifact` -/
def runUpstreamArtifact : Code Unit := do
  let started ← clock
  upstreamStages r dryRun n
  finishTerminalRun r started

/-- The pipeline of a source or archive build. -/
def runBuild (started : Time) : Code Unit := do
  sourceStage r n
  unlessFailed (detectionStage r plan n fun facts => laterStages r plan dryRun n facts)
  finishTerminalRun r started

/-- `_run_pipeline_locked` -/
def runPipelineLocked : Code Unit := do
  let started ← clock
  let _ ← edit fun now run => { run with status := .running, startedAt := some now }
  Prog.act fun c s => s.save c r
  checkpoint r "source"
  appendEvent r
  if plan.artifactMode = .upstreamDeb then runUpstreamArtifact r dryRun n
  else runBuild r plan dryRun n started

/-- `_finalize_execution_cancellation` -/
def finalizeExecutionCancellation (note : CancelNote) (terminationError : String) : Code Unit := do
  let _ ← edit fun now run => run.finishCancelled note terminationError now
  appendEvent r
  response

/-- `build_run_not_found` -/
def runNotFound : Raised := .pipeline "build_run_not_found" "Build Run was not found"

/-- The part of `execute_pipeline_run` that loads the Run. -/
def loadRun : Code Unit := .act fun c s =>
  if (s.store r).onDisk = false then s.raising runNotFound
  else
    match s.store.load r c.read with
    | .error e => s.raising (.other e)
    | .ok none => s.raising runNotFound
    | .ok (some run) =>
        if run.status = .queued then (.ok (), { s with run })
        else s.raising (.pipeline "build_run_not_queued"
          ("Build Run cannot execute from status " ++ run.status.text))

/-- The part of `execute_pipeline_run` that reads the Recipe snapshot. -/
def loadSnapshot : Code Unit := .look fun c _ =>
  match c.snapshot with
  | .valid => .ok ()
  | .invalid => .error (.pipeline "build_run_snapshot_invalid"
      "Build Run Recipe snapshot is missing or invalid")
  | .mismatch => .error (.pipeline "build_run_recipe_mismatch"
      "Automated Build Run Recipe snapshot does not match its admitted revision")

/-- `execute_pipeline_run` of a queued Run. -/
def executePipelineRun : Code Unit := do
  loadRun r
  loadSnapshot
  let dryRun ← Prog.look fun _ s => .ok (decide (s.run.mode = .dryRun))
  match ← (runPipelineLocked r plan dryRun n).attempt with
  | .error (.cancelled note terminationError) =>
      finalizeExecutionCancellation r note terminationError
  | .error e => .throw e
  | .ok () => pure ()

/-- A decision about the durable Run, made and saved under its lock. -/
def onRun (change : Choice → Option Run → Except Exc Terminalized ⊕ Run × Terminalized) :
    Code Terminalized :=
  .act fun c s => s.calls (s.store.rewrite r c.read c.write (change c.toChoice))

/-- The cancellation that the storage guard records. -/
def guardCancellation (request : Option CancelRequest) (existing : Option Cancellation)
    (completedAt : Time) : Cancellation where
  code := (Run.truthy (request.map (·.code) <|> existing.map (·.code))).getD cancellationCode
  reason := (Run.truthy (request.map (·.reason) <|> existing.map (·.reason))).getD userRequested
  phase := "queue"
  stage := "storage_guard"
  requestedAt := (request.map (·.requestedAt) <|> existing.map (·.requestedAt)).getD completedAt
  completedAt := some completedAt

/-- The Run, cancelled before its pipeline started. -/
def guardCancelled (request : Option CancelRequest) (run : Run) (completedAt : Time) : Run :=
  { run with
    status := .cancelled, finishedAt := some completedAt, duration := some 0, error := none
    cancellation := some (guardCancellation request run.cancellation completedAt) }

/-- The decision of `_terminalize_pre_pipeline_cancellation`. -/
def cancelGuarded (c : Choice) (request : Option CancelRequest) :
    Option Run → Except Exc Terminalized ⊕ Run × Terminalized
  | none => .inl (.error (.runtime "pre-pipeline cancellation requires a queued Build Run"))
  | some run =>
      match run.status with
      | .cancelled => .inl (.ok (.answer true))
      | .queued | .cancelling => .inr (guardCancelled request run c.now, .saved)
      | _ => .inl (.error (.runtime "pre-pipeline cancellation requires a queued Build Run"))

/-- The decision of `_terminalize_storage_guard_failure`, after the claim. -/
def failGuarded (c : Choice) (failure : RunError) :
    Option Run → Except Exc Terminalized ⊕ Run × Terminalized
  | none => .inl (.error (.runtime "storage guard can only terminalize a queued Build Run"))
  | some run =>
      match run.status with
      | .cancelled => .inl (.ok (.answer true))
      | .cancelling => .inr (guardCancelled none run c.now, .answer true)
      | .queued => .inr ({ run with
          status := .failed, finishedAt := some c.now, duration := some 0
          error := some failure }, .saved)
      | _ => .inl (.error (.runtime "storage guard can only terminalize a queued Build Run"))

/-- The log line of the storage guard, of which an `OSError` is swallowed. -/
def guardLog : Terminalized → Code Unit
  | .answer _ => pure ()
  | .saved => .act fun c s =>
      match c.log with
      | some e => if e.isOSError then (.ok (), s) else s.raising (.other e)
      | none => (.ok (), s)

/-- `_terminalize_storage_guard_failure` -/
def terminalizeStorageGuardFailure (failure : RunError) : Code Unit := do
  if ← Prog.act fun _ s => (.ok (s.claimTerminal .failed).1, (s.claimTerminal .failed).2) then do
    let done ← onRun r fun c => failGuarded c failure
    guardLog done
  else do
    let request ← Prog.look fun _ s => .ok s.control.request
    let done ← onRun r fun c => cancelGuarded c request
    guardLog done

/-- A read of the Run by `execute_queued_recipe_run`. -/
def reload : Code Unit := .act fun c s =>
  match c.read with
  | some e => s.raising (.other e)
  | none => (.ok (), s)

/-- The automation that follows an execution. -/
def afterExecution : Code Unit := .act fun c s =>
  match c.after with
  | some e => s.raising (.other e)
  | none => (.ok (), s)

/-- The execution proper, unless the storage guard stops it. -/
def executeGuarded : Option RunError → Code Unit
  | some failure => terminalizeStorageGuardFailure r failure
  | none => executePipelineRun r plan n

/-- `execute_queued_recipe_run` -/
def executeQueuedRecipeRun : Code Unit := do
  reload
  let failure ← Prog.look fun c _ => .ok c.guardFailure
  executeGuarded r plan n failure
  reload
  afterExecution

/-! ## The worker -/

/-- `_durably_terminal`: a read that fails proves nothing. -/
def durablyTerminal : Code Bool := .look fun c s => .ok <|
  match s.store.load r c.read with
  | .ok (some run) => run.status.terminal
  | .ok none | .error _ => false

/-- `_finalize_worker_error` -/
def finalizeWorkerError (failure : RunError) : Code Bool := do
  match ← (onRun r fun c => failWorker c failure).attempt with
  | .error e => if e.exc.isException then durablyTerminal r else .throw e
  | .ok (.answer resolved) => pure resolved
  | .ok .saved => .look fun c _ =>
      match c.log with
      | some e => if e.isException then .ok true else .error (.other e)
      | none => .ok true

/-- The failure that the end of the execution leaves, if it leaves one. -/
def executionFailure : Except Raised Unit → Code (Option RunError)
  | .error e => pure (some (workerFailure e.exc))
  | .ok () => do
      if ← durablyTerminal r then pure none
      else pure (some (workerFailure (.runtime
        "execution callback returned without durable terminal state")))

/-- What the worker does with the Run: whether it is durably terminal in the end. -/
def work : Code Bool := do
  let ended ← (executeQueuedRecipeRun r plan n).attempt
  match ← executionFailure r ended with
  | none => durablyTerminal r
  | some failure => do
      let _ ← (finalizeWorkerError r failure).attempt
      durablyTerminal r

/-! ## The system -/

/-- The calls on one execution. -/
inductive JobCall where
  | work (plan : Plan) (n : Nat)
  | requestCancel (reason : String) (now : Time)

/-- How the threads of an execution end. -/
inductive JobReply where
  | worked (resolved : Bool)
  | requested (answer : CancelAnswer)

/-- The code of a call.  The manager hands a Run to the worker once. -/
def JobCall.code (r : RunId) : JobCall → Code JobReply
  | work plan n => do
      Prog.actWhen (fun _ s => !s.handed) fun _ s => (.ok (), { s with handed := true })
      let resolved ← Pipeline.work r plan n
      pure (.worked resolved)
  | requestCancel reason now =>
      .act fun _ s => (.ok (.requested (s.requestCancel reason now).1), (s.requestCancel reason now).2)

/-- The execution of Run `r`, with the requests to cancel it. -/
def execution (r : RunId) : System JobCall Job JobChoice Raised JobReply where
  code := JobCall.code r
  restart _ := none

/-- An execution that has not started. -/
def newJob (store : Store) (r : RunId) : Job := { store, run := newRun r .build 0 }

end Pipeline
end DebBuilder
