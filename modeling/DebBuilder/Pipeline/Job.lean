import Mathlib
import DebBuilder.Execution.Manager

/-!
# The execution of one Run

The state of one execution: the cancellation control, the store, and the document that
the worker holds in memory and mutates.  The in-memory document is part of the state
because an exception keeps what has been done to it.

Three fields are history: whether a request has been accepted, the status for which the
worker has claimed the end, and whether an exception has been raised since.

## Main definitions

* `StageFailure`, `Raised` — the exceptions of an execution.
* `Plan` — what the pipeline reads of the Recipe.
* `JobChoice` — what the execution does not decide.
* `Worked`, `Job` — the state.
* `Run.beginStep`, `Run.finishStep`, `Run.observe`, `Run.finishCancelled` — the edits of
  the document.
-/

namespace DebBuilder

/-- The exception classes of the stages. -/
inductive StageError where
  | source
  | upstreamArchive
  | upstreamArtifact
  | detection
  | dependency
  | nodeToolchain
  | auxiliaryNodeInstall
  | sourceChange
  | build
  | packaging
  deriving DecidableEq, Repr

/-- The name of an exception class. -/
def StageError.typeName : StageError → String
  | source => "SourceError"
  | upstreamArchive => "UpstreamArchiveError"
  | upstreamArtifact => "UpstreamArtifactError"
  | detection => "DetectionError"
  | dependency => "DependencyError"
  | nodeToolchain => "NodeToolchainError"
  | auxiliaryNodeInstall => "AuxiliaryNodeInstallError"
  | sourceChange => "SourceChangeError"
  | build => "BuildError"
  | packaging => "PackagingError"

/-- An exception of a stage. -/
structure StageFailure where
  kind : StageError
  code : String
  message : String
  details : List (String × String)
  deriving DecidableEq, Repr

/-- The metadata of `ExecutionCancelled`, with the defaults of its constructor. -/
structure CancelNote where
  code : String := cancellationCode
  reason : String := userRequested
  stage : Option String := none
  requestedAt : Option Time := none
  deriving DecidableEq, Repr

/-- An exception of the pipeline. -/
inductive Raised where
  /-- `ExecutionCancelled`; the termination error is empty unless the active process group
  could not be stopped -/
  | cancelled (note : CancelNote) (terminationError : String)
  | stage (failure : StageFailure)
  /-- `PipelineRunError` -/
  | pipeline (code message : String)
  | other (e : Exc)
  deriving DecidableEq, Repr

/-- The exception as the worker sees it. -/
def Raised.exc : Raised → Exc
  | cancelled .. => .other "ExecutionCancelled" true false
  | stage failure => .other failure.kind.typeName true false
  | pipeline .. => .other "PipelineRunError" true false
  | other e => e

/-- The artifact modes of a Recipe. -/
inductive ArtifactMode where
  | build
  | upstreamDeb
  | upstreamArchive
  deriving DecidableEq, Repr

/-- What the pipeline reads of the Recipe. -/
structure Plan where
  artifactMode : ArtifactMode
  auxiliaryNodeInstall : Bool := false
  deriving DecidableEq, Repr

/-- What the pipeline reads of the results of its stages. -/
structure Facts where
  python : Bool := false
  node : Bool := false
  installed : Bool := true
  timedOut : Bool := false
  systemd : Bool := false
  deriving DecidableEq, Repr

/-- What a stage does next: it calls one of the functions it was given, or it ends. -/
inductive StageStep where
  | callback (i : Nat)
  | returns (facts : Facts)
  | raises (e : Raised)
  deriving DecidableEq, Repr

/-- What is found of the Recipe snapshot of a Run. -/
inductive Snapshot where
  | valid
  | invalid
  /-- of an automated Run, and not the admitted revision -/
  | mismatch
  deriving DecidableEq, Repr

/-- What the execution does not decide. -/
structure JobChoice extends Choice where
  stage : StageStep := .returns {}
  snapshot : Snapshot := .valid
  /-- the failure of the storage guard -/
  guardFailure : Option RunError := none
  /-- an exception of a key that a result does not have -/
  missing : Option Exc := none
  /-- an exception of the code that runs after the execution -/
  after : Option Exc := none

/-- The part of the state that only the worker touches. -/
structure Worked where
  store : Store
  run : Run
  claimed : Option RunStatus := none
  raised : Bool := false

/-- The state of one execution. -/
structure Job extends Worked where
  control : Control := {}
  handed : Bool := false
  accepted : Bool := false

/-! ## Edits of the document -/

namespace Run
variable (run : Run)

/-- `_step(run, name).update(…)` -/
def editStep (name : StepName) (f : Step → Step) : Run :=
  { run with steps := run.steps.map fun s => if s.name = name then f s else s }

/-- The first step that is running. -/
def activeStep : Option Step := run.steps.find? fun s => s.status = .running

/-- The edit of `_start_step`. -/
def beginStep (name : StepName) (now : Time) : Run :=
  run.editStep name fun s => { s with status := .running, startedAt := some now }

/-- The edit of `_finish_step`. -/
def finishStep (name : StepName) (started now : Time) (status : StepStatus) (summary : String)
    (error : Option RunError) : Run :=
  run.editStep name fun s =>
    { s with status, finishedAt := some now, duration := some (now - started), summary, error }

/-- `run.update({"status": "failed", "error": error})` -/
def fail (error : RunError) : Run := { run with status := .failed, error := some error }

/-- The edit of `_observe_cancellation`. -/
def observe (request : CancelRequest) (stage : String) : Run :=
  { run with
    status := .cancelling
    cancellation := some
      { code := request.code, reason := request.reason, phase := "pipeline", stage
        requestedAt := request.requestedAt, completedAt := none } }

/-- A text that `or` does not skip. -/
def truthy (text : Option String) : Option String := text.filter (· ≠ "")

/-- The stage in which a cancellation is recorded. -/
def cancelStage (note : CancelNote) : String :=
  (truthy (run.cancellation.map (·.stage)) <|> truthy note.stage <|>
    truthy (run.activeStep.map (·.name.text))).getD "pipeline"

/-- The error of a cancellation that could not stop its process group. -/
def terminationFailure (stage terminationError : String) : RunError where
  stage
  code := "execution_cancellation_termination_failed"
  message := "Cancellation could not safely terminate the active process group"
  details := [("termination_error", terminationError), ("stage", stage)]

/-- The summary of a cancelled step. -/
def cancelSummary (reason : String) : String :=
  if reason = serverShutdown then "Execution cancelled during server shutdown"
  else "Execution cancelled by user"

/-- The edit of `_finalize_execution_cancellation`. -/
def finishCancelled (note : CancelNote) (terminationError : String) (completedAt : Time) : Run :=
  let stage := run.cancelStage note
  let error :=
    if terminationError = "" then none else some (terminationFailure stage terminationError)
  let steps := match run.activeStep with
    | none => run.steps
    | some active => run.steps.map fun s =>
        if s.name = active.name then
          { s with
            status := if error.isSome then .failed else .cancelled, finishedAt := some completedAt
            duration := some (elapsed s.startedAt completedAt)
            summary := (error.map (·.message)).getD (cancelSummary note.reason), error }
        else s
  { run with
    status := if error.isSome then .failed else .cancelled
    steps, error
    cancellation := some
      { code := note.code, reason := note.reason, phase := "pipeline", stage
        requestedAt := (note.requestedAt <|> run.cancellation.map (·.requestedAt)).getD completedAt
        completedAt := some completedAt }
    finishedAt := some completedAt
    duration := some (elapsed run.startedAt completedAt) }

@[simp] theorem editStep_status (name : StepName) (f : Step → Step) :
    (run.editStep name f).status = run.status := rfl

@[simp] theorem beginStep_status (name : StepName) (now : Time) :
    (run.beginStep name now).status = run.status := rfl

@[simp] theorem finishStep_status (name : StepName) (started now : Time) (status : StepStatus)
    (summary : String) (error : Option RunError) :
    (run.finishStep name started now status summary error).status = run.status := rfl

@[simp] theorem fail_status (error : RunError) : (run.fail error).status = .failed := rfl

@[simp] theorem observe_status (request : CancelRequest) (stage : String) :
    (run.observe request stage).status = .cancelling := rfl

/-- A finished cancellation is cancelled, or failed. -/
theorem finishCancelled_status (note : CancelNote) (terminationError : String) (now : Time) :
    (run.finishCancelled note terminationError now).status = .cancelled ∨
      (run.finishCancelled note terminationError now).status = .failed := by
  by_cases h : terminationError = "" <;> simp [finishCancelled, h]

end Run

/-! ## The worker's part -/

namespace Job
variable (s : Job)

/-- An exception of the worker, noted when it comes after the claim. -/
def raising {α : Type} (e : Raised) : Except Raised α × Job :=
  (.error e, { s with raised := s.raised || s.claimed.isSome })

/-- A store call of the worker. -/
def calls {α : Type} (result : Except Exc α × Store) : Except Raised α × Job :=
  match result.1 with
  | .ok a => (.ok a, { s with store := result.2 })
  | .error e => { s with store := result.2 }.raising (.other e)

/-- `store.save(run)` -/
def save (c : JobChoice) (r : RunId) : Except Raised Unit × Job :=
  s.calls (s.store.save r c.write s.run)

/-- `store.append_event(run, …)`: the log line, then the document. -/
def appendEvent (c : JobChoice) (r : RunId) : Except Raised Unit × Job :=
  match c.log with
  | some e => s.raising (.other e)
  | none => s.save c r

/-- `request_cancel` of the control. -/
def requestCancel (reason : String) (now : Time) : CancelAnswer × Job :=
  let requested := s.control.requestCancel reason now
  (requested.1, { s with
    control := requested.2, accepted := s.accepted || requested.1.accepted })

/-- `claim_terminal` of the control, for an end in `status`. -/
def claimTerminal (status : RunStatus) : Bool × Job :=
  let claimed := s.control.claimTerminal
  (claimed.1, { s with
    control := claimed.2, claimed := if claimed.1 then some status else s.claimed })

end Job
end DebBuilder
