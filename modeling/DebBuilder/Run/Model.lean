import Mathlib
import DebBuilder.Run.Provenance

/-!
# Build Run documents

The data of `build_models.py` that the modelled code reads or writes.  Instants are
the microseconds that `utc_now` returns, and a duration counts microseconds too, so
`round(…, 6)` loses nothing.

## Main definitions

* `RunStatus`, `RunStatus.terminal` — the statuses of a Run and the terminal ones.
* `Run` — one Build Run document.
-/

namespace DebBuilder

/-- `RUN_STATUSES`. -/
inductive RunStatus where
  | pending
  | queued
  | running
  | cancelling
  | prepared
  | success
  | failed
  | cancelled
  deriving DecidableEq, Repr

/-- `TERMINAL_RUN_STATUSES`. -/
def RunStatus.terminal : RunStatus → Bool
  | .prepared | .success | .failed | .cancelled => true
  | .pending | .queued | .running | .cancelling => false

/-- The word of a status in documents and messages. -/
def RunStatus.text : RunStatus → String
  | .pending => "pending"
  | .queued => "queued"
  | .running => "running"
  | .cancelling => "cancelling"
  | .prepared => "prepared"
  | .success => "success"
  | .failed => "failed"
  | .cancelled => "cancelled"

/-- `STEP_NAMES`, in pipeline order. -/
inductive StepName where
  | source
  | detection
  | dependencies
  | sourceChanges
  | build
  | staging
  | debianMetadata
  | systemd
  | package
  | artifact
  deriving DecidableEq, Repr

/-- The word of a step in documents and messages. -/
def StepName.text : StepName → String
  | .source => "source"
  | .detection => "detection"
  | .dependencies => "dependencies"
  | .sourceChanges => "source_changes"
  | .build => "build"
  | .staging => "staging"
  | .debianMetadata => "debian_metadata"
  | .systemd => "systemd"
  | .package => "package"
  | .artifact => "artifact"

/-- `STEP_STATUSES`. -/
inductive StepStatus where
  | pending
  | running
  | success
  | failed
  | skipped
  | cancelled
  deriving DecidableEq, Repr

/-- An error recorded in a Run or in one of its steps. -/
structure RunError where
  stage : String
  code : String
  message : String
  details : List (String × String)
  deriving DecidableEq, Repr

/-- The cancellation recorded in a Run. -/
structure Cancellation where
  code : String
  reason : String
  phase : String
  stage : String
  requestedAt : Time
  completedAt : Option Time
  deriving DecidableEq, Repr

/-- One step of the pipeline. -/
structure Step where
  name : StepName
  status : StepStatus
  startedAt : Option Time
  finishedAt : Option Time
  duration : Option Nat
  summary : String
  error : Option RunError
  deriving DecidableEq, Repr

/-- The mode a Run was admitted in. -/
inductive RunMode where
  | dryRun
  | build
  deriving DecidableEq, Repr

/-- One Build Run document.  A Run that an operator admits has no `automation`; it may
have the provenance that was resolved for it. -/
structure Run where
  id : RunId
  mode : RunMode
  status : RunStatus
  createdAt : Time
  startedAt : Option Time
  finishedAt : Option Time
  duration : Option Nat
  steps : List Step
  error : Option RunError
  cancellation : Option Cancellation
  recipeId : RecipeId := ""
  recipeSha256 : String := ""
  origin : Option Origin := none
  automation : Option RunAutomation := none
  manualSourceProvenance : Option Identity := none
  artifact : Option Artifact := none
  publications : List Publication := []
  deriving DecidableEq, Repr

/-- `new_step`. -/
def newStep (name : StepName) : Step :=
  { name, status := .pending, startedAt := none, finishedAt := none, duration := none
    summary := "", error := none }

/-- All steps, in pipeline order. -/
def stepNames : List StepName :=
  [.source, .detection, .dependencies, .sourceChanges, .build, .staging, .debianMetadata,
    .systemd, .package, .artifact]

/-- `new_run`: a pending Run with every step pending. -/
def newRun (id : RunId) (mode : RunMode) (now : Time) : Run :=
  { id, mode, status := .pending, createdAt := now, startedAt := none, finishedAt := none
    duration := none, steps := stepNames.map newStep, error := none, cancellation := none }

end DebBuilder
