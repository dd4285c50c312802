import Mathlib
import DebBuilder.Lib.Dict

/-!
# The notification service

Outcomes of the stages are told to the operator.  A notification has a key, and the keys that
were sent are kept in the state file beside one row for each Recipe: the failure that is active
and the Run that last recovered.

## Main definitions

* `State` — the state file.
* `emit`, `setFailure`, `recoveryFailure` — the three updates of the state, each made under the
  lock of the file.
* `notifyFailure`, `notifyRecovery`, `notifyAutomaticCompletion` — what an outcome makes of them.
* `deliver` — the outcome as its producer hands it over.
-/

namespace DebBuilder
namespace Notifications

open Lib

/-! ## What the service reads -/

/-- `text or default` -/
def orElse (text default : String) : String := if text = "" then default else text

/-- A value that is a record of two texts or a text of its own; one that is missing or empty is
no value.  The texts of a record are empty where it has none. -/
inductive Part
  | record (first second : String)
  | plain (text : String)

/-- `str(record.get(first) or record.get(second) or default)`, or `str(text or default)` -/
def Part.spelled (default : String) : Option Part → String
  | none => default
  | some (.record first second) => orElse first (orElse second default)
  | some (.plain text) => orElse text default

/-- A Run, or `{}` where it could not be loaded. `version` has the texts `debian` and `upstream`,
and `error` the texts `message` and `code`. -/
structure Run where
  id : String := ""
  recipeId : String := ""
  inspectedPackage : String := ""
  inspectedVersion : String := ""
  version : Option Part := none
  error : Option Part := none

structure Recipe where
  packageName : String := ""

/-- The result of a validation or of a publication. -/
structure Payload where
  status : String := ""
  package : String := ""
  version : String := ""
  publishedVersion : String := ""
  buildRunId : String := ""
  error : Option Part := none

/-- The result of an automatic pipeline; `publication` is the one below `automation`, and
`ownPublication` the one of the result itself. -/
structure Completion where
  runId : String := ""
  classification : String := ""
  policy : String := ""
  publication : Option Payload := none
  ownPublication : Option Payload := none

/-- What surrounds the service. A resolver or loader that is missing, raises or finds nothing
answers with the empty value, and so does the address of a Run where the settings have none. -/
structure Environment where
  packageResolver : Run → Option Recipe → String
  loadRun : String → Run
  runUrl : String → String

/-- `_run_id(run, fallback)` -/
def runId (run : Run) (fallback : String) : String := orElse run.id fallback

/-- `_version(run, payload)` -/
def version (run : Run) (payload : Payload) : String :=
  orElse payload.version <| orElse payload.publishedVersion <| orElse run.inspectedVersion <|
    Part.spelled "" run.version

/-- `_package(resolver, run, recipe, payload)` -/
def package (env : Environment) (run : Run) (recipe : Option Recipe) (payload : Payload) : String :=
  orElse payload.package <| orElse run.inspectedPackage <| orElse (env.packageResolver run recipe) <|
    orElse ((recipe.map Recipe.packageName).getD "") <| orElse run.recipeId "package"

/-- `_error_message(payload, run)` -/
def errorMessage (payload : Payload) (run : Run) : String :=
  Part.spelled "unknown error" (payload.error.or run.error)

/-- `_recipe_key(package, run)` -/
def recipeKey (package : String) (run : Run) : String :=
  if run.recipeId = "" then package else package ++ "|" ++ run.recipeId

/-! ## The state file -/

structure Failure where
  stage : String
  runId : String
  version : String
  message : String
  package : String
deriving DecidableEq

/-- The row of a Recipe. -/
structure Row where
  activeFailure : Option Failure := none
  lastRecoveredRunId : Option String := none

/-- `notification-state.json`: the title under each key that was sent, and the rows. -/
structure State where
  sent : Dict String String := ∅
  recipes : Dict String Row := ∅

/-- The row of a Recipe, or `{}`. -/
def State.row (s : State) (key : String) : Row := (s.recipes.lookup key).getD {}

structure Notification where
  title : String
  message : String
  priority : String := "default"
  tags : String := "package"
  key : String
deriving DecidableEq

/-- What a call returns: why nothing was sent, or the notification that was handed to the
sender.  What the sender makes of it changes nothing here. -/
inductive Reply
  | skipped (reason : String)
  | sent (notification : Notification)
deriving DecidableEq

/-- `_emit`: a key that was sent before is not sent again. -/
def emit (s : State) (n : Notification) : State × Reply :=
  if n.key ≠ "" ∧ n.key ∈ s.sent then
    (s, .skipped "duplicate")
  else
    (if n.key ≠ "" then { s with sent := s.sent.set n.key n.title } else s, .sent n)

/-- `_set_failure`: the active failure of the Recipe, whatever it was before. -/
def setFailure (s : State) (key : String) (failure : Failure) : State :=
  { s with recipes := s.recipes.set key { s.row key with activeFailure := some failure } }

/-- `_recovery_failure`: takes the active failure away when it is one of this stage. -/
def recoveryFailure (s : State) (key stage recoveredRunId : String) : State × Option Failure :=
  match (s.row key).activeFailure with
  | none => (s, none)
  | some failure =>
      if failure.stage ≠ stage then
        (s, none)
      else
        ({ s with recipes := s.recipes.set key ⟨none, some recoveredRunId⟩ }, some failure)

/-! ## Outcomes -/

/-- The arguments of `notify_failure` and `notify_recovery`. -/
structure Call where
  stage : String
  run : Run
  recipe : Option Recipe := none
  payload : Payload := {}

namespace Call
variable (env : Environment) (c : Call)

def rid : String := runId c.run c.payload.buildRunId
def package : String := Notifications.package env c.run c.recipe c.payload
def recipeKey : String := Notifications.recipeKey (c.package env) c.run
def failureKey : String := "failure:" ++ c.recipeKey env ++ ":" ++ c.stage ++ ":" ++ c.rid
def recoveredKey : String := "recovered:" ++ c.recipeKey env ++ ":" ++ c.stage ++ ":" ++ c.rid

/-- The failure that the call makes the active one. -/
def failure : Failure where
  stage := c.stage
  runId := c.rid
  version := orElse (version c.run c.payload) "unknown"
  message := errorMessage c.payload c.run
  package := c.package env

end Call

/-- The lines of a message, with the address of the Run where there is one. -/
def messageOf (url : String) (lines : List String) : String :=
  "\n".intercalate (lines ++ if url = "" then [] else ["Open run: " ++ url])

def failureNotification (env : Environment) (c : Call) : Notification where
  title := "DebBuilder attention: " ++ c.package env
  message := messageOf (env.runUrl c.rid)
    ["Recipe/package: " ++ c.package env, "Version: " ++ (c.failure env).version, "Failed stage: " ++ c.stage,
      "Run: " ++ orElse c.rid "unknown", "Error: " ++ (c.failure env).message]
  priority := "high"
  tags := "x,package"
  key := c.failureKey env

def recoveryNotification (env : Environment) (c : Call) (failure : Failure) : Notification where
  title := "DebBuilder recovered: " ++ c.package env
  message := messageOf (env.runUrl c.rid)
    ["Recipe/package: " ++ c.package env,
      "Version: " ++ orElse (version c.run c.payload) (orElse failure.version "unknown"),
      "Recovered stage: " ++ c.stage, "Run: " ++ orElse c.rid "unknown",
      "Previous failure: " ++ orElse failure.message "unknown error"]
  tags := "white_check_mark,package"
  key := c.recoveredKey env

/-- `notify_failure` -/
def notifyFailure (env : Environment) (s : State) (c : Call) : State × Reply :=
  emit (setFailure s (c.recipeKey env) (c.failure env)) (failureNotification env c)

/-- `notify_recovery` -/
def notifyRecovery (env : Environment) (s : State) (c : Call) : State × Reply :=
  match recoveryFailure s (c.recipeKey env) c.stage c.rid with
  | (s, none) => (s, .skipped "no active failure")
  | (s, some failure) => emit s (recoveryNotification env c failure)

/-- The publication that an automatic pipeline reports. -/
def Completion.published (result : Completion) : Payload :=
  (result.publication.or result.ownPublication).getD {}

def Completion.rid (result : Completion) : String := orElse result.runId result.published.buildRunId

def completionNotification (env : Environment) (result : Completion) : Notification :=
  let run := env.loadRun result.rid
  let package := package env run none result.published
  { title := "DebBuilder automatic update complete: " ++ package
    message := messageOf (env.runUrl result.rid)
      ["Recipe/package: " ++ package, "Version: " ++ orElse (version run result.published) "unknown",
        "Run: " ++ orElse result.rid "unknown",
        "Automatic " ++ (orElse result.policy "full").replace "_" " + " ++ " lifecycle completed successfully."]
    tags := "white_check_mark,package"
    key := "automatic-complete:" ++ package ++ ":" ++ result.rid }

/-- `notify_automatic_completion` -/
def notifyAutomaticCompletion (env : Environment) (s : State) (result : Completion) : State × Reply :=
  let run := env.loadRun result.rid
  let key := recipeKey (package env run none result.published) run
  let lifecycleSuccess := result.classification = "success" ∧
    result.policy ∈ ["test", "build", "build_validate", "full"]
  if ¬ lifecycleSuccess ∧ result.published.status ≠ "success" then
    (s, .skipped "automatic publication not completed")
  else if (s.row key).lastRecoveredRunId = some result.rid then
    (s, .skipped "recovery already reported")
  else
    emit s (completionNotification env result)

/-- `send_test` at the time `now`, as it is written. -/
def sendTest (s : State) (now : String) : State × Reply :=
  emit s ⟨"DebBuilder", "Test ntfy notification sent from DebBuilder.", "default", "test_tube,package", "test:" ++ now⟩

/-! ## Deliveries -/

/-- What the other parts hand to the service. -/
inductive Delivery
  | build (event : String) (run : Run) (recipe : Option Recipe)
  | validation (result : Payload)
  | publication (result : Payload)
  | completion (result : Completion)
  | test (now : String)

/-- `notify_validation_result` and `notify_publication_result` -/
def notifyResult (env : Environment) (s : State) (stage : String) (result : Payload) : State × Reply :=
  let call : Call := { stage, run := env.loadRun result.buildRunId, payload := result }
  if result.status = "failed" then notifyFailure env s call
  else if result.status = "success" then notifyRecovery env s call
  else (s, .skipped (stage ++ " not terminal"))

/-- `notify_build_lifecycle` -/
def notifyBuildLifecycle (env : Environment) (s : State) (event : String) (run : Run) (recipe : Option Recipe) :
    State × Reply :=
  let call : Call := { stage := "build", run, recipe }
  if event = "build_failed" then notifyFailure env s call
  else if event = "build_succeeded" then notifyRecovery env s call
  else (s, .skipped "build start notifications suppressed")

def deliver (env : Environment) (s : State) : Delivery → State × Reply
  | .build event run recipe => notifyBuildLifecycle env s event run recipe
  | .validation result => notifyResult env s "validation" result
  | .publication result => notifyResult env s "publication" result
  | .completion result => notifyAutomaticCompletion env s result
  | .test now => sendTest s now

end Notifications
end DebBuilder
