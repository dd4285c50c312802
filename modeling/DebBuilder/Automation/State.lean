import Mathlib
import DebBuilder.Automation.Ledger
import DebBuilder.Lib.Program
import DebBuilder.Run.Store

/-!
# The state that automation works on

The ledger, the Run workspaces, the Validation attempts, the live Recipes and the locks of
the orchestrator, with the atomic sections that read and write them.  A section takes
from its `Choice` what the code does not decide: the clock, a new id, the failure of a
read, the outcome of a write.

Some fields record what has happened, latest first, and no program reads them: the Runs
that were created, the Runs that were found to own an identity, the writes that the
orchestrator asked of the ledger, the claims and retries that the ledger accepted, and the
instants at which it created its generations.

## Main definitions

* `Fault` — an exception, with the code that `getattr(exc, "code", …)` finds.
* `ValidationAttempt` — one attempt of the Validation store.
* `State`, `Choice` — the state, and what the code does not decide.
* `State.ask` — one call of the ledger for a row.
* `State.createRun`, `State.submit`, `State.admitAttempt` — the sections of the managers.
-/

namespace DebBuilder.Automation
open Function Lib

/-! ## Exceptions -/

/-- An exception, as the handlers of the orchestrator tell them apart. -/
inductive Fault where
  /-- `AutomationLedgerError` -/
  | ledger (e : LedgerError)
  /-- `ValidationAdmissionError` -/
  | validationAdmission (code : String)
  /-- another exception that carries a code -/
  | coded (code : String)
  /-- a `ValueError` or `TypeError`, or an unusable Recipe -/
  | value
  | exc (e : Exc)
  deriving DecidableEq, Repr

namespace Fault

/-- `getattr(exc, "code", None)` -/
def code? : Fault → Option String
  | ledger e => some e.code
  | validationAdmission code | coded code => some code
  | exc (.manager e) => some e.code
  | value | exc _ => none

/-- `str(getattr(exc, "code", default))` -/
def code (f : Fault) (default : String) : String := f.code?.getD default

/-- `except Exception` -/
def isException : Fault → Bool
  | exc e => e.isException
  | _ => true

/-- `except (OSError, TypeError, ValueError)` -/
def isReadError : Fault → Bool
  | value => true
  | exc e => e.isOSError
  | _ => false

/-- `except (OSError, ValueError, ValidationAdmissionError)` -/
def isInventoryError : Fault → Bool
  | validationAdmission _ => true
  | f => f.isReadError

end Fault

/-! ## Validation attempts -/

inductive ValidationStatus where
  | queued
  | running
  | cancelling
  | success
  | failed
  | cancelled
  deriving DecidableEq, Repr

/-- `ACTIVE_STATUSES`. -/
def ValidationStatus.active : ValidationStatus → Bool
  | .queued | .running | .cancelling => true
  | .success | .failed | .cancelled => false

/-- The coordination metadata of an attempt. -/
structure ValidationAutomation where
  attemptKey : AttemptKey
  generation : Nat
  policy : Policy
  deriving DecidableEq, Repr

/-- One attempt: `prepared` and `result` say whether its prepared dependencies and its
result are there. -/
structure ValidationAttempt where
  id : String
  createdAt : Time
  status : ValidationStatus
  errorCode : Option String := none
  prepared : Bool := false
  result : Bool := false
  automation : Option ValidationAutomation := none
  deriving DecidableEq, Repr

/-- The phase of an attempt that has ended, as `public_attempt` shows it. -/
inductive Phase where
  | lifecycle
  | preparation
  deriving DecidableEq, Repr

def ValidationAttempt.phase (a : ValidationAttempt) : Phase :=
  if a.result || a.prepared then .lifecycle else .preparation

/-- The order of `list_attempts`. -/
def ValidationAttempt.before (a b : ValidationAttempt) : Bool :=
  a.createdAt < b.createdAt || a.createdAt = b.createdAt && a.id ≤ b.id

/-! ## What has happened -/

/-- A write that the orchestrator asked of the ledger: the row it held, its request, the
document that was to be saved, and whether the ledger accepted it. -/
structure Issued where
  slot : Slot
  held : Row
  request : Request
  document : List Entry
  accepted : Bool
  deriving DecidableEq, Repr

/-- A claim that the ledger accepted: what was asked, whether the attempt was created, the
state of its latest generation, and whether the caller saw the answer. -/
structure Claim where
  attempt : Attempt
  policy : Policy
  baselineOnFirst : Bool
  created : Bool
  state : RowState
  answered : Bool
  deriving DecidableEq, Repr

/-- A retry that the ledger accepted: the generation that the client had observed, the
state of the latest generation, and the answer. -/
structure Retry where
  key : AttemptKey
  observed : Nat
  latest : RowState
  generation : Nat
  created : Bool
  deriving DecidableEq, Repr

/-! ## State -/

structure State (cfg : Config) where
  ledger : Ledger cfg
  store : Store
  /-- the Run ids that the directory lists -/
  runIds : List RunId
  /-- `recipe.json` of each workspace -/
  snapshots : RunId → Option Recipe
  validations : RunId → List ValidationAttempt
  recipes : RecipeId → Option Recipe
  locks : Slot → Bool
  created : List (Slot × RunId) := []
  owners : List (Slot × RunId × RunStatus) := []
  issued : List Issued := []
  claims : List Claim := []
  retries : List Retry := []
  births : List (Slot × Time) := []

/-- What a section does not decide. -/
structure Choice where
  /-- `utc_now` -/
  now : Time := 0
  /-- the wall clock of the orchestrator -/
  clock : Time := 0
  /-- a new id -/
  fresh : String := ""
  /-- what the read or the call raises -/
  fault : Option Fault := none
  /-- the Run that `link_run` verifies cannot be read -/
  unreadable : Bool := false
  write : WriteOutcome := .done
  create : CreateOutcome := .done
  remove : WriteOutcome := .done
  admissionOpen : Bool := true
  /-- `validation_manager() is not None` -/
  validationManager : Bool := true
  /-- the Validation manager closes while it admits -/
  closing : Bool := false
  /-- what a publication ends with -/
  publication : Option Publication := none
  /-- what the execution of a Run makes of its document -/
  run : Option Run := none
  /-- what the Validation worker makes of the attempts of a Run -/
  attempts : List ValidationAttempt := []

variable {cfg : Config}

/-- Programs of the orchestrator and of its environment. -/
abbrev Code (cfg : Config) (α : Type) := Prog (State cfg) Choice Fault α

/-- A read that may raise. -/
def Choice.read {α : Type} (c : Choice) (a : α) : Except Fault α :=
  match c.fault with
  | some f => .error f
  | none => .ok a

namespace State
variable (s : State cfg)

/-- The state in which nothing has happened. -/
def start (cfg : Config) : State cfg :=
  { ledger := .empty cfg, store := fun _ => .absent, runIds := [], snapshots := fun _ => none
    validations := fun _ => [], recipes := fun _ => none, locks := fun _ => false }

/-- A row of the ledger. -/
def row? (slot : Slot) : Option (Attempt × Row) := findRow s.ledger.attempts slot

/-- One Validation attempt. -/
def attempt? (r : RunId) (id : String) : Option ValidationAttempt :=
  (s.validations r).find? (·.id = id)

/-! ## The ledger -/

/-- One call of the ledger for a row: the document is read, the request is answered, and
a row to write is saved.  Refusing is an answer of `preallocate_run` and `link_run`. -/
def ask (c : Choice) (slot : Slot) (held : Row) (request : Request) :
    Except Fault Row × State cfg :=
  let note (document : List Entry) (accepted : Bool) : State cfg :=
    { s with issued := ⟨slot, held, request, document, accepted⟩ :: s.issued }
  match c.fault, s.row? slot with
  | some f, _ => (.error f, s)
  | none, none => (.error (.ledger ⟨"automation_attempt_not_found",
      "Automation generation was not found", "$"⟩), note s.ledger.attempts false)
  | none, some (attempt, row) =>
      let load (r : RunId) := if c.unreadable then none else some (s.store r).doc?
      match request.answer c.now load attempt row with
      | .error e => (.error (.ledger e), match request with
          | .preallocateRun _ | .linkRun _ => s
          | _ => note s.ledger.attempts false)
      | .ok (.keep row) => (.ok row, s)
      | .ok (.write row) =>
          let document := putRow s.ledger.attempts slot row
          match Ledger.save cfg document with
          | .error e => (.error (.ledger e), note document false)
          | .ok ledger =>
              (match c.write.result with
                | .ok () => .ok row
                | .error e => .error (.exc e),
              { note document true with
                ledger := if c.write.committed then ledger else s.ledger })

/-- A call that adds a generation to an attempt, or the attempt itself.  `record` is told
whether the caller sees the answer. -/
def add (c : Choice) (key : AttemptKey) (result : Except LedgerError ClaimResult)
    (record : ClaimResult → Bool → State cfg → State cfg) : Except Fault Unit × State cfg :=
  match c.fault, result with
  | some f, _ => (.error f, s)
  | none, .error e => (.error (.ledger e), s)
  | none, .ok result =>
      if result.created then
        match Ledger.save cfg result.document with
        | .error e => (.error (.ledger e), s)
        | .ok ledger =>
            let added : State cfg :=
              { s with ledger, births := ((key, result.generation), c.now) :: s.births }
            match c.write with
            | .done => (.ok (), record result true added)
            | .lost e => (.error (.exc e), s)
            | .late e => (.error (.exc e), record result false added)
      else (.ok (), record result true s)

/-! ## Runs -/

/-- The Run documents that `store.list` returns. -/
def runs : List Run := s.runIds.filterMap fun r => (s.store r).doc?

/-- `discard_incomplete_creation` of a workspace without a Run, when there is one. -/
def discard (c : Choice) (r : RunId) : Except Fault Bool × State cfg :=
  let done := s.store.discardIncompleteCreation r c.remove
  (match done.1 with
    | .ok discarded => .ok discarded
    | .error e => .error (.exc e), { s with store := done.2 })

/-- The document of an automated Run. -/
def automatedRun (r : RunId) (recipe : Recipe) (mode : RunMode) (origin : Origin)
    (automation : RunAutomation) (now : Time) : Run :=
  { newRun r mode now with
    recipeId := recipe.name, recipeSha256 := recipe.sha256, origin := some origin
    automation := some automation }

/-- The mode that `create` wants under a policy. -/
def expectedMode (policy : Policy) : RunMode := if policy = .test then .dryRun else .build

/-- `BuildStore.create` with automation metadata, as one section. -/
def createRun (c : Choice) (r : RunId) (recipe : Recipe) (mode : RunMode) (origin : Origin)
    (automation : RunAutomation) : Except Fault Run × State cfg :=
  let doc := automatedRun r recipe mode origin automation c.now
  let made (w : Workspace) : State cfg :=
    { s with
      store := update s.store r w, runIds := r :: s.runIds
      snapshots := update s.snapshots r (some recipe) }
  let committed : State cfg :=
    { made (.run doc) with
      created := ((automation.attemptKey, automation.generation), r) :: s.created }
  if !recipe.active || !recipe.enabled || recipe.policy = .manual || recipe.policy = .detect ||
      automation.policy ≠ recipe.policy || mode ≠ expectedMode recipe.policy then
    (.error .value, s)
  else if (s.store r).onDisk then (.error (.exc .fileExists), s)
  else match c.create with
    | .done => (.ok doc, committed)
    | .leftNothing e => (.error (.exc e), made .gone)
    | .leftDirectory e => (.error (.exc e), made .incomplete)
    | .leftRun e => (.error (.exc e), committed)

/-- `manager.submit`, as one section. -/
def submit (c : Choice) (r : RunId) : Except Fault Unit × State cfg :=
  match c.fault, (s.store r).doc? with
  | some f, _ => (.error f, s)
  | none, none => (.error (.exc (.manager (.notFound r))), s)
  | none, some run =>
      if run.status ≠ .pending then (.error (.exc (.manager (.notPending r run.status))), s)
      else
        (match c.write.result with
          | .ok () => .ok ()
          | .error e => .error (.exc e),
        if c.write.committed then
          { s with store := update s.store r (.run { run with status := .queued }) }
        else s)

/-! ## Validation attempts -/

/-- `list_attempts(strict=False)`, oldest first. -/
def listAttempts (r : RunId) : List ValidationAttempt :=
  (s.validations r).insertionSort fun a b => a.before b

/-- `ValidationManager.admit`, as one section: it reuses the active attempt of the Run, or
adds one. -/
def admitAttempt (c : Choice) (r : RunId) (automation : ValidationAutomation) :
    Except Fault String × State cfg :=
  let store (attempts : List ValidationAttempt) : State cfg :=
    { s with validations := update s.validations r attempts }
  match c.fault, (s.listAttempts r).reverse.find? (·.status.active) with
  | some f, _ => (.error f, s)
  | none, some active =>
      if active.automation.all (· = automation) then
        (if c.closing then .error (.validationAdmission "validation_manager_shutting_down")
          else .ok active.id,
        store <| (s.validations r).map fun a =>
          if a.id = active.id then { a with automation := some automation } else a)
      else (.error (.validationAdmission "validation_automation_conflict"), s)
  | none, none =>
      if (s.store r).doc? = none then (.error (.validationAdmission "build_run_not_found"), s)
      else if (s.store r).doc?.all (·.status ≠ .success) then
        (.error (.validationAdmission "artifact_not_available"), s)
      else if (s.attempt? r c.fresh).isSome then
        (.error (.validationAdmission "validation_admission_failed"), s)
      else
        let attempt : ValidationAttempt :=
          { id := c.fresh, createdAt := c.now, status := .queued, automation := some automation }
        if c.closing then
          (.error (.validationAdmission "validation_manager_shutting_down"),
            store (s.validations r ++ [{ attempt with
              status := .cancelled, errorCode := some "validation_shutdown_cancelled" }]))
        else (.ok c.fresh, store (s.validations r ++ [attempt]))

/-! ## Publications -/

/-- A publication attempt starts: it is saved before anything else. -/
def beginPublication (c : Choice) (r : RunId) : Except Fault String × State cfg :=
  match c.fault, (s.store r).doc?, c.publication with
  | some f, _, _ => (.error f, s)
  | none, some run, some attempt =>
      let attempt := { attempt with buildRunId := r, status := .running, proof := none }
      (.ok attempt.id, { s with
        store := update s.store r (.run { run with publications := run.publications ++ [attempt] }) })
  | none, _, _ => (.error (.coded "build_run_not_found"), s)

/-- A publication attempt ends, and is saved with its proof or its error. -/
def endPublication (c : Choice) (r : RunId) (id : String) : Except Fault Publication × State cfg :=
  match c.fault, (s.store r).doc?, c.publication with
  | some f, _, _ => (.error f, s)
  | none, some run, some attempt =>
      let attempt := { attempt with id, buildRunId := r }
      let publications := run.publications.map fun p =>
        if p.id = id ∧ p.status = .running then attempt else p
      (match c.write.result with
        | .ok () => .ok attempt
        | .error e => .error (.exc e),
      if c.write.committed then
        { s with store := update s.store r (.run { run with publications }) }
      else s)
  | none, _, _ => (.error (.coded "build_run_not_found"), s)

end State

/-! ## What the execution of a Run may do -/

/-- How the status of a Run moves: never back to `pending`, and never out of a terminal
status. -/
def statusMayBecome (old new : RunStatus) : Bool :=
  new = old || !old.terminal && new ≠ .pending

/-- A publication attempt that has ended stays as it is. -/
def publicationsMayBecome : List Publication → List Publication → Bool
  | [], _ => true
  | p :: ps, q :: qs => (p = q || p.status = .running && p.id = q.id) && publicationsMayBecome ps qs
  | _ :: _, [] => false

/-- What the manager, the pipeline, recovery and pruning make of a Run: what the Run was
admitted with stays, and so does the artifact of a Run that has ended. -/
def runMayBecome (old new : Run) : Bool :=
  new.id = old.id && new.mode = old.mode && new.createdAt = old.createdAt &&
    new.recipeId = old.recipeId && new.recipeSha256 = old.recipeSha256 &&
    new.origin = old.origin && new.automation = old.automation &&
    new.manualSourceProvenance = old.manualSourceProvenance &&
    (!old.status.terminal || new.artifact = old.artifact) &&
    statusMayBecome old.status new.status &&
    publicationsMayBecome old.publications new.publications

/-- An attempt keeps its id, its date and its metadata, and stays as it is once it has
ended. -/
def attemptMayBecome (old new : ValidationAttempt) : Bool :=
  new.id = old.id && new.createdAt = old.createdAt && new.automation = old.automation &&
    (old.status.active || new = old)

/-- The attempts of a Run move, and an operator may add new ones. -/
def attemptsMayBecome : List ValidationAttempt → List ValidationAttempt → Bool
  | [], added => added.all (·.automation = none)
  | a :: as, b :: bs => attemptMayBecome a b && attemptsMayBecome as bs
  | _ :: _, [] => false

end DebBuilder.Automation
