import Mathlib
import DebBuilder.Execution.Cancellation
import DebBuilder.Lib.Dict
import DebBuilder.Run.Store

/-!
# The execution manager

The state of `ExecutionManager` and its critical sections.  What a method does while
it holds the condition of the manager, or `locked_run` of one Run, is one function
from the state to its result and the state it leaves; the methods themselves are put
together from these sections in `DebBuilder.Execution.Programs`.

Reservation tokens are fresh objects, here numbers from a counter.  Two fields are
history, which no section reads: the Runs whose `pending → queued` transition has
been committed through the manager, and the Runs handed to the executor, in order.

## Main definitions

* `Manager`, `World` — the state, without and with its history.
* `Choice` — what a section does not decide.
* `World.start`, `World.reserve`, `World.enqueue`, … — the sections.
-/

namespace DebBuilder
open Function

/-- A reservation token. -/
abbrev Token := Nat

/-- The worker thread. -/
inductive Worker where
  | absent
  | starting
  | alive
  | stopped
  deriving DecidableEq, Repr

/-- `is_alive()` of a thread that `start` has started. -/
def Worker.isAlive : Worker → Bool
  | .starting | .alive => true
  | .absent | .stopped => false

/-- A failed admission, as its request describes it. -/
structure AdmissionFailure where
  code : String
  message : String
  runId : String
  exceptionType : Option String := none
  managerCode : Option String := none
  terminalizationExceptionType : Option String := none
  ownershipPhase : Option String := none
  deriving DecidableEq, Repr

/-- The failure of a Run's creation, not of its submission. -/
def AdmissionFailure.inCreation (f : AdmissionFailure) : Bool := f.ownershipPhase = some "creation"

/-- The three kinds of shutdown tasks. -/
inductive Kind where
  | queued
  | admission
  | active
  deriving DecidableEq, Repr

/-- The word of a kind of task. -/
def Kind.text : Kind → String
  | .queued => "queued"
  | .admission => "admission"
  | .active => "active"

/-- An entry of `_shutdown_failures`. -/
structure ShutdownFailure where
  code : String := "execution_shutdown_persistence_failed"
  message : String
  runId : RunId
  ownership : Kind
  exceptionType : String
  deriving DecidableEq, Repr

/-- `_worker_fatal_error` -/
structure FatalError where
  code : String := "execution_worker_fatal_error"
  message : String := "Execution worker exited because of a fatal control-flow exception"
  runId : RunId
  exceptionType : String
  deriving DecidableEq, Repr

/-- `ExecutionManager`, with the store that it works on. -/
structure Manager where
  store : Store
  queueCapacity : Nat
  queue : List RunId := []
  reservations : Finset Token := ∅
  admissionLeases : Finset Token := ∅
  reservationRunIds : Token → Option RunId := fun _ => none
  submittingRunIds : Finset RunId := ∅
  worker : Worker := .absent
  activeRunId : Option RunId := none
  activeCancellationControl : Option Control := none
  accepting : Bool := false
  stopping : Bool := false
  admissionBlocker : Option AdmissionBlocker := none
  shutdownLock : Bool := false
  shutdownStarted : Bool := false
  shutdownPending : List RunId := []
  shutdownRunIds : List RunId := []
  shutdownCancelledRunIds : List RunId := []
  shutdownFailures : Lib.Dict RunId ShutdownFailure := ∅
  unresolvedAdmissionRuns : Lib.Dict RunId AdmissionFailure := ∅
  unresolvedActiveRuns : Lib.Dict RunId RunError := ∅
  workerFatalError : Option FatalError := none
  shutdownActiveRunId : Option RunId := none
  shutdownActiveCancellation : Option CancelAnswer := none
  shutdownActiveRequested : Bool := false

/-- The manager and its history. -/
structure World extends Manager where
  committed : Finset RunId := ∅
  handed : List RunId := []
  nextToken : Token := 0

/-- What the executor does next with the Run it was given.  `save` is a write of its
document, `claim` a claim of its terminal outcome. -/
inductive ExecuteStep where
  | save (doc : Run)
  | claim
  | returns
  | raises (e : Exc)

/-- What a section does not decide: the outcomes of its store calls, the clock, and
the executor. -/
structure Choice where
  read : Option Exc := none
  write : WriteOutcome := .done
  remove : WriteOutcome := .done
  log : Option Exc := none
  now : Time := 0
  later : Time := 0
  expired : Bool := false
  execute : ExecuteStep := .returns
  create : CreateOutcome := .done

/-- Every store call of the section succeeds. -/
structure Choice.Succeeds (c : Choice) : Prop where
  read : c.read = none
  write : c.write = .done
  remove : c.remove = .done
  log : c.log = none

/-! ## Documents -/

/-- `_elapsed` -/
def elapsed (startedAt : Option Time) (finishedAt : Time) : Nat :=
  match startedAt with
  | some t => finishedAt - t
  | none => 0

/-- `_worker_failure` -/
def workerFailure (e : Exc) : RunError where
  stage := "worker"
  code := "execution_worker_error"
  message := "The execution worker encountered an unexpected error"
  details := [("exception_type", e.typeName)]

/-- `failure.get(key) or default` for a text. -/
def textOr (value : Option String) (default : String) : String :=
  match value with
  | none | some "" => default
  | some text => text

/-- `_admission_failure_error` -/
def admissionFailureError (f : AdmissionFailure) : RunError where
  stage := "queue"
  code := "execution_enqueue_failed"
  message := "The Build Run could not be submitted for execution"
  details :=
    [("run_id", f.runId), ("exception_type", textOr f.exceptionType "UnknownAdmissionFailure")] ++
      match f.managerCode with
      | none | some "" => []
      | some code => [("manager_code", code)]

/-- The cancellation is the one that `_persist_queued_cancellation` writes for `reason`. -/
def Cancellation.ofQueue (existing : Cancellation) (reason : String) : Bool :=
  existing.code = cancellationCode ∧ existing.reason = reason ∧ existing.phase = "queue"

/-- The decision of `_persist_queued_cancellation`. -/
def cancelQueued (c : Choice) (reason : String) (r : RunId) :
    Option Run → Except Exc Cancellation ⊕ Run × Cancellation
  | none => .inl (.error (.manager (.notFound r)))
  | some run =>
      match run.status, run.cancellation with
      | .cancelled, some existing =>
          if existing.ofQueue reason then .inl (.ok existing)
          else .inl (.error (.manager (.notQueued r run.status)))
      | .queued, _ =>
          let cancellation :=
            { code := cancellationCode, reason, phase := "queue", stage := "queue"
              requestedAt := c.now, completedAt := some c.later }
          .inr ({ run with
            status := .cancelled, startedAt := none, finishedAt := some c.later
            duration := some 0, error := none, cancellation := some cancellation }, cancellation)
      | _, _ => .inl (.error (.manager (.notQueued r run.status)))

/-- `_persist_queued_cancellation` -/
def persistQueuedCancellation (c : Choice) (reason : String) (r : RunId) (s : Store) :
    Except Exc Cancellation × Store :=
  s.rewrite r c.read c.write (cancelQueued c reason r)

/-- What a terminalization has found or done: an answer at once, or a saved document
whose log line is still to be written. -/
inductive Terminalized where
  | answer (resolved : Bool)
  | saved
  deriving DecidableEq, Repr

/-- The decision of `_terminalize_unresolved_admission` about a document. -/
def failAdmission (c : Choice) (f : AdmissionFailure) :
    Option Run → Except Exc Terminalized ⊕ Run × Terminalized
  | none => .inl (.ok (.answer false))
  | some run =>
      match run.status with
      | .pending | .queued =>
          .inr ({ run with
            status := .failed, finishedAt := some c.now, duration := some 0
            error := some (admissionFailureError f) }, .saved)
      | .running | .cancelling => .inl (.ok (.answer false))
      | .prepared | .success | .failed | .cancelled => .inl (.ok (.answer true))

/-- The locked part of `_terminalize_unresolved_admission`: without a document, only an
incomplete creation is discarded. -/
def terminalizeAdmission (c : Choice) (r : RunId) (f : AdmissionFailure) (s : Store) :
    Except Exc Terminalized × Store :=
  if s r = .incomplete ∧ f.inCreation ∧ c.read = none then
    let discarded := s.discardIncompleteCreation r c.remove
    (discarded.1.map .answer, discarded.2)
  else s.rewrite r c.read c.write (failAdmission c f)

/-- The step of a worker failure: the first running step carries it. -/
def failActiveStep (failure : RunError) (finishedAt : Time) : List Step → RunError × List Step
  | [] => (failure, [])
  | step :: steps =>
      if step.status = .running then
        let failure := { failure with stage := step.name.text }
        (failure, { step with
          status := .failed, finishedAt := some finishedAt
          duration := some (elapsed step.startedAt finishedAt)
          summary := failure.message, error := some failure } :: steps)
      else
        let rest := failActiveStep failure finishedAt steps
        (rest.1, step :: rest.2)

/-- The decision of `_finalize_worker_error`. -/
def failWorker (c : Choice) (failure : RunError) :
    Option Run → Except Exc Terminalized ⊕ Run × Terminalized
  | none => .inl (.ok (.answer false))
  | some run =>
      match run.status with
      | .queued | .running | .cancelling =>
          let failed := failActiveStep failure c.now run.steps
          .inr ({ run with
            status := .failed, finishedAt := some c.now
            duration := some (elapsed run.startedAt c.now)
            steps := failed.2, error := some failed.1 }, .saved)
      | .pending => .inl (.ok (.answer false))
      | .prepared | .success | .failed | .cancelled => .inl (.ok (.answer true))

/-- The locked part of `_finalize_worker_error`. -/
def finalizeWorker (c : Choice) (r : RunId) (failure : RunError) (s : Store) :
    Except Exc Terminalized × Store :=
  s.rewrite r c.read c.write (failWorker c failure)

/-- `_enqueue_failure_details` -/
def enqueueFailureDetails (e : Exc) (r : RunId) : List (String × String) :=
  [("run_id", r), ("exception_type", e.typeName)] ++
    match e with
    | .manager m => [("manager_code", m.code)]
    | _ => []

/-- The decision of `_mark_enqueue_failed`. -/
def failEnqueue (c : Choice) (r : RunId) (e : Exc) :
    Option Run → Except Exc Terminalized ⊕ Run × Terminalized
  | none => .inl (.ok (.answer false))
  | some run =>
      match run.status with
      | .pending | .queued =>
          .inr ({ run with
            status := .failed, finishedAt := some c.now, duration := some 0
            error := some
              { stage := "queue", code := "execution_enqueue_failed"
                message := "The Build Run could not be submitted for execution"
                details := enqueueFailureDetails e r } }, .saved)
      | _ => .inl (.ok (.answer false))

/-- The locked part of `_mark_enqueue_failed`. -/
def markEnqueueFailed (c : Choice) (r : RunId) (e : Exc) (s : Store) :
    Except Exc Terminalized × Store :=
  s.rewrite r c.read c.write (failEnqueue c r e)

/-! ## What the decisions do -/

theorem cancelQueued_terminal (c : Choice) (reason : String) (r : RunId) :
    Store.TerminalChange (cancelQueued c reason r) := by
  intro d doc answer h
  cases d with
  | none => simp [cancelQueued] at h
  | some run =>
      simp only [cancelQueued] at h
      split at h
      · split at h <;> simp at h
      · rename_i hq
        simp only [Sum.inr.injEq, Prod.mk.injEq] at h
        exact ⟨by rw [← h.1]; rfl, run, rfl, by rw [hq]; rfl⟩
      · simp at h

theorem failAdmission_terminal (c : Choice) (f : AdmissionFailure) :
    Store.TerminalChange (failAdmission c f) := by
  intro d doc answer h
  cases d with
  | none => simp [failAdmission] at h
  | some run =>
      cases hs : run.status <;> simp [failAdmission, hs] at h <;>
        exact ⟨by rw [← h.1]; rfl, run, rfl, by rw [hs]; rfl⟩

theorem failWorker_terminal (c : Choice) (failure : RunError) :
    Store.TerminalChange (failWorker c failure) := by
  intro d doc answer h
  cases d with
  | none => simp [failWorker] at h
  | some run =>
      cases hs : run.status <;> simp [failWorker, hs] at h <;>
        exact ⟨by rw [← h.1]; rfl, run, rfl, by rw [hs]; rfl⟩

theorem failEnqueue_terminal (c : Choice) (r : RunId) (e : Exc) :
    Store.TerminalChange (failEnqueue c r e) := by
  intro d doc answer h
  cases d with
  | none => simp [failEnqueue] at h
  | some run =>
      cases hs : run.status <;> simp [failEnqueue, hs] at h <;>
        exact ⟨by rw [← h.1]; rfl, run, rfl, by rw [hs]; rfl⟩

variable {c : Choice} {r : RunId} {s : Store}

/-- A queued Run whose cancellation has been persisted is terminal. -/
theorem persistQueuedCancellation_ok {reason : String} {cancellation : Cancellation}
    (h : (persistQueuedCancellation c reason r s).1 = .ok cancellation) :
    (persistQueuedCancellation c reason r s).2.Terminal r := by
  refine Store.rewrite_terminal (cancelQueued_terminal c reason r) (fun d hd => ?_) h
  cases d with
  | none => simp [cancelQueued] at hd
  | some run =>
      simp only [cancelQueued] at hd
      split at hd
      · rename_i hs _
        exact ⟨run, rfl, by rw [hs]; rfl⟩
      · simp at hd
      · simp at hd

/-- A worker failure that has been finalized leaves the Run terminal. -/
theorem finalizeWorker_ok {failure : RunError} {a : Terminalized}
    (h : (finalizeWorker c r failure s).1 = .ok a) (ha : a ≠ .answer false) :
    (finalizeWorker c r failure s).2.Terminal r := by
  refine Store.rewrite_terminal (failWorker_terminal c failure) (fun d hd => ?_) h
  cases d with
  | none => simp [failWorker, ha.symm] at hd
  | some run =>
      refine ⟨run, rfl, ?_⟩
      cases hs : run.status <;> simp_all [failWorker, RunStatus.terminal]

theorem terminalizeAdmission_terminalizes (f : AdmissionFailure) :
    s.Terminalizes (terminalizeAdmission c r f s).2 := by
  unfold terminalizeAdmission
  split
  · rename_i h
    simp only [Store.discardIncompleteCreation, h.1]
    split
    · exact Store.terminalizes_discard h.1
    · exact .refl s
  · exact Store.rewrite_terminalizes (failAdmission_terminal c f) _ _

/-- An unresolved admission that has been settled leaves the Run terminal, or no
workspace at all. -/
theorem terminalizeAdmission_ok {f : AdmissionFailure} {a : Terminalized}
    (h : (terminalizeAdmission c r f s).1 = .ok a) (ha : a ≠ .answer false) :
    (terminalizeAdmission c r f s).2.Terminal r ∨ (terminalizeAdmission c r f s).2 r = .gone := by
  unfold terminalizeAdmission at h ⊢
  split at h
  · rename_i hs
    rw [if_pos hs]
    right
    simp only [Store.discardIncompleteCreation, hs.1] at h ⊢
    cases hw : c.remove <;> simp_all [WriteOutcome.result, WriteOutcome.committed, Except.map]
  · rename_i hs
    rw [if_neg hs]
    left
    refine Store.rewrite_terminal (failAdmission_terminal c f) (fun d hd => ?_) h
    cases d with
    | none => simp [failAdmission, ha.symm] at hd
    | some run =>
        refine ⟨run, rfl, ?_⟩
        cases hr : run.status <;> simp_all [failAdmission, RunStatus.terminal]

end DebBuilder
