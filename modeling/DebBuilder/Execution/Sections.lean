import Mathlib
import DebBuilder.Execution.Manager

/-!
# Critical sections of the execution manager

Each function is what one method of `ExecutionManager` does between taking and
leaving the condition of the manager, or one call of the store outside of it.

## Main definitions

* `World.start`, `World.submit`, `World.reserve`, … — the sections.
* `CancelReply`, `ShutdownResult` — what `cancel` and `shutdown` return.
-/

namespace DebBuilder
open Function Lib

/-- What `cancel` returns. -/
inductive CancelReply where
  | queuedCancelled (run : RunId) (cancellation : Cancellation)
  | activeCancelRequested (run : RunId) (firstRequest : Bool) (cancellation : Option CancelRequest)
  | alreadyCancelled (run : RunId) (cancellation : Option Cancellation)
  | notFound (run : RunId)
  | terminalNotCancellable (run : RunId) (status : String)
  deriving DecidableEq, Repr

/-- An entry of `errors` in the result of a shutdown. -/
inductive ShutdownError where
  | failure (f : ShutdownFailure)
  | fatal (e : FatalError)
  /-- `execution_shutdown_timeout` -/
  | timeout
  deriving DecidableEq, Repr

/-- What `shutdown` returns. -/
structure ShutdownResult where
  status : String
  complete : Bool
  admissionClosed : Bool
  queuedRunIds : List RunId
  cancelledRunIds : List RunId
  unresolvedRunIds : List RunId
  unresolvedQueuedRunIds : List RunId
  unresolvedAdmissionRunIds : List RunId
  unresolvedActiveRunIds : List RunId
  activeRunId : Option RunId
  activeContextRunId : Option RunId
  activeCancellation : Option CancelAnswer
  workerFatalError : Option FatalError
  workerJoined : Bool
  timedOut : Bool
  outstandingReservations : Nat
  submittingRunIds : List RunId
  errors : List ShutdownError
  deriving DecidableEq, Repr

/-- A shutdown task: its kind, its Run, and what is known of the failure. -/
inductive Task where
  | queued (run : RunId)
  | admission (run : RunId) (failure : AdmissionFailure)
  | active (run : RunId) (failure : RunError)

def Task.kind : Task → Kind
  | queued _ => .queued
  | admission .. => .admission
  | active .. => .active

def Task.run : Task → RunId
  | queued r | admission r _ | active r _ => r

/-- What the drain does after it has looked for a task. -/
inductive DrainStep where
  | task (t : Task)
  | wait
  | again
  | stop

/-- What the first look of `cancel` has settled. -/
inductive CancelLook where
  | done (reply : CancelReply)
  | active (reply : CancelReply) (firstRequest : Bool)
  | unowned

/-- What the worker does after it has waited. -/
inductive WorkerStep where
  | run (r : RunId)
  | stop
  | again

namespace World
variable (c : Choice) (s : World)

/-! ## Admission -/

/-- `start`, up to the start of the thread. -/
def start (blocker : Option AdmissionBlocker) : Except Exc Unit × World :=
  if s.shutdownStarted then
    (.error (.manager .stopped), s)
  else
    match s.worker with
    | .starting | .alive => (.ok (), s)
    | .stopped => (.error (.manager .stopped), s)
    | .absent =>
        (.ok (), { s with
          admissionBlocker := blocker, accepting := blocker.isNone, stopping := false
          worker := .starting })

/-- `_require_accepting` -/
def requireAccepting : Except Exc Unit :=
  if s.accepting then .ok ()
  else
    match s.admissionBlocker with
    | some b => .error (.manager (.blocked b))
    | none => .error (.manager .notAccepting)

/-- `_require_capacity` -/
def requireCapacity : Except Exc Unit :=
  if s.queue.length + s.reservations.card + s.submittingRunIds.card ≥ s.queueCapacity then
    .error (.manager (.queueFull s.queue.length s.reservations.card s.submittingRunIds.card
      s.queueCapacity))
  else .ok ()

/-- `_require_not_submitted` -/
def requireNotSubmitted (r : RunId) : Except Exc Unit :=
  if s.activeRunId = some r ∨ r ∈ s.queue ∨ r ∈ s.submittingRunIds then
    .error (.manager (.alreadySubmitted r))
  else .ok ()

/-- The admission of `submit`. -/
def submit (r : RunId) : Except Exc Unit × World :=
  match s.requireAccepting, s.requireNotSubmitted r, s.requireCapacity with
  | .ok (), .ok (), .ok () => (.ok (), { s with submittingRunIds := insert r s.submittingRunIds })
  | .error e, _, _ | .ok (), .error e, _ | .ok (), .ok (), .error e => (.error e, s)

/-- The admission of `reserve`. -/
def reserve : Except Exc Token × World :=
  match s.requireAccepting, s.requireCapacity with
  | .ok (), .ok () =>
      (.ok s.nextToken, { s with
        reservations := insert s.nextToken s.reservations
        admissionLeases := insert s.nextToken s.admissionLeases
        reservationRunIds := update s.reservationRunIds s.nextToken none
        nextToken := s.nextToken + 1 })
  | .error e, _ | .ok (), .error e => (.error e, s)

/-- `_track_reservation` -/
def trackReservation (k : Token) (r : RunId) : Except Exc Unit × World :=
  if k ∉ s.admissionLeases then
    (.error (.manager .reservationInactive), s)
  else
    match s.reservationRunIds k with
    | some owned =>
        if owned = r then (.ok (), s) else (.error (.manager (.reservationOwnsAnother r owned)), s)
    | none => (.ok (), { s with reservationRunIds := update s.reservationRunIds k (some r) })

/-- The admission of `_submit_reserved`. -/
def submitReserved (k : Token) (r : RunId) : Except Exc Unit × World :=
  if k ∉ s.reservations then
    (.error (.manager .reservationInactive), s)
  else if s.reservationRunIds k ≠ some r then
    (.error (.manager (.reservationNotOwner r)), s)
  else
    match s.requireNotSubmitted r with
    | .error e => (.error e, s)
    | .ok () =>
        (.ok (), { s with
          reservations := s.reservations.erase k
          submittingRunIds := insert r s.submittingRunIds })

/-- `_settle_reservation_locked` -/
def settle (k : Token) : World :=
  { s with
    reservations := s.reservations.erase k
    admissionLeases := s.admissionLeases.erase k
    reservationRunIds := update s.reservationRunIds k none }

/-- What `_mark_queued` raises for an exception of the store. -/
def queueError (r : RunId) : Exc → Exc
  | .fileNotFound => .manager (.notFound r)
  | .transition actual => .manager (.notPending r actual)
  | e => e

/-- `_mark_queued`; the history notes a transition that has been committed. -/
def markQueued (r : RunId) : Except Exc Run × World :=
  let moved := s.store.transitionStatus r c.read c.write .pending .queued
  (moved.1.mapError (queueError r),
    { s with
      store := moved.2
      committed :=
        if s.store.status? r = some .pending ∧ moved.2.status? r = some .queued then
          insert r s.committed
        else s.committed })

/-- `_capture_shutdown_run_locked` -/
def captureShutdownRun (r : RunId) : World :=
  { s with
    shutdownRunIds := if r ∈ s.shutdownRunIds then s.shutdownRunIds else s.shutdownRunIds ++ [r]
    shutdownPending :=
      if r ∈ s.shutdownPending then s.shutdownPending else s.shutdownPending ++ [r] }

/-- The end of a submission whose transition has been committed. -/
def enqueue (r : RunId) (token : Option Token) : World :=
  let s := { s with submittingRunIds := s.submittingRunIds.erase r }
  let s := if s.shutdownStarted then s.captureShutdownRun r else { s with queue := s.queue ++ [r] }
  match token with
  | some k => s.settle k
  | none => s

/-- The end of a submission that raised `e`. -/
def submissionFailed (r : RunId) (unresolved : Bool) (e : Exc) : World :=
  let s := { s with submittingRunIds := s.submittingRunIds.erase r }
  if unresolved then
    { s with
      unresolvedAdmissionRuns := s.unresolvedAdmissionRuns.setDefault r
        { code := "execution_enqueue_persistence_unresolved"
          message :=
            "Direct Build Run submission failed before durable ownership could be confirmed"
          runId := r, exceptionType := some e.typeName }
      shutdownFailures := s.shutdownFailures.setDefault r
        { message := "Direct-submission Run remains durably non-terminal"
          runId := r, ownership := .admission, exceptionType := e.typeName } }
  else s

/-- The last section of `_confirm_reservation_terminal` and `_confirm_reservation_absent`. -/
def confirmSettled (k : Token) (r : RunId) : Bool × World :=
  if s.reservationRunIds k ≠ some r then (k ∉ s.admissionLeases, s) else (true, s.settle k)

/-- `_transfer_reservation_unresolved` -/
def transferUnresolved (k : Token) (r : RunId) (f : AdmissionFailure) : Except Exc Unit × World :=
  if k ∉ s.admissionLeases then
    (.ok (), s)
  else if s.reservationRunIds k ≠ some r then
    (.error (.manager (.reservationNotOwner r)), s)
  else
    let s := { s with
      unresolvedAdmissionRuns := s.unresolvedAdmissionRuns.setDefault r f
      shutdownFailures := s.shutdownFailures.setDefault r
        { message := "Admission-failed Run remains durably non-terminal"
          runId := r, ownership := .admission
          exceptionType :=
            textOr f.terminalizationExceptionType
              (textOr f.exceptionType "DurableStateUnresolved") } }
    (.ok (), s.settle k)

/-- The first section of `_release_reservation`: the Run whose ownership is still to be
confirmed, if there is one. -/
def releaseReservation (k : Token) : Option RunId × World :=
  if k ∉ s.admissionLeases then
    (none, s)
  else
    match s.reservationRunIds k with
    | none => (none, s.settle k)
    | some r =>
        if s.activeRunId = some r ∨ r ∈ s.queue ∨ r ∈ s.submittingRunIds ∨
            r ∈ s.shutdownPending then
          (none, s.settle k)
        else (some r, s)

/-! ## Cancellation -/

/-- `request_cancel` on the control of the active Run. -/
def requestActive (r : RunId) : Except Exc (CancelReply × CancelAnswer) × World :=
  match s.activeCancellationControl with
  | none => (.error (.runtime "active Run is missing its cancellation control"), s)
  | some k =>
      let requested := k.requestCancel userRequested c.now
      (.ok
        (if requested.1.accepted then
          .activeCancelRequested r requested.1.firstRequest requested.1.cancellation
        else .terminalNotCancellable r "active", requested.1),
        { s with activeCancellationControl := some requested.2 })

/-- The first section of `cancel`, with `_cancel_queued_locked`. -/
def cancelOwned (r : RunId) : Except Exc CancelLook × World :=
  if r ∈ s.queue then
    let persisted := persistQueuedCancellation c userRequested r s.store
    match persisted.1 with
    | .error e => (.error e, { s with store := persisted.2 })
    | .ok cancellation =>
        (.ok (.done (.queuedCancelled r cancellation)),
          { s with store := persisted.2, queue := s.queue.erase r })
  else if s.activeRunId = some r then
    let requested := s.requestActive c r
    (requested.1.map fun a => .active a.1 (a.2.accepted && a.2.firstRequest), requested.2)
  else (.ok .unowned, s)

/-- The reply to a Run that no owner can cancel, from its durable state. -/
def replyFrom (r : RunId) : Option Run → CancelReply
  | none => .notFound r
  | some run =>
      if run.status = .cancelled then .alreadyCancelled r run.cancellation
      else .terminalNotCancellable r run.status.text

/-- The last section of `cancel`, after the durable state has been read. -/
def cancelUnowned (r : RunId) (run : Option Run) : Except Exc CancelReply × World :=
  if s.activeRunId = some r ∧ (run.all fun run => !run.status.terminal) then
    let requested := s.requestActive c r
    (requested.1.map fun a => if a.2.accepted then a.1 else replyFrom r run, requested.2)
  else (.ok (replyFrom r run), s)

/-! ## Stop and shutdown -/

/-- The section of `stop`. -/
def stop : World :=
  let tracked := fun k => (s.reservationRunIds k).isSome
  { s with
    accepting := false, stopping := true
    reservations := s.reservations.filter fun k => k ∉ s.admissionLeases ∨ tracked k
    admissionLeases := s.admissionLeases.filter fun k => tracked k }

/-- The first half of `_begin_shutdown_locked`: the queue becomes that of the shutdown. -/
def closeAdmission : World :=
  if s.shutdownStarted then s else
    s.queue.foldl captureShutdownRun { s with
      shutdownStarted := true, accepting := false, stopping := true, queue := []
      shutdownActiveRunId := s.activeRunId }

/-- The second half of `_begin_shutdown_locked`, when `request_active` is set. -/
def cancelActive : World :=
  if s.shutdownActiveRequested then s else
    let s := { s with shutdownActiveRequested := true }
    match s.activeCancellationControl with
    | none => s
    | some k =>
        let requested := k.requestCancel serverShutdown c.now
        { s with
          shutdownActiveCancellation := some requested.1
          activeCancellationControl := some requested.2 }

/-- `_begin_shutdown_locked` -/
def beginShutdown (requestActive : Bool) : World :=
  if requestActive then s.closeAdmission.cancelActive c else s.closeAdmission

/-- `_shutdown_task_locked` -/
def shutdownTask (attempted : List (Kind × RunId)) (kinds : List Kind) : Option Task :=
  let fresh (kind : Kind) (r : RunId) : Bool := kind ∈ kinds ∧ (kind, r) ∉ attempted
  (s.shutdownPending.find? (fresh .queued)).map Task.queued <|>
  (s.unresolvedAdmissionRuns.items.find? fun e => fresh .admission e.1).map
    (fun e => Task.admission e.1 e.2) <|>
  (s.unresolvedActiveRuns.items.find? fun e => fresh .active e.1).map fun e => Task.active e.1 e.2

/-- A task of one of the kinds is left. -/
def unresolved (kinds : List Kind) : Bool :=
  (.queued ∈ kinds ∧ s.shutdownPending ≠ []) ∨
  (.admission ∈ kinds ∧ s.unresolvedAdmissionRuns.items ≠ []) ∨
  (.active ∈ kinds ∧ s.unresolvedActiveRuns.items ≠ [])

/-- What the drain does next. -/
def drainStep (deadline : Bool) (attempted : List (Kind × RunId)) (kinds : List Kind) :
    DrainStep :=
  let timeLeft := !(deadline && c.expired)
  match s.shutdownTask attempted kinds with
  | some t => if timeLeft then .task t else .stop
  | none =>
      if (s.admissionLeases ≠ ∅ ∨ s.submittingRunIds ≠ ∅) ∧ timeLeft then .wait
      else if s.unresolved kinds ∧ ¬ deadline then .again
      else .stop

/-- The label of a task that was not resolved. -/
def unresolvedLabel : Kind → String
  | .queued => "Queued Run cancellation could not be persisted during shutdown"
  | .admission => "Admission-failed Run could not be terminalized during shutdown"
  | .active => "Worker-failed Run could not be terminalized during shutdown"

/-- `_record_shutdown_task_result`, where `result` is how the task ended. -/
def recordShutdownTask (kind : Kind) (r : RunId) (result : Except Exc Bool) : World :=
  match result with
  | .ok true =>
      let s := match kind with
        | .queued => { s with
            shutdownPending := s.shutdownPending.erase r
            shutdownCancelledRunIds :=
              if r ∈ s.shutdownCancelledRunIds then s.shutdownCancelledRunIds
              else s.shutdownCancelledRunIds ++ [r] }
        | .admission =>
            { s with unresolvedAdmissionRuns := s.unresolvedAdmissionRuns.erase r }
        | .active => { s with unresolvedActiveRuns := s.unresolvedActiveRuns.erase r }
      { s with shutdownFailures := s.shutdownFailures.erase r }
  | .ok false | .error _ =>
      { s with
        shutdownFailures := s.shutdownFailures.set r
          { message := unresolvedLabel kind, runId := r, ownership := kind
            exceptionType := match result with
              | .error e => e.typeName
              | .ok _ => "DurableStateUnresolved" } }

/-- `_shutdown_result` -/
def shutdownResult (joined timedOut : Bool) : ShutdownResult :=
  let unresolvedQueued := s.shutdownPending
  let unresolvedAdmission := s.unresolvedAdmissionRuns.items.map Prod.fst
  let unresolvedActive := s.unresolvedActiveRuns.items.map Prod.fst
  let unresolved := (unresolvedQueued ++ unresolvedAdmission ++ unresolvedActive).eraseDups
  let complete : Bool :=
    s.shutdownStarted ∧ joined ∧ unresolved = [] ∧ s.activeRunId = none ∧
      s.admissionLeases = ∅ ∧ s.submittingRunIds = ∅ ∧ s.workerFatalError = none
  { status :=
      if complete ∧ timedOut then "complete_after_deadline"
      else if complete then "complete" else "incomplete"
    complete
    admissionClosed := !s.accepting
    queuedRunIds := s.shutdownRunIds
    cancelledRunIds := s.shutdownCancelledRunIds
    unresolvedRunIds := unresolved
    unresolvedQueuedRunIds := unresolvedQueued
    unresolvedAdmissionRunIds := unresolvedAdmission
    unresolvedActiveRunIds := unresolvedActive
    activeRunId := s.shutdownActiveRunId
    activeContextRunId := s.activeRunId
    activeCancellation := s.shutdownActiveCancellation
    workerFatalError := s.workerFatalError
    workerJoined := joined
    timedOut
    outstandingReservations := s.admissionLeases.card
    submittingRunIds := s.submittingRunIds.sort
    errors :=
      (unresolved.filterMap fun r => (s.shutdownFailures.lookup r).map .failure) ++
      (s.workerFatalError.map ShutdownError.fatal).toList ++
      if joined then [] else [.timeout] }

/-! ## The worker -/

/-- What `_worker_main` waits for. -/
def workerReady : Bool :=
  s.queue ≠ [] ∨ (s.stopping ∧ s.admissionLeases = ∅ ∧ s.submittingRunIds = ∅)

/-- The first section of the worker's loop, once it is ready. -/
def workerNext : WorkerStep × World :=
  if s.shutdownStarted then
    (if s.admissionLeases = ∅ ∧ s.submittingRunIds = ∅ then .stop else .again, s)
  else
    match s.queue with
    | [] =>
        (if s.stopping ∧ s.admissionLeases = ∅ ∧ s.submittingRunIds = ∅ then .stop else .again, s)
    | r :: queue =>
        -- The call of the executor follows at once, in the same thread.
        (.run r, { s with
          queue, activeRunId := some r, activeCancellationControl := some {}
          handed := s.handed ++ [r] })

/-- One section of the executor of Run `r`; true when it goes on.  It writes documents
of its own Run only, not after the Run is terminal, and never back to `pending`. -/
def executeStep (r : RunId) : Except Exc Bool × World :=
  match c.execute with
  | .save doc =>
      match s.store r with
      | .run old =>
          if old.status.terminal ∨ doc.status = .pending then (.ok true, s)
          else (.ok true, { s with store := (s.store.save r c.write doc).2 })
      | _ => (.ok true, s)
  | .claim =>
      (.ok true, { s with
        activeCancellationControl := s.activeCancellationControl.map fun k => k.claimTerminal.2 })
  | .returns => (.ok false, s)
  | .raises e => (.error e, s)

/-- The section that ends the ownership of the active Run. -/
def retire (r : RunId) (resolved : Bool) (failure : RunError) (fatal : Option Exc) : World :=
  let s := if resolved then s else
    { s with
      unresolvedActiveRuns := s.unresolvedActiveRuns.setDefault r failure
      shutdownFailures := s.shutdownFailures.setDefault r
        { message := "Worker-failed Run remains durably non-terminal"
          runId := r, ownership := .active
          exceptionType :=
            textOr (failure.details.lookup "exception_type") "DurableStateUnresolved" }
      accepting := false, stopping := true }
  let s := match fatal with
    | none => s
    | some e => { s with
        workerFatalError := some { runId := r, exceptionType := e.typeName }
        accepting := false, stopping := true }
  { s with activeRunId := none, activeCancellationControl := none }

/-! ## The environment -/

/-- `create`, as one section: until it has ended, no other thread knows the id. -/
def create (r : RunId) (mode : RunMode) : Except Exc Unit × World :=
  let made (w : Workspace) : World := { s with store := update s.store r w }
  match s.store r with
  | .incomplete | .run _ => (.error .fileExists, s)
  | .absent | .gone =>
      match c.create with
      | .done => (.ok (), made (.run (newRun r mode c.now)))
      | .leftNothing e => (.error e, made .gone)
      | .leftDirectory e => (.error e, made .incomplete)
      | .leftRun e => (.error e, made (.run (newRun r mode c.now)))

end World
end DebBuilder
