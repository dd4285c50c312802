import Mathlib
import DebBuilder.Execution.Sections
import DebBuilder.Lib.Protocol

/-!
# Methods of the execution manager

Each method as a program: its sections in order, with what it does on every
exception.  A loop takes a bound on its iterations and stops the thread when the
bound is reached, so a statement about every bound covers every point of the loop.

## Main definitions

* `submit`, `withReserve`, `cancel`, `stop`, `beginShutdown`, `shutdown`,
  `workerMain` — the methods.
* `ReservationCall` — what a client does inside `with reserve()`.
* `Call`, `manager` — the calls that threads may start, and the system they make.
-/

namespace DebBuilder
open Lib

/-- Programs over the manager and its store. -/
abbrev Code (α : Type) := Prog World Choice Exc α

/-- How a thread of the manager ends. -/
inductive Reply where
  | unit
  | run (doc : Run)
  | cancel (reply : CancelReply)
  | shutdown (result : ShutdownResult)

namespace Execution

/-- A section that cannot raise. -/
def step {α : Type} (f : Choice → World → α × World) : Code α :=
  .act fun c s => ((.ok (f c s).1), (f c s).2)

/-- A section without a result that cannot raise. -/
def change (f : Choice → World → World) : Code Unit := step fun c s => ((), f c s)

/-- One call of the store, under the lock of its Run. -/
def onStore {α : Type} (f : Choice → Store → Except Exc α × Store) : Code α :=
  .act fun c s => ((f c s.store).1, { s with store := (f c s.store).2 })

/-! ## Admission -/

/-- `_durably_terminal`: a read that fails proves nothing. -/
def durablyTerminal (r : RunId) : Code Bool :=
  .look fun c s => .ok <|
    match s.store.load r c.read with
    | .ok (some run) => run.status.terminal
    | .ok none | .error _ => false

/-- `run_dir(r).exists()` -/
def onDisk (r : RunId) : Code Bool :=
  .look fun c s =>
    match c.read with
    | some e => .error e
    | none => .ok (s.store r).onDisk

/-- `append_log_line` -/
def appendLogLine : Code Unit :=
  .look fun c _ =>
    match c.log with
    | some e => .error e
    | none => .ok ()

/-- `run_dir(r).exists() and not _durably_terminal(r)`, true when it cannot be read. -/
def unresolvedSubmission (r : RunId) : Code Bool := do
  match ← (onDisk r).attempt with
  | .error _ => pure true
  | .ok false => pure false
  | .ok true => do
      let terminal ← durablyTerminal r
      pure !terminal

/-- `_persist_and_enqueue` -/
def persistAndEnqueue (r : RunId) (token : Option Token) : Code Run := do
  match ← (Prog.act fun c s => s.markQueued c r).attempt with
  | .ok run => do
      change fun _ s => s.enqueue r token
      pure run
  | .error e => do
      let unresolved ← if token.isSome then pure false else unresolvedSubmission r
      change fun _ s => s.submissionFailed r unresolved e
      .throw e

/-- `submit` -/
def submit (r : RunId) : Code Run := do
  Prog.act fun _ s => s.submit r
  persistAndEnqueue r none

/-! ## Terminalization -/

/-- The end of a terminalization that raised: `except Exception: return
_durably_terminal(r)`. -/
def provenTerminal (r : RunId) (e : Exc) : Code Bool :=
  if e.isException then durablyTerminal r else .throw e

/-- `_terminalize_unresolved_admission` -/
def terminalizeUnresolvedAdmission (r : RunId) (f : AdmissionFailure) : Code Bool := do
  match ← (onStore fun c s => terminalizeAdmission c r f s).attempt with
  | .error e => provenTerminal r e
  | .ok (.answer resolved) => pure resolved
  | .ok .saved => do
      match ← appendLogLine.attempt with
      | .ok () => pure true
      | .error e => if e.isOSError then pure true else .throw e

/-- `_finalize_worker_error` -/
def finalizeWorkerError (r : RunId) (failure : RunError) : Code Bool := do
  match ← (onStore fun c s => finalizeWorker c r failure s).attempt with
  | .error e => provenTerminal r e
  | .ok (.answer resolved) => pure resolved
  | .ok .saved => do
      match ← appendLogLine.attempt with
      | .ok () => pure true
      | .error e => if e.isException then pure true else .throw e

/-! ## Reservations -/

/-- `_confirm_reservation_terminal` -/
def confirmTerminal (k : Token) (r : RunId) : Code Bool := do
  if ← durablyTerminal r then step fun _ s => s.confirmSettled k r else pure false

/-- `_confirm_reservation_absent` -/
def confirmAbsent (k : Token) (r : RunId) : Code Bool := do
  match ← (onDisk r).attempt with
  | .ok false => step fun _ s => s.confirmSettled k r
  | .ok true | .error _ => pure false

/-- `_resolve_failed_creation` -/
def resolveFailedCreation (k : Token) (r : RunId) (f : AdmissionFailure) : Code Bool := do
  match ← (terminalizeUnresolvedAdmission r f).attempt with
  | .ok false => pure false
  | .ok true | .error _ => do
      if ← confirmTerminal k r then pure true else confirmAbsent k r

/-- The failure that `_release_reservation` records. -/
def unknownAdmissionFailure (r : RunId) : AdmissionFailure where
  code := "execution_enqueue_persistence_unresolved"
  message := "Build Run admission failed before durable ownership could be confirmed"
  runId := r
  exceptionType := some "UnknownAdmissionFailure"

/-- `_release_reservation` -/
def release (k : Token) : Code Unit := do
  match ← step fun _ s => s.releaseReservation k with
  | none => pure ()
  | some r => do
      if ← confirmTerminal k r then pure ()
      else Prog.act fun _ s => s.transferUnresolved k r (unknownAdmissionFailure r)

/-- `_AdmissionReservation.submit` -/
def reservationSubmit (k : Token) (r : RunId) : Code Unit := do
  Prog.act fun _ s => s.trackReservation k r
  Prog.act fun _ s => s.submitReserved k r
  let _ ← persistAndEnqueue r (some k)
  pure ()

/-- What a client does with its reservation. -/
inductive ReservationCall where
  | track (r : RunId)
  | submit (r : RunId)
  | confirmTerminal (r : RunId)
  | confirmAbsent (r : RunId)
  | resolveFailedCreation (r : RunId) (f : AdmissionFailure)
  | transferUnresolved (r : RunId) (f : AdmissionFailure)

/-- A client reports a failed creation only when it has attempted the creation. -/
def creationAttempted (r : RunId) (f : AdmissionFailure) : Code Unit :=
  .actWhen (fun _ s => !f.inCreation || s.store r ≠ .absent) fun _ s => (.ok (), s)

/-- One call of a client inside `with reserve()`. -/
def reservationCall (k : Token) : ReservationCall → Code Unit
  | .track r => Prog.act fun _ s => s.trackReservation k r
  | .submit r => reservationSubmit k r
  | .confirmTerminal r => do
      let _ ← confirmTerminal k r
      pure ()
  | .confirmAbsent r => do
      let _ ← confirmAbsent k r
      pure ()
  | .resolveFailedCreation r f => do
      creationAttempted r f
      let _ ← resolveFailedCreation k r f
      pure ()
  | .transferUnresolved r f => do
      creationAttempted r f
      Prog.act fun _ s => s.transferUnresolved k r f

/-- The body of a client's `with` block: it goes on after an exception, or has no
further calls. -/
def reservationCalls (k : Token) : List ReservationCall → Code Unit
  | [] => pure ()
  | call :: calls => do
      let _ ← (reservationCall k call).attempt
      reservationCalls k calls

/-- `with reserve() as reservation: …` -/
def withReserve (calls : List ReservationCall) : Code Unit := do
  let k ← Prog.act fun _ s => s.reserve
  reservationCalls k calls
  release k

/-! ## Cancellation -/

/-- `load` -/
def load (r : RunId) : Code (Option Run) := .look fun c s => s.store.load r c.read

/-- The reply for an active Run, unless its cancellation has already been committed. -/
def activeReply (r : RunId) (reply : CancelReply) : Option Run → CancelReply
  | some run => if run.status = .cancelled then .alreadyCancelled r run.cancellation else reply
  | none => reply

/-- `cancel` -/
def cancel (r : RunId) : Code CancelReply := do
  match ← Prog.act fun c s => s.cancelOwned c r with
  | .done reply => pure reply
  | .active reply true => pure reply
  | .active reply false => do
      let run ← load r
      pure (activeReply r reply run)
  | .unowned => do
      let run ← load r
      Prog.act fun c s => s.cancelUnowned c r run

/-! ## Stop and shutdown -/

/-- The deadline of a call is up. -/
def expired (deadline : Bool) (c : Choice) : Bool := deadline && c.expired

/-- `worker.join(remaining)`, and whether the worker has stopped. -/
def join (deadline : Bool) : Code Bool :=
  .actWhen (fun c s => !s.worker.isAlive || expired deadline c) fun _ s =>
    (.ok !s.worker.isAlive, s)

/-- `stop` -/
def stop (deadline : Bool) : Code Unit := do
  let started ← step fun _ s => (decide (s.worker ≠ .absent), s.stop)
  if started then
    let stopped ← join deadline
    if stopped then pure ()
    else .throw (.timeout "Execution manager worker did not stop before the timeout")
  else pure ()

/-- `begin_shutdown` -/
def beginShutdown : Code Unit := change fun c s => s.beginShutdown c false

/-- What the drain does for one task. -/
def performTask : Task → Code Bool
  | .queued r => do
      let _ ← onStore fun c s => persistQueuedCancellation c serverShutdown r s
      pure true
  | .admission r f => terminalizeUnresolvedAdmission r f
  | .active r e => finalizeWorkerError r e

/-- One task of the drain, with its record. -/
def runTask (t : Task) : Code Unit := do
  let result ← (performTask t).attempt
  change fun _ s => s.recordShutdownTask t.kind t.run result

/-- One pass of the drain: every task that has not been attempted.  It ends with what
is to be done when no such task is left. -/
def drainPass (deadline : Bool) (kinds : List Kind) :
    Nat → List (Kind × RunId) → Code (List (Kind × RunId) × DrainStep)
  | 0, _ => .halt (.runtime "drain")
  | n + 1, attempted => do
      match ← step fun c s => (s.drainStep c deadline attempted kinds, s) with
      | .task t => do
          runTask t
          drainPass deadline kinds n ((t.kind, t.run) :: attempted)
      | next => pure (attempted, next)

/-- `_drain_shutdown_persistence` -/
def drain (deadline : Bool) (kinds : List Kind) : Nat → List (Kind × RunId) → Code Unit
  | 0, _ => .halt (.runtime "drain")
  | n + 1, attempted => do
      match ← drainPass deadline kinds n attempted with
      | (attempted, .wait) => drain deadline kinds n attempted
      | (_, .again) => drain deadline kinds n []
      | (_, .stop) | (_, .task _) => pure ()

/-- All kinds of tasks. -/
def allKinds : List Kind := [.queued, .admission, .active]

/-- The drain of worker failures, once the worker has stopped. -/
def drainStopped (joined deadline : Bool) (n : Nat) : Code Unit :=
  if joined then drain deadline [.active] n [] else pure ()

/-- The part of `shutdown` that holds the shutdown lock. -/
def shutdownLocked (deadline : Bool) (n : Nat) : Code ShutdownResult := do
  change fun c s => s.beginShutdown c true
  drain deadline allKinds n []
  let joined ← join deadline
  drainStopped joined deadline n
  let timedOut ← step fun c s => (expired deadline c, s)
  step fun _ s => (s.shutdownResult joined timedOut, s)

/-- `shutdown` -/
def shutdown (deadline : Bool) (n : Nat) : Code ShutdownResult := do
  let acquired ← Prog.actWhen (fun c s => !s.shutdownLock || expired deadline c) fun _ s =>
    if s.shutdownLock then (.ok false, s) else (.ok true, { s with shutdownLock := true })
  if acquired then
    (shutdownLocked deadline n).ensuring (change fun _ s => { s with shutdownLock := false })
  else do
    let joined ← step fun _ s => (!s.worker.isAlive, s)
    step fun _ s => (s.shutdownResult joined true, s)

/-! ## The worker -/

/-- The executor's work on Run `r`. -/
def execute (r : RunId) : Nat → Code Unit
  | 0 => .halt (.runtime "execute")
  | n + 1 => do
      if ← Prog.act fun c s => s.executeStep c r then execute r n else pure ()

/-- The failure that the end of the executor leaves, if it leaves one. -/
def executionFailure (r : RunId) : Except Exc Unit → Code (Option RunError)
  | .error e => pure (some (workerFailure e))
  | .ok () => do
      if ← durablyTerminal r then pure none
      else pure (some (workerFailure (.runtime
        "execution callback returned without durable terminal state")))

/-- The exception that ends the worker: one that `except Exception` does not catch. -/
def fatalOf {α : Type} : Except Exc α → Option Exc
  | .error e => if e.isException then none else some e
  | .ok _ => none

/-- The part of the worker's loop that finalizes a failure. -/
def finalizeExecution (r : RunId) (failure : Option RunError) (fatal : Option Exc) :
    Code (Option Exc) :=
  match failure with
  | none => pure fatal
  | some f => do
      let finalized ← (finalizeWorkerError r f).attempt
      pure (fatal <|> fatalOf finalized)

/-- What the worker does with the Run that it has dequeued; true when it goes on. -/
def workRun (r : RunId) (n : Nat) : Code Bool := do
  let ended ← (execute r n).attempt
  let failure ← executionFailure r ended
  let fatal ← finalizeExecution r failure (fatalOf ended)
  let resolved ← durablyTerminal r
  let ownershipFailure := failure.getD
    (workerFailure (.runtime "active Run durable state could not be proven terminal"))
  change fun _ s => s.retire r resolved ownershipFailure fatal
  match fatal with
  | some e => .throw e
  | none => pure resolved

/-- The loop of `_worker_main`. -/
def workerLoop : Nat → Code Unit
  | 0 => .halt (.runtime "worker")
  | n + 1 => do
      match ← Prog.actWhen (fun _ s => s.workerReady) fun _ s =>
        ((.ok s.workerNext.1), s.workerNext.2) with
      | .stop => pure ()
      | .again => workerLoop n
      | .run r => do
          if ← workRun r n then workerLoop n else pure ()

/-- The worker thread: it waits for `start`, and ends as `_worker_main` does. -/
def workerMain (n : Nat) : Code Unit := do
  Prog.actWhen (fun _ s => s.worker = .starting) fun _ s => (.ok (), { s with worker := .alive })
  (workerLoop n).ensuring (change fun _ s => { s with worker := .stopped })

/-! ## The environment -/

/-- The creation of a Run.  An id whose creation has failed is not used again. -/
def create (r : RunId) (mode : RunMode) : Code Unit :=
  .actWhen (fun _ s => s.store r ≠ .gone) fun c s => s.create c r mode

/-- `_mark_enqueue_failed`, for a submission that raised `e`. -/
def enqueueFailed (r : RunId) (e : Exc) : Code Unit := do
  match ← onStore fun c s => markEnqueueFailed c r e s with
  | .answer _ => pure ()
  | .saved => do
      match ← appendLogLine.attempt with
      | .ok () => pure ()
      | .error e => if e.isOSError then pure () else .throw e

/-- The calls that threads may start. -/
inductive Call where
  | start (blocker : Option AdmissionBlocker)
  | worker (n : Nat)
  | submit (r : RunId)
  | withReserve (calls : List ReservationCall)
  | cancel (r : RunId)
  | stop (deadline : Bool)
  | beginShutdown
  | shutdown (deadline : Bool) (n : Nat)
  | create (r : RunId) (mode : RunMode)
  | enqueueFailed (r : RunId) (e : Exc)

/-- The code of a call. -/
def Call.code : Call → Code Reply
  | start blocker => do
      Prog.act fun _ s => s.start blocker
      pure .unit
  | worker n => do
      workerMain n
      pure .unit
  | submit r => do
      let run ← Execution.submit r
      pure (.run run)
  | withReserve calls => do
      Execution.withReserve calls
      pure .unit
  | cancel r => do
      let reply ← Execution.cancel r
      pure (.cancel reply)
  | stop deadline => do
      Execution.stop deadline
      pure .unit
  | beginShutdown => do
      Execution.beginShutdown
      pure .unit
  | shutdown deadline n => do
      let result ← Execution.shutdown deadline n
      pure (.shutdown result)
  | create r mode => do
      Execution.create r mode
      pure .unit
  | enqueueFailed r e => do
      Execution.enqueueFailed r e
      pure .unit

/-- The execution manager as a system of threads; it is never restarted. -/
def manager : System Call World Choice Exc Reply where
  code := Call.code
  restart _ := none

/-- A new manager over a store. -/
def newManager (store : Store) (queueCapacity : Nat) : World :=
  { store, queueCapacity }

end Execution
end DebBuilder
