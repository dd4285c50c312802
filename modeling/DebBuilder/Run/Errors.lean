import Mathlib
import DebBuilder.Run.Model

/-!
# Exceptions

The exceptions that the modelled code raises or tells apart.  An exception of code
outside the model is known by its type name and by the handlers that catch it.

## Main definitions

* `ManagerError` — `ExecutionManagerError`, with its codes, messages and details.
* `Exc` — an exception; `Exc.isException` is what `except Exception` catches.
-/

namespace DebBuilder

/-- The blocker that startup recovery leaves: what `_require_accepting` reports. -/
structure AdmissionBlocker where
  code : String
  message : String
  details : List (String × String)
  deriving DecidableEq, Repr

/-- `ExecutionManagerError`, one constructor for each place that raises it. -/
inductive ManagerError where
  | stopped
  | notAccepting
  | blocked (blocker : AdmissionBlocker)
  | queueFull (queued reserved submitting capacity : Nat)
  | reservationInactive
  | reservationNotOwner (run : RunId)
  | reservationOwnsAnother (run owned : RunId)
  | alreadySubmitted (run : RunId)
  | notFound (run : RunId)
  | notPending (run : RunId) (actual : RunStatus)
  | notQueued (run : RunId) (actual : RunStatus)
  deriving DecidableEq, Repr

namespace ManagerError

def code : ManagerError → String
  | stopped => "execution_manager_stopped"
  | notAccepting => "execution_manager_not_accepting"
  | blocked b => if b.code = "" then "execution_recovery_blocked" else b.code
  | queueFull .. => "execution_queue_full"
  | reservationInactive => "execution_reservation_inactive"
  | reservationNotOwner _ | reservationOwnsAnother .. => "execution_reservation_run_mismatch"
  | alreadySubmitted _ => "build_run_already_submitted"
  | notFound _ => "build_run_not_found"
  | notPending .. => "build_run_not_pending"
  | notQueued .. => "build_run_not_queued"

def message : ManagerError → String
  | stopped => "Execution manager cannot be restarted"
  | notAccepting => "Execution manager is not accepting Runs"
  | blocked b =>
      if b.message = "" then "Execution admission is blocked by startup recovery" else b.message
  | queueFull .. => "Execution queue is full"
  | reservationInactive => "Execution queue reservation is no longer active"
  | reservationNotOwner _ => "Execution queue reservation does not own this Build Run"
  | reservationOwnsAnother .. => "Execution queue reservation already owns another Build Run"
  | alreadySubmitted _ => "Build Run is already queued or running"
  | notFound _ => "Build Run was not found"
  | notPending _ actual => "Build Run cannot be queued from status " ++ actual.text
  | notQueued _ actual => "Build Run cannot be cancelled from status " ++ actual.text

def details : ManagerError → List (String × String)
  | stopped | notAccepting | reservationInactive => []
  | blocked b => b.details
  | queueFull queued reserved submitting capacity =>
      [("queued", toString queued), ("reserved", toString reserved),
        ("submitting", toString submitting), ("capacity", toString capacity)]
  | reservationNotOwner run | alreadySubmitted run | notFound run => [("run_id", run)]
  | reservationOwnsAnother run owned => [("run_id", run), ("owned_run_id", owned)]
  | notPending run actual | notQueued run actual => [("run_id", run), ("status", actual.text)]

end ManagerError

/-- An exception. -/
inductive Exc where
  | manager (e : ManagerError)
  /-- `RunStatusTransitionError` -/
  | transition (actual : RunStatus)
  | fileNotFound
  | fileExists
  | runtime (message : String)
  | timeout (message : String)
  /-- raised by code outside the model -/
  | other (typeName : String) (isException isOSError : Bool)
  deriving DecidableEq, Repr

namespace Exc

/-- `type(exc).__name__` -/
def typeName : Exc → String
  | manager _ => "ExecutionManagerError"
  | transition _ => "RunStatusTransitionError"
  | fileNotFound => "FileNotFoundError"
  | fileExists => "FileExistsError"
  | runtime _ => "RuntimeError"
  | timeout _ => "TimeoutError"
  | other n .. => n

/-- `isinstance(exc, Exception)`: false of the exceptions that end a thread. -/
def isException : Exc → Bool
  | other _ b _ => b
  | _ => true

/-- `isinstance(exc, OSError)` -/
def isOSError : Exc → Bool
  | fileNotFound | fileExists | timeout _ => true
  | other _ b o => b && o
  | _ => false

end Exc
end DebBuilder
