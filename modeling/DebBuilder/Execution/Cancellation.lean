import Mathlib
import DebBuilder.Run.Model

/-!
# Cancellation controls

`CancellationControl` settles cancellation against terminalization for one execution.
Its methods hold the lock of the control, so each is one transition of its state.

## Main definitions

* `Control` — the state of a control.
* `Control.requestCancel`, `Control.claimTerminal` — its transitions.
-/

namespace DebBuilder

/-- `CANCELLATION_CODE` -/
def cancellationCode : String := "execution_cancelled"

/-- `USER_REQUESTED` -/
def userRequested : String := "user_requested"

/-- `SERVER_SHUTDOWN` -/
def serverShutdown : String := "server_shutdown"

/-- Who owns the end of an execution. -/
inductive Owner where
  | opened
  | cancellationOwned
  | terminalOwned
  deriving DecidableEq, Repr

/-- The request that won the cancellation. -/
structure CancelRequest where
  code : String
  reason : String
  requestedAt : Time
  deriving DecidableEq, Repr

/-- The state of a `CancellationControl`. -/
structure Control where
  owner : Owner := .opened
  request : Option CancelRequest := none
  event : Bool := false
  deriving DecidableEq, Repr

/-- What `request_cancel` answers. -/
structure CancelAnswer where
  accepted : Bool
  firstRequest : Bool
  owner : Owner
  cancellation : Option CancelRequest
  deriving DecidableEq, Repr

namespace Control

/-- `request_cancel` -/
def requestCancel (k : Control) (reason : String) (now : Time) : CancelAnswer × Control :=
  match k.owner with
  | .terminalOwned =>
      ({ accepted := false, firstRequest := false, owner := .terminalOwned, cancellation := none }, k)
  | .cancellationOwned =>
      ({ accepted := true, firstRequest := false, owner := .cancellationOwned
         cancellation := k.request }, k)
  | .opened =>
      let request := some { code := cancellationCode, reason, requestedAt := now }
      ({ accepted := true, firstRequest := true, owner := .cancellationOwned
         cancellation := request },
        { owner := .cancellationOwned, request, event := true })

/-- `claim_terminal` -/
def claimTerminal (k : Control) : Bool × Control :=
  match k.owner with
  | .opened => (true, { k with owner := .terminalOwned })
  | .cancellationOwned | .terminalOwned => (false, k)

variable (k : Control)

/-- A request is refused exactly when terminalization has won. -/
theorem accepted_iff (reason : String) (now : Time) :
    (k.requestCancel reason now).1.accepted = true ↔ k.owner ≠ .terminalOwned := by
  cases h : k.owner <;> simp [requestCancel, h]

/-- After an accepted request the cancellation owns the end. -/
theorem requestCancel_owner (reason : String) (now : Time) :
    (k.requestCancel reason now).2.owner =
      if k.owner = .terminalOwned then .terminalOwned else .cancellationOwned := by
  cases h : k.owner <;> simp [requestCancel, h]

/-- A claim wins exactly when nobody was first. -/
theorem claimTerminal_iff : k.claimTerminal.1 = true ↔ k.owner = .opened := by
  cases h : k.owner <;> simp [claimTerminal, h]

theorem claimTerminal_owner :
    k.claimTerminal.2.owner = if k.owner = .opened then .terminalOwned else k.owner := by
  cases h : k.owner <;> simp [claimTerminal, h]

end Control
end DebBuilder
