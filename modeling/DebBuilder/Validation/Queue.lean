import Mathlib
import DebBuilder.Lib.Machine
import DebBuilder.Validation.Contracts

/-!
# The queue of Validations

One worker executes the queued attempts in order.  Any thread may admit an attempt, cancel one, or
shut the manager down; a cleanup that could not be proved blocks it.  A block that holds the
condition is one step, as is a write of the status of an attempt, and the steps of all threads
interleave.

Who removes an attempt from the queue has its cancellation to write afterwards, one attempt after
another; that write may fail.

## Main definitions

* `Boot` — what is found at the start.
* `State`, `act` — the shared state, and the steps.
* `manager` — the runs, with a history of what has happened.
-/

namespace DebBuilder.Validation.Queue
open Function Lib

variable {ι : Type} [DecidableEq ι]

/-- The attempts that are stored, and those among them that were listed as queued. -/
structure Boot (ι : Type) where
  stored : ι → Option Status
  listed : List ι
  blocked : Bool
  nodup : listed.Nodup
  queued : ∀ id ∈ listed, stored id = some .queued
  closed : blocked = true → listed = []

/-- Where the worker is. -/
inductive Worker where
  | idle
  | executing
  /-- The attempt has been executed; nothing is known of its containers yet. -/
  | executed
  | releasing
  | ended
deriving DecidableEq

/-- The threads that write cancellations. -/
inductive Thread where
  | worker
  | other (n : Nat)
deriving DecidableEq

/-- The manager and the stored statuses.  Of the admissions under way, `reserved` have stored
nothing yet and `written` have stored their attempt; `left` are the cancellations that a thread has
still to write. -/
structure State (ι : Type) where
  queue : List ι
  reservations : Nat
  active : Option ι
  signalled : Bool
  accepting : Bool
  stopping : Bool
  blocker : Bool
  worker : Worker
  durable : ι → Option Status
  reserved : Nat
  written : List ι
  left : Thread → List ι

def State.start (boot : Boot ι) : State ι where
  queue := boot.listed
  reservations := 0
  active := none
  signalled := false
  accepting := !boot.blocked
  stopping := false
  blocker := boot.blocked
  worker := .idle
  durable := boot.stored
  reserved := 0
  written := []
  left := fun _ => []

/-- What `_cancel_durable` stores. -/
def cancelled : Status → Status
  | .queued => .cancelled
  | .running => .cancelling
  | status => status

/-- A write of a status, which may be lost. -/
def State.store (s : State ι) (id : ι) (status : Status) (written : Bool) : State ι :=
  if written then { s with durable := update s.durable id (some status) } else s

/-! ## The steps -/

inductive Action (ι : Type) where
  /-- An admission passes its checks and reserves a place. -/
  | reserve
  /-- It fails before its attempt is stored. -/
  | abandon
  | write (id : ι)
  /-- It puts its attempt into the queue, or finds that the manager is closed. -/
  | enqueue (n : Nat) (id : ι)
  | cancel (n : Nat) (id : ι)
  | shutdown (n : Nat)
  /-- `_cancel_durable` of the next attempt of a thread. -/
  | settle (t : Thread) (written : Bool)
  | take
  /-- The executor moves the active attempt on. -/
  | progress (status : Status)
  /-- The executor returns, or raises and the attempt is to be stored as failed. -/
  | leave (failed : Option Bool)
  /-- The worker reads whether containers are left. -/
  | inspect (unresolved : Bool)
  | release

/-- All attempts of the queue are to be cancelled by the thread. -/
def State.drain (s : State ι) (t : Thread) (more : List ι) : State ι :=
  { s with accepting := false, queue := [], left := update s.left t (s.queue ++ more) }

def act (capacity : Nat) (s : State ι) : Action ι → Option (State ι)
  | .reserve =>
      if s.accepting = true ∧ s.queue.length + s.reservations < capacity then
        some { s with reservations := s.reservations + 1, reserved := s.reserved + 1 }
      else none
  | .abandon =>
      if 0 < s.reserved then some { s with reservations := s.reservations - 1, reserved := s.reserved - 1 } else none
  | .write id =>
      if 0 < s.reserved ∧ s.durable id = none then
        some { s with
          reserved := s.reserved - 1
          written := id :: s.written
          durable := update s.durable id (some .queued) }
      else none
  | .enqueue n id =>
      if id ∈ s.written ∧ s.left (.other n) = [] then
        let s := { s with reservations := s.reservations - 1, written := s.written.erase id }
        if s.accepting then some { s with queue := s.queue ++ [id] }
        else some { s with left := update s.left (.other n) [id] }
      else none
  | .cancel n id =>
      if s.left (.other n) = [] ∧ s.durable id ≠ none then
        some { s with
          queue := s.queue.erase id
          signalled := s.signalled || decide (s.active = some id)
          left := update s.left (.other n) [id] }
      else none
  | .shutdown n =>
      if s.left (.other n) = [] then
        if s.stopping then some s
        else some { s.drain (.other n) s.active.toList with stopping := true, signalled := s.signalled || s.active.isSome }
      else none
  | .settle t written =>
      match s.left t with
      | [] => none
      | id :: ids =>
          let s := { s with left := update s.left t ids }
          match s.durable id with
          | none => some s
          | some status => some (s.store id (cancelled status) written)
  | .take =>
      match s.worker, s.queue with
      | .idle, [] => if s.stopping then some { s with worker := .ended } else none
      | .idle, id :: queue => some { s with queue, active := some id, signalled := false, worker := .executing }
      | _, _ => none
  | .progress status =>
      match s.worker, s.active with
      | .executing, some id =>
          if (s.durable id).any Status.active ∧ status ≠ .queued then some (s.store id status true) else none
      | _, _ => none
  | .leave failed =>
      match s.worker, s.active with
      | .executing, some id =>
          let s := { s with worker := .executed }
          match failed, s.durable id with
          | some written, some .queued => some (s.store id .failed written)
          | some written, some .running => some (s.store id .failed written)
          | _, _ => some s
      | _, _ => none
  | .inspect unresolved =>
      match s.worker with
      | .executed =>
          some (if unresolved then { s.drain .worker [] with worker := .releasing, blocker := true }
            else { s with worker := .releasing })
      | _ => none
  | .release =>
      match s.worker, s.left .worker with
      | .releasing, [] => some { s with active := none, worker := .idle }
      | _, _ => none

def manager (boot : Boot ι) (capacity : Nat) : Machine (State ι) (Action ι) := ⟨.start boot, act capacity⟩

/-! ## What has happened -/

/-- The attempts of this process, by what has happened to them. -/
structure History (ι : Type) where
  /-- Stored by this process, or listed at its start. -/
  known : List ι
  /-- Put into the queue. -/
  queued : List ι
  started : List ι := []
  /-- Removed from the queue to be cancelled. -/
  taken : List ι := []
  /-- A write of a cancellation was lost. -/
  lost : List ι := []
  /-- The worker released it with an active status. -/
  released : List ι := []

def History.start (boot : Boot ι) : History ι := ⟨boot.listed, boot.listed, [], [], [], []⟩

def History.next (s : State ι) (a : Action ι) (h : History ι) : History ι :=
  match a with
  | .write id => { h with known := id :: h.known }
  | .enqueue _ id => if s.accepting then { h with queued := h.queued ++ [id] } else h
  | .cancel _ id => if id ∈ s.queue then { h with taken := h.taken ++ [id] } else h
  | .shutdown _ => if s.stopping then h else { h with taken := h.taken ++ s.queue }
  | .settle t written => if written then h else { h with lost := h.lost ++ (s.left t).take 1 }
  | .take => { h with started := h.started ++ s.queue.take 1 }
  | .inspect unresolved => if unresolved then { h with taken := h.taken ++ s.queue } else h
  | .release => { h with released := h.released ++ (s.active.toList.filter fun id => (s.durable id).any Status.active) }
  | _ => h

def recorded (boot : Boot ι) (capacity : Nat) : Machine (State ι × History ι) (Action ι) :=
  (manager boot capacity).recording (.start boot) History.next

def Reachable (boot : Boot ι) (capacity : Nat) (p : State ι × History ι) : Prop :=
  (recorded boot capacity).Reach (fun _ _ => True) p

end DebBuilder.Validation.Queue
