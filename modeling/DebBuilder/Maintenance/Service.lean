import Mathlib
import DebBuilder.Lib.Machine

/-!
# The maintenance worker

One thread cleans the workspaces and refreshes the storage inventory.  Any thread may ask it to,
at any moment; what is asked for during a pass is kept for one follow-up.  A block that holds the
condition is one step, as are the start of a cleanup and the two ends of a collection, and the
steps of all threads interleave.

## Main definitions

* `State.request` — what a request leaves behind.
* `State.wake`, `State.finish` — the two blocks of the worker that hold the condition.
* `service` — the runs, with a history of what has happened.
-/

namespace DebBuilder.Maintenance
open Lib

/-- `MAINTENANCE_INTERVAL_SECONDS` -/
def maintenanceIntervalSeconds : ℚ := 300

/-- What a pass was taken for. -/
structure Work where
  refresh : Bool
  cleanup : Bool
deriving DecidableEq

/-- Where the worker is. -/
inductive Worker where
  | new
  | waiting
  /-- A pass begins; its cleanup comes first. -/
  | cleaning (work : Work)
  | checking (work : Work)
  /-- `collect` has been called and has not read the revision. -/
  | starting (work : Work)
  | collecting (work : Work) (revision : Nat)
  | finishing (work : Work)
  | ended
deriving DecidableEq

/-- The service, and the two revisions of its inventory. -/
structure State where
  refreshRequested : Bool := true
  cleanupRequested : Bool := false
  stopRequested : Bool := false
  passActive : Bool := false
  acceptFollowup : Bool := false
  revision : Nat := 0
  completedRevision : Nat := 0
  nextPeriodic : ℚ := 0
  worker : Worker := .new

/-- What has happened. -/
inductive Event where
  /-- A request; it is `kept` unless the follow-up of a pass is under way. -/
  | asked (work : Work) (kept : Bool)
  /-- A pass begins that is not a follow-up. -/
  | woke
  | cleaned
  | collected
  /-- The next date was set at the time. -/
  | rested (now : ℚ)
  | stopped
deriving DecidableEq

/-! ## The blocks that hold the condition -/

namespace State

/-- `needs_refresh` of the inventory. -/
def needsRefresh (s : State) : Bool := s.revision != s.completedRevision

/-- The request comes in time for the next pass. -/
def keeps (s : State) : Bool := !(s.passActive && !s.acceptFollowup)

def request (s : State) (work : Work) : State :=
  if s.stopRequested then s
  else
    let invalidated := if work.refresh || work.cleanup then { s with revision := s.revision + 1 } else s
    if s.keeps then
      { invalidated with
        refreshRequested := s.refreshRequested || work.refresh
        cleanupRequested := s.cleanupRequested || work.cleanup }
    else invalidated

/-- Nobody has asked for anything. -/
def quiet (s : State) : Bool := !(s.refreshRequested || s.cleanupRequested || s.stopRequested)

/-- The wait is over because of its date. -/
def due (s : State) (now : ℚ) : Bool := s.quiet && decide (s.nextPeriodic ≤ now)

def wake (s : State) (now : ℚ) : State :=
  if s.stopRequested then { s with refreshRequested := false, cleanupRequested := false, worker := .ended }
  else if s.due now then
    { s with passActive := true, acceptFollowup := true, worker := .cleaning ⟨true, true⟩ }
  else if s.quiet then s
  else
    { s with
      refreshRequested := false
      cleanupRequested := false
      passActive := true
      acceptFollowup := true
      worker := .cleaning ⟨s.refreshRequested, s.cleanupRequested⟩ }

def finish (interval : ℚ) (s : State) (work : Work) (now : ℚ) : State :=
  let s := if work.cleanup then { s with nextPeriodic := now + interval } else s
  if s.stopRequested then
    { s with
      refreshRequested := false
      cleanupRequested := false
      passActive := false
      acceptFollowup := false
      worker := .ended }
  else if s.acceptFollowup && (s.refreshRequested || s.cleanupRequested) then
    { s with
      refreshRequested := false
      cleanupRequested := false
      acceptFollowup := false
      worker := .cleaning ⟨s.refreshRequested, s.cleanupRequested⟩ }
  else if s.needsRefresh then { s with acceptFollowup := false, worker := .cleaning ⟨true, false⟩ }
  else
    { s with
      refreshRequested := false
      cleanupRequested := false
      passActive := false
      acceptFollowup := false
      worker := .waiting }

def stop (s : State) : State :=
  { s with stopRequested := true, refreshRequested := false, cleanupRequested := false }

/-- The end of `collect`, which succeeds or fails. -/
def complete (s : State) (work : Work) (revision : Nat) : State :=
  { s with
    completedRevision := if revision = s.revision then revision else s.completedRevision
    worker := .finishing work }

end State

/-! ## The machine -/

/-- A step of a thread; the worker's own carry the time that it reads. -/
inductive Action where
  | request (work : Work)
  | stop
  | start (now : ℚ)
  | wake (now : ℚ)
  | clean
  | check
  | collect
  | collected
  | finish (now : ℚ)

/-- The step is one of the worker. -/
def Action.own : Action → Bool
  | .request _ => false
  | .stop => false
  | _ => true

/-- A step of the worker, at the place where it is. -/
def work (interval : ℚ) (s : State) : Worker → Action → Option State
  | .new, .start now => some { s with nextPeriodic := now + interval, worker := .waiting }
  | .waiting, .wake now => some (s.wake now)
  | .cleaning work, .clean => some { s with worker := .checking work }
  | .checking work, .check =>
      some { s with worker := if !s.stopRequested && (work.refresh || work.cleanup) then .starting work else .finishing work }
  | .starting work, .collect => some { s with worker := .collecting work s.revision }
  | .collecting work revision, .collected => some (s.complete work revision)
  | .finishing work, .finish now => some (s.finish interval work now)
  | _, _ => none

def act (interval : ℚ) (s : State) : Action → Option State
  | .request work => some (s.request work)
  | .stop => some s.stop
  | a => work interval s s.worker a

def service (interval : ℚ) : Machine State Action := ⟨{}, act interval⟩

/-- What a step adds to the history. -/
def eventOf (s : State) : Action → Option Event
  | .request work => if s.stopRequested || !(work.refresh || work.cleanup) then none else some (.asked work s.keeps)
  | .stop => if s.stopRequested then none else some .stopped
  | .start now => some (.rested now)
  | .wake now => if s.stopRequested || (s.quiet && !s.due now) then none else some .woke
  | .clean => match s.worker with
      | .cleaning work => if work.cleanup then some .cleaned else none
      | _ => none
  | .check => none
  | .collect => some .collected
  | .collected => none
  | .finish now => match s.worker with
      | .finishing work => if work.cleanup then some (.rested now) else none
      | _ => none

/-- A state and the history that led to it, the last event first. -/
abbrev Point := State × List Event

def recorded (interval : ℚ) : Machine Point Action :=
  (service interval).recording [] fun s a history => (eventOf s a).toList ++ history

/-- The states of the runs, with their histories. -/
def Reachable (interval : ℚ) (p : Point) : Prop := (recorded interval).Reach (fun _ _ => True) p

end DebBuilder.Maintenance
