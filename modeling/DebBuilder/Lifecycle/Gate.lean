import Mathlib
import DebBuilder.Lib.History
import DebBuilder.Lib.Machine
import DebBuilder.Lifecycle.Routes

/-!
# The gate of durable mutations

A request that changes durable data runs under a lease of the gate, and so do the jobs of the
application.  At its shutdown the application closes the gate and waits until no lease is left.  A
block that holds the condition is one step, and the steps of all threads interleave.

## Main definitions

* `State.lease`, `State.release`, `State.beginShutdown`, `State.test` — the blocks of the gate.
* `State.request` — the lease of a request, by the route that it matches.
* `gate` — the runs, with a history of what has happened.
-/

namespace DebBuilder.Lifecycle
open Lib

/-- What `wait_for_quiescence` returns. -/
structure Report where
  status : String
  complete : Bool
  admissionClosed : Bool
  activeMutations : Int
  timedOut : Bool
deriving DecidableEq, Repr

/-- Where a thread is, of a request or a job. -/
inductive Place where
  | idle
  /-- The handler of a request runs. -/
  | handling (method : String) (route : Option Route) (leased : Bool)
  /-- A job runs, under a lease. -/
  | working
deriving DecidableEq

namespace Place

/-- The thread has a lease. -/
def leased : Place → Bool
  | .idle => false
  | .handling _ _ leased => leased
  | .working => true

/-- The thread changes durable data. -/
def durable : Place → Bool
  | .idle => false
  | .handling _ route _ => route.any (·.effect = .durableMutation)
  | .working => true

end Place

/-- Where the main thread of `serve_application` is. -/
inductive Main where
  | serving
  | closed
  /-- It has the condition and is about to read the count. -/
  | testing (deadline : Option ℚ)
  | asleep (deadline : Option ℚ)
  /-- The gate is left behind; the execution manager is shut down next. -/
  | drained (report : Report)
deriving DecidableEq

/-- `notify_all` -/
def Main.notify : Main → Main
  | .asleep deadline => .testing deadline
  | main => main

structure State where
  accepting : Bool := true
  active : Int := 0
  threads : List Place := []
  main : Main := .serving
deriving DecidableEq

/-- What has happened. -/
inductive Event where
  | admitted (thread : Nat)
  | refused (thread : Nat)
  | released (thread : Nat)
  | closed
  | reported (report : Report)
deriving DecidableEq

/-! ## The blocks that hold the condition -/

namespace State

def lease (s : State) (thread : Nat) (place : Place) : State :=
  if s.accepting then { s with active := s.active + 1, threads := s.threads.set thread place } else s

def release (s : State) (thread : Nat) : State :=
  { s with active := s.active - 1, threads := s.threads.set thread .idle, main := s.main.notify }

def beginShutdown (s : State) : State := { s with accepting := false, main := s.main.notify }

def report (s : State) (deadline : Option ℚ) : Report :=
  let complete := s.active == 0
  ⟨if complete then "complete" else "incomplete", complete, !s.accepting, s.active, !complete && deadline.isSome⟩

/-- One turn of the loop of `wait_for_quiescence`; an incomplete wait is followed by one without a deadline. -/
def test (s : State) (deadline : Option ℚ) (now : ℚ) : State :=
  if s.active ≠ 0 ∧ ¬ deadline.any (· ≤ now) then { s with main := .asleep deadline }
  else
    { s with
      main :=
        match deadline with
        | some _ => if (s.report deadline).complete then .drained (s.report deadline) else .testing none
        | none => .drained (s.report none) }

end State

/-! ## Requests -/

/-- The request runs under a lease: never that of a `do_GET`. -/
def takesLease (method : String) (route : Option Route) : Bool :=
  method != "GET" && route.any (·.effect = .durableMutation)

/-- The route of a request. -/
def routeOf (routes : List Route) (method path : String) : Option Route := (matchRoute method path routes).map (·.1)

/-- `do_GET`, `do_POST` and `do_DELETE` up to the handler; a refused request is answered at once. -/
def State.request (routes : List Route) (s : State) (thread : Nat) (method path : String) : State :=
  let route := routeOf routes method path
  if takesLease method route then s.lease thread (.handling method route true)
  else { s with threads := s.threads.set thread (.handling method route false) }

/-- The end of a handler or a job, also by an exception. -/
def State.leave (s : State) (thread : Nat) (place : Place) : State :=
  if place.leased then s.release thread else { s with threads := s.threads.set thread .idle }

/-! ## The machine -/

/-- A step of a thread; those of a wait carry the time that it reads. -/
inductive Action where
  | spawn
  | request (thread : Nat) (method path : String)
  | lease (thread : Nat)
  | leave (thread : Nat)
  /-- `begin_shutdown` of the coordinator of the signals. -/
  | signal
  /-- `begin_shutdown` of the main thread. -/
  | stop
  | wait (timeout now : ℚ)
  /-- The sleep ends: by its date or by chance. -/
  | wake
  | test (now : ℚ)

def actMain (s : State) : Main → Action → Option State
  | .serving, .stop => some { s.beginShutdown with main := .closed }
  | .closed, .wait timeout now => if 0 ≤ timeout then some { s with main := .testing (some (now + timeout)) } else none
  | .asleep deadline, .wake => some { s with main := .testing deadline }
  | .testing deadline, .test now => some (s.test deadline now)
  | _, _ => none

def act (routes : List Route) (s : State) : Action → Option State
  | .spawn => some { s with threads := s.threads ++ [.idle] }
  | .request thread method path => if s.threads[thread]? = some .idle then some (s.request routes thread method path) else none
  | .lease thread => if s.threads[thread]? = some .idle then some (s.lease thread .working) else none
  | .leave thread =>
      match s.threads[thread]? with
      | some place => if place = .idle then none else some (s.leave thread place)
      | none => none
  | .signal => some s.beginShutdown
  | a => actMain s s.main a

/-- What a step adds to the history. -/
def eventOf (routes : List Route) (s : State) : Action → Option Event
  | .request thread method path =>
      if takesLease method (routeOf routes method path) then some (if s.accepting then .admitted thread else .refused thread)
      else none
  | .lease thread => some (if s.accepting then .admitted thread else .refused thread)
  | .leave thread => if (s.threads[thread]?).any Place.leased then some (.released thread) else none
  | .signal => some .closed
  | .stop => some .closed
  | .test now => match s.main with
      | .testing deadline => if s.active ≠ 0 ∧ ¬ deadline.any (· ≤ now) then none else some (.reported (s.report deadline))
      | _ => none
  | _ => none

def gate (routes : List Route) : Machine State Action := ⟨{}, act routes⟩

/-- A state and the history that led to it, the last event first. -/
abbrev Point := State × List Event

def recorded (routes : List Route) : Machine Point Action :=
  (gate routes).recording [] fun s a history => (eventOf routes s a).toList ++ history

/-- The states of the runs, with their histories. -/
def Reachable (routes : List Route) (p : Point) : Prop := (recorded routes).Reach (fun _ _ => True) p

end DebBuilder.Lifecycle
