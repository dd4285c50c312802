import Mathlib
import DebBuilder.Lib.Dict
import DebBuilder.Lib.Machine

/-!
# Observing the upstream of a Recipe

A call of `observe` either joins the flight of a call with the same Recipe and digest or becomes
the leader of a new one.  The leader resolves, takes the lock of the Recipe, compares its digest,
stores a row under a lease, and settles its flight; then it wakes those who joined and takes the
flight out.  Each of these is one step of a thread, and the steps of all threads interleave.

## Main definitions

* `successRow`, `failureRow` — the rows that are stored.
* `answerOf` — what a leader makes of its outcome and of the faults on the way.
* `act`, `machine` — the steps, and the runs with a history of what has happened.
-/

namespace DebBuilder.Observation
open Lib

/-- What is raised, by the handlers that catch it. -/
inductive Fault where
  /-- `RecipeStoreError` -/
  | recipeStore
  /-- `UpstreamObservationError` and other `RuntimeError`, with a code. -/
  | coded (code : String)
  /-- `OSError`, `TypeError`, `ValueError` -/
  | ordinary (name : String)
  /-- Another `Exception`. -/
  | foreign (name : String)
  /-- Another `BaseException`. -/
  | interruption (name : String)
deriving DecidableEq

def recipeChanged : Fault := .coded "recipe_changed_during_detection"

/-- `isinstance(exc, Exception)` -/
def Fault.isException : Fault → Bool
  | interruption _ => false
  | _ => true

/-- What the handler around `record_failure` swallows. -/
def Fault.swallowed : Fault → Bool
  | recipeStore => true
  | coded _ => true
  | ordinary _ => true
  | foreign _ => false
  | interruption _ => false

/-! ## Rows -/

structure Success where
  observedAt : String
  displayVersion : String
  displayRef : String
deriving DecidableEq

structure Attempt where
  attemptedAt : String
  status : String
  classification : String
  diagnosticCode : Option String
deriving DecidableEq

/-- The row of a Recipe. -/
structure Row where
  recipeSha256 : String
  lastSuccess : Option Success
  lastAttempt : Attempt
deriving DecidableEq

/-- What a resolver found, with the display fields as they are stored. -/
structure Found (ρ : Type) where
  displayVersion : String
  displayRef : String
  rest : ρ

/-- `SAFE_CLASSIFICATIONS` -/
def safeClassifications : List String :=
  ["detected", "no_change", "rate_limited", "upstream_unavailable", "source_not_found", "explicit_asset_not_found",
    "ambiguous_asset", "unsupported_source", "incomplete_identity", "invalid_configuration", "manual_action_required",
    "recipe_changed", "capacity_exhausted", "automation_blocked", "shutting_down"]

/-- `SAFE_DIAGNOSTICS` -/
def safeDiagnostics : List String :=
  ["github_rate_limited", "github_unavailable", "github_api_error", "repository_not_found", "release_not_found",
    "release_asset_not_found", "ambiguous_release_asset", "ambiguous_archive_source", "unsupported_artifact_tracking",
    "incomplete_upstream_identity", "invalid_upstream_identity", "invalid_release_version",
    "recipe_changed_during_detection", "invalid_automation_configuration", "manual_action_required",
    "automation_ledger_bounds_exceeded", "automation_ledger_malformed", "automation_ledger_future_version",
    "automation_ledger_unavailable", "application_shutting_down", "observation_failed"]

variable {ρ : Type}

def successOf (found : Found ρ) (now : String) : Success := ⟨now, found.displayVersion, found.displayRef⟩

/-- The row of `record_success`. -/
def successRow (digest : String) (found : Found ρ) (now : String) : Row :=
  ⟨digest, some (successOf found now), ⟨now, "success", "detected", none⟩⟩

/-- The row of `record_failure`: a success of the same digest is kept. -/
def failureRow (previous : Option Row) (digest now classification diagnostic : String) : Row where
  recipeSha256 := digest
  lastSuccess := previous.bind fun row => if row.recipeSha256 = digest then row.lastSuccess else none
  lastAttempt :=
    { attemptedAt := now
      status := "failed"
      classification := if classification ∈ safeClassifications then classification else "upstream_unavailable"
      diagnosticCode := some (if diagnostic ∈ safeDiagnostics then diagnostic else "observation_failed") }

/-! ## Flights and calls -/

/-- The result of a flight. -/
structure FlightResult (ρ : Type) where
  found : Found ρ
  recipeId : String
  recipeSha256 : String
  observation : Option Row
  persisted : Bool
  persistenceError : Option String

/-- What a call comes to; `empty` is the return of a flight that has neither result nor error. -/
inductive Answer (ρ : Type) where
  | returned (result : FlightResult ρ)
  | raised (fault : Fault)
  | empty

/-- `_Flight` -/
structure Flight (ρ : Type) where
  done : Bool := false
  result : Option (FlightResult ρ) := none
  error : Option Fault := none

/-- What is read from a flight. -/
def Flight.answer (flight : Flight ρ) : Answer ρ :=
  match flight.error, flight.result with
  | some fault, _ => .raised fault
  | none, some result => .returned result
  | none, none => .empty

inductive Role where
  | leader
  | joined (flight : Nat)
  | refused
deriving DecidableEq

/-- Where a call is. A flight has the number of its leader. -/
inductive Phase (ρ : Type) where
  | resolving
  | locking (outcome : Except Fault (Found ρ))
  /-- The lock of the Recipe is held, and its digest is the one that was resolved. -/
  | holding (outcome : Except Fault (Found ρ))
  | recorded (outcome : Except Fault (Found ρ)) (stored : Except Fault Row)
  | ending (answer : Answer ρ)
  | signalled (answer : Answer ρ)
  | waiting
  | finished (answer : Answer ρ)

structure Call (ρ : Type) where
  role : Role
  recipeId : String
  digest : String
  phase : Phase ρ

def Call.key (call : Call ρ) : String × String := (call.recipeId, call.digest)

/-- The shared objects. `live` are the digests of the Recipes on disk, `leases` the calls that hold
their locks. -/
structure State (ρ : Type) where
  inFlight : Dict (String × String) Nat
  flights : Nat → Flight ρ
  calls : Nat → Option (Call ρ)
  live : String → Option String
  leases : String → Option Nat
  rows : String → Option Row

/-- What has happened. -/
inductive Event (ρ : Type) where
  | resolved (recipeId digest : String) (found : Found ρ)
  /-- A row was written, while the Recipe on disk had the digest `live`. -/
  | written (recipeId digest : String) (live : Option String)

/-! ## The steps of a call -/

def State.put (s : State ρ) (c : Nat) (call : Call ρ) : State ρ := { s with calls := Function.update s.calls c (some call) }

/-- What the leader makes of the outcome of its resolver and of what happened while it stored. -/
def answerOf (recipeId digest : String) (outcome : Except Fault (Found ρ)) (stored : Except Fault Row) : Answer ρ :=
  match outcome, stored with
  | .error fault, .ok _ => .raised fault
  | .error fault, .error second => .raised (if second.swallowed then fault else second)
  | .ok found, .ok row => .returned ⟨found, recipeId, digest, some row, true, none⟩
  | .ok _, .error .recipeStore => .raised recipeChanged
  | .ok found, .error (.coded code) =>
      if Fault.coded code = recipeChanged then .raised recipeChanged
      else .returned ⟨found, recipeId, digest, none, false, some (String.ofList (code.toList.take 80))⟩
  | .ok _, .error fault => .raised fault

/-- The flight and the answer of its leader; the copy of the result may fail. -/
def settled (answer : Answer ρ) (copyFault : Option Fault) : Flight ρ × Answer ρ :=
  match answer, copyFault with
  | .returned result, none => ({ result := some result }, .returned result)
  | .returned result, some fault => ({ result := some result, error := some fault }, .raised fault)
  | .raised fault, _ => ({ error := some fault }, .raised fault)
  | .empty, _ => ({}, .empty)

def State.settle (s : State ρ) (c : Nat) (call : Call ρ) (answer : Answer ρ) (copyFault : Option Fault) : State ρ :=
  let outcome := settled answer copyFault
  { s.put c { call with phase := .ending outcome.2 } with flights := Function.update s.flights c outcome.1 }

/-- How the store takes a row. -/
inductive StoreOutcome where
  | refuses (fault : Fault)
  | stores
  /-- The row is in place when something fails behind it. -/
  | storesAndFails (fault : Fault)

inductive Action (ρ : Type) where
  | observe (c : Nat) (recipeId digest : String)
  | resolve (c : Nat) (outcome : Except Fault (Found ρ))
  | lock (c : Nat) (fault : Option Fault) (copyFault : Option Fault)
  | record (c : Nat) (now classification diagnostic : String) (outcome : StoreOutcome)
  | release (c : Nat) (fault : Option Fault) (copyFault : Option Fault)
  | signal (c : Nat)
  | pop (c : Nat)
  | wake (c : Nat)
  /-- A Recipe is saved under its lock. -/
  | save (recipeId digest : String)
  /-- The file of a Recipe is removed; no lock is taken. -/
  | delete (recipeId : String)
  /-- The process ends and starts again. -/
  | restart

/-- The part of `observe` under the lock of the service. -/
def observe (maxInFlight : Nat) (c : Nat) (recipeId digest : String) (s : State ρ) : State ρ :=
  match s.inFlight.lookup (recipeId, digest) with
  | some flight => s.put c ⟨.joined flight, recipeId, digest, .waiting⟩
  | none =>
      if maxInFlight ≤ s.inFlight.entries.length then
        s.put c ⟨.refused, recipeId, digest, .finished (.raised (.coded "observation_capacity_exhausted"))⟩
      else
        { s.put c ⟨.leader, recipeId, digest, .resolving⟩ with
          inFlight := Dict.set s.inFlight (recipeId, digest) c
          flights := Function.update s.flights c {} }

/-- The resolver returns or raises. -/
def resolve (c : Nat) (call : Call ρ) (outcome : Except Fault (Found ρ)) (s : State ρ) : State ρ × List (Event ρ) :=
  match outcome with
  | .ok found => (s.put c { call with phase := .locking outcome }, [.resolved call.recipeId call.digest found])
  | .error fault =>
      if fault.isException then (s.put c { call with phase := .locking outcome }, [])
      else (s.settle c call (.raised fault) none, [])

/-- `locked_recipe` and the comparison of the digests. -/
def lock (c : Nat) (call : Call ρ) (outcome : Except Fault (Found ρ)) (fault copyFault : Option Fault) (s : State ρ) :
    Option (State ρ) :=
  let fails (fault : Fault) := s.settle c call (answerOf call.recipeId call.digest outcome (.error fault)) copyFault
  match fault with
  | some fault => some (fails fault)
  | none =>
      if (s.leases call.recipeId).isSome then none
      else match s.live call.recipeId with
        | none => some (fails .recipeStore)
        | some current =>
            if current ≠ call.digest then some (fails recipeChanged)
            else some { s.put c { call with phase := .holding outcome } with
              leases := Function.update s.leases call.recipeId (some c) }

/-- `record_success` or `record_failure`, under the lease that protects the data. -/
def record (c : Nat) (call : Call ρ) (outcome : Except Fault (Found ρ)) (now classification diagnostic : String)
    (stored : StoreOutcome) (s : State ρ) : State ρ × List (Event ρ) :=
  let row := match outcome with
    | .ok found => successRow call.digest found now
    | .error _ => failureRow (s.rows call.recipeId) call.digest now classification diagnostic
  let written (result : Except Fault Row) : State ρ × List (Event ρ) :=
    ({ s.put c { call with phase := .recorded outcome result } with
        rows := Function.update s.rows call.recipeId (some row) },
      [.written call.recipeId call.digest (s.live call.recipeId)])
  match stored with
  | .refuses fault => (s.put c { call with phase := .recorded outcome (.error fault) }, [])
  | .stores => written (.ok row)
  | .storesAndFails fault => written (.error fault)

/-- The locks are left, and the flight is settled. -/
def release (c : Nat) (call : Call ρ) (outcome : Except Fault (Found ρ)) (stored : Except Fault Row)
    (fault copyFault : Option Fault) (s : State ρ) : State ρ :=
  let stored := match fault with
    | some fault => .error fault
    | none => stored
  { s.settle c call (answerOf call.recipeId call.digest outcome stored) copyFault with
    leases := Function.update s.leases call.recipeId none }

/-- `flight.done.set()` -/
def signal (c : Nat) (call : Call ρ) (answer : Answer ρ) (s : State ρ) : State ρ :=
  { s.put c { call with phase := .signalled answer } with
    flights := Function.update s.flights c { s.flights c with done := true } }

/-- `self._in_flight.pop(key, None)` -/
def pop (c : Nat) (call : Call ρ) (answer : Answer ρ) (s : State ρ) : State ρ :=
  { s.put c { call with phase := .finished answer } with inFlight := s.inFlight.erase call.key }

def act (maxInFlight : Nat) (s : State ρ) : Action ρ → Option (State ρ × List (Event ρ))
  | .observe c recipeId digest =>
      if (s.calls c).isSome then none else some (observe maxInFlight c recipeId digest s, [])
  | .resolve c outcome =>
      (s.calls c).bind fun call => match call.phase with
        | .resolving => some (resolve c call outcome s)
        | _ => none
  | .lock c fault copyFault =>
      (s.calls c).bind fun call => match call.phase with
        | .locking outcome => (lock c call outcome fault copyFault s).map (·, [])
        | _ => none
  | .record c now classification diagnostic stored =>
      (s.calls c).bind fun call => match call.phase with
        | .holding outcome => some (record c call outcome now classification diagnostic stored s)
        | _ => none
  | .release c fault copyFault =>
      (s.calls c).bind fun call => match call.phase with
        | .recorded outcome stored => some (release c call outcome stored fault copyFault s, [])
        | _ => none
  | .signal c =>
      (s.calls c).bind fun call => match call.phase with
        | .ending answer => some (signal c call answer s, [])
        | _ => none
  | .pop c =>
      (s.calls c).bind fun call => match call.phase with
        | .signalled answer => some (pop c call answer s, [])
        | _ => none
  | .wake c =>
      (s.calls c).bind fun call => match call.phase, call.role with
        | .waiting, .joined flight =>
            if (s.flights flight).done then some (s.put c { call with phase := .finished (s.flights flight).answer }, [])
            else none
        | _, _ => none
  | .save recipeId digest =>
      if (s.leases recipeId).isSome then none else some ({ s with live := Function.update s.live recipeId (some digest) }, [])
  | .delete recipeId => some ({ s with live := Function.update s.live recipeId none }, [])
  | .restart => some ({ s with inFlight := ∅, flights := fun _ => {}, calls := fun _ => none, leases := fun _ => none }, [])

/-- A state and what has happened up to it. -/
abbrev Point (ρ : Type) := State ρ × List (Event ρ)

/-- The runs from an empty store, with the Recipes that are there. -/
def machine (maxInFlight : Nat) (live : String → Option String) : Machine (Point ρ) (Action ρ) where
  start := (⟨∅, fun _ => {}, fun _ => none, live, fun _ => none, fun _ => none⟩, [])
  step p a := (act maxInFlight p.1 a).map fun r => (r.1, p.2 ++ r.2)

/-! ## What is claimed -/

/-- The resolver of the call is running. -/
def Resolving (s : State ρ) (c : Nat) : Prop := ∃ call, s.calls c = some call ∧ call.phase = .resolving

/-- The call has not ended. -/
def Unfinished (s : State ρ) (c : Nat) : Prop := ∃ call, s.calls c = some call ∧ ∀ answer, call.phase ≠ .finished answer

/-- The steps that a call still takes at most. -/
def Phase.rank : Phase ρ → Nat
  | resolving => 6
  | locking _ => 5
  | holding _ => 4
  | recorded .. => 3
  | ending _ => 2
  | signalled _ => 1
  | waiting => 1
  | finished _ => 0

/-- A step that a call under way takes. -/
def Action.caller? : Action ρ → Option Nat
  | resolve c _ => some c
  | lock c .. => some c
  | record c .. => some c
  | release c .. => some c
  | signal c => some c
  | pop c => some c
  | wake c => some c
  | _ => none

/-- The lock of a Recipe does not fail. -/
def Action.undisturbed : Action ρ → Bool
  | lock _ fault _ => fault.isNone
  | _ => true

structure SingleFlight (maxInFlight : Nat) (p : Point ρ) : Prop where
  /-- One resolver runs for each Recipe and digest. -/
  once : ∀ c d call other, p.1.calls c = some call → p.1.calls d = some other → call.phase = .resolving →
    other.phase = .resolving → call.key = other.key → c = d
  /-- No more resolvers run than may. -/
  bounded : ∀ cs : List Nat, cs.Nodup → (∀ c ∈ cs, Resolving p.1 c) → cs.length ≤ maxInFlight
  /-- Who joined a flight gets what its leader gets. -/
  shared : ∀ c call flight answer, p.1.calls c = some call → call.role = .joined flight → call.phase = .finished answer →
    ∃ leader, p.1.calls flight = some leader ∧ leader.key = call.key ∧
      (leader.phase = .signalled answer ∨ leader.phase = .finished answer)
  nonempty : ∀ c call, p.1.calls c = some call → call.phase ≠ .finished .empty
  /-- While a call is under way, some call can take its next step. -/
  progress : ∀ c, Unfinished p.1 c → ∃ a, (Action.caller? a).isSome ∧ a.undisturbed ∧ (act maxInFlight p.1 a).isSome
  /-- A step of a call brings that call nearer to its end, and changes no other. -/
  nearer : ∀ a c r, Action.caller? a = some c → act maxInFlight p.1 a = some r →
    (∀ d, d ≠ c → r.1.calls d = p.1.calls d) ∧
      ∃ call next, p.1.calls c = some call ∧ r.1.calls c = some next ∧ next.phase.rank < call.phase.rank
  /-- A flight is there only while its leader is under way. -/
  removed : ∀ key c, p.1.inFlight.lookup key = some c → Unfinished p.1 c
  /-- A row is written while the Recipe has the digest that was resolved. -/
  current : ∀ recipeId digest live, .written recipeId digest live ∈ p.2 → live = some digest
  /-- The success of a row was observed for its digest. -/
  observed : ∀ recipeId row success, p.1.rows recipeId = some row → row.lastSuccess = some success →
    ∃ found now, .resolved recipeId row.recipeSha256 found ∈ p.2 ∧ success = successOf found now

end DebBuilder.Observation
