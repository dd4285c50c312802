import Mathlib
import DebBuilder.Lib.Machine

/-!
# The periodic scheduler

`AutomationScheduler`: its coordinator thread `_run`, the passes of `run_pass`, the
workers, and the requests that other threads make.  Every block under `_condition` is
one action of the machine, so is every read outside it.  What a call of other code
answers (an orchestration that raises, a Recipe that its retry delays, a submission that
the executor refuses) is the choice of the action.

The state holds the flags and sets of the object under their names, the place of the
coordinator in its program with the locals that it has there, and the newest check of
each Recipe.

## Main definitions

* `State`, `Phase`, `Check` — the scheduler, its coordinator, and its workers.
* `State.request`, `State.requestRecipe`, `State.requestObservation` — the requests.
* `State.inventory`, `State.finishPass`, `State.afterPass` — the blocks of a pass.
* `scheduler` — the machine.
-/

namespace DebBuilder.Scheduler
open Lib

abbrev RecipeId := String

/-- `MAX_RECIPES`, and whether upstream checks are enabled. -/
structure Config where
  maxRecipes : Nat
  enabled : Bool

/-- `AutomationSchedulerError` of a request, by its code. -/
inductive Refusal
  | automation_scheduler_unavailable | automation_scheduler_disabled
  | automation_admission_blocked | automation_recipe_capacity | automation_scheduler_busy
  deriving DecidableEq, Repr

/-- The worker of a Recipe: `_worker`, from its submission to the end of its future.
The flag says whether the check may make automation decisions. -/
inductive Check
  | absent
  | queued
  | entered
  | decided (allowed : Bool)
  | checking (enabled : Bool)
  | left (enabled : Bool)
  | done (enabled : Bool)
  deriving DecidableEq, Repr

/-- Where the coordinator is in `_run` and `run_pass`. -/
inductive Phase
  | created
  | looping
  | waiting
  | calling
  | preparing
  | listing (found : Finset RecipeId)
  | submitting (todo futures : Finset RecipeId)
  | handing (recipe : RecipeId) (todo futures : Finset RecipeId)
  | collecting (pending : Finset RecipeId)
  | recording (recipe : RecipeId) (pending : Finset RecipeId)
  | closing
  | returned
  | leaving
  | stopped
  deriving DecidableEq

namespace Phase

/-- The Recipes of the inventory that are not submitted yet. -/
@[grind =] def todo : Phase → Finset RecipeId
  | submitting todo _ | handing _ todo _ => todo
  | created | looping | waiting | calling | preparing | listing _ | collecting _ | recording _ _
  | closing | returned | leaving | stopped => ∅

/-- The Recipe between its entry in `_inflight` and its submission. -/
@[grind =] def handed : Phase → Option RecipeId
  | handing recipe _ _ => some recipe
  | created | looping | waiting | calling | preparing | listing _ | submitting _ _ | collecting _
  | recording _ _ | closing | returned | leaving | stopped => none

/-- The Recipes whose futures the pass still has to collect. -/
@[grind =] def futures : Phase → Finset RecipeId
  | submitting _ futures | handing _ _ futures | collecting futures | recording _ futures => futures
  | created | looping | waiting | calling | preparing | listing _ | closing | returned | leaving
  | stopped => ∅

/-- `run_pass` has begun and has not ended. -/
@[grind =] def inPass : Phase → Bool
  | preparing | listing _ | submitting _ _ | handing _ _ _ | collecting _ | recording _ _
  | closing => true
  | created | looping | waiting | calling | returned | leaving | stopped => false

/-- The inventory of the pass is still to come. -/
@[grind =] def beforeInventory : Phase → Bool
  | preparing | listing _ => true
  | created | looping | waiting | calling | submitting _ _ | handing _ _ _ | collecting _
  | recording _ _ | closing | returned | leaving | stopped => false

/-- The pass works on its inventory. -/
@[grind =] def working : Phase → Bool
  | submitting _ _ | handing _ _ _ | collecting _ | recording _ _ => true
  | created | looping | waiting | calling | preparing | listing _ | closing | returned | leaving
  | stopped => false

end Phase

/-- The scheduler. -/
structure State where
  wakeRequested : Bool
  stopRequested : Bool
  running : Bool
  accepting : Bool
  admissionOpen : Bool
  passActive : Bool
  inventoryReady : Bool
  checksAllowed : Bool
  acceptFollowup : Bool
  followup : Bool
  passRecipes : Finset RecipeId
  inflight : Finset RecipeId
  observationOnly : Finset RecipeId
  requestedRecipes : Finset RecipeId
  requestedObservations : Finset RecipeId
  phase : Phase
  check : RecipeId → Check

/-- `__init__` -/
def newScheduler : State where
  wakeRequested := true
  stopRequested := false
  running := false
  accepting := true
  admissionOpen := true
  passActive := false
  inventoryReady := false
  checksAllowed := false
  acceptFollowup := false
  followup := false
  passRecipes := ∅
  inflight := ∅
  observationOnly := ∅
  requestedRecipes := ∅
  requestedObservations := ∅
  phase := .created
  check := fun _ => .absent

namespace State
variable (cfg : Config) (s : State) (r : RecipeId)

/-! ## Requests -/

/-- Whether the scheduler runs and takes requests. -/
def available : Bool := !s.stopRequested && s.running && s.accepting

/-- A request during a pass that takes no follow-up is refused. -/
def busy : Bool := s.passActive && !s.acceptFollowup

def wake : State := { s with wakeRequested := true }

/-- `request` -/
def request : Bool × State :=
  if s.stopRequested || s.busy then (false, s) else (true, s.wake)

/-- `request_orchestration` -/
def requestOrchestration : Bool × State :=
  if !s.available || s.busy then (false, s) else (true, s.wake)

/-- The Recipe is listed by the current pass and has no recorded result there. -/
def inPassRecipes : Bool := s.passActive && s.inventoryReady && r ∈ s.passRecipes

/-- `observation_inflight`: the check in flight is an observation. -/
def observationInflight : Bool := r ∈ s.inflight && r ∈ s.observationOnly

/-- `existing` of `request_recipe`. -/
def checkExists : Bool :=
  !s.observationInflight r &&
    (r ∈ s.inflight || r ∈ s.requestedRecipes || s.inPassRecipes r)

/-- `existing` of `request_observation`. -/
def observationExists : Bool :=
  r ∈ s.inflight || r ∈ s.requestedRecipes || s.inPassRecipes r

/-- `_requested_recipes.add`, with a wake when no pass is active. -/
def queue : State :=
  { s with
    requestedRecipes := insert r s.requestedRecipes
    wakeRequested := s.wakeRequested || !s.passActive }

/-- The end of `request_recipe`: the request supersedes an observation of the Recipe. -/
def supersede : State :=
  { s with
    requestedObservations := s.requestedObservations.erase r
    observationOnly := s.observationOnly.erase r }

/-- `request_recipe`: whether the request was created, not coalesced. -/
def requestRecipe : Except Refusal Bool × State :=
  if !s.available then (.error .automation_scheduler_unavailable, s)
  else if !cfg.enabled then (.error .automation_scheduler_disabled, s)
  else if !s.admissionOpen then (.error .automation_admission_blocked, s)
  else if s.checkExists r then (.ok false, s.supersede r)
  else if cfg.maxRecipes ≤ s.requestedRecipes.card then (.error .automation_recipe_capacity, s)
  else if s.busy then (.error .automation_scheduler_busy, s)
  else (.ok true, (s.queue r).supersede r)

/-- `request_observation`. It is not refused during a follow-up pass. -/
def requestObservation : Except Refusal Bool × State :=
  if !s.available then (.error .automation_scheduler_unavailable, s)
  else if s.observationExists r then (.ok false, s)
  else if cfg.maxRecipes ≤ s.requestedRecipes.card then (.error .automation_recipe_capacity, s)
  else
    (.ok true, { s.queue r with requestedObservations := insert r s.requestedObservations })

/-- `stop`, after the admission gate is closed. -/
def stop : State :=
  { s with
    stopRequested := true
    wakeRequested := false
    requestedRecipes := ∅
    requestedObservations := ∅ }

/-! ## The coordinator -/

/-- One turn of the idle loop of `_run`: `due` says that a periodic check or a retry is. -/
def idleTurn (due : Bool) : State :=
  if s.stopRequested then { s with phase := .leaving }
  else if s.wakeRequested || due then { s with wakeRequested := false, phase := .calling }
  else { s with phase := .waiting }

/-- The first block of `run_pass`. -/
def beginPass : State :=
  if s.passActive || s.stopRequested then { s with phase := .returned }
  else
    { s with
      passActive := true
      inventoryReady := false
      checksAllowed := false
      passRecipes := ∅
      observationOnly := ∅
      acceptFollowup := !s.followup
      phase := .preparing }

/-- `_automation_checks_allowed`: `safe` says that the automation state was advanced and
read, and that the ledger has room. -/
def prepare (safe : Bool) : State :=
  { s with checksAllowed := safe && cfg.enabled && s.admissionOpen, phase := .listing ∅ }

/-- One Recipe that `_eligible` finds; `delayed` says that a retry of it waits. -/
def find (found : Finset RecipeId) (delayed : Bool) : State :=
  { s with
    observationOnly :=
      if cfg.enabled && delayed then insert r s.observationOnly else s.observationOnly
    phase := .listing (insert r found) }

/-- The block of the inventory: what the pass takes over from the requests. -/
def inventory (found : Finset RecipeId) : State :=
  let satisfied := s.requestedRecipes ∩ found
  let taken := if s.acceptFollowup then satisfied else s.requestedRecipes
  { s with
    passRecipes := found
    inventoryReady := true
    observationOnly := s.observationOnly ∪ (s.requestedObservations ∩ satisfied)
    requestedRecipes := s.requestedRecipes \ taken
    requestedObservations := s.requestedObservations \ taken
    phase := .submitting found ∅ }

/-- One Recipe of the inventory: it is passed over after a stop, and while a check of it
is in flight. -/
def submit (todo futures : Finset RecipeId) : State :=
  if s.stopRequested || r ∈ s.inflight then
    { s with phase := .submitting (todo.erase r) futures }
  else
    { s with inflight := insert r s.inflight, phase := .handing r (todo.erase r) futures }

/-- The executor takes the check. -/
def handOver (todo futures : Finset RecipeId) : State :=
  { s with
    check := Function.update s.check r .queued
    phase := .submitting todo (insert r futures) }

/-- The executor refuses the check: the pass goes on to what it has after a stop, and
fails otherwise. -/
def refuse (futures : Finset RecipeId) : State :=
  { s with
    inflight := s.inflight.erase r
    phase := if s.stopRequested then .collecting futures else .closing }

/-- The result of a check and its handoff are complete. -/
def record (pending : Finset RecipeId) : State :=
  { s with passRecipes := s.passRecipes.erase r, phase := .collecting pending }

/-- The last block of `run_pass`. -/
def finishPass : State :=
  { s with
    passActive := false
    inventoryReady := false
    checksAllowed := false
    passRecipes := ∅
    observationOnly := ∅
    phase := .returned }

/-- The block of `_run` after a pass. -/
def afterPass : State :=
  if s.stopRequested then { s with phase := .leaving }
  else if !s.followup && (s.wakeRequested || s.requestedRecipes.Nonempty) then
    { s with followup := true, wakeRequested := true, acceptFollowup := false, phase := .looping }
  else
    { s with followup := false, wakeRequested := false, acceptFollowup := false, phase := .looping }

/-- The end of `_run`. -/
def leave : State := { s with running := false, passActive := false, phase := .stopped }

/-- An exception ends the pass; a result that was being recorded is dropped. -/
def raise : State :=
  match s.phase with
  | .recording r _ => { s with passRecipes := s.passRecipes.erase r, phase := .closing }
  | _ => { s with phase := .closing }

/-! ## Workers -/

def setCheck (check : Check) : State := { s with check := Function.update s.check r check }

/-- The worker leaves `_inflight`. -/
def land (enabled : Bool) : State :=
  { s with inflight := s.inflight.erase r, check := Function.update s.check r (.left enabled) }

end State

/-! ## The machine -/

/-- What can happen next, with what the environment answers. -/
inductive Action
  | request
  | requestOrchestration
  | requestRecipe (r : RecipeId)
  | requestObservation (r : RecipeId)
  | start
  | closeGate
  | closeAdmission
  | stop
  | idleTurn (due : Bool)
  | resume
  | crash
  | beginPass
  | prepare (safe : Bool)
  | find (r : RecipeId) (delayed : Bool)
  | inventory
  | submit (r : RecipeId)
  | handOver
  | refuse
  | submitted
  | collect (r : RecipeId)
  | record
  | drained
  | raise
  | finishPass
  | afterPass
  | leave
  | enter (r : RecipeId)
  | decide (r : RecipeId)
  | admitRun (r : RecipeId)
  | land (r : RecipeId)
  | complete (r : RecipeId)
  | cancel (r : RecipeId)

/-- The step of the coordinator. -/
def coordinate (cfg : Config) (s : State) : Action → Option State
  | .start =>
      if s.phase = .created then some { s with running := true, phase := .looping } else none
  | .idleTurn due => if s.phase = .looping then some (s.idleTurn due) else none
  | .crash => if s.phase = .looping then some { s with phase := .leaving } else none
  | .resume => if s.phase = .waiting then some { s with phase := .looping } else none
  | .beginPass => if s.phase = .calling then some s.beginPass else none
  | .prepare safe => if s.phase = .preparing then some (s.prepare cfg safe) else none
  | .find r delayed =>
      match s.phase with
      | .listing found => if r ∈ found then none else some (s.find cfg r found delayed)
      | _ => none
  | .inventory =>
      match s.phase with
      | .listing found => some (s.inventory found)
      | _ => none
  | .submit r =>
      match s.phase with
      | .submitting todo futures => if r ∈ todo then some (s.submit r todo futures) else none
      | _ => none
  | .handOver =>
      match s.phase with
      | .handing r todo futures => some (s.handOver r todo futures)
      | _ => none
  | .refuse =>
      match s.phase with
      | .handing r _ futures => some (s.refuse r futures)
      | _ => none
  | .submitted =>
      match s.phase with
      | .submitting todo futures =>
          if todo = ∅ then some { s with phase := .collecting futures } else none
      | _ => none
  | .collect r =>
      match s.phase, s.check r with
      | .collecting pending, .done _ =>
          if r ∈ pending then some { s with phase := .recording r (pending.erase r) } else none
      | _, _ => none
  | .record =>
      match s.phase with
      | .recording r pending => some (s.record r pending)
      | _ => none
  | .drained =>
      match s.phase with
      | .collecting pending =>
          if pending = ∅ ∨ s.stopRequested then some { s with phase := .closing } else none
      | _ => none
  | .raise =>
      match s.phase with
      | .preparing | .listing _ | .recording _ _ => some s.raise
      | .collecting _ => if s.stopRequested then some s.raise else none
      | _ => none
  | .finishPass => if s.phase = .closing then some s.finishPass else none
  | .afterPass => if s.phase = .returned then some s.afterPass else none
  | .leave => if s.phase = .leaving then some s.leave else none
  | _ => none

/-- The step of the worker of a Recipe. -/
def work (s : State) : Action → Option State
  | .enter r =>
      if s.check r = .queued then
        some (if s.stopRequested then s.land r false else s.setCheck r .entered)
      else none
  | .decide r =>
      if s.check r = .entered then
        some (s.setCheck r (.decided (s.checksAllowed && r ∉ s.observationOnly)))
      else none
  | .admitRun r =>
      match s.check r with
      | .decided allowed => some (s.setCheck r (.checking (allowed && s.admissionOpen)))
      | _ => none
  | .land r =>
      match s.check r with
      | .checking enabled => some (s.land r enabled)
      | _ => none
  | .complete r =>
      match s.check r with
      | .left enabled => some (s.setCheck r (.done enabled))
      | _ => none
  | .cancel r =>
      if s.stopRequested ∧ s.check r = .queued then
        some { s.setCheck r .absent with inflight := s.inflight.erase r }
      else none
  | _ => none

/-- The scheduler and the threads that call it. -/
def step (cfg : Config) (s : State) : Action → Option State
  | .request => some s.request.2
  | .requestOrchestration => some s.requestOrchestration.2
  | .requestRecipe r => some (s.requestRecipe cfg r).2
  | .requestObservation r => some (s.requestObservation cfg r).2
  | .closeGate => some { s with accepting := false }
  | .closeAdmission => some { s with admissionOpen := false }
  | .stop => if s.accepting then none else some s.stop
  | a => (coordinate cfg s a).or (work s a)

def scheduler (cfg : Config) : Machine State Action := ⟨newScheduler, step cfg⟩

end DebBuilder.Scheduler
