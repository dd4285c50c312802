import Mathlib
import DebBuilder.Scheduler.Model

/-!
# What accepted requests wait for

An accepted `request` waits for the start of a pass.  An accepted `request_recipe` waits
for a check of its Recipe that makes automation decisions, for a stop, or for an
inventory or an admission to which the Recipe is not eligible.  The history of a run
keeps what still waits; no step reads it.

The invariant says where it waits: a Recipe is requested, or the current pass has still
to check it and its check is no observation.  It holds in the runs whose steps are all
`Benign`, which leaves out the moments at which the scheduler forgets a request.

## Main definitions

* `Owed` — what still waits, and `Owed.next`, how a step changes it.
* `State.Idle` — the coordinator waits and nothing has woken it.
* `Benign` — the steps that forget no request.
* `State.Covers`, `Live` — the invariant.
-/

namespace DebBuilder.Scheduler
open Lib

/-- The worker is between its submission and the end of its work. -/
@[grind =] def Check.live : Check → Bool
  | queued | entered | decided _ | checking _ => true
  | absent | left _ | done _ => false

/-- The check makes, or has made, automation decisions. -/
@[grind =] def Check.enabled : Check → Bool
  | checking enabled | left enabled | done enabled => enabled
  | absent | queued | entered | decided _ => false

/-- The worker has landed without automation decisions. -/
@[grind =] def Check.landedClosed : Check → Bool
  | left enabled | done enabled => !enabled
  | absent | queued | entered | decided _ | checking _ => false

/-- The check has not read whether it may make automation decisions. -/
@[grind =] def Check.undecided : Check → Bool
  | queued | entered => true
  | absent | decided _ | checking _ | left _ | done _ => false

/-- What accepted requests still wait for: a pass, and checks of Recipes. -/
structure Owed where
  pass : Bool
  checks : Finset RecipeId

namespace State
variable (cfg : Config) (s : State) (r : RecipeId)

/-- A request that joins the current pass waits for nothing: the pass makes no automation
decisions, or the check of the Recipe makes them already. -/
def answered : Bool :=
  (s.inventoryReady && !s.checksAllowed) ||
    (r ∉ s.phase.todo && s.phase.handed ≠ some r && (s.check r).enabled)

/-- The inventory finds that the Recipe is not eligible: it makes no automation decisions,
a retry of the Recipe waits, or the Recipe is still not listed in the follow-up pass. -/
def ineligible (found : Finset RecipeId) : Bool :=
  if r ∈ found then !s.checksAllowed || r ∈ s.observationOnly else !s.acceptFollowup

end State

/-- How a step changes what waits. -/
def Owed.next (cfg : Config) (s : State) (a : Action) (o : Owed) : Owed :=
  match a with
  | .request => if s.request.1 then { o with pass := true } else o
  | .requestOrchestration => if s.requestOrchestration.1 then { o with pass := true } else o
  | .requestRecipe r =>
      match (s.requestRecipe cfg r).1 with
      | .ok created =>
          if !created && r ∉ s.requestedRecipes && s.answered r then o
          else { o with checks := insert r o.checks }
      | .error _ => o
  | .stop => ⟨false, ∅⟩
  | .beginPass => if s.passActive || s.stopRequested then o else { o with pass := false }
  | .inventory =>
      match s.phase with
      | .listing found => { o with checks := o.checks.filter fun r => !s.ineligible r found }
      | _ => o
  | .admitRun r => if s.check r = .decided true then { o with checks := o.checks.erase r } else o
  | _ => o

/-- The scheduler with the history of what waits. -/
def audited (cfg : Config) : Machine (State × Owed) Action :=
  (scheduler cfg).recording ⟨false, ∅⟩ (Owed.next cfg)

namespace State
variable (cfg : Config) (s : State) (r : RecipeId)

/-- The coordinator is in its idle wait, and nothing has woken it. -/
def Idle : Prop := s.phase = .waiting ∧ s.wakeRequested = false ∧ s.stopRequested = false

/-- Between the end of a follow-up pass and the block of `_run` after it. -/
def inWindow : Bool := s.phase = .returned && s.followup && !s.stopRequested

/-- A follow-up pass after its inventory. -/
def lateFollowup : Bool := s.phase.inPass && !s.phase.beforeInventory && !s.acceptFollowup

/-- The check of the Recipe in flight belongs to an earlier pass that an exception ended,
and makes no automation decisions so far. -/
def leftOver : Bool :=
  r ∈ s.inflight && r ∉ s.phase.futures && s.phase.handed ≠ some r && s.check r ≠ .checking true

/-- The pass still lists the Recipe, but its check is over, without automation decisions,
or will not be made. -/
def tooLate : Bool :=
  s.inPassRecipes r && r ∉ s.inflight &&
    (s.phase = .closing || r ∉ s.phase.todo && s.checksAllowed && (s.check r).landedClosed)

end State

/-- The steps that forget no request: nothing is accepted between the end of a follow-up
pass and the block after it, nor an observation after the inventory of a follow-up pass;
no request joins a check that will not make automation decisions; and no exception ends,
and no older check skips, what a request waits for. -/
def Benign (cfg : Config) (p : State × Owed) (a : Action) : Prop :=
  let (s, o) := p
  match a with
  | .request => s.inWindow = false
  | .requestOrchestration => s.available = true → s.inWindow = false
  | .requestRecipe r =>
      s.available = true → cfg.enabled = true → s.admissionOpen = true →
        s.inWindow = false ∧
          (s.checkExists r = true → r ∉ s.requestedRecipes →
            s.leftOver r = false ∧ s.tooLate r = false)
  | .requestObservation r =>
      s.available = true → s.inWindow = false ∧ (s.lateFollowup = true → s.observationExists r = true)
  | .submit r => r ∈ s.inflight → s.stopRequested = false → r ∉ o.checks
  | .raise | .refuse =>
      s.stopRequested = false →
        o.checks ⊆ s.requestedRecipes ∧ (s.followup = true → s.requestedRecipes = ∅)
  | _ => True

/-- The current pass has still to check the Recipe, and its check is no observation. -/
def State.Covers (s : State) (r : RecipeId) : Prop :=
  (s.checksAllowed = true ∧ r ∉ s.observationOnly ∧
      (r ∈ s.phase.todo ∨ s.phase.handed = some r ∨
        (r ∈ s.phase.futures ∧ (s.check r).undecided = true))) ∨
    (r ∈ s.phase.futures ∧ s.check r = .decided true)

/-- How the flags follow the coordinator, before a stop. -/
structure Flags (s : State) : Prop where
  active : s.passActive = s.phase.inPass
  ready : s.phase.working = true → s.inventoryReady = true
  unready : s.inventoryReady = true → s.phase.inPass = true ∧ s.phase.beforeInventory = false
  accepts : s.phase.inPass = true → s.acceptFollowup = !s.followup

/-- Where requests wait. -/
structure Waits (s : State) (o : Owed) : Prop where
  woken : o.pass = true → s.wakeRequested = true ∨ s.phase = .calling
  begun : s.phase.inPass = true ∨ s.phase = .returned → s.followup = true → o.pass = false
  requested : s.phase = .created ∨ s.phase = .looping ∨ s.phase = .waiting →
    s.requestedRecipes.Nonempty → s.wakeRequested = true
  taken : s.phase.working = true ∨ s.phase = .closing ∨ s.phase = .returned →
    s.followup = true → s.requestedRecipes = ∅
  owed : ∀ r ∈ o.checks, r ∈ s.requestedRecipes ∨ s.Covers r
  unobserved : ∀ r ∈ o.checks, r ∉ s.requestedObservations

/-- The checks of a pass. -/
structure Checks (s : State) : Prop where
  listed : ∀ r, r ∈ s.phase.todo ∨ s.phase.handed = some r ∨ r ∈ s.phase.futures →
    r ∈ s.passRecipes
  inflight : ∀ r, r ∈ s.inflight ↔ s.phase.handed = some r ∨ (s.check r).live = true
  unsubmitted : ∀ r ∈ s.phase.todo, r ∉ s.phase.futures ∧ s.phase.handed ≠ some r
  fresh : ∀ r, s.phase.handed = some r → r ∉ s.phase.futures ∧ (s.check r).live = false
  landed : s.phase.working = true → ∀ r ∈ s.passRecipes, r ∈ s.phase.todo ∨ r ∈ s.inflight ∨
    (s.check r).enabled = true ∨ (s.check r).landedClosed = true
  observed : ∀ r ∈ s.phase.futures,
    s.check r = .decided false ∨ s.check r = .checking false ∧ s.admissionOpen = true →
      r ∈ s.observationOnly ∨ r ∈ s.requestedRecipes ∨ s.checksAllowed = false
  recorded : ∀ r pending, s.phase = .recording r pending → r ∉ pending

/-- The invariant of the benign runs, before a stop. -/
structure Live (p : State × Owed) : Prop where
  flags : Flags p.1
  checks : Checks p.1
  waits : Waits p.1 p.2

def Inv (p : State × Owed) : Prop := p.1.stopRequested = false → Live p

end DebBuilder.Scheduler
