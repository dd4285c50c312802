import Mathlib
import DebBuilder.Scheduler.Invariant

/-!
# No benign step forgets a request

The invariant, one action at a time.  A request either waits in `_requested_recipes`,
from where the inventory of the next pass takes it, or it joins a check that the current
pass has still to make.

## Main results

* `joined_covers` — what a request joins.
* `Live.requestRecipe`, `Live.inventory`, `Live.afterPass` and so on — one law for each
  action.
-/

namespace DebBuilder.Scheduler
open Lib

variable {cfg : Config} {s : State} {o : Owed} {r : RecipeId}
variable {found todo futures pending : Finset RecipeId}

/-! ## The states after an action -/

@[grind =] theorem handOver_check (q : RecipeId) :
    (s.handOver r todo futures).check q = if q = r then .queued else s.check q := by
  simp [State.handOver, Function.update_apply]

@[grind =] theorem setCheck_check (q : RecipeId) {check : Check} :
    (s.setCheck r check).check q = if q = r then check else s.check q := by
  simp [State.setCheck, Function.update_apply]

@[grind =] theorem land_check (q : RecipeId) {enabled : Bool} :
    (s.land r enabled).check q = if q = r then .left enabled else s.check q := by
  simp [State.land, Function.update_apply]

/-- Only a pass that works on its inventory has checks to make. -/
theorem working_of_listed {p : Phase} (h : r ∈ p.todo ∨ p.handed = some r ∨ r ∈ p.futures) :
    p.working = true := by
  cases p <;> grind -ring -linarith

/-- A check that the pass has still to make is one of its inventory. -/
theorem State.Covers.listed (h : s.Covers r) :
    r ∈ s.phase.todo ∨ s.phase.handed = some r ∨ r ∈ s.phase.futures := by
  grind -ring -linarith [State.Covers]

theorem State.Covers.supersede {q : RecipeId} (h : s.Covers q) : (s.supersede r).Covers q := by
  grind -ring -linarith [State.Covers, State.supersede]

/-! ## Requests -/

/-- The outcomes of `request_recipe`. -/
theorem requestRecipe_cases (cfg : Config) (s : State) (r : RecipeId) :
    (∃ e, s.requestRecipe cfg r = (.error e, s)) ∨
    (s.requestRecipe cfg r = (.ok false, s.supersede r) ∧ s.available = true ∧
      cfg.enabled = true ∧ s.admissionOpen = true ∧ s.checkExists r = true) ∨
    (s.requestRecipe cfg r = (.ok true, (s.queue r).supersede r) ∧ s.available = true ∧
      cfg.enabled = true ∧ s.admissionOpen = true ∧ s.busy = false) := by
  unfold State.requestRecipe
  split
  · exact .inl ⟨_, rfl⟩
  split
  · exact .inl ⟨_, rfl⟩
  split
  · exact .inl ⟨_, rfl⟩
  split
  · exact .inr (.inl (by grind -ring -linarith))
  split
  · exact .inl ⟨_, rfl⟩
  split
  · exact .inl ⟨_, rfl⟩
  · exact .inr (.inr (by grind -ring -linarith))

/-- The outcomes of `request_observation`. -/
theorem requestObservation_cases (cfg : Config) (s : State) (r : RecipeId) :
    (s.requestObservation cfg r).2 = s ∨
    (s.available = true ∧ s.observationExists r = false ∧ (s.requestObservation cfg r).2 =
      { s.queue r with requestedObservations := insert r s.requestedObservations }) := by
  unfold State.requestObservation
  split
  · exact .inl rfl
  split
  · exact .inl rfl
  split
  · exact .inl rfl
  · exact .inr (by grind -ring -linarith)

theorem Live.request (h : Live (s, o)) (hwindow : s.inWindow = false)
    (hstop : s.stopRequested = false) : Live (s.request.2, o.next cfg s .request) := by
  obtain ⟨hf, hc, hw⟩ := h
  constructor
  · constructor <;> grind -ring -linarith [Flags, State.request, State.wake]
  · constructor <;> grind -ring -linarith [Checks, State.request, State.wake]
  · constructor <;> grind -ring -linarith [Waits, Flags, Owed.next, State.Covers, State.request, State.wake,
      State.inWindow, State.busy]

theorem Live.requestOrchestration (h : Live (s, o))
    (hok : s.available = true → s.inWindow = false) (hstop : s.stopRequested = false) :
    Live (s.requestOrchestration.2, o.next cfg s .requestOrchestration) := by
  obtain ⟨hf, hc, hw⟩ := h
  constructor
  · constructor <;> grind -ring -linarith [Flags, State.requestOrchestration, State.wake]
  · constructor <;> grind -ring -linarith [Checks, State.requestOrchestration, State.wake]
  · constructor <;> grind -ring -linarith [Waits, Flags, Owed.next, State.Covers, State.requestOrchestration,
      State.wake, State.inWindow, State.busy]

/-- A request is queued while the pass still takes a follow-up, or before the next pass. -/
theorem Live.queue (h : Live (s, o)) (hlate : s.lateFollowup = false)
    (hwindow : s.inWindow = false) (hstop : s.stopRequested = false) : Live (s.queue r, o) := by
  obtain ⟨hf, hc, hw⟩ := h
  refine ⟨⟨hf.active, hf.ready, hf.unready, hf.accepts⟩,
    ⟨hc.listed, hc.inflight, hc.unsubmitted, hc.fresh, hc.landed, ?_, hc.recorded⟩,
    ⟨?_, hw.begun, ?_, ?_, ?_, hw.unobserved⟩⟩
  · intro q hq hcheck
    grind -ring -linarith [Checks, State.queue]
  · grind -ring -linarith [Waits, State.queue]
  · intro hphase _
    grind -ring -linarith [Flags, State.queue]
  · intro hphase hfollow
    have hafter : s.phase.inPass = true ∧ s.phase.beforeInventory = false ∨ s.phase = .returned := by
      cases hp : s.phase <;> grind -ring -linarith [State.queue]
    have hfollow : s.followup = true := hfollow
    exfalso
    grind -ring -linarith [State.inWindow, State.lateFollowup, Flags]
  · intro q hq
    rcases hw.owed q hq with hmem | hcov
    · exact .inl (Finset.mem_insert_of_mem hmem)
    · exact .inr hcov

theorem Live.supersede (h : Live (s, o))
    (hobs : r ∈ s.inflight → r ∈ s.observationOnly → r ∈ s.requestedRecipes) :
    Live (s.supersede r, o) := by
  obtain ⟨hf, hc, hw⟩ := h
  constructor
  · constructor <;> grind -ring -linarith [Flags, State.supersede]
  · constructor <;> grind -ring -linarith [Checks, State.supersede]
  · constructor <;> grind -ring -linarith [Waits, State.supersede, State.Covers.supersede]

theorem Live.owe (h : Live (s, o)) (hwaits : r ∈ s.requestedRecipes ∨ s.Covers r)
    (hobs : r ∉ s.requestedObservations) :
    Live (s, { o with checks := insert r o.checks }) := by
  refine ⟨h.flags, h.checks, ?_⟩
  have hw := h.waits
  constructor <;> grind -ring -linarith [Waits]

/-- A check in flight that is no observation answers the request, or has still to read
that it is none. -/
theorem joined_inflight (h : Live (s, o)) (hopen : s.admissionOpen = true)
    (hin : r ∈ s.inflight) (hobs : r ∉ s.observationOnly) (hnew : r ∉ s.requestedRecipes)
    (hours : s.leftOver r = false) : s.answered r = true ∨ (s.supersede r).Covers r := by
  obtain ⟨hf, hc, -⟩ := h
  by_cases hpass : s.phase.handed = some r ∨ r ∈ s.phase.futures
  · have hready := hf.ready (working_of_listed (.inr hpass))
    rcases hpass with hhanded | hfuture
    · grind -ring -linarith [State.answered, State.Covers, State.supersede]
    · have hhanded : s.phase.handed ≠ some r := fun hhanded => (hc.fresh r hhanded).1 hfuture
      have hlive : (s.check r).live = true := ((hc.inflight r).1 hin).resolve_left hhanded
      have htodo : r ∉ s.phase.todo := fun htodo => (hc.unsubmitted r htodo).1 hfuture
      have hobserved := hc.observed r hfuture
      cases hcheck : s.check r with
      | queued | entered => grind -ring -linarith [State.answered, State.Covers, State.supersede]
      | decided allowed => cases allowed <;> grind -ring -linarith [State.answered, State.Covers, State.supersede]
      | checking enabled => cases enabled <;> grind -ring -linarith [State.answered]
      | absent | left | done => simp [hcheck, Check.live] at hlive
  · have hchecking : s.check r = .checking true := by grind -ring -linarith [State.leftOver]
    by_cases htodo : r ∈ s.phase.todo
    · have hready := hf.ready (working_of_listed (.inl htodo))
      grind -ring -linarith [State.answered, State.Covers, State.supersede]
    · grind -ring -linarith [State.answered]

/-- A Recipe that the pass still lists has a check to come, or one that makes automation
decisions. -/
theorem joined_listed (h : Live (s, o)) (hin : r ∉ s.inflight)
    (hlist : s.inPassRecipes r = true) (hlate : s.tooLate r = false) :
    s.answered r = true ∨ (s.supersede r).Covers r := by
  obtain ⟨hf, hc, -⟩ := h
  have hunready := hf.unready (by grind -ring -linarith [State.inPassRecipes])
  have hopen : s.phase ≠ .closing := by grind -ring -linarith [State.tooLate]
  have hwork : s.phase.working = true := by
    cases hphase : s.phase <;> grind -ring -linarith
  have hland := hc.landed hwork r
  have hflight := (hc.inflight r).2
  grind -ring -linarith [State.answered, State.Covers, State.supersede, State.tooLate, State.inPassRecipes]

/-- A request that is coalesced joins a check that answers it, or one that the pass has
still to make and that is no observation. -/
theorem joined_covers (h : Live (s, o)) (hopen : s.admissionOpen = true)
    (hexists : s.checkExists r = true) (hnew : r ∉ s.requestedRecipes)
    (hours : s.leftOver r = false) (hlate : s.tooLate r = false) :
    s.answered r = true ∨ (s.supersede r).Covers r := by
  by_cases hin : r ∈ s.inflight
  · have hobs : r ∉ s.observationOnly := by grind -ring -linarith [State.checkExists, State.observationInflight]
    exact joined_inflight h hopen hin hobs hnew hours
  · have hlist : s.inPassRecipes r = true := by grind -ring -linarith [State.checkExists]
    exact joined_listed h hin hlist hlate

theorem Live.requestRecipe (h : Live (s, o)) (hok : Benign cfg (s, o) (.requestRecipe r))
    (hstop : s.stopRequested = false) :
    Live ((s.requestRecipe cfg r).2, o.next cfg s (.requestRecipe r)) := by
  rcases requestRecipe_cases cfg s r with ⟨e, heq⟩ | ⟨heq, hav, hen, hopen, hexists⟩ |
      ⟨heq, hav, hen, hopen, hbusy⟩
  · simpa [Owed.next, heq] using h
  · obtain ⟨-, hjoin⟩ := hok hav hen hopen
    have hobs : r ∈ s.inflight → r ∉ s.observationOnly := by
      grind -ring -linarith [State.checkExists, State.observationInflight]
    have hlive : Live (s.supersede r, o) := h.supersede fun hin hobs' => absurd hobs' (hobs hin)
    have hgone : r ∉ (s.supersede r).requestedObservations := by grind -ring -linarith [State.supersede]
    by_cases hnew : r ∈ s.requestedRecipes
    · have hwaits : r ∈ (s.supersede r).requestedRecipes := hnew
      simpa [Owed.next, heq, hnew] using hlive.owe (.inl hwaits) hgone
    · obtain ⟨hours, hlate⟩ := hjoin hexists hnew
      by_cases hans : s.answered r = true
      · simpa [Owed.next, heq, hnew, hans] using hlive
      · have hcov := (joined_covers h hopen hexists hnew hours hlate).resolve_left hans
        simpa [Owed.next, heq, hnew, hans] using hlive.owe (.inr hcov) hgone
  · obtain ⟨hwindow, -⟩ := hok hav hen hopen
    have hlate : s.lateFollowup = false := by
      have hf := h.flags
      grind -ring -linarith [State.lateFollowup, State.busy, Flags]
    have hlive : Live ((s.queue r).supersede r, o) :=
      (h.queue hlate hwindow hstop).supersede fun _ _ => Finset.mem_insert_self r _
    have hgone : r ∉ ((s.queue r).supersede r).requestedObservations := by grind -ring -linarith [State.supersede]
    have hwaits : r ∈ ((s.queue r).supersede r).requestedRecipes := Finset.mem_insert_self r _
    simpa [Owed.next, heq] using hlive.owe (.inl hwaits) hgone

theorem Live.requestObservation (h : Live (s, o))
    (hok : Benign cfg (s, o) (.requestObservation r)) (hstop : s.stopRequested = false) :
    Live ((s.requestObservation cfg r).2, o) := by
  rcases requestObservation_cases cfg s r with heq | ⟨hav, hnew, heq⟩
  · simpa [heq] using h
  · obtain ⟨hwindow, hlate⟩ := hok hav
    have hlive : Live (s.queue r, o) :=
      h.queue (by grind -ring -linarith) hwindow hstop
    have hfree : r ∉ o.checks := by
      intro hr
      rcases h.waits.owed r hr with hmem | hcov
      · grind -ring -linarith [State.observationExists]
      · have hf := h.flags
        have hlisted := h.checks.listed r hcov.listed
        have hwork := working_of_listed hcov.listed
        grind -ring -linarith [State.observationExists, State.inPassRecipes, Flags]
    have hun : ∀ q ∈ o.checks, q ∉ insert r s.requestedObservations := by
      have hw := h.waits
      grind -ring -linarith [Waits]
    obtain ⟨hf, hc, hw⟩ := hlive
    rw [heq]
    exact ⟨⟨hf.active, hf.ready, hf.unready, hf.accepts⟩,
      ⟨hc.listed, hc.inflight, hc.unsubmitted, hc.fresh, hc.landed, hc.observed, hc.recorded⟩,
      ⟨hw.woken, hw.begun, hw.requested, hw.taken, hw.owed, hun⟩⟩

theorem Live.closeGate (h : Live (s, o)) : Live ({ s with accepting := false }, o) := by
  obtain ⟨hf, hc, hw⟩ := h
  exact ⟨⟨hf.active, hf.ready, hf.unready, hf.accepts⟩,
    ⟨hc.listed, hc.inflight, hc.unsubmitted, hc.fresh, hc.landed, hc.observed, hc.recorded⟩,
    ⟨hw.woken, hw.begun, hw.requested, hw.taken, hw.owed, hw.unobserved⟩⟩

theorem Live.closeAdmission (h : Live (s, o)) : Live ({ s with admissionOpen := false }, o) := by
  obtain ⟨hf, hc, hw⟩ := h
  refine ⟨⟨hf.active, hf.ready, hf.unready, hf.accepts⟩,
    ⟨hc.listed, hc.inflight, hc.unsubmitted, hc.fresh, hc.landed, ?_, hc.recorded⟩,
    ⟨hw.woken, hw.begun, hw.requested, hw.taken, hw.owed, hw.unobserved⟩⟩
  intro r hr hcheck
  exact hc.observed r hr (.inl (hcheck.resolve_right (by simp)))

/-! ## The coordinator -/

theorem Live.start (h : Live (s, o)) (hphase : s.phase = .created) :
    Live ({ s with running := true, phase := .looping }, o) := by
  obtain ⟨hf, hc, hw⟩ := h
  constructor
  · constructor <;> grind -ring -linarith [Flags]
  · constructor <;> grind -ring -linarith [Checks]
  · constructor <;> grind -ring -linarith [Waits, State.Covers]

theorem Live.resume (h : Live (s, o)) (hphase : s.phase = .waiting) :
    Live ({ s with phase := .looping }, o) := by
  obtain ⟨hf, hc, hw⟩ := h
  constructor
  · constructor <;> grind -ring -linarith [Flags]
  · constructor <;> grind -ring -linarith [Checks]
  · constructor <;> grind -ring -linarith [Waits, State.Covers]

theorem Live.crash (h : Live (s, o)) (hphase : s.phase = .looping) :
    Live ({ s with phase := .leaving }, o) := by
  obtain ⟨hf, hc, hw⟩ := h
  constructor
  · constructor <;> grind -ring -linarith [Flags]
  · constructor <;> grind -ring -linarith [Checks]
  · constructor <;> grind -ring -linarith [Waits, State.Covers]

/-- The coordinator takes the wake with it, or waits with nothing requested. -/
theorem Live.idleTurn (h : Live (s, o)) (hphase : s.phase = .looping) (due : Bool)
    (hstop : s.stopRequested = false) : Live (s.idleTurn due, o) := by
  obtain ⟨hf, hc, hw⟩ := h
  constructor
  · constructor <;> grind -ring -linarith [Flags, State.idleTurn]
  · constructor <;> grind -ring -linarith [Checks, State.idleTurn]
  · constructor <;> grind -ring -linarith [Waits, State.Covers, State.idleTurn]

theorem Live.beginPass (h : Live (s, o)) (hphase : s.phase = .calling)
    (hstop : s.stopRequested = false) : Live (s.beginPass, o.next cfg s .beginPass) := by
  obtain ⟨hf, hc, hw⟩ := h
  constructor
  · constructor <;> grind -ring -linarith [Flags, State.beginPass]
  · constructor <;> grind -ring -linarith [Checks, State.beginPass]
  · constructor <;> grind -ring -linarith [Waits, Flags, Owed.next, State.Covers, State.beginPass]

theorem Live.prepare (h : Live (s, o)) (hphase : s.phase = .preparing) (safe : Bool) :
    Live (s.prepare cfg safe, o) := by
  obtain ⟨hf, hc, hw⟩ := h
  constructor
  · constructor <;> grind -ring -linarith [Flags, State.prepare]
  · constructor <;> grind -ring -linarith [Checks, State.prepare]
  · constructor <;> grind -ring -linarith [Waits, State.Covers, State.prepare]

theorem Live.find (h : Live (s, o)) (hphase : s.phase = .listing found) (delayed : Bool) :
    Live (s.find cfg r found delayed, o) := by
  obtain ⟨hf, hc, hw⟩ := h
  constructor
  · constructor <;> grind -ring -linarith [Flags, State.find]
  · constructor <;> grind -ring -linarith [Checks, State.find]
  · constructor <;> grind -ring -linarith [Waits, State.Covers, State.find]

/-- The inventory takes over every request that is eligible: its check is to come and is
no observation. -/
theorem Live.inventory (h : Live (s, o)) (hphase : s.phase = .listing found) :
    Live (s.inventory found, o.next cfg s .inventory) := by
  obtain ⟨hf, hc, hw⟩ := h
  constructor
  · constructor <;> grind -ring -linarith [Flags, State.inventory]
  · constructor <;> grind -ring -linarith [Checks, State.inventory]
  · constructor <;> grind -ring -linarith [Waits, Flags, Owed.next, State.Covers, State.inventory, State.ineligible]

theorem Live.submit (h : Live (s, o)) (hphase : s.phase = .submitting todo futures)
    (hr : r ∈ todo) (hok : r ∈ s.inflight → r ∉ o.checks) (hstop : s.stopRequested = false) :
    Live (s.submit r todo futures, o) := by
  obtain ⟨hf, hc, hw⟩ := h
  constructor
  · constructor <;> grind -ring -linarith [Flags, State.submit]
  · constructor <;> grind -ring -linarith [Checks, State.submit]
  · constructor <;> grind -ring -linarith [Waits, State.Covers, State.submit]

theorem Live.handOver (h : Live (s, o)) (hphase : s.phase = .handing r todo futures) :
    Live (s.handOver r todo futures, o) := by
  obtain ⟨hf, hc, hw⟩ := h
  have hfresh := hc.fresh r (by grind -ring -linarith)
  constructor
  · constructor <;> grind -ring -linarith [Flags, State.handOver]
  · constructor <;> grind -ring -linarith [Checks, State.handOver]
  · constructor <;> grind -ring -linarith [Waits, State.Covers, State.handOver]

theorem Live.submitted (h : Live (s, o)) (hphase : s.phase = .submitting ∅ futures) :
    Live ({ s with phase := .collecting futures }, o) := by
  obtain ⟨hf, hc, hw⟩ := h
  constructor
  · constructor <;> grind -ring -linarith [Flags]
  · constructor <;> grind -ring -linarith [Checks]
  · constructor <;> grind -ring -linarith [Waits, State.Covers]

theorem Live.collect (h : Live (s, o)) (hphase : s.phase = .collecting pending) {enabled : Bool}
    (hdone : s.check r = .done enabled) :
    Live ({ s with phase := .recording r (pending.erase r) }, o) := by
  obtain ⟨hf, hc, hw⟩ := h
  constructor
  · constructor <;> grind -ring -linarith [Flags]
  · constructor <;> grind -ring -linarith [Checks]
  · constructor <;> grind -ring -linarith [Waits, State.Covers]

theorem Live.record (h : Live (s, o)) (hphase : s.phase = .recording r pending) :
    Live (s.record r pending, o) := by
  obtain ⟨hf, hc, hw⟩ := h
  constructor
  · constructor <;> grind -ring -linarith [Flags, State.record]
  · constructor <;> grind -ring -linarith [Checks, State.record]
  · constructor <;> grind -ring -linarith [Waits, State.Covers, State.record]

theorem Live.drained (h : Live (s, o)) (hphase : s.phase = .collecting ∅) :
    Live ({ s with phase := .closing }, o) := by
  obtain ⟨hf, hc, hw⟩ := h
  constructor
  · constructor <;> grind -ring -linarith [Flags]
  · constructor <;> grind -ring -linarith [Checks]
  · constructor <;> grind -ring -linarith [Waits, State.Covers]

/-- A pass that an exception ends leaves what waits in `_requested_recipes`. -/
theorem Live.close (h : Live (s, o)) {passRecipes inflight : Finset RecipeId}
    (hpass : s.phase.inPass = true)
    (hflight : ∀ q, q ∈ inflight ↔ (s.check q).live = true)
    (hwaits : o.checks ⊆ s.requestedRecipes)
    (htaken : s.followup = true → s.requestedRecipes = ∅) :
    Live ({ s with passRecipes := passRecipes, inflight := inflight, phase := .closing }, o) := by
  obtain ⟨hf, hc, hw⟩ := h
  constructor
  · constructor <;> grind -ring -linarith [Flags]
  · constructor <;> grind -ring -linarith [Checks]
  · constructor
    · grind -ring -linarith [Waits]
    · grind -ring -linarith [Waits]
    · grind -ring -linarith
    · exact fun _ => htaken
    · exact fun q hq => .inl (hwaits hq)
    · exact hw.unobserved

theorem Live.refuse (h : Live (s, o)) (hphase : s.phase = .handing r todo futures)
    (hok : Benign cfg (s, o) .refuse) (hstop : s.stopRequested = false) :
    Live (s.refuse r futures, o) := by
  obtain ⟨hwaits, htaken⟩ := hok hstop
  have hflight : ∀ q, q ∈ s.inflight.erase r ↔ (s.check q).live = true := by
    have hc := h.checks
    grind -ring -linarith [Checks]
  have hclose : s.refuse r futures =
      { s with passRecipes := s.passRecipes, inflight := s.inflight.erase r, phase := .closing } := by
    simp [State.refuse, hstop]
  rw [hclose]
  exact h.close (by grind -ring -linarith) hflight hwaits htaken

theorem Live.raise (h : Live (s, o)) (hpass : s.phase.inPass = true) (hhanded : s.phase.handed = none)
    (hok : Benign cfg (s, o) .raise) (hstop : s.stopRequested = false) : Live (s.raise, o) := by
  obtain ⟨hwaits, htaken⟩ := hok hstop
  have hflight : ∀ q, q ∈ s.inflight ↔ (s.check q).live = true := by
    have hc := h.checks
    grind -ring -linarith [Checks]
  unfold State.raise
  split
  · exact h.close hpass hflight hwaits htaken
  · exact h.close hpass hflight hwaits htaken

theorem Live.finishPass (h : Live (s, o)) (hphase : s.phase = .closing) :
    Live (s.finishPass, o) := by
  obtain ⟨hf, hc, hw⟩ := h
  constructor
  · constructor <;> grind -ring -linarith [Flags, State.finishPass]
  · constructor <;> grind -ring -linarith [Checks, State.finishPass]
  · constructor <;> grind -ring -linarith [Waits, State.Covers, State.finishPass]

/-- After a pass, whatever came during it leads to a follow-up pass; after a follow-up pass
nothing has come. -/
theorem Live.afterPass (h : Live (s, o)) (hphase : s.phase = .returned)
    (hstop : s.stopRequested = false) : Live (s.afterPass, o) := by
  obtain ⟨hf, hc, hw⟩ := h
  constructor
  · constructor <;> grind -ring -linarith [Flags, State.afterPass]
  · constructor <;> grind -ring -linarith [Checks, State.afterPass]
  · constructor <;> grind -ring -linarith [Waits, State.Covers, State.afterPass]

theorem Live.leave (h : Live (s, o)) (hphase : s.phase = .leaving) : Live (s.leave, o) := by
  obtain ⟨hf, hc, hw⟩ := h
  constructor
  · constructor <;> grind -ring -linarith [Flags, State.leave]
  · constructor <;> grind -ring -linarith [Checks, State.leave]
  · constructor <;> grind -ring -linarith [Waits, State.Covers, State.leave]

/-! ## Workers -/

theorem Live.enter (h : Live (s, o)) (hcheck : s.check r = .queued) :
    Live (s.setCheck r .entered, o) := by
  obtain ⟨hf, hc, hw⟩ := h
  constructor
  · constructor <;> grind -ring -linarith [Flags, State.setCheck]
  · constructor <;> grind -ring -linarith [Checks, State.setCheck]
  · constructor <;> grind -ring -linarith [Waits, State.Covers, State.setCheck]

theorem Live.decide (h : Live (s, o)) (hcheck : s.check r = .entered) :
    Live (s.setCheck r (.decided (s.checksAllowed && r ∉ s.observationOnly)), o) := by
  obtain ⟨hf, hc, hw⟩ := h
  constructor
  · constructor <;> grind -ring -linarith [Flags, State.setCheck]
  · constructor <;> grind -ring -linarith [Checks, State.setCheck]
  · constructor <;> grind -ring -linarith [Waits, State.Covers, State.setCheck]

theorem Live.admitRun (h : Live (s, o)) {allowed : Bool} (hcheck : s.check r = .decided allowed) :
    Live (s.setCheck r (.checking (allowed && s.admissionOpen)), o.next cfg s (.admitRun r)) := by
  obtain ⟨hf, hc, hw⟩ := h
  constructor
  · constructor <;> grind -ring -linarith [Flags, State.setCheck]
  · constructor <;> grind -ring -linarith [Checks, State.setCheck]
  · constructor <;> grind -ring -linarith [Waits, Owed.next, State.Covers, State.setCheck]

theorem Live.land (h : Live (s, o)) {enabled : Bool} (hcheck : s.check r = .checking enabled) :
    Live (s.land r enabled, o) := by
  obtain ⟨hf, hc, hw⟩ := h
  constructor
  · constructor <;> grind -ring -linarith [Flags, State.land]
  · constructor <;> grind -ring -linarith [Checks, State.land]
  · constructor <;> grind -ring -linarith [Waits, State.Covers, State.land]

theorem Live.complete (h : Live (s, o)) {enabled : Bool} (hcheck : s.check r = .left enabled) :
    Live (s.setCheck r (.done enabled), o) := by
  obtain ⟨hf, hc, hw⟩ := h
  constructor
  · constructor <;> grind -ring -linarith [Flags, State.setCheck]
  · constructor <;> grind -ring -linarith [Checks, State.setCheck]
  · constructor <;> grind -ring -linarith [Waits, State.Covers, State.setCheck]

end DebBuilder.Scheduler
