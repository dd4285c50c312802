import Mathlib
import DebBuilder.Scheduler.Safety

/-!
# Accepted requests

In the runs whose steps are all `Benign`, the coordinator goes to its idle wait with
nothing requested, with no wake that a pass has not answered, and with no check owed; and
a request that is coalesced with the current pass joins a check of its Recipe that is no
observation.  The four other steps lose requests: a run shows one, in which a request is
accepted just after a follow-up pass.

## Main results

* `accepted_requests_kept` — no request is lost in the benign runs.
* `accepted_request_forgotten` — a run that loses one.
-/

namespace DebBuilder.Scheduler
open Lib

variable {cfg : Config} {s s' : State} {o o' : Owed} {r : RecipeId} {a : Action}

/-! ## Runs -/

/-- A stop is final. -/
theorem stop_stays (hstep : step cfg s a = some s') (hstop : s.stopRequested = true) :
    s'.stopRequested = true := by
  have hcoordinate : coordinate cfg s a = some s' → s'.stopRequested = true := by
    intro h
    unfold coordinate at h
    split at h
    all_goals grind -ring -linarith [State.idleTurn, State.beginPass, State.prepare, State.find, State.inventory,
      State.submit, State.handOver, State.refuse, State.record, State.raise, State.finishPass,
      State.afterPass, State.leave]
  have hwork : work s a = some s' → s'.stopRequested = true := by
    intro h
    unfold work at h
    split at h
    all_goals grind -ring -linarith [State.setCheck, State.land]
  unfold step at hstep
  split at hstep
  all_goals grind -ring -linarith [State.request, State.requestOrchestration, State.requestRecipe,
    State.requestObservation, State.wake, State.queue, State.supersede, State.stop,
    Option.or_eq_some_iff]

/-- The coordinator keeps the invariant. -/
theorem live_coordinate (h : Live (s, o)) (hok : Benign cfg (s, o) a)
    (hstop : s.stopRequested = false) (hstep : coordinate cfg s a = some s') :
    Live (s', o.next cfg s a) := by
  cases a <;> simp only [coordinate, Option.ite_none_right_eq_some, Option.some.injEq,
    reduceCtorEq] at hstep
  case start =>
    obtain ⟨hphase, rfl⟩ := hstep
    exact h.start hphase
  case idleTurn due =>
    obtain ⟨hphase, rfl⟩ := hstep
    exact h.idleTurn hphase due hstop
  case crash =>
    obtain ⟨hphase, rfl⟩ := hstep
    exact h.crash hphase
  case resume =>
    obtain ⟨hphase, rfl⟩ := hstep
    exact h.resume hphase
  case beginPass =>
    obtain ⟨hphase, rfl⟩ := hstep
    exact h.beginPass hphase hstop
  case prepare safe =>
    obtain ⟨hphase, rfl⟩ := hstep
    exact h.prepare hphase safe
  case finishPass =>
    obtain ⟨hphase, rfl⟩ := hstep
    exact h.finishPass hphase
  case afterPass =>
    obtain ⟨hphase, rfl⟩ := hstep
    exact h.afterPass hphase hstop
  case leave =>
    obtain ⟨hphase, rfl⟩ := hstep
    exact h.leave hphase
  -- the other blocks have locals, which the phase holds
  case find r delayed =>
    split at hstep <;> simp only [Option.ite_none_left_eq_some, Option.some.injEq,
      reduceCtorEq] at hstep
    next found hphase =>
      obtain ⟨-, rfl⟩ := hstep
      exact h.find hphase delayed
  case inventory =>
    split at hstep <;> simp only [Option.some.injEq, reduceCtorEq] at hstep
    next found hphase =>
      subst hstep
      exact h.inventory hphase
  case submit r =>
    split at hstep <;> simp only [Option.ite_none_right_eq_some, Option.some.injEq,
      reduceCtorEq] at hstep
    next todo futures hphase =>
      obtain ⟨hr, rfl⟩ := hstep
      exact h.submit hphase hr (fun hin => hok hin hstop) hstop
  case handOver =>
    split at hstep <;> simp only [Option.some.injEq, reduceCtorEq] at hstep
    next r todo futures hphase =>
      subst hstep
      exact h.handOver hphase
  case refuse =>
    split at hstep <;> simp only [Option.some.injEq, reduceCtorEq] at hstep
    next r todo futures hphase =>
      subst hstep
      exact h.refuse hphase hok hstop
  case submitted =>
    split at hstep <;> simp only [Option.ite_none_right_eq_some, Option.some.injEq,
      reduceCtorEq] at hstep
    next todo futures hphase =>
      obtain ⟨rfl, rfl⟩ := hstep
      exact h.submitted hphase
  case collect r =>
    split at hstep <;> simp only [Option.ite_none_right_eq_some, Option.some.injEq,
      reduceCtorEq] at hstep
    next pending enabled hphase hdone =>
      obtain ⟨-, rfl⟩ := hstep
      exact h.collect hphase hdone
  case record =>
    split at hstep <;> simp only [Option.some.injEq, reduceCtorEq] at hstep
    next r pending hphase =>
      subst hstep
      exact h.record hphase
  case drained =>
    split at hstep <;> simp only [Option.ite_none_right_eq_some, Option.some.injEq,
      reduceCtorEq] at hstep
    next pending hphase =>
      obtain ⟨hpending, rfl⟩ := hstep
      obtain rfl : pending = ∅ := hpending.resolve_right (by simp [hstop])
      exact h.drained hphase
  case raise =>
    have hraise : s.phase.inPass = true ∧ s.phase.handed = none ∧ s' = s.raise := by
      split at hstep <;> grind -ring -linarith
    obtain ⟨hpass, hhanded, rfl⟩ := hraise
    exact h.raise hpass hhanded hok hstop

/-- The workers keep the invariant. -/
theorem live_work (h : Live (s, o)) (hstop : s.stopRequested = false)
    (hstep : work s a = some s') : Live (s', o.next cfg s a) := by
  cases a <;> simp only [work, Option.ite_none_right_eq_some, Option.some.injEq,
    reduceCtorEq] at hstep
  case enter r =>
    obtain ⟨hcheck, rfl⟩ := hstep
    rw [if_neg (by simp [hstop])]
    exact h.enter hcheck
  case decide r =>
    obtain ⟨hcheck, rfl⟩ := hstep
    exact h.decide hcheck
  case cancel r =>
    simp [hstop] at hstep
  case admitRun r =>
    split at hstep <;> simp only [Option.some.injEq, reduceCtorEq] at hstep
    next allowed hcheck =>
      subst hstep
      exact h.admitRun hcheck
  case land r =>
    split at hstep <;> simp only [Option.some.injEq, reduceCtorEq] at hstep
    next enabled hcheck =>
      subst hstep
      exact h.land hcheck
  case complete r =>
    split at hstep <;> simp only [Option.some.injEq, reduceCtorEq] at hstep
    next enabled hcheck =>
      subst hstep
      exact h.complete hcheck

/-- A benign step keeps the invariant. -/
theorem live_step (h : Live (s, o)) (hok : Benign cfg (s, o) a)
    (hstop : s.stopRequested = false) (hstep : step cfg s a = some s')
    (hstop' : s'.stopRequested = false) : Live (s', o.next cfg s a) := by
  cases a <;> simp only [step, Option.some.injEq, Option.or_eq_some_iff] at hstep
  case request => exact hstep ▸ h.request hok hstop
  case requestOrchestration => exact hstep ▸ h.requestOrchestration hok hstop
  case requestRecipe r => exact hstep ▸ h.requestRecipe hok hstop
  case requestObservation r => exact hstep ▸ h.requestObservation hok hstop
  case closeGate => exact hstep ▸ h.closeGate
  case closeAdmission => exact hstep ▸ h.closeAdmission
  case stop =>
    simp only [Option.ite_none_left_eq_some, Option.some.injEq] at hstep
    obtain ⟨-, rfl⟩ := hstep
    simp [State.stop] at hstop'
  all_goals
    rcases hstep with hstep | ⟨-, hstep⟩
    · exact live_coordinate h hok hstop hstep
    · exact live_work h hstop hstep

/-- The invariant holds in every state of every benign run. -/
theorem inv_of_reach {p : State × Owed} (h : (audited cfg).Reach (Benign cfg) p) : Inv p := by
  refine h.inv ?_ ?_
  · intro _
    constructor
    · constructor <;> simp [audited, Machine.recording, scheduler, newScheduler, Phase.inPass,
        Phase.working]
    · constructor <;> simp [audited, Machine.recording, scheduler, newScheduler, Phase.todo,
        Phase.handed, Phase.futures, Phase.working, Check.live]
    · constructor <;> simp [audited, Machine.recording, scheduler, newScheduler, Phase.inPass,
        Phase.working]
  · rintro ⟨s, o⟩ a ⟨s', o'⟩ hinv hok hstep hstop'
    obtain ⟨hstep, rfl⟩ := Machine.recording_step.1 hstep
    have hstop : s.stopRequested = false := by
      by_contra hstop
      have hstays := stop_stays hstep (by simpa using hstop)
      exact Bool.false_ne_true (hstop'.symm.trans hstays)
    exact live_step (hinv hstop) hok hstop hstep hstop'

/-! ## What is owed -/

/-- An accepted `request_recipe` is owed a check, unless what it joins answers it. -/
theorem owed_of_accepted {created : Bool} (hok : (s.requestRecipe cfg r).1 = .ok created) :
    r ∈ (o.next cfg s (.requestRecipe r)).checks ∨
      created = false ∧ r ∉ s.requestedRecipes ∧ s.answered r = true := by
  simp only [Owed.next, hok]
  split
  · right
    grind -ring -linarith
  · exact .inl (Finset.mem_insert_self r _)

/-- An owed check is made: the worker of the Recipe was allowed automation decisions, or
there was a stop, or an inventory found that the Recipe is not eligible. -/
theorem owed_until (hr : r ∈ o.checks) (hgone : r ∉ (o.next cfg s a).checks) :
    a = .stop ∨ (a = .admitRun r ∧ s.check r = .decided true) ∨
      (a = .inventory ∧ ∃ found, s.phase = .listing found ∧ s.ineligible r found = true) := by
  cases a <;> grind -ring -linarith [Owed.next]

/-! ## Requests are kept -/

/-- What a coalesced request joins: the checks of the pass make no automation decisions,
or the check of the Recipe makes them, or it is still to come and is no observation. -/
def State.Joins (s : State) (r : RecipeId) : Prop := s.answered r = true ∨ s.Covers r

instance (s : State) : Decidable s.Idle := inferInstanceAs (Decidable (_ ∧ _ ∧ _))

/-- No accepted request is lost. -/
def Kept (cfg : Config) (p : State × Owed) : Prop :=
  (p.1.Idle → p.1.requestedRecipes = ∅ ∧ p.2 = ⟨false, ∅⟩) ∧
    ∀ r, Benign cfg p (.requestRecipe r) → (p.1.requestRecipe cfg r).1 = .ok false →
      r ∉ p.1.requestedRecipes → (p.1.requestRecipe cfg r).2.Joins r

/-- In a benign run the coordinator idles with no accepted request left, and a request is
coalesced with the current pass only when it joins a check that is no observation. -/
theorem accepted_requests_kept {p : State × Owed} (h : (audited cfg).Reach (Benign cfg) p) :
    Kept cfg p := by
  obtain ⟨s, o⟩ := p
  have hinv := inv_of_reach h
  constructor
  · rintro ⟨(hphase : s.phase = .waiting), (hwake : s.wakeRequested = false), hstop⟩
    have hw : Waits s o := (hinv hstop).waits
    have hnone : s.requestedRecipes = ∅ := by
      by_contra hsome
      simp [hw.requested (by simp [hphase]) (Finset.nonempty_iff_ne_empty.2 hsome)] at hwake
    have hpass : o.pass = false := by
      by_contra hpass
      simpa [hwake, hphase] using hw.woken (by simpa using hpass)
    have hchecks : o.checks = ∅ := by
      refine Finset.eq_empty_of_forall_notMem fun r hr => ?_
      rcases hw.owed r hr with hmem | hcov
      · simp [hnone] at hmem
      · have hlisted := hcov.listed
        simp [hphase, Phase.todo, Phase.handed, Phase.futures] at hlisted
    refine ⟨hnone, ?_⟩
    cases o
    simp_all
  · intro r hok hcreated hnew
    rcases requestRecipe_cases cfg s r with ⟨e, heq⟩ | ⟨heq, hav, hen, hopen, hexists⟩ |
        ⟨heq, -⟩
    · simp [heq] at hcreated
    · have hstop : s.stopRequested = false := by
        unfold State.available at hav
        grind -ring -linarith
      obtain ⟨hours, hlate⟩ := (hok hav hen hopen).2 hexists hnew
      simp only [heq]
      exact joined_covers (hinv hstop) hopen hexists hnew hours hlate
    · simp [heq] at hcreated

instance (cfg : Config) (p : State × Owed) (a : Action) : Decidable (Benign cfg p a) :=
  match a with
  | .request => inferInstanceAs (Decidable (p.1.inWindow = false))
  | .requestOrchestration =>
      inferInstanceAs (Decidable (p.1.available = true → p.1.inWindow = false))
  | .requestRecipe r =>
      inferInstanceAs (Decidable (p.1.available = true → cfg.enabled = true →
        p.1.admissionOpen = true → p.1.inWindow = false ∧
          (p.1.checkExists r = true → r ∉ p.1.requestedRecipes →
            p.1.leftOver r = false ∧ p.1.tooLate r = false)))
  | .requestObservation r =>
      inferInstanceAs (Decidable (p.1.available = true → p.1.inWindow = false ∧
        (p.1.lateFollowup = true → p.1.observationExists r = true)))
  | .submit r =>
      inferInstanceAs (Decidable (r ∈ p.1.inflight → p.1.stopRequested = false →
        r ∉ p.2.checks))
  | .raise | .refuse =>
      inferInstanceAs (Decidable (p.1.stopRequested = false →
        p.2.checks ⊆ p.1.requestedRecipes ∧
          (p.1.followup = true → p.1.requestedRecipes = ∅)))
  | .start | .closeGate | .closeAdmission | .stop | .idleTurn _ | .resume | .crash | .beginPass
  | .prepare _ | .find _ _ | .inventory | .handOver | .submitted | .collect _ | .record
  | .drained | .finishPass | .afterPass | .leave | .enter _ | .decide _ | .admitRun _ | .land _
  | .complete _ | .cancel _ => isTrue trivial

/-- The settings of the sample runs. -/
def sampleConfig : Config := ⟨10000, true⟩

/-- A pass that finds no Recipe, from its start to the block after it. -/
def emptyPass : List Action :=
  [.idleTurn false, .beginPass, .prepare true, .inventory, .submitted, .drained, .finishPass]

/-- A requested Recipe is checked before the coordinator idles again. -/
theorem accepted_requests_kept_checked :
    ∃ p, (audited sampleConfig).Reach (Benign sampleConfig) p ∧ p.1.Idle ∧
      p.1.check "demo" = .done true ∧ Kept sampleConfig p := by
  have hrun : ((audited sampleConfig).run (fun p a => decide (Benign sampleConfig p a))
      (audited sampleConfig).start
      [.start, .requestRecipe "demo", .idleTurn false, .beginPass, .prepare true,
        .find "demo" false, .inventory, .submit "demo", .handOver, .submitted, .enter "demo",
        .decide "demo", .admitRun "demo", .land "demo", .complete "demo", .collect "demo", .record,
        .drained, .finishPass, .afterPass, .idleTurn false]).any
      (fun p => p.1.Idle ∧ p.1.check "demo" = .done true) = true := by rfl
  simp only [Option.any_eq_true, decide_eq_true_eq] at hrun
  obtain ⟨p, hp, hidle, hcheck⟩ := hrun
  have hreach := Machine.Reach.start.run (fun p a h => by simpa using h) hp
  exact ⟨p, hreach, hidle, hcheck, accepted_requests_kept hreach⟩

/-- Just after a follow-up pass a wake and a Recipe are accepted, and the coordinator idles
with both forgotten. -/
theorem accepted_request_forgotten :
    ¬ ∀ p, (audited sampleConfig).Reach (fun _ _ => True) p →
      p.1.Idle → p.1.requestedRecipes = ∅ ∧ p.2 = ⟨false, ∅⟩ := by
  have hrun : ((audited sampleConfig).run (fun _ _ => true) (audited sampleConfig).start
      ([Action.start] ++ emptyPass.take 2 ++ [Action.request] ++ emptyPass.drop 2 ++ [Action.afterPass] ++
        emptyPass ++ [Action.request, .requestRecipe "demo", .afterPass, .idleTurn false])).any
      (fun p => p.1.Idle ∧ p.1.requestedRecipes = {"demo"} ∧ p.2.pass = true) = true := by rfl
  simp only [Option.any_eq_true, decide_eq_true_eq] at hrun
  obtain ⟨p, hp, hidle, hleft, -⟩ := hrun
  intro h
  have hreach := Machine.Reach.start.run (fun _ _ _ => trivial) hp
  simpa [hleft] using (h p hreach hidle).1

end DebBuilder.Scheduler
