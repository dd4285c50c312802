import Mathlib
import DebBuilder.Lifecycle.Gate

/-!
# Quiescence of the durable mutations

Over every run of the gate: the count is that of the leases, no durable mutation runs without one,
and when the main thread has left the gate behind, none runs and none will.  A shutdown that has
begun to wait can always end.

## Main definitions

* `Allowed` — what must have happened before an event.
* `Consistent` — what holds in every state of a run.

## Main results

* `gate_quiesces` — the guarantees of the gate, over every run of the application.
-/

namespace DebBuilder.Lifecycle
open Lib

variable {routes : List Route} {handlers : Option (String → Bool)} {s s' : State} {p q : Point} {a : Action}
  {threads : List Place} {place old : Place} {thread : Nat} {history events : List Event}

/-! ## Places of the threads -/

@[simp] theorem leased_idle : Place.idle.leased = false := rfl

theorem countP_set_add (place : Place) (hold : threads[thread]? = some old) :
    (threads.set thread place).countP Place.leased + (if old.leased then 1 else 0) =
      threads.countP Place.leased + (if place.leased then 1 else 0) := by
  induction threads generalizing thread with
  | nil => simp at hold
  | cons first threads ih =>
      cases thread with
      | zero =>
          obtain rfl : first = old := by simpa using hold
          simp only [List.set_cons_zero, List.countP_cons]
          omega
      | succ thread =>
          have htail := ih (by simpa using hold)
          simp only [List.set_cons_succ, List.countP_cons]
          omega

theorem countP_pos_of_leased (hold : threads[thread]? = some old) (hleased : old.leased = true) : 0 < threads.countP Place.leased :=
  List.countP_pos_iff.2 ⟨old, List.mem_of_getElem? hold, hleased⟩

/-- The thread has a lease. -/
def Holds (threads : List Place) (thread : Nat) : Prop := ∃ place, threads[thread]? = some place ∧ place.leased = true

theorem holds_iff (hold : threads[thread]? = some old) : Holds threads thread ↔ old.leased = true := by simp [Holds, hold]

theorem holds_set_self (hold : threads[thread]? = some old) : Holds (threads.set thread place) thread ↔ place.leased = true := by
  have hlt : thread < threads.length := (List.getElem?_eq_some_iff.1 hold).1
  simp [Holds, hlt]

theorem holds_set_of_ne {other : Nat} (hne : other ≠ thread) : Holds (threads.set thread place) other ↔ Holds threads other := by
  simp [Holds, List.getElem?_set_ne hne.symm]

theorem holds_append_idle {other : Nat} : Holds (threads ++ [.idle]) other ↔ Holds threads other := by
  constructor
  · rintro ⟨place, hplace, hleased⟩
    refine ⟨place, ?_, hleased⟩
    rcases Nat.lt_trichotomy other threads.length with hlt | heq | hgt
    · rwa [List.getElem?_append_left hlt] at hplace
    · obtain rfl : Place.idle = place := by simpa [heq] using hplace
      cases hleased
    · rw [List.getElem?_eq_none (by simp; omega)] at hplace
      cases hplace
  · rintro ⟨place, hplace, hleased⟩
    have hlt : other < threads.length := (List.getElem?_eq_some_iff.1 hplace).1
    exact ⟨place, by rwa [List.getElem?_append_left hlt], hleased⟩

/-! ## Steps -/

/-- What a step does. -/
inductive Move (s : State) : State → List Event → Prop
  | spawn : Move s { s with threads := s.threads ++ [.idle] } []
  | enter (thread : Nat) (place : Place) : s.threads[thread]? = some .idle → s.accepting = true → place.leased = true →
      Move s { s with active := s.active + 1, threads := s.threads.set thread place } [.admitted thread]
  | refuse (thread : Nat) : s.accepting = false → Move s s [.refused thread]
  /-- A thread goes on without a lease. -/
  | free (thread : Nat) (old place : Place) : s.threads[thread]? = some old → old.leased = false → place.leased = false →
      place.durable = false → Move s { s with threads := s.threads.set thread place } []
  | release (thread : Nat) (old : Place) : s.threads[thread]? = some old → old.leased = true →
      Move s (s.release thread) [.released thread]
  | close : Move s s.beginShutdown [.closed]
  | stop : s.main = .serving → Move s { s.beginShutdown with main := .closed } [.closed]
  | turn (main : Main) : s.main ≠ .serving → (∀ report, s.main ≠ .drained report) → main ≠ .serving →
      (∀ report, main ≠ .drained report) → (∀ deadline, main = .asleep deadline → s.active ≠ 0) → Move s { s with main := main } []
  | drain (deadline : Option ℚ) : s.main = .testing deadline → s.active = 0 →
      Move s { s with main := .drained (s.report deadline) } [.reported (s.report deadline)]
  | again (deadline : ℚ) : s.main = .testing (some deadline) → s.active ≠ 0 →
      Move s { s with main := .testing none } [.reported (s.report (some deadline))]

theorem durable_of_takesLease {method path : String} (hvalid : validateRoutes routes handlers = .ok ())
    (h : takesLease method (routeOf routes method path) = false) :
    (Place.handling method (routeOf routes method path) false).durable = false := by
  cases hmatch : matchRoute method path routes with
  | none => simp [routeOf, hmatch, Place.durable]
  | some found =>
      obtain ⟨route, bound⟩ := found
      have hread := (matched_of_matchRoute (valid_of_validateRoutes hvalid) hmatch).readOnly
      simp only [routeOf, hmatch, Option.map_some, takesLease, Place.durable, Option.any_some] at h ⊢
      by_cases hget : method = "GET"
      · simp [hread.1 hget]
      · simpa [hget] using h

theorem move_of_lease (hidle : s.threads[thread]? = some .idle) (hleased : place.leased = true) :
    Move s (s.lease thread place) [if s.accepting then .admitted thread else .refused thread] := by
  cases haccepting : s.accepting with
  | true => simpa [State.lease, haccepting] using Move.enter thread place hidle haccepting hleased
  | false => simpa [State.lease, haccepting] using Move.refuse thread haccepting

theorem move_of_test {deadline : Option ℚ} {now : ℚ} (hmain : s.main = .testing deadline) :
    Move s (s.test deadline now)
      (if s.active ≠ 0 ∧ ¬ deadline.any (· ≤ now) then none else some (Event.reported (s.report deadline))).toList := by
  unfold State.test
  by_cases hsleep : s.active ≠ 0 ∧ ¬ deadline.any (· ≤ now)
  · rw [if_pos hsleep, if_pos hsleep]
    exact .turn _ (by simp [hmain]) (by simp [hmain]) (by simp) (by simp) fun _ _ => hsleep.1
  rw [if_neg hsleep, if_neg hsleep]
  by_cases hactive : s.active = 0
  · cases deadline with
    | none => exact .drain none hmain hactive
    | some deadline => simpa [State.report, hactive] using Move.drain (some deadline) hmain hactive
  · cases deadline with
    | none => simp [hactive] at hsleep
    | some deadline => simpa [State.report, hactive] using Move.again deadline hmain hactive

theorem move_of_act (hvalid : validateRoutes routes handlers = .ok ()) (h : act routes s a = some s') :
    Move s s' (eventOf routes s a).toList := by
  cases a with
  | spawn =>
      cases h
      exact .spawn
  | request thread method path =>
      obtain ⟨hidle, heq⟩ := Option.ite_none_right_eq_some.1 h
      cases heq
      cases htakes : takesLease method (routeOf routes method path) with
      | true => simpa [State.request, eventOf, htakes] using move_of_lease hidle rfl
      | false =>
          have hdurable := durable_of_takesLease hvalid htakes
          simpa [State.request, eventOf, htakes] using Move.free thread .idle _ hidle rfl rfl hdurable
  | lease thread =>
      obtain ⟨hidle, heq⟩ := Option.ite_none_right_eq_some.1 h
      cases heq
      exact move_of_lease hidle rfl
  | leave thread =>
      simp only [act] at h
      split at h
      · next place hplace =>
        obtain ⟨-, heq⟩ := Option.ite_none_left_eq_some.1 h
        cases heq
        cases hleased : place.leased with
        | true => simpa [State.leave, eventOf, hplace, hleased] using Move.release thread place hplace hleased
        | false => simpa [State.leave, eventOf, hplace, hleased] using Move.free thread place .idle hplace hleased rfl rfl
      · cases h
  | signal =>
      cases h
      exact .close
  | stop =>
      cases hmain : s.main <;> simp only [act, hmain, actMain, reduceCtorEq] at h
      cases h
      exact .stop hmain
  | wait timeout now =>
      cases hmain : s.main <;> simp only [act, hmain, actMain, reduceCtorEq] at h
      obtain ⟨-, heq⟩ := Option.ite_none_right_eq_some.1 h
      cases heq
      exact .turn _ (by simp [hmain]) (by simp [hmain]) (by simp) (by simp) (by simp)
  | wake =>
      cases hmain : s.main <;> simp only [act, hmain, actMain, reduceCtorEq] at h
      cases h
      exact .turn _ (by simp [hmain]) (by simp [hmain]) (by simp) (by simp) (by simp)
  | test now =>
      cases hmain : s.main <;> simp only [act, hmain, actMain, reduceCtorEq] at h
      cases h
      simpa only [eventOf, hmain] using move_of_test hmain

/-! ## The invariant -/

/-- What must have happened before an event. -/
def Allowed : Event → List Event → Prop
  | .admitted _, before => .closed ∉ before
  | .refused _, before => .closed ∈ before
  | .released thread, before => Since (· = .released thread) (· = .admitted thread) before
  | .closed, _ => True
  | .reported report, before =>
      .closed ∈ before ∧ report.admissionClosed = true ∧ report.complete = (report.activeMutations == 0) ∧
        report.timedOut = !report.complete

structure Consistent (p : Point) : Prop where
  counted : p.1.active = p.1.threads.countP Place.leased
  durable : ∀ place ∈ p.1.threads, place.durable = true → place.leased = true
  held : ∀ thread, Holds p.1.threads thread ↔ Since (· = .released thread) (· = .admitted thread) p.2
  closed : p.1.accepting = false ↔ .closed ∈ p.2
  stopped : p.1.main ≠ .serving → p.1.accepting = false
  awake : ∀ deadline, p.1.main = .asleep deadline → p.1.active ≠ 0
  drained : ∀ report, p.1.main = .drained report → p.1.active = 0 ∧ report.complete = true
  lawful : Lawful Allowed p.2

theorem consistent_start : Consistent ({}, []) where
  counted := rfl
  durable := by simp
  held := by simp [Holds]
  closed := by simp
  stopped := by simp
  awake := by simp
  drained := by simp
  lawful := trivial

theorem Main.notify_ne_asleep (main : Main) (deadline : Option ℚ) : main.notify ≠ .asleep deadline := by
  cases main <;> simp [Main.notify]

theorem Main.notify_eq_drained {main : Main} {report : Report} (h : main.notify = .drained report) : main = .drained report := by
  cases main <;> simp_all [Main.notify]

theorem Main.notify_eq_serving {main : Main} (h : main.notify ≠ .serving) : main ≠ .serving := by
  rintro rfl
  exact h rfl

theorem Consistent.notMem_closed (h : Consistent p) (haccepting : p.1.accepting = true) : .closed ∉ p.2 := by
  intro hclosed
  exact Bool.eq_false_iff.1 (h.closed.2 hclosed) haccepting

theorem Consistent.serving (h : Consistent p) (haccepting : p.1.accepting = true) : p.1.main = .serving := by
  by_contra hmain
  exact Bool.eq_false_iff.1 (h.stopped hmain) haccepting

theorem Consistent.active_pos (h : Consistent p) (hold : p.1.threads[thread]? = some old) (hleased : old.leased = true) :
    0 < p.1.active := by
  rw [h.counted]
  exact_mod_cast countP_pos_of_leased hold hleased

theorem Consistent.enter (h : Consistent (s, history)) (hold : s.threads[thread]? = some .idle) (haccepting : s.accepting = true)
    (hleased : place.leased = true) :
    Consistent ({ s with active := s.active + 1, threads := s.threads.set thread place }, .admitted thread :: history) where
  counted := by
    have hcount := countP_set_add place hold
    have hcounted := h.counted
    simp only [hleased, leased_idle, Bool.false_eq_true, if_false, if_true] at hcount hcounted ⊢
    omega
  durable := by
    intro place' hmem hdurable
    rcases List.mem_or_eq_of_mem_set hmem with hmem | rfl
    · exact h.durable place' hmem hdurable
    · exact hleased
  held := by
    intro other
    by_cases hother : other = thread
    · subst hother
      simp [holds_set_self hold, hleased]
    · have hne : Event.admitted thread ≠ .admitted other := by simp [Ne.symm hother]
      simp [holds_set_of_ne hother, h.held, hne]
  closed := by simpa using h.closed
  stopped := h.stopped
  awake := by
    intro deadline hmain
    cases (h.serving haccepting).symm.trans hmain
  drained := by
    intro report hmain
    cases (h.serving haccepting).symm.trans hmain
  lawful := ⟨h.notMem_closed haccepting, h.lawful⟩

theorem Consistent.free (h : Consistent (s, history)) (hold : s.threads[thread]? = some old) (hleased : old.leased = false)
    (hfree : place.leased = false) (hdurable : place.durable = false) :
    Consistent ({ s with threads := s.threads.set thread place }, history) where
  counted := by
    have hcount := countP_set_add place hold
    have hcounted := h.counted
    simp only [hleased, hfree, Bool.false_eq_true, if_false] at hcount hcounted ⊢
    omega
  durable := by
    intro place' hmem hdurable'
    rcases List.mem_or_eq_of_mem_set hmem with hmem | rfl
    · exact h.durable place' hmem hdurable'
    · exact absurd hdurable' (Bool.eq_false_iff.1 hdurable)
  held := by
    intro other
    rw [← h.held other]
    by_cases hother : other = thread
    · subst hother
      rw [holds_set_self hold, holds_iff hold, hleased, hfree]
    · exact holds_set_of_ne hother
  closed := h.closed
  stopped := h.stopped
  awake := h.awake
  drained := h.drained
  lawful := h.lawful

theorem Consistent.release (h : Consistent (s, history)) (hold : s.threads[thread]? = some old) (hleased : old.leased = true) :
    Consistent (s.release thread, .released thread :: history) where
  counted := by
    have hcount := countP_set_add .idle hold
    have hcounted := h.counted
    simp only [State.release, hleased, leased_idle, Bool.false_eq_true, if_false, if_true] at hcount hcounted ⊢
    omega
  durable := by
    intro place hmem hdurable
    rcases List.mem_or_eq_of_mem_set hmem with hmem | rfl
    · exact h.durable place hmem hdurable
    · cases hdurable
  held := by
    intro other
    by_cases hother : other = thread
    · subst hother
      simp [State.release, holds_set_self hold, Place.leased]
    · have hne : Event.released thread ≠ .released other := by simp [Ne.symm hother]
      simp [State.release, holds_set_of_ne hother, h.held, hne]
  closed := by simpa [State.release] using h.closed
  stopped := fun hmain => h.stopped (Main.notify_eq_serving hmain)
  awake := fun deadline hmain => absurd hmain (Main.notify_ne_asleep _ deadline)
  drained := by
    intro report hmain
    have hactive := (h.drained report (Main.notify_eq_drained hmain)).1
    have hpos := h.active_pos hold hleased
    omega
  lawful := ⟨(h.held thread).1 ⟨old, hold, hleased⟩, h.lawful⟩

/-- The main thread goes on, and the leases stay as they are. -/
theorem Consistent.turn {main : Main} (h : Consistent (s, history)) (hclosed : s.accepting = false)
    (hawake : ∀ deadline, main = .asleep deadline → s.active ≠ 0)
    (hdrained : ∀ report, main = .drained report → s.active = 0 ∧ report.complete = true) :
    Consistent ({ s with main := main }, history) where
  counted := h.counted
  durable := h.durable
  held := h.held
  closed := h.closed
  stopped := fun _ => hclosed
  awake := hawake
  drained := hdrained
  lawful := h.lawful

theorem Consistent.close (h : Consistent (s, history)) : Consistent (s.beginShutdown, .closed :: history) where
  counted := h.counted
  durable := h.durable
  held := by simpa [State.beginShutdown] using h.held
  closed := by simp [State.beginShutdown]
  stopped := fun _ => rfl
  awake := fun deadline hmain => absurd hmain (Main.notify_ne_asleep _ deadline)
  drained := fun report hmain => h.drained report (Main.notify_eq_drained hmain)
  lawful := ⟨trivial, h.lawful⟩

/-- An event that tells of no lease. -/
theorem Consistent.tell {e : Event} (h : Consistent (s, history)) (hallowed : Allowed e history)
    (hadmitted : ∀ thread, e ≠ .admitted thread) (hreleased : ∀ thread, e ≠ .released thread) (hclosed : e ≠ .closed) :
    Consistent (s, e :: history) where
  counted := h.counted
  durable := h.durable
  held := by
    intro thread
    simp [h.held thread, hadmitted thread, hreleased thread]
  closed := by simpa [hclosed.symm] using h.closed
  stopped := h.stopped
  awake := h.awake
  drained := h.drained
  lawful := ⟨hallowed, h.lawful⟩

theorem Consistent.allowed_report (h : Consistent (s, history)) {deadline : Option ℚ} (hmain : s.main = .testing deadline)
    (htimed : s.active ≠ 0 → deadline.isSome = true) : Allowed (.reported (s.report deadline)) history := by
  have haccepting : s.accepting = false := h.stopped (by simp [hmain])
  refine ⟨h.closed.1 haccepting, by simp [State.report, haccepting], rfl, ?_⟩
  by_cases hactive : s.active = 0
  · simp [State.report, hactive]
  · simp [State.report, htimed hactive]

theorem Consistent.move (h : Consistent (s, history)) (hmove : Move s s' events) : Consistent (s', events ++ history) := by
  cases hmove with
  | spawn =>
      exact {
        counted := by simpa [Place.leased] using h.counted
        durable := by
          intro place hmem hdurable
          rcases List.mem_append.1 hmem with hmem | hnew
          · exact h.durable place hmem hdurable
          · obtain rfl : place = .idle := by simpa using hnew
            cases hdurable
        held := fun other => holds_append_idle.trans (h.held other)
        closed := h.closed
        stopped := h.stopped
        awake := h.awake
        drained := h.drained
        lawful := h.lawful }
  | enter thread place hidle haccepting hleased => exact h.enter hidle haccepting hleased
  | refuse thread haccepting => exact h.tell (h.closed.1 haccepting) (by simp) (by simp) (by simp)
  | free thread old place hold hleased hfree hdurable => exact h.free hold hleased hfree hdurable
  | release thread old hold hleased => exact h.release hold hleased
  | close => exact h.close
  | stop hmain => exact h.close.turn rfl (by simp) (by simp)
  | turn main hserving _ _ hdrained hawake => exact h.turn (h.stopped hserving) hawake fun report hmain => absurd hmain (hdrained report)
  | drain deadline hmain hactive =>
      have hallowed := h.allowed_report hmain fun hne => absurd hactive hne
      apply (h.tell hallowed (by simp) (by simp) (by simp)).turn (h.stopped (by simp [hmain])) (by simp)
      intro report heq
      cases heq
      exact ⟨hactive, by simp [State.report, hactive]⟩
  | again deadline hmain _ =>
      have hallowed := h.allowed_report hmain fun _ => rfl
      exact (h.tell hallowed (by simp) (by simp) (by simp)).turn (h.stopped (by simp [hmain])) (by simp) (by simp)

theorem Consistent.step (hvalid : validateRoutes routes handlers = .ok ()) (h : Consistent p)
    (hstep : (recorded routes).step p a = some q) : Consistent q := by
  obtain ⟨hact, hhistory⟩ := Machine.recording_step.1 hstep
  have hkept := h.move (move_of_act hvalid hact)
  rwa [← hhistory] at hkept

theorem Reachable.consistent (hvalid : validateRoutes routes handlers = .ok ()) (h : Reachable routes p) : Consistent p :=
  h.inv consistent_start fun _ _ _ hp _ hstep => hp.step hvalid hstep

/-! ## The end of a wait -/

/-- The main thread waits for the leases to end. -/
def State.Waiting (s : State) : Prop := ∃ deadline, s.main = .testing deadline ∨ s.main = .asleep deadline

/-- The end of a handler or a job, or a turn of the wait. -/
def Action.ends : Action → Bool
  | .leave _ => true
  | .test _ => true
  | _ => false

theorem exists_leased (h : 0 < threads.countP Place.leased) :
    ∃ (thread : Nat) (place : Place), threads[thread]? = some place ∧ place.leased = true := by
  obtain ⟨place, hmem, hleased⟩ := List.countP_pos_iff.1 h
  obtain ⟨thread, hthread⟩ := List.mem_iff_getElem?.1 hmem
  exact ⟨thread, place, hthread, hleased⟩

theorem step_leave (routes : List Route) (hold : p.1.threads[thread]? = some old) (hleased : old.leased = true) :
    (recorded routes).step p (.leave thread) = some (p.1.release thread, .released thread :: p.2) := by
  have hne : old ≠ .idle := by
    rintro rfl
    cases hleased
  refine Machine.recording_step.2 ⟨?_, ?_⟩
  · simp [gate, act, hold, hne, State.leave, hleased]
  · simp [eventOf, hold, hleased]

theorem step_test (routes : List Route) {deadline : Option ℚ} (now : ℚ) (hmain : p.1.main = .testing deadline) (hactive : p.1.active = 0) :
    ∃ q, (recorded routes).step p (.test now) = some q ∧ ∃ report, q.1.main = .drained report := by
  refine ⟨(p.1.test deadline now, _), Machine.recording_step.2 ⟨?_, rfl⟩, p.1.report deadline, ?_⟩
  · simp [gate, act, hmain, actMain]
  · cases deadline <;> simp [State.test, hactive, State.report]

/-- The leases end one after the other; the last one wakes the main thread. -/
theorem Consistent.drains (hvalid : validateRoutes routes handlers = .ok ()) (h : Consistent p) (hwaiting : p.1.Waiting) :
    ∃ actions q, (recorded routes).run (fun _ => Action.ends) p actions = some q ∧ ∃ report, q.1.main = .drained report := by
  generalize hcount : p.1.threads.countP Place.leased = n
  induction n generalizing p with
  | zero =>
      have hactive : p.1.active = 0 := by simpa [hcount] using h.counted
      obtain ⟨deadline, htesting | hasleep⟩ := hwaiting
      · obtain ⟨q, hstep, hdrained⟩ := step_test routes 0 htesting hactive
        exact ⟨[.test 0], q, by simp [Machine.run, Action.ends, hstep], hdrained⟩
      · exact absurd hactive (h.awake deadline hasleep)
  | succ n ih =>
      have hpos : 0 < p.1.threads.countP Place.leased := by omega
      obtain ⟨thread, old, hold, hleased⟩ := exists_leased hpos
      have hstep := step_leave routes hold hleased
      have hfewer : (p.1.release thread).threads.countP Place.leased = n := by
        have hset := countP_set_add .idle hold
        simp only [hleased, leased_idle, Bool.false_eq_true, if_false, if_true] at hset
        simp only [State.release]
        omega
      have hstill : (p.1.release thread).Waiting := by
        obtain ⟨deadline, hmain⟩ := hwaiting
        refine ⟨deadline, .inl ?_⟩
        rcases hmain with hmain | hmain <;> simp [State.release, hmain, Main.notify]
      obtain ⟨actions, q, hrun, hdrained⟩ := ih (h.step hvalid hstep) hstill hfewer
      exact ⟨.leave thread :: actions, q, by simpa [Machine.run, Action.ends, hstep] using hrun, hdrained⟩

/-! ## After the wait -/

/-- The states that a run can come to from one on. -/
def Later (routes : List Route) (p q : Point) : Prop := (Machine.mk p (recorded routes).step).Reach (fun _ _ => True) q

theorem Move.drained {report : Report} (hmove : Move s s' events) (hdrained : s.main = .drained report) :
    s'.main = .drained report := by
  cases hmove with
  | spawn => exact hdrained
  | enter => exact hdrained
  | refuse => exact hdrained
  | free => exact hdrained
  | release => simp [State.release, hdrained, Main.notify]
  | close => simp [State.beginShutdown, hdrained, Main.notify]
  | stop hmain => cases hdrained.symm.trans hmain
  | turn _ _ hother _ _ => exact absurd hdrained (hother report)
  | drain _ hmain _ => cases hdrained.symm.trans hmain
  | again _ hmain _ => cases hdrained.symm.trans hmain

/-- The main thread does not come back, and nothing is left that could change durable data. -/
theorem Consistent.not_durable (h : Consistent p) {report : Report} (hdrained : p.1.main = .drained report) :
    ∀ place ∈ p.1.threads, place.durable = false := by
  intro place hmem
  by_contra hdurable
  have hleased := h.durable place hmem (Bool.not_eq_false _ ▸ hdurable)
  have hpos : 0 < p.1.threads.countP Place.leased := List.countP_pos_iff.2 ⟨place, hmem, hleased⟩
  have hcounted := h.counted
  have hactive := (h.drained report hdrained).1
  omega

theorem Later.drained (hvalid : validateRoutes routes handlers = .ok ()) {report : Report} (h : Consistent p)
    (hdrained : p.1.main = .drained report) (hlater : Later routes p q) : Consistent q ∧ q.1.main = .drained report := by
  induction hlater with
  | start => exact ⟨h, hdrained⟩
  | step a _ _ hstep ih =>
      have hone : (recorded routes).step _ a = some _ := hstep
      exact ⟨ih.1.step hvalid hone, (move_of_act hvalid (Machine.recording_step.1 hone).1).drained ih.2⟩

/-! ## The result -/

/-- What the gate guarantees in a state of a run. -/
structure Quiesces (routes : List Route) (p : Point) : Prop where
  /-- The count is that of the leases, -/
  counted : p.1.active = p.1.threads.countP Place.leased
  /-- without which nothing changes durable data. -/
  durable : ∀ place ∈ p.1.threads, place.durable = true → place.leased = true
  /-- Leases are refused from the first `begin_shutdown` on, and only then; each is given back at most once. -/
  lawful : ∀ after e before, p.2 = after ++ e :: before → Allowed e before
  /-- The last lease wakes the main thread. -/
  awake : ∀ deadline, p.1.main = .asleep deadline → p.1.active ≠ 0
  /-- A wait can always end. -/
  drains : p.1.Waiting → ∃ actions q, (recorded routes).run (fun _ => Action.ends) p actions = some q ∧
    ∃ report, q.1.main = .drained report
  /-- When it has ended, durable data changes no more. -/
  drained : ∀ report, p.1.main = .drained report → report.complete = true ∧
    ∀ q, Later routes p q → q.1.accepting = false ∧ ∀ place ∈ q.1.threads, place.durable = false

/-- The guarantees of the gate, over every run of the application. -/
theorem gate_quiesces (hvalid : validateRoutes routes handlers = .ok ()) (h : Reachable routes p) : Quiesces routes p := by
  have hp := h.consistent hvalid
  exact {
    counted := hp.counted
    durable := hp.durable
    lawful := by
      intro after e before heq
      exact (heq ▸ hp.lawful).of_append
    awake := hp.awake
    drains := hp.drains hvalid
    drained := by
      intro report hdrained
      refine ⟨(hp.drained report hdrained).2, fun q hlater => ?_⟩
      obtain ⟨hq, hstill⟩ := Later.drained hvalid hp hdrained hlater
      exact ⟨hq.stopped (by simp [hstill]), hq.not_durable hstill⟩ }

/-- A package is removed while the application shuts down: the main thread waits for its removal. -/
def sampleRemoval : Point :=
  ({ accepting := false
     active := 1
     threads := [.handling "DELETE" (some packageRoutes[2]) true]
     main := .asleep (some (0 + 1)) },
    [.closed, .admitted 0])

theorem sampleRemoval_reachable : Reachable packageRoutes sampleRemoval := by
  have hrun : (recorded packageRoutes).run (fun _ _ => true) (recorded packageRoutes).start
      [.spawn, .request 0 "DELETE" "/api/packages/a", .stop, .wait 1 0, .test 0] = some sampleRemoval := by
    decide +kernel
  exact Machine.Reach.start.run (fun _ _ _ => trivial) hrun

theorem gate_quiesces_sampleRemoval : Quiesces packageRoutes sampleRemoval := by
  have hvalid : validateRoutes packageRoutes none = .ok () := by decide +kernel
  exact gate_quiesces hvalid sampleRemoval_reachable

end DebBuilder.Lifecycle
