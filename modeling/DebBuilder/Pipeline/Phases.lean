import Mathlib
import DebBuilder.Pipeline.Programs
import DebBuilder.Lib.Owner

/-!
# Phases of an execution

The worker alone touches the store and the document in memory, so its assertions are
predicates on its part of the state.  Before the claim the durable Run is not terminal;
after the claim it is not terminal, or as claimed.

## Main definitions

* `Allowed`, `JobOk` — what the claim allows of the durable Run; the invariant.
* `worker` — the worker's part, with this invariant.
* `Active`, `Held`, `Doomed`, `Won`, `Concluded` — the phases.
-/

namespace DebBuilder
namespace Pipeline
open Lib Function

/-- What is allowed of the durable Run, which was `first` before the execution. -/
def Allowed (first : Run) (o : Worked) (doc : Run) : Prop :=
  doc = first ∨ doc.status.terminal = false ∨
    match o.claimed with
    | none => doc.status = .cancelled ∨ doc.status = .failed
    | some status => doc.status = status ∨ doc.status = .failed ∧ o.raised = true

/-- The durable Run is as the claim allows. -/
def Outcome (r : RunId) (first : Run) (o : Worked) : Prop :=
  ∃ doc, o.store r = .run doc ∧ Allowed first o doc

/-- The invariant of an execution. -/
structure JobOk (r : RunId) (first : Run) (s : Job) : Prop where
  claimed : s.control.owner = .terminalOwned ↔ s.claimed.isSome = true
  accepted : s.accepted = true → s.control.owner = .cancellationOwned
  outcome : Outcome r first s.toWorked
  fresh : s.handed = false → s.claimed = none ∧ s.store r = .run first

/-- The requests and the claim that have won stay. -/
structure JobEvolves (s s' : Job) : Prop where
  accepted : s.accepted = true → s'.accepted = true
  claimed : ∀ status, s.claimed = some status → s'.claimed = some status

/-- The worker owns all but the control. -/
def worker (r : RunId) (first : Run) : Ownership Job Worked where
  own := Job.toWorked
  Taken s := s.handed = true
  Inv := JobOk r first
  Evolves := JobEvolves
  refl _ := ⟨id, fun _ => id⟩
  trans _ _ _ h h' := ⟨h'.accepted ∘ h.accepted, fun st => h'.claimed st ∘ h.claimed st⟩

variable {τ : Type} [DecidableEq τ] {t : τ} {r : RunId} {first : Run} {o o' : Worked}

/-! ## The phases -/

/-- Nobody has claimed the end, and the durable Run is not terminal. -/
def Unclaimed (r : RunId) (o : Worked) : Prop :=
  o.claimed = none ∧ ∃ doc, o.store r = .run doc ∧ doc.status.terminal = false

/-- The pipeline is at work. -/
def Active (r : RunId) (o : Worked) : Prop := Unclaimed r o ∧ o.run.status.terminal = false

/-- A stage has failed. -/
def Doomed (r : RunId) (o : Worked) : Prop := Unclaimed r o ∧ o.run.status = .failed

/-- Before the claim, at work or failed. -/
def Held (r : RunId) (o : Worked) : Prop := Active r o ∨ Doomed r o

/-- The worker has claimed the end. -/
def Won (r : RunId) (status : RunStatus) (o : Worked) : Prop :=
  (o.claimed = some status ∧ status.terminal = true) ∧
    ∃ doc, o.store r = .run doc ∧ (doc.status.terminal = false ∨ doc.status = status)

/-- The worker has claimed the end and set the status. -/
def Concluded (r : RunId) (status : RunStatus) (o : Worked) : Prop :=
  Won r status o ∧ o.run.status = status

/-- The claimed status is durable. -/
def Durable (r : RunId) (o : Worked) : Prop :=
  ∃ status, status.terminal = true ∧ o.claimed = some status ∧
    ∃ doc, o.store r = .run doc ∧ doc.status = status

/-- An exception of the store has come after the claim. -/
def Broken (r : RunId) (e : Raised) (o : Worked) : Prop :=
  (∃ status, Won r status o) ∧ o.raised = true ∧ ∃ x, e = .other x

theorem Unclaimed.outcome (h : Unclaimed r o) : Outcome r first o := by
  obtain ⟨_, doc, hdoc, ht⟩ := h
  exact ⟨doc, hdoc, .inr (.inl ht)⟩

theorem Held.unclaimed (h : Held r o) : Unclaimed r o := h.elim And.left And.left

theorem Won.outcome {status : RunStatus} (h : Won r status o) : Outcome r first o := by
  obtain ⟨⟨hc, -⟩, doc, hdoc, ht | hs⟩ := h
  · exact ⟨doc, hdoc, .inr (.inl ht)⟩
  · exact ⟨doc, hdoc, .inr (.inr (by rw [hc]; exact .inl hs))⟩

theorem Broken.outcome {e : Raised} (h : Broken r e o) : Outcome r first o := by
  obtain ⟨⟨status, hwon⟩, -⟩ := h
  exact hwon.outcome

/-- What the worker's finalizer finds: a claimed status is durable, or an exception has come
after the claim. -/
def Ready (r : RunId) (first : Run) (o : Worked) : Prop :=
  ∃ doc, o.store r = .run doc ∧ Allowed first o doc ∧
    (o.claimed.isSome = true → doc.status.terminal = false → o.raised = true)

theorem Ready.outcome (h : Ready r first o) : Outcome r first o := by
  obtain ⟨doc, hdoc, hallowed, -⟩ := h
  exact ⟨doc, hdoc, hallowed⟩

theorem Outcome.ready (h : Outcome r first o) (hc : o.claimed = none) : Ready r first o := by
  obtain ⟨doc, hdoc, hallowed⟩ := h
  exact ⟨doc, hdoc, hallowed, by simp [hc]⟩

theorem Durable.ready (h : Durable r o) : Ready r first o := by
  obtain ⟨status, ht, hc, doc, hdoc, hs⟩ := h
  refine ⟨doc, hdoc, .inr (.inr (by rw [hc]; exact .inl hs)), fun _ hn => ?_⟩
  simp [hs, ht] at hn

theorem Broken.ready {e : Raised} (h : Broken r e o) : Ready r first o := by
  obtain ⟨⟨status, hwon⟩, hraised, -⟩ := h
  obtain ⟨doc, hdoc, hallowed⟩ : Outcome r first o := hwon.outcome
  exact ⟨doc, hdoc, hallowed, fun _ _ => hraised⟩

/-- A later exception allows no less. -/
theorem Ready.raised (h : Ready r first o) {b : Bool} :
    Ready r first { o with raised := o.raised || b } := by
  obtain ⟨doc, hdoc, hallowed, hready⟩ := h
  refine ⟨doc, hdoc, hallowed.imp id (Or.imp id fun h => ?_), fun hc hn => by simp [hready hc hn]⟩
  cases hc : o.claimed with
  | none => simpa [hc] using h
  | some status =>
      simp only [hc] at h ⊢
      exact h.imp id fun hf => ⟨hf.1, by simp [hf.2]⟩

theorem Active.not_failed (h : Active r o) : o.run.status ≠ .failed := by
  intro hf
  exact absurd h.2 (by simp [hf, RunStatus.terminal])

/-! ## Sections of the worker -/

/-- The section leaves the control and the claim alone. -/
structure Quiet (s s' : Job) : Prop where
  control : s'.control = s.control
  handed : s'.handed = s.handed
  accepted : s'.accepted = s.accepted
  claimed : s'.claimed = s.claimed

variable {α : Type} {P : Worked → Prop} {Q : Except Raised α → Worked → Prop}

/-- The rule of a section that leaves the control alone. -/
theorem triple_quiet {f : JobChoice → Job → Except Raised α × Job}
    (h : ∀ c s, JobOk r first s → P s.toWorked → Quiet s (f c s).2 ∧
      Outcome r first (f c s).2.toWorked ∧ Q (f c s).1 (f c s).2.toWorked) :
    (worker r first).Triple t P (.act f) Q := by
  refine .act fun c s hinv htaken hP => ?_
  obtain ⟨hq, hout, hQ⟩ := h c s hinv hP
  have hhanded : (f c s).2.handed = true := hq.handed.trans htaken
  refine ⟨⟨?_, ?_, hout, by simp [hhanded]⟩, ⟨?_, ?_⟩, hhanded, hQ⟩
  · rw [hq.control, hq.claimed]
    exact hinv.claimed
  · rw [hq.control, hq.accepted]
    exact hinv.accepted
  · rw [hq.accepted]
    exact id
  · rw [hq.claimed]
    exact fun _ => id

/-- An exception of the worker changes nothing but its note. -/
theorem raising_quiet (s : Job) (e : Raised) : Quiet s (s.raising e : Except Raised α × Job).2 :=
  ⟨rfl, rfl, rfl, rfl⟩

/-- A store call of the worker. -/
theorem calls_cases (s : Job) (result : Except Exc α × Store) :
    Quiet s (s.calls result).2 ∧ (s.calls result).2.store = result.2 ∧
    (s.calls result).2.run = s.run ∧
    ((∃ a, result.1 = .ok a ∧ (s.calls result).1 = .ok a ∧
        (s.calls result).2.raised = s.raised) ∨
      ∃ e, result.1 = .error e ∧ (s.calls result).1 = .error (.other e) ∧
        (s.calls result).2.raised = (s.raised || s.claimed.isSome)) := by
  unfold Job.calls
  cases h : result.1 with
  | ok a => exact ⟨⟨rfl, rfl, rfl, rfl⟩, rfl, rfl, .inl ⟨a, rfl, rfl, rfl⟩⟩
  | error e => exact ⟨⟨rfl, rfl, rfl, rfl⟩, rfl, rfl, .inr ⟨e, rfl, rfl, rfl⟩⟩

/-- The section has saved the document of the worker, or has raised and may have saved it. -/
structure Saves (r : RunId) (s : Job) (result : Except Raised Unit × Job) : Prop where
  quiet : Quiet s result.2
  run : result.2.run = s.run
  saved : (result.1 = .ok () ∧ result.2.store r = .run s.run) ∨
    ∃ e, result.1 = .error (.other e) ∧ result.2.raised = (s.raised || s.claimed.isSome) ∧
      (result.2.store r = .run s.run ∨ result.2.store r = s.store r)

theorem saves_save (c : JobChoice) (s : Job) : Saves r s (s.save c r) := by
  obtain ⟨hq, hstore, hrun, hres⟩ := calls_cases s (s.store.save r c.write s.run)
  refine ⟨hq, hrun, ?_⟩
  unfold Job.save
  rw [hstore]
  rcases hres with ⟨a, hok, hres, -⟩ | ⟨e, herr, hres, hraised⟩
  · left
    refine ⟨hres, ?_⟩
    cases hw : c.write <;> simp_all [Store.save, WriteOutcome.result, WriteOutcome.committed]
  · right
    refine ⟨e, hres, hraised, ?_⟩
    cases hw : c.write <;> simp_all [Store.save, WriteOutcome.result, WriteOutcome.committed]

theorem saves_appendEvent (c : JobChoice) (s : Job) : Saves r s (s.appendEvent c r) := by
  unfold Job.appendEvent
  cases c.log with
  | none => exact saves_save c s
  | some e => exact ⟨raising_quiet s _, rfl, .inr ⟨e, rfl, rfl, .inr rfl⟩⟩

/-- Saving before the claim. -/
theorem Saves.active {s : Job} {result : Except Raised Unit × Job} (h : Saves r s result)
    (ha : Active r s.toWorked) : Active r result.2.toWorked := by
  obtain ⟨⟨hc, doc, hdoc, ht⟩, hrun⟩ := ha
  refine ⟨⟨h.quiet.claimed.trans hc, ?_⟩, by rw [h.run]; exact hrun⟩
  rcases h.saved with ⟨-, hs⟩ | ⟨e, -, -, hs | hs⟩
  · exact ⟨_, hs, hrun⟩
  · exact ⟨_, hs, hrun⟩
  · exact ⟨doc, hs.trans hdoc, ht⟩

/-- Saving after the claim. -/
theorem Saves.concluded {s : Job} {result : Except Raised Unit × Job} {status : RunStatus}
    (h : Saves r s result) (hc : Concluded r status s.toWorked) :
    Concluded r status result.2.toWorked ∧
      ((result.1 = .ok () ∧ Durable r result.2.toWorked) ∨
        ∃ e, result.1 = .error (.other e) ∧ result.2.raised = true) := by
  obtain ⟨⟨⟨hclaimed, hterm⟩, doc, hdoc, hallowed⟩, hrun⟩ := hc
  have hclaimed' : result.2.claimed = some status := h.quiet.claimed.trans hclaimed
  have hrun' : result.2.run.status = status := by rw [h.run]; exact hrun
  rcases h.saved with ⟨hok, hs⟩ | ⟨e, herr, hraised, hs⟩
  · exact ⟨⟨⟨⟨hclaimed', hterm⟩, _, hs, .inr hrun⟩, hrun'⟩,
      .inl ⟨hok, status, hterm, hclaimed', _, hs, hrun⟩⟩
  · refine ⟨⟨⟨⟨hclaimed', hterm⟩, ?_⟩, hrun'⟩, .inr ⟨e, herr, by simp [hraised, hclaimed]⟩⟩
    rcases hs with hs | hs
    · exact ⟨_, hs, .inr hrun⟩
    · exact ⟨doc, hs.trans hdoc, hallowed⟩

end Pipeline
end DebBuilder
