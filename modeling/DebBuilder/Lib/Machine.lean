import Mathlib

/-!
# Machines and their runs

A machine takes one action after another.  A property of every state of its runs is
proved from one step.  The runs can be restricted to steps that meet a condition, and
a machine can carry a *history*: a value that no step reads and that says what has
happened so far.

## Main definitions

* `Machine` — a start and the steps.
* `Machine.Reach` — the states of the runs whose steps all meet a condition.
* `Machine.recording` — the machine with a history.
-/

namespace Lib

variable {σ α γ : Type}

/-- What each action does in a state, if it can be taken there. -/
structure Machine (σ α : Type) where
  start : σ
  step : σ → α → Option σ

namespace Machine
variable (M : Machine σ α)

/-- The states of the runs whose steps all meet `ok`. -/
inductive Reach (ok : σ → α → Prop) : σ → Prop
  | start : Reach ok M.start
  | step {s s' : σ} (a : α) : Reach ok s → ok s a → M.step s a = some s' → Reach ok s'

variable {M} {ok ok' : σ → α → Prop} {s : σ}

theorem Reach.mono (himp : ∀ s a, ok s a → ok' s a) (h : M.Reach ok s) : M.Reach ok' s := by
  induction h with
  | start => exact .start
  | step a _ hok hstep ih => exact .step a ih (himp _ a hok) hstep

/-- What holds at the start, and is kept by each step, holds in every state of a run. -/
theorem Reach.inv {Inv : σ → Prop} (hstart : Inv M.start)
    (hkeep : ∀ s a s', Inv s → ok s a → M.step s a = some s' → Inv s') (h : M.Reach ok s) :
    Inv s := by
  induction h with
  | start => exact hstart
  | step a _ hok hstep ih => exact hkeep _ a _ ih hok hstep

/-! ## Runs that are given by their actions -/

/-- The state after a list of actions that all pass a test. -/
def run (M : Machine σ α) (ok : σ → α → Bool) : σ → List α → Option σ
  | s, [] => some s
  | s, a :: as => if ok s a then (M.step s a).bind (M.run ok · as) else none

theorem Reach.run {test : σ → α → Bool} {s' : σ} {as : List α}
    (htest : ∀ s a, test s a = true → ok s a) (h : M.Reach ok s)
    (hrun : M.run test s as = some s') : M.Reach ok s' := by
  induction as generalizing s with
  | nil =>
      have heq : s = s' := by simpa [Machine.run] using hrun
      exact heq ▸ h
  | cons a as ih =>
      by_cases hok : test s a = true
      · cases hstep : M.step s a with
        | none => simp [Machine.run, hok, hstep] at hrun
        | some s₁ =>
            apply ih (.step a h (htest s a hok) hstep)
            simpa [Machine.run, hok, hstep] using hrun
      · simp [Machine.run, hok] at hrun

/-! ## Histories -/

/-- The machine that also records what has happened. -/
def recording (M : Machine σ α) (first : γ) (next : σ → α → γ → γ) : Machine (σ × γ) α where
  start := (M.start, first)
  step p a := (M.step p.1 a).map fun s => (s, next p.1 a p.2)

variable {first : γ} {next : σ → α → γ → γ}

theorem recording_step {p q : σ × γ} {a : α} :
    (M.recording first next).step p a = some q ↔
      M.step p.1 a = some q.1 ∧ q.2 = next p.1 a p.2 := by
  constructor
  · intro h
    simp only [recording, Option.map_eq_some_iff] at h
    obtain ⟨s, hs, rfl⟩ := h
    exact ⟨hs, rfl⟩
  · intro h
    have hq : q = (q.1, next p.1 a p.2) := by rw [← h.2]
    rw [hq]
    simp [recording, h.1]

/-- Every run of the machine has its history. -/
theorem Reach.recording (h : M.Reach ok s) :
    ∃ g, (M.recording first next).Reach (fun p => ok p.1) (s, g) := by
  induction h with
  | start => exact ⟨first, .start⟩
  | step a _ hok hstep ih =>
      obtain ⟨g, hg⟩ := ih
      exact ⟨_, .step a hg hok (recording_step.2 ⟨hstep, rfl⟩)⟩

/-- What a machine with a history does, the machine does. -/
theorem Reach.of_recording {p : σ × γ} (h : (M.recording first next).Reach (fun p => ok p.1) p) :
    M.Reach ok p.1 := by
  induction h with
  | start => exact .start
  | step a _ hok hstep ih => exact .step a ih hok (recording_step.1 hstep).1

end Machine
end Lib
