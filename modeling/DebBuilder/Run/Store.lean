import Mathlib
import DebBuilder.Run.Errors

/-!
# The Run store

`BuildStore` as the operations that the modelled code uses.  A write replaces
`run.json` atomically, but its caller may see an exception either way: before the
replacement, or after it, when the directory is flushed or the mode is set.  So each
write has an *outcome* that the caller does not choose.

Every mutation of a Run holds `locked_run`, and is one section of its thread.

## Main definitions

* `Workspace` — what is on disk for one Run id.
* `WriteOutcome` — done, lost before the commit, or failed after it.
* `Store.load`, `Store.save`, `Store.locked`, `Store.transitionStatus`,
  `Store.discardIncompleteCreation` — the operations.
* `Store.Terminal` — a Run is durably terminal.
-/

namespace DebBuilder
open Function

/-- What is on disk for a Run id. -/
inductive Workspace where
  /-- the id has not been used -/
  | absent
  /-- a creation failed between the directory and its `run.json` -/
  | incomplete
  /-- a creation failed and left nothing, or what it left was discarded -/
  | gone
  | run (doc : Run)
  deriving DecidableEq, Repr

namespace Workspace

/-- The document, when `run.json` is there. -/
def doc? : Workspace → Option Run
  | run doc => some doc
  | _ => none

/-- `run_dir(id).exists()` -/
def onDisk : Workspace → Bool
  | incomplete | run _ => true
  | absent | gone => false

@[simp] theorem doc?_run (doc : Run) : (run doc).doc? = some doc := rfl

theorem doc?_of_not_onDisk {w : Workspace} (h : w.onDisk ≠ true) : w.doc? = none := by
  cases w <;> simp_all [onDisk, doc?]

theorem doc?_eq_some {w : Workspace} {doc : Run} : w.doc? = some doc ↔ w = run doc := by
  cases w <;> simp [doc?]

end Workspace

/-- What becomes of a write. -/
inductive WriteOutcome where
  | done
  /-- it raised before the replacement -/
  | lost (e : Exc)
  /-- it raised after the replacement -/
  | late (e : Exc)
  deriving DecidableEq, Repr

namespace WriteOutcome

def committed : WriteOutcome → Bool
  | lost _ => false
  | done | late _ => true

def result : WriteOutcome → Except Exc Unit
  | done => .ok ()
  | lost e | late e => .error e

end WriteOutcome

/-- How the creation of a workspace goes. -/
inductive CreateOutcome where
  | done
  | leftNothing (e : Exc)
  | leftDirectory (e : Exc)
  | leftRun (e : Exc)

/-- The workspaces of all Runs. -/
abbrev Store := RunId → Workspace

namespace Store
variable (s : Store) (r : RunId)

/-- `load`, where `read` is what the read itself raises. -/
def load (read : Option Exc) : Except Exc (Option Run) :=
  match read with
  | some e => .error e
  | none => .ok (s r).doc?

/-- `save` of the document of Run `r`. -/
def save (write : WriteOutcome) (doc : Run) : Except Exc Unit × Store :=
  (write.result, if write.committed then update s r (.run doc) else s)

/-- `locked_run`: it opens the workspace directory first. -/
def locked {α : Type} (body : Except Exc α × Store) : Except Exc α × Store :=
  if (s r).onDisk then body else (.error .fileNotFound, s)

/-- `with locked_run: load, decide, save`, the shape of every mutation of a Run: `change`
answers at once, or gives the document to save and the answer to give then. -/
def rewrite {α : Type} (read : Option Exc) (write : WriteOutcome)
    (change : Option Run → Except Exc α ⊕ Run × α) : Except Exc α × Store :=
  s.locked r <|
    match s.load r read with
    | .error e => (.error e, s)
    | .ok run =>
        match change run with
        | .inl answer => (answer, s)
        | .inr (doc, answer) =>
            let saved := s.save r write doc
            (saved.1.map fun _ => answer, saved.2)

/-- `transition_status` -/
def transitionStatus (read : Option Exc) (write : WriteOutcome) (expected status : RunStatus) :
    Except Exc Run × Store :=
  s.rewrite r read write fun
    | none => .inl (.error .fileNotFound)
    | some run =>
        if run.status = expected then .inr ({ run with status }, { run with status })
        else .inl (.error (.transition run.status))

/-- `discard_incomplete_creation`, where `remove` is the outcome of `rmtree`. -/
def discardIncompleteCreation (remove : WriteOutcome) : Except Exc Bool × Store :=
  match s r with
  | .absent | .gone => (.ok true, s)
  | .run _ => (.ok false, s)
  | .incomplete =>
      (remove.result.map fun _ => true, if remove.committed then update s r .gone else s)

/-- The Run is durably in a terminal status. -/
def Terminal : Prop := ∃ doc, s r = .run doc ∧ doc.status.terminal = true

/-- The status that `run.json` holds. -/
def status? : Option RunStatus := (s r).doc?.map Run.status

instance : Decidable (s.Terminal r) :=
  match h : s r with
  | .run doc => decidable_of_iff (doc.status.terminal = true) (by simp [Terminal, h])
  | .absent | .incomplete | .gone => .isFalse (by simp [Terminal, h])

variable {s r}

@[simp] theorem load_none : s.load r none = .ok (s r).doc? := rfl

theorem load_eq_ok {read : Option Exc} {d : Option Run} (h : s.load r read = .ok d) :
    (s r).doc? = d := by
  cases read with
  | none => simpa using h
  | some e => simp [load] at h

theorem terminal_of_load {read : Option Exc} {doc : Run} (h : s.load r read = .ok (some doc))
    (ht : doc.status.terminal = true) : s.Terminal r :=
  ⟨doc, Workspace.doc?_eq_some.1 (load_eq_ok h), ht⟩

/-- A mutation raises and leaves the store, or answers at once, or has saved what it
decided on. -/
theorem rewrite_cases {α : Type} (read : Option Exc) (write : WriteOutcome)
    (change : Option Run → Except Exc α ⊕ Run × α) :
    (∃ e, s.rewrite r read write change = (.error e, s)) ∨
    (∃ answer, change (s r).doc? = .inl answer ∧ s.rewrite r read write change = (answer, s)) ∨
    ∃ doc answer, change (s r).doc? = .inr (doc, answer) ∧ write.committed = true ∧
      s.rewrite r read write change =
        (write.result.map fun _ => answer, update s r (.run doc)) := by
  unfold rewrite locked
  split
  · match hl : s.load r read with
    | .error e => exact .inl ⟨e, rfl⟩
    | .ok run =>
        obtain rfl := load_eq_ok hl
        match hc : change (s r).doc? with
        | .inl answer => exact .inr (.inl ⟨answer, rfl, by simp [hc]⟩)
        | .inr (doc, answer) =>
            cases write with
            | lost e => exact .inl ⟨e, by simp [hc, save, WriteOutcome.result,
                WriteOutcome.committed, Except.map]⟩
            | done | late =>
                exact .inr (.inr ⟨doc, answer, rfl, rfl, by simp [hc, save, WriteOutcome.committed]⟩)
  · exact .inl ⟨_, rfl⟩

/-- A status transition raises and leaves the store, or has replaced the status that it
expected. -/
theorem transitionStatus_cases (read : Option Exc) (write : WriteOutcome)
    (expected status : RunStatus) :
    (∃ e, s.transitionStatus r read write expected status = (.error e, s)) ∨
    ∃ run, s r = .run run ∧ run.status = expected ∧
      s.transitionStatus r read write expected status =
        (write.result.map fun _ => { run with status }, update s r (.run { run with status })) := by
  rcases rewrite_cases (s := s) (r := r) read write _ with
    ⟨e, he⟩ | ⟨answer, hc, he⟩ | ⟨doc, answer, hc, _, he⟩
  · exact .inl ⟨e, he⟩
  · cases hd : (s r).doc? with
    | none =>
        simp only [hd, Sum.inl.injEq] at hc
        exact .inl ⟨_, he.trans (by rw [← hc])⟩
    | some run =>
        simp only [hd] at hc
        split at hc
        · simp at hc
        · simp only [Sum.inl.injEq] at hc
          exact .inl ⟨_, he.trans (by rw [← hc])⟩
  · cases hd : (s r).doc? with
    | none => simp [hd] at hc
    | some run =>
        simp only [hd] at hc
        split at hc
        · rename_i hx
          simp only [Sum.inr.injEq, Prod.mk.injEq] at hc
          exact .inr ⟨run, Workspace.doc?_eq_some.1 hd, hx, he.trans (by rw [← hc.1, ← hc.2])⟩
        · simp at hc

/-- A mutation whose store calls succeed does what it decides. -/
theorem rewrite_done {α : Type} {change : Option Run → Except Exc α ⊕ Run × α}
    (h : (s r).onDisk = true) :
    s.rewrite r none .done change =
      match change (s r).doc? with
      | .inl answer => (answer, s)
      | .inr (doc, answer) => (.ok answer, update s r (.run doc)) := by
  simp only [rewrite, locked, h, if_true, load_none]
  cases change (s r).doc? with
  | inl answer => rfl
  | inr p => rfl

/-! ## Progress of the store -/

/-- How the store moves forward: terminal documents stay, ids that have been used stay
used, and no Run goes back to `pending`. -/
structure Advances (s s' : Store) : Prop where
  terminal : ∀ r doc, s r = .run doc → doc.status.terminal = true → s' r = .run doc
  present : ∀ r, s r ≠ .absent → s' r ≠ .absent
  gone : ∀ r, s r = .gone → s' r = .gone
  left : ∀ r doc, s r = .run doc → doc.status ≠ .pending →
    ∃ doc', s' r = .run doc' ∧ doc'.status ≠ .pending

theorem Advances.refl (s : Store) : s.Advances s where
  terminal _ _ h _ := h
  present _ h := h
  gone _ h := h
  left _ doc h hp := ⟨doc, h, hp⟩

theorem Advances.terminal_keeps {s s' : Store} (h : s.Advances s') (ht : s.Terminal r) :
    s'.Terminal r := by
  obtain ⟨doc, hdoc, hterm⟩ := ht
  exact ⟨doc, h.terminal r doc hdoc hterm, hterm⟩

/-- Writing a non-pending document over one that is not terminal. -/
theorem advances_save {old doc : Run} (hold : s r = .run old)
    (hterm : old.status.terminal = false) (hdoc : doc.status ≠ .pending) :
    s.Advances (update s r (.run doc)) where
  terminal q d hq hd := by
    rcases eq_or_ne q r with rfl | hne
    · rw [hold, Workspace.run.injEq] at hq
      simp [hq ▸ hterm] at hd
    · rw [update_of_ne hne, hq]
  present q hq := by
    rcases eq_or_ne q r with rfl | hne
    · simp
    · rwa [update_of_ne hne]
  gone q hq := by
    rcases eq_or_ne q r with rfl | hne
    · simp [hold] at hq
    · rwa [update_of_ne hne]
  left q d hq hd := by
    rcases eq_or_ne q r with rfl | hne
    · exact ⟨doc, update_self .., hdoc⟩
    · exact ⟨d, by rw [update_of_ne hne, hq], hd⟩

/-- Using an id for the first time. -/
theorem advances_create {w : Workspace} (h : s r = .absent) (hw : w ≠ .absent) :
    s.Advances (update s r w) where
  terminal q d hq _ := by
    rcases eq_or_ne q r with rfl | hne
    · simp [h] at hq
    · rw [update_of_ne hne, hq]
  present q hq := by
    rcases eq_or_ne q r with rfl | hne
    · rwa [update_self]
    · rwa [update_of_ne hne]
  gone q hq := by
    rcases eq_or_ne q r with rfl | hne
    · simp [h] at hq
    · rwa [update_of_ne hne]
  left q d hq hd := by
    rcases eq_or_ne q r with rfl | hne
    · simp [h] at hq
    · exact ⟨d, by rw [update_of_ne hne, hq], hd⟩

/-- The Run is queued, or has been terminalized since. -/
def Settled (s : Store) (r : RunId) : Prop := s.status? r = some .queued ∨ s.Terminal r

/-- A store step that only terminalizes: it moves forward and keeps queued Runs queued
or terminal. -/
structure Terminalizes (s s' : Store) : Prop extends s.Advances s' where
  settled : ∀ r, s.Settled r → s'.Settled r

theorem Terminalizes.refl (s : Store) : s.Terminalizes s where
  toAdvances := .refl s
  settled _ h := h

/-- Writing a terminal document over one that is not terminal. -/
theorem terminalizes_save {old doc : Run} (hold : s r = .run old)
    (hterm : old.status.terminal = false) (hdoc : doc.status.terminal = true) :
    s.Terminalizes (update s r (.run doc)) where
  toAdvances := advances_save hold hterm (by rintro hp; simp [hp, RunStatus.terminal] at hdoc)
  settled q hq := by
    rcases eq_or_ne q r with rfl | hne
    · exact .inr ⟨doc, update_self .., hdoc⟩
    · simpa [Settled, status?, Terminal, update_of_ne hne] using hq

/-- Discarding an incomplete creation. -/
theorem terminalizes_discard (h : s r = .incomplete) : s.Terminalizes (update s r .gone) where
  terminal q d hq _ := by
    rcases eq_or_ne q r with rfl | hne
    · simp [h] at hq
    · rw [update_of_ne hne, hq]
  present q hq := by
    rcases eq_or_ne q r with rfl | hne
    · simp
    · rwa [update_of_ne hne]
  gone q hq := by
    rcases eq_or_ne q r with rfl | hne
    · simp
    · rwa [update_of_ne hne]
  left q d hq hd := by
    rcases eq_or_ne q r with rfl | hne
    · simp [h] at hq
    · exact ⟨d, by rw [update_of_ne hne, hq], hd⟩
  settled q hq := by
    rcases eq_or_ne q r with rfl | hne
    · simp [Settled, status?, Terminal, h, Workspace.doc?] at hq
    · simpa [Settled, status?, Terminal, update_of_ne hne] using hq

/-- A decision that saves only terminal documents, over documents that are not. -/
def TerminalChange {α : Type} (change : Option Run → Except Exc α ⊕ Run × α) : Prop :=
  ∀ d doc answer, change d = .inr (doc, answer) →
    doc.status.terminal = true ∧ ∃ run, d = some run ∧ run.status.terminal = false

theorem rewrite_terminalizes {α : Type} {change : Option Run → Except Exc α ⊕ Run × α}
    (h : TerminalChange change) (read : Option Exc) (write : WriteOutcome) :
    s.Terminalizes (s.rewrite r read write change).2 := by
  rcases rewrite_cases (s := s) (r := r) read write change with
    ⟨e, he⟩ | ⟨answer, _, he⟩ | ⟨doc, answer, hc, _, he⟩
  · rw [he]; exact .refl s
  · rw [he]; exact .refl s
  · rw [he]
    obtain ⟨hdoc, run, hrun, hterm⟩ := h _ _ _ hc
    exact terminalizes_save (Workspace.doc?_eq_some.1 hrun) hterm hdoc

/-- A mutation that answers `a` at once only for terminal Runs proves by it that the Run
is terminal. -/
theorem rewrite_terminal {α : Type} {change : Option Run → Except Exc α ⊕ Run × α} {a : α}
    (hsave : TerminalChange change)
    (hanswer : ∀ d, change d = .inl (.ok a) → ∃ run, d = some run ∧ run.status.terminal = true)
    {read : Option Exc} {write : WriteOutcome} (h : (s.rewrite r read write change).1 = .ok a) :
    (s.rewrite r read write change).2.Terminal r := by
  rcases rewrite_cases (s := s) (r := r) read write change with
    ⟨e, he⟩ | ⟨answer, hc, he⟩ | ⟨doc, answer, hc, _, he⟩
  · simp [he] at h
  · rw [he] at h ⊢
    obtain ⟨run, hrun, hterm⟩ := hanswer _ (hc.trans (congrArg _ h))
    exact ⟨run, Workspace.doc?_eq_some.1 hrun, hterm⟩
  · rw [he]
    exact ⟨doc, update_self .., (hsave _ _ _ hc).1⟩

end Store
end DebBuilder
