import Mathlib
import DebBuilder.Execution.Safety

/-!
# One pass of the shutdown drain

When every store call succeeds, a pass of the drain attempts each task of the shutdown
once.  Whether a task is resolved is decided by the workspace that the pass finds: the
three kinds of tasks accept different documents.  The loop invariant of the pass says
what is left of the tasks and that no attempt has changed the fate of a later one.

## Main definitions

* `CancelsQueued`, `SettlesAdmission` — what makes a task resolvable.
* `Drained`, `Drainable` — no task is left; every task can be resolved.
* `PassInv` — the loop invariant.

## Main results

* `ends_drainPass` — the pass ends, and leaves nothing exactly when all is resolvable.
* `drainPass_resolves_iff` — the same for every reachable manager, in terms of statuses.
-/

namespace DebBuilder
namespace Execution
open Function Lib

/-! ## Resolvable tasks -/

/-- The workspace holds a queued Run, or one cancelled in the queue by the shutdown. -/
def CancelsQueued : Workspace → Prop
  | .run doc => doc.status = .queued ∨ doc.status = .cancelled ∧
      ∃ existing, doc.cancellation = some existing ∧ existing.ofQueue serverShutdown = true
  | .absent | .incomplete | .gone => False

/-- The workspace holds a Run that no executor has started, or is the rest of a failed
creation. -/
def SettlesAdmission (f : AdmissionFailure) : Workspace → Prop
  | .run doc => doc.status ≠ .running ∧ doc.status ≠ .cancelling
  | .incomplete => f.inCreation = true
  | .absent | .gone => False

/-- The workspace holds a Run that has left `pending`. -/
def LeftPending (w : Workspace) : Prop := ∃ doc, w = .run doc ∧ doc.status ≠ .pending

theorem LeftPending.of_terminal {w : Workspace} {doc : Run} (hw : w = .run doc)
    (h : doc.status.terminal = true) : LeftPending w :=
  ⟨doc, hw, by rintro hp; simp [hp, RunStatus.terminal] at h⟩

/-- No shutdown task is left. -/
structure Drained (s : World) : Prop where
  queued : s.shutdownPending = []
  admission : ∀ r, r ∉ s.unresolvedAdmissionRuns
  active : ∀ r, r ∉ s.unresolvedActiveRuns

/-- Every shutdown task is resolvable. -/
structure Drainable (s : World) : Prop where
  queued : ∀ r ∈ s.shutdownPending, CancelsQueued (s.store r)
  admission : ∀ r f, s.unresolvedAdmissionRuns.lookup r = some f →
    SettlesAdmission f (s.store r)

/-! ## One task -/

variable {s s₀ : World} {r : RunId}

/-- The workspace of `r` is now `w`, and nothing else has changed. -/
def Wrote (s : World) (r : RunId) (w : Workspace) : World :=
  { s with store := update s.store r w }

theorem wrote_self (s : World) (r : RunId) : Wrote s r (s.store r) = s := by
  simp [Wrote]

theorem locked_absent {α : Type} {σ : Store} (h : (σ r).onDisk = false)
    (body : Except Exc α × Store) : σ.locked r body = (.error .fileNotFound, σ) := by
  simp [Store.locked, h]

/-- How the decision about a queued Run follows from its document. -/
theorem cancelQueued_decides (c : Choice) (r : RunId) (doc : Run) :
    (doc.status = .queued ∧ ∃ doc' a, doc'.status.terminal = true ∧
      cancelQueued c serverShutdown r (some doc) = .inr (doc', a)) ∨
    (CancelsQueued (.run doc) ∧ doc.status.terminal = true ∧
      ∃ a, cancelQueued c serverShutdown r (some doc) = .inl (.ok a)) ∨
    (¬ CancelsQueued (.run doc) ∧
      ∃ e, cancelQueued c serverShutdown r (some doc) = .inl (.error e)) := by
  cases hs : doc.status with
  | queued =>
      simp only [cancelQueued, hs]
      refine .inl ⟨trivial, _, _, ?_, rfl⟩
      rfl
  | cancelled =>
      right
      cases hx : doc.cancellation with
      | none => exact .inr ⟨by simp [CancelsQueued, hs, hx], _, by simp only [cancelQueued, hs, hx]; rfl⟩
      | some existing =>
          by_cases hq : existing.ofQueue serverShutdown = true
          · exact .inl ⟨by simp [CancelsQueued, hs, hx, hq], rfl, existing, by
              simp [cancelQueued, hs, hx, hq]⟩
          · exact .inr ⟨by simp [CancelsQueued, hs, hx, hq], _, by
              simp only [cancelQueued, hs, hx, if_neg hq]; rfl⟩
  | pending | running | cancelling | prepared | success | failed =>
      exact .inr (.inr ⟨by simp [CancelsQueued, hs], _, by simp only [cancelQueued, hs]; rfl⟩)

theorem ends_performQueued (s : World) (r : RunId) :
    (performTask (.queued r)).Ends Choice.Succeeds (fun result s' =>
      (CancelsQueued (s.store r) ∧ result = .ok true ∧ ∃ doc, doc.status.terminal = true ∧
        s' = Wrote s r (.run doc)) ∨
      (¬ CancelsQueued (s.store r) ∧ (∃ e, result = .error e) ∧ s' = s)) s := by
  refine Prog.Ends.seq (Q := fun result s' =>
      (CancelsQueued (s.store r) ∧ (∃ a, result = .ok a) ∧ ∃ doc, doc.status.terminal = true ∧
        s' = Wrote s r (.run doc)) ∨
      (¬ CancelsQueued (s.store r) ∧ (∃ e, result = .error e) ∧ s' = s)) ?_ ?_ ?_
  · refine Prog.ends_act.2 fun c hc => ?_
    simp only [persistQueuedCancellation, hc.read, hc.write]
    cases hw : s.store r with
    | absent | gone =>
        refine .inr ⟨by simp [CancelsQueued], ?_⟩
        rw [Store.rewrite, locked_absent (by simp [hw, Workspace.onDisk])]
        exact ⟨⟨_, rfl⟩, rfl⟩
    | incomplete =>
        refine .inr ⟨by simp [CancelsQueued], ?_⟩
        rw [Store.rewrite_done (by simp [hw, Workspace.onDisk]), hw]
        exact ⟨⟨_, rfl⟩, rfl⟩
    | run doc =>
        rw [Store.rewrite_done (by simp [hw, Workspace.onDisk]), hw]
        simp only [Workspace.doc?_run]
        rcases cancelQueued_decides c r doc with ⟨hq, doc', a, ht, hd⟩ | ⟨hq, ht, a, hd⟩ | ⟨hq, e, hd⟩
        · rw [hd]
          exact .inl ⟨.inl hq, ⟨a, rfl⟩, doc', ht, rfl⟩
        · rw [hd]
          exact .inl ⟨hq, ⟨a, rfl⟩, doc, ht, by rw [← hw, wrote_self]⟩
        · rw [hd]
          exact .inr ⟨hq, ⟨e, rfl⟩, rfl⟩
  · rintro a s' (⟨hc, _, hs⟩ | ⟨_, ⟨e, he⟩, _⟩)
    · exact .inl ⟨hc, rfl, hs⟩
    · simp at he
  · rintro e s' (⟨_, ⟨a, ha⟩, _⟩ | h)
    · simp at ha
    · exact .inr ⟨h.1, ⟨e, rfl⟩, h.2.2⟩

/-- The log line of a task is written. -/
theorem ends_appendLogLine (s : World) :
    appendLogLine.Ends Choice.Succeeds (fun result s' => result = .ok () ∧ s' = s) s := by
  refine Prog.ends_act.2 fun c hc => ?_
  simp [hc.log]

theorem ends_performAdmission (s : World) (r : RunId) (f : AdmissionFailure) :
    (performTask (.admission r f)).Ends Choice.Succeeds (fun result s' =>
      (SettlesAdmission f (s.store r) ∧ result = .ok true ∧
        ((s.store r = .incomplete ∧ s' = Wrote s r .gone) ∨
          ∃ doc, doc.status.terminal = true ∧ s' = Wrote s r (.run doc))) ∨
      (¬ SettlesAdmission f (s.store r) ∧ result = .ok false ∧ s' = s)) s := by
  refine Prog.Ends.catch (Q := fun result s' =>
      (SettlesAdmission f (s.store r) ∧
        (result = .ok (.answer true) ∨ result = .ok .saved) ∧
        ((s.store r = .incomplete ∧ s' = Wrote s r .gone) ∨
          ∃ doc, doc.status.terminal = true ∧ s' = Wrote s r (.run doc))) ∨
      (¬ SettlesAdmission f (s.store r) ∧ (result = .ok (.answer false) ∨
        (s.store r).onDisk = false ∧ result = .error .fileNotFound) ∧ s' = s)) ?_ ?_
  · refine Prog.ends_act.2 fun c hc => ?_
    simp only [terminalizeAdmission, hc.read, hc.write, hc.remove]
    cases hw : s.store r with
    | absent | gone =>
        refine .inr ⟨by simp [SettlesAdmission], .inr ⟨rfl, ?_⟩, ?_⟩ <;>
          simp [Store.rewrite, locked_absent, hw, Workspace.onDisk]
    | incomplete =>
        by_cases hf : f.inCreation = true
        · refine .inl ⟨hf, ?_, .inl ⟨rfl, ?_⟩⟩ <;>
            simp [hf, hw, Store.discardIncompleteCreation, WriteOutcome.result,
              WriteOutcome.committed, Except.map, Wrote]
        · refine .inr ⟨hf, ?_, ?_⟩ <;>
            simp [hf, hw, Store.rewrite_done, Workspace.onDisk, Workspace.doc?, failAdmission]
    | run doc =>
        rw [if_neg (by simp), Store.rewrite_done (by simp [hw, Workspace.onDisk]), hw]
        simp only [Workspace.doc?_run]
        cases hs : doc.status with
        | pending | queued =>
            simp only [failAdmission, hs]
            refine .inl ⟨by simp [SettlesAdmission, hs], by simp, .inr ⟨_, ?_, rfl⟩⟩
            rfl
        | running | cancelling =>
            simp only [failAdmission, hs]
            exact .inr ⟨by simp [SettlesAdmission, hs], by simp, trivial⟩
        | prepared | success | failed | cancelled =>
            simp only [failAdmission, hs]
            exact .inl ⟨by simp [SettlesAdmission, hs], by simp,
              .inr ⟨doc, by rw [hs]; rfl, by rw [← hw, wrote_self]⟩⟩
  · rintro a s' (⟨hset, rfl | rfl, hs'⟩ | ⟨hset, rfl | ⟨hd, rfl⟩, rfl⟩)
    · exact .inl ⟨hset, rfl, hs'⟩
    · refine Prog.Ends.catch (ends_appendLogLine s') ?_
      rintro a s'' ⟨rfl, rfl⟩
      exact .inl ⟨hset, rfl, hs'⟩
    · exact .inr ⟨hset, rfl, rfl⟩
    · refine Prog.ends_act.2 fun c hc => .inr ⟨hset, ?_, rfl⟩
      simp only [hc.read, Store.load_none]
      cases hw : s'.store r <;> simp_all [Workspace.doc?, Workspace.onDisk]

theorem ends_performActive (h : LeftPending (s.store r)) (e : RunError) :
    (performTask (.active r e)).Ends Choice.Succeeds (fun result s' =>
      result = .ok true ∧ ∃ doc, doc.status.terminal = true ∧ s' = Wrote s r (.run doc)) s := by
  obtain ⟨doc, hw, hp⟩ := h
  refine Prog.Ends.catch (Q := fun result s' => (result = .ok (.answer true) ∨
    result = .ok .saved) ∧ ∃ doc, doc.status.terminal = true ∧ s' = Wrote s r (.run doc)) ?_ ?_
  · refine Prog.ends_act.2 fun c hc => ?_
    simp only [finalizeWorker, hc.read, hc.write]
    rw [Store.rewrite_done (by simp [hw, Workspace.onDisk]), hw]
    simp only [Workspace.doc?_run]
    cases hs : doc.status with
    | pending => exact absurd hs hp
    | queued | running | cancelling =>
        simp only [failWorker, hs]
        refine ⟨by simp, _, ?_, rfl⟩
        rfl
    | prepared | success | failed | cancelled =>
        simp only [failWorker, hs]
        exact ⟨by simp, doc, by rw [hs]; rfl, by rw [← hw, wrote_self]⟩
  · rintro a s' ⟨rfl | rfl, hs'⟩
    · exact ⟨rfl, hs'⟩
    · refine Prog.Ends.catch (ends_appendLogLine s') ?_
      rintro a s'' ⟨rfl, rfl⟩
      exact ⟨rfl, hs'⟩

/-! ## The loop -/

/-- What is known of the next task of a pass over all kinds: everything of an earlier
kind has been attempted. -/
def IsNext (s : World) (A : List (Kind × RunId)) : Task → Prop
  | .queued r => r ∈ s.shutdownPending
  | .admission r f => s.unresolvedAdmissionRuns.lookup r = some f ∧
      ∀ q ∈ s.shutdownPending, (Kind.queued, q) ∈ A
  | .active r _ => r ∈ s.unresolvedActiveRuns ∧ (∀ q ∈ s.shutdownPending, (Kind.queued, q) ∈ A) ∧
      ∀ q f, s.unresolvedAdmissionRuns.lookup q = some f → (Kind.admission, q) ∈ A

theorem shutdownTask_some {A : List (Kind × RunId)} {task : Task}
    (h : s.shutdownTask A allKinds = some task) : (task.kind, task.run) ∉ A ∧ IsNext s A task := by
  simp only [World.shutdownTask, Option.orElse_eq_orElse, Option.orElse_eq_or,
    Option.or_eq_some_iff, Option.map_eq_some_iff, Option.map_eq_none_iff, List.find?_eq_none,
    allKinds] at h
  rcases h with ⟨r, hr, rfl⟩ | ⟨hq, ⟨e, he, rfl⟩ | ⟨ha, e, he, rfl⟩⟩
  · have hA : (Kind.queued, r) ∉ A := by simpa using List.find?_some hr
    exact ⟨hA, List.mem_of_find?_eq_some hr⟩
  · have hA : (Kind.admission, e.1) ∉ A := by simpa using List.find?_some he
    refine ⟨hA, Dict.mem_items.1 (List.mem_of_find?_eq_some he), ?_⟩
    simpa using hq
  · have hA : (Kind.active, e.1) ∉ A := by simpa using List.find?_some he
    refine ⟨hA, Dict.mem_of_mem_items (List.mem_of_find?_eq_some he), by simpa using hq,
      fun q f hf => ?_⟩
    simpa using ha _ (Dict.mem_items (e := (q, f)).2 hf)

theorem shutdownTask_none {A : List (Kind × RunId)} (h : s.shutdownTask A allKinds = none) :
    (∀ q ∈ s.shutdownPending, (Kind.queued, q) ∈ A) ∧
    (∀ q f, s.unresolvedAdmissionRuns.lookup q = some f → (Kind.admission, q) ∈ A) ∧
    ∀ q ∈ s.unresolvedActiveRuns, (Kind.active, q) ∈ A := by
  simp only [World.shutdownTask, Option.orElse_eq_orElse, Option.orElse_eq_or,
    Option.or_eq_none_iff, Option.map_eq_none_iff, List.find?_eq_none, allKinds] at h
  obtain ⟨hq, ha, hw⟩ := h
  refine ⟨by simpa using hq, fun q f hf => ?_, fun q hm => ?_⟩
  · simpa using ha _ (Dict.mem_items (e := (q, f)).2 hf)
  · obtain ⟨e, he⟩ := Dict.exists_mem_items hm
    simpa using hw _ he

/-- The loop invariant of a pass from `s₀` that has attempted `A`: the attempted tasks
that were resolvable are gone, and the others are as they were. -/
structure PassInv (s₀ s : World) (A : List (Kind × RunId)) : Prop where
  queued : ∀ r, r ∈ s.shutdownPending ↔
    r ∈ s₀.shutdownPending ∧ ¬ ((Kind.queued, r) ∈ A ∧ CancelsQueued (s₀.store r))
  nodup : s.shutdownPending.Nodup
  admission : ∀ r f, s.unresolvedAdmissionRuns.lookup r = some f ↔
    s₀.unresolvedAdmissionRuns.lookup r = some f ∧
      ¬ ((Kind.admission, r) ∈ A ∧ SettlesAdmission f (s₀.store r))
  active : ∀ r, r ∈ s.unresolvedActiveRuns ↔ r ∈ s₀.unresolvedActiveRuns ∧ (Kind.active, r) ∉ A
  queued_fate : ∀ r ∈ s₀.shutdownPending, (Kind.queued, r) ∉ A → s.store r = s₀.store r
  admission_fate : ∀ r f, s₀.unresolvedAdmissionRuns.lookup r = some f → (Kind.admission, r) ∉ A →
    (SettlesAdmission f (s.store r) ↔ SettlesAdmission f (s₀.store r))
  left : ∀ r ∈ s₀.unresolvedActiveRuns, LeftPending (s.store r)

/-- The tasks of a state, as the keys that a pass attempts. -/
def taskKeys (s : World) : List (Kind × RunId) :=
  s.shutdownPending.map (Kind.queued, ·) ++ s.unresolvedAdmissionRuns.keys.map (Kind.admission, ·) ++
    s.unresolvedActiveRuns.keys.map (Kind.active, ·)

theorem PassInv.start (hn : s.shutdownPending.Nodup)
    (hl : ∀ r ∈ s.unresolvedActiveRuns, LeftPending (s.store r)) : PassInv s s [] where
  queued := by simp
  nodup := hn
  admission := by simp
  active := by simp
  queued_fate _ _ _ := rfl
  admission_fate _ _ _ _ := Iff.rfl
  left := hl

/-- The record of a task whose result is known. -/
theorem ends_runTask {task : Task} {Q : Except Exc Bool → World → Prop} {R : World → Prop}
    (hp : (performTask task).Ends Choice.Succeeds Q s)
    (hr : ∀ result s', Q result s' → R (s'.recordShutdownTask task.kind task.run result)) :
    (runTask task).Ends Choice.Succeeds (fun result s' => result = .ok () ∧ R s') s :=
  Prog.Ends.catch hp fun result s' h => Prog.ends_act.2 fun _ _ => ⟨rfl, hr result s' h⟩

/-- The step lemma for a queued Run. -/
theorem PassInv.queued_step {A : List (Kind × RunId)} (h : PassInv s₀ s A)
    (hA : (Kind.queued, r) ∉ A) (hr : r ∈ s.shutdownPending) :
    (runTask (.queued r)).Ends Choice.Succeeds (fun result s' =>
      result = .ok () ∧ PassInv s₀ s' ((.queued, r) :: A)) s := by
  have hfate := h.queued_fate r ((h.queued r).1 hr).1 hA
  refine ends_runTask (ends_performQueued s r) ?_
  rintro result s' (⟨hc, rfl, doc, hdoc, rfl⟩ | ⟨hc, ⟨e, rfl⟩, rfl⟩)
  · rw [hfate] at hc
    exact {
      queued := fun q => by
        have hmem : q ∈ s.shutdownPending.erase r ↔ q ≠ r ∧ q ∈ s.shutdownPending :=
          h.nodup.mem_erase_iff
        show q ∈ s.shutdownPending.erase r ↔ _
        rw [hmem, h.queued q]
        rcases eq_or_ne q r with rfl | hne
        · simp [hc]
        · simp [hne]
      nodup := h.nodup.erase r
      admission := fun q f => (h.admission q f).trans (by simp)
      active := fun q => (h.active q).trans (by simp)
      queued_fate := fun q hq hn => by
        have hne : q ≠ r := fun e => hn (e ▸ List.mem_cons_self ..)
        exact (update_of_ne hne ..).trans
          (h.queued_fate q hq fun hm => hn (List.mem_cons_of_mem _ hm))
      admission_fate := fun q f hq hn => by
        have hn' : (Kind.admission, q) ∉ A := fun hm => hn (List.mem_cons_of_mem _ hm)
        show SettlesAdmission f (update s.store r (.run doc) q) ↔ _
        rcases eq_or_ne q r with rfl | hne
        · rw [update_self]
          refine ⟨fun _ => ?_, fun _ => ?_⟩
          · cases hw : s₀.store q <;> simp_all [CancelsQueued, SettlesAdmission]
            rcases hc with hc | hc <;> simp [hc]
          · constructor <;> rintro hs <;> simp [hs, RunStatus.terminal] at hdoc
        · rw [update_of_ne hne]
          exact h.admission_fate q f hq hn'
      left := fun q hq => by
        show LeftPending (update s.store r (.run doc) q)
        rcases eq_or_ne q r with rfl | hne
        · rw [update_self]
          exact .of_terminal rfl hdoc
        · rw [update_of_ne hne]
          exact h.left q hq }
  · rw [hfate] at hc
    exact { h with
      queued := fun q => by
        show q ∈ s'.shutdownPending ↔ _
        rw [h.queued q]
        rcases eq_or_ne q r with rfl | hne
        · simp [hc]
        · simp [hne]
      admission := fun q f => (h.admission q f).trans (by simp)
      active := fun q => (h.active q).trans (by simp)
      queued_fate := fun q hq hn => h.queued_fate q hq fun hm => hn (List.mem_cons_of_mem _ hm)
      admission_fate := fun q f hq hn =>
        h.admission_fate q f hq fun hm => hn (List.mem_cons_of_mem _ hm) }

/-- The step lemma for an unresolved admission. -/
theorem PassInv.admission_step {A : List (Kind × RunId)} (h : PassInv s₀ s A)
    {f : AdmissionFailure} (hA : (Kind.admission, r) ∉ A)
    (hr : s.unresolvedAdmissionRuns.lookup r = some f)
    (hq : ∀ q ∈ s.shutdownPending, (Kind.queued, q) ∈ A) :
    (runTask (.admission r f)).Ends Choice.Succeeds (fun result s' =>
      result = .ok () ∧ PassInv s₀ s' ((.admission, r) :: A)) s := by
  have hr₀ := ((h.admission r f).1 hr).1
  have hfate := h.admission_fate r f hr₀ hA
  have hall : ∀ q ∈ s₀.shutdownPending, (Kind.queued, q) ∈ A := fun q hm => by
    by_contra hn
    exact hn (hq q ((h.queued q).2 ⟨hm, fun hc => hn hc.1⟩))
  refine ends_runTask (ends_performAdmission s r f) ?_
  -- The workspace of `r` becomes `w`, which no later task minds.
  have hresolved : ∀ w, SettlesAdmission f (s.store r) →
      (LeftPending (s.store r) → LeftPending w) →
      PassInv s₀ ((Wrote s r w).recordShutdownTask .admission r (.ok true))
        ((.admission, r) :: A) := by
    intro w hc hw
    rw [hfate] at hc
    exact {
      queued := fun q => (h.queued q).trans (by simp)
      nodup := h.nodup
      admission := fun q f' => by
        show (s.unresolvedAdmissionRuns.erase r).lookup q = some f' ↔ _
        rcases eq_or_ne q r with rfl | hne
        · simp only [AList.lookup_erase, reduceCtorEq, List.mem_cons_self, true_and, false_iff,
            not_and, not_not]
          intro hf'
          obtain rfl : f = f' := by simpa [hr₀] using hf'
          exact hc
        · rw [AList.lookup_erase_ne hne, h.admission q f']
          simp [hne]
      active := fun q => (h.active q).trans (by simp)
      queued_fate := fun q hq hn => absurd (List.mem_cons_of_mem _ (hall q hq)) hn
      admission_fate := fun q f' hq hn => by
        have hne : q ≠ r := fun e => hn (e ▸ List.mem_cons_self ..)
        show SettlesAdmission f' (update s.store r w q) ↔ _
        rw [update_of_ne hne]
        exact h.admission_fate q f' hq fun hm => hn (List.mem_cons_of_mem _ hm)
      left := fun q hq => by
        show LeftPending (update s.store r w q)
        rcases eq_or_ne q r with rfl | hne
        · rw [update_self]
          exact hw (h.left q hq)
        · rw [update_of_ne hne]
          exact h.left q hq }
  rintro result s' (⟨hc, rfl, ⟨hw, rfl⟩ | ⟨doc, hdoc, rfl⟩⟩ | ⟨hc, rfl, rfl⟩)
  · exact hresolved .gone hc fun ⟨doc, hd, _⟩ => by simp [hw] at hd
  · exact hresolved (.run doc) hc fun _ => .of_terminal rfl hdoc
  · rw [hfate] at hc
    exact { h with
      queued := fun q => (h.queued q).trans (by simp)
      admission := fun q f' => by
        show s'.unresolvedAdmissionRuns.lookup q = some f' ↔ _
        rw [h.admission q f']
        rcases eq_or_ne q r with rfl | hne
        · simp only [List.mem_cons_self, true_and, and_congr_right_iff]
          intro hf'
          obtain rfl : f = f' := by simpa [hr₀] using hf'
          simp [hc]
        · simp [hne]
      active := fun q => (h.active q).trans (by simp)
      queued_fate := fun q hq hn => absurd (List.mem_cons_of_mem _ (hall q hq)) hn
      admission_fate := fun q f' hq hn =>
        h.admission_fate q f' hq fun hm => hn (List.mem_cons_of_mem _ hm) }

/-- The step lemma for a worker failure. -/
theorem PassInv.active_step {A : List (Kind × RunId)} (h : PassInv s₀ s A) {e : RunError}
    (hr : r ∈ s.unresolvedActiveRuns) (hq : ∀ q ∈ s.shutdownPending, (Kind.queued, q) ∈ A)
    (ha : ∀ q f, s.unresolvedAdmissionRuns.lookup q = some f → (Kind.admission, q) ∈ A) :
    (runTask (.active r e)).Ends Choice.Succeeds (fun result s' =>
      result = .ok () ∧ PassInv s₀ s' ((.active, r) :: A)) s := by
  have hall : ∀ q ∈ s₀.shutdownPending, (Kind.queued, q) ∈ A := fun q hm => by
    by_contra hn
    exact hn (hq q ((h.queued q).2 ⟨hm, fun hc => hn hc.1⟩))
  have hall' : ∀ q f, s₀.unresolvedAdmissionRuns.lookup q = some f → (Kind.admission, q) ∈ A :=
    fun q f hm => by
      by_contra hn
      exact hn (ha q f ((h.admission q f).2 ⟨hm, fun hc => hn hc.1⟩))
  refine ends_runTask (ends_performActive (h.left r ((h.active r).1 hr).1) e) ?_
  rintro result s' ⟨rfl, doc, hdoc, rfl⟩
  exact {
    queued := fun q => (h.queued q).trans (by simp)
    nodup := h.nodup
    admission := fun q f => (h.admission q f).trans (by simp)
    active := fun q => by
      show q ∈ s.unresolvedActiveRuns.erase r ↔ _
      rw [AList.mem_erase, h.active q]
      simp only [List.mem_cons, Prod.mk.injEq, true_and, not_or]
      tauto
    queued_fate := fun q hm hn => absurd (List.mem_cons_of_mem _ (hall q hm)) hn
    admission_fate := fun q f hm hn => absurd (List.mem_cons_of_mem _ (hall' q f hm)) hn
    left := fun q hm => by
      show LeftPending (update s.store r (.run doc) q)
      rcases eq_or_ne q r with rfl | hne
      · rw [update_self]
        exact .of_terminal rfl hdoc
      · rw [update_of_ne hne]
        exact h.left q hm }

/-- The step lemma of the pass. -/
theorem PassInv.step {A : List (Kind × RunId)} {task : Task} (h : PassInv s₀ s A)
    (ht : s.shutdownTask A allKinds = some task) :
    (runTask task).Ends Choice.Succeeds (fun result s' =>
      result = .ok () ∧ PassInv s₀ s' ((task.kind, task.run) :: A)) s := by
  obtain ⟨hA, hnext⟩ := shutdownTask_some ht
  cases task with
  | queued r => exact h.queued_step hA hnext
  | admission r f => exact h.admission_step hA hnext.1 hnext.2
  | active r e => exact h.active_step hnext.1 hnext.2.1 hnext.2.2

/-- A pass that has nothing left to attempt has resolved what was resolvable. -/
theorem PassInv.drained_iff {A : List (Kind × RunId)} (h : PassInv s₀ s A)
    (hnone : s.shutdownTask A allKinds = none) : Drained s ↔ Drainable s₀ := by
  obtain ⟨hq, ha, hact⟩ := shutdownTask_none hnone
  constructor
  · intro hd
    refine ⟨fun r hr => ?_, fun r f hf => ?_⟩
    · by_contra hc
      have hm := (h.queued r).2 ⟨hr, fun hc' => hc hc'.2⟩
      simp [hd.queued] at hm
    · by_contra hc
      have hm := (h.admission r f).2 ⟨hf, fun hc' => hc hc'.2⟩
      exact hd.admission r (AList.lookup_isSome.1 (by simp [hm]))
  · intro hd
    refine ⟨List.eq_nil_iff_forall_not_mem.2 fun r hr => ?_, fun r hr => ?_,
      fun r hr => ((h.active r).1 hr).2 (hact r hr)⟩
    · have hm := (h.queued r).1 hr
      exact hm.2 ⟨hq r hr, hd.queued r hm.1⟩
    · obtain ⟨f, hf⟩ := Option.isSome_iff_exists.1 (AList.lookup_isSome.2 hr)
      have hm := (h.admission r f).1 hf
      exact hm.2 ⟨ha r f hf, hd.admission r f hm.1⟩

/-- A task that is attempted counts no more. -/
theorem PassInv.remaining_lt {A : List (Kind × RunId)} {task : Task} (h : PassInv s₀ s A)
    (ht : s.shutdownTask A allKinds = some task) :
    ((taskKeys s₀).filter (· ∉ (task.kind, task.run) :: A)).length <
      ((taskKeys s₀).filter (· ∉ A)).length := by
  obtain ⟨hA, hnext⟩ := shutdownTask_some ht
  have hkey : (task.kind, task.run) ∈ taskKeys s₀ := by
    cases task with
    | queued r =>
        exact List.mem_append_left _ (List.mem_append_left _
          (List.mem_map.2 ⟨r, ((h.queued r).1 hnext).1, rfl⟩))
    | admission r f =>
        have hm := AList.lookup_isSome.1 (Option.isSome_of_eq_some ((h.admission r f).1 hnext.1).1)
        exact List.mem_append_left _ (List.mem_append_right _
          (List.mem_map.2 ⟨r, AList.mem_keys.1 hm, rfl⟩))
    | active r e =>
        exact List.mem_append_right _
          (List.mem_map.2 ⟨r, AList.mem_keys.1 ((h.active r).1 hnext.1).1, rfl⟩)
  have hsplit : (taskKeys s₀).filter (· ∉ (task.kind, task.run) :: A) =
      ((taskKeys s₀).filter (· ∉ A)).filter (· ≠ (task.kind, task.run)) := by
    rw [List.filter_filter]
    exact List.filter_congr fun x _ => by simp
  rw [hsplit, List.length_filter_lt_length_iff_exists]
  exact ⟨_, List.mem_filter.2 ⟨hkey, by simpa using hA⟩, by simp⟩

/-- The drain looks for a task first. -/
theorem drainStep_none {A : List (Kind × RunId)} {kinds : List Kind} {deadline : Bool} (c : Choice)
    (h : s.shutdownTask A kinds = none) (task : Task) : s.drainStep c deadline A kinds ≠ .task task := by
  unfold World.drainStep
  rw [h]
  dsimp only
  split_ifs <;> simp

/-- The pass ends when every store call succeeds, and leaves no task exactly when every
task was resolvable. -/
theorem ends_drainPass {n : Nat} {A : List (Kind × RunId)} (h : PassInv s₀ s A)
    (hn : ((taskKeys s₀).filter (· ∉ A)).length < n) :
    (drainPass false allKinds n A).Ends Choice.Succeeds (fun result s' =>
      (∃ x, result = .ok x) ∧ (Drained s' ↔ Drainable s₀)) s := by
  induction n generalizing s A with
  | zero => exact absurd hn (Nat.not_lt_zero _)
  | succ n ih =>
      refine Prog.Ends.seq (Q := fun result s' => s' = s ∧
        (result.isOk = true ∧ s.shutdownTask A allKinds = none ∧
            (∀ task, result ≠ .ok (.task task)) ∨
          ∃ task, s.shutdownTask A allKinds = some task ∧ result = .ok (.task task))) ?_ ?_ ?_
      · refine Prog.ends_act.2 fun c _ => ⟨rfl, ?_⟩
        cases ht : s.shutdownTask A allKinds with
        | some task => exact .inr ⟨task, rfl, by simp [World.drainStep, ht]⟩
        | none =>
            exact .inl ⟨rfl, rfl, fun task he => drainStep_none c ht task (Except.ok.inj he)⟩
      · rintro next s' ⟨rfl, ⟨_, ht, hne⟩ | ⟨task, ht, hnext⟩⟩
        · cases next with
          | task task => exact absurd rfl (hne task)
          | wait | again | stop => exact ⟨⟨_, rfl⟩, h.drained_iff ht⟩
        · obtain rfl := Except.ok.inj hnext
          refine Prog.Ends.seq (h.step ht) ?_ (by simp)
          rintro _ s'' ⟨_, hpass⟩
          exact ih hpass (Nat.lt_of_lt_of_le (h.remaining_lt ht) (Nat.lt_succ_iff.1 hn))
      · rintro e s' ⟨_, ⟨hok, _⟩ | ⟨task, _, he⟩⟩
        · simp [Except.isOk, Except.toBool] at hok
        · simp at he

/-! ## Every reachable manager -/

variable {τ : Type} [DecidableEq τ] {store : Store} {queueCapacity : Nat}
  {p : Pool τ World Choice Exc Reply}

/-- What the drain needs, in terms of the statuses that a shutdown can find: a terminal
Run of the queue was cancelled there by the shutdown itself, and a Run whose admission is
unresolved is not being executed and has a workspace, with its document or from a failed
creation. -/
structure DrainsCleanly (s : World) : Prop where
  queued : ∀ r ∈ s.shutdownPending, ∀ doc, s.store r = .run doc → doc.status.terminal = true →
    doc.status = .cancelled ∧
      ∃ existing, doc.cancellation = some existing ∧ existing.ofQueue serverShutdown = true
  idle : ∀ r ∈ s.unresolvedAdmissionRuns,
    s.store.status? r ≠ some .running ∧ s.store.status? r ≠ some .cancelling
  created : ∀ r f, s.unresolvedAdmissionRuns.lookup r = some f → (s.store r).doc? = none →
    s.store r = .incomplete ∧ f.inCreation = true

omit [DecidableEq τ] in
theorem Inv.drainable_iff {g : τ → Role} (h : Inv s g) : Drainable s ↔ DrainsCleanly s := by
  constructor
  · intro hd
    refine ⟨fun r hr doc hdoc ht => ?_, fun r hr => ?_, fun r f hf hdoc => ?_⟩
    · have hc := hd.queued r hr
      rw [hdoc] at hc
      rcases hc with hq | hq
      · simp [hq, RunStatus.terminal] at ht
      · exact hq
    · obtain ⟨f, hf⟩ := Option.isSome_iff_exists.1 (AList.lookup_isSome.2 hr)
      have hset := hd.admission r f hf
      cases hw : s.store r <;> simp_all [Store.status?, Workspace.doc?, SettlesAdmission]
    · have hset := hd.admission r f hf
      cases hw : s.store r <;> simp_all [Workspace.doc?, SettlesAdmission]
  · intro hd
    refine ⟨fun r hr => ?_, fun r f hf => ?_⟩
    · rcases h.queued r (.inr hr) with hq | ⟨doc, hdoc, ht⟩
      · cases hw : s.store r <;> simp_all [Store.status?, Workspace.doc?, CancelsQueued]
      · rw [hdoc]
        exact .inr (hd.queued r hr doc hdoc ht)
    · have hidle := hd.idle r (AList.lookup_isSome.1 (Option.isSome_of_eq_some hf))
      have hcreated := hd.created r f hf
      cases hw : s.store r <;>
        simp_all [Store.status?, Workspace.doc?, SettlesAdmission]

/-- The pass over all tasks of a reachable manager. -/
theorem Reachable.ends_drainPass (h : Reachable store queueCapacity p) {n : Nat}
    (hn : (taskKeys p.shared).length < n) :
    (drainPass false allKinds n []).Ends Choice.Succeeds (fun result s' =>
      (∃ x, result = .ok x) ∧ (Drained s' ↔ Drainable p.shared)) p.shared := by
  obtain ⟨g, hinv, _⟩ := h.keeps
  have hpass : PassInv p.shared p.shared [] := by
    refine .start ?_ fun r hr => ?_
    · have hn := hinv.enqueued_nodup
      rw [World.enqueued, List.nodup_append] at hn
      exact hn.2.1
    · exact hinv.committed r (hinv.enqueued_committed r (List.mem_append_left _
        (List.mem_append_left _ (hinv.unresolved_handed r hr))))
  refine Execution.ends_drainPass hpass ?_
  simpa using hn

/-- One pass of the drain resolves every shutdown task, in every reachable manager and
whenever all store calls succeed, exactly when the manager drains cleanly. -/
theorem drainPass_resolves_iff (h : Reachable store queueCapacity p) {n : Nat}
    (hn : (taskKeys p.shared).length < n) :
    (drainPass false allKinds n []).Ends Choice.Succeeds (fun result s' =>
      (∃ x, result = .ok x) ∧ (Drained s' ↔ DrainsCleanly p.shared)) p.shared := by
  obtain ⟨g, hinv, _⟩ := h.keeps
  exact Prog.Ends.mono (fun result s' h => ⟨h.1, h.2.trans hinv.drainable_iff⟩)
    (h.ends_drainPass hn)

/-- A Run that waits in the queue is resolved by the pass. -/
theorem drainPass_resolves_iff_queued : ∃ p : Pool Nat World Choice Exc Reply,
    p.shared.shutdownPending = ["a"] ∧
    (drainPass false allKinds 2 []).Ends Choice.Succeeds (fun _ s' => Drained s') p.shared := by
  obtain ⟨p, hp, hc⟩ := System.exists_of_run (τ := Nat) (S := manager)
    (p := Pool.start (newManager (fun _ => .absent) 8))
    ([.spawn 0 (.create "a" .build), .exec 0 {}, .spawn 1 (.start none), .exec 1 {},
      .spawn 2 (.submit "a"), .exec 2 {}, .exec 2 {}, .exec 2 {},
      .spawn 3 .beginShutdown, .exec 3 {}])
    (fun p => decide (p.shared.shutdownPending = ["a"] ∧
      p.shared.unresolvedAdmissionRuns.keys = [] ∧ p.shared.unresolvedActiveRuns.keys = [] ∧
      p.shared.store.status? "a" = some .queued)) (by rfl)
  obtain ⟨hq, hu, ha, hs⟩ := of_decide_eq_true hc
  have hnone : ∀ r, r ∉ p.shared.unresolvedAdmissionRuns := fun r hr => by
    simpa [hu] using AList.mem_keys.1 hr
  refine ⟨p, hq, Prog.Ends.mono (fun _ s' h => h.2.2 ?_)
    (drainPass_resolves_iff (show Reachable (fun _ => .absent) 8 p from hp) (n := 2)
      (by simp [taskKeys, hq, hu, ha]))⟩
  refine ⟨fun r hr doc hdoc ht => ?_, fun r hr => absurd hr (hnone r), fun r f hf => ?_⟩
  · rw [hq, List.mem_singleton] at hr
    subst hr
    rw [Store.status?, hdoc] at hs
    simp_all [RunStatus.terminal, Workspace.doc?]
  · exact absurd (AList.lookup_isSome.1 (Option.isSome_of_eq_some hf)) (hnone r)

/-- A user's cancellation that is saved and then raises leaves a Run in the queue that is
terminal, and that no pass of the drain resolves. -/
theorem not_drainPass_resolves : ∃ p : Pool Nat World Choice Exc Reply,
    Reachable (fun _ => .absent) 8 p ∧ p.shared.shutdownStarted = true ∧
    p.shared.shutdownPending = ["a"] ∧ p.shared.store.Terminal "a" ∧
    (drainPass false allKinds 2 []).Ends Choice.Succeeds (fun _ s' => ¬ Drained s') p.shared := by
  obtain ⟨p, hp, hc⟩ := System.exists_of_run (τ := Nat) (S := manager)
    (p := Pool.start (newManager (fun _ => .absent) 8))
    ([.spawn 0 (.create "a" .build), .exec 0 {}, .spawn 1 (.start none), .exec 1 {},
      .spawn 2 (.submit "a"), .exec 2 {}, .exec 2 {}, .exec 2 {},
      .spawn 3 (.cancel "a"), .exec 3 { write := .late (.other "OSError" true true) },
      .spawn 4 .beginShutdown, .exec 4 {}])
    (fun p => decide (p.shared.shutdownStarted = true ∧
      p.shared.shutdownPending = ["a"] ∧
      p.shared.unresolvedAdmissionRuns.keys = [] ∧ p.shared.unresolvedActiveRuns.keys = []) &&
      (p.shared.store "a").doc?.any fun run : Run => decide (run.status = RunStatus.cancelled) &&
        run.cancellation.any fun existing => !existing.ofQueue serverShutdown)
    (by rfl)
  simp only [Bool.and_eq_true, decide_eq_true_eq, Option.any_eq_true] at hc
  obtain ⟨⟨hstart, hq, hu, ha⟩, doc, hdoc, hcancelled, existing, hex, hother⟩ := hc
  have hdoc : p.shared.store "a" = .run doc := Workspace.doc?_eq_some.1 hdoc
  refine ⟨p, hp, hstart, hq, ⟨doc, hdoc, by simp [hcancelled, RunStatus.terminal]⟩, ?_⟩
  refine Prog.Ends.mono (fun _ s' h hd => ?_) (Reachable.ends_drainPass hp (n := 2)
    (by simp [taskKeys, hq, hu, ha]))
  have hcancels := (h.2.1 hd).queued "a" (by simp [hq])
  simp_all [CancelsQueued]

end Execution
end DebBuilder
