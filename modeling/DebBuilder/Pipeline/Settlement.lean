import Mathlib
import DebBuilder.Pipeline.Stages
import DebBuilder.Lib.Trace

/-!
# Who settles the end of an execution

A cancellation that has been accepted and a claim that has won exclude each other.
Before the claim, only a cancellation or the worker's finalizer writes a terminal status;
after it, only the claimed one is written, or `failed` when an exception has come in
between.

## Main results

* `cancellation_settles` — an accepted cancellation never ends in success, and a claim
  that has won decides the status.
-/

namespace DebBuilder
namespace Pipeline
open Lib Function

variable {τ : Type} [DecidableEq τ] {t : τ} {r : RunId} {first : Run} {α : Type}

/-! ## Before the pipeline -/

/-- A Run that may be handed to the worker: it waits in the queue, or has been
terminalized there. -/
def Admitted (first : Run) : Prop :=
  first.status = .queued ∨ first.status = .cancelled ∨ first.status = .failed

/-- The execution has not done anything yet. -/
def Fresh (r : RunId) (first : Run) (o : Worked) : Prop :=
  o.claimed = none ∧ o.store r = .run first

/-- Nobody has claimed the end. -/
def Unwon (r : RunId) (first : Run) (o : Worked) : Prop := o.claimed = none ∧ Outcome r first o

variable {o : Worked}

theorem Fresh.unwon (h : Fresh r first o) : Unwon r first o := ⟨h.1, first, h.2, .inl rfl⟩

theorem Unwon.ready (h : Unwon r first o) : Ready r first o := h.2.ready h.1

theorem Unclaimed.unwon (h : Unclaimed r o) : Unwon r first o := ⟨h.1, h.outcome⟩

/-- An exception where nothing depends on its note. -/
theorem ready_raising {s : Job} {e : Raised} (h : Ready r first s.toWorked) :
    Ready r first (s.raising e : Except Raised α × Job).2.toWorked := h.raised

/-- A section that may raise, in any phase that allows it. -/
theorem ready_may {f : JobChoice → Job → Except Raised Unit × Job}
    (hf : ∀ c s, f c s = (.ok (), s) ∨ ∃ e, f c s = s.raising e) :
    (worker r first).Triple t (Ready r first) (.act f) fun _ => Ready r first := by
  refine triple_quiet fun c s hinv hP => ?_
  rcases hf c s with h | ⟨e, h⟩ <;> rw [h]
  · exact ⟨⟨rfl, rfl, rfl, rfl⟩, hinv.outcome, hP⟩
  · exact ⟨raising_quiet s e, (ready_raising hP).outcome, ready_raising hP⟩

theorem ready_reload : (worker r first).Triple t (Ready r first) reload fun _ => Ready r first := by
  refine ready_may fun c s => ?_
  cases c.read with
  | none => exact .inl rfl
  | some e => exact .inr ⟨_, rfl⟩

theorem ready_afterExecution :
    (worker r first).Triple t (Ready r first) afterExecution fun _ => Ready r first := by
  refine ready_may fun c s => ?_
  cases c.after with
  | none => exact .inl rfl
  | some e => exact .inr ⟨_, rfl⟩

theorem ready_guardLog (done : Terminalized) :
    (worker r first).Triple t (Ready r first) (guardLog done) fun _ => Ready r first := by
  cases done with
  | answer _ => exact .pure fun _ => id
  | saved =>
      refine ready_may fun c s => ?_
      cases c.log with
      | none => exact .inl rfl
      | some e =>
          dsimp only
          split
          · exact .inl rfl
          · exact .inr ⟨_, rfl⟩

/-- The first read leaves a fresh execution fresh. -/
theorem fresh_reload :
    (worker r first).Triple t (Fresh r first) reload
      (fun res o => match res with | .ok _ => Fresh r first o | .error _ => Ready r first o) := by
  refine triple_quiet fun c s hinv hP => ?_
  cases c.read with
  | none => exact ⟨⟨rfl, rfl, rfl, rfl⟩, hinv.outcome, hP⟩
  | some e =>
      have hready : Ready r first (s.raising (.other e) : Except Raised Unit × Job).2.toWorked :=
        ready_raising hP.unwon.ready
      exact ⟨raising_quiet s _, hready.outcome, hready⟩

/-- The rule of a decision about the durable Run: an answer that is given at once must be
ready, and what is saved must be terminal and allowed. -/
theorem ready_onRun {P : Worked → Prop}
    {change : Choice → Option Run → Except Exc Terminalized ⊕ Run × Terminalized}
    (h : ∀ o doc c, P o → o.store r = .run doc → Allowed first o doc →
      (∀ a, change c (some doc) = .inl (.ok a) → Ready r first o) ∧
      ∀ doc' a, change c (some doc) = .inr (doc', a) →
        doc'.status.terminal = true ∧ Allowed first o doc') :
    (worker r first).Triple t P (onRun r change) fun _ => Ready r first := by
  refine triple_quiet fun c s hinv hP => ?_
  obtain ⟨doc, hdoc, hallowed⟩ := hinv.outcome
  obtain ⟨hanswer, hsave⟩ := h _ doc c.toChoice hP hdoc hallowed
  have hraised : Ready r first { s.toWorked with raised := s.raised || s.claimed.isSome } := by
    cases hc : s.claimed with
    | none => exact (hinv.outcome.ready hc).raised
    | some status =>
        refine ⟨doc, hdoc, hallowed.imp id (Or.imp id fun h => ?_), by simp⟩
        simp only [hc] at h ⊢
        exact h.imp id fun hf => ⟨hf.1, by simp⟩
  have hready : Ready r first
      (s.calls (s.store.rewrite r c.read c.write (change c.toChoice))).2.toWorked := by
    rcases Store.rewrite_cases (s := s.store) (r := r) c.read c.write (change c.toChoice) with
      ⟨e, he⟩ | ⟨answer, hc, he⟩ | ⟨doc', a, hc, -, he⟩ <;> rw [he]
    · exact hraised
    · rw [hdoc, Workspace.doc?_run] at hc
      cases answer with
      | ok a => exact hanswer a hc
      | error e => exact hraised
    · rw [hdoc, Workspace.doc?_run] at hc
      obtain ⟨ht, hdoc'⟩ := hsave doc' a hc
      have hsaved : Ready r first { s.toWorked with store := update s.store r (.run doc') } :=
        ⟨doc', update_self .., hdoc', fun _ hn => by simp [ht] at hn⟩
      cases hw : c.write.result with
      | ok _ => exact hsaved
      | error e => exact hsaved.raised
  exact ⟨(calls_cases s _).1, hready.outcome, hready⟩

/-! ## The storage guard -/

/-- The guard's claim has won. -/
def GuardClaimed (r : RunId) (first : Run) (o : Worked) : Prop :=
  o.claimed = some .failed ∧ o.store r = .run first

theorem ready_failGuarded (hfirst : Admitted first) (failure : RunError) :
    (worker r first).Triple t (GuardClaimed r first) (onRun r fun c => failGuarded c failure)
      fun _ => Ready r first := by
  refine ready_onRun fun o doc c hP hdoc hallowed => ?_
  obtain rfl : first = doc := Workspace.run.inj (hP.2.symm.trans hdoc)
  rcases hfirst with hs | hs | hs <;> simp only [failGuarded, hs]
  · refine ⟨by simp, ?_⟩
    rintro doc a h
    obtain ⟨rfl, -⟩ := Prod.mk.inj (Sum.inr.inj h)
    exact ⟨rfl, .inr (.inr (by rw [hP.1]; exact .inl rfl))⟩
  · refine ⟨fun _ _ => ⟨first, hdoc, hallowed, fun _ hn => ?_⟩, by simp⟩
    simp [hs, RunStatus.terminal] at hn
  · exact ⟨by simp, by simp⟩

theorem ready_cancelGuarded (request : Option CancelRequest) :
    (worker r first).Triple t (Fresh r first) (onRun r fun c => cancelGuarded c request)
      fun _ => Ready r first := by
  refine ready_onRun fun o doc c hP hdoc hallowed => ⟨fun _ _ => hP.unwon.ready, ?_⟩
  intro doc' a h
  have hcancelled : doc'.status = .cancelled := by
    cases hs : doc.status <;> simp [cancelGuarded, hs] at h <;> rw [← h.1] <;> rfl
  exact ⟨by rw [hcancelled]; rfl, .inr (.inr (by rw [hP.1]; exact .inl hcancelled))⟩

theorem ready_storageGuard (hfirst : Admitted first) (failure : RunError) :
    (worker r first).Triple t (Fresh r first) (terminalizeStorageGuardFailure r failure)
      fun _ => Ready r first := by
  refine .seq (triple_claimSection fun o h => ⟨h.1, first, h.2, .inl rfl⟩) (fun won => ?_)
    fun _ _ => False.elim
  cases won with
  | true =>
      refine .seq ((ready_failGuarded hfirst failure).pre ?_) ready_guardLog fun _ _ => id
      rintro _ ⟨o, ho, rfl⟩
      exact ⟨rfl, ho.2⟩
  | false =>
      refine .seq (Q := fun _ => Fresh r first) (.look fun _ _ _ h => h) (fun request => ?_)
        fun _ _ h => h.unwon.ready
      exact .seq (ready_cancelGuarded request) ready_guardLog fun _ _ => id

/-! ## The execution -/

theorem triple_loadRun :
    (worker r first).Triple t (Fresh r first) (loadRun r)
      (fun res o => match res with | .ok _ => Unclaimed r o | .error _ => Ready r first o) := by
  refine triple_quiet fun c s hinv hP => ?_
  have hraise : ∀ e : Raised, Quiet s (s.raising e : Except Raised Unit × Job).2 ∧
      Outcome r first (s.raising e : Except Raised Unit × Job).2.toWorked ∧
      Ready r first (s.raising e : Except Raised Unit × Job).2.toWorked := fun e =>
    have hready := ready_raising (α := Unit) (e := e) hP.unwon.ready
    ⟨raising_quiet s e, hready.outcome, hready⟩
  have hstore : s.store r = .run first := hP.2
  rw [if_neg (by simp [hstore, Workspace.onDisk])]
  cases hread : c.read with
  | some e => exact hraise _
  | none =>
      simp only [Store.load_none, hstore, Workspace.doc?_run]
      by_cases hq : first.status = .queued
      · rw [if_pos hq]
        exact ⟨⟨rfl, rfl, rfl, rfl⟩, hinv.outcome, hP.1, first, hstore, by
          simp [hq, RunStatus.terminal]⟩
      · rw [if_neg hq]
        exact hraise _

/-- A cancellation before the claim ends in `cancelled` or `failed`. -/
theorem ready_finalizeCancellation (note : CancelNote) (terminationError : String) :
    (worker r first).Triple t (Unclaimed r) (finalizeExecutionCancellation r note terminationError)
      fun _ => Ready r first := by
  refine .seq (Q := fun _ o => Unclaimed r o ∧ (o.run.status = .cancelled ∨ o.run.status = .failed))
    (triple_edit fun now o h => ⟨h, o.run.finishCancelled_status note terminationError now⟩)
    (fun _ => ?_) fun _ _ h => h.1.unwon.ready
  refine .seq (Q := fun _ => Ready r first) (triple_quiet fun c s hinv hP => ?_)
    (fun _ => ready_may fun c s => ?_) fun _ _ => id
  · have hs := saves_appendEvent (r := r) c s
    obtain ⟨⟨hnone, doc, hdoc, ht⟩, hstatus⟩ := hP
    have hnone' : (s.appendEvent c r).2.claimed = none := hs.quiet.claimed.trans hnone
    have hsaved : Allowed first (s.appendEvent c r).2.toWorked s.run :=
      .inr (.inr (by rw [hnone']; exact hstatus))
    have hout : Outcome r first (s.appendEvent c r).2.toWorked := by
      rcases hs.saved with ⟨-, h⟩ | ⟨e, -, -, h | h⟩
      · exact ⟨_, h, hsaved⟩
      · exact ⟨_, h, hsaved⟩
      · exact ⟨doc, h.trans hdoc, .inr (.inl ht)⟩
    exact ⟨hs.quiet, hout, hout.ready hnone'⟩
  · cases c.log with
    | none => exact .inl rfl
    | some e => exact .inr ⟨_, rfl⟩

theorem ready_executePipelineRun (plan : Plan) (n : Nat) :
    (worker r first).Triple t (Fresh r first) (executePipelineRun r plan n)
      fun _ => Ready r first := by
  refine .seq triple_loadRun (fun _ => ?_) fun _ _ => id
  refine .seq (Q := fun _ => Unclaimed r) (.look fun _ _ _ h => h) (fun _ => ?_)
    fun _ _ (h : Unclaimed r _) => h.unwon.ready
  refine .seq (Q := fun _ => Unclaimed r) (.look fun _ _ _ h => h) (fun dryRun => ?_)
    fun _ _ (h : Unclaimed r _) => h.unwon.ready
  refine .catch (finish_runPipelineLocked plan dryRun n) fun res => ?_
  match res with
  | .ok () => exact .pure fun _ h => h.ready
  | .error (.cancelled note terminationError) =>
      refine (ready_finalizeCancellation note terminationError).pre fun o h => h.resolve_right ?_
      rintro ⟨_, _, x, hx⟩
      simp at hx
  | .error (.stage _) | .error (.pipeline ..) | .error (.other _) =>
      exact .throw fun _ h => h.elim (fun h => h.unwon.ready) Broken.ready

theorem ready_executeQueuedRecipeRun (hfirst : Admitted first) (plan : Plan) (n : Nat) :
    (worker r first).Triple t (Fresh r first) (executeQueuedRecipeRun r plan n)
      fun _ => Ready r first := by
  refine .seq fresh_reload (fun _ => ?_) fun _ _ => id
  refine .seq (Q := fun _ => Fresh r first) (.look fun _ _ _ h => h) (fun failure => ?_)
    fun _ _ h => h.unwon.ready
  refine .seq (Q := fun _ => Ready r first) ?_ (fun _ => ?_) fun _ _ => id
  · cases failure with
    | some failure => exact ready_storageGuard hfirst failure
    | none => exact ready_executePipelineRun plan n
  · exact .seq ready_reload (fun _ => ready_afterExecution) fun _ _ => id

/-! ## The worker -/

/-- A Run that has been read as terminal is. -/
def Resolved (r : RunId) (res : Except Raised Bool) (o : Worked) : Prop :=
  res = .ok true → ∃ doc, o.store r = .run doc ∧ doc.status.terminal = true

theorem ready_durablyTerminal :
    (worker r first).Triple t (Ready r first) (durablyTerminal r)
      (fun res o => Ready r first o ∧ Resolved r res o) := by
  refine .look fun c s hinv hP => ⟨hP, fun h => ?_⟩
  cases hl : s.store.load r c.read with
  | error e => simp [hl] at h
  | ok run =>
      cases run with
      | none => simp [hl] at h
      | some doc =>
          simp only [hl, Except.ok.injEq] at h
          exact ⟨doc, Workspace.doc?_eq_some.1 (Store.load_eq_ok hl), h⟩

theorem ready_finalizeWorkerError (failure : RunError) :
    (worker r first).Triple t (Ready r first) (finalizeWorkerError r failure)
      fun _ => Ready r first := by
  refine .catch (ready_onRun fun o doc c hP hdoc hallowed => ⟨fun _ _ => hP, ?_⟩) fun res => ?_
  · intro doc' a h
    obtain ⟨ht', run, hrun, ht⟩ := failWorker_terminal c failure _ _ _ h
    obtain rfl := Option.some.inj hrun
    have hfailed : doc'.status = .failed := by
      cases hs : doc.status <;> simp [failWorker, hs] at h <;> rw [← h.1]
    refine ⟨ht', .inr (.inr ?_)⟩
    obtain ⟨doc₀, hdoc₀, -, hraised⟩ := hP
    obtain rfl : doc₀ = doc := Workspace.run.inj (hdoc₀.symm.trans hdoc)
    cases hc : o.claimed with
    | none => exact .inr hfailed
    | some status => exact .inr ⟨hfailed, hraised (by simp [hc]) ht⟩
  · rcases res with e | b | _
    · dsimp only
      split
      · exact ready_durablyTerminal.mono (fun _ => id) fun _ _ h => h.1
      · exact .throw fun _ => id
    · exact .pure fun _ => id
    · exact .look fun _ _ _ h => h

theorem ready_executionFailure (ended : Except Raised Unit) :
    (worker r first).Triple t (Ready r first) (executionFailure r ended)
      fun _ => Ready r first := by
  cases ended with
  | error e => exact .pure fun _ => id
  | ok _ =>
      refine .seq ready_durablyTerminal (fun terminal => ?_) fun _ _ h => h.1
      cases terminal <;> exact .pure fun _ h => h.1

theorem ready_work (hfirst : Admitted first) (plan : Plan) (n : Nat) :
    (worker r first).Triple t (Fresh r first) (work r plan n)
      (fun res o => Ready r first o ∧ Resolved r res o) := by
  refine .catch (ready_executeQueuedRecipeRun hfirst plan n) fun ended => ?_
  refine .seq (ready_executionFailure ended) (fun failure => ?_) fun _ _ h => ⟨h, by simp [Resolved]⟩
  cases failure with
  | none => exact ready_durablyTerminal
  | some failure =>
      exact .catch (ready_finalizeWorkerError failure) fun _ => ready_durablyTerminal

/-! ## Every run -/

/-- How the threads of an execution end. -/
def JobEnd (r : RunId) (first : Run) (t : τ) :
    Except Raised JobReply → Job → (τ → Option Worked) → Prop
  | .ok (.worked resolved), s, g => (worker r first).Knows t (Resolved r (.ok resolved)) s g
  | .ok (.requested answer), s, _ => answer.accepted = true → s.accepted = true
  | .error _, _, _ => True

theorem wp_work (hfirst : Admitted first) (plan : Plan) (n : Nat) {s : Job} {g : τ → Option Worked} :
    wp ((worker r first).protocol τ) t (JobEnd r first t) (JobCall.code r (.work plan n)) s g := by
  refine wp_seq (Q := fun res s g => (worker r first).Knows t (Fresh r first) s g) ?_
    (fun _ s g hk => ?_) fun _ _ _ _ => trivial
  · refine wp_actWhen.2 fun s' g' hb c hc => ?_
    have hfree : s'.handed = false := by simpa using hc
    have hinv := hb.inv.1
    obtain ⟨hsec, hknows⟩ := Ownership.section_take (O := worker r first) (t := t)
      (P := Fresh r first) { s' with handed := true } hb.inv
      (by simp [worker, hfree])
      ⟨hinv.claimed, hinv.accepted, hinv.outcome, by simp⟩ ⟨id, fun _ => id⟩ rfl (hinv.fresh hfree)
    exact ⟨_, hsec, hknows⟩
  · refine wp_seq (ready_work hfirst plan n s g hk) (fun resolved s g hk => ?_)
      fun _ _ _ _ => trivial
    exact ⟨hk.inv, hk.own, hk.holds.2⟩

theorem wp_requestCancel (reason : String) (now : Time) {s : Job} {g : τ → Option Worked}
    (hg : g t = none) :
    wp ((worker r first).protocol τ) t (JobEnd r first t) (JobCall.code r (.requestCancel reason now))
      s g := by
  refine wp_act.2 fun s' g' hb c => ⟨none, ?_, fun ha => ?_⟩
  · have hinv : JobOk r first s' := hb.inv.1
    have howner := s'.control.requestCancel_owner reason now
    have hiff := s'.control.accepted_iff reason now
    refine Ownership.section_other hb.inv (hb.own.trans hg) ⟨?_, fun ha => ?_, hinv.outcome,
      hinv.fresh⟩ ⟨fun ha => ?_, fun _ => id⟩ rfl id
    · change (s'.control.requestCancel reason now).2.owner = _ ↔ s'.claimed.isSome = true
      rw [howner, ← hinv.claimed]
      split <;> simp_all
    · change (s'.control.requestCancel reason now).2.owner = _
      rw [howner, if_neg]
      have ha : (s'.accepted || (s'.control.requestCancel reason now).1.accepted) = true := ha
      rcases Bool.or_eq_true _ _ ▸ ha with h | h
      · simp [hinv.accepted h]
      · exact hiff.1 h
    · simp [Job.requestCancel, ha]
  · have ha : (s'.control.requestCancel reason now).1.accepted = true := ha
    simp [Job.requestCancel, ha]

theorem jobSound (hfirst : Admitted first) :
    ((worker r first).protocol τ).Sound (execution r) none (JobEnd r first) where
  stable t res s g s' g' h hb := by
    cases res with
    | error e => trivial
    | ok reply =>
        cases reply with
        | worked resolved => exact (Ownership.Knows.between h hb).1
        | requested answer => exact hb.evolves.accepted ∘ h
  call t k s g _ hg := by
    cases k with
    | work plan n => exact wp_work hfirst plan n
    | requestCancel reason now => exact wp_requestCancel reason now hg
  restart _ _ _ _ h := by simp [execution] at h

/-- The pools that an execution of the admitted Run `first` can reach. -/
def Reachable (r : RunId) (first : Run) (p : Pool τ Job JobChoice Raised JobReply) : Prop :=
  ∃ store : Store, store r = .run first ∧
    (execution r).Reaches (Pool.start (newJob store r)) p

theorem Reachable.keeps (hfirst : Admitted first) {p : Pool τ Job JobChoice Raised JobReply}
    (h : Reachable r first p) :
    ((worker r first).protocol τ).Keeps none (JobEnd r first) p := by
  obtain ⟨store, hstore, hp⟩ := h
  refine (jobSound hfirst).reaches (Protocol.keeps_start ⟨⟨?_, ?_, ?_, ?_⟩, ?_, ?_⟩) hp
  · simp [newJob]
  · simp [newJob]
  · exact ⟨first, hstore, .inl rfl⟩
  · exact fun _ => ⟨rfl, hstore⟩
  · simp
  · simp

/-- Without a claim, a terminal Run is cancelled or failed. -/
theorem Allowed.unclaimed {doc : Run} (h : Allowed first o doc) (hfirst : Admitted first)
    (hc : o.claimed = none) (ht : doc.status.terminal = true) :
    doc.status = .cancelled ∨ doc.status = .failed := by
  rcases h with rfl | hn | hs
  · rcases hfirst with hs | hs | hs
    · simp [hs, RunStatus.terminal] at ht
    · exact .inl hs
    · exact .inr hs
  · simp [ht] at hn
  · simpa [hc] using hs

/-- After a claim, a terminal Run is as claimed, or failed, or was terminal before. -/
theorem Allowed.claimed {doc : Run} {status : RunStatus} (h : Allowed first o doc)
    (hc : o.claimed = some status) (ht : doc.status.terminal = true) :
    doc.status = status ∨ doc.status = .failed ∧ o.raised = true ∨ doc = first := by
  rcases h with rfl | hn | hs
  · exact .inr (.inr rfl)
  · simp [ht] at hn
  · simp only [hc] at hs
    exact hs.imp id Or.inl

variable {p q : Pool τ Job JobChoice Raised JobReply}

/-- An accepted cancellation never ends in success.  A claim that has won refuses every
request, and the Run ends with the claimed status, or with `failed` when an exception has
come after the claim; a Run that was terminal before stays as it was. -/
theorem cancellation_settles (hfirst : Admitted first) (h : Reachable r first p)
    (hq : (execution r).Reaches p q) :
    ∃ doc, q.shared.store r = .run doc ∧
    (∀ t answer, p.Returned t (.requested answer) → answer.accepted = true →
      doc.status ≠ .success ∧ doc.status ≠ .prepared ∧
        (doc.status.terminal = true → doc.status = .cancelled ∨ doc.status = .failed)) ∧
    (∀ status, p.shared.claimed = some status →
      (∀ t answer, q.Returned t (.requested answer) → answer.accepted = false) ∧
      (doc.status.terminal = true →
        doc.status = status ∨ doc.status = .failed ∧ q.shared.raised = true ∨ doc = first)) ∧
    (∀ t, p.Returned t (.worked true) → doc.status.terminal = true) := by
  have hkp := h.keeps hfirst
  have hev : JobEvolves p.shared q.shared := (jobSound hfirst).evolves hkp hq
  have hkq := (jobSound hfirst).reaches hkp hq
  obtain ⟨g, hinv, -⟩ := id hkq
  have hok : JobOk r first q.shared := hinv.1
  obtain ⟨doc, hdoc, hallowed⟩ := hok.outcome
  have haccepted : ∀ t answer, q.Returned t (.requested answer) → answer.accepted = true →
      q.shared.claimed = none := fun t answer ht ha => by
    obtain ⟨_, _, hend⟩ := hkq.returned ht
    by_contra hc
    have howner := hok.claimed.2 (Option.isSome_iff_ne_none.2 hc)
    simp [hok.accepted (hend ha)] at howner
  refine ⟨doc, hdoc, fun t answer ht ha => ?_, fun status hc => ⟨fun t answer ht => ?_, fun hterm => ?_⟩,
    fun t ht => ?_⟩
  · have hnone := haccepted t answer (hq.returned (fun _ => rfl) ht) ha
    have hend := fun hterm => hallowed.unclaimed hfirst hnone hterm
    refine ⟨fun hs => ?_, fun hs => ?_, hend⟩
    · simp [hs, RunStatus.terminal] at hend
    · simp [hs, RunStatus.terminal] at hend
  · by_contra ha
    have hnone := haccepted t answer ht (by simpa using ha)
    simp [hev.claimed status hc] at hnone
  · exact hallowed.claimed (hev.claimed status hc) hterm
  · obtain ⟨_, _, hend⟩ := hkq.returned (hq.returned (fun _ => rfl) ht)
    obtain ⟨doc', hdoc', hterm⟩ := hend.holds rfl
    obtain rfl := Workspace.run.inj (hdoc'.symm.trans hdoc)
    exact hterm

/-- A cancellation that is accepted during the build of an upstream package ends it. -/
theorem cancellation_settles_cancelled :
    ∃ p : Pool Nat Job JobChoice Raised JobReply, ∃ doc answer,
      p.Returned 1 (.requested answer) ∧ answer.accepted = true ∧
      p.shared.store "a" = .run doc ∧ doc.status ≠ .success ∧ doc.status.terminal = true := by
  obtain ⟨p, hp, hc⟩ := System.exists_of_run (τ := Nat) (S := execution "a")
    (p := Pool.start (newJob (fun _ => .run { newRun "a" .build 0 with status := .queued }) "a"))
    (List.flatten [[.spawn 0 (.work { artifactMode := .upstreamDeb } 1)], List.replicate 90 (.exec 0 {}),
      [.spawn 1 (.requestCancel userRequested 5), .exec 1 {}], List.replicate 14 (.exec 0 {})])
    (fun p => ((p.result? 1).any fun
        | .requested answer => answer.accepted
        | .worked _ => false) &&
      (p.result? 0).any fun
        | .worked resolved => resolved
        | .requested _ => false) (by rfl)
  simp only [Bool.and_eq_true, Option.any_eq_true] at hc
  obtain ⟨⟨requested, hr, ha⟩, worked, hw, hres⟩ := hc
  have hreach : Reachable "a" { newRun "a" .build 0 with status := .queued } p := ⟨_, rfl, hp⟩
  have h := cancellation_settles (.inl rfl) hreach .refl
  obtain ⟨doc, hdoc, haccepted, -, hterm⟩ := h
  cases requested with
  | worked _ => simp at ha
  | requested answer =>
      cases worked with
      | requested _ => simp at hres
      | worked resolved =>
          obtain rfl : resolved = true := hres
          exact ⟨p, doc, answer, Pool.returned_of_result? hr, ha, hdoc,
            (haccepted 1 answer (Pool.returned_of_result? hr) ha).1,
            hterm 0 (Pool.returned_of_result? hw)⟩

/-- A claimed success ends in a failure when the log line of the artifact step cannot be
written. -/
theorem claimed_success_fails : ∃ p : Pool Nat Job JobChoice Raised JobReply,
    Reachable "a" { newRun "a" .build 0 with status := .queued } p ∧
    p.shared.claimed = some .success ∧ p.shared.store.status? "a" = some .failed ∧
    p.Returned 0 (.worked true) := by
  obtain ⟨p, hp, hc⟩ := System.exists_of_run (τ := Nat) (S := execution "a")
    (p := Pool.start (newJob (fun _ => .run { newRun "a" .build 0 with status := .queued }) "a"))
    (List.flatten [[.spawn 0 (.work { artifactMode := .upstreamDeb } 1)], List.replicate 98 (.exec 0 {}),
      [.exec 0 { log := some (.other "OSError" true true) }], List.replicate 3 (.exec 0 {})])
    (fun p => decide (p.shared.claimed = some .success ∧
        p.shared.store.status? "a" = some .failed) &&
      (p.result? 0).any fun
        | .worked resolved => resolved
        | .requested _ => false) (by rfl)
  simp only [Bool.and_eq_true, decide_eq_true_eq, Option.any_eq_true] at hc
  obtain ⟨⟨hclaimed, hfailed⟩, worked, hw, hres⟩ := hc
  cases worked with
  | requested _ => simp at hres
  | worked resolved =>
      obtain rfl : resolved = true := hres
      exact ⟨p, ⟨_, rfl, hp⟩, hclaimed, hfailed, Pool.returned_of_result? hw⟩

end Pipeline
end DebBuilder
