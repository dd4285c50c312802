import Mathlib
import DebBuilder.Automation.Handlers

/-!
# Run admission keeps the invariant

A handler that admits the Run of its generation fixes the id first, then creates the
workspace, links it and submits it; each of these may fail, before or after it took effect.
The Run that is created carries the generation whose lock is held, so it is its only one.

## Main definitions

* `Admitting` — what holds of the row while its Run is admitted.
* `triple_enqueueRun`, `triple_admitRun` — the admission of a Run.
* `triple_runHandler` — the recursion of the Run handlers.
-/

namespace DebBuilder.Automation
open Function Lib

variable {cfg : Config} {τ : Type} [DecidableEq τ] {t : τ} {slot : Slot} {row : Row} {entry : Entry}
  {r : RunId}

/-- A linked row is in the stage of its Run. -/
def Admitting (_ : State cfg) (row : Row) : Prop := row.runId ≠ none → row.stage = .run

/-- A row whose Run is linked, and not yet followed. -/
def Linked (_ : State cfg) (row : Row) : Prop := row.runId ≠ none ∧ row.stage = .run

/-- What a handler knows after it has claimed the id of its Run. -/
def Reserved (s : State cfg) (row : Row) : Prop := Admitting s row ∧ row.preallocatedRunId ≠ none

theorem Linked.unpublished {n : Nat} {s : State cfg} (h : Linked s row) (hvalid : row.Valid n) :
    row.publicationAttemptId = none := (hvalid.runLinks h.2).2.2

/-! ## The id of the Run -/

theorem preallocateRun_write {now : Time} {load : RunId → Option (Option Run)} {a : Attempt}
    {row' : Row} {candidate : RunId}
    (h : (Request.preallocateRun candidate).answer now load a row = .ok (.write row')) :
    row.preallocatedRunId = none ∧ row.state = .claimed ∧ row.desiredPolicy ≠ .detect ∧
      row' = { row with
        preallocatedRunId := some candidate, state := .runPreallocated, stage := .runAdmission
        updatedAt := now } := by
  simp only [Request.answer] at h
  split at h
  · simp at h
  · rename_i hnone
    split at h
    · simp at h
    · rename_i hstate
      split at h
      · simp at h
      · rename_i hpolicy
        exact ⟨by simpa using hnone, by simpa using hstate, hpolicy, by simpa [eq_comm] using h⟩

/-- The id of the Run is preallocated. -/
theorem triple_preallocate {candidate : Choice → RunId} (hnone : row.preallocatedRunId = none) :
    (lease cfg).Triple t slot (Current slot entry row Admitting)
      (ask entry row fun c => .preallocateRun (candidate c))
      (fun r s o => Held slot entry row s o ∧ ∀ row', r = .ok row' →
        Current slot entry row' Reserved s o) := by
  have hlater : ∀ (row' : Row) (candidate : RunId) (now : Time), row'.state = .claimed → row'.preallocatedRunId = none →
      row'.Later { row' with
        preallocatedRunId := some candidate, state := .runPreallocated, stage := .runAdmission
        updatedAt := now } := fun _ _ _ hstate hnone =>
    ⟨rfl, rfl, rfl, fun _ h => by simp [hnone] at h, fun _ => id,
      fun h => by simp [hstate, RowState.stopped] at h⟩
  refine triple_ask (fun s o h => ⟨h.held.key, h.held.generation⟩) (fun c _ _ _ _ _ _ _ _ _ _ =>
    .inl ⟨candidate c, rfl⟩) ?_ ?_
  · intro c s s₀ a row' row'' hinv hrow hev hcur h
    obtain ⟨hnone, hstate, hpolicy, rfl⟩ := preallocateRun_write h
    have hvalid := hinv.valid hrow
    refine ⟨.of_live hinv hrow (hlater row' _ _ hstate hnone) rfl rfl (fun hb => ?_) ?_, ?_⟩
    · refine ((hinv.rows slot a row' hrow).built (.inr ?_)).later (hlater row' _ _ hstate hnone)
      simpa [Stage.downstream] using hb
    · simp [hvalid.unclassified (.inr hstate)]
    · exact hvalid.preallocate hstate hnone hpolicy
  · intro c s s₀ a row' result row'' s' hinv hrow hev hcur hev' hrow' hanswered
    have hheld := hcur.held.evolve (hev.trans _ _ _ hev')
    have hsame : row' = row := hcur.same
    have hwrite : ∀ {x}, (Request.preallocateRun (candidate c)).answer c.now (s.reading c) a row' =
        .ok (.write x) → x.Valid slot.2 → Held slot entry row s' (a, x) ∧
          Current slot entry x Reserved s' (a, x) := by
      intro x h hvalid
      obtain ⟨hnone', hstate, -, rfl⟩ := preallocateRun_write h
      have hmove := hheld.move _ (.refl s') (hlater row' (candidate c) c.now hstate hnone') rfl
      exact ⟨hmove, hmove.renew hvalid, rfl, fun hr => absurd (hvalid.runAdmissionLinks rfl).2.1 hr,
        by simp⟩
    cases hanswered with
    | failed f => exact ⟨hheld, by simp⟩
    | kept h =>
        simp only [Request.answer, hsame, hnone, ne_eq, not_true_eq_false, if_false] at h
        split at h
        · simp at h
        · split at h <;> simp at h
    | written x h hvalid =>
        obtain ⟨h₁, h₂⟩ := hwrite h hvalid
        refine ⟨h₁, fun row₁ hok => ?_⟩
        obtain rfl := Except.ok.inj hok
        exact h₂
    | late x f h hvalid => exact ⟨(hwrite h hvalid).1, by simp⟩

/-! ## The link of the Run -/

theorem linkRun_write {now : Time} {load : RunId → Option (Option Run)} {a : Attempt} {row' : Row}
    (h : (Request.linkRun r).answer now load a row = .ok (.write row')) :
    row.runId = none ∧ row.preallocatedRunId = some r ∧
      (∃ doc, load r = some (some doc) ∧ bound a row doc = true) ∧ row' = row.link r now := by
  simp only [Request.answer] at h
  split at h
  · split at h <;> simp at h
  · rename_i hnone
    split at h
    · simp at h
    · rename_i hpre
      split at h
      · simp at h
      · rename_i doc hdoc
        cases doc with
        | none => simp [verifyRunBinding, Except.map] at h
        | some doc =>
            cases hb : bound a row doc
            · simp [verifyRunBinding, require, hb, Except.map] at h
            · refine ⟨by simpa using hnone, by simpa using hpre, ⟨doc, hdoc, hb⟩, ?_⟩
              simpa [verifyRunBinding, require, hb, Except.map, eq_comm] using h

/-- A Run that is there is linked to its row. -/
theorem Allowed.linkRun {s : State cfg} {a : Attempt} {now : Time} (hinv : Inv s)
    (hrow : s.row? slot = some (a, row)) (hlater : row.Later (row.link r now))
    (hrun : ∃ doc, s.store r = .run doc ∧ bound a row doc = true)
    (hturn : Clocked s.births → Leads s.ledger.attempts a row) :
    Allowed s slot a row (row.link r now) where
  later := hlater
  inv :=
    { linked := fun r' hr => by
        obtain rfl := Option.some.inj hr
        exact hrun
      built := fun hb => ((hinv.rows slot a row hrow).built (.inr (by
        simpa [Row.link, Stage.downstream] using hb))).later hlater
      earned := fun h => by simp [Row.link] at h }
  stop _ _ _ _ _ _ := .inl rfl
  link _ := .inr hturn

/-- The rule of the link of a Run. -/
theorem triple_linkRun :
    (lease cfg).Triple t slot (Holding slot entry row Admitting) (ask entry row fun _ => .linkRun r)
      (fun res s o => Holding slot entry row Admitting s o ∧ ∀ row', res = .ok row' →
        Current slot entry row' Linked s o) := by
  refine triple_ask (fun s o h => ⟨h.1.key, h.1.generation⟩) (fun _ _ _ _ _ _ _ _ _ _ _ =>
    .inr ⟨r, rfl⟩) ?_ ?_
  · intro c s s₀ a row' row'' hinv hrow hev ⟨hheld, hlinks⟩ h
    obtain ⟨hnone, hpre, ⟨doc, hdoc, hbound⟩, rfl⟩ := linkRun_write h
    have hvalid := hinv.valid hrow
    have hlater : row'.Later (row'.link r c.now) :=
      ⟨rfl, rfl, rfl, fun _ => id, fun _ h => by simp [hnone] at h,
        fun h => absurd hheld.live (by simp [Row.live, h])⟩
    refine ⟨.linkRun hinv hrow hlater ⟨doc, ?_, hbound⟩ fun hclock => ?_,
      iff_of_true (hvalid.link hheld.live hnone hpre) trivial⟩
    · unfold State.reading at hdoc
      split at hdoc
      · simp at hdoc
      · exact Workspace.doc?_eq_some.1 (Option.some.inj hdoc)
    · obtain ⟨s₁, hs₁, hfirst⟩ := hheld.turn
      exact hfirst.leads (hs₁.trans _ _ _ hev) hinv hclock
  · intro c s s₀ a row' result row'' s' hinv hrow hev ⟨hheld, hlinks⟩ hev' hrow' hanswered
    have hheld := hheld.evolve (hev.trans _ _ _ hev')
    have hwrite : ∀ {x}, (Request.linkRun r).answer c.now (s.reading c) a row' = .ok (.write x) →
        x.Valid slot.2 → Holding slot entry row Admitting s' (a, x) ∧
          Current slot entry x Linked s' (a, x) := by
      intro x h hvalid
      obtain ⟨hnone, -, -, rfl⟩ := linkRun_write h
      have hmove := hheld.move (row'.link r c.now) (.refl s') ⟨rfl, rfl, rfl, fun _ => id,
        fun _ h => by simp [hnone] at h, fun h => absurd hheld.live (by simp [Row.live, h])⟩ rfl
      exact ⟨⟨hmove, fun _ => rfl⟩, hmove.renew hvalid, rfl, by simp [Row.link], rfl⟩
    cases hanswered with
    | failed f => exact ⟨⟨hheld, hlinks⟩, by simp⟩
    | kept h =>
        refine ⟨⟨hheld, hlinks⟩, fun row₁ hok => ?_⟩
        obtain rfl := Except.ok.inj hok
        have hlink : row'.runId ≠ none := by
          intro hnone
          simp only [Request.answer, hnone, ne_eq, not_true_eq_false, if_false] at h
          split at h
          · simp at h
          · split at h
            · simp at h
            · rename_i doc _
              cases hv : verifyRunBinding a row' doc <;> simp [hv, Except.map] at h
        exact ⟨hheld.renew (hinv.valid hrow), rfl, hlink, hlinks hlink⟩
    | written x h hvalid =>
        obtain ⟨h₁, h₂⟩ := hwrite h hvalid
        refine ⟨h₁, fun row₁ hok => ?_⟩
        obtain rfl := Except.ok.inj hok
        exact h₂
    | late x f h hvalid => exact ⟨(hwrite h hvalid).1, by simp⟩

/-! ## The claim of the id -/

theorem triple_loadPreallocated {P : State cfg → Attempt × Row → Prop} :
    (lease cfg).Triple t slot P (loadPreallocated r) (fun _ => P) := by
  unfold loadPreallocated
  refine .catch (Q := fun _ => P) .read fun result => ?_
  cases result with
  | ok run => exact .pure fun _ _ h => h
  | error f => exact .throw fun _ _ h => h

theorem triple_reconcilePreallocatedRun (hpre : row.preallocatedRunId ≠ none) :
    (lease cfg).Triple t slot (Current slot entry row Admitting) (reconcilePreallocatedRun entry row)
      (fun res s o => Held slot entry row s o ∧ ∀ row', res = .ok row' →
        Current slot entry row' Reserved s o) := by
  unfold reconcilePreallocatedRun
  refine .seq (triple_readRow (fun _ _ _ hev h => h.evolve (fun _ _ _ _ h => h) hev)
    fun _ _ h => h.held) (fun row' => ?_) fun _ s o h => ⟨h.1.held, by simp⟩
  -- the row that was read is the one that the handler holds
  refine .assume (φ := row' = row) (fun s o h => by rw [← (h.2 row' rfl).2, h.1.same]) fun heq => ?_
  subst heq
  refine Lease.Triple.pre (P := Current slot entry row' Admitting) ?_ fun s o h => h.1
  cases hr : row'.runId with
  | some r =>
      exact .pure fun s o h => ⟨h.held, fun row₁ hok => by
        obtain rfl := Except.ok.inj hok
        exact ⟨h.held, h.same, h.also, hpre⟩⟩
  | none =>
      obtain ⟨r, hr'⟩ := Option.ne_none_iff_exists'.1 hpre
      simp only [hr']
      refine .seq triple_loadPreallocated (fun run => ?_) fun _ s o h => ⟨h.held, by simp⟩
      cases run with
      | some run =>
          refine (triple_linkRun.pre fun s o h => h.holding).mono (fun _ _ h => h) fun res s o h =>
            ⟨h.1.1, fun row₁ hok => ?_⟩
          have hcur := h.2 row₁ hok
          refine ⟨hcur.held, hcur.same, fun _ => hcur.also.2, fun hnone => ?_⟩
          have hlink := hcur.held.valid.linked
          rw [hnone, or_self] at hlink
          exact hcur.also.1 hlink
      | none =>
          refine .seq (Q := fun _ => Current slot entry row' Admitting)
            (triple_quiet fun c s hinv => quiet_discard hinv) (fun b => ?_)
            fun _ s o h => ⟨h.held, by simp⟩
          show (lease cfg).Triple t slot _ (if _ then _ else _) _
          split
          · exact .pure fun s o h => ⟨h.held, fun row₁ hok => by
              obtain rfl := Except.ok.inj hok
              exact ⟨h.held, h.same, h.also, hpre⟩⟩
          · exact .throw fun s o h => ⟨h.held, by simp⟩

theorem triple_claimRun :
    (lease cfg).Triple t slot (Current slot entry row Admitting) (claimRun entry row)
      (fun res s o => Held slot entry row s o ∧ ∀ row', res = .ok row' →
        Current slot entry row' Reserved s o) := by
  unfold claimRun
  split
  · rename_i hnone
    exact triple_preallocate hnone
  · rename_i hpre
    exact triple_reconcilePreallocatedRun hpre

/-! ## Creation and submission -/

/-- What a call of the admission leaves: a Run that was admitted is linked. -/
def Enqueued (slot : Slot) (entry : Entry) (row : Row) (admitted : Except Fault Unit)
    (s : State cfg) (o : Attempt × Row) : Prop :=
  Holding slot entry row Admitting s o ∧ (admitted = .ok () → Linked s o.2)

/-- The rule of the callback that links the created Run. -/
abbrev Links (t : τ) (slot : Slot) (entry : Entry) (row : Row) (callback : RunId → Code cfg Row) :
    Prop :=
  ∀ r, (lease cfg).Triple t slot (Holding slot entry row Admitting) (callback r)
    (fun res s o => Holding slot entry row Admitting s o ∧ ∀ row', res = .ok row' → Linked s o.2)

theorem triple_submission (result : Except Fault Unit) :
    (lease cfg).Triple t slot (fun s o => Holding slot entry row Admitting s o ∧ Linked s o.2)
      (match result with
        | .ok () => (pure () : Code cfg Unit)
        | .error f => match submissionFault f with
          | some f => .throw f
          | none => pure ())
      (Enqueued slot entry row) := by
  cases result with
  | ok u => exact .pure fun s o h => ⟨h.1, fun _ => h.2⟩
  | error f =>
      simp only
      cases submissionFault f with
      | some f => exact .throw fun s o h => ⟨h.1, by simp⟩
      | none => exact .pure fun s o h => ⟨h.1, fun _ => h.2⟩

theorem triple_linkAndSubmit (r : RunId) (recipe : Recipe) (mode : RunMode) (origin : Origin)
    (m : RunAutomation) {callback : RunId → Code cfg Row} (createdNow : Bool) (run : Run)
    (hlink : Links t slot entry row callback) :
    (lease cfg).Triple t slot (Holding slot entry row Admitting)
      (linkAndSubmit r recipe mode origin m callback createdNow run) (Enqueued slot entry row) := by
  unfold linkAndSubmit
  split
  · exact .throw fun s o h => ⟨h, by simp⟩
  · split
    · exact .seq (hlink _) (fun row' => .pure fun s o h => ⟨h.1, fun _ => h.2 row' rfl⟩)
        fun _ s o h => ⟨h.1, by simp⟩
    · have hstorage : (lease cfg).Triple t slot (Holding slot entry row Admitting)
          (storageAdmission createdNow) (fun _ => Holding slot entry row Admitting) := by
        unfold storageAdmission
        split
        · exact .pure fun _ _ h => h
        · exact .read
      refine .seq hstorage (fun _ => ?_) fun _ s o h => ⟨h, by simp⟩
      refine .seq (hlink _) (fun row' => ?_) fun _ s o h => ⟨h.1, by simp⟩
      exact .catch (Q := fun _ s o => Holding slot entry row Admitting s o ∧ Linked s o.2)
        ((triple_quiet fun c s hinv => quiet_submit hinv).pre fun s o h => ⟨h.1, h.2 row' rfl⟩)
        fun result => triple_submission result

/-- The rule of the admission of a preallocated Run. -/
theorem triple_enqueueRun {recipe : Recipe} {mode : RunMode} {origin : Origin} {m : RunAutomation}
    {callback : RunId → Code cfg Row} (hlink : Links t slot entry row callback)
    (hslot : runSlot m = slot) (hpolicy : m.policy = row.desiredPolicy)
    (hidentity : m.expectedUpstreamIdentity = entry.upstreamIdentity) :
    (lease cfg).Triple t slot
      (Holding slot entry row fun s x => Admitting s x ∧ x.preallocatedRunId = some r)
      (enqueueRun r recipe mode origin m callback) (Enqueued slot entry row) := by
  have hrest {createdNow : Bool} {run : Run} :=
    (triple_linkAndSubmit r recipe mode origin m createdNow run hlink).pre fun s o
        (h : Holding slot entry row (fun s x => Admitting s x ∧ x.preallocatedRunId = some r) s o) =>
          ⟨h.1, h.2.1⟩
  have hraise (f : Fault) : (lease cfg).Triple t slot
      (Holding slot entry row fun s x => Admitting s x ∧ x.preallocatedRunId = some r)
      (.throw f : Code cfg Unit) (Enqueued slot entry row) :=
    .throw fun s o h => ⟨⟨h.1, h.2.1⟩, by simp⟩
  unfold enqueueRun
  refine .seq .read (fun _ => ?_) fun _ s o h => ⟨⟨h.1, h.2.1⟩, by simp⟩
  refine .seq .read (fun run => ?_) fun _ s o h => ⟨⟨h.1, h.2.1⟩, by simp⟩
  cases run with
  | some run => exact hrest
  | none =>
      refine .seq .read (fun _ => ?_) fun _ s o h => ⟨⟨h.1, h.2.1⟩, by simp⟩
      refine .catch (Q := fun _ => Holding slot entry row fun s x =>
        Admitting s x ∧ x.preallocatedRunId = some r) ?_ fun result => ?_
      · refine .keep fun c s s₀ ⟨a, row'⟩ hinv hlock hown hev ⟨hheld, _, hpre⟩ => ?_
        have hquiet := quiet_createRun c recipe mode origin hinv hown hheld.live hslot ⟨hpre, hpolicy.trans hheld.later.policy.symm,
            hidentity.trans (congrArg Attempt.upstreamIdentity hheld.attempt.symm)⟩
        exact ⟨hquiet.step hlock, hquiet.own.trans hown⟩
      · cases result with
        | ok run => exact hrest
        | error f =>
            simp only
            split
            · refine .seq .read (fun run => ?_) fun _ s o h => ⟨⟨h.1, h.2.1⟩, by simp⟩
              cases run with
              | some run => exact hrest
              | none => exact hraise _
            · exact hraise _

theorem triple_enqueueClaimed {recipe : Recipe} {existing : Bool} :
    (lease cfg).Triple t slot (Current slot entry row Reserved)
      (enqueueClaimed entry row recipe existing)
      (fun res s o => Holding slot entry row Admitting s o ∧ (res = .ok true → Linked s o.2)) := by
  have hfail : ∀ (s : State cfg) (o : Attempt × Row), Current slot entry row Reserved s o →
      Holding slot entry row Admitting s o := fun s o h => ⟨h.held, by rw [h.same]; exact h.also.1⟩
  unfold enqueueClaimed
  refine .seq .read (fun live => ?_) fun _ s o h => ⟨hfail s o h, by simp⟩
  cases admissible entry.toAttempt row recipe live existing with
  | none => exact .pure fun s o h => ⟨hfail s o h, by simp⟩
  | some recipe =>
      refine .seq .read (fun attempts => ?_) fun _ s o h => ⟨hfail s o h, by simp⟩
      refine .assume (φ := entry.key = slot.1 ∧ row.generation = slot.2)
        (fun s o h => ⟨h.held.key, h.held.generation⟩) fun ⟨hkey, hgen⟩ => ?_
      refine .assume (φ := row.preallocatedRunId ≠ none) (fun s o h => h.also.2) fun hpre => ?_
      obtain ⟨r, hr⟩ := Option.ne_none_iff_exists'.1 hpre
      refine .seq (Q := Enqueued slot entry row) ?_
        (fun _ => .pure fun s o h => ⟨h.1, fun _ => h.2 rfl⟩) fun _ s o h => ⟨h.1, by simp⟩
      refine (triple_enqueueRun (fun r => triple_linkRun.mono (fun _ _ h => h) fun res s o h =>
        ⟨h.1, fun row' hok => ?_⟩) (by rw [runSlot, hkey, hgen]) rfl rfl).pre fun s o h =>
          ⟨h.held, ?_, ?_⟩
      · rw [(h.2 row' hok).same]
        exact (h.2 row' hok).also
      · rw [h.same]
        exact h.also.1
      · rw [h.same, hr]
        rfl

/-! ## The handlers -/

/-- A generation may stop in one of the ways that leave a pending Run. -/
theorem Held.abandon {s : State cfg} {o : Attempt × Row} {classification : Classification}
    {diagnostic : String} (h : Held slot entry row s o) (hclass : classification ≠ .success)
    (hmem : (classification, diagnostic) ∈ abandons) :
    Held slot entry row s o ∧ Ends slot classification diagnostic s o.2 :=
  ⟨h, fun hc => absurd hc hclass, .inl hmem⟩

theorem triple_admissionRefused {f : Fault} :
    (lease cfg).Triple t slot (Held slot entry row) (admissionRefused entry row f)
      (fun _ _ _ => True) := by
  unfold admissionRefused
  simp only
  split
  · exact .throw fun _ _ _ => trivial
  · split
    · exact .pure fun _ _ _ => trivial
    · refine .seq .read (fun b => ?_) fun _ _ _ _ => trivial
      split
      · split
        · refine .seq .read (fun b => ?_) fun _ _ _ _ => trivial
          split
          · exact triple_scheduleRetry (by decide)
          · exact .pure fun _ _ _ => trivial
        · exact (triple_finish (by simp) (by decide)).pre fun s o h => h.abandon (by simp) (by decide)
      · exact .pure fun _ _ _ => trivial

/-- A Run that owns the identity is found for a generation without one. -/
theorem triple_findOwner :
    (lease cfg).Triple t slot (Current slot entry row Admitting) (findOwner entry row)
      (fun res s o => Current slot entry row Admitting s o ∧ (res = .ok true →
        row.preallocatedRunId = none ∧ ∃ r status, (slot, r, status) ∈ s.owners)) := by
  refine .assume (φ := entry.key = slot.1 ∧ row.generation = slot.2)
    (fun s o h => ⟨h.held.key, h.held.generation⟩) fun ⟨hkey, hgen⟩ => ?_
  refine .act fun c s s₀ ⟨a, row'⟩ hinv hlock hown hev h => ?_
  have hcur := h.evolve (fun _ _ _ _ h => h) hev
  have hsame : ∀ res : Except Fault Bool, res ≠ .ok true → (lease cfg).Step slot s s ∧
      ∃ o', (lease cfg).own s slot = some o' ∧ Current slot entry row Admitting s o' ∧
        (res = .ok true → row.preallocatedRunId = none ∧ ∃ r status, (slot, r, status) ∈ s.owners) :=
    fun res hres => ⟨(Quiet.refl hinv).step hlock, _, hown, hcur, fun h => absurd h hres⟩
  cases c.fault with
  | some f => exact hsame _ (by simp)
  | none =>
      by_cases hpre : row.preallocatedRunId = none
      · cases hfound : s.runs.find? (ownsIdentity entry.toAttempt row) with
        | none =>
            have hdone := hsame (.ok false) (by simp)
            simp only [hpre, ne_eq, not_true_eq_false, if_false] at hdone ⊢
            exact hdone
        | some run =>
            have hattempt : a = entry.toAttempt := hcur.held.attempt
            have hrow : row' = row := hcur.same
            have hquiet := quiet_owner hinv hown (List.mem_of_find?_eq_some hfound)
              (by rw [hattempt, hrow]; exact List.find?_some hfound)
            simp only [hpre, ne_eq, not_true_eq_false, if_false, hkey, hgen]
            exact ⟨hquiet.step hlock, _, hquiet.own.trans hown,
              hcur.evolve (fun _ _ _ _ h => h) hquiet.evolves,
              fun _ => ⟨trivial, run.id, run.status, List.mem_cons_self⟩⟩
      · have hdone := hsame (.ok false) (by simp)
        simp only [hpre, ne_eq, not_false_eq_true, if_true] at hdone ⊢
        exact hdone

/-- The Run of a linked row is followed. -/
theorem triple_runAdmitted {handleRun : Entry → Row → Code cfg Unit}
    (hhandle : Handles t slot Linked handleRun) :
    (lease cfg).Triple t slot (Holding slot entry row Linked) (runAdmitted handleRun entry row)
      (fun _ _ _ => True) := by
  have hlast : ∀ (s s' : State cfg) (o : Attempt × Row), Evolves s s' →
      Holding slot entry row Linked s o → Holding slot entry row Linked s' o :=
    fun _ _ _ hev h => ⟨h.1.evolve hev, h.2⟩
  unfold runAdmitted
  refine .seq (triple_readRow hlast fun _ _ h => h.1) (fun linked => ?_) fun _ _ _ _ => trivial
  refine .seq (Q := fun _ => Holding slot entry row Linked)
    (((triple_advance (Φ := Linked) ⟨by simp, by simp⟩ (.inl rfl) (fun _ _ _ h => h.1)
      (fun s x hvalid h hb => ?_) (fun s o now hheld h hvalid => ?_) (fun _ _ _ _ h => h)
      fun _ _ _ h => ⟨h.1, rfl⟩).pre fun s o h => h.1).mono (fun _ _ h => h) fun r s o h => h.1)
    (fun _ => ?_) fun _ _ _ _ => trivial
  · simp [Stage.downstream, (hvalid.runLinks h.2).2.1] at hb
  · exact iff_of_true (hvalid.advance_run hheld.live h.2) (by simp [Request.Benign, optional])
  · refine .seq .read (fun current => ?_) fun _ _ _ _ => trivial
    split
    · refine .seq (triple_readRow hlast fun _ _ h => h.1) (fun row' => ?_) fun _ _ _ _ => trivial
      exact (hhandle entry row').pre fun s o h => ⟨(h.2 row' rfl).1, (h.2 row' rfl).2,
        (h.2 row' rfl).2 ▸ h.1.2⟩
    · exact .pure fun _ _ _ => trivial

theorem triple_admitRecipe {handleRun : Entry → Row → Code cfg Unit}
    (hhandle : Handles t slot Linked handleRun) {recipe : Recipe} {existing : Bool} :
    (lease cfg).Triple t slot (Current slot entry row Admitting)
      (admitRecipe handleRun entry row recipe existing) (fun _ _ _ => True) := by
  unfold admitRecipe
  refine .catch triple_findOwner fun result => ?_
  match result with
  | .error f => exact triple_admissionRefused.pre fun s o h => h.1.held
  | .ok true =>
      refine (triple_finish (by simp) (by decide)).pre fun s o ⟨h, howner⟩ => ?_
      obtain ⟨hnone, howner⟩ := howner rfl
      exact ⟨h.held, fun _ => .inl ⟨rfl, howner⟩, .inr (.inr (by rw [h.same, hnone]))⟩
  | .ok false =>
      refine .catch (triple_claimRun.pre fun s o h => h.1) fun result => ?_
      cases result with
      | error f => exact triple_admissionRefused.pre fun s o h => h.1
      | ok row' =>
          refine .catch (triple_enqueueClaimed.pre fun s o h => h.2 row' rfl) fun result => ?_
          match result with
          | .error f => exact triple_admissionRefused.pre fun s o h => h.1.1
          | .ok true => exact (triple_runAdmitted hhandle).pre fun s o h => ⟨h.1.1, h.2 rfl⟩
          | .ok false =>
              simp only
              split
              · exact (triple_finish (by simp) (by decide)).pre fun s o h =>
                  h.1.1.abandon (by simp) (by decide)
              · exact (triple_finish (by simp) (by decide)).pre fun s o h =>
                  h.1.1.abandon (by simp) (by decide)

theorem triple_recipeToAdmit {P : State cfg → Attempt × Row → Prop} {recipe : Option Recipe}
    {existing : Bool} :
    (lease cfg).Triple t slot P (recipeToAdmit row recipe existing) (fun _ => P) := by
  unfold recipeToAdmit
  split
  · exact .read
  · exact .pure fun _ _ h => h

theorem triple_admitRun {handleRun : Entry → Row → Code cfg Unit}
    (hhandle : Handles t slot Linked handleRun) {recipe : Option Recipe} {existing : Bool} :
    (lease cfg).Triple t slot (Current slot entry row Admitting)
      (admitRun handleRun entry row recipe existing) (fun _ _ _ => True) := by
  have hfinish {classification : Classification} {code diagnostic : String}
      (hclass : classification ≠ .success) (hmem : (classification, diagnostic) ∈ abandons)
      (htransient : classification ≠ .transientRetryable) (hdiag : isCode diagnostic = true) :
      (lease cfg).Triple t slot (Current slot entry row Admitting)
        (finish entry row classification code diagnostic) (fun _ _ _ => True) :=
    (triple_finish htransient hdiag).pre fun s o h => h.held.abandon hclass hmem
  unfold admitRun
  refine .seq .read (fun b => ?_) fun _ _ _ _ => trivial
  split
  · split
    · exact hfinish (by simp) (by decide) (by simp) (by decide)
    · split
      · exact hfinish (by simp) (by decide) (by simp) (by decide)
      · refine .seq triple_recipeToAdmit (fun result => ?_) fun _ _ _ _ => trivial
        rcases result with ⟨⟨⟩⟩ | _ | recipe
        · exact hfinish (by simp) (by decide) (by simp) (by decide)
        · exact hfinish (by simp) (by decide) (by simp) (by decide)
        · exact triple_admitRecipe hhandle
  · exact .pure fun _ _ _ => trivial

/-- A linked generation is finished once its Run has left `pending`. -/
theorem Current.finish_linked {Φ : State cfg → Row → Prop} {s : State cfg} {o : Attempt × Row}
    {classification : Classification} {diagnostic : String} {doc : Run}
    (h : Current slot entry row Φ s o) (hlink : row.runId ≠ none) (hdoc : s.store row.run = .run doc)
    (hstatus : doc.status ≠ .pending)
    (hearned : classification = .success → Evidence s.store s.validations row) :
    Held slot entry row s o ∧ Ends slot classification diagnostic s o.2 := by
  obtain ⟨r, hr⟩ := Option.ne_none_iff_exists'.1 hlink
  have hrow : row.run = r := by simp [Row.run, hr]
  refine ⟨h.held, fun hc => .inr ?_, .inr (.inl ⟨r, doc, ?_, hrow ▸ hdoc, hstatus⟩)⟩
  · rw [h.same]
    exact hearned hc
  · rw [h.same, hr]

theorem triple_handleRun {admitRun : Entry → Row → Option Recipe → Bool → Code cfg Unit}
    {admitValidation : Entry → Row → Code cfg Unit}
    (hadmits : ∀ recipe existing, Handles t slot Admitting fun entry row =>
      admitRun entry row recipe existing)
    (hvalidation : Handles t slot Unpublished admitValidation) :
    Handles t slot Linked (handleRun admitRun admitValidation) := by
  intro entry row
  unfold handleRun
  refine .seq (triple_loadRun fun _ _ _ hev h => h.evolve (fun _ _ _ _ h => h) hev) (fun run => ?_)
    fun _ _ _ _ => trivial
  cases run with
  | none => exact (triple_finish (by simp) (by decide)).pre fun s o h =>
      h.1.held.abandon (by simp) (by decide)
  | some run =>
      refine .assume (φ := row.runId ≠ none) (fun s o h => h.1.also.1) fun hlink => ?_
      obtain ⟨r, hr⟩ := Option.ne_none_iff_exists'.1 hlink
      have hrow : row.run = r := by simp [Row.run, hr]
      have hfail {classification : Classification} {code diagnostic : String}
          (hclass : classification ≠ .success) (htransient : classification ≠ .transientRetryable)
          (hdiag : isCode diagnostic = true) (hstatus : run.status ≠ .pending) :
          (lease cfg).Triple t slot (fun s o => Current slot entry row Linked s o ∧
              ∀ doc, (Except.ok (some run) : Except Fault (Option Run)) = .ok (some doc) →
                s.store row.run = .run doc)
            (finish entry row classification code diagnostic) (fun _ _ _ => True) :=
        (triple_finish htransient hdiag).pre fun s o h =>
          h.1.finish_linked hlink (h.2 run rfl) hstatus fun hc => absurd hc hclass
      have hdone {diagnostic : String} (hdiag : isCode diagnostic = true) (hstatus : run.status ≠ .pending)
          (hearned : ∀ s : State cfg, RunIn s.store r run.status →
            Evidence s.store s.validations row) :
          (lease cfg).Triple t slot (fun s o => Current slot entry row Linked s o ∧
              ∀ doc, (Except.ok (some run) : Except Fault (Option Run)) = .ok (some doc) →
                s.store row.run = .run doc)
            (finish entry row .success "" diagnostic) (fun _ _ _ => True) :=
        (triple_finish (by simp) hdiag).pre fun s o h =>
          h.1.finish_linked hlink (h.2 run rfl) hstatus fun _ =>
            hearned s ⟨run, hrow ▸ h.2 run rfl, rfl⟩
      -- a Run that has ended
      have hended (hstatus : run.status ≠ .pending) :
          (lease cfg).Triple t slot (fun s o => Current slot entry row Linked s o ∧
              ∀ doc, (Except.ok (some run) : Except Fault (Option Run)) = .ok (some doc) →
                s.store row.run = .run doc)
            (if run.status ≠ (if row.desiredPolicy = .test then .prepared else .success) then
                finish entry row .terminalFailure (codeOr (run.error.map (·.code)) "execution_failed")
                  "run_failed"
              else if row.desiredPolicy = .test then finish entry row .success "" "test_succeeded"
              else if row.desiredPolicy = .build then finish entry row .success "" "build_succeeded"
              else admitValidation entry row) (fun _ _ _ => True) := by
        by_cases htest : row.desiredPolicy = .test
        · simp only [htest, if_true]
          split
          · exact hfail (by simp) (by simp) (by decide) hstatus
          · rename_i hprepared
            have hprepared : run.status = .prepared := by simpa using hprepared
            exact hdone (by decide) hstatus fun s h => ⟨r, hr, by simpa [htest, hprepared] using h⟩
        · simp only [htest, if_false]
          split
          · exact hfail (by simp) (by simp) (by decide) hstatus
          · rename_i hsuccess
            have hsuccess : run.status = .success := by simpa using hsuccess
            split
            · rename_i hbuild
              exact hdone (by decide) hstatus fun s h => ⟨r, hr, by simpa [hbuild, hsuccess] using h⟩
            · rename_i hbuild
              refine (hvalidation entry row).pre fun s o h => ⟨h.1.held, h.1.same, ⟨?_, r, hr, run,
                hrow ▸ h.2 run rfl, hsuccess⟩, h.1.also.unpublished h.1.held.valid⟩
              have hdetect := h.1.held.valid.detect
              have hmanual := h.1.held.valid.policy
              cases hp : row.desiredPolicy <;> simp_all
      cases hstatus : run.status with
      | pending =>
          simp only [hstatus]
          refine .seq .read (fun recipe => ?_) fun _ _ _ _ => trivial
          exact (hadmits recipe true entry row).pre fun s o h =>
            ⟨h.1.held, h.1.same, fun _ => h.1.also.2⟩
      | queued | running | cancelling =>
          simp only [hstatus]
          exact .pure fun _ _ _ => trivial
      | cancelled =>
          simp only [hstatus]
          exact hfail (by simp) (by simp) (by decide) (by simp [hstatus])
      | prepared | success | failed =>
          simp only [hstatus]
          simpa only [hstatus] using hended (by simp [hstatus])

/-- The Run handlers keep the invariant at every depth. -/
theorem triple_runHandler (depth : Nat) : Handles t slot (@Linked cfg) (runHandler depth) := by
  induction depth with
  | zero => exact fun entry row => .throw fun _ _ _ => trivial
  | succ n ih =>
      exact triple_handleRun (fun recipe existing entry row => triple_admitRun ih)
        (triple_admitValidation (triple_validationHandler n))

/-- The handler that a row is dispatched to. -/
theorem triple_dispatch (depth : Nat) :
    (lease cfg).Triple t slot
      (Current slot entry row fun s row => row.stage.downstream = true → Behind s row)
      (dispatch depth entry row) (fun _ _ _ => True) := by
  have hhandler : Handles t slot (@Behind cfg) (validationHandler depth) :=
    triple_validationHandler depth
  have hadmitter := triple_admitValidation hhandler entry row
  have hhandler := hhandler entry row
  unfold dispatch
  split
  · rename_i hlink
    have hlink : row.runId ≠ none := by
      rw [← Option.isSome_iff_ne_none]
      exact hlink
    -- the stage says how far the Run has come
    cases hstage : row.stage with
    | validationAdmission =>
        exact hadmitter.pre fun s o h => ⟨h.held, h.same, h.also (by rw [hstage]; rfl),
          (h.held.valid.validationAdmissionLinks hstage).2⟩
    | validation =>
        simp only
        split
        · exact hadmitter.pre fun s o h => ⟨h.held, h.same, h.also (by rw [hstage]; rfl),
            (h.held.valid.validationLinks hstage).2.2⟩
        · exact hhandler.pre fun s o h => ⟨h.held, h.same, h.also (by rw [hstage]; rfl)⟩
    | publication =>
        exact hhandler.pre fun s o h => ⟨h.held, h.same, h.also (by rw [hstage]; rfl)⟩
    | run => exact (triple_runHandler depth entry row).pre fun s o h => ⟨h.held, h.same, hlink, hstage⟩
    | detection | runAdmission | terminal =>
        refine Lease.Triple.absurd fun s o h => ?_
        have hlinked := h.held.valid.linkedStage (by rw [← h.same]; exact h.held.live) hlink
        simp [hstage] at hlinked
  · rename_i hlink
    refine .seq .read (fun recipe => ?_) fun _ _ _ _ => trivial
    exact (triple_admitRun (triple_runHandler depth)).pre fun s o h =>
      ⟨h.held, h.same, fun hne => absurd (Option.isSome_iff_ne_none.2 hne) hlink⟩

end DebBuilder.Automation
