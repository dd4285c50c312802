import Mathlib
import DebBuilder.Automation.Requests
import DebBuilder.Automation.Sections

/-!
# What the holder of a generation knows

A handler works with a copy of its row.  While it holds the lock of the generation, the
row of the ledger is the copy or a later version of it, and it is live until the handler
finishes it.  One rule for each call of the ledger, and for each section of the managers.

## Main definitions

* `Held` — what every handler knows between its sections.
* `triple_ask` — the rule of a call of the ledger.
* `triple_scheduleRetry`, `triple_finish`, `triple_advance` — the rules of its wrappers.
-/

namespace DebBuilder.Automation
open Function Lib

variable {cfg : Config} {τ : Type} [DecidableEq τ] {t : τ} {s s' s₀ : State cfg} {slot : Slot}
  {a : Attempt} {row row' held : Row} {entry : Entry} {o o' : Attempt × Row} {c : Choice} {r : RunId}

/-! ## Turns -/

/-- The generations of the Recipe that were created before the instant have stopped. -/
def First (s : State cfg) (slot : Slot) (recipeId : RecipeId) (t : Time) : Prop :=
  (slot, t) ∈ s.births ∧ ∀ slot' t', (slot', t') ∈ s.births → t' < t →
    ∃ a row, s.row? slot' = some (a, row) ∧ (a.recipeId = recipeId → row.state.stopped = true)

/-- A generation that was first stays first under a clock that moves on. -/
theorem First.leads (h : First s₀ slot a.recipeId row.createdAt) (hev : Evolves s₀ s) (hinv : Inv s)
    (hclock : Clocked s.births) : Leads s.ledger.attempts a row := by
  intro slot' a' row' hrow hrecipe hlt
  obtain ⟨later, hlater⟩ := hev.births
  have hbirth := (hinv.births slot' row'.createdAt).2 ⟨a', row', hrow, rfl⟩
  have hold : (slot', row'.createdAt) ∈ s₀.births := by
    rw [← hlater, List.mem_append] at hbirth
    refine hbirth.resolve_left fun hnew => ?_
    rw [← hlater] at hclock
    exact absurd hlt (Nat.lt_asymm ((List.pairwise_append.1 hclock).2.2 _ hnew _ h.1))
  obtain ⟨b, rb, hb, hstop⟩ := h.2 slot' _ hold hlt
  obtain ⟨rb', hb', hl⟩ := hev.rows slot' b rb hb
  have heq : findRow s.ledger.attempts slot' = some (b, rb') := hb'
  rw [hrow, Option.some.injEq, Prod.mk.injEq] at heq
  obtain ⟨rfl, rfl⟩ := heq
  exact hl.keeps_stopped (hstop hrecipe)

/-! ## Assertions -/

/-- What every handler knows: the row of the ledger is a live, later version of its own. -/
structure Held (slot : Slot) (entry : Entry) (row : Row) (s : State cfg) (o : Attempt × Row) :
    Prop where
  key : entry.key = slot.1
  generation : row.generation = slot.2
  attempt : o.1 = entry.toAttempt
  live : o.2.live = true
  later : row.Later o.2
  valid : row.Valid slot.2
  turn : ∃ s₁, Evolves s₁ s ∧ First s₁ slot o.1.recipeId o.2.createdAt

theorem Held.evolve (h : Held slot entry row s o) (hev : Evolves s s') : Held slot entry row s' o :=
  { h with turn := h.turn.imp fun _ h => ⟨h.1.trans _ _ _ hev, h.2⟩ }

/-- The holder after its row moved on, while it is live. -/
theorem Held.move (h : Held slot entry row s (a, row')) (row'' : Row) (hev : Evolves s s')
    (hlater : row'.Later row'') (hlive : row''.live = true) : Held slot entry row s' (a, row'') where
  key := h.key
  generation := h.generation
  attempt := h.attempt
  live := hlive
  later := h.later.trans hlater
  valid := h.valid
  turn := by
    obtain ⟨s₁, hs₁, hfirst⟩ := h.turn
    exact ⟨s₁, hs₁.trans _ _ _ hev, hlater.createdAt ▸ hfirst⟩

/-- The holder may take the row of the ledger for its own. -/
theorem Held.renew (h : Held slot entry row s (a, row')) (hvalid : row'.Valid slot.2) :
    Held slot entry row' s (a, row') where
  key := h.key
  generation := hvalid.generation
  attempt := h.attempt
  live := h.live
  later := .refl row'
  valid := hvalid
  turn := h.turn

theorem Inv.valid (_ : Inv s) (hrow : s.row? slot = some (a, row)) : row.Valid slot.2 :=
  s.ledger.row_valid hrow

theorem Built.evolve (h : Built s.store row) (hev : Evolves s s') : Built s'.store row := by
  obtain ⟨hpolicy, r, hr, hrun⟩ := h
  exact ⟨hpolicy, r, hr, hev.runIn rfl hrun⟩

theorem Built.later {store : Store} (h : Built store row) (hlater : row.Later row') :
    Built store row' := by
  obtain ⟨hpolicy, r, hr, hrun⟩ := h
  exact ⟨by rw [hlater.policy]; exact hpolicy, r, hlater.runId r hr, hrun⟩

theorem Built.linked {store : Store} (h : Built store row) : row.runId ≠ none := by
  obtain ⟨-, r, hr, -⟩ := h
  simp [hr]

/-- The row asks for a publication, and its Validation attempt succeeded. -/
def Validated (s : State cfg) (row : Row) : Prop :=
  Built s.store row ∧ row.desiredPolicy = .full ∧
    ∃ id, row.validationAttemptId = some id ∧ ValidatedBy s.validations row.run id

theorem Validated.evolve (h : Validated s row) (hev : Evolves s s') : Validated s' row := by
  obtain ⟨hbuilt, hpolicy, id, hid, hv⟩ := h
  exact ⟨hbuilt.evolve hev, hpolicy, id, hid, hev.validatedBy hv⟩

/-- The linked Run was started. -/
def Started (s : State cfg) (row : Row) : Prop :=
  ∃ r doc, row.runId = some r ∧ s.store r = .run doc ∧ doc.status ≠ .pending

theorem Started.evolve (h : Started s row) (hev : Evolves s s') : Started s' row := by
  obtain ⟨r, doc, hr, hdoc, hstatus⟩ := h
  obtain ⟨doc', hdoc', hl⟩ := hev.runs r doc hdoc
  exact ⟨r, doc', hr, hdoc', fun hp => hstatus (hl.pending hp)⟩

theorem Built.started (h : Built s.store row) : Started s row := by
  obtain ⟨-, r, hr, doc, hdoc, hstatus⟩ := h
  exact ⟨r, doc, hr, hdoc, by simp [hstatus]⟩

/-- The generation has one Run. -/
theorem Inv.run_unique (h : Inv s) {r r' : RunId} {doc doc' : Run} (hdoc : s.store r = .run doc)
    (hdoc' : s.store r' = .run doc') (hslot : doc.automation.map runSlot = some slot)
    (hslot' : doc'.automation.map runSlot = some slot) : r = r' := by
  obtain ⟨m, hm, rfl⟩ := Option.map_eq_some_iff.1 hslot
  obtain ⟨m', hm', heq⟩ := Option.map_eq_some_iff.1 hslot'
  obtain ⟨-, b, rb, hb, hbel, -⟩ := (h.runs r doc hdoc).automated m hm
  obtain ⟨-, b', rb', hb', hbel', -⟩ := (h.runs r' doc' hdoc').automated m' hm'
  rw [heq, hb, Option.some.injEq, Prod.mk.injEq] at hb'
  obtain ⟨rfl, rfl⟩ := hb'
  exact Option.some.inj (hbel.preallocated.symm.trans hbel'.preallocated)

/-- The Run that a row is linked to carries its generation. -/
theorem Inv.linked_slot (h : Inv s) (hrow : s.row? slot = some (a, row)) (hr : row.runId = some r) :
    ∃ doc, s.store r = .run doc ∧ doc.automation.map runSlot = some slot := by
  obtain ⟨doc, hdoc, hbound⟩ := (h.rows slot a row hrow).linked r hr
  simp only [bound, Bool.and_eq_true, decide_eq_true_eq] at hbound
  refine ⟨doc, hdoc, ?_⟩
  rw [hbound.2, Option.map_some, runSlot, key_of_findRow hrow, (h.valid hrow).generation]

theorem Started.not_pending (h : Started s row) (hinv : Inv s) (hrow : s.row? slot = some (a, row))
    {doc : Run} (hdoc : s.store r = .run doc) (hslot : doc.automation.map runSlot = some slot) :
    doc.status ≠ .pending := by
  obtain ⟨r', doc', hr', hdoc', hstatus⟩ := h
  obtain ⟨doc'', hdoc'', hslot''⟩ := hinv.linked_slot hrow hr'
  obtain rfl := hinv.run_unique hdoc hdoc'' hslot hslot''
  rw [hdoc, Workspace.run.injEq] at hdoc'
  exact hdoc' ▸ hstatus

/-! ## Calls of the ledger -/

/-- The rule of a call of the ledger for the row that its thread holds. -/
theorem triple_ask {P : State cfg → Attempt × Row → Prop}
    {Q : Except Fault Row → State cfg → Attempt × Row → Prop} {request : Choice → Request}
    (hslot : ∀ s o, P s o → entry.key = slot.1 ∧ held.generation = slot.2)
    (herror : ∀ c s s₀ a row e, Inv s → s.row? slot = some (a, row) → Evolves s₀ s → P s₀ (a, row) →
      (request c).answer c.now (s.reading c) a row = .error e →
        (∃ r, request c = .preallocateRun r) ∨ ∃ r, request c = .linkRun r)
    (hwrite : ∀ c s s₀ a row row', Inv s → s.row? slot = some (a, row) → Evolves s₀ s →
      P s₀ (a, row) → (request c).answer c.now (s.reading c) a row = .ok (.write row') →
        Allowed s slot a row row' ∧ (row'.Valid slot.2 ↔ (request c).Benign held))
    (hpost : ∀ c s s₀ a row result row' s', Inv s → s.row? slot = some (a, row) → Evolves s₀ s →
      P s₀ (a, row) → Evolves s s' → s'.row? slot = some (a, row') →
      Answered ((request c).answer c.now (s.reading c) a row) slot.2 row result row' →
        Q result s' (a, row')) :
    (lease cfg).Triple t slot P (ask entry held request) Q := by
  refine Lease.Triple.assume (fun s o hP => hslot s o hP) fun ⟨hkey, hgen⟩ => ?_
  refine Lease.Triple.act fun c s s₀ ⟨a, row⟩ hinv hlock hown hev hP => ?_
  rw [hkey, hgen]
  obtain ⟨hstep, row', hrow', hanswered⟩ := State.ask_spec hinv hlock hown
    (fun e => herror c s s₀ a row e hinv hown hev hP)
    (fun row' => hwrite c s s₀ a row row' hinv hown hev hP)
  exact ⟨hstep, (a, row'), hrow',
    hpost c s s₀ a row _ row' _ hinv hown hev hP hstep.evolves hrow' hanswered⟩

/-! ## Leaving a stage -/

/-- A row that stays live needs no more than its links. -/
theorem Allowed.of_live (hinv : Inv s) (hrow : s.row? slot = some (a, row))
    (hlater : row.Later row') (hlive : row'.live = true) (hlink : row'.runId = row.runId)
    (hbuilt : row'.stage.downstream = true ∨ row'.validationAttemptId ≠ none → Built s.store row')
    (hclass : row'.terminalClassification ≠ some .success) : Allowed s slot a row row' where
  later := hlater
  inv :=
    { linked := fun r hr => by
        obtain ⟨doc, hdoc, hbound⟩ := (hinv.rows slot a row hrow).linked r (hlink ▸ hr)
        have hpre : row'.preallocatedRunId = row.preallocatedRunId := by
          have := (hinv.valid hrow).preallocated_of_runId (hlink ▸ hr)
          rw [this, hlater.preallocated r this]
        exact ⟨doc, hdoc, by simpa [bound, hpre, hlater.generation, hlater.policy] using hbound⟩
      built := hbuilt
      earned := fun h => absurd h hclass }
  stop _ _ _ _ _ _ := .inl hlive
  link h := .inl (hlink ▸ h)

theorem later_finish (hlive : row.live = true) (classification : Classification)
    (retryClass : RetryClass) (count : Nat) (notBefore : Option Time) (code diagnostic : Option String)
    (now : Time) :
    row.Later (row.finish classification retryClass count notBefore code diagnostic now) := by
  have hstop : row.state.stopped ≠ true := by simpa [Row.live] using hlive
  obtain ⟨_, _, _, heq⟩ := row.finish_eq classification retryClass count notBefore code diagnostic now
  rw [heq]
  exact ⟨rfl, rfl, rfl, fun _ => id, fun _ => id, fun h => absurd h hstop⟩

/-- The rule of `scheduleRetry`. -/
theorem triple_scheduleRetry {code diagnostic : String} (hdiag : isCode diagnostic = true) :
    (lease cfg).Triple t slot (Held slot entry row) (scheduleRetry entry row code diagnostic)
      (fun _ _ _ => True) := by
  unfold scheduleRetry
  refine .seq (triple_ask (Q := fun _ _ _ => True) (fun s o h => ⟨h.key, h.generation⟩) ?_ ?_ ?_)
    (fun _ => .pure fun _ _ _ => trivial) fun _ _ _ _ => trivial
  · intro c s s₀ a row' e hinv hrow hev hheld h
    simp [Request.answer] at h
  · intro c s s₀ a row' row'' hinv hrow hev hheld h
    simp only [Request.answer, Except.ok.injEq, Answer.write.injEq] at h
    subst h
    have hvalid := hinv.valid hrow
    have hlater := later_finish hheld.live .transientRetryable .transient (row.retryField + 1)
      (some (delay c.clock (row.retryField + 1))) (some code) (some diagnostic) c.now
    refine ⟨?_, ?_⟩
    · obtain ⟨_, _, _, heq⟩ := row'.finish_eq .transientRetryable .transient (row.retryField + 1)
        (some (delay c.clock (row.retryField + 1))) (some code) (some diagnostic) c.now
      rw [heq] at hlater ⊢
      refine Allowed.of_live hinv hrow hlater rfl rfl (fun hb => ?_) (by simp)
      exact ((hinv.rows slot a row' hrow).built (by simpa using hb)).later hlater
    · rw [hvalid.retry hheld.live hdiag]
      simp only [Request.Benign, optional, Option.all_some, true_implies, Nat.lt_iff_add_one_le]
  · intros
    trivial

/-- What has to hold when a generation is finished: a success was earned, and no pending
Run is left behind except in the ways that are known. -/
structure Ends (slot : Slot) (classification : Classification) (diagnostic : String)
    (s : State cfg) (row : Row) : Prop where
  earned : classification = .success →
    (diagnostic = "existing_run_owns_identity" ∧ ∃ r status, (slot, r, status) ∈ s.owners) ∨
      Evidence s.store s.validations row
  stop : (classification, diagnostic) ∈ abandons ∨ Started s row ∨ row.preallocatedRunId = none

theorem Ends.evolve {classification : Classification} {diagnostic : String}
    (h : Ends slot classification diagnostic s row) (hev : Evolves s s') :
    Ends slot classification diagnostic s' row where
  earned hc := (h.earned hc).imp
    (fun ⟨hd, r, status, hmem⟩ => ⟨hd, r, status, hev.owners.subset hmem⟩) fun hevidence =>
      hevidence.evolve hev
  stop := h.stop.imp_right fun h => h.imp_left fun h => h.evolve hev

theorem evidence_congr {store : Store} {validations : RunId → List ValidationAttempt}
    (h : Evidence store validations row) (hlink : row'.runId = row.runId)
    (hpolicy : row'.desiredPolicy = row.desiredPolicy)
    (hvalidation : row'.validationAttemptId = row.validationAttemptId) :
    Evidence store validations row' := by
  obtain ⟨r, hr, h⟩ := h
  exact ⟨r, hlink.trans hr, by rw [hpolicy, hvalidation]; exact h⟩

/-- A generation that is finished. -/
theorem Allowed.finish (hinv : Inv s) (hrow : s.row? slot = some (a, row)) (hlive : row.live = true)
    {classification : Classification} {diagnostic : String}
    (hends : Ends slot classification diagnostic s row) (hclass : classification ≠ .transientRetryable)
    (retryClass : RetryClass) (count : Nat) (code : Option String) (now : Time) :
    Allowed s slot a row
      (row.finish classification retryClass count none code (some diagnostic) now) := by
  have hlater := later_finish hlive classification retryClass count none code (some diagnostic) now
  obtain ⟨_, _, _, heq⟩ := row.finish_eq classification retryClass count none code (some diagnostic) now
  have hrow' := hinv.rows slot a row hrow
  rw [heq, if_neg hclass] at hlater ⊢
  refine ⟨hlater, ⟨hrow'.linked, fun hb => ?_, fun hc => ?_⟩, fun r doc hdoc hslot hp _ => ?_,
    fun h => .inl h⟩
  · exact (hrow'.built (.inr (by simpa [Stage.downstream] using hb))).later hlater
  · refine (hends.earned (by simpa using hc)).elim (fun ⟨hd, howner⟩ => .inr (.inl ⟨by rw [← hd], howner⟩))
      fun hevidence => .inr (.inr ?_)
    exact evidence_congr hevidence rfl rfl rfl
  · rcases hends.stop with hmem | hstarted | hnone
    · exact .inr ⟨_, _, rfl, rfl, hmem⟩
    · exact absurd hp (hstarted.not_pending hinv hrow hdoc hslot)
    · obtain ⟨m, hm, rfl⟩ := Option.map_eq_some_iff.1 hslot
      obtain ⟨-, b, rb, hb, hbel, -⟩ := (hinv.runs r doc hdoc).automated m hm
      rw [show findRow s.ledger.attempts (runSlot m) = some (a, row) from hrow, Option.some.injEq,
        Prod.mk.injEq] at hb
      obtain ⟨rfl, rfl⟩ := hb
      exact absurd hbel.preallocated (by simp [hnone])

/-- The completion of a row that has stopped is noted. -/
theorem Allowed.notify (hinv : Inv s) (hrow : s.row? slot = some (a, row)) (now : Time) :
    Allowed s slot a row { row with completionNotified := true, updatedAt := now } where
  later := ⟨rfl, rfl, rfl, fun _ => id, fun _ => id, fun _ => rfl⟩
  inv :=
    have h := hinv.rows slot a row hrow
    ⟨h.linked, h.built, fun hc => (h.earned hc).imp_right fun he =>
      he.imp_right fun hev => evidence_congr hev rfl rfl rfl⟩
  stop _ _ _ _ _ h := h
  link h := .inl h

/-- The rule of `finish`. -/
theorem triple_finish {classification : Classification} {code diagnostic : String}
    (hclass : classification ≠ .transientRetryable) (hdiag : isCode diagnostic = true) :
    (lease cfg).Triple t slot
      (fun s o => Held slot entry row s o ∧ Ends slot classification diagnostic s o.2)
      (finish entry row classification code diagnostic) (fun _ _ _ => True) := by
  unfold finish
  refine .seq (triple_ask (Q := fun r _ o => ∀ row', r = .ok row' →
      o.2.state.stopped = true ∧ entry.key = slot.1 ∧ row.generation = slot.2)
    (fun s o h => ⟨h.1.key, h.1.generation⟩) ?_ ?_ ?_) (fun finished => ?_) fun _ _ _ _ => trivial
  · intro c s s₀ a row' e hinv hrow hev hP h
    simp [Request.answer] at h
  · intro c s s₀ a row' row'' hinv hrow hev hP h
    obtain ⟨hheld, hends⟩ := hP
    simp only [Request.answer, Except.ok.injEq, Answer.write.injEq] at h
    subst h
    refine ⟨.finish hinv hrow hheld.live (hends.evolve hev) hclass .., ?_⟩
    rw [(hinv.valid hrow).stop hheld.live hclass hheld.valid.retryCount hdiag]
    simp [Request.Benign, hclass]
  · intro c s s₀ a row' result row'' s' hinv hrow hev hP hev' hrow' hanswered finished hok
    have hheld := hP.1
    refine ⟨?_, hheld.key, hheld.generation⟩
    subst hok
    cases hanswered with
    | kept h => simp [Request.answer] at h
    | written _ h =>
        simp only [Request.answer, Except.ok.injEq, Answer.write.injEq] at h
        obtain ⟨_, _, _, heq⟩ := row'.finish_eq classification
          (if classification = .blockedManual then .operator else .none) row.retryCount none
          (if code = "" then none else some code) (some diagnostic) c.now
        rw [← h, heq]
        cases classification <;> simp_all [Classification.finishes, RowState.stopped]
  · show (lease cfg).Triple t slot _ (if _ then _ else _) _
    split
    · exact .pure fun _ _ _ => trivial
    · refine .seq (triple_ask (Q := fun _ _ _ => True) (fun s o h => (h finished rfl).2) ?_ ?_ ?_)
        (fun _ => .pure fun _ _ _ => trivial) fun _ _ _ _ => trivial
      · intro c s s₀ a row' e hinv hrow hev hP h
        obtain ⟨hstopped, -⟩ := hP finished rfl
        simp only [Request.answer, hstopped, Bool.not_true, Bool.false_eq_true, if_false] at h
        split at h <;> simp at h
      · intro c s s₀ a row' row'' hinv hrow hev hP h
        obtain ⟨hstopped, -⟩ := hP finished rfl
        simp only [Request.answer, hstopped, Bool.not_true, Bool.false_eq_true, if_false] at h
        split at h
        · simp at h
        · simp only [Except.ok.injEq, Answer.write.injEq] at h
          subst h
          exact ⟨.notify hinv hrow c.now, iff_of_true ((hinv.valid hrow).notify hstopped) trivial⟩
      · intros
        trivial

/-! ## Moving on -/

theorem later_advance (hlive : row.live = true) (stage : Stage) (v p : Option String) (now : Time) :
    row.Later (row.advance stage v p now) :=
  ⟨rfl, rfl, rfl, fun _ => id, fun _ => id, fun h => by simp [Row.live, h] at hlive⟩

/-- The rule of `advanceLifecycle`.  `Φ` is what else the handler knows of its row. -/
theorem triple_advance {stage : Stage} {v p : Option String} {Φ : State cfg → Row → Prop}
    (hstage : stage ≠ .detection ∧ stage ≠ .terminal)
    (hv : v = none ∨ stage = .validationAdmission ∨ stage = .validation)
    (hlinked : ∀ s o, Held slot entry row s o → Φ s o.2 → o.2.runId ≠ none)
    (hbuilt : ∀ s row', row'.Valid slot.2 → Φ s row' →
      stage.downstream = true ∨ v ≠ none ∨ row'.validationAttemptId ≠ none → Built s.store row')
    (hbenign : ∀ s o now, Held slot entry row s o → Φ s o.2 → o.2.Valid slot.2 →
      ((o.2.advance stage v p now).Valid slot.2 ↔ (Request.advanceLifecycle stage v p).Benign row))
    (hΦ : ∀ s s' row', Evolves s s' → Φ s row' → Φ s' row')
    (hΦ' : ∀ s row' now, Φ s row' → Φ s (row'.advance stage v p now)) :
    (lease cfg).Triple t slot (fun s o => Held slot entry row s o ∧ Φ s o.2)
      (advanceLifecycle entry row stage v p)
      (fun r s o => (Held slot entry row s o ∧ Φ s o.2) ∧
        ∀ row', r = .ok row' → Held slot entry row' s o ∧ o.2 = row') := by
  have hanswer : ∀ now load a row', row'.live = true → row'.runId ≠ none →
      (Request.advanceLifecycle stage v p).answer now load a row' =
        .ok (.write (row'.advance stage v p now)) := by
    intro now load a row' hlive hlink
    have hstop : row'.state.stopped = false := by simpa [Row.live] using hlive
    simp only [Request.answer, hstage.1, hstage.2, or_self, if_false, hstop, Bool.false_eq_true, hlink]
    rw [if_neg]
    rintro ⟨hv', -, -, hs₁, hs₂⟩
    rcases hv with hv | hv | hv <;> contradiction
  refine triple_ask (fun s o h => ⟨h.1.key, h.1.generation⟩) ?_ ?_ ?_
  · intro c s s₀ a row' e hinv hrow hev hP h
    obtain ⟨hheld, hφ⟩ := hP
    simp [hanswer _ _ _ _ hheld.live (hlinked _ _ hheld hφ)] at h
  · intro c s s₀ a row' row'' hinv hrow hev hP h
    obtain ⟨hheld, hφ⟩ := hP
    simp only [hanswer _ _ _ _ hheld.live (hlinked _ _ hheld hφ), Except.ok.injEq,
      Answer.write.injEq] at h
    subst h
    have hlater := later_advance hheld.live stage v p c.now
    have hφ' := hΦ s₀ s row' hev hφ
    refine ⟨.of_live hinv hrow hlater rfl rfl (fun hb => ?_) (by simp [Row.advance]),
      hbenign s (a, row') c.now (hheld.evolve hev) hφ' (hinv.valid hrow)⟩
    refine (hbuilt s row' (hinv.valid hrow) hφ' (hb.imp_right fun h => ?_)).later hlater
    by_cases hnone : v = none
    · exact .inr (by simpa [Row.advance, hnone] using h)
    · exact .inl hnone
  · intro c s s₀ a row' result row'' s' hinv hrow hev hP hev' hrow' hanswered
    obtain ⟨hheld, hφ⟩ := hP
    have hev'' := hev.trans _ _ _ hev'
    rw [hanswer _ _ _ _ hheld.live (hlinked _ _ hheld hφ)] at hanswered
    have hwrite : ∀ {x}, (Except.ok (Answer.write (row'.advance stage v p c.now)) :
        Except LedgerError Answer) = .ok (.write x) → x.Valid slot.2 →
        (Held slot entry row s' (a, x) ∧ Φ s' x) ∧ Held slot entry x s' (a, x) := by
      intro x hx hvalid
      obtain rfl : row'.advance stage v p c.now = x := by simpa using hx
      have hmove := hheld.move _ hev'' (later_advance hheld.live stage v p c.now) rfl
      exact ⟨⟨hmove, hΦ' s' row' c.now (hΦ s₀ s' row' hev'' hφ)⟩, hmove.renew hvalid⟩
    cases hanswered with
    | failed f => exact ⟨⟨hheld.evolve hev'', hΦ s₀ s' row' hev'' hφ⟩, by simp⟩
    | kept h => simp at h
    | written x h hvalid =>
        obtain ⟨h₁, h₂⟩ := hwrite h hvalid
        refine ⟨h₁, fun row₁ hok => ?_⟩
        obtain rfl := Except.ok.inj hok
        exact ⟨h₂, rfl⟩
    | late x f h hvalid => exact ⟨(hwrite h hvalid).1, by simp⟩

/-! ## What the other sections keep -/

variable {P : State cfg → Attempt × Row → Prop}

/-- The rule of a section that touches neither the ledger nor the locks. -/
theorem triple_quiet {α : Type} {f : Choice → State cfg → Except Fault α × State cfg}
    (h : ∀ c s, Inv s → Quiet s (f c s).2) :
    (lease cfg).Triple t slot P (.act f) (fun _ => P) :=
  .keep fun c s _ _ hinv hlock hown _ _ => ⟨(h c s hinv).step hlock, (h c s hinv).own.trans hown⟩

/-- What a handler learns of a Run that it loads. -/
theorem triple_loadRun (hP : ∀ s s' o, Evolves s s' → P s o → P s' o) :
    (lease cfg).Triple t slot P (loadRun r)
      (fun result s o => P s o ∧ ∀ doc, result = .ok (some doc) → s.store r = .run doc) := by
  refine .look fun c s s₀ o hinv hown hev hp => ⟨hP _ _ _ hev hp, fun doc hok => ?_⟩
  unfold Choice.read at hok
  split at hok
  · simp at hok
  · exact Workspace.doc?_eq_some.1 (Except.ok.inj hok)

/-- The row that a handler reads is the one of the ledger. -/
theorem triple_readRow (hP : ∀ s s' o, Evolves s s' → P s o → P s' o)
    (hheld : ∀ s o, P s o → Held slot entry row s o) :
    (lease cfg).Triple t slot P (readRow entry row)
      (fun result s o => P s o ∧ ∀ row', result = .ok row' → Held slot entry row' s o ∧ o.2 = row') := by
  unfold readRow
  refine .seq (Q := fun result s o => P s o ∧ ∀ attempts, result = .ok attempts →
    findRow attempts slot = some o ∧ o.2.Valid slot.2) ?_ (fun attempts => ?_)
    fun e s o h => ⟨h.1, by simp⟩
  · refine .look fun c s s₀ o hinv hown hev hp => ⟨hP _ _ _ hev hp, fun attempts hok => ?_⟩
    unfold Choice.read at hok
    split at hok
    · simp at hok
    · obtain rfl := Except.ok.inj hok
      exact ⟨hown, hinv.valid (show s.row? slot = some (o.1, o.2) from hown)⟩
  · refine .assume (φ := entry.key = slot.1 ∧ row.generation = slot.2)
      (fun s o h => ⟨(hheld s o h.1).key, (hheld s o h.1).generation⟩) fun ⟨hkey, hgen⟩ => ?_
    rw [hkey, hgen]
    cases hfound : findRow attempts slot with
    | none =>
        refine .throw fun s o h => ?_
        simp [hfound] at h
    | some found =>
        refine .pure fun s o ⟨hp, h⟩ => ⟨hp, fun row' hok => ?_⟩
        obtain ⟨heq, hvalid⟩ := h attempts rfl
        obtain rfl := Option.some.inj (hfound.symm.trans heq)
        obtain rfl := Except.ok.inj hok
        exact ⟨(hheld s found hp).renew hvalid, rfl⟩

end DebBuilder.Automation
