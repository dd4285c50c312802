import Mathlib
import DebBuilder.Automation.Holding

/-!
# Validation and publication keep the invariant

Every handler behind the Run starts from a live row whose Run is a successful build; what
it writes is allowed, whatever the managers answer and whichever of its calls fail.

## Main definitions

* `Current` — the handler's copy of the row is the row of the ledger.
* `triple_publish`, `triple_validationEnded`, `triple_admitValidation` — the handlers.
* `triple_validationHandler` — the recursion of the Validation handlers.
-/

namespace DebBuilder.Automation
open Function Lib

variable {cfg : Config} {τ : Type} [DecidableEq τ] {t : τ} {slot : Slot} {row : Row} {entry : Entry}

/-- The handler's copy of the row is the row of the ledger, of which `Φ` holds. -/
structure Current (slot : Slot) (entry : Entry) (row : Row) (Φ : State cfg → Row → Prop)
    (s : State cfg) (o : Attempt × Row) : Prop where
  held : Held slot entry row s o
  same : o.2 = row
  also : Φ s row

/-- The Run of the row is a successful build with more to do. -/
def Behind (s : State cfg) (row : Row) : Prop := Built s.store row

/-- A row that the handler holds, with a fact that lasts. -/
def Holding (slot : Slot) (entry : Entry) (row : Row) (Φ : State cfg → Row → Prop) (s : State cfg)
    (o : Attempt × Row) : Prop := Held slot entry row s o ∧ Φ s o.2

theorem Current.holding {Φ : State cfg → Row → Prop} {s : State cfg} {o : Attempt × Row}
    (h : Current slot entry row Φ s o) : Holding slot entry row Φ s o :=
  ⟨h.held, by rw [h.same]; exact h.also⟩

theorem Current.evolve {Φ : State cfg → Row → Prop} (hΦ : ∀ s s' row, Evolves s s' → Φ s row → Φ s' row)
    {s s' : State cfg} {o : Attempt × Row} (hev : Evolves s s') (h : Current slot entry row Φ s o) :
    Current slot entry row Φ s' o := ⟨h.held.evolve hev, h.same, hΦ s s' row hev h.also⟩

/-! ## Publication -/

theorem triple_publicationFailed {code : String} :
    (lease cfg).Triple t slot (Holding slot entry row Behind) (publicationFailed entry row code)
      (fun _ _ _ => True) := by
  unfold publicationFailed
  split
  · exact (triple_scheduleRetry (by decide)).pre fun s o h => h.1
  · refine .seq .read (fun _ => ?_) fun _ _ _ _ => trivial
    refine (triple_finish ?_ (by decide)).pre fun s o h => ⟨h.1, fun hc => ?_, .inr (.inl h.2.started)⟩
    · split <;> simp
    · split at hc <;> simp at hc

theorem triple_publicationRaised {f : Fault} :
    (lease cfg).Triple t slot (Holding slot entry row Behind) (publicationRaised entry row f)
      (fun _ _ _ => True) := by
  unfold publicationRaised
  simp only
  split
  · exact .throw fun _ _ _ => trivial
  · split
    · exact .pure fun _ _ _ => trivial
    · refine .seq .read (fun b => ?_) fun _ _ _ _ => trivial
      split
      · exact triple_publicationFailed
      · exact .pure fun _ _ _ => trivial

theorem triple_publishArtifact {P : State cfg → Attempt × Row → Prop} {r : RunId} :
    (lease cfg).Triple t slot P (publishArtifact r) (fun _ => P) := by
  unfold publishArtifact
  exact .seq (triple_quiet fun c s hinv => quiet_beginPublication hinv)
    (fun _ => triple_quiet fun c s hinv => quiet_endPublication hinv _) fun _ _ _ h => h

theorem validated_advance {s : State cfg} {p : Option String} {now : Time} (h : Validated s row) :
    Validated s (row.advance .publication none p now) := by
  obtain ⟨⟨hpolicy, r, hr, hrun⟩, hfull, id, hid, hv⟩ := h
  exact ⟨⟨hpolicy, r, hr, hrun⟩, hfull, id, by simpa [Row.advance] using hid, hv⟩

/-- A publication link. -/
theorem triple_linkPublished {p : Option String} :
    (lease cfg).Triple t slot (Holding slot entry row Validated)
      (advanceLifecycle entry row .publication none p)
      (fun r s o => Holding slot entry row Validated s o ∧
        ∀ row', r = .ok row' → Current slot entry row' Validated s o) := by
  refine (triple_advance (Φ := Validated) ⟨by simp, by simp⟩ (.inl rfl) (fun _ _ _ h => h.1.linked)
    (fun _ _ _ h _ => h.1) (fun s o now hheld h hvalid => ?_) (fun _ _ _ hev h => h.evolve hev)
    fun _ _ _ h => validated_advance h).mono (fun _ _ h => h) fun r s o ⟨h, h'⟩ => ⟨h, fun row' hok => ?_⟩
  · obtain ⟨id, hid, -⟩ := h.2.2
    rw [hvalid.advance_publication hheld.live h.1.linked (by simp [hid])]
    simp [Request.Benign, optional]
  · obtain ⟨hheld, hsame⟩ := h' row' hok
    exact ⟨hheld, hsame, hsame ▸ h.2⟩

theorem triple_publicationEnded {result : Publication} :
    (lease cfg).Triple t slot (Current slot entry row Validated) (publicationEnded entry row result)
      (fun _ _ _ => True) := by
  unfold publicationEnded
  refine .seq (Q := fun r s o => ∀ row', r = .ok row' → Current slot entry row' Validated s o) ?_
    (fun row => ?_) fun _ _ _ _ => trivial
  · unfold linkPublication
    split
    · exact .pure fun s o h row' hok => Except.ok.inj hok ▸ h
    · exact (triple_linkPublished.pre fun s o h => h.holding).mono (fun _ _ h => h) fun r s o h => h.2
  · refine .seq (triple_loadRun fun s s' o hev h row' hok =>
      (h row' hok).evolve (fun _ _ _ hev h => h.evolve hev) hev) (fun persisted => ?_)
      fun _ _ _ _ => trivial
    simp only
    split
    · rename_i hproof
      refine .seq .read (fun _ => ?_) fun _ _ _ _ => trivial
      refine (triple_finish (by simp) (by decide)).pre fun s o hpre => ?_
      obtain ⟨h, hdoc⟩ := hpre
      have hcur := h row rfl
      obtain ⟨⟨hpolicy, r, hr, hrun⟩, hfull, id, hid, hv⟩ := hcur.also
      refine ⟨hcur.held, fun _ => .inr ⟨r, hcur.same ▸ hr, ?_⟩, .inr (.inl ?_)⟩
      · rw [hcur.same, hfull]
        have hrow : row.run = r := by simp [Row.run, hr]
        refine ⟨hrun, ⟨id, hid, hrow ▸ hv⟩, ?_⟩
        -- the proof is one of the linked Run
        obtain ⟨proof, hproof⟩ := Option.isSome_iff_exists.1 hproof
        simp only [Option.bind_eq_some_iff] at hproof
        obtain ⟨doc, rfl, p, hp, hproof⟩ := hproof
        have hdoc := hdoc doc rfl
        rw [hrow] at hdoc
        obtain ⟨doc', hdoc', hstatus⟩ := hrun
        rw [hdoc, Workspace.run.injEq] at hdoc'
        exact ⟨doc, hdoc, by rw [hdoc', hstatus]; rfl, p, List.mem_of_find?_eq_some hp,
          by rw [hproof]; rfl⟩
      · rw [hcur.same]
        exact hcur.also.1.started
    · refine triple_publicationFailed.pre fun s o hpre => ?_
      obtain ⟨h, -⟩ := hpre
      exact ⟨(h row rfl).held, (h row rfl).holding.2.1⟩

theorem triple_publishRun :
    (lease cfg).Triple t slot (Current slot entry row Validated) (publishRun entry row)
      (fun _ _ _ => True) := by
  unfold publishRun
  refine .seq .read (fun run => ?_) fun _ _ _ _ => trivial
  cases run with
  | none =>
      refine (triple_finish (by simp) (by decide)).pre fun s o h =>
        ⟨h.held, by simp, .inr (.inl (by rw [h.same]; exact h.also.1.started))⟩
  | some run =>
      refine .catch (Q := fun r s o => Holding slot entry row Validated s o ∧
        ∀ row', r = .ok row' → Current slot entry row' Validated s o) ?_ fun result => ?_
      · unfold leased
        exact .seq .read (fun _ => triple_linkPublished.pre fun s o h => h.holding)
          fun _ s o h => ⟨h.holding, by simp⟩
      · cases result with
        | error f => exact triple_publicationRaised.pre fun s o h => ⟨h.1.1, h.1.2.1⟩
        | ok row' =>
            refine .catch (Q := fun _ => Current slot entry row' Validated) ?_ fun result => ?_
            · unfold leased
              exact (Lease.Triple.seq .read (fun _ => triple_publishArtifact) fun _ _ _ h => h).pre
                fun s o h => h.2 row' rfl
            · cases result with
              | error f => exact triple_publicationRaised.pre fun s o h =>
                  ⟨h.held, h.holding.2.1⟩
              | ok result => exact triple_publicationEnded

theorem triple_publish :
    (lease cfg).Triple t slot (Current slot entry row Validated) (publish entry row)
      (fun _ _ _ => True) := by
  unfold publish
  refine .seq .read (fun b => ?_) fun _ _ _ _ => trivial
  split
  · refine .seq .read (fun recipe => ?_) fun _ _ _ _ => trivial
    split
    · refine .seq .read (fun _ => ?_) fun _ _ _ _ => trivial
      exact (triple_finish (by simp) (by decide)).pre fun s o h =>
        ⟨h.held, by simp, .inr (.inl (by rw [h.same]; exact h.also.1.started))⟩
    · refine .seq .read (fun run => ?_) fun _ _ _ _ => trivial
      split
      · split
        · refine .seq (triple_linkPublished.pre fun s o h => h.holding) (fun row' => ?_)
            fun _ _ _ _ => trivial
          exact triple_publicationFailed.pre fun s o h =>
            ⟨(h.2 row' rfl).held, (h.2 row' rfl).holding.2.1⟩
        · exact triple_publishRun
      · exact triple_publishRun
  · exact .pure fun _ _ _ => trivial

/-! ## Validation -/

theorem behind_evolve : ∀ (s s' : State cfg) (row : Row), Evolves s s' → Behind s row → Behind s' row :=
  fun _ _ _ hev h => Built.evolve h hev

/-- A Validation link of a row that is as the handler holds it. -/
theorem triple_linkValidation {id : String} :
    (lease cfg).Triple t slot (Current slot entry row Behind)
      (advanceLifecycle entry row .validation (some id) none)
      (fun r s o => ∀ row', r = .ok row' → Current slot entry row' Behind s o) := by
  refine ((triple_advance (Φ := fun s x => Behind s x ∧
      x.publicationAttemptId = row.publicationAttemptId) ⟨by simp, by simp⟩ (.inr (.inr rfl))
    (fun _ _ _ h => Built.linked h.1) (fun _ _ _ h _ => h.1) (fun s o now hheld h hvalid => ?_)
    (fun _ _ _ hev h => ⟨behind_evolve _ _ _ hev h.1, h.2⟩)
    fun _ _ _ h => ⟨h.1, by simpa [Row.advance] using h.2⟩).pre fun s o h =>
      ⟨h.held, h.holding.2, by rw [h.same]⟩).mono (fun _ _ h => h) fun r s o ⟨h, h'⟩ row' hok => ?_
  · rw [hvalid.advance_validation hheld.live (Built.linked h.1), h.2]
    simp [Request.Benign, optional]
  · obtain ⟨hheld, hsame⟩ := h' row' hok
    exact ⟨hheld, hsame, hsame ▸ h.2.1⟩

theorem triple_reconcileFrom {ids : List String} :
    (lease cfg).Triple t slot (Current slot entry row Behind) (reconcileFrom entry row ids)
      (fun r s o => ∀ linked, r = .ok linked → Current slot entry (linked.getD row) Behind s o) := by
  induction ids with
  | nil => exact .pure fun s o h linked hok => Except.ok.inj hok ▸ h
  | cons id ids ih =>
      unfold reconcileFrom
      refine .catch (Q := fun _ => Current slot entry row Behind) .read fun result => ?_
      cases result with
      | error f =>
          simp only
          split
          · exact ih
          · exact .throw fun _ _ _ _ hok => by simp at hok
      | ok metadata =>
          simp only
          split
          · split
            · exact .pure fun s o h linked hok => Except.ok.inj hok ▸ h
            · refine .seq triple_linkValidation (fun row' => ?_) fun _ _ _ _ _ hok => by simp at hok
              exact .pure fun s o h linked hok => Except.ok.inj hok ▸ h row' rfl
          · exact ih

theorem triple_reconcileValidationLink :
    (lease cfg).Triple t slot (Current slot entry row Behind) (reconcileValidationLink entry row)
      (fun r s o => ∀ linked, r = .ok linked → Current slot entry (linked.getD row) Behind s o) := by
  unfold reconcileValidationLink
  exact .seq .read (fun ids => triple_reconcileFrom) fun _ _ _ _ _ hok => by simp at hok

/-- A generation behind its Run may be finished without success. -/
theorem Holding.ends {s : State cfg} {o : Attempt × Row} {classification : Classification}
    {diagnostic : String} (h : Holding slot entry row Behind s o)
    (hclass : classification ≠ .success) :
    Held slot entry row s o ∧ Ends slot classification diagnostic s o.2 :=
  ⟨h.1, fun hc => absurd hc hclass, .inr (.inl (Built.started h.2))⟩

theorem triple_validationEnded {id : String} :
    (lease cfg).Triple t slot
      (Current slot entry row fun s row => Behind s row ∧ row.validationAttemptId = some id)
      (validationEnded entry row id) (fun _ _ _ => True) := by
  have hholding : ∀ {s : State cfg} {o : Attempt × Row},
      Current slot entry row (fun s row => Behind s row ∧ row.validationAttemptId = some id) s o →
        Holding slot entry row Behind s o := fun h => ⟨h.held, by rw [h.same]; exact h.also.1⟩
  unfold validationEnded
  refine .catch (Q := fun r s o =>
    Current slot entry row (fun s row => Behind s row ∧ row.validationAttemptId = some id) s o ∧
      ∀ attempt, r = .ok attempt → s.attempt? row.run id = some attempt) ?_ fun result => ?_
  · refine .look fun c s s₀ o hinv hown hev h => ⟨h.evolve (fun _ _ _ hev h =>
      ⟨behind_evolve _ _ _ hev h.1, h.2⟩) hev, fun attempt hok => ?_⟩
    unfold Choice.read at hok
    split at hok
    · simp [bind, Except.bind] at hok
    · simp only [bind, Except.bind] at hok
      split at hok
      · simp at hok
      · rename_i hfound
        rw [hfound, Except.ok.inj hok]
  · cases result with
    | error f =>
        cases f with
        | validationAdmission code =>
            exact (triple_finish (by simp) (by decide)).pre fun s o h => (hholding h.1).ends (by simp)
        | ledger | coded | value | exc => exact .throw fun _ _ _ => trivial
    | ok attempt =>
        cases hstatus : attempt.status with
        | queued | running | cancelling =>
            simp only [hstatus]
            exact .pure fun _ _ _ => trivial
        | cancelled =>
            simp only [hstatus]
            exact (triple_finish (by simp) (by decide)).pre fun s o h => (hholding h.1).ends (by simp)
        | failed =>
            simp only [hstatus]
            refine .seq .read (fun _ => ?_) fun _ _ _ _ => trivial
            split
            · exact (triple_scheduleRetry (by decide)).pre fun s o h => h.1.held
            · exact (triple_finish (by simp) (by decide)).pre fun s o h => (hholding h.1).ends (by simp)
        | success =>
            simp only [hstatus]
            split
            · rename_i hpolicy
              refine (triple_finish (by simp) (by decide)).pre fun s o hpre => ?_
              obtain ⟨h, hattempt⟩ := hpre
              obtain ⟨hbuilt, hid⟩ := h.also
              have hrun := hbuilt
              obtain ⟨-, r, hr, hrun⟩ := hrun
              have hrow : row.run = r := by simp [Row.run, hr]
              refine ⟨h.held, fun _ => .inr ⟨r, h.same ▸ hr, ?_⟩,
                .inr (.inl (by rw [h.same]; exact Built.started hbuilt))⟩
              rw [h.same, hpolicy]
              exact ⟨hrun, id, hid, attempt, hrow ▸ hattempt attempt rfl, hstatus⟩
            · rename_i hpolicy
              refine triple_publish.pre fun s o hpre => ?_
              obtain ⟨h, hattempt⟩ := hpre
              refine ⟨h.held, h.same, h.also.1, ?_, id, h.also.2, attempt, hattempt attempt rfl, hstatus⟩
              exact h.also.1.1.resolve_left hpolicy

/-- The rule of the calls to a Validation handler. -/
abbrev Handles (t : τ) (slot : Slot) (Φ : State cfg → Row → Prop)
    (handle : Entry → Row → Code cfg Unit) : Prop :=
  ∀ entry row, (lease cfg).Triple t slot (Current slot entry row Φ) (handle entry row)
    (fun _ _ _ => True)

/-- The Run of the row is a successful build, and no publication of it was linked. -/
def Unpublished (s : State cfg) (row : Row) : Prop := Behind s row ∧ row.publicationAttemptId = none

theorem triple_handleValidation {admitValidation : Entry → Row → Code cfg Unit}
    (hadmits : Handles t slot Unpublished admitValidation) :
    Handles t slot Behind (handleValidation admitValidation) := by
  intro entry row
  unfold handleValidation
  refine .seq triple_reconcileValidationLink (fun linked => ?_) fun _ _ _ _ => trivial
  simp only
  cases hid : (linked.getD row).validationAttemptId with
  | none =>
      refine (hadmits entry _).pre fun s o h => ?_
      have hcur := h linked rfl
      refine ⟨hcur.held, hcur.same, hcur.also, ?_⟩
      by_contra hp
      exact hcur.held.valid.publicationLink hp hid
  | some id => exact triple_validationEnded.pre fun s o h =>
      ⟨(h linked rfl).held, (h linked rfl).same, (h linked rfl).also, hid⟩

theorem triple_dropPublicationIntent {P : State cfg → Attempt × Row → Prop} :
    (lease cfg).Triple t slot P (dropPublicationIntent row) (fun _ => P) := by
  unfold dropPublicationIntent
  split
  · exact .pure fun _ _ h => h
  · refine .catch (Q := fun _ => P) .read fun result => ?_
    cases result with
    | ok u => exact .pure fun _ _ h => h
    | error f =>
        simp only
        split
        · exact .pure fun _ _ h => h
        · exact .throw fun _ _ h => h

theorem triple_validationRefused {f : Fault} :
    (lease cfg).Triple t slot (Holding slot entry row Behind) (validationRefused entry row f)
      (fun _ _ _ => True) := by
  have hfail (code : String) : (lease cfg).Triple t slot (Holding slot entry row Behind)
      (finish entry row .terminalFailure code "validation_admission_failed") (fun _ _ _ => True) :=
    (triple_finish (by simp) (by decide)).pre fun s o h => h.ends (by simp)
  have hother (f : Fault) : (lease cfg).Triple t slot (Holding slot entry row Behind)
      (if !f.isException then (.throw f : Code cfg Unit)
        else if f.code "validation_admission_failed" = "application_shutting_down" then pure ()
        else do
          if ← admissionOpen then
            finish entry row .terminalFailure (f.code "validation_admission_failed")
              "validation_admission_failed"
          else pure ()) (fun _ _ _ => True) := by
    split
    · exact .throw fun _ _ _ => trivial
    · split
      · exact .pure fun _ _ _ => trivial
      · refine .seq .read (fun b => ?_) fun _ _ _ _ => trivial
        split
        · exact hfail _
        · exact .pure fun _ _ _ => trivial
  unfold validationRefused
  cases f with
  | validationAdmission code =>
      simp only
      split
      · refine .seq .read (fun b => ?_) fun _ _ _ _ => trivial
        split
        · exact (triple_scheduleRetry (by decide)).pre fun s o h => h.1
        · exact .pure fun _ _ _ => trivial
      · exact hfail _
  | ledger e => exact hother _
  | coded code => exact hother _
  | value => exact hother _
  | exc e => exact hother _

/-- The row goes back to Validation admission. -/
theorem triple_reopenValidation :
    (lease cfg).Triple t slot (Current slot entry row Unpublished)
      (leased (advanceLifecycle entry row .validationAdmission none none))
      (fun r s o => Holding slot entry row Behind s o ∧
        ∀ row', r = .ok row' → Current slot entry row' Unpublished s o) := by
  unfold leased
  refine .seq .read (fun _ => ?_) fun _ s o h => ⟨⟨h.held, by rw [h.same]; exact h.also.1⟩, by simp⟩
  refine ((triple_advance (Φ := Unpublished) ⟨by simp, by simp⟩ (.inl rfl)
    (fun _ _ _ h => Built.linked h.1) (fun _ _ _ h _ => h.1) (fun s o now hheld h hvalid => ?_)
    (fun _ _ _ hev h => ⟨behind_evolve _ _ _ hev h.1, h.2⟩)
    fun _ _ _ h => ⟨h.1, by simpa [Row.advance] using h.2⟩).pre fun s o h => h.holding).mono
      (fun _ _ h => h) fun r s o ⟨h, h'⟩ => ⟨⟨h.1, h.2.1⟩, fun row' hok => ?_⟩
  · exact iff_of_true (hvalid.advance_validationAdmission hheld.live (Built.linked h.1) h.2)
      (by simp [Request.Benign, optional])
  · obtain ⟨hheld, hsame⟩ := h' row' hok
    exact ⟨hheld, hsame, hsame ▸ h.2⟩

theorem triple_delayValidation :
    (lease cfg).Triple t slot (Current slot entry row Unpublished) (delayValidation entry row)
      (fun _ _ _ => True) := by
  unfold delayValidation
  refine .catch triple_reopenValidation fun result => ?_
  cases result with
  | ok row' => exact (triple_scheduleRetry (by decide)).pre fun s o h => (h.2 row' rfl).held
  | error f =>
      simp only
      split
      · exact .throw fun _ _ _ => trivial
      · split
        · exact .pure fun _ _ _ => trivial
        · refine .seq .read (fun b => ?_) fun _ _ _ _ => trivial
          split
          · exact .throw fun _ _ _ => trivial
          · exact .pure fun _ _ _ => trivial

theorem triple_startValidation {handleValidation : Entry → Row → Code cfg Unit}
    (hhandle : Handles t slot Behind handleValidation) :
    (lease cfg).Triple t slot (Current slot entry row Unpublished)
      (startValidation handleValidation entry row) (fun _ _ _ => True) := by
  unfold startValidation
  refine .catch triple_reopenValidation fun result => ?_
  cases result with
  | error f => exact triple_validationRefused.pre fun s o h => h.1
  | ok row' =>
      refine .catch (Q := fun _ => Current slot entry row' Unpublished)
        ((triple_quiet fun c s hinv => quiet_admitAttempt hinv _).pre fun s o h => h.2 row' rfl)
        fun result => ?_
      cases result with
      | error f => exact triple_validationRefused.pre fun s o h =>
          ⟨h.held, by rw [h.same]; exact h.also.1⟩
      | ok id =>
          refine .seq (triple_linkValidation.pre fun s o h => ⟨h.held, h.same, h.also.1⟩)
            (fun linked => ?_) fun _ _ _ _ => trivial
          refine .catch (Q := fun _ => Current slot entry linked Behind)
            (Lease.Triple.read.pre fun s o h => h linked rfl) fun result => ?_
          cases result with
          | error f =>
              cases f with
              | validationAdmission code => exact .pure fun _ _ _ => trivial
              | ledger | coded | value | exc => exact .throw fun _ _ _ => trivial
          | ok current =>
              simp only
              split
              · exact .pure fun _ _ _ => trivial
              · exact hhandle entry linked

theorem triple_admitValidation {handleValidation : Entry → Row → Code cfg Unit}
    (hhandle : Handles t slot Behind handleValidation) :
    Handles t slot Unpublished (admitValidation handleValidation) := by
  intro entry row
  unfold admitValidation
  refine .seq .read (fun b => ?_) fun _ _ _ _ => trivial
  split
  · refine .assume (φ := row.publicationAttemptId = none) (fun s o h => h.also.2) fun hp => ?_
    refine .seq (triple_reconcileValidationLink.pre fun s o h => ⟨h.held, h.same, h.also.1⟩)
      (fun linked => ?_) fun _ _ _ _ => trivial
    cases linked with
    | some row' => exact (hhandle entry row').pre fun s o h => h (some row') rfl
    | none =>
        have hcur : ∀ (s : State cfg) (o : Attempt × Row), (∀ linked : Option Row,
            (Except.ok none : Except Fault (Option Row)) = .ok linked →
              Current slot entry (linked.getD row) Behind s o) →
                Current slot entry row Unpublished s o := fun s o h =>
          ⟨(h none rfl).held, (h none rfl).same, (h none rfl).also, hp⟩
        refine Lease.Triple.pre ?_ hcur
        refine .seq .read (fun recipe => ?_) fun _ _ _ _ => trivial
        simp only
        generalize (if row.desiredPolicy = .full then Policy.full else .buildValidate) = required
        split
        · refine .seq triple_dropPublicationIntent (fun _ => ?_) fun _ _ _ _ => trivial
          exact (triple_finish (by simp) (by decide)).pre fun s o h =>
            Holding.ends ⟨h.held, by rw [h.same]; exact h.also.1⟩ (by simp)
        · refine .seq .read (fun b => ?_) fun _ _ _ _ => trivial
          split
          · exact triple_startValidation hhandle
          · exact triple_delayValidation
  · exact .pure fun _ _ _ => trivial

/-- The Validation handlers keep the invariant at every depth. -/
theorem triple_validationHandler (depth : Nat) :
    Handles t slot (@Behind cfg) (validationHandler depth) := by
  induction depth with
  | zero => exact fun entry row => .throw fun _ _ _ => trivial
  | succ n ih => exact triple_handleValidation (triple_admitValidation ih)

end DebBuilder.Automation
