import Mathlib
import DebBuilder.Recovery.Startup

/-!
# The recovery of the persisted Runs

## Main definitions

* `AbsenceProved` — why an interrupted Run may be marked failed.
* `MayBecome` — what recovery may make of the document of a Run.
* `Trips` — the recovery of the Run raises what no handler names.
* `RunEnd` — how the recovery of a Run ends.

## Main statements

* `recoverRun_ends` — the recovery of one Run.
* `recoverRuns_end` — the loop over all of them.
-/

namespace DebBuilder.Recovery
open Lib Function

/-! ## One Run -/

/-- The lifecycle of a Run is as it was: at most the publications and the recovery moved. -/
def SameLifecycle (doc doc' : Persisted) : Prop :=
  doc'.run = { doc.run with publications := doc'.run.publications }

theorem SameLifecycle.refl (doc : Persisted) : SameLifecycle doc doc := rfl

theorem SameLifecycle.trans {a b c : Persisted} (h : SameLifecycle a b) (h' : SameLifecycle b c) :
    SameLifecycle a c := by
  unfold SameLifecycle at *
  rw [h', h]

/-- Why a Run that has not ended may be marked failed: no command of it ever began, its
command belonged to another boot and to no unit, or its unit is gone. -/
def AbsenceProved (host : RunHost) (boot : String) (doc : Persisted) : Prop :=
  host.identity = .ok none ∧ noCommandCouldHaveStarted host doc = true ∨
  ∃ identity, host.identity = .ok (some identity) ∧
    (previousBoot boot identity = true ∨
      identity.unit?.isSome ∧ host.containment.verification.status = .notRunning ∧ host.containment.gone = true)

/-- What the recovery of a Run may make of its document. -/
def MayBecome (host : RunHost) (boot : String) (doc doc' : Persisted) : Prop :=
  SameLifecycle doc doc' ∨
    doc.run.status.terminal = false ∧ doc'.run.status = .failed ∧ AbsenceProved host boot doc

section
variable {host : RunHost} {boot : String} {id : RunId} {file : RunFile} {doc₀ doc : Persisted} {s : Session}

theorem readRun_eq_ok {doc : Persisted} (h : readRun id file = .ok doc) :
    doc.run.steps.map (·.name) = stepNames ∧ doc.run.id = id := by
  unfold readRun at h
  split at h
  · cases h
  · cases h
  · split at h
    · cases h
    · split_ifs at h with hnames hid
      obtain rfl := Except.ok.inj h
      exact ⟨by simpa using hnames, by simpa using hid⟩

theorem mapM_map_some {α : Type} (xs : List α) : (xs.map some).mapM (fun x => x) = some xs := by
  induction xs with
  | nil => rfl
  | cons x xs ih => simp [ih]

/-- What is saved is read again. -/
theorem readRun_file (hnames : doc.run.steps.map (·.name) = stepNames) (hid : doc.run.id = id) :
    readRun id doc.file = .ok doc := by
  simp only [readRun, Persisted.file, mapM_map_some]
  rw [if_neg (not_not.2 hnames), if_neg (not_not.2 hid)]

/-- What a Run adds to the result names the Run when it is blocked. -/
def Named (id : RunId) (s : Session) : Prop := s.blocked = true → ∃ blocker ∈ s.blockers, blocker.runId = id

/-- What the parts of the recovery of a Run keep, once its document was read as `doc₀`. -/
structure Within (host : RunHost) (boot : String) (id : RunId) (doc₀ : Persisted) (s s' : Session) : Prop where
  changed : (∃ doc, readRun id s.file = .ok doc ∧ MayBecome host boot doc₀ doc) →
    ∃ doc, readRun id s'.file = .ok doc ∧ MayBecome host boot doc₀ doc
  trustworthy : s'.trustworthy = s.trustworthy
  binding : s'.binding = s.binding
  named : Named id s → Named id s'

theorem Within.refl (s : Session) : Within host boot id doc₀ s s := ⟨fun h => h, rfl, rfl, fun h => h⟩

theorem Within.trans {a b c : Session} (h : Within host boot id doc₀ a b) (h' : Within host boot id doc₀ b c) :
    Within host boot id doc₀ a c where
  changed hchanged := h'.changed (h.changed hchanged)
  trustworthy := h'.trustworthy.trans h.trustworthy
  binding := h'.binding.trans h.binding
  named hnamed := h'.named (h.named hnamed)

/-- A document that may be saved for the Run. -/
structure Fits (host : RunHost) (boot : String) (id : RunId) (doc₀ doc : Persisted) : Prop where
  names : doc.run.steps.map (·.name) = stepNames
  id_eq : doc.run.id = id
  mayBecome : MayBecome host boot doc₀ doc

theorem id_eq_of_sameLifecycle (hread : readRun id file = .ok doc₀) (h : SameLifecycle doc₀ doc) : doc.run.id = id := by
  rw [h]
  exact (readRun_eq_ok hread).2

theorem fits_of_sameLifecycle (hread : readRun id file = .ok doc₀) (h : SameLifecycle doc₀ doc) :
    Fits host boot id doc₀ doc := by
  refine ⟨?_, id_eq_of_sameLifecycle hread h, .inl h⟩
  rw [h]
  exact (readRun_eq_ok hread).1

theorem Within.save (h : Fits host boot id doc₀ doc) : Within host boot id doc₀ s { s with file := doc.file } :=
  ⟨fun _ => ⟨doc, readRun_file h.names h.id_eq, h.mayBecome⟩, rfl, rfl, fun h => h⟩

/-- A save that raises is caught, and one that does not has replaced the document. -/
theorem save_ends (site : SaveSite) (h : Fits host boot id doc₀ doc) :
    (save host site doc).Ends (fun r s' => Within host boot id doc₀ s s' ∧ r ≠ .error .escaped ∧
      s'.blocked = s.blocked ∧ (r = .ok () → s'.file = doc.file ∧ host.saves site = .done) ∧
      (host.saves site = .done → r = .ok ())) s := by
  unfold save
  cases hsave : host.saves site with
  | done => simpa using Within.save h
  | lost message => simpa using Within.refl s
  | late message => simpa using Within.save h

theorem recordBlocker_ends (backend reason : String) (hid : doc.run.id = id)
    (h : ∀ record, Fits host boot id doc₀ { doc with recovery := .record record }) :
    (recordBlocker host doc backend reason).Ends (fun r s' => Within host boot id doc₀ s s' ∧
      r ≠ .error .escaped ∧ (r = .ok () → s'.blocked = true)) s := by
  have hupdate : ∀ s', Within host boot id doc₀ s s' → ∀ blocker : Blocker, blocker.runId = id →
      Within host boot id doc₀ s { s' with blockers := s'.blockers ++ [blocker], blocked := true } := by
    intro s' hw blocker hblocker
    exact ⟨hw.changed, hw.trustworthy, hw.binding, fun _ _ => ⟨blocker, by simp, hblocker⟩⟩
  by_cases hsame : doc.recovery ≠ .record (blockerRecord host doc backend reason)
  · simp only [recordBlocker, if_pos hsame]
    refine (save_ends .blocker (h _)).seq ?_ ?_
    · rintro ⟨⟩ s' ⟨hw, -⟩
      exact ⟨hupdate s' hw _ hid, nofun, fun _ => rfl⟩
    · rintro e s' ⟨hw, he, -⟩
      exact ⟨hw, he, nofun⟩
  · simp only [recordBlocker, if_neg hsame]
    exact ⟨hupdate s (Within.refl s) _ hid, nofun, fun _ => rfl⟩

theorem recordTerminalResolution_ends (backend reason : String)
    (h : ∀ record, Fits host boot id doc₀ { doc with recovery := .record record }) :
    (recordTerminalResolution host doc backend reason).Ends (fun r s' => Within host boot id doc₀ s s' ∧
      r ≠ .error .escaped) s := by
  unfold recordTerminalResolution
  split
  · split_ifs
    · exact (save_ends .resolution (h _)).mono fun r s' hs => ⟨hs.1, hs.2.1⟩
    · simpa using Within.refl s
  · simpa using Within.refl s

/-- Either the event is appended, or the events are no list. -/
theorem appendEvent_ends (event : RunEvent) {Q : Except Raised Persisted → Session → Prop} :
    (doc.appendEvent event).Ends Q s ↔
      match doc.events with
      | .list events => Q (.ok { doc with events := .list (events ++ [event]) }) s
      | .other _ => Q (.error .escaped) s := by
  unfold Persisted.appendEvent
  cases doc.events <;> exact Iff.rfl

theorem terminalizeInterrupted_ends (hread : readRun id file = .ok doc₀) (hlike : SameLifecycle doc₀ doc)
    (hrunning : doc₀.run.status.terminal = false) (hproved : AbsenceProved host boot doc₀)
    (backend reason : String) (control : Option ResourceControl) :
    (terminalizeInterrupted host doc backend reason control).Ends (fun r s' => Within host boot id doc₀ s s' ∧
      (r = .error .escaped ↔ ∃ truthy, doc.events = .other truthy) ∧
      (r = .ok () → ∃ doc', readRun id s'.file = .ok doc' ∧ doc'.run.status.terminal = true)) s := by
  obtain ⟨hnames, hid⟩ := readRun_eq_ok hread
  have hfits : ∀ events, Fits host boot id doc₀
      { terminalized host doc backend reason control with events } := by
    intro events
    refine ⟨?_, ?_, .inr ⟨hrunning, rfl, hproved⟩⟩
    · rw [← hnames, show doc₀.run.steps = doc.run.steps by rw [hlike]]
      simp only [terminalized, List.map_map]
      apply List.map_congr_left
      intro step _
      simp only [Function.comp_apply]
      split_ifs <;> rfl
    · rw [← hid]
      show doc.run.id = doc₀.run.id
      rw [hlike]
  have hevents : (terminalized host doc backend reason control).events = doc.events := rfl
  unfold terminalizeInterrupted
  rw [Script.ends_bind, appendEvent_ends]
  cases hlist : doc.events with
  | other truthy =>
      simp only [hevents, hlist]
      simpa using Within.refl s
  | list events =>
      simp only [hevents, hlist, Script.goes_ok]
      refine (save_ends .lifecycle (hfits _)).mono ?_
      rintro r s' ⟨hw, hescaped, -, hok, -⟩
      refine ⟨hw, by simp [hescaped], ?_⟩
      intro hr
      rw [(hok hr).1]
      exact ⟨_, readRun_file (hfits _).names (hfits _).id_eq, rfl⟩

/-- The Run is blocked, or its document has ended. -/
def Settled (id : RunId) (s : Session) : Prop :=
  s.blocked = true ∨ ∃ doc, readRun id s.file = .ok doc ∧ doc.run.status.terminal = true

theorem process_ends (host : RunHost) (boot : String) (id : RunId) (doc₀ : Persisted) (s : Session) :
    Within host boot id doc₀ s { s with processedRunIds := s.processedRunIds ++ [id] } :=
  ⟨fun h => h, rfl, rfl, fun h => h⟩

theorem clear_ends (host : RunHost) (boot : String) (id : RunId) (doc₀ : Persisted) (s : Session) :
    Within host boot id doc₀ s { s with identityCleared := true } :=
  ⟨fun h => h, rfl, rfl, fun h => h⟩

/-- The workload of the current boot is absent exactly when its unit is gone. -/
theorem absenceProved_iff (identity : CommandIdentity) (admitted : ResourcePolicy) :
    (reconcileCurrentBootIdentity host identity admitted).absenceProved = true ↔
      identity.unit?.isSome ∧ host.containment.verification.status = .notRunning ∧ host.containment.gone = true := by
  unfold reconcileCurrentBootIdentity CommandIdentity.unit?
  cases identity.backend with
  | processGroup => simp
  | systemdCgroup unitName =>
      dsimp only
      split_ifs <;> simp_all

theorem recoverTerminal_ends (hread : readRun id file = .ok doc₀) (hlike : SameLifecycle doc₀ doc)
    (identity : Option CommandIdentity) :
    (recoverTerminal host id boot doc identity).Ends (fun r s' => Within host boot id doc₀ s s' ∧
      (r = .error .escaped ↔ doc.recovery = .other)) s := by
  have hfits : ∀ record, Fits host boot id doc₀ { doc with recovery := .record record } :=
    fun record => fits_of_sameLifecycle hread hlike
  have hid : doc.run.id = id := id_eq_of_sameLifecycle hread hlike
  unfold recoverTerminal
  by_cases hother : doc.recovery = .other
  · rw [if_pos hother]
    simpa [hother] using Within.refl s
  · rw [if_neg hother]
    simp only [hother, iff_false]
    split_ifs
    · simpa [clearResolvedIdentity] using clear_ends host boot id doc₀ s
    · split
      · split_ifs
        · simp only [process, Script.ends_bind, Script.ends_update, Script.goes_ok]
          exact ⟨⟨fun h => h, rfl, rfl, fun _ _ => ⟨_, List.mem_append_right _ (List.mem_singleton_self _), rfl⟩⟩,
            (by rintro ⟨⟩)⟩
        · simpa using Within.refl s
      · simpa using Within.refl s
      · rw [Script.ends_bind]
        simp only [process, Script.ends_update, Script.goes_ok]
        have hprocess := process_ends host boot id doc₀ s
        split_ifs
        · simp only [clearResolvedIdentity, Script.ends_bind, Script.ends_update, Script.goes_ok]
          exact (recordTerminalResolution_ends _ _ hfits).mono fun r s' h =>
            ⟨(hprocess.trans (clear_ends host boot id doc₀ _)).trans h.1, h.2⟩
        · simp only [clearResolvedIdentity, Script.ends_bind, Script.ends_update, Script.goes_ok]
          exact (recordTerminalResolution_ends _ _ hfits).mono fun r s' h =>
            ⟨(hprocess.trans (clear_ends host boot id doc₀ _)).trans h.1, h.2⟩
        · exact (recordBlocker_ends _ _ hid hfits).mono fun r s' h => ⟨hprocess.trans h.1, h.2.1⟩

/-- The Run is marked failed, unless a save of its document raises. -/
def Terminalizes (host : RunHost) (boot : String) (doc : Persisted) : Prop :=
  match host.identity with
  | .error _ => False
  | .ok none => noCommandCouldHaveStarted host doc = true
  | .ok (some identity) =>
      (previousBoot boot identity = true ∨
        (reconcileCurrentBootIdentity host identity doc.effective).absenceProved = true) ∧
      terminalizationAmbiguity doc = none

theorem settleInterrupted_ends (hread : readRun id file = .ok doc₀) (hlike : SameLifecycle doc₀ doc)
    (hrunning : doc₀.run.status.terminal = false) (hproved : AbsenceProved host boot doc₀)
    (backend reason : String) (control : Option ResourceControl) :
    (settleInterrupted host doc backend reason control).Ends (fun r s' => Within host boot id doc₀ s s' ∧
      (r = .error .escaped ↔ (∃ truthy, doc.events = .other truthy) ∧ terminalizationAmbiguity doc = none) ∧
      (r = .ok () → Settled id s')) s := by
  have hfits : ∀ record, Fits host boot id doc₀ { doc with recovery := .record record } :=
    fun record => fits_of_sameLifecycle hread hlike
  have hid : doc.run.id = id := id_eq_of_sameLifecycle hread hlike
  unfold settleInterrupted
  cases hambiguity : terminalizationAmbiguity doc with
  | some ambiguity =>
      refine (recordBlocker_ends _ _ hid hfits).mono ?_
      rintro r s' ⟨hw, hescaped, hok⟩
      exact ⟨hw, by simp [hescaped], fun hr => .inl (hok hr)⟩
  | none =>
      refine (terminalizeInterrupted_ends hread hlike hrunning hproved _ _ _).seq ?_ ?_
      · rintro ⟨⟩ s' ⟨hw, hescaped, hok⟩
        simp only [clearResolvedIdentity, Script.ends_bind, Script.ends_update, Script.goes_ok]
        refine ⟨⟨hw.changed, hw.trustworthy, hw.binding, hw.named⟩, by simpa using hescaped, ?_⟩
        intro _
        exact .inr (hok rfl)
      · rintro e s' ⟨hw, hescaped, -⟩
        exact ⟨hw, by simpa using hescaped, (by intros; contradiction)⟩

theorem recoverInterrupted_ends (hread : readRun id file = .ok doc₀) (hlike : SameLifecycle doc₀ doc)
    (hrunning : doc₀.run.status.terminal = false) {identity : Option CommandIdentity}
    (hidentity : host.identity = .ok identity)
    (hnone : noCommandCouldHaveStarted host doc = true → noCommandCouldHaveStarted host doc₀ = true) :
    (recoverInterrupted host id boot doc identity).Ends (fun r s' => Within host boot id doc₀ s s' ∧
      (r = .error .escaped ↔ (∃ truthy, doc.events = .other truthy) ∧ Terminalizes host boot doc) ∧
      (r = .ok () → Settled id s')) s := by
  have hfits : ∀ record, Fits host boot id doc₀ { doc with recovery := .record record } :=
    fun record => fits_of_sameLifecycle hread hlike
  have hid : doc.run.id = id := id_eq_of_sameLifecycle hread hlike
  have hprocess := process_ends host boot id doc₀ s
  unfold recoverInterrupted
  simp only [process, Script.ends_bind, Script.ends_update, Script.goes_ok, Terminalizes, hidentity]
  cases identity with
  | none =>
      dsimp only
      split_ifs with hno
      · have hproved : AbsenceProved host boot doc₀ := .inl ⟨hidentity, hnone hno⟩
        refine (terminalizeInterrupted_ends hread hlike hrunning hproved _ _ _).seq ?_ ?_
        · rintro ⟨⟩ s' ⟨hw, hescaped, hok⟩
          simp only [Script.ends_update]
          refine ⟨⟨fun h => hw.changed (hprocess.changed h), hw.trustworthy, hw.binding, hw.named⟩,
            by simpa [hno] using hescaped, ?_⟩
          intro _
          exact .inr (hok rfl)
        · rintro e s' ⟨hw, hescaped, -⟩
          exact ⟨hprocess.trans hw, by simpa [hno] using hescaped, (by intros; contradiction)⟩
      · refine (recordBlocker_ends _ _ hid hfits).mono ?_
        rintro r s' ⟨hw, hescaped, hok⟩
        exact ⟨hprocess.trans hw, by simp [hescaped, hno], fun hr => .inl (hok hr)⟩
  | some identity =>
      dsimp only
      split_ifs with hboot hproved
      · have habsent : AbsenceProved host boot doc₀ := .inr ⟨identity, hidentity, .inl hboot⟩
        refine (settleInterrupted_ends hread hlike hrunning habsent _ _ _).mono ?_
        rintro r s' ⟨hw, hescaped, hok⟩
        exact ⟨hprocess.trans hw, by simp [hescaped, hboot], hok⟩
      · have habsent : AbsenceProved host boot doc₀ :=
          .inr ⟨identity, hidentity, .inr ((absenceProved_iff identity _).1 hproved)⟩
        refine (settleInterrupted_ends hread hlike hrunning habsent _ _ _).mono ?_
        rintro r s' ⟨hw, hescaped, hok⟩
        exact ⟨hprocess.trans hw, by simp [hescaped, hproved], hok⟩
      · refine (recordBlocker_ends _ _ hid hfits).mono ?_
        rintro r s' ⟨hw, hescaped, hok⟩
        exact ⟨hprocess.trans hw, by simp [hescaped, hboot, hproved], fun hr => .inl (hok hr)⟩

/-- How the recovery of the publications ends: there is none, the events are no list, the
save raises, or the document carries the event of it. -/
inductive PublicationsEnd (host : RunHost) (boot : String) (id : RunId) (doc₀ : Persisted) (s : Session) :
    Except Raised Persisted × Session → Prop
  | none (h : runningPublications doc₀ = []) : PublicationsEnd host boot id doc₀ s (.ok doc₀, s)
  | escaped {truthy : Bool} (h : runningPublications doc₀ ≠ []) (other : doc₀.events = .other truthy) :
      PublicationsEnd host boot id doc₀ s (.error .escaped, s)
  | raised {events : List RunEvent} {message : String} {s' : Session} (h : runningPublications doc₀ ≠ [])
      (list : doc₀.events = .list events) (saves : host.saves .publications ≠ .done)
      (within : Within host boot id doc₀ s s') :
      PublicationsEnd host boot id doc₀ s (.error (.caught message), s')
  | saved {events : List RunEvent} {event : RunEvent} {s' : Session} (h : runningPublications doc₀ ≠ [])
      (list : doc₀.events = .list events) (saves : host.saves .publications = .done)
      (within : Within host boot id doc₀ s s') :
      PublicationsEnd host boot id doc₀ s
        (.ok { publicationsInterrupted doc₀ with events := .list (events ++ [event]) }, s')

theorem recoverInterruptedPublications_end (hread : readRun id file = .ok doc₀) :
    PublicationsEnd host boot id doc₀ s (recoverInterruptedPublications host doc₀ s) := by
  unfold recoverInterruptedPublications
  by_cases hnone : runningPublications doc₀ = []
  · simp only [hnone, if_true]
    exact .none hnone
  · simp only [hnone, if_false]
    have hevents : (publicationsInterrupted doc₀).events = doc₀.events := rfl
    cases hlist : doc₀.events with
    | other truthy =>
        simp only [Persisted.appendEvent, hevents, hlist]
        exact .escaped hnone hlist
    | list events =>
        simp only [Persisted.appendEvent, hevents, hlist]
        have hfits : ∀ event, Fits host boot id doc₀
            { publicationsInterrupted doc₀ with events := .list (events ++ [event]) } :=
          fun event => fits_of_sameLifecycle hread rfl
        show PublicationsEnd host boot id doc₀ s (Script.bind (save host .publications _) _ s)
        unfold save Script.bind
        cases hsave : host.saves .publications with
        | done => exact .saved hnone hlist hsave (.save (hfits _))
        | lost message => exact .raised hnone hlist (by simp [hsave]) (.refl s)
        | late message => exact .raised hnone hlist (by simp [hsave]) (.save (hfits _))

/-- What the recovery of a Run under its lock does that its document and the host do not
allow for: it adds an event to what is no list of events, or asks for the status of a
recovery that is no object. -/
def Stumbles (host : RunHost) (boot : String) (doc : Persisted) : Prop :=
  (∃ truthy, doc.events = .other truthy) ∧
      (runningPublications doc ≠ [] ∨ doc.run.status.terminal = false ∧ Terminalizes host boot doc) ∨
    doc.recovery = .other ∧ doc.run.status.terminal = true ∧ (∃ identity, host.identity = .ok identity) ∧
      (runningPublications doc = [] ∨ host.saves .publications = .done)

/-- The end of what is done under the lock, once the document was read. -/
structure LockedEnd (host : RunHost) (boot : String) (id : RunId) (doc₀ : Persisted)
    (r : Except Raised Unit) (s : Session) : Prop where
  changed : ∃ doc, readRun id s.file = .ok doc ∧ MayBecome host boot doc₀ doc
  named : Named id s
  settled : r = .ok () → Settled id s
  trusted : r = .ok () → s.trustworthy = true →
    ∃ identity, host.identity = .ok identity ∧ s.binding = identity.bind (·.unit?)

theorem settled_of_terminal (hchanged : ∃ doc, readRun id s.file = .ok doc ∧ MayBecome host boot doc₀ doc)
    (hterminal : doc₀.run.status.terminal = true) : Settled id s := by
  obtain ⟨doc, hread, hsame | ⟨hrunning, -⟩⟩ := hchanged
  · refine .inr ⟨doc, hread, ?_⟩
    rw [hsame]
    exact hterminal
  · simp [hterminal] at hrunning

theorem recoverWorkload_ends (hread : readRun id file = .ok doc₀) (hlike : SameLifecycle doc₀ doc)
    (hnone : noCommandCouldHaveStarted host doc = true → noCommandCouldHaveStarted host doc₀ = true)
    (hchanged : ∃ doc, readRun id s.file = .ok doc ∧ MayBecome host boot doc₀ doc) (hnamed : Named id s) :
    (recoverWorkload host id boot doc).Ends (fun r s' => LockedEnd host boot id doc₀ r s' ∧
      (r = .error .escaped ↔
        (∃ truthy, doc.events = .other truthy) ∧ doc.run.status.terminal = false ∧ Terminalizes host boot doc ∨
        doc.recovery = .other ∧ doc.run.status.terminal = true ∧ ∃ identity, host.identity = .ok identity)) s := by
  have hstatus : doc.run.status = doc₀.run.status := by rw [hlike]
  unfold recoverWorkload
  cases hidentity : host.identity with
  | error message =>
      have hfits : ∀ record, Fits host boot id doc₀ { doc with recovery := .record record } :=
        fun record => fits_of_sameLifecycle hread hlike
      have hid : doc.run.id = id := id_eq_of_sameLifecycle hread hlike
      simp only [Script.ends_bind, Script.ends_update, Script.goes_ok]
      refine (recordBlocker_ends _ _ hid hfits).mono ?_
      rintro (e | ⟨⟩) s' ⟨hw, hescaped, hblocked⟩
      · refine ⟨⟨hw.changed hchanged, hw.named hnamed, (by intros; contradiction), (by intros; contradiction)⟩, ?_⟩
        simpa [Terminalizes, hidentity] using hescaped
      · simp only [process, Script.goes_ok, Script.ends_update]
        refine ⟨⟨hw.changed hchanged, hw.named hnamed, fun _ => .inl (hblocked rfl), ?_⟩, ?_⟩
        · intro _ htrust
          simp [hw.trustworthy] at htrust
        · simp [Terminalizes, hidentity]
  | ok identity =>
      simp only [Script.ends_bind, Script.ends_update, Script.goes_ok]
      cases hterminal : doc.run.status.terminal with
      | true =>
          simp only [if_true]
          refine Script.Ends.mono (recoverTerminal_ends hread hlike identity) ?_
          rintro r s' ⟨hw, hescaped⟩
          refine ⟨⟨hw.changed hchanged, hw.named hnamed, fun _ => ?_, fun _ _ => ⟨identity, hidentity, hw.binding⟩⟩, ?_⟩
          · exact settled_of_terminal (hw.changed hchanged) (by rw [← hstatus, hterminal])
          · simp [hescaped]
      | false =>
          simp only [Bool.false_eq_true, if_false]
          refine (recoverInterrupted_ends hread hlike (by rw [← hstatus, hterminal]) hidentity hnone).mono ?_
          rintro r s' ⟨hw, hescaped, hsettled⟩
          refine ⟨⟨hw.changed hchanged, hw.named hnamed, hsettled, fun _ _ => ⟨identity, hidentity, hw.binding⟩⟩, ?_⟩
          simp [hescaped]

/-- Events that were added are evidence that something happened. -/
theorem not_noCommand_of_events {events : List RunEvent} (h : doc.events = .list events) (hne : events ≠ []) :
    noCommandCouldHaveStarted host doc = false := by
  simp [noCommandCouldHaveStarted, h, Events.truthy, hne]

theorem recoverLocked_ends (hread : readRun id file = .ok doc₀) :
    (recoverLocked host id boot).Ends (fun r s' => LockedEnd host boot id doc₀ r s' ∧
      (r = .error .escaped ↔ Stumbles host boot doc₀)) { file } := by
  have hchanged : ∃ doc, readRun id file = .ok doc ∧ MayBecome host boot doc₀ doc := ⟨doc₀, hread, .inl rfl⟩
  have hnamed : Named id { file } := (by rintro ⟨⟩)
  unfold recoverLocked
  simp only [Script.ends_bind, Script.ends_get, Script.goes_ok, Script.ends_ofExcept, hread]
  have hend : PublicationsEnd host boot id doc₀ { file } (recoverInterruptedPublications host doc₀ { file }) :=
    recoverInterruptedPublications_end hread
  generalize hresult : recoverInterruptedPublications host doc₀ { file } = result at hend
  rw [Script.ends_of_eq hresult]
  cases hend with
  | none h =>
      rw [Script.goes_ok]
      refine (recoverWorkload_ends hread (.refl doc₀) (fun h => h) hchanged hnamed).mono ?_
      rintro r s' ⟨hlocked, hescaped⟩
      refine ⟨hlocked, ?_⟩
      rw [hescaped]
      simp [Stumbles, h]
  | escaped h other =>
      rw [Script.goes_error]
      refine ⟨⟨hchanged, hnamed, (by intros; contradiction), (by intros; contradiction)⟩, ?_⟩
      simp [Stumbles, h, other]
  | raised h list saves within =>
      rw [Script.goes_error]
      refine ⟨⟨within.changed hchanged, within.named hnamed, (by intros; contradiction), (by intros; contradiction)⟩, ?_⟩
      simp [Stumbles, h, list, saves]
  | @saved events event s₁ h list saves within =>
      have hlike : SameLifecycle doc₀
          { publicationsInterrupted doc₀ with events := .list (events ++ [event]) } := rfl
      rw [Script.goes_ok]
      refine (recoverWorkload_ends hread hlike ?_ (within.changed hchanged) (within.named hnamed)).mono ?_
      · intro hno
        rw [not_noCommand_of_events rfl (by simp)] at hno
        cases hno
      · rintro r s' ⟨hlocked, hescaped⟩
        refine ⟨hlocked, ?_⟩
        rw [hescaped]
        simp [Stumbles, h, list, saves, publicationsInterrupted]

/-- The recovery of the Run raises what no handler names: its document cannot be read for
such a reason, or it is not what the recovery takes it for. -/
def Trips (host : RunHost) (boot : String) (id : RunId) (file : RunFile) : Prop :=
  host.lock = .free ∧
    (readRun id file = .error .escaped ∨ ∃ doc, readRun id file = .ok doc ∧ Stumbles host boot doc)

/-- The end of the recovery of a Run. -/
structure RunEnd (host : RunHost) (boot : String) (id : RunId) (file : RunFile) (r : Except Unit Unit)
    (s : Session) : Prop where
  changed : ∀ doc₀, readRun id file = .ok doc₀ → ∃ doc, readRun id s.file = .ok doc ∧ MayBecome host boot doc₀ doc
  unread : (∀ doc₀, readRun id file ≠ .ok doc₀) → s.file = file
  named : Named id s
  settled : r = .ok () → Settled id s
  trusted : r = .ok () → s.trustworthy = true →
    host.lock = .free ∧ (∃ doc₀, readRun id file = .ok doc₀) ∧
      ∃ identity, host.identity = .ok identity ∧ s.binding = identity.bind (·.unit?)
  trips : r = .error () ↔ Trips host boot id file

theorem unverifiable_ends {reason : String} {Q : Except Unit Unit → Session → Prop} :
    (unverifiable id reason).Ends Q s ↔ Q (.ok ()) { s with
      trustworthy := false
      processedRunIds := s.processedRunIds ++ [id]
      blockers := s.blockers ++ [{ runId := id, backend := "unknown", reason }]
      blocked := true } := Iff.rfl

/-- A Run that could not be recovered is named, and its inventory is not trusted. -/
theorem RunEnd.unverifiable {reason : String} (hnot : ¬ Trips host boot id file)
    (hchanged : ∀ doc₀, readRun id file = .ok doc₀ →
      ∃ doc, readRun id s.file = .ok doc ∧ MayBecome host boot doc₀ doc)
    (hunread : (∀ doc₀, readRun id file ≠ .ok doc₀) → s.file = file) :
    (unverifiable id reason).Ends (RunEnd host boot id file) s := by
  rw [unverifiable_ends]
  refine ⟨hchanged, hunread, fun _ => ⟨_, List.mem_append_right _ (List.mem_singleton_self _), rfl⟩,
    fun _ => .inl rfl, fun _ h => (nomatch h), ?_⟩
  simp [hnot]

theorem recoverRun_ends (host : RunHost) (boot : String) (id : RunId) (file : RunFile) :
    (recoverRun host id boot).Ends (RunEnd host boot id file) { file } := by
  unfold recoverRun
  rw [Script.ends_handle]
  by_cases hlock : host.lock = .free
  · have hfree : host.lock.result = .ok () := by rw [hlock]; rfl
    simp only [Script.ends_bind, Script.ends_ofExcept, hfree, Script.goes_ok]
    cases hread : readRun id file with
    | error raised =>
        have hchanged : ∀ doc₀, readRun id file = .ok doc₀ →
            ∃ doc, readRun id file = .ok doc ∧ MayBecome host boot doc₀ doc := by
          intro doc₀ h
          simp [hread] at h
        simp only [recoverLocked, Script.ends_bind, Script.ends_get, Script.goes_ok, Script.ends_ofExcept, hread,
          Script.goes_error]
        cases raised with
        | busy message => exact RunEnd.unverifiable (by simp [Trips, hread]) hchanged fun _ => rfl
        | caught message => exact RunEnd.unverifiable (by simp [Trips, hread]) hchanged fun _ => rfl
        | escaped =>
            rw [Script.ends_raise]
            exact ⟨hchanged, fun _ => rfl, (by rintro ⟨⟩), (by intros; contradiction), (by intros; contradiction), by simp [Trips, hlock, hread]⟩
    | ok doc₀ =>
        refine (recoverLocked_ends hread).mono ?_
        rintro r s ⟨hend, hescaped⟩
        have htrips : Trips host boot id file ↔ Stumbles host boot doc₀ := by simp [Trips, hlock, hread]
        have hchanged : ∀ doc, readRun id file = .ok doc →
            ∃ doc', readRun id s.file = .ok doc' ∧ MayBecome host boot doc doc' := by
          intro doc h
          obtain rfl := Except.ok.inj (hread.symm.trans h)
          exact hend.changed
        have hunread : (∀ doc, readRun id file ≠ .ok doc) → s.file = file := fun h => (h doc₀ hread).elim
        rcases r with (message | message) | ⟨⟩
        · exact RunEnd.unverifiable (by rw [htrips, ← hescaped]; rintro ⟨⟩) hchanged hunread
        · exact RunEnd.unverifiable (by rw [htrips, ← hescaped]; rintro ⟨⟩) hchanged hunread
        · dsimp only
          rw [Script.ends_raise]
          exact ⟨hchanged, hunread, hend.named, (by intros; contradiction), (by intros; contradiction), by simp [htrips, ← hescaped]⟩
        · refine ⟨hchanged, hunread, hend.named, fun _ => hend.settled rfl, fun _ ht => ?_, ?_⟩
          · exact ⟨hlock, ⟨doc₀, hread⟩, hend.trusted rfl ht⟩
          · rw [htrips, ← hescaped]
            simp
  · have hnot : ¬ Trips host boot id file := fun h => hlock h.1
    have hchanged : ∀ doc₀, readRun id file = .ok doc₀ →
        ∃ doc, readRun id file = .ok doc ∧ MayBecome host boot doc₀ doc := fun doc₀ h => ⟨doc₀, h, .inl rfl⟩
    cases hl : host.lock with
    | free => exact (hlock hl).elim
    | busy message =>
        simp only [LockOutcome.result, Script.ends_bind, Script.ends_ofExcept, Script.goes_error]
        exact RunEnd.unverifiable hnot hchanged fun _ => rfl
    | failed message =>
        simp only [LockOutcome.result, Script.ends_bind, Script.ends_ofExcept, Script.goes_error]
        exact RunEnd.unverifiable hnot hchanged fun _ => rfl

end

/-! ## The Runs -/

/-- What every part of the recovery after another keeps. -/
structure Grown (state state' : State) : Prop where
  blockers : state.result.blockers ⊆ state'.result.blockers
  blockedIds : state.blockedIds ⊆ state'.blockedIds
  trustworthy : state'.trustworthy = true → state.trustworthy = true
  bound : ∀ unit, (state.unitBindings.lookup unit).isSome → (state'.unitBindings.lookup unit).isSome
  named : (∀ id ∈ state.blockedIds, ∃ blocker ∈ state.result.blockers, blocker.runId = id) →
    ∀ id ∈ state'.blockedIds, ∃ blocker ∈ state'.result.blockers, blocker.runId = id

theorem Grown.refl (state : State) : Grown state state :=
  ⟨fun _ h => h, fun _ h => h, fun h => h, fun _ h => h, fun h => h⟩

theorem Grown.trans {a b c : State} (h : Grown a b) (h' : Grown b c) : Grown a c where
  blockers _ hb := h'.blockers (h.blockers hb)
  blockedIds _ hid := h'.blockedIds (h.blockedIds hid)
  trustworthy ht := h.trustworthy (h'.trustworthy ht)
  bound unit hb := h'.bound unit (h.bound unit hb)
  named hn := h'.named (h.named hn)

theorem grown_block (state : State) (blocker : Blocker) : Grown state (state.block blocker) where
  blockers _ h := List.mem_append_left _ h
  blockedIds _ h := h
  trustworthy h := h
  bound _ h := h
  named hn id hid := by
    obtain ⟨b, hb, hbid⟩ := hn id hid
    exact ⟨b, List.mem_append_left _ hb, hbid⟩

theorem lookup_append_isSome {bindings : List (String × RunId)} {more : List (String × RunId)} {unit : String}
    (h : (bindings.lookup unit).isSome) : ((more ++ bindings).lookup unit).isSome := by
  rw [List.lookup_append]
  cases more.lookup unit with
  | none => simpa using h
  | some id => rfl

theorem grown_absorb {state : State} {id : RunId} {s : Session} (h : Named id s) :
    Grown state (state.absorb id s) where
  blockers _ hb := List.mem_append_left _ hb
  blockedIds _ hid := List.mem_append_right _ hid
  trustworthy ht := by
    simp only [State.absorb, Bool.and_eq_true] at ht
    exact ht.1
  bound _ hb := lookup_append_isSome hb
  named hn id' hid := by
    rcases List.mem_append.1 hid with hid | hid
    · by_cases hblocked : s.blocked = true
      · obtain ⟨b, hb, hbid⟩ := h hblocked
        rw [if_pos hblocked, List.mem_singleton] at hid
        exact ⟨b, List.mem_append_right _ hb, by rw [hbid, hid]⟩
      · rw [if_neg hblocked] at hid
        cases hid
    · obtain ⟨b, hb, hbid⟩ := hn id' hid
      exact ⟨b, List.mem_append_left _ hb, hbid⟩

/-- What the session of a Run left is part of the state. -/
structure Absorbed (id : RunId) (s : Session) (state : State) : Prop where
  file : state.files id = s.file
  blockers : s.blockers ⊆ state.result.blockers
  blocked : s.blocked = true → id ∈ state.blockedIds
  trustworthy : state.trustworthy = true → s.trustworthy = true
  bound : ∀ unit, s.binding = some unit → (state.unitBindings.lookup unit).isSome

theorem absorbed_absorb (state : State) (id : RunId) (s : Session) : Absorbed id s (state.absorb id s) where
  file := by simp [State.absorb]
  blockers _ h := List.mem_append_right _ h
  blocked h := by simp [State.absorb, h]
  trustworthy h := by
    simp only [State.absorb, Bool.and_eq_true] at h
    exact h.2
  bound unit h := by simp [State.absorb, h]

theorem Absorbed.grown {id : RunId} {s : Session} {state state' : State} (h : Absorbed id s state)
    (hgrown : Grown state state') (hfile : state'.files id = state.files id) : Absorbed id s state' where
  file := hfile.trans h.file
  blockers _ hb := hgrown.blockers (h.blockers hb)
  blocked hb := hgrown.blockedIds (h.blocked hb)
  trustworthy ht := h.trustworthy (hgrown.trustworthy ht)
  bound unit hu := hgrown.bound unit (h.bound unit hu)

/-- How the loop over the Runs ends. -/
structure RunsEnd (host : Host) (boot : String) (ids : List RunId) (state : State) (r : Except Unit Unit)
    (state' : State) : Prop where
  trips : r = .error () ↔ ∃ id ∈ ids, Trips (host.runs id) boot id (state.files id)
  others : ∀ id ∉ ids, state'.files id = state.files id
  addressed : r = .ok () → state'.addressed = state.addressed
  grown : r = .ok () → Grown state state'
  sessions : r = .ok () → ∀ id ∈ ids, ∃ s,
    recoverRun (host.runs id) id boot { file := state.files id } = (.ok (), s) ∧
      RunEnd (host.runs id) boot id (state.files id) (.ok ()) s ∧ Absorbed id s state'

theorem recoverRuns_end (host : Host) (boot : String) (ids : List RunId) (state : State) (hids : ids.Nodup) :
    RunsEnd host boot ids state (recoverRuns host boot ids state).1 (recoverRuns host boot ids state).2 := by
  induction ids generalizing state with
  | nil => exact ⟨by simp [recoverRuns], fun _ _ => rfl, fun _ => rfl, fun _ => .refl state, by simp⟩
  | cons id ids ih =>
      obtain ⟨hnot, hrest⟩ := List.nodup_cons.1 hids
      have hend := recoverRun_ends (host.runs id) boot id (state.files id)
      unfold recoverRuns
      rcases hrun : recoverRun (host.runs id) id boot { file := state.files id } with ⟨r, s⟩
      rw [Script.ends_of_eq hrun] at hend
      cases r with
      | error e =>
          dsimp only
          have htrips := hend.trips.1 rfl
          refine ⟨⟨fun _ => ⟨id, by simp, htrips⟩, fun _ => rfl⟩, ?_, nofun, nofun, nofun⟩
          intro id' hid'
          exact update_of_ne (fun h => hid' (by simp [h])) _ _
      | ok u =>
          dsimp only
          have hfiles : ∀ id' ≠ id, (state.absorb id s).files id' = state.files id' :=
            fun id' h => update_of_ne h _ _
          have htail : ∀ id' ∈ ids, (state.absorb id s).files id' = state.files id' :=
            fun id' h => hfiles id' fun heq => hnot (heq ▸ h)
          have hloop := ih (state.absorb id s) hrest
          have hgrown : Grown state (state.absorb id s) := grown_absorb hend.named
          have hnotrips : ¬ Trips (host.runs id) boot id (state.files id) :=
            fun h => nomatch hend.trips.2 h
          constructor
          · rw [hloop.trips]
            constructor
            · rintro ⟨id', hid', htrips⟩
              exact ⟨id', by simp [hid'], by rwa [htail id' hid'] at htrips⟩
            · rintro ⟨id', hid', htrips⟩
              rcases List.mem_cons.1 hid' with rfl | hid'
              · exact (hnotrips htrips).elim
              · exact ⟨id', hid', by rwa [htail id' hid']⟩
          · intro id' hid'
            rw [List.mem_cons, not_or] at hid'
            rw [hloop.others id' hid'.2, hfiles id' hid'.1]
          · intro hok
            exact hloop.addressed hok
          · intro hok
            exact hgrown.trans (hloop.grown hok)
          · intro hok id' hid'
            rcases List.mem_cons.1 hid' with rfl | hid'
            · exact ⟨s, hrun, hend, (absorbed_absorb state id' s).grown (hloop.grown hok) (hloop.others id' hnot)⟩
            · obtain ⟨s', hrun', hs', habsorbed⟩ := hloop.sessions hok id' hid'
              rw [htail id' hid'] at hrun' hs'
              exact ⟨s', hrun', hs', habsorbed⟩

end DebBuilder.Recovery
