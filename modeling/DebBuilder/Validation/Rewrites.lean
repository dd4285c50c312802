import Mathlib
import DebBuilder.Validation.Moves

/-!
# Readable attempts stay readable

What a writer makes of a readable attempt is readable again, next to the evidence that the
attempt has.  The instants must be in order: an attempt must not end before its
dependencies were prepared.

## Main definitions

* `SameWork` — two versions of an attempt whose work has begun and is not over.

## Main results

* `Loaded.rewrite` — an attempt that ends or goes on without a result.
* `Loaded.prepare` — the dependencies of an attempt are written.
* `completeLifecycleAttempt_loaded` — the result and the attempt of a lifecycle are written.
-/

namespace DebBuilder.Validation
open Lib

variable {runId id : String} {files : AttemptFiles} {a b v : Attempt} {p : Prepared} {now : Timestamp}

/-! ## Canonical attempts -/

/-- A version of a canonical attempt that keeps its inputs is written as it is. -/
theorem normalizeValidationAttempt_of_inputs (hcanonical : normalizeValidationAttempt a = .ok a)
    (h : normalizeValidationAttempt v = .ok b) (hinputs : v.inputs = a.inputs) : b = v := by
  simp only [normalizeValidationAttempt, bind_eq_ok, pure_eq_ok] at h hcanonical
  obtain ⟨_, -, _, -, _, -, profile, hprofile, artifact, hartifact, previous, hprevious, _, -, _, -,
    _, -, _, -, _, -, _, -, _, -, heq⟩ := hcanonical
  obtain ⟨_, -, _, hid, _, hrun, profile', hprofile', artifact', hartifact', previous', hprevious',
    _, -, _, hname, _, -, _, himage, _, hresult, _, herror, _, -, rfl⟩ := h
  rw [hinputs] at hprofile' hartifact' hprevious'
  obtain rfl := Except.ok.inj (hprofile.symm.trans hprofile')
  obtain rfl := Except.ok.inj (hartifact.symm.trans hartifact')
  obtain rfl := Except.ok.inj (hprevious.symm.trans hprevious')
  have hkept : v.inputs = ⟨profile, artifact, previous⟩ := by
    rw [hinputs, ← heq]
  rw [string_eq hid, string_eq hrun, string_eq hname, normalizeImageIdentity_eq himage,
    nullable_eq (fun _ _ => normalizeAttemptResult_eq) hresult,
    nullable_eq (fun _ _ => normalizeAttemptError_eq) herror, ← hkept]

/-- A version that keeps the identity of a canonical attempt and has no result is canonical
if its status has the fields that it should have. -/
theorem normalizeValidationAttempt_of_rules {status : Status} {finished : Option Timestamp}
    {error : AttemptError} (hcanonical : normalizeValidationAttempt a = .ok a)
    (herror : normalizeAttemptError error "$.error" = .ok error)
    (hrules : statusRules
      { a with status, finishedAt := finished, result := none, error := some error } = .ok ()) :
    normalizeValidationAttempt
      { a with status, finishedAt := finished, result := none, error := some error } =
        .ok { a with status, finishedAt := finished, result := none, error := some error } := by
  simp only [normalizeValidationAttempt, bind_eq_ok, pure_eq_ok] at hcanonical ⊢
  obtain ⟨_, hversion, _, hid, _, hrun, _, hprofile, artifact, hartifact, previous, hprevious, _,
    hcompatible, _, hname, _, hselected, _, himage, _, -, _, -, _, -, heq⟩ := hcanonical
  obtain rfl := string_eq hid
  obtain rfl := string_eq hrun
  obtain rfl := string_eq hprofile
  obtain rfl := string_eq hname
  obtain rfl := normalizeImageIdentity_eq himage
  have hinputs : a.inputs = ⟨a.inputs.profile, artifact, previous⟩ := by rw [← heq]
  have hsame : ({ a with
      inputs := ⟨a.inputs.profile, artifact, previous⟩
      selectedProfile := ⟨a.selectedProfile.name, a.selectedProfile.image⟩
      status, finishedAt := finished, result := none, error := some error } : Attempt) =
      { a with status, finishedAt := finished, result := none, error := some error } := by
    rw [← hinputs]
  refine ⟨_, hversion, _, hid, _, hrun, _, hprofile, _, hartifact, _, hprevious, _, hcompatible, _,
    hname, _, hselected, _, himage, none, rfl, some error, map_eq_ok.2 ⟨_, herror, rfl⟩, (), ?_, hsame⟩
  exact hsame ▸ hrules

theorem canonical_of_read (h : readAttempt files = .ok a) : normalizeValidationAttempt a = .ok a := by
  obtain ⟨value, -, hvalue⟩ := readAttempt_eq_ok.1 h
  exact normalizeValidationAttempt_canonical hvalue

theorem keeping_document {α : Type} {normalize : α → Except ContractError α} {value : α}
    (h : normalize value = .ok value) : keeping normalize (.document value) = .ok value :=
  keeping_eq_ok.2 ⟨value, rfl, h⟩

theorem not_before_trans {t u v : Timestamp} (htu : ¬ t < u) (huv : ¬ u < v) : ¬ t < v :=
  Int.not_lt.2 (Int.le_trans (Int.not_lt.1 huv) (Int.not_lt.1 htu))

/-- A successful attempt has a result. -/
theorem result_of_success (h : statusRules a = .ok ()) (hstatus : a.status = .success) :
    a.result ≠ none := by
  simp only [statusRules, bind_eq_ok, refuse_eq_ok] at h
  obtain ⟨_, -, _, -, _, -, _, hsuccess, -⟩ := h
  intro hnone
  exact hsuccess ⟨hstatus, .inr (.inr (by simp [hnone]))⟩

/-- An attempt that is active has no result and is not over, and one that runs has begun. -/
theorem fields_of_started (h : statusRules a = .ok ())
    (hstatus : a.status = .running ∨ a.status = .cancelling) :
    a.startedAt ≠ none ∧ a.finishedAt = none ∧ a.result = none := by
  simp only [statusRules, bind_eq_ok, refuse_eq_ok] at h
  obtain ⟨_, -, _, hactive, -⟩ := h
  by_contra hnot
  apply hactive
  refine ⟨hstatus, ?_⟩
  by_contra hnone
  simp only [not_or, not_not] at hnone
  exact hnot ⟨hnone.1, hnone.2.1, hnone.2.2.1⟩

theorem fields_of_queued (h : statusRules a = .ok ()) (hstatus : a.status = .queued) :
    a.startedAt = none ∧ a.finishedAt = none ∧ a.result = none := by
  simp only [statusRules, bind_eq_ok, refuse_eq_ok] at h
  obtain ⟨_, hqueued, -⟩ := h
  by_contra hnot
  apply hqueued
  refine ⟨hstatus, ?_⟩
  by_contra hnone
  simp only [not_or, not_not] at hnone
  exact hnot ⟨hnone.1, hnone.2.1, hnone.2.2.1⟩

theorem fields_of_active (h : statusRules a = .ok ()) (hactive : a.status.active = true) :
    a.finishedAt = none ∧ a.result = none := by
  cases hstatus : a.status with
  | queued => exact (fields_of_queued h hstatus).2
  | running => exact (fields_of_started h (.inl hstatus)).2
  | cancelling => exact (fields_of_started h (.inr hstatus)).2
  | cancelled | success | failed => simp [hstatus, Status.active] at hactive

/-! ## Attempts without a result -/

theorem Loaded.canonical (h : Loaded runId id files a) : normalizeValidationAttempt a = .ok a :=
  canonical_of_read h.contract

theorem Loaded.rules (h : Loaded runId id files a) : statusRules a = .ok () :=
  statusRules_of_normalize h.canonical

/-- An attempt that has not begun has no prepared dependencies. -/
theorem Loaded.unprepared (h : Loaded runId id files a) (hstarted : a.startedAt = none) :
    files.prepared = .missing := by
  obtain ⟨_, ⟨hmissing, -⟩ | ⟨p, -, hp⟩, -⟩ := h.evidence
  · exact hmissing
  · obtain ⟨t, ht, -⟩ := hp.begun
    simp [hstarted] at ht

theorem Loaded.unsettled (h : Loaded runId id files a) (hresult : a.result = none) :
    files.result = .missing := by
  obtain ⟨_, -, ⟨-, hmissing⟩ | ⟨hsome, -⟩, -⟩ := h.evidence
  · exact hmissing
  · exact absurd hresult hsome

/-- A normalized document about prepared dependencies identifies its image, and its instants
are in order. -/
theorem fields_of_prepared
    (h : keeping normalizePreparedRuntimeDependencies files.prepared = .ok p) :
    p.image.id ≠ none ∧ ¬ p.finishedAt < p.startedAt := by
  obtain ⟨value, -, hnormal⟩ := keeping_eq_ok.1 h
  simp only [normalizePreparedRuntimeDependencies, normalizePreparedImageIdentity, bind_eq_ok,
    pure_eq_ok, refuse_eq_ok] at hnormal
  obtain ⟨_, -, _, -, _, -, _, -, _, -, _, -, _, -, _, -, _, hordered, _, ⟨image, -, _, hid, rfl⟩,
    rfl⟩ := hnormal
  refine ⟨?_, hordered⟩
  intro hnone
  have hnone' : image.id = none := by simpa using hnone
  exact hid (by simp [hnone'])

/-- An attempt whose image has no identifier yet has no prepared dependencies. -/
theorem Loaded.unprepared_of_image (h : Loaded runId id files a)
    (himage : a.selectedProfile.image.id = none) : files.prepared = .missing := by
  obtain ⟨_, ⟨hmissing, -⟩ | ⟨p, -, hp⟩, -⟩ := h.evidence
  · exact hmissing
  · exact absurd (hp.image ▸ himage) (fields_of_prepared hp.contract).1

/-- The instant does not lie before the end of the preparation. -/
def AttemptFiles.PreparedBy (files : AttemptFiles) (now : Timestamp) : Prop :=
  ∀ p, keeping normalizePreparedRuntimeDependencies files.prepared = .ok p → ¬ now < p.finishedAt

/-- An attempt is written again without a result, and keeps what its evidence is about. -/
theorem Loaded.rewrite (h : Loaded runId id files a) (hcanonical : normalizeValidationAttempt b = .ok b)
    (hrun : b.buildRunId = a.buildRunId) (hid : b.id = a.id) (hinputs : b.inputs = a.inputs)
    (hprofile : b.selectedProfile = a.selectedProfile ∨ files.prepared = .missing)
    (hstarted : b.startedAt = a.startedAt ∨ files.prepared = .missing)
    (hold : a.result = none) (hnew : b.result = none)
    (hdone : ∀ t, b.finishedAt = some t → files.PreparedBy t) :
    Loaded runId id { files with attempt := .document b } b where
  contract := keeping_document hcanonical
  ofRun := hrun.trans h.ofRun
  ofAttempt := hid.trans h.ofAttempt
  automation := h.automation
  evidence := by
    obtain ⟨prepared, hprepared, hresult, -⟩ := h.evidence
    refine ⟨prepared, ?_, .inl ⟨hnew, h.unsettled hold⟩, ?_⟩
    · rcases hprepared with hmissing | ⟨p, rfl, hp⟩
      · exact .inl hmissing
      · have hnot : files.prepared ≠ .missing := by
          intro hmissing
          have hpresent := Stored.present_of_keeping hp.contract
          simp [hmissing, Stored.present] at hpresent
        refine .inr ⟨p, rfl, ?_⟩
        exact
          { contract := hp.contract, profile := hp.profile.trans (by rw [hinputs])
            current := hp.current.trans (by rw [hinputs])
            previous := hp.previous.trans (by rw [hinputs])
            image := hp.image.trans (by rw [hprofile.resolve_right hnot])
            begun := by rw [hstarted.resolve_right hnot]; exact hp.begun
            done := fun t ht => hdone t ht p hp.contract }
    · intro hsuccess
      exact absurd hnew (result_of_success (statusRules_of_normalize hcanonical) hsuccess)

/-! ## The writers without a result -/

/-- What a later version of an attempt keeps: what it is about; its image and its start once
they are known; and all of it once it is over. -/
structure Evolves (a b : Attempt) : Prop where
  inputs : b.inputs = a.inputs
  profile : a.selectedProfile.image.id ≠ none → b.selectedProfile = a.selectedProfile
  startedAt : a.startedAt ≠ none → b.startedAt = a.startedAt
  finished : a.finishedAt ≠ none → b = a

theorem Evolves.refl (a : Attempt) : Evolves a a :=
  ⟨rfl, fun _ => rfl, fun _ => rfl, fun _ => rfl⟩

theorem Evolves.trans {c : Attempt} (hab : Evolves a b) (hbc : Evolves b c) : Evolves a c where
  inputs := hbc.inputs.trans hab.inputs
  profile h := (hbc.profile (hab.profile h ▸ h)).trans (hab.profile h)
  startedAt h := (hbc.startedAt (hab.startedAt h ▸ h)).trans (hab.startedAt h)
  finished h := (hbc.finished (hab.finished h ▸ h)).trans (hab.finished h)

/-- A version of an attempt that is not over. -/
theorem Evolves.of_unfinished (hfinished : a.finishedAt = none) (hinputs : b.inputs = a.inputs)
    (hprofile : a.selectedProfile.image.id ≠ none → b.selectedProfile = a.selectedProfile)
    (hstarted : a.startedAt ≠ none → b.startedAt = a.startedAt) : Evolves a b :=
  ⟨hinputs, hprofile, hstarted, fun h => absurd hfinished h⟩

/-- A version of a readable attempt that is written next to the same evidence: it is
readable, and about the same image. -/
structure Rewritten (runId id : String) (files : AttemptFiles) (a b : Attempt) : Prop where
  loaded : Loaded runId id { files with attempt := .document b } b
  profile : b.selectedProfile = a.selectedProfile
  evolves : Evolves a b

/-- Two versions of an attempt whose work has begun and is not over. -/
structure SameWork (a b : Attempt) : Prop where
  inputs : b.inputs = a.inputs
  profile : b.selectedProfile = a.selectedProfile
  startedAt : b.startedAt = a.startedAt
  finishedAt : b.finishedAt = none
  result : b.result = none

theorem Loaded.terminal {status : Status} {code message : String} (h : Loaded runId id files a)
    (hactive : a.status.active = true) (hnow : files.PreparedBy now)
    (hended : terminalAttempt a status code message now = .ok b) : Rewritten runId id files a b := by
  have hcanonical := normalizeValidationAttempt_canonical hended
  obtain rfl := normalizeValidationAttempt_of_inputs h.canonical hended rfl
  obtain ⟨hfinished, hresult⟩ := fields_of_active h.rules hactive
  refine ⟨h.rewrite hcanonical rfl rfl rfl (.inl rfl) (.inl rfl) hresult rfl ?_, rfl,
    .of_unfinished hfinished rfl (fun _ => rfl) fun _ => rfl⟩
  intro t ht
  obtain rfl := Option.some.inj ht
  exact hnow

theorem Loaded.terminalFailed {code message : String} (h : Loaded runId id files a)
    (hactive : a.status.active = true) (hnow : files.PreparedBy now)
    (hended : Validation.terminalFailed a code message now = .ok b) :
    Rewritten runId id files a b := by
  have hcanonical := normalizeValidationAttempt_canonical hended
  obtain rfl := normalizeValidationAttempt_of_inputs h.canonical hended rfl
  obtain ⟨hfinished, hresult⟩ := fields_of_active h.rules hactive
  refine ⟨h.rewrite hcanonical rfl rfl rfl (.inl rfl) ?_ hresult rfl ?_, rfl,
    .of_unfinished hfinished rfl (fun _ => rfl) ?_⟩
  · cases hstarted : a.startedAt with
    | none => exact .inr (h.unprepared hstarted)
    | some t => exact .inl rfl
  · intro t ht
    obtain rfl := Option.some.inj ht
    exact hnow
  · intro hstarted
    obtain ⟨t, ht⟩ := Option.ne_none_iff_exists'.1 hstarted
    simp [ht]

/-- A status that is written alone. -/
theorem Loaded.restatus {status : Status} (h : Loaded runId id files a)
    (hactive : a.status.active = true)
    (hwritten : normalizeValidationAttempt { a with status } = .ok b) :
    Rewritten runId id files a b ∧ SameWork a b := by
  have hcanonical := normalizeValidationAttempt_canonical hwritten
  obtain rfl := normalizeValidationAttempt_of_inputs h.canonical hwritten rfl
  obtain ⟨hfinished, hresult⟩ := fields_of_active h.rules hactive
  refine ⟨⟨h.rewrite hcanonical rfl rfl rfl (.inl rfl) (.inl rfl) hresult hresult ?_, rfl,
    .of_unfinished hfinished rfl (fun _ => rfl) fun _ => rfl⟩, rfl, rfl, rfl, hfinished, hresult⟩
  intro t ht
  exact absurd (hfinished.symm.trans ht) nofun

theorem claimAttempt_rewritten (h : Loaded runId id files a)
    (hclaim : claimAttempt runId id files now = .ok b) :
    Rewritten runId id files a b ∧ SameWork b b ∧ b.startedAt ≠ none := by
  simp only [claimAttempt, bind_eq_ok, refuse_eq_ok, contract_eq_ok] at hclaim
  obtain ⟨latest, hread, _, hqueued, hwritten⟩ := hclaim
  obtain rfl := Except.ok.inj (h.contract.symm.trans hread)
  have hstatus : a.status = .queued := by
    by_contra hne
    exact hqueued (by simp [hne])
  obtain ⟨hstarted, hfinished, hresult⟩ := fields_of_queued h.rules hstatus
  have hcanonical := normalizeValidationAttempt_canonical hwritten
  obtain rfl := normalizeValidationAttempt_of_inputs h.canonical hwritten rfl
  refine ⟨⟨h.rewrite hcanonical rfl rfl rfl (.inl rfl) (.inr (h.unprepared hstarted)) hresult hresult
    ?_, rfl, .of_unfinished hfinished rfl (fun _ => rfl) fun hne => absurd hstarted hne⟩,
    ⟨rfl, rfl, rfl, hfinished, hresult⟩, (by rintro ⟨⟩)⟩
  intro t ht
  cases hfinished.symm.trans ht

theorem resolveImage_loaded {image resolved : ImageIdentity} (h : Loaded runId id files a)
    (hnone : image.id = none) (hresolve : resolveImage files image resolved = .ok b) :
    Loaded runId id { files with attempt := .document b } b ∧ b.selectedProfile.image = resolved ∧
      b.startedAt = a.startedAt ∧ SameWork b b ∧ Evolves a b := by
  simp only [resolveImage, bind_eq_ok, refuse_eq_ok, contract_eq_ok, not_or, not_not] at hresolve
  obtain ⟨latest, hread, _, -, _, ⟨hstatus, himage⟩, hwritten⟩ := hresolve
  obtain rfl := Except.ok.inj (h.contract.symm.trans hread)
  obtain ⟨-, hfinished, hresult⟩ := fields_of_started h.rules (.inl hstatus)
  have hcanonical := normalizeValidationAttempt_canonical hwritten
  obtain rfl := normalizeValidationAttempt_of_inputs h.canonical hwritten rfl
  have hmissing : files.prepared = .missing := h.unprepared_of_image (by rw [himage, hnone])
  refine ⟨h.rewrite hcanonical rfl rfl rfl (.inr hmissing) (.inl rfl) hresult hresult ?_, rfl, rfl,
    ⟨rfl, rfl, rfl, hfinished, hresult⟩, .of_unfinished hfinished rfl ?_ fun _ => rfl⟩
  · intro t ht
    cases hfinished.symm.trans ht
  · intro hne
    exact absurd (by rw [himage, hnone]) hne

theorem failPreparation_rewritten {interruption : Interruption} {cleanupUnresolved : Bool}
    (h : Loaded runId id files a) (hnow : files.PreparedBy now)
    (hfail : failPreparation files interruption cleanupUnresolved now = .ok (some b)) :
    Rewritten runId id files a b := by
  simp only [failPreparation, bind_eq_ok] at hfail
  obtain ⟨latest, hread, hfail⟩ := hfail
  obtain rfl := Except.ok.inj (h.contract.symm.trans hread)
  split at hfail
  next hactive =>
    split at hfail
    · obtain ⟨_, hcancelling, heq⟩ := map_eq_ok.1 hfail
      obtain rfl := Option.some.inj heq
      exact (h.restatus hactive (contract_eq_ok.1 hcancelling)).1
    · split at hfail
      · obtain ⟨_, hended, heq⟩ := map_eq_ok.1 hfail
        obtain rfl := Option.some.inj heq
        exact h.terminal hactive hnow (contract_eq_ok.1 hended)
      · obtain ⟨_, hended, heq⟩ := map_eq_ok.1 hfail
        obtain rfl := Option.some.inj heq
        exact h.terminal hactive hnow (contract_eq_ok.1 hended)
  · simp [pure_eq_ok] at hfail

/-- A cancellation of an attempt that has begun leaves its work to its worker. -/
theorem cancelDurable_rewritten {code message : String} (h : Loaded runId id files a)
    (hcancel : cancelDurable runId id files code message now = .ok (some b)) :
    Rewritten runId id files a b ∧ (a.startedAt ≠ none → SameWork a b) := by
  simp only [cancelDurable, bind_eq_ok] at hcancel
  obtain ⟨latest, hloaded, hcancel⟩ := hcancel
  obtain rfl := Except.ok.inj (h.contract.symm.trans (read_of_loaded hloaded))
  split at hcancel
  next hactive =>
    simp only [bind_eq_ok, map_eq_ok, contract_eq_ok] at hcancel
    obtain ⟨cancelled, hcancelled, c, hc, heq⟩ := hcancel
    obtain rfl := Option.some.inj heq
    split at hcancelled
    next hqueued =>
      have hstarted := (fields_of_queued h.rules hqueued).1
      have hnow : files.PreparedBy now := by
        intro p hp
        have hpresent := Stored.present_of_keeping hp
        simp [h.unprepared hstarted, Stored.present] at hpresent
      have hcanonical := normalizeValidationAttempt_canonical hcancelled
      obtain rfl := Except.ok.inj (hcanonical.symm.trans hc)
      exact ⟨h.terminal hactive hnow hcancelled, fun hne => absurd hstarted hne⟩
    · have hcanonical := normalizeValidationAttempt_canonical hcancelled
      obtain rfl := Except.ok.inj (hcanonical.symm.trans hc)
      obtain ⟨hrewritten, hwork⟩ := h.restatus hactive hcancelled
      exact ⟨hrewritten, fun _ => hwork⟩
  · simp [pure_eq_ok] at hcancel

theorem failIfActive_rewritten {code : String} (h : Loaded runId id files a)
    (hnow : files.PreparedBy now)
    (hfail : failIfActive runId id files code now = .ok (some b)) : Rewritten runId id files a b := by
  simp only [failIfActive, bind_eq_ok] at hfail
  obtain ⟨latest, hloaded, hfail⟩ := hfail
  obtain rfl := Except.ok.inj (h.contract.symm.trans (read_of_loaded hloaded))
  split at hfail
  next hactive =>
    simp only [bind_eq_ok, map_eq_ok, contract_eq_ok] at hfail
    obtain ⟨failed, hfailed, c, hc, heq⟩ := hfail
    obtain rfl := Option.some.inj heq
    have hcanonical := normalizeValidationAttempt_canonical hfailed
    obtain rfl := Except.ok.inj (hcanonical.symm.trans hc)
    apply h.terminalFailed _ hnow hfailed
    rcases hactive with hst | hst <;> simp [hst, Status.active]
  · simp [pure_eq_ok] at hfail

theorem recoveredAttempt_rewritten {prepared : Option Prepared} (h : Loaded runId id files a)
    (hactive : a.status.active = true) (hnow : files.PreparedBy now)
    (hrecovered : recoveredAttempt a prepared now = .ok b) : Rewritten runId id files a b := by
  unfold recoveredAttempt at hrecovered
  split at hrecovered
  · exact h.terminal hactive hnow hrecovered
  · split at hrecovered
    · exact h.terminal hactive hnow hrecovered
    · exact h.terminal hactive hnow hrecovered

theorem recoverAttempt_rewritten {absent : Bool} (h : Loaded runId id files a)
    (hnow : files.PreparedBy now)
    (hrecover : recoverAttempt runId id files absent now = .ok (some b)) :
    Rewritten runId id files a b := by
  simp only [recoverAttempt, bind_eq_ok] at hrecover
  obtain ⟨latest, hloaded, hrecover⟩ := hrecover
  obtain rfl := Except.ok.inj (h.contract.symm.trans (read_of_loaded hloaded))
  split at hrecover
  next hstarted =>
    simp only [bind_eq_ok, map_eq_ok, contract_eq_ok] at hrecover
    obtain ⟨_, -, prepared, -, _, -, _, -, c, hc, heq⟩ := hrecover
    obtain rfl := Option.some.inj heq
    apply recoveredAttempt_rewritten h _ hnow hc
    rcases hstarted with hst | hst <;> simp [hst, Status.active]
  · simp [pure_eq_ok] at hrecover

/-! ## Evidence -/

theorem nullable_artifact_path {value identity : Option ArtifactIdentity} {path : String}
    (h : nullable (normalizeArtifactIdentity · path) value = .ok identity) (path' : String) :
    nullable (normalizeArtifactIdentity · path') identity = .ok identity := by
  cases value with
  | none =>
      obtain rfl := Except.ok.inj h
      rfl
  | some value =>
      obtain ⟨w, hw, rfl⟩ := map_eq_ok.1 h
      exact map_eq_ok.2 ⟨w, normalizeArtifactIdentity_canonical hw _, rfl⟩

/-- The artifacts of a canonical attempt are canonical, at any place of a document. -/
theorem inputs_canonical (h : normalizeValidationAttempt a = .ok a) (path : String) :
    normalizeArtifactIdentity a.inputs.artifact path = .ok a.inputs.artifact ∧
      nullable (normalizeArtifactIdentity · path) a.inputs.previousArtifact =
        .ok a.inputs.previousArtifact := by
  simp only [normalizeValidationAttempt, bind_eq_ok, pure_eq_ok] at h
  obtain ⟨_, -, _, -, _, -, profile, -, artifact, hartifact, previous, hprevious, _, -, _, -,
    _, -, _, -, _, -, _, -, _, -, heq⟩ := h
  have hinputs : a.inputs = ⟨profile, artifact, previous⟩ := by rw [← heq]
  rw [hinputs]
  exact ⟨normalizeArtifactIdentity_canonical hartifact path, nullable_artifact_path hprevious path⟩

theorem profile_canonical (h : normalizeValidationAttempt a = .ok a) :
    a.selectedProfile.name = a.inputs.profile := by
  simp only [normalizeValidationAttempt, bind_eq_ok, pure_eq_ok, refuse_eq_ok, not_not] at h
  obtain ⟨_, -, _, -, _, -, profile, -, artifact, -, previous, -, _, -, name, -, _, hname, image, -,
    _, -, _, -, _, -, heq⟩ := h
  rw [← heq]
  exact hname

theorem prepareDependencies_eq {native : String} {started : Timestamp}
    (hcanonical : normalizeValidationAttempt a = .ok a) (hexact : a.selectedProfile.image.Exact)
    (h : prepareDependencies a native started now = .ok p) :
    p = { contractVersion := 1, profileName := a.inputs.profile, image := a.selectedProfile.image
          nativeArchitecture := native, current := a.inputs.artifact
          previous := a.inputs.previousArtifact, startedAt := started, finishedAt := now } := by
  simp only [prepareDependencies, normalizePreparedRuntimeDependencies, bind_eq_ok, pure_eq_ok] at h
  obtain ⟨_, -, _, hprofile, _, hnative, _, -, current, hcurrent, previous, hprevious, _, -, _, -, _, -,
    _, himage, rfl⟩ := h
  obtain rfl := Except.ok.inj ((inputs_canonical hcanonical _).1.symm.trans hcurrent)
  obtain rfl := Except.ok.inj ((inputs_canonical hcanonical _).2.symm.trans hprevious)
  rw [string_eq hprofile, string_eq hnative, normalizePreparedImageIdentity_eq hexact himage]

/-- The dependencies that were prepared for an attempt are evidence for each version of it
that shares its work. -/
theorem Loaded.prepare {native : String} {started : Timestamp} (h : Loaded runId id files b)
    (hcanonical : normalizeValidationAttempt a = .ok a) (hwork : SameWork a b)
    (hexact : a.selectedProfile.image.Exact)
    (hbegun : ∃ t, a.startedAt = some t ∧ ¬ started < t)
    (hprepare : prepareDependencies a native started now = .ok p) :
    Loaded runId id { files with prepared := .document p } b where
  contract := h.contract
  ofRun := h.ofRun
  ofAttempt := h.ofAttempt
  automation := h.automation
  evidence := by
    refine ⟨some p, .inr ⟨p, rfl, ?_⟩, .inl ⟨hwork.result, h.unsettled hwork.result⟩, nofun⟩
    have hnormal := normalizePreparedRuntimeDependencies_canonical hexact hprepare
    obtain rfl := prepareDependencies_eq hcanonical hexact hprepare
    exact
      { contract := keeping_document hnormal, profile := by rw [hwork.inputs]
        current := by rw [hwork.inputs], previous := by rw [hwork.inputs]
        image := by rw [hwork.profile], begun := hwork.startedAt ▸ hbegun
        done := fun t ht => absurd (hwork.finishedAt.symm.trans ht) nofun }

/-- A result that is about an attempt, and keeps its contract. -/
structure ResultOf (a : Attempt) (r : Result) : Prop where
  canonical : normalizeValidationResult r = .ok r
  ofAttempt : r.attemptId = a.id
  ofRun : r.buildRunId = a.buildRunId
  artifact : r.artifact = a.inputs.artifact
  profile : r.profile = a.selectedProfile
  ordered : ¬ r.finishedAt < r.startedAt

theorem ResultOf.normalize {value r : Result} (hcanonical : normalizeValidationAttempt a = .ok a)
    (hexact : a.selectedProfile.image.Exact) (h : normalizeValidationResult value = .ok r)
    (hattempt : value.attemptId = a.id) (hrun : value.buildRunId = a.buildRunId)
    (hartifact : value.artifact = a.inputs.artifact) (hprofile : value.profile = a.selectedProfile) :
    ResultOf a r ∧ r.startedAt = value.startedAt ∧ r.finishedAt = value.finishedAt := by
  have hexact' : value.profile.image.Exact := hprofile ▸ hexact
  have hnormal := normalizeValidationResult_canonical hexact' h
  simp only [normalizeValidationResult, bind_eq_ok, pure_eq_ok, refuse_eq_ok] at h
  obtain ⟨_, -, _, hid, _, hrunid, artifact, hartifact', _, hname, _, himage, _, -, _,
    hordered, _, -, _, -, _, -, _, -, _, -, rfl⟩ := h
  rw [hartifact] at hartifact'
  obtain rfl := Except.ok.inj ((inputs_canonical hcanonical _).1.symm.trans hartifact')
  refine ⟨⟨hnormal, ?_, ?_, rfl, ?_, hordered⟩, rfl, rfl⟩
  · exact (string_eq hid).trans hattempt
  · exact (string_eq hrunid).trans hrun
  · rw [← hprofile]
    simp only [string_eq hname, normalizePreparedImageIdentity_eq hexact' himage]

/-- The files of an attempt that ends with a result. -/
def AttemptFiles.settle (files : AttemptFiles) (result : Option Result) (attempt : Attempt) :
    AttemptFiles :=
  { files with
    attempt := .document attempt
    result := match result with
      | some result => .document result
      | none => files.result }

/-- Only an attempt whose work has begun is completed. -/
theorem completeLifecycleAttempt_started {validation : Lifecycle} {completion : Completion}
    (hcomplete : completeLifecycleAttempt runId id files validation now = .ok completion) :
    ∃ a, readAttempt files = .ok a ∧ a.startedAt ≠ none ∧ a.finishedAt = none ∧ a.result = none := by
  simp only [completeLifecycleAttempt, bind_eq_ok, refuse_eq_ok] at hcomplete
  obtain ⟨a, hread, _, howned, -⟩ := hcomplete
  refine ⟨a, hread, fields_of_started (rules_of_read hread) ?_⟩
  by_contra hnot
  rw [not_or] at hnot
  exact howned (by simp [hnot.1, hnot.2])

/-- What a lifecycle leaves of a readable attempt. -/
theorem completeLifecycleAttempt_loaded {validation : Lifecycle} {completion : Completion}
    (h : Loaded runId id files a) (hexact : a.selectedProfile.image.Exact)
    (hbegun : ∀ t, validation.startedAt = some t → files.PreparedBy t)
    (hcomplete : completeLifecycleAttempt runId id files validation now = .ok completion)
    (hattempt : completion.attempt = .ok b) :
    Loaded runId id (files.settle completion.result b) b ∧
      b.selectedProfile = a.selectedProfile ∧ Evolves a b := by
  obtain ⟨latest, hread, -, hfinished, hresult⟩ := completeLifecycleAttempt_started hcomplete
  obtain rfl := Except.ok.inj (h.contract.symm.trans hread)
  simp only [completeLifecycleAttempt, bind_eq_ok, refuse_eq_ok] at hcomplete
  obtain ⟨latest, hread, _, -, prepared, hkept, hcomplete⟩ := hcomplete
  obtain rfl := Except.ok.inj (h.contract.symm.trans hread)
  have hpresent := Stored.present_of_keeping hkept
  obtain ⟨prepared', ⟨hmissing, -⟩ | ⟨p, rfl, hp⟩, -⟩ := h.evidence
  · simp [hmissing, Stored.present] at hpresent
  obtain rfl := Except.ok.inj (hp.contract.symm.trans hkept)
  split at hcomplete
  · simp only [bind_eq_ok, contract_eq_ok, pure_eq_ok] at hcomplete
    obtain ⟨cancelling, hcancelling, rfl⟩ := hcomplete
    obtain rfl := Except.ok.inj hattempt
    have hcanonical := normalizeValidationAttempt_canonical hcancelling
    obtain rfl := normalizeValidationAttempt_of_inputs h.canonical hcancelling rfl
    refine ⟨h.rewrite hcanonical rfl rfl rfl (.inl rfl) (.inl rfl) hresult rfl ?_, rfl,
      .of_unfinished hfinished rfl (fun _ => rfl) fun _ => rfl⟩
    exact fun t ht => absurd ht (by intros; contradiction)
  · simp only [bind_eq_ok, contract_eq_ok, pure_eq_ok] at hcomplete
    obtain ⟨reported, hreported, result, hresult', rfl⟩ := hcomplete
    have hof : ResultOf a result ∧ result.startedAt = validation.startedAt.getD p.finishedAt := by
      obtain ⟨hof, hfirst, -⟩ :=
        ResultOf.normalize h.canonical hexact hreported rfl rfl rfl rfl
      unfold cancelledResult at hresult'
      split at hresult'
      · obtain ⟨hof', hfirst', -⟩ := ResultOf.normalize h.canonical hexact hresult'
          hof.ofAttempt hof.ofRun hof.artifact hof.profile
        exact ⟨hof', hfirst'.trans hfirst⟩
      · obtain rfl := Except.ok.inj hresult'
        exact ⟨hof, hfirst⟩
    obtain ⟨hof, hfirst⟩ := hof
    have hafter : ¬ result.startedAt < p.finishedAt := by
      rw [hfirst]
      cases hvalidation : validation.startedAt with
      | none => exact lt_irrefl p.finishedAt.instant
      | some t => exact hbegun t hvalidation p hp.contract
    have hcanonical := normalizeValidationAttempt_canonical hattempt
    obtain rfl := normalizeValidationAttempt_of_inputs h.canonical hattempt rfl
    refine ⟨?_, rfl, .of_unfinished hfinished rfl (fun _ => rfl) fun _ => rfl⟩
    obtain ⟨t, ht, hbegan⟩ := hp.begun
    have hordered := (fields_of_prepared hp.contract).2
    exact
      { contract := keeping_document hcanonical, ofRun := h.ofRun, ofAttempt := h.ofAttempt
        automation := h.automation
        evidence := ⟨some p, .inr ⟨p, rfl,
            { contract := hp.contract, profile := hp.profile, current := hp.current
              previous := hp.previous, image := hp.image, begun := hp.begun
              done := fun finished hdone => by
                obtain rfl := Option.some.inj hdone
                exact not_before_trans hof.ordered hafter }⟩,
          .inr ⟨(by rintro ⟨⟩), result,
            { contract := keeping_document hof.canonical, ofAttempt := hof.ofAttempt.trans h.ofAttempt
              ofRun := hof.ofRun.trans h.ofRun, referenced := rfl, artifact := hof.artifact
              profile := hof.profile
              begun := ⟨t, ht, not_before_trans hafter (not_before_trans hordered hbegan)⟩
              done := ⟨_, rfl, lt_irrefl result.finishedAt.instant⟩
              afterPrepared := fun q hq => by
                obtain rfl := Option.some.inj hq
                refine ⟨hof.artifact.trans hp.current.symm, ?_, hafter⟩
                rw [hof.profile, hp.profile, hp.image, ← profile_canonical h.canonical] }⟩, (by rintro _ ⟨⟩)⟩ }

end DebBuilder.Validation
