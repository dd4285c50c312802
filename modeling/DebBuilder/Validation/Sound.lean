import Mathlib
import DebBuilder.Validation.Rewrites
import DebBuilder.Validation.Statuses

/-!
# Attempts that stay readable

In the runs whose steps are calm, each attempt of a Run can be read whenever no admission
and no recording of a result is in between.  A step is calm if it does not stop or fail
where a directory is half made or half removed, or between the two writes that end an
attempt; if its clock does not go back; and if what it writes is not too large to be read.

## Main definitions

* `Calm` — the condition on a step.
* `Sound` — what holds in every state of the calm runs.

## Main results

* `sound_of_reach` — the invariant.
-/

namespace DebBuilder.Validation
open Lib

/-! ## Files -/

/-- The files of an attempt on a disk. -/
def filesIn (disk : Dict String AttemptFiles) (id : String) : AttemptFiles :=
  (disk.lookup id).getD noFiles

@[grind =] theorem State.files_eq (s : State) (id : String) : s.files id = filesIn s.disk id := rfl

@[grind =] theorem filesIn_insert {disk : Dict String AttemptFiles} {id i : String}
    {files : AttemptFiles} :
    filesIn (disk.insert id files) i = if i = id then files else filesIn disk i := by
  unfold filesIn
  by_cases h : i = id
  · subst h
    simp [AList.lookup_insert]
  · simp [AList.lookup_insert_ne h, h]

@[grind =] theorem filesIn_erase {disk : Dict String AttemptFiles} {id i : String} :
    filesIn (disk.erase id) i = if i = id then noFiles else filesIn disk i := by
  unfold filesIn
  by_cases h : i = id
  · subst h
    simp [AList.lookup_erase]
  · simp [AList.lookup_erase_ne h, h]

theorem statusIn_eq {disk : Dict String AttemptFiles} {id : String} :
    statusIn disk id = (filesIn disk id).status? := rfl

theorem mem_of_document {disk : Dict String AttemptFiles} {id : String} {a : Attempt}
    (h : (filesIn disk id).attempt = .document a) : id ∈ disk := by
  by_contra hnot
  rw [← AList.lookup_eq_none] at hnot
  simp [filesIn, hnot, noFiles] at h

/-- A result is on the disk that its attempt does not tell of. -/
def AttemptFiles.recording (files : AttemptFiles) : Bool :=
  match files.attempt with
  | .document a => a.result.isNone && files.result.present
  | .missing | .refused | .unreadable | .malformed _ => false

/-- The files without a result that is being recorded. -/
def AttemptFiles.core (files : AttemptFiles) : AttemptFiles :=
  if files.recording then { files with result := .missing } else files

theorem AttemptFiles.core_of_not_recording {files : AttemptFiles} (h : files.recording = false) :
    files.core = files := by
  simp [core, h]

theorem AttemptFiles.not_recording_of_missing {files : AttemptFiles}
    (hresult : files.result = .missing) : files.recording = false := by
  unfold recording
  split
  · simp [hresult, Stored.present]
  all_goals rfl

/-! ## The condition on a step -/

/-- The directory of an attempt is being made or removed. -/
@[grind =] def Opening (lease : Option Task) (id : String) : Prop :=
  ∃ stage, lease = some (.admitting id stage) ∧ stage ≠ .admitted

/-- The clock of an operation does not lie before what it follows. -/
def Forward (s : State) : Operation → Prop
  | .observe now =>
      ∀ id a started, s.lease = some (.preparing id a started) →
        ∀ t, a.startedAt = some t → ¬ now < t
  | .failPreparation id _ _ now | .failIfActive id _ now => (s.files id).PreparedBy now
  | .complete id validation _ =>
      ∀ t, validation.startedAt = some t → (s.files id).PreparedBy t
  | _ => True

/-- A written document is not too large for its reader. -/
def Fitting : Operation → Prop
  | .writePrepared _ _ fits | .writeResult _ fits => fits = true
  | _ => True

/-- An operation that ends does not leave a directory half made or half removed, nor a
result without its attempt. -/
def Closing (s : State) : Operation → Prop
  | .leave => ∀ id, ¬ Opening s.lease id
  | .removeDirectory => ∀ id, Opening s.lease id → s.sections id = none
  | .abandon id => (s.files id).recording = false
  | _ => True

/-- A step is calm. -/
def Calm (s : State) : Action → Prop
  | .stop => (∀ id, ¬ Opening s.lease id) ∧ ∀ id, (s.files id).recording = false
  | .recover id _ _ now => (s.files id).PreparedBy now
  | .serve => True
  | .operate operation => Forward s operation ∧ Fitting operation ∧ Closing s operation

/-! ## The invariant -/

/-- A stored attempt is readable, but for a result that is being recorded. -/
structure Kept (runId id : String) (files : AttemptFiles) (a : Attempt) : Prop where
  document : files.attempt = .document a
  loaded : Loaded runId id files.core a
  exact : a.selectedProfile.image.Exact

/-- What a section is about to write leaves a readable attempt. -/
structure Ready (runId id : String) (files : AttemptFiles) (sec : Section) (a : Attempt) : Prop where
  loaded : Loaded runId id (files.settle sec.result a) a
  exact : a.selectedProfile.image.Exact

/-- What a preparation works with is what is stored, or what its own section is about to
write. -/
structure Preparing (files : AttemptFiles) (open? : Option Section) (a : Attempt)
    (started : Option Timestamp) : Prop where
  canonical : normalizeValidationAttempt a = .ok a
  exact : a.selectedProfile.image.Exact
  begun : a.startedAt ≠ none
  observed : ∀ t, started = some t → ∃ first, a.startedAt = some first ∧ ¬ t < first
  work : SameWork a a
  stored : open? = some ⟨none, .ok a, true⟩ ∧ started = none ∨
    (∃ b, files.attempt = .document b ∧ SameWork a b) ∧
      ∀ sec c, open? = some sec → sec.attempt = .ok c →
        SameWork a c ∧ sec.leased = false ∧ sec.result = none

structure Sound (runId : String) (s : State) : Prop where
  kept : ∀ id, id ∈ s.disk → ¬ Opening s.lease id → ∃ a, Kept runId id (filesIn s.disk id) a
  pending : ∀ id sec a, s.sections id = some sec → sec.attempt = .ok a → ¬ Opening s.lease id →
    Ready runId id (filesIn s.disk id) sec a
  growing : ∀ id sec a b, s.sections id = some sec → sec.attempt = .ok b → ¬ Opening s.lease id →
    (filesIn s.disk id).attempt = .document a → Evolves a b
  present : ∀ id sec, s.sections id = some sec → ¬ Opening s.lease id → id ∈ s.disk
  recording : ∀ id, ¬ Opening s.lease id → (filesIn s.disk id).recording = true →
    ∃ sec, s.sections id = some sec ∧ sec.result = none
  settling : ∀ id sec r, s.sections id = some sec → sec.result = some r → ¬ Opening s.lease id →
    ∃ a, (filesIn s.disk id).attempt = .document a ∧ a.result = none
  preparing : ∀ id a started, s.lease = some (.preparing id a started) →
    Preparing (filesIn s.disk id) (s.sections id) a started
  opened : ∀ id stage, s.lease = some (.admitting id stage) → stage.early = true →
    (filesIn s.disk id).prepared = .missing ∧ (filesIn s.disk id).result = .missing ∧
      (stage = .automation → ∃ m, (filesIn s.disk id).automation = .document m ∧
        automationValid m = true)
  containers : ∀ id ∈ s.containers, id ∈ s.disk ∧ ∀ stage, s.lease ≠ some (.admitting id stage)

variable {runId : String} {s s' : State}

theorem Sound.empty : Sound runId .empty := by
  have hdisk : ∀ i, i ∉ State.empty.disk := fun i => AList.notMem_empty i
  have hfiles : ∀ i, filesIn State.empty.disk i = noFiles := fun _ => rfl
  have hnone : noFiles.recording = false := rfl
  have hsections : State.empty.sections = fun _ => none := rfl
  have hlease : State.empty.lease = none := rfl
  have hcontainers : State.empty.containers = [] := rfl
  constructor <;> grind -ring -linarith

/-- An attempt that nobody works on is readable. -/
theorem Sound.loaded {id : String} (h : Sound runId s) (hdisk : id ∈ s.disk)
    (hopen : ¬ Opening s.lease id) (hfree : s.sections id = none) :
    ∃ a, (filesIn s.disk id).attempt = .document a ∧ Loaded runId id (filesIn s.disk id) a ∧
      a.selectedProfile.image.Exact := by
  obtain ⟨a, ha⟩ := h.kept id hdisk hopen
  have hquiet : (filesIn s.disk id).recording = false := by
    by_contra hrecording
    obtain ⟨sec, hsec, -⟩ := h.recording id hopen (eq_true_of_ne_false hrecording)
    exact absurd (hfree.symm.trans hsec) nofun
  have hloaded := ha.loaded
  rw [AttemptFiles.core_of_not_recording hquiet] at hloaded
  exact ⟨a, ha.document, hloaded, ha.exact⟩

/-! ## The lease -/

/-- The lease goes to a task that makes and removes no directory. -/
theorem Sound.release {lease : Option Task} (h : Sound runId s)
    (hold : ∀ id, ¬ Opening s.lease id) (hnew : ∀ id stage, lease ≠ some (.admitting id stage))
    (hpreparing : ∀ id a started, lease = some (.preparing id a started) →
      Preparing (filesIn s.disk id) (s.sections id) a started) :
    Sound runId { s with lease } := by
  cases h
  constructor <;> grind -ring -linarith

theorem Sound.admitAttempt (h : Sound runId s) (hs : s.admitAttempt runId = some s') : Sound runId s' := by
  unfold State.admitAttempt at hs
  split at hs
  · exact nomatch hs
  next hlease =>
    split at hs
    · exact nomatch hs
    · split at hs
      all_goals
        obtain rfl := Option.some.inj hs
        apply h.release
        · grind -ring -linarith
        · exact fun _ _ => nofun
        · exact fun _ _ _ => nofun

theorem Sound.reuse (h : Sound runId s) (hs : s.reuse runId = some s') : Sound runId s' := by
  unfold State.reuse at hs
  split at hs
  next selected hlease =>
    have hold : ∀ id, ¬ Opening s.lease id := by grind -ring -linarith
    split at hs
    · exact nomatch hs
    · split at hs
      · obtain rfl := Option.some.inj hs
        exact h.release hold (fun _ _ => nofun) fun _ _ _ => nofun
      · split at hs
        all_goals
          obtain rfl := Option.some.inj hs
          exact h.release hold (fun _ _ => nofun) fun _ _ _ => nofun
  · exact nomatch hs

theorem Sound.leave (h : Sound runId s) (hclosing : ∀ id, ¬ Opening s.lease id)
    (hs : s.leave = some s') : Sound runId s' := by
  unfold State.leave at hs
  split at hs
  · split at hs
    · exact nomatch hs
    · obtain rfl := Option.some.inj hs
      exact h.release hclosing (fun _ _ => nofun) fun _ _ _ => nofun
  iterate 3
    · obtain rfl := Option.some.inj hs
      exact h.release hclosing (fun _ _ => nofun) fun _ _ _ => nofun
  all_goals exact nomatch hs

theorem Sound.observe {now : Timestamp} (h : Sound runId s)
    (hforward : ∀ id a started, s.lease = some (.preparing id a started) →
      ∀ t, a.startedAt = some t → ¬ now < t)
    (hs : s.observe now = some s') : Sound runId s' := by
  unfold State.observe at hs
  split at hs
  next id attempt hlease =>
    split at hs
    · exact nomatch hs
    next hclosed =>
      obtain rfl := Option.some.inj hs
      have hprep := h.preparing id attempt none hlease
      apply h.release
      · grind -ring -linarith
      · exact fun _ _ => nofun
      · intro other a started heq
        obtain ⟨rfl, rfl, rfl⟩ : id = other ∧ attempt = a ∧ some now = started := by
          simpa using heq
        refine { hprep with observed := ?_, stored := .inr ?_ }
        · intro t ht
          obtain rfl := Option.some.inj ht
          obtain ⟨first, hfirst⟩ := Option.ne_none_iff_exists'.1 hprep.begun
          exact ⟨first, hfirst, hforward id attempt none hlease first hfirst⟩
        · rcases hprep.stored with ⟨hown, -⟩ | hstored
          · simp [hown] at hclosed
          · exact hstored
  · exact nomatch hs

/-! ## Admissions -/

theorem Sound.makeDirectory {id : String} (horderly : Orderly s) (h : Sound runId s)
    (hs : s.makeDirectory id = some s') : Sound runId s' := by
  unfold State.makeDirectory at hs
  split at hs
  next hlease =>
    split at hs
    · exact nomatch hs
    next hfresh =>
      obtain rfl := Option.some.inj hs
      have hknown := horderly.known
      have hearly : Stage.directory ≠ .admitted := nofun
      have hprepared : noFiles.prepared = .missing := rfl
      have hresult : noFiles.result = .missing := rfl
      cases h
      constructor <;> grind -ring -linarith
  · exact nomatch hs

theorem Sound.writeAutomation {metadata : AutomationMetadata} (horderly : Orderly s)
    (h : Sound runId s) (hs : s.writeAutomation metadata = some s') : Sound runId s' := by
  unfold State.writeAutomation at hs
  split at hs
  next id hlease =>
    split at hs
    next hvalid =>
      obtain rfl := Option.some.inj hs
      have hearly := horderly.early id .directory hlease rfl
      have hopened := h.opened id .directory hlease rfl
      have hstage : Stage.automation ≠ .admitted ∧ Stage.directory ≠ .admitted := by simp
      cases h
      constructor <;> grind -ring -linarith
    · exact nomatch hs
  · exact nomatch hs

/-- The attempt of an admission is readable. -/
theorem newAttempt_kept {id : String} {inputs : Inputs} {image : ImageIdentity} {now : Timestamp}
    {a : Attempt} {files : AttemptFiles} {m : AutomationMetadata}
    (hattempt : newAttempt runId id inputs image now = .ok a) (himage : image.id = none)
    (hautomation : files.automation = .document m) (hvalid : automationValid m = true)
    (hprepared : files.prepared = .missing) (hresult : files.result = .missing) :
    Kept runId id { files with attempt := .document a } a := by
  have hcanonical := normalizeValidationAttempt_canonical hattempt
  have hquiet : AttemptFiles.recording { files with attempt := .document a } = false :=
    AttemptFiles.not_recording_of_missing hresult
  obtain ⟨artifact, previous, rfl⟩ := normalizeValidationAttempt_eq hattempt
  refine ⟨rfl, ?_, by simp [ImageIdentity.Exact, himage]⟩
  rw [AttemptFiles.core_of_not_recording hquiet]
  exact
    { contract := keeping_document hcanonical, ofRun := rfl, ofAttempt := rfl
      automation := ⟨m, hautomation, hvalid⟩
      evidence := ⟨none, .inl ⟨hprepared, rfl⟩, .inl ⟨rfl, hresult⟩, nofun⟩ }

theorem Sound.writeAttempt {inputs : Inputs} {image : ImageIdentity} {now : Timestamp}
    (horderly : Orderly s) (h : Sound runId s)
    (hs : s.writeAttempt runId inputs image now = some s') : Sound runId s' := by
  unfold State.writeAttempt at hs
  split at hs
  next id hlease =>
    split at hs
    · exact nomatch hs
    next attempt hattempt =>
      split at hs
      · exact nomatch hs
      next himage =>
        obtain rfl := Option.some.inj hs
        obtain ⟨-, -, hfree⟩ := horderly.early id .automation hlease rfl
        obtain ⟨hprepared, hresult, hautomation⟩ := h.opened id .automation hlease rfl
        obtain ⟨m, hm, hvalid⟩ := hautomation rfl
        have hnone : image.id = none := by
          by_contra hsome
          exact himage (.inl (Option.isSome_iff_ne_none.2 hsome))
        have hkept := newAttempt_kept hattempt hnone hm hvalid hprepared hresult
        have hquiet : AttemptFiles.recording
            { filesIn s.disk id with attempt := .document attempt } = false :=
          AttemptFiles.not_recording_of_missing hresult
        have hstage : Stage.early .admitted = false := rfl
        have hopen : ∀ i, i ≠ id → ¬ Opening s.lease i := by grind -ring -linarith
        cases h
        constructor <;> grind -ring -linarith
  · exact nomatch hs

theorem Sound.fail (h : Sound runId s) (hs : s.fail = some s') :
    Sound runId s' := by
  unfold State.fail at hs
  split at hs
  next id stage hlease =>
    obtain rfl := Option.some.inj hs
    have hstage : Stage.early .removing = false := rfl
    have hopen : ∀ i, i ≠ id → ¬ Opening s.lease i := by grind -ring -linarith
    have hremoving : Stage.removing ≠ .admitted := nofun
    cases h
    constructor <;> grind -ring -linarith
  · exact nomatch hs

theorem Sound.removeFile {name : FileName} (h : Sound runId s) (hs : s.removeFile name = some s') :
    Sound runId s' := by
  unfold State.removeFile at hs
  split at hs
  next id hlease =>
    obtain rfl := Option.some.inj hs
    have hopen : Opening s.lease id := ⟨.removing, hlease, nofun⟩
    have hstage : Stage.early .removing = false := rfl
    cases h
    constructor <;> grind -ring -linarith
  · exact nomatch hs

theorem Sound.removeDirectory (h : Sound runId s)
    (hclosing : ∀ id, Opening s.lease id → s.sections id = none)
    (hs : s.removeDirectory = some s') : Sound runId s' := by
  unfold State.removeDirectory at hs
  split at hs
  next id hlease =>
    split at hs
    · obtain rfl := Option.some.inj hs
      have hopen : ∀ i, i ≠ id → ¬ Opening s.lease i := by grind -ring -linarith
      have hfree := hclosing id ⟨.removing, hlease, nofun⟩
      have hquiet : noFiles.recording = false := rfl
      cases h
      constructor <;> grind -ring -linarith
    · exact nomatch hs
  · exact nomatch hs

/-! ## Automation metadata and containers -/

theorem Loaded.upgrade {id : String} {files : AttemptFiles} {a : Attempt} {m : AutomationMetadata}
    (h : Loaded runId id files a) (hvalid : automationValid m = true) :
    Loaded runId id { files with automation := .document m } a where
  contract := h.contract
  ofRun := h.ofRun
  ofAttempt := h.ofAttempt
  automation := ⟨m, rfl, hvalid⟩
  evidence := by
    obtain ⟨prepared, hprepared, hresult, hsuccess⟩ := h.evidence
    refine ⟨prepared, ?_, ?_, hsuccess⟩
    · rcases hprepared with hmissing | ⟨p, rfl, hp⟩
      · exact .inl hmissing
      · exact .inr ⟨p, rfl, { hp with contract := hp.contract }⟩
    · rcases hresult with hmissing | ⟨hsome, r, hr⟩
      · exact .inl hmissing
      · exact .inr ⟨hsome, r, { hr with contract := hr.contract }⟩

theorem AttemptFiles.core_automation (files : AttemptFiles) (automation : Stored AutomationMetadata) :
    AttemptFiles.core { files with automation } = { files.core with automation } := by
  unfold core
  have hrecording : AttemptFiles.recording { files with automation } = files.recording := rfl
  rw [hrecording]
  split <;> rfl

theorem Kept.upgrade {id : String} {files : AttemptFiles} {a : Attempt} {m : AutomationMetadata}
    (h : Kept runId id files a) (hvalid : automationValid m = true) :
    Kept runId id { files with automation := .document m } a where
  document := h.document
  loaded := by
    rw [AttemptFiles.core_automation]
    exact h.loaded.upgrade hvalid
  exact := h.exact

theorem Ready.upgrade {id : String} {files : AttemptFiles} {sec : Section} {a : Attempt}
    {m : AutomationMetadata} (h : Ready runId id files sec a) (hvalid : automationValid m = true) :
    Ready runId id { files with automation := .document m } sec a where
  loaded := h.loaded.upgrade hvalid
  exact := h.exact

theorem Sound.upgrade {id : String} {metadata : AutomationMetadata} (h : Sound runId s)
    (hs : s.upgrade id metadata = some s') : Sound runId s' := by
  unfold State.upgrade at hs
  split at hs
  next current hcurrent =>
    split at hs
    next hvalid =>
      obtain rfl := Option.some.inj hs
      have hmem : id ∈ s.disk := by
        by_contra hnot
        rw [← AList.lookup_eq_none] at hnot
        simp [State.files, hnot, noFiles] at hcurrent
      have hquiet : AttemptFiles.recording { filesIn s.disk id with automation := .document metadata }
          = (filesIn s.disk id).recording := rfl
      have hkept := fun a (ha : Kept runId id (filesIn s.disk id) a) => ha.upgrade hvalid
      have hready := fun sec a (ha : Ready runId id (filesIn s.disk id) sec a) => ha.upgrade hvalid
      have hpreparing := fun a started (ha : Preparing (filesIn s.disk id) (s.sections id) a started) =>
        show Preparing { filesIn s.disk id with automation := .document metadata } (s.sections id) a
          started from { ha with stored := ha.stored }
      cases h
      constructor <;> grind -ring -linarith
    · cases hs
  · cases hs

theorem Sound.createContainer {id : String} (horderly : Orderly s) (h : Sound runId s)
    (hs : s.createContainer id = some s') : Sound runId s' := by
  unfold State.createContainer at hs
  split at hs
  next attempt hread =>
    split at hs
    next hstarted =>
      obtain rfl := Option.some.inj hs
      have hstatus := status?_of_read hread
      rw [State.status?_files] at hstatus
      have hactive : attempt.status.active = true ∧ attempt.status ≠ .queued := by
        rcases hstarted with hst | hst <;> simp [hst, Status.active]
      have hadmitting : ∀ stage, s.lease ≠ some (.admitting id stage) := by
        intro stage hlease
        cases hearly : stage.early with
        | true => exact (horderly.early id stage hlease hearly).1 id ⟨_, hstatus, hactive.1⟩
        | false =>
            have hqueued := (horderly.late id stage hlease hearly id ⟨_, hstatus, hactive.1⟩).2
            exact hactive.2 (Option.some.inj (hstatus.symm.trans hqueued))
      have hmem := mem_of_statusIn hstatus
      cases h
      constructor <;> grind -ring -linarith
    · cases hs
  · cases hs

theorem Sound.removeContainer {id : String} (h : Sound runId s) :
    Sound runId { s with containers := s.containers.erase id } := by
  have hsubset : ∀ i ∈ s.containers.erase id, i ∈ s.containers := fun i hi => List.mem_of_mem_erase hi
  cases h
  constructor <;> grind -ring -linarith

/-! ## Preparations -/

/-- The files that a section without a result leaves. -/
theorem Ready.of_rewritten {id : String} {files : AttemptFiles} {sec : Section} {a b : Attempt}
    (h : Rewritten runId id files a b) (hexact : a.selectedProfile.image.Exact)
    (hresult : sec.result = none) : Ready runId id files sec b where
  loaded := by
    rw [hresult]
    exact h.loaded
  exact := h.profile ▸ hexact

theorem exact_of_exactImage {image : ImageIdentity} (h : State.exactImage image = true) : image.Exact := by
  obtain ⟨id, hid, htest⟩ := (Option.any_eq_true _ _).1 h
  simp only [Bool.and_eq_true, decide_eq_true_eq] at htest
  simp [ImageIdentity.Exact, hid, htest.2]

theorem Sound.claim {id : String} {now : Timestamp} (h : Sound runId s)
    (hs : s.claim runId id now = some s') : Sound runId s' := by
  unfold State.claim at hs
  split at hs
  · exact nomatch hs
  next hfree =>
    rw [not_or, Option.not_isSome_iff_eq_none, Option.not_isSome_iff_eq_none] at hfree
    split at hs
    · exact nomatch hs
    next attempt hclaim =>
      obtain rfl := Option.some.inj hs
      have hmem : id ∈ s.disk := mem_of_statusIn (claimAttempt_status hclaim).1
      obtain ⟨a, hdocument, hloaded, hexact⟩ := h.loaded hmem (by grind -ring -linarith) hfree.2
      obtain ⟨hrewritten, hwork, hbegun⟩ := claimAttempt_rewritten hloaded hclaim
      have hevolves := hrewritten.evolves
      have hready : Ready runId id (filesIn s.disk id) ⟨none, .ok attempt, true⟩ attempt :=
        .of_rewritten hrewritten hexact rfl
      have hpreparing : Preparing (filesIn s.disk id) (some ⟨none, .ok attempt, true⟩) attempt none :=
        { canonical := hrewritten.loaded.canonical, exact := hready.exact, begun := hbegun
          observed := nofun, work := hwork, stored := .inl ⟨rfl, rfl⟩ }
      cases h
      constructor <;> grind -ring -linarith

theorem Sound.resolve {image : ImageIdentity} (h : Sound runId s) (hs : s.resolve image = some s') :
    Sound runId s' := by
  unfold State.resolve at hs
  split at hs
  next id attempt hlease =>
    split at hs
    · exact nomatch hs
    next hfree =>
      simp only [not_or, Option.not_isSome_iff_eq_none, Bool.not_eq_false] at hfree
      split at hs
      · exact nomatch hs
      next latest hlatest =>
        obtain rfl := Option.some.inj hs
        have hmem : id ∈ s.disk := mem_of_statusIn (resolveImage_status hlatest).1
        obtain ⟨a, hdocument, hloaded, -⟩ := h.loaded hmem (by grind -ring -linarith) hfree.1
        have hprep := h.preparing id attempt none hlease
        obtain ⟨hnew, himage, hstarted, hwork, hevolves⟩ := resolveImage_loaded hloaded hfree.2.1 hlatest
        have hexact : latest.selectedProfile.image.Exact := himage ▸ exact_of_exactImage hfree.2.2
        have hbegun : latest.startedAt ≠ none := by
          rcases hprep.stored with ⟨hown, -⟩ | ⟨⟨b, hb, hsame⟩, -⟩
          · exact absurd (hfree.1.symm.trans hown) nofun
          · obtain rfl := Stored.document.inj (hb.symm.trans hdocument)
            rw [hstarted, hsame.startedAt]
            exact hprep.begun
        have hready : Ready runId id (filesIn s.disk id) ⟨none, .ok latest, true⟩ latest :=
          ⟨hnew, hexact⟩
        have hpreparing : Preparing (filesIn s.disk id) (some ⟨none, .ok latest, true⟩) latest none :=
          { canonical := hnew.canonical, exact := hexact, begun := hbegun
            observed := nofun, work := hwork, stored := .inl ⟨rfl, rfl⟩ }
        cases h
        constructor <;> grind -ring -linarith
  · exact nomatch hs

theorem AttemptFiles.core_prepared (files : AttemptFiles) (prepared : Stored Prepared) :
    AttemptFiles.core { files with prepared } = { files.core with prepared } := by
  unfold core
  have hrecording : AttemptFiles.recording { files with prepared } = files.recording := rfl
  rw [hrecording]
  split <;> rfl

theorem Sound.writePrepared {native : String} {now : Timestamp} (h : Sound runId s)
    (hs : s.writePrepared native now true = some s') : Sound runId s' := by
  unfold State.writePrepared at hs
  split at hs
  next id attempt started hlease =>
    split at hs
    · exact nomatch hs
    next prepared hprepared =>
      obtain rfl := Option.some.inj hs
      have hprep := h.preparing id attempt started hlease
      obtain ⟨⟨b, hb, hwork⟩, hsections⟩ := hprep.stored.resolve_left fun hown => nomatch hown.2
      have hquiet : AttemptFiles.recording
          { filesIn s.disk id with prepared := .document prepared } =
            (filesIn s.disk id).recording := rfl
      have hkept : ∀ a, Kept runId id (filesIn s.disk id) a →
          Kept runId id { filesIn s.disk id with prepared := .document prepared } a := by
        intro a ha
        obtain rfl := Stored.document.inj (hb.symm.trans ha.document)
        refine ⟨ha.document, ?_, ha.exact⟩
        rw [AttemptFiles.core_prepared]
        exact ha.loaded.prepare hprep.canonical hwork hprep.exact (hprep.observed started rfl) hprepared
      have hready : ∀ sec a, s.sections id = some sec → sec.attempt = .ok a →
          Ready runId id (filesIn s.disk id) sec a →
          Ready runId id { filesIn s.disk id with prepared := .document prepared } sec a := by
        intro sec a hsec ha hready
        have hsame := (hsections sec a hsec ha).1
        exact ⟨hready.loaded.prepare hprep.canonical hsame hprep.exact (hprep.observed started rfl)
          hprepared, hready.exact⟩
      have hpreparing : Preparing { filesIn s.disk id with prepared := .document prepared }
          (s.sections id) attempt (some started) :=
        { hprep with stored := .inr ⟨⟨b, hb, hwork⟩, hsections⟩ }
      have hmem := mem_of_document hb
      cases h
      constructor <;> grind -ring -linarith [written]
  · exact nomatch hs

/-! ## Sections -/

theorem SameWork.trans {a b c : Attempt} (hab : SameWork a b) (hbc : SameWork b c) : SameWork a c :=
  ⟨hbc.inputs.trans hab.inputs, hbc.profile.trans hab.profile, hbc.startedAt.trans hab.startedAt,
    hbc.finishedAt, hbc.result⟩

/-- A section without the lease is opened on an attempt that nobody rewrites. -/
theorem Sound.openSection {id : String} {read : Except Fault (Option Attempt)} (h : Sound runId s)
    (hends : ∀ b, read = .ok (some b) → Ends (s.files id) b)
    (hwrites : ∀ a b, Loaded runId id (s.files id) a → read = .ok (some b) →
      Rewritten runId id (s.files id) a b ∧
        (s.prepares id = true → a.startedAt ≠ none → SameWork a b))
    (hs : s.openSection id read = some s') : Sound runId s' := by
  unfold State.openSection at hs
  split at hs
  next b =>
    split at hs
    · exact nomatch hs
    next hfree =>
      rw [Option.not_isSome_iff_eq_none] at hfree
      obtain rfl := Option.some.inj hs
      obtain ⟨st, hst, -, -⟩ := (hends b rfl).statusIn
      have hmem := mem_of_statusIn hst
      by_cases hopen : Opening s.lease id
      · cases h
        constructor <;> grind -ring -linarith
      · obtain ⟨a, hdocument, hloaded, hexact⟩ := h.loaded hmem hopen hfree
        obtain ⟨hrewritten, hwork⟩ := hwrites a b hloaded rfl
        have hevolves := hrewritten.evolves
        have hready : Ready runId id (filesIn s.disk id) ⟨none, .ok b, false⟩ b :=
          .of_rewritten hrewritten hexact rfl
        have hpreparing : ∀ local' started, s.lease = some (.preparing id local' started) →
            Preparing (filesIn s.disk id) (some ⟨none, .ok b, false⟩) local' started := by
          intro local' started hlease
          have hprep := h.preparing id local' started hlease
          have hprepares : s.prepares id = true := by simp [State.prepares, hlease]
          rcases hprep.stored with ⟨hown, -⟩ | ⟨⟨c, hc, hsame⟩, -⟩
          · exact absurd (hfree.symm.trans hown) nofun
          · obtain rfl := Stored.document.inj (hc.symm.trans hdocument)
            have hbegun : c.startedAt ≠ none := hsame.startedAt ▸ hprep.begun
            refine { hprep with stored := .inr ⟨⟨c, hc, hsame⟩, ?_⟩ }
            intro sec d hsec hd
            obtain rfl := Option.some.inj hsec
            obtain rfl := Except.ok.inj hd
            exact ⟨hsame.trans (hwork hprepares hbegun), rfl, rfl⟩
        cases h
        constructor <;> grind -ring -linarith
  all_goals exact nomatch hs

/-- A section that holds the lease is opened on an attempt that nobody rewrites. -/
theorem Sound.settle {id : String} {completion : Completion} (h : Sound runId s)
    (hmem : id ∈ s.disk)
    (hresult : ∀ a r, Loaded runId id (s.files id) a → completion.result = some r → a.result = none)
    (hwrites : ∀ a b, Loaded runId id (s.files id) a → a.selectedProfile.image.Exact →
      completion.attempt = .ok b →
      Loaded runId id ((s.files id).settle completion.result b) b ∧
        b.selectedProfile = a.selectedProfile ∧ Evolves a b)
    (hs : s.settle id completion = some s') : Sound runId s' := by
  unfold State.settle at hs
  split at hs
  · exact nomatch hs
  next hfree =>
    rw [not_or, Option.not_isSome_iff_eq_none, Option.not_isSome_iff_eq_none] at hfree
    obtain rfl := Option.some.inj hs
    obtain ⟨a, hdocument, hloaded, hexact⟩ := h.loaded hmem (by grind -ring -linarith) hfree.2
    have hnone := fun r => hresult a r hloaded
    have hready : ∀ b, completion.attempt = .ok b →
        Ready runId id (filesIn s.disk id) ⟨completion.result, completion.attempt, true⟩ b := by
      intro b hb
      obtain ⟨hnew, hprofile, -⟩ := hwrites a b hloaded hexact hb
      exact ⟨hnew, hprofile ▸ hexact⟩
    have hevolves := fun b hb => (hwrites a b hloaded hexact hb).2.2
    have hquiet : (filesIn s.disk id).recording = false := by
      by_contra hrecording
      obtain ⟨sec, hsec, -⟩ := h.recording id (by grind -ring -linarith) (eq_true_of_ne_false hrecording)
      exact absurd (hfree.2.symm.trans hsec) nofun
    cases h
    constructor <;> grind -ring -linarith

/-- Files whose attempt has its result, if it has one, are not being recorded. -/
theorem not_recording_of_loaded {id : String} {files : AttemptFiles} {a : Attempt}
    (hdocument : files.attempt = .document a) (hloaded : Loaded runId id files a) :
    files.recording = false := by
  cases hresult : a.result with
  | none => exact AttemptFiles.not_recording_of_missing (hloaded.unsettled hresult)
  | some r => simp [AttemptFiles.recording, hdocument, hresult]

/-- What a section has written is readable. -/
theorem Ready.commit {id : String} {files : AttemptFiles} {x : Except ContractError Attempt}
    {leased : Bool} {a : Attempt} (h : Ready runId id files ⟨none, x, leased⟩ a) :
    Kept runId id { files with attempt := .document a } a ∧
      AttemptFiles.recording { files with attempt := .document a } = false := by
  have hloaded : Loaded runId id { files with attempt := .document a } a := h.loaded
  have hquiet := not_recording_of_loaded rfl hloaded
  refine ⟨⟨rfl, ?_, h.exact⟩, hquiet⟩
  rw [AttemptFiles.core_of_not_recording hquiet]
  exact hloaded

theorem Preparing.commit {files : AttemptFiles} {a b : Attempt} {started : Option Timestamp}
    {leased : Bool} (h : Preparing files (some ⟨none, .ok b, leased⟩) a started) :
    Preparing { files with attempt := .document b } none a started := by
  have hwork : SameWork a b := by
    rcases h.stored with ⟨hown, -⟩ | ⟨-, hothers⟩
    · rw [Option.some.injEq, Section.mk.injEq] at hown
      rw [Except.ok.inj hown.2.1]
      exact h.work
    · exact (hothers _ b rfl rfl).1
  exact
    { canonical := h.canonical, exact := h.exact, begun := h.begun, observed := h.observed
      work := h.work, stored := .inr ⟨⟨b, rfl, hwork⟩, fun _ _ hnone => nomatch hnone⟩ }

theorem Sound.commit {id : String} (h : Sound runId s) (hs : s.commit id = some s') :
    Sound runId s' := by
  unfold State.commit at hs
  split at hs
  next attempt leased hsection =>
    obtain rfl := Option.some.inj hs
    have hlease := s.leaseAfter_cases id leased
    have hpending := h.pending id _ attempt hsection rfl
    have hready : ¬ Opening s.lease id →
        Kept runId id { filesIn s.disk id with attempt := .document attempt } attempt ∧
          AttemptFiles.recording { filesIn s.disk id with attempt := .document attempt } = false :=
      fun hopen => (hpending hopen).commit
    have hpreparing : ∀ a started, s.lease = some (.preparing id a started) →
        Preparing { filesIn s.disk id with attempt := .document attempt } none a started := by
      intro a started hpreparing
      have hprep := h.preparing id a started hpreparing
      rw [hsection] at hprep
      exact hprep.commit
    cases h
    constructor <;> grind -ring -linarith
  · exact nomatch hs

/-- The result of a section is written before its attempt. -/
theorem Kept.record {id : String} {files : AttemptFiles} {a : Attempt} {r : Result}
    (h : Kept runId id files a) (hresult : a.result = none) :
    Kept runId id { files with result := .document r } a := by
  have hcore : ∀ result, AttemptFiles.core { files with result } = { files with result := .missing } := by
    intro result
    cases result with
    | missing => simp [AttemptFiles.core]
    | refused | unreadable | malformed | document =>
        simp [AttemptFiles.core, AttemptFiles.recording, h.document, hresult, Stored.present]
  refine ⟨h.document, ?_, h.exact⟩
  have hloaded := h.loaded
  rw [hcore (.document r), ← hcore files.result]
  exact hloaded

theorem Sound.writeResult {id : String} (horderly : Orderly s) (h : Sound runId s)
    (hs : s.writeResult id true = some s') : Sound runId s' := by
  unfold State.writeResult at hs
  split at hs
  next result attempt leased hsection =>
    obtain rfl := Option.some.inj hs
    have hkept : ¬ Opening s.lease id → ∀ a, Kept runId id (filesIn s.disk id) a →
        Kept runId id { filesIn s.disk id with result := .document result } a := by
      intro hopen a ha
      obtain ⟨b, hb, hnone⟩ := h.settling id _ result hsection rfl hopen
      obtain rfl := Stored.document.inj (hb.symm.trans ha.document)
      exact ha.record hnone
    have hready : ∀ a, attempt = .ok a → ¬ Opening s.lease id →
        Ready runId id { filesIn s.disk id with result := .document result }
          ⟨none, attempt, leased⟩ a := by
      intro a ha hopen
      have hpending := h.pending id _ a hsection ha hopen
      exact ⟨hpending.loaded, hpending.exact⟩
    have hpreparing : ∀ a started, s.lease = some (.preparing id a started) →
        Preparing { filesIn s.disk id with result := .document result }
          (some ⟨none, attempt, leased⟩) a started := by
      intro a started hlease
      have hprep := h.preparing id a started hlease
      rcases hprep.stored with ⟨hown, -⟩ | ⟨hstored, hothers⟩
      · rw [hsection] at hown
        exact nomatch hown
      · refine { hprep with stored := .inr ⟨hstored, ?_⟩ }
        intro sec b hsec hb
        obtain rfl := Option.some.inj hsec
        exact nomatch (hothers _ b hsection hb).2.2
    have hmem : ¬ Opening s.lease id → id ∈ s.disk := by
      intro hopen
      obtain ⟨b, hb, -⟩ := h.settling id _ result hsection rfl hopen
      exact mem_of_document hb
    have hsections : ((s.write id fun f => { f with result := written true result }).lock id
        ⟨none, attempt, leased⟩).sections id = some ⟨none, attempt, leased⟩ := by simp
    have hearly := fun stage hlease hstage => (horderly.early id stage hlease hstage).2.2
    cases h
    constructor <;> grind -ring -linarith [written]
  · exact nomatch hs

theorem Sound.abandon {id : String} (horderly : Orderly s) (h : Sound runId s)
    (hclosing : (s.files id).recording = false) (hs : s.abandon id = some s') :
    Sound runId s' := by
  unfold State.abandon at hs
  split at hs
  next result attempt leased hsection =>
    obtain rfl := Option.some.inj hs
    have hquiet : (filesIn s.disk id).recording = false := hclosing
    cases leased
    · have hpreparing : ∀ a started, s.lease = some (.preparing id a started) →
          Preparing (filesIn s.disk id) none a started := by
        intro a started hlease
        have hprep := h.preparing id a started hlease
        rcases hprep.stored with ⟨hown, -⟩ | ⟨hstored, -⟩
        · rw [hsection] at hown
          exact nomatch hown
        · exact { hprep with stored := .inr ⟨hstored, fun _ _ hnone => nomatch hnone⟩ }
      cases h
      constructor <;> grind -ring -linarith
    · obtain ⟨task, htask, hwrites⟩ := horderly.leased id _ hsection rfl
      have hopen : ∀ i, ¬ Opening s.lease i := by
        rintro i ⟨stage, hlease, -⟩
        obtain rfl := Option.some.inj (hlease.symm.trans htask)
        exact nomatch hwrites
      cases h
      constructor <;> grind -ring -linarith
  · exact nomatch hs

/-! ## Steps and runs -/

theorem Sound.stop {phase : Phase} (h : Sound runId s) (hopen : ∀ id, ¬ Opening s.lease id)
    (hquiet : ∀ id, (s.files id).recording = false) :
    Sound runId { s with lease := none, sections := fun _ => none, phase } := by
  have hquiet' : ∀ id, (filesIn s.disk id).recording = false := hquiet
  cases h
  constructor <;> grind -ring -linarith

theorem Sound.recover {id : String} {absent persisted : Bool} {now : Timestamp} (h : Sound runId s)
    (halone : s.lease = none ∧ ∀ id, s.sections id = none) (hnow : (s.files id).PreparedBy now) :
    Sound runId (s.recover runId id absent persisted now) := by
  unfold State.recover
  split
  next attempt hrecover =>
    split
    · obtain ⟨st, hst, -, -⟩ := (recoverAttempt_ends hrecover).statusIn
      have hmem := mem_of_statusIn hst
      have hopen : ∀ i, ¬ Opening s.lease i := by grind -ring -linarith
      obtain ⟨a, hdocument, hloaded, hexact⟩ := h.loaded hmem (hopen id) (halone.2 id)
      have hready : Ready runId id (filesIn s.disk id) ⟨none, .ok attempt, false⟩ attempt :=
        .of_rewritten (recoverAttempt_rewritten hloaded hnow hrecover) hexact rfl
      have hkept := hready.commit
      cases h
      constructor <;> grind -ring -linarith
    · exact h
  all_goals exact h

theorem Sound.phase {phase : Phase} (h : Sound runId s) : Sound runId { s with phase } := by
  cases h
  constructor <;> grind -ring -linarith

theorem Sound.operate {operation : Operation} (horderly : Orderly s) (h : Sound runId s)
    (hforward : Forward s operation) (hfitting : Fitting operation)
    (hclosing : Closing s operation) (hs : s.operate runId operation = some s') :
    Sound runId s' := by
  cases operation with
  | admitAttempt => exact h.admitAttempt hs
  | reuse => exact h.reuse hs
  | makeDirectory id => exact h.makeDirectory horderly hs
  | writeAutomation metadata => exact h.writeAutomation horderly hs
  | writeAttempt inputs image now => exact h.writeAttempt horderly hs
  | fail => exact h.fail hs
  | removeFile name => exact h.removeFile hs
  | removeDirectory => exact h.removeDirectory hclosing hs
  | leave => exact h.leave hclosing hs
  | claim id now => exact h.claim hs
  | resolve image => exact h.resolve hs
  | observe now => exact h.observe hforward hs
  | writePrepared native now fits =>
      obtain rfl : fits = true := hfitting
      exact h.writePrepared hs
  | failPreparation id interruption cleanup now =>
      simp only [State.operate] at hs
      split at hs
      · cases hs
      next hfree =>
        refine h.openSection (fun _ => failPreparation_ends) ?_ hs
        intro a b ha hb
        exact ⟨failPreparation_rewritten ha hforward hb, fun hprepares => absurd hprepares hfree⟩
  | complete id validation now =>
      simp only [State.operate, State.complete] at hs
      split at hs
      · cases hs
      next completion hcompletion =>
        obtain ⟨latest, hread, -, -, hnone⟩ := completeLifecycleAttempt_started hcompletion
        refine h.settle (mem_disk_of_read hread) ?_ ?_ hs
        · intro a r ha _
          obtain rfl := Except.ok.inj (ha.contract.symm.trans hread)
          exact hnone
        · intro a b ha hexact hb
          exact completeLifecycleAttempt_loaded ha hexact hforward hcompletion hb
  | failIfActive id code now =>
      simp only [State.operate, State.failIfActive] at hs
      split at hs
      next attempt hfail =>
        obtain ⟨latest, hloaded, -⟩ := bind_eq_ok.1 hfail
        refine h.settle (mem_disk_of_read (read_of_loaded hloaded)) ?_ ?_ hs
        · intro a r _ hr
          cases hr
        · intro a b ha hexact hb
          obtain rfl := Except.ok.inj hb
          have hrewritten := failIfActive_rewritten ha hforward hfail
          exact ⟨hrewritten.loaded, hrewritten.profile, hrewritten.evolves⟩
      all_goals cases hs
  | cancel id code message now =>
      refine h.openSection (fun _ => cancelDurable_ends) ?_ hs
      intro a b ha hb
      obtain ⟨hrewritten, hwork⟩ := cancelDurable_rewritten ha hb
      exact ⟨hrewritten, fun _ => hwork⟩
  | writeResult id fits =>
      obtain rfl : fits = true := hfitting
      exact h.writeResult horderly hs
  | commit id => exact h.commit hs
  | abandon id => exact h.abandon horderly hclosing hs
  | upgrade id metadata => exact h.upgrade hs
  | createContainer id => exact h.createContainer horderly hs
  | removeContainer id =>
      obtain rfl := Option.some.inj hs
      exact h.removeContainer

theorem Sound.step {action : Action} (horderly : Orderly s) (h : Sound runId s)
    (hcalm : Calm s action) (hs : s.step runId action = some s') : Sound runId s' := by
  cases action with
  | stop =>
      obtain rfl := Option.some.inj hs
      exact h.stop hcalm.1 hcalm.2
  | recover id absent persisted now =>
      simp only [State.step] at hs
      split at hs
      next left hphase =>
        split at hs
        · obtain rfl := Option.some.inj hs
          exact (h.recover (horderly.alone (by simp [hphase])) hcalm).phase
        · cases hs
      · cases hs
  | serve =>
      simp only [State.step] at hs
      split at hs
      · obtain rfl := Option.some.inj hs
        exact h.phase
      · cases hs
  | operate operation =>
      simp only [State.step] at hs
      split at hs
      · exact h.operate horderly hcalm.1 hcalm.2.1 hcalm.2.2 hs
      · cases hs

/-- In the calm runs every state is sound, and orderly as in all runs. -/
theorem sound_of_reach (h : (attemptLife runId).Reach Calm s) : Orderly s ∧ Sound runId s := by
  apply h.inv ⟨Orderly.empty, Sound.empty⟩
  intro s a s' ⟨horderly, hsound⟩ hcalm hstep
  exact ⟨horderly.step hstep, hsound.step horderly hcalm hstep⟩

end DebBuilder.Validation
