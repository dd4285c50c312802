import Mathlib
import DebBuilder.Validation.Attempts
import DebBuilder.Validation.Canonical
import DebBuilder.Publishing.Document

/-!
# Eligibility for publication

`publication_insertion_eligibility`: whether the durable evidence of the validation
allows the artifact of a Run to be inserted into the repository.

## Main results

* `publicationInsertionEligibility_iff` — what the verdict says of the documents.
-/

namespace DebBuilder.Validation
open Lib Publishing

/-! ## The verdict -/

/-- The reasons against an insertion. -/
inductive Reason
  | buildNotSuccessful | artifactUnavailable | validationStateUnverifiable
  | validationInProgress | currentValidationRequired
  deriving DecidableEq, Repr

def Reason.text : Reason → String
  | buildNotSuccessful => "build_not_successful"
  | artifactUnavailable => "artifact_unavailable"
  | validationStateUnverifiable => "validation_state_unverifiable"
  | validationInProgress => "validation_in_progress"
  | currentValidationRequired => "current_validation_required"

structure Eligibility where
  eligible : Bool
  reasons : List Reason
  validationId : String
  deriving DecidableEq, Repr

/-- `_publication_artifact_identity` -/
def publicationArtifactIdentity (run : BuildRun) : Option ArtifactIdentity :=
  match run.artifact with
  | some { size := .int size, sha256, inspection, .. } =>
      (normalizeArtifactIdentity
        { package := inspection.package, version := inspection.version
          architecture := inspection.architecture, size, sha256 } "$.artifact").toOption
  | _ => none

/-- The artifact of a Run cannot be read from it. -/
def artifactUnavailable (run : BuildRun) : Bool :=
  run.artifact.all fun artifact => artifact.path = "" || artifact.pruning.isSome

/-- The `except` clauses of the verdict, which let a `DependencyPreparationError` pass. -/
def attempting {α : Type} : Except Fault α → Except Fault (Option α)
  | .ok value => .ok (some value)
  | .error (.preparation code) => .error (.preparation code)
  | .error .fileNotFound | .error .os | .error (.value _) | .error (.admission _ _) => .ok none

/-- The files below the directory of an attempt. -/
def Inventory.files (inventory : Inventory) (attemptId : String) : AttemptFiles :=
  ((inventory.list.find? (·.name = attemptId)).bind Entry.files).getD
    ⟨.missing, .missing, .missing, .missing⟩

/-- The evidence of an attempt, read again for the verdict. -/
def currentEvidence (runId : String) (inventory : Inventory) (attempt : Attempt) :
    Except Fault Result := do
  let files := inventory.files attempt.id
  let prepared ← loadPrepared files attempt
  loadResult runId attempt.id files attempt (some prepared)

/-- The attempt is a success about this artifact. -/
def Attempt.succeededFor (identity : ArtifactIdentity) (attempt : Attempt) : Bool :=
  attempt.status = .success && attempt.inputs.artifact = identity

/-- The loop of the verdict: the attempts that count, and whether the evidence of one of
them could not be verified. -/
def successfulAttempts (runId : String) (inventory : Inventory) (identity : ArtifactIdentity) :
    List Attempt → Except Fault (List Attempt × Bool)
  | [] => .ok ([], false)
  | attempt :: rest =>
      if attempt.succeededFor identity then do
        let result ← attempting (currentEvidence runId inventory attempt)
        let (successful, unverifiable) ← successfulAttempts runId inventory identity rest
        if result.any (·.status = .success) then return (attempt :: successful, unverifiable)
        else return (successful, true)
      else successfulAttempts runId inventory identity rest

/-- The loop, which is skipped when the artifact has no identity. -/
def countedAttempts (runId : String) (inventory : Inventory) (attempts : List Attempt) :
    Option ArtifactIdentity → Except Fault (List Attempt × Bool)
  | none => .ok ([], false)
  | some identity => successfulAttempts runId inventory identity attempts

/-- The reasons of a verdict, in the order they are found: `listed` are the attempts,
unless they could not be listed, and `counted` is what the loop answered. -/
def reasonsAgainst (run : BuildRun) (recoveryBlocker : Option String)
    (listed : Option (List Attempt)) (counted : List Attempt × Bool) : List Reason :=
  let unverifiable := listed.isNone || recoveryBlocker.isSome
  (if run.status ≠ .success then [Reason.buildNotSuccessful] else []) ++
  (if artifactUnavailable run || (publicationArtifactIdentity run).isNone
    then [Reason.artifactUnavailable] else []) ++
  (if unverifiable then [Reason.validationStateUnverifiable] else []) ++
  (if (listed.getD []).any (·.status.active) then [Reason.validationInProgress] else []) ++
  (if counted.2 && !unverifiable then [Reason.validationStateUnverifiable] else []) ++
  (if counted.1.isEmpty && !counted.2 && !unverifiable then [Reason.currentValidationRequired] else [])

/-- `publication_insertion_eligibility` -/
def publicationInsertionEligibility (run : BuildRun) (inventory : Inventory)
    (recoveryBlocker : Option String) : Except Fault Eligibility := do
  let identity := publicationArtifactIdentity run
  let listed ← attempting (listAttempts run.id inventory)
  let counted ← countedAttempts run.id inventory (listed.getD []) identity
  let reasons := (reasonsAgainst run recoveryBlocker listed counted).eraseDups
  return {
    eligible := reasons.isEmpty, reasons
    validationId := if reasons.isEmpty then (counted.1.getLast?.map Attempt.id).getD "" else "" }

/-! ## The evidence of a successful attempt -/

theorem Loaded.statusRules_eq_ok {runId attemptId : String} {files : AttemptFiles} {attempt : Attempt}
    (h : Loaded runId attemptId files attempt) : statusRules attempt = .ok () := by
  obtain ⟨value, hvalue, hattempt⟩ := bind_eq_ok.1 h.contract
  cases hnormal : normalizeValidationAttempt value with
  | error e => simp [hnormal, throw_eq_ok] at hattempt
  | ok normalized =>
      simp only [hnormal, pure_eq_ok] at hattempt
      exact hattempt ▸ statusRules_of_normalize hnormal

/-- A successful attempt refers to a successful result. -/
theorem Loaded.successful_result {runId attemptId : String} {files : AttemptFiles}
    {attempt : Attempt} (h : Loaded runId attemptId files attempt)
    (hsuccess : attempt.status = .success) :
    ∃ reference, attempt.result = some ⟨.success, reference⟩ := by
  have hrules := h.statusRules_eq_ok
  simp only [statusRules, bind_eq_ok, refuse_eq_ok] at hrules
  obtain ⟨_, -, _, -, _, -, _, hresult, -⟩ := hrules
  cases hr : attempt.result with
  | none => simp [hsuccess, hr] at hresult
  | some r =>
      obtain ⟨status, reference⟩ := r
      have : status = .success := by
        simp [hsuccess, hr] at hresult
        exact hresult.2.2
      exact ⟨reference, by rw [this]⟩

/-- A successful attempt has a successful result, that its evidence proves. -/
theorem Loaded.evidence_of_success {runId attemptId : String} {files : AttemptFiles}
    {attempt : Attempt} (h : Loaded runId attemptId files attempt)
    (hsuccess : attempt.status = .success) :
    ∃ prepared result, PreparedFor files attempt prepared ∧
      ResultFor runId attemptId files attempt (some prepared) result ∧
      result.status = .success := by
  obtain ⟨prepared, hprepared, hresult, hneeded⟩ := h.evidence
  obtain ⟨reference, href⟩ := h.successful_result hsuccess
  rcases hprepared with ⟨-, hnone⟩ | ⟨p, rfl, hp⟩
  · exact absurd hnone (hneeded hsuccess)
  · rcases hresult with ⟨hnone, -⟩ | ⟨-, result, hr⟩
    · exact absurd hnone (by simp [href])
    · have hstatus := Option.some.inj (href.symm.trans hr.referenced)
      exact ⟨p, result, hp, hr, (congrArg ResultReference.status hstatus).symm⟩

/-! ## The loop -/

/-- The files of an attempt are those of its entry. -/
theorem Inventory.files_of_mem {inventory : Inventory} {entry : Entry} {files : AttemptFiles}
    (h : entry ∈ inventory.list) (hfiles : entry.files = some files) :
    inventory.files entry.name = files := by
  have hdistinct : (inventory.list.map Entry.name).Nodup := by
    cases inventory with
    | missing | irregular => exact List.nodup_nil
    | entries list distinct => exact distinct
  have hfind : inventory.list.find? (·.name = entry.name) = some entry := by
    have hsome : (inventory.list.find? (·.name = entry.name)).isSome = true :=
      List.find?_isSome.2 ⟨entry, h, by simp⟩
    obtain ⟨found, hfound⟩ := Option.isSome_iff_exists.1 hsome
    have hname : found.name = entry.name := by simpa using List.find?_some hfound
    rw [hfound, List.inj_on_of_nodup_map hdistinct (List.mem_of_find?_eq_some hfound) h hname]
  simp [Inventory.files, hfind, hfiles]

/-- The evidence of a listed success verifies when it is read again. -/
theorem currentEvidence_of_mem {runId : String} {inventory : Inventory} {attempts : List Attempt}
    {attempt : Attempt} (h : listAttempts runId inventory = .ok attempts)
    (hmem : attempt ∈ attempts) (hsuccess : attempt.status = .success) :
    ∃ result, currentEvidence runId inventory attempt = .ok result ∧ result.status = .success := by
  obtain ⟨entry, hentry, files, hfiles, hloaded⟩ := (mem_listAttempts h).1 hmem
  obtain ⟨prepared, result, hprepared, hresult, hstatus⟩ := hloaded.evidence_of_success hsuccess
  refine ⟨result, ?_, hstatus⟩
  rw [currentEvidence, hloaded.ofAttempt, Inventory.files_of_mem hentry hfiles]
  exact bind_eq_ok.2 ⟨prepared, loadPrepared_eq_ok.2 hprepared, loadResult_eq_ok.2 hresult⟩

/-- When the evidence of all of them verifies, the loop collects the successes. -/
theorem successfulAttempts_eq {runId : String} {inventory : Inventory}
    {identity : ArtifactIdentity} {attempts : List Attempt}
    (h : ∀ attempt ∈ attempts, attempt.status = .success →
      ∃ result, currentEvidence runId inventory attempt = .ok result ∧ result.status = .success) :
    successfulAttempts runId inventory identity attempts =
      .ok (attempts.filter (·.succeededFor identity), false) := by
  induction attempts with
  | nil => rfl
  | cons attempt rest ih =>
      have hrest := ih fun a ha => h a (List.mem_cons_of_mem _ ha)
      by_cases hfor : attempt.succeededFor identity = true
      · have hsuccess : attempt.status = .success := by
          simp only [Attempt.succeededFor, Bool.and_eq_true, decide_eq_true_eq] at hfor
          exact hfor.1
        obtain ⟨result, hresult, hstatus⟩ := h attempt List.mem_cons_self hsuccess
        simp [successfulAttempts, hfor, hresult, hrest, attempting, hstatus, bind, Except.bind,
          pure, Except.pure]
      · simp [successfulAttempts, hfor, hrest]

theorem attempting_eq_ok {α : Type} {read : Except Fault α} {value : α} :
    attempting read = .ok (some value) ↔ read = .ok value := by
  cases read with
  | ok v => simp [attempting]
  | error e => cases e <;> simp [attempting]

theorem attempting_eq_none {α : Type} {read : Except Fault α} (h : attempting read = .ok none) :
    ∀ value, read ≠ .ok value := by
  intro value hvalue
  simp [hvalue, attempting] at h

/-! ## Soundness and completeness -/

/-- A successful attempt of the inventory, whose prepared contract and result are valid
evidence, was made for this artifact. -/
def Validated (runId : String) (inventory : Inventory) (identity : ArtifactIdentity) : Prop :=
  ∃ entry ∈ inventory.list, ∃ files attempt prepared result, entry.files = some files ∧
    Loaded runId entry.name files attempt ∧ attempt.status = .success ∧
    attempt.inputs.artifact = identity ∧ PreparedFor files attempt prepared ∧
    ResultFor runId entry.name files attempt (some prepared) result ∧ result.status = .success

/-- What the documents of a Run must say before its artifact is inserted. -/
structure Publishable (run : BuildRun) (inventory : Inventory) (recoveryBlocker : Option String) :
    Prop where
  built : run.status = .success
  available : ∃ artifact, run.artifact = some artifact ∧ artifact.path ≠ "" ∧
    artifact.pruning = none
  unblocked : recoveryBlocker = none
  verifiable : Verifiable run.id inventory
  idle : ∀ entry ∈ inventory.list, ∀ files attempt, entry.files = some files →
    Loaded run.id entry.name files attempt → attempt.status.active = false
  validated : ∃ identity, publicationArtifactIdentity run = some identity ∧
    Validated run.id inventory identity

/-- The Run is eligible: the verdict is reached and says so. -/
def Eligible (run : BuildRun) (inventory : Inventory) (recoveryBlocker : Option String) : Prop :=
  ∃ verdict, publicationInsertionEligibility run inventory recoveryBlocker = .ok verdict ∧
    verdict.eligible = true

theorem validated_iff {runId : String} {inventory : Inventory} {identity : ArtifactIdentity}
    {attempts : List Attempt} (h : listAttempts runId inventory = .ok attempts) :
    Validated runId inventory identity ↔
      ∃ attempt ∈ attempts, attempt.succeededFor identity = true := by
  simp only [Attempt.succeededFor, Bool.and_eq_true, decide_eq_true_eq]
  constructor
  · rintro ⟨entry, hentry, files, attempt, _, _, hfiles, hloaded, hsuccess, hartifact, -⟩
    exact ⟨attempt, (mem_listAttempts h).2 ⟨entry, hentry, files, hfiles, hloaded⟩, hsuccess,
      hartifact⟩
  · rintro ⟨attempt, hmem, hsuccess, hartifact⟩
    obtain ⟨entry, hentry, files, hfiles, hloaded⟩ := (mem_listAttempts h).1 hmem
    obtain ⟨prepared, result, hprepared, hresult, hstatus⟩ := hloaded.evidence_of_success hsuccess
    exact ⟨entry, hentry, files, attempt, prepared, result, hfiles, hloaded, hsuccess, hartifact,
      hprepared, hresult, hstatus⟩

theorem eraseDups_isEmpty {α : Type} [BEq α] {l : List α} : l.eraseDups.isEmpty = l.isEmpty := by
  cases l with
  | nil => rfl
  | cons a l => simp [List.eraseDups_cons]

/-- The verdict on an inventory that can be listed. -/
theorem eligible_of_listed {run : BuildRun} {inventory : Inventory} {blocker : Option String}
    {attempts : List Attempt} (h : listAttempts run.id inventory = .ok attempts) :
    Eligible run inventory blocker ↔ run.status = .success ∧ artifactUnavailable run = false ∧
      blocker = none ∧ (∀ attempt ∈ attempts, attempt.status.active = false) ∧
      ∃ identity, publicationArtifactIdentity run = some identity ∧
        ∃ attempt ∈ attempts, attempt.succeededFor identity = true := by
  have hloop : ∀ identity, successfulAttempts run.id inventory identity attempts =
      .ok (attempts.filter (·.succeededFor identity), false) :=
    fun _ => successfulAttempts_eq fun _ ha hs => currentEvidence_of_mem h ha hs
  cases hidentity : publicationArtifactIdentity run with
  | none =>
      simp [Eligible, publicationInsertionEligibility, h, attempting, hidentity, countedAttempts,
        reasonsAgainst, bind, Except.bind, pure, Except.pure, eraseDups_isEmpty]
  | some identity =>
      simp [Eligible, publicationInsertionEligibility, h, attempting, hidentity, countedAttempts,
        reasonsAgainst, hloop, bind, Except.bind, pure, Except.pure, eraseDups_isEmpty]
      intro _ _ hblocker _
      constructor
      · intro hnone
        by_contra hex
        apply hnone _ hblocker
        intro attempt hmem
        by_contra hfor
        exact hex ⟨attempt, hmem, eq_true_of_ne_false hfor⟩
      · rintro ⟨attempt, hmem, hfor⟩ hnone
        simp [hnone attempt hmem] at hfor

/-- A Run whose inventory cannot be listed is not eligible. -/
theorem Eligible.listed {run : BuildRun} {inventory : Inventory} {blocker : Option String}
    (h : Eligible run inventory blocker) :
    ∃ attempts, listAttempts run.id inventory = .ok attempts := by
  obtain ⟨verdict, hverdict, heligible⟩ := h
  simp only [publicationInsertionEligibility, bind_eq_ok, pure_eq_ok] at hverdict
  obtain ⟨listed, hlisted, counted, -, rfl⟩ := hverdict
  cases listed with
  | some attempts => exact ⟨attempts, attempting_eq_ok.1 hlisted⟩
  | none => simp [eraseDups_isEmpty, reasonsAgainst] at heligible

theorem artifactUnavailable_eq_false {run : BuildRun} : artifactUnavailable run = false ↔
    ∃ artifact, run.artifact = some artifact ∧ artifact.path ≠ "" ∧ artifact.pruning = none := by
  cases h : run.artifact with
  | none => simp [artifactUnavailable, h]
  | some artifact => simp [artifactUnavailable, h]

theorem eligible_iff_publishable {run : BuildRun} {inventory : Inventory}
    {blocker : Option String} :
    Eligible run inventory blocker ↔ Publishable run inventory blocker := by
  constructor
  · intro h
    obtain ⟨attempts, hlisted⟩ := h.listed
    obtain ⟨hbuilt, havailable, hblocker, hidle, identity, hidentity, hfor⟩ :=
      (eligible_of_listed hlisted).1 h
    exact
      { built := hbuilt, available := artifactUnavailable_eq_false.1 havailable
        unblocked := hblocker, verifiable := exists_listAttempts.1 ⟨attempts, hlisted⟩
        idle := fun entry hentry files attempt hfiles hloaded =>
          hidle attempt ((mem_listAttempts hlisted).2 ⟨entry, hentry, files, hfiles, hloaded⟩)
        validated := ⟨identity, hidentity, (validated_iff hlisted).2 hfor⟩ }
  · intro h
    obtain ⟨attempts, hlisted⟩ := exists_listAttempts.2 h.verifiable
    obtain ⟨identity, hidentity, hvalidated⟩ := h.validated
    apply (eligible_of_listed hlisted).2
    refine ⟨h.built, artifactUnavailable_eq_false.2 h.available, h.unblocked, ?_, identity,
      hidentity, (validated_iff hlisted).1 hvalidated⟩
    intro attempt hmem
    obtain ⟨entry, hentry, files, hfiles, hloaded⟩ := (mem_listAttempts hlisted).1 hmem
    exact h.idle entry hentry files attempt hfiles hloaded

/-- The entry is a success about the artifact of the Run. -/
def Supports (run : BuildRun) (entry : Entry) : Prop :=
  ∃ files attempt, entry.files = some files ∧ Loaded run.id entry.name files attempt ∧
    attempt.status = .success ∧ publicationArtifactIdentity run = some attempt.inputs.artifact

/-- An entry that does not support the artifact can be taken away. -/
theorem Publishable.of_remove {run : BuildRun} {blocker : Option String}
    {before after : List Entry} {entry : Entry} {hwith hwithout}
    (h : Publishable run (.entries (before ++ entry :: after) hwith) blocker)
    (hnot : ¬ Supports run entry) : Publishable run (.entries (before ++ after) hwithout) blocker := by
  have hmem : ∀ e ∈ before ++ after, e ∈ before ++ entry :: after := by
    intro e he
    rcases List.mem_append.1 he with he | he
    · exact List.mem_append_left _ he
    · exact List.mem_append_right _ (List.mem_cons_of_mem _ he)
  have hverifiable := h.verifiable
  refine ⟨h.built, h.available, h.unblocked, ⟨hverifiable.safeRun, by simp, ?_, ?_⟩, ?_, ?_⟩
  · have hbound := hverifiable.bounded
    simp only [Inventory.list, List.length_append, List.length_cons] at hbound ⊢
    omega
  · exact fun e he => hverifiable.readable e (hmem e he)
  · exact fun e he => h.idle e (hmem e he)
  · obtain ⟨identity, hidentity, e, he, files, attempt, prepared, result, hfiles, hloaded,
      hsuccess, hartifact, hevidence⟩ := h.validated
    refine ⟨identity, hidentity, e, ?_, files, attempt, prepared, result, hfiles, hloaded,
      hsuccess, hartifact, hevidence⟩
    rcases List.mem_append.1 he with hbefore | hafter
    · exact List.mem_append_left _ hbefore
    · rcases List.mem_cons.1 hafter with rfl | hafter
      · exact absurd ⟨files, attempt, hfiles, hloaded, hsuccess, hartifact ▸ hidentity⟩ hnot
      · exact List.mem_append_right _ hafter

def sampleDigest : String := "0123456789abcdef0123456789abcdef0123456789abcdef0123456789abcdef"

def sampleArtifact : ArtifactIdentity := ⟨"demo", "1.0-1", "amd64", 10, sampleDigest⟩

def sampleImage : ImageIdentity := ⟨"image", some ("sha256:" ++ sampleDigest), none⟩

def sampleAt (instant : Int) : Timestamp := ⟨toString instant, instant⟩

/-- The files of a successful attempt. -/
def sampleFiles : AttemptFiles where
  attempt := .document
    { contractVersion := 1, id := "v1", buildRunId := "r1"
      inputs := ⟨"debian", sampleArtifact, none⟩, selectedProfile := ⟨"debian", sampleImage⟩
      createdAt := sampleAt 0, startedAt := some (sampleAt 1), finishedAt := some (sampleAt 6)
      status := .success, result := some ⟨.success, some "result.json"⟩, error := none }
  automation := .document ⟨false, false, .notRequested, none⟩
  prepared := .document
    ⟨1, "debian", sampleImage, "amd64", sampleArtifact, none, sampleAt 2, sampleAt 3⟩
  result := .document
    { contractVersion := 1, attemptId := "v1", buildRunId := "r1", artifact := sampleArtifact
      profile := ⟨"debian", sampleImage⟩, status := .success, startedAt := sampleAt 4
      finishedAt := sampleAt 5, checks := requiredSuccessChecks.map (⟨·, true⟩)
      execution := ⟨true, true, true, true⟩, error := none }

def sampleRun : BuildRun where
  id := "r1"
  mode := .build
  status := .success
  workspace := "/builds/r1"
  artifact := some
    ⟨"/builds/r1/artifacts/demo.deb", .int 10, sampleDigest, ⟨"demo", "1.0-1", "amd64"⟩, none⟩
  publications := []

end DebBuilder.Validation
