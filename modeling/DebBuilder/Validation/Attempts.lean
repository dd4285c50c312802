import Mathlib
import DebBuilder.Lib.Fallible
import DebBuilder.Validation.Contracts
import DebBuilder.Run.Model

/-!
# Durable attempts

The readers of `validation_service.py`.  An attempt is a directory with up to four files;
the strict loader wants each of them to be readable, to keep its contract, and to agree
with the others.

## Main definitions

* `Stored`, `AttemptFiles`, `Inventory` — what the disk holds.
* `loadAttempt`, `loadPrepared`, `loadResult`, `listAttempts` — the readers.
* `PreparedFor`, `ResultFor`, `Loaded` — what it means that they succeed.
-/

namespace DebBuilder.Validation
open Lib

/-! ## Files -/

/-- What is found where a file should be.  A `refused` one is no regular file of its own
or too large; a `malformed` one breaks its contract before its values are looked at, or is
no JSON (and has no code then). -/
inductive Stored (α : Type)
  | missing
  | refused
  | unreadable
  | malformed (code : Option String)
  | document (value : α)
  deriving DecidableEq, Repr

/-- `path.exists() or path.is_symlink()` -/
def Stored.present {α : Type} : Stored α → Bool
  | .missing => false
  | .refused | .unreadable | .malformed _ | .document _ => true

/-- What the readers raise: `DependencyPreparationError` for a file that is refused,
`OSError` for a directory that is unsafe or a file that cannot be read, an error of a
contract, and `ValidationAdmissionError`. -/
inductive Fault
  | fileNotFound
  | preparation (code : String)
  | os
  | value (code : Option String)
  | admission (code : String) (status : Nat)
  deriving DecidableEq, Repr

/-- `_load_recovery_json` and the reading of the JSON. -/
def Stored.load {α : Type} : Stored α → Except Fault α
  | .missing => .error .fileNotFound
  | .refused => .error (.preparation "validation_attempt_recovery_unverifiable")
  | .unreadable => .error .os
  | .malformed code => .error (.value code)
  | .document value => .ok value

/-- A contract of the read document. -/
def keeping {α : Type} (normalize : α → Except ContractError α) (file : Stored α) :
    Except Fault α := do
  let value ← file.load
  match normalize value with
  | .ok normalized => return normalized
  | .error e => throw (.value (some e.code))

/-- The `except` clauses of a reader: a missing file, and anything but a
`DependencyPreparationError`. -/
def admitting {α : Type} (missing : Fault) (unreadable : Option String → Fault) :
    Except Fault α → Except Fault α
  | .ok value => .ok value
  | .error .fileNotFound => .error missing
  | .error .os => .error (unreadable none)
  | .error (.value code) => .error (unreadable code)
  | .error e => .error e

/-- The files of an attempt. -/
structure AttemptFiles where
  attempt : Stored Attempt
  automation : Stored AutomationMetadata
  prepared : Stored Prepared
  result : Stored Result

/-! ## Readers -/

/-- `ValidationAdmissionError(code, …, status=status)` -/
def refused (code : String) (status : Nat) : Fault := .admission code status

/-- `load_prepared`, with the attempt that it is compared with. -/
def loadPrepared (files : AttemptFiles) (attempt : Attempt) : Except Fault Prepared := do
  let prepared ← admitting (refused "validation_prepared_missing" 409)
    (fun code => refused (code.getD "validation_prepared_unreadable") 409)
    (keeping normalizePreparedRuntimeDependencies files.prepared)
  refuse (prepared.profileName ≠ attempt.inputs.profile ∨
      prepared.current ≠ attempt.inputs.artifact ∨
      prepared.previous ≠ attempt.inputs.previousArtifact ∨
      prepared.image ≠ attempt.selectedProfile.image)
    (refused "validation_prepared_identity_mismatch" 409)
  let started ← demand (refused "validation_prepared_time_mismatch" 409) attempt.startedAt
  refuse (prepared.startedAt < started ∨ attempt.finishedAt.any (· < prepared.finishedAt))
    (refused "validation_prepared_time_mismatch" 409)
  return prepared

/-- `load_result`, with the attempt and the prepared dependencies that it is compared
with. -/
def loadResult (runId attemptId : String) (files : AttemptFiles) (attempt : Attempt)
    (prepared : Option Prepared) : Except Fault Result := do
  let result ← admitting (refused "validation_result_missing" 409)
    (fun code => refused (code.getD "validation_result_unreadable") 409)
    (keeping normalizeValidationResult files.result)
  refuse (result.attemptId ≠ attemptId ∨ result.buildRunId ≠ runId)
    (refused "validation_result_identity_mismatch" 409)
  let started ← demand (refused "validation_result_time_mismatch" 409) attempt.startedAt
  let finished ← demand (refused "validation_result_time_mismatch" 409) attempt.finishedAt
  refuse (attempt.result ≠ some ⟨result.status, some "result.json"⟩ ∨
      result.artifact ≠ attempt.inputs.artifact ∨ result.profile ≠ attempt.selectedProfile ∨
      result.startedAt < started ∨ finished < result.finishedAt)
    (refused "validation_result_identity_mismatch" 409)
  match prepared with
  | none => return result
  | some prepared =>
      refuse (result.artifact ≠ prepared.current ∨
          result.profile ≠ ⟨prepared.profileName, prepared.image⟩ ∨
          result.startedAt < prepared.finishedAt)
        (refused "validation_result_prepared_mismatch" 409)
      return result

/-- The prepared dependencies in `load_attempt`. -/
def loadOptionalPrepared (files : AttemptFiles) (attempt : Attempt) :
    Except Fault (Option Prepared) :=
  if files.prepared.present then some <$> loadPrepared files attempt else .ok none

/-- The result in `load_attempt`. -/
def checkResult (runId attemptId : String) (files : AttemptFiles) (attempt : Attempt)
    (prepared : Option Prepared) : Except Fault Unit :=
  if attempt.result ≠ none then (fun _ => ()) <$> loadResult runId attemptId files attempt prepared
  else refuse files.result.present (refused "validation_result_state_mismatch" 409)

/-- `load_attempt` -/
def loadAttempt (runId attemptId : String) (files : AttemptFiles) : Except Fault Attempt := do
  let attempt ← admitting (refused "validation_attempt_not_found" 404)
    (fun code => refused (code.getD "validation_attempt_unreadable")
      (if code = some "future_contract_version" ∨ code = some "unsupported_contract_version"
        then 409 else 500))
    (keeping normalizeValidationAttempt files.attempt)
  refuse (attempt.buildRunId ≠ runId ∨ attempt.id ≠ attemptId)
    (refused "validation_attempt_identity_mismatch" 409)
  let automation ← admitting (refused "validation_automation_missing" 409)
    (fun _ => refused "validation_automation_unreadable" 409) files.automation.load
  refuse (automationValid automation = false) (refused "validation_automation_unreadable" 409)
  let prepared ← loadOptionalPrepared files attempt
  checkResult runId attemptId files attempt prepared
  refuse (attempt.status = .success ∧ prepared = none)
    (refused "validation_prepared_missing" 409)
  return attempt

/-! ## The attempts of a Run -/

/-- An entry of the directory of attempts: an attempt, if it is a directory. -/
structure Entry where
  name : String
  files : Option AttemptFiles

/-- `manifests/validation-attempts` of a Run.  The names of a directory are distinct. -/
inductive Inventory
  | missing
  | irregular
  | entries (list : List Entry) (distinct : (list.map Entry.name).Nodup)

/-- `MAX_ATTEMPTS_PER_RUN` -/
def maxAttemptsPerRun : Nat := 512

/-- `SAFE_NAME` -/
def safeName (name : String) : Bool := name ≠ "" && name.toList.all Automation.isIdChar

/-- `require_safe_name` -/
def requireSafeName (name : String) : Except Fault Unit :=
  refuse (safeName name = false) (.value none)

/-- One entry of `list_attempts`. -/
def loadEntry (runId : String) (entry : Entry) : Except Fault Attempt :=
  match entry.files with
  | none => .error .os
  | some files => do
      requireSafeName entry.name
      loadAttempt runId entry.name files

/-- The order of `list_attempts`. -/
def Attempt.before (a b : Attempt) : Bool :=
  a.createdAt.text < b.createdAt.text || a.createdAt.text = b.createdAt.text && a.id ≤ b.id

/-- `list_attempts`, strict. -/
def listAttempts (runId : String) (inventory : Inventory) : Except Fault (List Attempt) := do
  requireSafeName runId
  match inventory with
  | .missing => return []
  | .irregular => throw .os
  | .entries entries _ =>
      refuse (maxAttemptsPerRun < entries.length) .os
      let attempts ← (entries.insertionSort fun a b => a.name ≤ b.name).mapM (loadEntry runId)
      return attempts.insertionSort (Attempt.before · ·)

/-! ## What the readers accept -/

/-- The prepared dependencies of an attempt are valid evidence: their file keeps its
contract, and they are those of the attempt, made within it. -/
structure PreparedFor (files : AttemptFiles) (attempt : Attempt) (prepared : Prepared) : Prop where
  contract : keeping normalizePreparedRuntimeDependencies files.prepared = .ok prepared
  profile : prepared.profileName = attempt.inputs.profile
  current : prepared.current = attempt.inputs.artifact
  previous : prepared.previous = attempt.inputs.previousArtifact
  image : prepared.image = attempt.selectedProfile.image
  begun : ∃ started, attempt.startedAt = some started ∧ ¬ prepared.startedAt < started
  done : ∀ finished, attempt.finishedAt = some finished → ¬ finished < prepared.finishedAt

/-- The result of an attempt is valid evidence: its file keeps its contract, and it is
the result of this attempt, about its artifact in its profile, reached within it and
after its dependencies were prepared. -/
structure ResultFor (runId attemptId : String) (files : AttemptFiles) (attempt : Attempt)
    (prepared : Option Prepared) (result : Result) : Prop where
  contract : keeping normalizeValidationResult files.result = .ok result
  ofAttempt : result.attemptId = attemptId
  ofRun : result.buildRunId = runId
  referenced : attempt.result = some ⟨result.status, some "result.json"⟩
  artifact : result.artifact = attempt.inputs.artifact
  profile : result.profile = attempt.selectedProfile
  begun : ∃ started, attempt.startedAt = some started ∧ ¬ result.startedAt < started
  done : ∃ finished, attempt.finishedAt = some finished ∧ ¬ finished < result.finishedAt
  afterPrepared : ∀ p, prepared = some p → result.artifact = p.current ∧
    result.profile = ⟨p.profileName, p.image⟩ ∧ ¬ result.startedAt < p.finishedAt

/-- An attempt of a directory is readable: its file keeps its contract and is of this
directory, its metadata are valid, and the evidence it has is valid and is what its
status wants. -/
structure Loaded (runId attemptId : String) (files : AttemptFiles) (attempt : Attempt) : Prop where
  contract : keeping normalizeValidationAttempt files.attempt = .ok attempt
  ofRun : attempt.buildRunId = runId
  ofAttempt : attempt.id = attemptId
  automation : ∃ metadata, files.automation = .document metadata ∧ automationValid metadata = true
  evidence : ∃ prepared : Option Prepared,
    (files.prepared = .missing ∧ prepared = none ∨
      ∃ p, prepared = some p ∧ PreparedFor files attempt p) ∧
    (attempt.result = none ∧ files.result = .missing ∨
      attempt.result ≠ none ∧ ∃ r, ResultFor runId attemptId files attempt prepared r) ∧
    (attempt.status = .success → prepared ≠ none)

theorem admitting_eq_ok {α : Type} {missing : Fault} {unreadable : Option String → Fault}
    {read : Except Fault α} {value : α} :
    admitting missing unreadable read = .ok value ↔ read = .ok value := by
  unfold admitting
  constructor
  · intro h
    split at h <;> simp_all
  · intro h
    simp [h]

theorem loadPrepared_eq_ok {files : AttemptFiles} {attempt : Attempt} {prepared : Prepared} :
    loadPrepared files attempt = .ok prepared ↔ PreparedFor files attempt prepared := by
  simp only [loadPrepared, bind_eq_ok, admitting_eq_ok, refuse_eq_ok, demand_eq_ok, pure_eq_ok,
    not_or, not_not]
  constructor
  · rintro ⟨p, hcontract, _, ⟨hprofile, hcurrent, hprevious, himage⟩, started, hstarted, _,
      ⟨hbegun, hdone⟩, rfl⟩
    exact
      { contract := hcontract, profile := hprofile, current := hcurrent
        previous := hprevious, image := himage
        begun := ⟨started, hstarted, hbegun⟩
        done := fun finished h hlt => hdone (by simpa [h] using hlt) }
  · intro h
    obtain ⟨started, hstarted, hbegun⟩ := h.begun
    refine ⟨prepared, h.contract, (), ⟨h.profile, h.current, h.previous, h.image⟩, started,
      hstarted, (), ⟨hbegun, ?_⟩, rfl⟩
    intro hany
    obtain ⟨finished, hfinished, hlt⟩ := (Option.any_eq_true _ _).1 hany
    exact h.done finished hfinished (of_decide_eq_true hlt)

theorem loadResult_eq_ok {runId attemptId : String} {files : AttemptFiles} {attempt : Attempt}
    {prepared : Option Prepared} {result : Result} :
    loadResult runId attemptId files attempt prepared = .ok result ↔
      ResultFor runId attemptId files attempt prepared result := by
  simp only [loadResult, bind_eq_ok, admitting_eq_ok, refuse_eq_ok, demand_eq_ok, not_or, not_not]
  constructor
  · rintro ⟨r, hcontract, _, ⟨hattempt, hrun⟩, started, hstarted, finished, hfinished, _,
      ⟨hreferenced, hartifact, hprofile, hbegun, hdone⟩, h⟩
    cases prepared with
    | none =>
        obtain rfl := pure_eq_ok.1 h
        exact
          { contract := hcontract, ofAttempt := hattempt, ofRun := hrun
            referenced := hreferenced, artifact := hartifact, profile := hprofile
            begun := ⟨started, hstarted, hbegun⟩, done := ⟨finished, hfinished, hdone⟩
            afterPrepared := fun _ h => nomatch h }
    | some p =>
        simp only [bind_eq_ok, refuse_eq_ok, pure_eq_ok, not_or, not_not] at h
        obtain ⟨_, ⟨hcurrent, hprepared, hafter⟩, rfl⟩ := h
        exact
          { contract := hcontract, ofAttempt := hattempt, ofRun := hrun
            referenced := hreferenced, artifact := hartifact, profile := hprofile
            begun := ⟨started, hstarted, hbegun⟩, done := ⟨finished, hfinished, hdone⟩
            afterPrepared := fun q hq => by
              obtain rfl := Option.some.inj hq
              exact ⟨hcurrent, hprepared, hafter⟩ }
  · intro h
    obtain ⟨started, hstarted, hbegun⟩ := h.begun
    obtain ⟨finished, hfinished, hdone⟩ := h.done
    refine ⟨result, h.contract, (), ⟨h.ofAttempt, h.ofRun⟩, started, hstarted, finished,
      hfinished, (), ⟨h.referenced, h.artifact, h.profile, hbegun, hdone⟩, ?_⟩
    cases prepared with
    | none => rfl
    | some p =>
        simp only [bind_eq_ok, refuse_eq_ok, pure_eq_ok, not_or, not_not]
        exact ⟨(), h.afterPrepared p rfl, trivial⟩

theorem Stored.present_eq_false {α : Type} {file : Stored α} :
    file.present = false ↔ file = .missing := by
  cases file <;> simp [Stored.present]

theorem Stored.load_eq_ok {α : Type} {file : Stored α} {value : α} :
    file.load = .ok value ↔ file = .document value := by
  cases file <;> simp [Stored.load]

/-- A file that keeps a contract is there. -/
theorem Stored.present_of_keeping {α : Type} {normalize : α → Except ContractError α}
    {file : Stored α} {value : α} (h : keeping normalize file = .ok value) :
    file.present = true := by
  cases file with
  | missing => simp [keeping, Stored.load, bind, Except.bind] at h
  | refused | unreadable | malformed | document => rfl

theorem loadOptionalPrepared_eq_ok {files : AttemptFiles} {attempt : Attempt}
    {prepared : Option Prepared} :
    loadOptionalPrepared files attempt = .ok prepared ↔
      files.prepared = .missing ∧ prepared = none ∨
        ∃ p, prepared = some p ∧ PreparedFor files attempt p := by
  unfold loadOptionalPrepared
  by_cases hpresent : files.prepared.present = true
  · have hne : files.prepared ≠ .missing := by
      intro h
      simp [h, Stored.present] at hpresent
    simp only [if_pos hpresent, map_eq_ok, loadPrepared_eq_ok, hne, false_and, false_or]
    constructor
    · rintro ⟨p, hp, rfl⟩
      exact ⟨p, rfl, hp⟩
    · rintro ⟨p, rfl, hp⟩
      exact ⟨p, hp, rfl⟩
  · have hmissing := Stored.present_eq_false.1 (Bool.eq_false_iff.2 hpresent)
    rw [if_neg hpresent]
    constructor
    · intro h
      exact .inl ⟨hmissing, (Except.ok.inj h).symm⟩
    · rintro (⟨-, rfl⟩ | ⟨p, -, hp⟩)
      · rfl
      · exact absurd (Stored.present_of_keeping hp.contract) hpresent

theorem checkResult_eq_ok {runId attemptId : String} {files : AttemptFiles} {attempt : Attempt}
    {prepared : Option Prepared} {u : Unit} :
    checkResult runId attemptId files attempt prepared = .ok u ↔
      attempt.result = none ∧ files.result = .missing ∨
        attempt.result ≠ none ∧ ∃ r, ResultFor runId attemptId files attempt prepared r := by
  unfold checkResult
  by_cases hresult : attempt.result = none
  · rw [if_neg (not_not.2 hresult), refuse_eq_ok, Bool.not_eq_true, Stored.present_eq_false]
    simp [hresult]
  · simp [hresult, map_eq_ok, loadResult_eq_ok]

theorem loadAttempt_eq_ok {runId attemptId : String} {files : AttemptFiles} {attempt : Attempt} :
    loadAttempt runId attemptId files = .ok attempt ↔ Loaded runId attemptId files attempt := by
  simp only [loadAttempt, bind_eq_ok, admitting_eq_ok, refuse_eq_ok, Stored.load_eq_ok,
    loadOptionalPrepared_eq_ok, checkResult_eq_ok, pure_eq_ok, not_or, not_not]
  constructor
  · rintro ⟨a, hcontract, _, ⟨hrun, hattempt⟩, metadata, hmetadata, _, hvalid, prepared, hprepared,
      _, hresult, _, hsuccess, rfl⟩
    exact
      { contract := hcontract, ofRun := hrun, ofAttempt := hattempt
        automation := ⟨metadata, hmetadata, by simpa using hvalid⟩
        evidence := ⟨prepared, hprepared, hresult, fun hs hn => hsuccess ⟨hs, hn⟩⟩ }
  · intro h
    obtain ⟨metadata, hmetadata, hvalid⟩ := h.automation
    obtain ⟨prepared, hprepared, hresult, hsuccess⟩ := h.evidence
    exact ⟨attempt, h.contract, (), ⟨h.ofRun, h.ofAttempt⟩, metadata, hmetadata, (), by simp [hvalid],
      prepared, hprepared, (), hresult, (), fun hs => hsuccess hs.1 hs.2, rfl⟩

/-! ## What the inventory holds -/

/-- The entries of a directory of attempts. -/
def Inventory.list : Inventory → List Entry
  | .missing | .irregular => []
  | .entries list _ => list

/-- The inventory of a Run is fully verifiable: it is a bounded directory of directories
with safe names, and each of them is a readable attempt of this Run. -/
structure Verifiable (runId : String) (inventory : Inventory) : Prop where
  safeRun : safeName runId = true
  regular : inventory ≠ .irregular
  bounded : inventory.list.length ≤ maxAttemptsPerRun
  readable : ∀ entry ∈ inventory.list, safeName entry.name = true ∧
    ∃ files attempt, entry.files = some files ∧ Loaded runId entry.name files attempt

theorem requireSafeName_eq_ok {name : String} {u : Unit} :
    requireSafeName name = .ok u ↔ safeName name = true := by
  rw [requireSafeName, refuse_eq_ok, Bool.not_eq_false]

theorem loadEntry_eq_ok {runId : String} {entry : Entry} {attempt : Attempt} :
    loadEntry runId entry = .ok attempt ↔ safeName entry.name = true ∧
      ∃ files, entry.files = some files ∧ Loaded runId entry.name files attempt := by
  cases hfiles : entry.files with
  | none => simp [loadEntry, hfiles]
  | some files =>
      simp [loadEntry, hfiles, bind_eq_ok, requireSafeName_eq_ok, loadAttempt_eq_ok]

/-- The attempts that are listed are those of the entries. -/
theorem mem_listAttempts {runId : String} {inventory : Inventory} {attempts : List Attempt}
    {attempt : Attempt} (h : listAttempts runId inventory = .ok attempts) :
    attempt ∈ attempts ↔ ∃ entry ∈ inventory.list, ∃ files, entry.files = some files ∧
      Loaded runId entry.name files attempt := by
  cases inventory with
  | missing =>
      simp only [listAttempts, bind_eq_ok, pure_eq_ok] at h
      obtain ⟨_, -, rfl⟩ := h
      simp [Inventory.list]
  | irregular =>
      simp [listAttempts, bind_eq_ok, throw_eq_ok] at h
  | entries list distinct =>
      simp only [listAttempts, bind_eq_ok, pure_eq_ok] at h
      obtain ⟨_, -, _, -, loaded, hloaded, rfl⟩ := h
      rw [List.mem_insertionSort, mem_of_mapM_eq_ok hloaded]
      simp only [List.mem_insertionSort, loadEntry_eq_ok, Inventory.list]
      constructor
      · rintro ⟨entry, hentry, -, hfiles⟩
        exact ⟨entry, hentry, hfiles⟩
      · rintro ⟨entry, hentry, hfiles⟩
        obtain ⟨y, hy⟩ := exists_mapM_eq_ok.1 ⟨loaded, hloaded⟩ entry ((List.mem_insertionSort _).2 hentry)
        exact ⟨entry, hentry, (loadEntry_eq_ok.1 hy).1, hfiles⟩

theorem exists_listAttempts {runId : String} {inventory : Inventory} :
    (∃ attempts, listAttempts runId inventory = .ok attempts) ↔ Verifiable runId inventory := by
  cases inventory with
  | missing =>
      constructor
      · rintro ⟨attempts, h⟩
        simp only [listAttempts, bind_eq_ok, requireSafeName_eq_ok] at h
        obtain ⟨_, hsafe, -⟩ := h
        exact ⟨hsafe, by simp, by simp [Inventory.list], by simp [Inventory.list]⟩
      · intro h
        refine ⟨[], ?_⟩
        simp only [listAttempts, bind_eq_ok, requireSafeName_eq_ok, pure_eq_ok]
        exact ⟨(), h.safeRun, trivial⟩
  | irregular =>
      constructor
      · rintro ⟨attempts, h⟩
        simp [listAttempts, bind_eq_ok, throw_eq_ok] at h
      · intro h
        exact absurd rfl h.regular
  | entries list distinct =>
      constructor
      · rintro ⟨attempts, h⟩
        simp only [listAttempts, bind_eq_ok, requireSafeName_eq_ok, refuse_eq_ok, Nat.not_lt] at h
        obtain ⟨_, hsafe, _, hbound, loaded, hloaded, -⟩ := h
        refine ⟨hsafe, by simp, hbound, fun entry hentry => ?_⟩
        obtain ⟨y, hy⟩ := exists_mapM_eq_ok.1 ⟨loaded, hloaded⟩ entry ((List.mem_insertionSort _).2 hentry)
        obtain ⟨hname, files, hfiles, hy⟩ := loadEntry_eq_ok.1 hy
        exact ⟨hname, files, y, hfiles, hy⟩
      · intro h
        have hloaded : ∃ loaded, (list.insertionSort fun a b => a.name ≤ b.name).mapM
            (loadEntry runId) = .ok loaded := by
          apply exists_mapM_eq_ok.2
          intro entry hentry
          obtain ⟨hname, files, attempt, hfiles, hattempt⟩ :=
            h.readable entry ((List.mem_insertionSort _).1 hentry)
          exact ⟨attempt, loadEntry_eq_ok.2 ⟨hname, files, hfiles, hattempt⟩⟩
        obtain ⟨loaded, hloaded⟩ := hloaded
        refine ⟨loaded.insertionSort (Attempt.before · ·), ?_⟩
        simp only [listAttempts, bind_eq_ok, requireSafeName_eq_ok, refuse_eq_ok, Nat.not_lt, pure_eq_ok]
        exact ⟨(), h.safeRun, (), h.bounded, loaded, hloaded, rfl⟩

end DebBuilder.Validation
