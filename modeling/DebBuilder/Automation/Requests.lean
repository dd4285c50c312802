import Mathlib
import DebBuilder.Automation.Progress

/-!
# The writes that the ledger accepts

Which of the rows that the requests of the orchestrator ask for are valid.  A live row is
left for a retry when its counter has room and the failure has a stable code; it stops
when the failure has one; a link is accepted when it is well formed, and a new Validation
link only while there is no publication.

## Main definitions

* `Issued.Benign` — the condition under which the ledger accepts a write.
* `Row.Valid.retry`, `Row.Valid.stop`, `Row.Valid.advance_run` and so on — one law for
  each request.
-/

namespace DebBuilder.Automation

/-- A stable code: a diagnostic or the code of an error. -/
def isCode (s : String) : Bool := isText 80 s && s.toList.all isCodeChar

def isRunId (s : String) : Bool := isText 128 s && s.toList.all isIdChar

def isAttemptId (s : String) : Bool := isText 128 s && s.toList.all isAttemptIdChar

/-- What has to hold of a request, and of the row the orchestrator holds, for the ledger to
accept the write. -/
def Request.Benign (held : Row) : Request → Prop
  | .preallocateRun candidate => isRunId candidate = true
  | .linkRun _ | .markCompletionNotified => True
  | .finish classification _ _ _ code _ =>
      (classification = .transientRetryable → held.retryField < maxRetryCount) ∧
        optional isCode code = true
  | .advanceLifecycle _ validationAttemptId publicationAttemptId =>
      optional isAttemptId validationAttemptId = true ∧
        optional isAttemptId publicationAttemptId = true ∧
        (validationAttemptId ≠ none → held.publicationAttemptId = none)

/-- The condition under which a write is accepted. -/
def Issued.Benign (cfg : Config) (i : Issued) : Prop :=
  i.request.Benign i.held ∧ cfg.encodedBytes i.document ≤ maxLedgerBytes

variable {n count : Nat} {row : Row} {code diagnostic : String} {now at? : Time}

theorem optional_and (p q : String → Bool) (v : Option String) :
    optional (fun s => p s && q s) v = (optional p v && optional q v) := by
  cases v <;> rfl

theorem optional_isCode (v : Option String) :
    optional isCode v = (optional (isText 80) v && optional (·.toList.all isCodeChar) v) :=
  optional_and ..

theorem optional_isAttemptId (v : Option String) : optional isAttemptId v =
    (optional (isText 128) v && optional (·.toList.all isAttemptIdChar) v) :=
  optional_and ..

/-! ## Live rows -/

theorem Row.Valid.not_notified (h : row.Valid n) (hlive : row.live = true) :
    row.completionNotified = false := by
  have := h.notified
  simp only [Row.live] at hlive
  grind -ring -linarith

theorem Row.Valid.stage_ne_terminal (h : row.Valid n) (hlive : row.live = true) :
    row.stage ≠ .terminal :=
  h.liveStage (by simpa [Row.live] using hlive)

/-- A live row without a Run has no attempt either. -/
theorem Row.Valid.unlinked (h : row.Valid n) (hlive : row.live = true) (hr : row.runId = none) :
    (row.stage = .detection ∨ row.stage = .runAdmission) ∧ row.validationAttemptId = none ∧
      row.publicationAttemptId = none := by
  have hst := h.stage_ne_terminal hlive
  rw [Row.valid_iff] at h
  cases hs : row.stage <;> grind -ring -linarith

/-- A live row with a Run is in a stage that follows its admission. -/
theorem Row.Valid.linkedStage (h : row.Valid n) (hlive : row.live = true) (hr : row.runId ≠ none) :
    row.stage = .run ∨ row.stage = .validationAdmission ∨ row.stage = .validation ∨
      row.stage = .publication := by
  have hst := h.stage_ne_terminal hlive
  rw [Row.valid_iff] at h
  cases hs : row.stage <;> grind -ring -linarith

theorem Row.Valid.preallocated_of_runId {r : RunId} (h : row.Valid n) (hr : row.runId = some r) :
    row.preallocatedRunId = some r := by
  rcases h.linked with hl | hl
  · simp [hl] at hr
  · rw [← hl, hr]

/-- The counter that a retry counts is within its bound. -/
theorem Row.Valid.retryField_le (h : row.Valid n) : row.retryField ≤ maxRetryCount := by
  unfold Row.retryField
  cases row.stage
  all_goals first
    | exact h.retryCount
    | exact h.runRetryCount
    | exact h.validationRetryCount
    | exact h.publicationRetryCount

/-- The state in which `finish` leaves a row. -/
def Classification.finishes : Classification → RowState
  | .transientRetryable => .retryDelayed
  | .blockedManual => .blocked
  | .success | .terminalFailure | .cancelled | .disabled => .terminal

/-- What `finish` makes of a row, but for the counter under which it files the count. -/
theorem Row.finish_eq (row : Row) (classification : Classification) (retryClass : RetryClass)
    (count : Nat) (notBefore : Option Time) (code diagnostic : Option String) (now : Time) :
    ∃ runRetryCount validationRetryCount publicationRetryCount,
      row.finish classification retryClass count notBefore code diagnostic now =
        { row with
          state := classification.finishes
          stage := if classification = .transientRetryable then row.stage else .terminal
          terminalClassification := some classification
          retryClass, retryCount := count, notBefore, lastErrorCode := code, diagnostic
          updatedAt := now, runRetryCount, validationRetryCount, publicationRetryCount } := by
  unfold Row.finish
  cases classification with
  | transientRetryable => cases row.stage <;> exact ⟨_, _, _, rfl⟩
  | success | terminalFailure | blockedManual | cancelled | disabled => exact ⟨_, _, _, rfl⟩

/-! ## The laws -/

/-- A retry is accepted when its count has room and its code is stable. -/
theorem Row.Valid.retry (h : row.Valid n) (hlive : row.live = true)
    (hdiag : isCode diagnostic = true) :
    (row.finish .transientRetryable .transient count (some at?) (some code) (some diagnostic)
      now).Valid n ↔ count ≤ maxRetryCount ∧ isCode code = true := by
  have hcode := optional_isCode (some code)
  have hd := optional_isCode (some diagnostic)
  have hn := h.not_notified hlive
  have hst := h.stage_ne_terminal hlive
  rw [Row.valid_iff] at h
  rw [Row.valid_iff]
  cases hs : row.stage <;> grind -ring -linarith [Row.finish, RowState.stopped, RowState.owned, optional]

/-- A generation may stop under every classification but the transient one, with a stable
code or none. -/
theorem Row.Valid.stop {classification : Classification} {code? : Option String} (h : row.Valid n)
    (hlive : row.live = true) (hclass : classification ≠ .transientRetryable)
    (hcount : count ≤ maxRetryCount) (hdiag : isCode diagnostic = true) :
    (row.finish classification (if classification = .blockedManual then .operator else .none) count
      none code? (some diagnostic) now).Valid n ↔ optional isCode code? = true := by
  have hcode := optional_isCode code?
  have hd := optional_isCode (some diagnostic)
  have hn := h.not_notified hlive
  rw [Row.valid_iff] at h
  rw [Row.valid_iff]
  cases classification <;> grind -ring -linarith [Row.finish, RowState.stopped, RowState.owned, optional]

/-- The id of the Run is accepted when it is well formed. -/
theorem Row.Valid.preallocate {candidate : RunId} (h : row.Valid n) (hstate : row.state = .claimed)
    (hnone : row.preallocatedRunId = none) (hpolicy : row.desiredPolicy ≠ .detect) :
    ({ row with
        preallocatedRunId := some candidate, state := .runPreallocated, stage := .runAdmission
        updatedAt := now }).Valid n ↔ isRunId candidate = true := by
  have hlive : row.live = true := by simp [Row.live, hstate, RowState.stopped]
  have hr : row.runId = none := by
    have := h.linked
    grind -ring -linarith
  obtain ⟨-, hv, hp⟩ := h.unlinked hlive hr
  have hn := h.not_notified hlive
  rw [Row.valid_iff] at h
  rw [Row.valid_iff]
  grind -ring -linarith [RowState.stopped, RowState.owned, optional, isRunId]

/-- A Run that is there is linked. -/
theorem Row.Valid.link {r : RunId} (h : row.Valid n) (hlive : row.live = true)
    (hr : row.runId = none) (hpre : row.preallocatedRunId = some r) : (row.link r now).Valid n := by
  obtain ⟨-, hv, hp⟩ := h.unlinked hlive hr
  have hn := h.not_notified hlive
  rw [Row.valid_iff] at h
  rw [Row.valid_iff]
  grind -ring -linarith [Row.link, RowState.stopped, RowState.owned, optional]

theorem Row.Valid.advance_run (h : row.Valid n) (hlive : row.live = true)
    (hstage : row.stage = .run) : (row.advance .run none none now).Valid n := by
  have hn := h.not_notified hlive
  rw [Row.valid_iff] at h
  rw [Row.valid_iff]
  grind -ring -linarith [Row.advance, RowState.stopped, RowState.owned, optional]

theorem Row.Valid.advance_validationAdmission (h : row.Valid n) (hlive : row.live = true)
    (hr : row.runId ≠ none) (hp : row.publicationAttemptId = none) :
    (row.advance .validationAdmission none none now).Valid n := by
  have hn := h.not_notified hlive
  rw [Row.valid_iff] at h
  rw [Row.valid_iff]
  grind -ring -linarith [Row.advance, RowState.stopped, RowState.owned, optional]

/-- A Validation link is accepted when it is well formed and there is no publication. -/
theorem Row.Valid.advance_validation {id : String} (h : row.Valid n) (hlive : row.live = true)
    (hr : row.runId ≠ none) : (row.advance .validation (some id) none now).Valid n ↔
      isAttemptId id = true ∧ row.publicationAttemptId = none := by
  have hn := h.not_notified hlive
  rw [Row.valid_iff] at h
  rw [Row.valid_iff]
  grind -ring -linarith [Row.advance, RowState.stopped, RowState.owned, optional, isAttemptId]

/-- A publication link is accepted when it is well formed. -/
theorem Row.Valid.advance_publication {id? : Option String} (h : row.Valid n)
    (hlive : row.live = true) (hr : row.runId ≠ none) (hv : row.validationAttemptId ≠ none) :
    (row.advance .publication none id? now).Valid n ↔ optional isAttemptId id? = true := by
  have hid := optional_isAttemptId id?
  have hn := h.not_notified hlive
  rw [Row.valid_iff] at h
  rw [Row.valid_iff]
  cases id? <;> grind -ring -linarith [Row.advance, RowState.stopped, RowState.owned, optional]

theorem Row.Valid.notify (h : row.Valid n) (hstopped : row.state.stopped = true) :
    ({ row with completionNotified := true, updatedAt := now }).Valid n := by
  rw [Row.valid_iff] at h
  rw [Row.valid_iff]
  grind -ring -linarith

end DebBuilder.Automation
