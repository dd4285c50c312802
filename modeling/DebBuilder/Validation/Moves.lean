import Mathlib
import DebBuilder.Validation.Life

/-!
# The statuses of an attempt

The status that is stored in `attempt.json` moves along queued, running, cancelling and an
end, whoever writes it; and at most one attempt of a Run is active.

## Main definitions

* `Status.Move`, `Status.Advance` — one write of a status.
* `Orderly` — what holds in every state.

## Main results

* `attempt_statuses_move` — over every run, with any interleaving, crash and failed write.
-/

namespace DebBuilder.Validation
open Lib

/-! ## Moves -/

/-- The moves of the state machine. -/
inductive Status.Move : Status → Status → Prop
  | claimed : Move .queued .running
  | cancelling : Move .running .cancelling
  | ended {st ended : Status} : st.active = true → ended.active = false → Move st ended

/-- A write moves the status, or keeps it. -/
def Status.Advance (st st' : Status) : Prop := st = st' ∨ st.Move st'

/-- Any number of moves. -/
def Status.Leads : Status → Status → Prop := Relation.ReflTransGen Status.Move

theorem Status.Advance.leads {st st' : Status} (h : st.Advance st') : st.Leads st' := by
  rcases h with rfl | h
  · exact .refl
  · exact .single h

theorem Status.Advance.of_end {st ended : Status} (h : st.active = true)
    (hended : ended.active = false) : st.Advance ended :=
  .inr (.ended h hended)

/-- An end is final. -/
theorem Status.Leads.eq_of_ended {st st' : Status} (h : st.Leads st') (hst : st.active = false) :
    st' = st := by
  induction h with
  | refl => rfl
  | tail _ hmove ih =>
      subst ih
      cases hmove with
      | claimed | cancelling => exact nomatch hst
      | ended hactive _ => exact absurd hst (by simp [hactive])

/-! ## What the writers do to a status -/

theorem normalizeValidationAttempt_status {value attempt : Attempt}
    (h : normalizeValidationAttempt value = .ok attempt) : attempt.status = value.status := by
  obtain ⟨_, _, rfl⟩ := normalizeValidationAttempt_eq h
  rfl

theorem contract_eq_ok {α : Type} {x : Except ContractError α} {a : α} :
    contract x = .ok a ↔ x = .ok a := by
  cases x <;> simp [contract]

theorem keeping_eq_ok {α : Type} {normalize : α → Except ContractError α} {file : Stored α}
    {normalized : α} : keeping normalize file = .ok normalized ↔
      ∃ value, file = .document value ∧ normalize value = .ok normalized := by
  simp only [keeping, bind_eq_ok, Stored.load_eq_ok]
  constructor
  · rintro ⟨value, hvalue, h⟩
    refine ⟨value, hvalue, ?_⟩
    cases hnormal : normalize value with
    | error e => simp [hnormal, throw_eq_ok] at h
    | ok normalized => simpa [hnormal, pure_eq_ok] using h
  · rintro ⟨value, hvalue, h⟩
    exact ⟨value, hvalue, by simp [h, pure_eq_ok]⟩

theorem readAttempt_eq_ok {files : AttemptFiles} {attempt : Attempt} :
    readAttempt files = .ok attempt ↔ ∃ value, files.attempt = .document value ∧
      normalizeValidationAttempt value = .ok attempt :=
  keeping_eq_ok

/-- The status that a file holds. -/
@[grind =] def Stored.status? : Stored Attempt → Option Status
  | .document attempt => some attempt.status
  | .missing | .refused | .unreadable | .malformed _ => none

/-- The status that the files of an attempt hold. -/
@[grind =] def AttemptFiles.status? (files : AttemptFiles) : Option Status := files.attempt.status?

theorem status?_of_read {files : AttemptFiles} {attempt : Attempt}
    (h : readAttempt files = .ok attempt) : files.status? = some attempt.status := by
  obtain ⟨value, hvalue, hattempt⟩ := readAttempt_eq_ok.1 h
  simp [AttemptFiles.status?, Stored.status?, hvalue, normalizeValidationAttempt_status hattempt]

theorem read_of_loaded {runId id : String} {files : AttemptFiles} {attempt : Attempt}
    (h : loadAttempt runId id files = .ok attempt) : readAttempt files = .ok attempt :=
  (loadAttempt_eq_ok.1 h).contract

theorem rules_of_read {files : AttemptFiles} {attempt : Attempt}
    (h : readAttempt files = .ok attempt) : statusRules attempt = .ok () := by
  obtain ⟨value, -, hattempt⟩ := readAttempt_eq_ok.1 h
  exact statusRules_of_normalize hattempt

theorem terminalAttempt_status {attempt ended : Attempt} {status : Status} {code message : String}
    {now : Timestamp} (h : terminalAttempt attempt status code message now = .ok ended) :
    ended.status = status :=
  normalizeValidationAttempt_status h

theorem terminalFailed_status {attempt ended : Attempt} {code message : String} {now : Timestamp}
    (h : terminalFailed attempt code message now = .ok ended) : ended.status = .failed :=
  normalizeValidationAttempt_status h

/-- Only an attempt that has started can be cancelling. -/
theorem started_of_cancelling {attempt : Attempt} (h : statusRules attempt = .ok ())
    (hstatus : attempt.status = .cancelling) : attempt.startedAt ≠ none := by
  simp only [statusRules, bind_eq_ok, refuse_eq_ok] at h
  obtain ⟨_, -, _, hactive, -⟩ := h
  intro hnone
  exact hactive (by simp [hstatus, hnone])

theorem not_started_of_queued {attempt : Attempt} (h : statusRules attempt = .ok ())
    (hstatus : attempt.status = .queued) : attempt.startedAt = none := by
  simp only [statusRules, bind_eq_ok, refuse_eq_ok] at h
  obtain ⟨_, hqueued, -⟩ := h
  by_contra hnone
  exact hqueued (by simp [hstatus, hnone])

theorem claimAttempt_status {runId id : String} {files : AttemptFiles} {attempt : Attempt}
    {now : Timestamp} (h : claimAttempt runId id files now = .ok attempt) :
    files.status? = some .queued ∧ attempt.status = .running := by
  simp only [claimAttempt, bind_eq_ok, refuse_eq_ok, contract_eq_ok] at h
  obtain ⟨latest, hread, _, hqueued, hattempt⟩ := h
  have hstatus : latest.status = .queued := by
    by_contra hne
    exact hqueued (by simp [hne])
  exact ⟨hstatus ▸ status?_of_read hread, normalizeValidationAttempt_status hattempt⟩

theorem resolveImage_status {files : AttemptFiles} {image resolved : ImageIdentity}
    {attempt : Attempt} (h : resolveImage files image resolved = .ok attempt) :
    files.status? = some .running ∧ attempt.status = .running := by
  simp only [resolveImage, bind_eq_ok, refuse_eq_ok, contract_eq_ok, not_or, not_not] at h
  obtain ⟨latest, hread, _, -, _, ⟨hstatus, -⟩, hattempt⟩ := h
  exact ⟨hstatus ▸ status?_of_read hread, (normalizeValidationAttempt_status hattempt).trans hstatus⟩

/-- What a section may write: a move of the status that it has read, that does not bring a
queued attempt to life. -/
def Ends (files : AttemptFiles) (attempt : Attempt) : Prop :=
  ∃ st, files.status? = some st ∧ st.Advance attempt.status ∧
    (st = .queued → attempt.status.active = false)

theorem Ends.of_end {files : AttemptFiles} {attempt ended : Attempt}
    (hread : readAttempt files = .ok attempt) (hactive : attempt.status.active = true)
    (hended : ended.status.active = false) : Ends files ended :=
  ⟨attempt.status, status?_of_read hread, .of_end hactive hended, fun _ => hended⟩

theorem Ends.of_cancelling {files : AttemptFiles} {attempt cancelling : Attempt}
    (hread : readAttempt files = .ok attempt) (hstatus : cancelling.status = .cancelling)
    (hstarted : attempt.status = .running ∨ attempt.status = .cancelling) :
    Ends files cancelling := by
  refine ⟨attempt.status, status?_of_read hread, ?_, ?_⟩
  · rcases hstarted with h | h
    · exact .inr (by rw [h, hstatus]; exact .cancelling)
    · exact .inl (by rw [h, hstatus])
  · intro hqueued
    rcases hstarted with h | h <;> simp [h] at hqueued

/-- An attempt whose rewriting as cancelling keeps the contract has started. -/
theorem started_of_rewrite {files : AttemptFiles} {attempt cancelling : Attempt}
    (hread : readAttempt files = .ok attempt) (hactive : attempt.status.active = true)
    (h : normalizeValidationAttempt { attempt with status := .cancelling } = .ok cancelling) :
    attempt.status = .running ∨ attempt.status = .cancelling := by
  have hstarted := started_of_cancelling (statusRules_of_normalize h)
    (normalizeValidationAttempt_status h)
  obtain ⟨_, _, rfl⟩ := normalizeValidationAttempt_eq h
  have hqueued := not_started_of_queued (rules_of_read hread)
  cases hst : attempt.status with
  | queued => exact absurd (hqueued hst) hstarted
  | running => exact .inl rfl
  | cancelling => exact .inr rfl
  | cancelled | success | failed => simp [hst, Status.active] at hactive

theorem failPreparation_ends {files : AttemptFiles} {interruption : Interruption}
    {cleanupUnresolved : Bool} {now : Timestamp} {attempt : Attempt}
    (h : failPreparation files interruption cleanupUnresolved now = .ok (some attempt)) :
    Ends files attempt := by
  simp only [failPreparation, bind_eq_ok] at h
  obtain ⟨latest, hread, h⟩ := h
  split at h
  next hactive =>
    split at h
    · obtain ⟨_, hcancelling, heq⟩ := map_eq_ok.1 h
      obtain rfl := Option.some.inj heq
      have hcancelling := contract_eq_ok.1 hcancelling
      exact .of_cancelling hread (normalizeValidationAttempt_status hcancelling)
        (started_of_rewrite hread hactive hcancelling)
    · split at h
      · obtain ⟨_, hended, heq⟩ := map_eq_ok.1 h
        obtain rfl := Option.some.inj heq
        have hstatus := terminalAttempt_status (contract_eq_ok.1 hended)
        exact .of_end hread hactive (by rw [hstatus]; rfl)
      · obtain ⟨_, hended, heq⟩ := map_eq_ok.1 h
        obtain rfl := Option.some.inj heq
        have hstatus := terminalAttempt_status (contract_eq_ok.1 hended)
        exact .of_end hread hactive (by rw [hstatus]; rfl)
  · simp [pure_eq_ok] at h

theorem cancelDurable_ends {runId id : String} {files : AttemptFiles} {code message : String}
    {now : Timestamp} {attempt : Attempt}
    (h : cancelDurable runId id files code message now = .ok (some attempt)) :
    Ends files attempt := by
  simp only [cancelDurable, bind_eq_ok] at h
  obtain ⟨latest, hloaded, h⟩ := h
  have hread := read_of_loaded hloaded
  split at h
  next hactive =>
    simp only [bind_eq_ok, map_eq_ok, contract_eq_ok] at h
    obtain ⟨cancelled, hcancelled, a, ha, heq⟩ := h
    obtain rfl := Option.some.inj heq
    have hstatus := normalizeValidationAttempt_status ha
    split at hcancelled
    · have hended := terminalAttempt_status hcancelled
      exact .of_end hread hactive (by rw [hstatus, hended]; rfl)
    · exact .of_cancelling hread (hstatus.trans (normalizeValidationAttempt_status hcancelled))
        (started_of_rewrite hread hactive hcancelled)
  · simp [pure_eq_ok] at h

theorem failIfActive_ends {runId id : String} {files : AttemptFiles} {code : String}
    {now : Timestamp} {attempt : Attempt}
    (h : failIfActive runId id files code now = .ok (some attempt)) : Ends files attempt := by
  simp only [failIfActive, bind_eq_ok] at h
  obtain ⟨latest, hloaded, h⟩ := h
  have hread := read_of_loaded hloaded
  split at h
  next hactive =>
    simp only [bind_eq_ok, map_eq_ok, contract_eq_ok] at h
    obtain ⟨failed, hfailed, a, ha, heq⟩ := h
    obtain rfl := Option.some.inj heq
    have hstatus := (normalizeValidationAttempt_status ha).trans (terminalFailed_status hfailed)
    apply Ends.of_end hread
    · rcases hactive with hst | hst <;> simp [hst, Status.active]
    · rw [hstatus]
      rfl
  · simp [pure_eq_ok] at h

theorem normalizeValidationResult_ended {value result : Result}
    (h : normalizeValidationResult value = .ok result) : result.status.active = false := by
  simp only [normalizeValidationResult, bind_eq_ok, pure_eq_ok, refuse_eq_ok] at h
  obtain ⟨_, -, _, -, _, -, _, -, _, -, _, -, _, hstatus, _, -, _, -, _, -, _, -, _, -, _, -,
    rfl⟩ := h
  simpa using hstatus

theorem completeLifecycleAttempt_ends {runId id : String} {files : AttemptFiles}
    {validation : Lifecycle} {now : Timestamp} {completion : Completion} {attempt : Attempt}
    (h : completeLifecycleAttempt runId id files validation now = .ok completion)
    (hattempt : completion.attempt = .ok attempt) : Ends files attempt := by
  simp only [completeLifecycleAttempt, bind_eq_ok, refuse_eq_ok] at h
  obtain ⟨latest, hread, _, howned, prepared, -, h⟩ := h
  have hstarted : latest.status = .running ∨ latest.status = .cancelling := by
    by_contra hnot
    rw [not_or] at hnot
    exact howned (by simp [hnot.1, hnot.2])
  have hactive : latest.status.active = true := by
    rcases hstarted with hst | hst <;> simp [hst, Status.active]
  split at h
  · simp only [bind_eq_ok, contract_eq_ok, pure_eq_ok] at h
    obtain ⟨cancelling, hcancelling, rfl⟩ := h
    obtain rfl := Except.ok.inj hattempt
    exact .of_cancelling hread (normalizeValidationAttempt_status hcancelling) hstarted
  · simp only [bind_eq_ok, contract_eq_ok, pure_eq_ok] at h
    obtain ⟨reported, hreported, result, hresult, rfl⟩ := h
    apply Ends.of_end hread hactive
    rw [normalizeValidationAttempt_status hattempt]
    simp only [cancelledResult] at hresult
    split at hresult
    · exact normalizeValidationResult_ended hresult
    · obtain rfl := Except.ok.inj hresult
      exact normalizeValidationResult_ended hreported

theorem recoverAttempt_ends {runId id : String} {files : AttemptFiles} {absent : Bool}
    {now : Timestamp} {attempt : Attempt}
    (h : recoverAttempt runId id files absent now = .ok (some attempt)) : Ends files attempt := by
  simp only [recoverAttempt, bind_eq_ok] at h
  obtain ⟨latest, hloaded, h⟩ := h
  have hread := read_of_loaded hloaded
  split at h
  next hstarted =>
    simp only [bind_eq_ok, map_eq_ok, contract_eq_ok] at h
    obtain ⟨_, -, prepared, -, _, -, _, -, a, ha, heq⟩ := h
    obtain rfl := Option.some.inj heq
    apply Ends.of_end hread
    · rcases hstarted with hst | hst <;> simp [hst, Status.active]
    · unfold recoveredAttempt at ha
      split at ha
      · rw [terminalAttempt_status ha]
        rfl
      · split at ha
        · rw [terminalAttempt_status ha]
          rfl
        · rw [terminalAttempt_status ha]
          rfl
  · simp [pure_eq_ok] at h

end DebBuilder.Validation
