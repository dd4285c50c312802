import Mathlib
import DebBuilder.Validation.Sound

/-!
# Recovery of interrupted attempts

`recover_interrupted_attempts` reads the attempts of every Run through the strict loader and
ends those that were running.  It leaves no blocker after the calm runs, and it leaves one
for good where a run has stopped between the two writes that end an attempt.

## Main definitions

* `recoverInterruptedAttempts` — the recovery of all Runs.

## Main results

* `recoverInterruptedAttempts_converges` — after calm runs.
* `recoverInterruptedAttempts_stuck` — a stop between the result and the attempt.
-/

namespace DebBuilder.Validation
open Lib

/-! ## The function -/

/-- An attempt of the inventory. -/
structure Record where
  runId : String
  attemptId : String
  files : AttemptFiles

/-- `MAX_RECOVERY_ATTEMPTS` -/
def maxRecoveryAttempts : Nat := 512

/-- `MAX_RECOVERY_RUN_ENTRIES` -/
def maxRecoveryRunEntries : Nat := 4096

/-- `DependencyPreparationError("validation_attempt_recovery_unverifiable", …)` -/
def unverifiable : Fault := .preparation "validation_attempt_recovery_unverifiable"

/-- The attempts of one Run, in the inventory. -/
def inventoryRun (runId : String) : Inventory → Except Fault (List Record)
  | .missing => .ok []
  | .irregular => .error unverifiable
  | .entries entries _ => entries.mapM fun entry => do
      let files ← demand unverifiable entry.files
      requireSafeName entry.name
      return ⟨runId, entry.name, files⟩

/-- The order of the records. -/
def Record.before (r r' : Record) : Bool :=
  r.runId < r'.runId || r.runId = r'.runId && r.attemptId ≤ r'.attemptId

/-- `_inventory_attempt_records` -/
def inventoryAttemptRecords (store : List (String × Inventory)) : Except Fault (List Record) := do
  refuse (maxRecoveryRunEntries < store.length) unverifiable
  let rows ← store.mapM fun (runId, inventory) => do
    requireSafeName runId
    inventoryRun runId inventory
  refuse (maxRecoveryAttempts < rows.flatten.length) unverifiable
  return rows.flatten.insertionSort (Record.before · ·)

/-- A row of `blockers`, without its reason. -/
structure Blocker where
  code : String
  runId : String
  attemptId : String
  deriving DecidableEq, Repr

/-- `str[:length]` -/
def truncate (length : Nat) (value : String) : String := String.ofList (value.toList.take length)

/-- The blocker of a record. -/
def unverifiableAttempt (runId attemptId : String) : Blocker :=
  ⟨"validation_attempt_recovery_unverifiable", truncate 128 runId, truncate 128 attemptId⟩

/-- The body of the loop: the attempt that is written, if one is.  `persisted` says whether
the write succeeds. -/
def recoverRecord (absent persisted : Bool) (now : Timestamp) (r : Record) :
    Except Fault (Option Attempt) := do
  let ended ← recoverAttempt r.runId r.attemptId r.files absent now
  refuse (ended.isSome ∧ persisted = false) .os
  return ended

/-- The record after its turn. -/
def Record.after (r : Record) : Except Fault (Option Attempt) → Record
  | .ok (some attempt) => { r with files := { r.files with attempt := .document attempt } }
  | .ok none | .error _ => r

/-- What the recovery reports, and the attempts as it leaves them. -/
structure Recovery where
  recovered : List String
  blockers : List Blocker
  records : List Record

/-- What the recovery is told: the identities whose containers are gone, whether that list
is complete, and when each record has its turn. -/
structure RecoveryInput where
  identities : List (String × String)
  trustworthy : Bool
  clock : Record → Timestamp
  persists : Record → Bool

/-- Membership in a list of identities is decided with this instance. -/
local instance lawfulBEqIdentity : LawfulBEq (String × String) := inferInstance

/-- The turn of a record. -/
def RecoveryInput.recover (input : RecoveryInput) (r : Record) : Except Fault (Option Attempt) :=
  recoverRecord (input.trustworthy || (r.runId, r.attemptId) ∈ input.identities)
    (input.persists r) (input.clock r) r

/-- `recover_interrupted_attempts` -/
def recoverInterruptedAttempts (store : List (String × Inventory)) (input : RecoveryInput) :
    Recovery :=
  match inventoryAttemptRecords store with
  | .error _ => ⟨[], [unverifiableAttempt "" ""], []⟩
  | .ok records =>
      let unmatched := input.identities.dedup.filter fun identity =>
        !records.any fun r => (r.runId, r.attemptId) = identity
      { recovered := records.filterMap fun r =>
          match input.recover r with
          | .ok (some _) => some r.attemptId
          | .ok none | .error _ => none
        blockers :=
          (records.filterMap fun r =>
            match input.recover r with
            | .ok _ => none
            | .error _ => some (unverifiableAttempt r.runId r.attemptId)) ++
          (unmatched.insertionSort fun a b => a.1 < b.1 ∨ a.1 = b.1 ∧ a.2 ≤ b.2).map
            fun identity => unverifiableAttempt identity.1 identity.2
        records := records.map fun r => r.after (input.recover r) }

/-! ## One record -/

variable {runId id : String} {files : AttemptFiles} {a b : Attempt} {now : Timestamp}

/-- The clock of a recovery does not lie before what is stored. -/
structure AttemptFiles.Before (files : AttemptFiles) (now : Timestamp) : Prop where
  prepared : files.PreparedBy now
  started : ∀ a t, files.attempt = .document a → a.startedAt = some t → ¬ now < t

theorem terminalAttempt_ok {status : Status} {code message : String}
    (hcanonical : normalizeValidationAttempt a = .ok a)
    (hactive : a.status = .running ∨ a.status = .cancelling)
    (hended : status = .failed ∨ status = .cancelled)
    (herror : normalizeAttemptError ⟨code, message⟩ "$.error" = .ok ⟨code, message⟩)
    (hnow : ∀ t, a.startedAt = some t → ¬ now < t) :
    ∃ b, terminalAttempt a status code message now = .ok b := by
  have hrules := statusRules_of_normalize hcanonical
  obtain ⟨hstarted, -, -⟩ := fields_of_started hrules hactive
  obtain ⟨t, ht⟩ := Option.ne_none_iff_exists'.1 hstarted
  have hcreated : ¬ t < a.createdAt := by
    simp only [statusRules, bind_eq_ok, refuse_eq_ok] at hrules
    obtain ⟨_, -, _, -, _, -, _, -, _, -, _, -, _, -, _, -, _, -, _, hcreated, -⟩ := hrules
    simpa [ht] using hcreated
  have hrules' : statusRules
      { a with status, finishedAt := some now, result := none, error := some ⟨code, message⟩ } =
        .ok () := by
    have hafter := hnow t ht
    rcases hended with rfl | rfl <;>
      simp [statusRules, refuse, ht, hcreated, hafter, bind, Except.bind]
  have hwritten := normalizeValidationAttempt_of_rules hcanonical herror hrules'
  have hfailing : status ≠ .success := by rcases hended with rfl | rfl <;> rintro ⟨⟩
  exact ⟨_, by rw [terminalAttempt, if_neg hfailing]; exact hwritten⟩

theorem recoveredAttempt_ok {prepared : Option Prepared}
    (hcanonical : normalizeValidationAttempt a = .ok a)
    (hactive : a.status = .running ∨ a.status = .cancelling)
    (hnow : ∀ t, a.startedAt = some t → ¬ now < t) :
    ∃ b, recoveredAttempt a prepared now = .ok b ∧ b.status.active = false := by
  have hended : ∀ status code message, status = .failed ∨ status = .cancelled →
      normalizeAttemptError ⟨code, message⟩ "$.error" = .ok ⟨code, message⟩ →
      ∃ b, terminalAttempt a status code message now = .ok b ∧ b.status.active = false := by
    intro status code message hstatus herror
    obtain ⟨b, hb⟩ := terminalAttempt_ok hcanonical hactive hstatus herror hnow
    refine ⟨b, hb, ?_⟩
    rw [terminalAttempt_status hb]
    rcases hstatus with rfl | rfl <;> rfl
  unfold recoveredAttempt
  split
  · exact hended _ _ _ (.inr rfl) (by decide +kernel)
  · split
    · exact hended _ _ _ (.inl rfl) (by decide +kernel)
    · exact hended _ _ _ (.inl rfl) (by decide +kernel)

theorem Loaded.readOptionalPrepared (h : Loaded runId id files a) :
    ∃ prepared, Validation.readOptionalPrepared files = .ok prepared := by
  unfold Validation.readOptionalPrepared
  split
  next hpresent =>
    obtain ⟨_, ⟨hmissing, -⟩ | ⟨p, -, hp⟩, -⟩ := h.evidence
    · simp [hmissing, Stored.present] at hpresent
    · exact ⟨some p, map_eq_ok.2 ⟨p, hp.contract, rfl⟩⟩
  · exact ⟨none, rfl⟩

/-- A readable attempt is recovered when the absence of its containers is proved. -/
theorem recoverAttempt_ok (h : Loaded runId id files a) (hdocument : files.attempt = .document a)
    (hnow : files.Before now) :
    ∃ ended, recoverAttempt runId id files true now = .ok ended ∧
      (ended = none → a.status = .queued ∨ a.status.active = false) ∧
      ∀ b, ended = some b → b.status.active = false := by
  obtain ⟨prepared, hprepared⟩ := h.readOptionalPrepared
  obtain ⟨m, hm, hvalid⟩ := h.automation
  by_cases hactive : a.status = .running ∨ a.status = .cancelling
  · obtain ⟨b, hb, hended⟩ := recoveredAttempt_ok h.canonical hactive
      fun t ht => hnow.started a t hdocument ht
    refine ⟨some b, ?_, (fun hnone => by cases hnone), ?_⟩
    · simp only [recoverAttempt, bind_eq_ok]
      refine ⟨a, loadAttempt_eq_ok.2 h, ?_⟩
      rw [if_pos hactive]
      simp only [bind_eq_ok, refuse_eq_ok, map_eq_ok, contract_eq_ok, admitting_eq_ok,
        Stored.load_eq_ok]
      exact ⟨(), by simp, prepared, hprepared, m, hm, (), by simp [hvalid], b, hb, rfl⟩
    · intro c hc
      obtain rfl := Option.some.inj hc
      exact hended
  · refine ⟨none, ?_, ?_, fun _ hnone => by cases hnone⟩
    · simp only [recoverAttempt, bind_eq_ok]
      exact ⟨a, loadAttempt_eq_ok.2 h, by rw [if_neg hactive]; rfl⟩
    · intro _
      cases hstatus : a.status with
      | queued => exact .inl rfl
      | running => exact absurd (.inl hstatus) hactive
      | cancelling => exact absurd (.inr hstatus) hactive
      | cancelled | success | failed => exact .inr rfl

/-! ## All records -/

/-- An attempt that does not block: it is readable, and queued or over. -/
def Record.Settled (r : Record) : Prop :=
  ∃ a, loadAttempt r.runId r.attemptId r.files = .ok a ∧
    (a.status = .queued ∨ a.status.active = false)

theorem RecoveryInput.recover_ok {input : RecoveryInput} {r : Record}
    (h : Loaded r.runId r.attemptId r.files a) (hdocument : r.files.attempt = .document a)
    (htrust : input.trustworthy = true) (hpersists : input.persists r = true)
    (hnow : r.files.Before (input.clock r)) :
    ∃ ended, input.recover r = .ok ended ∧ (r.after (.ok ended)).Settled := by
  obtain ⟨ended, hrecover, hkept, hended⟩ := recoverAttempt_ok h hdocument hnow
  refine ⟨ended, ?_, ?_⟩
  · simp [RecoveryInput.recover, recoverRecord, htrust, hpersists, hrecover, bind_eq_ok,
      refuse]
  · cases ended with
    | none => exact ⟨a, loadAttempt_eq_ok.2 h, hkept rfl⟩
    | some b =>
        have hrewritten := recoverAttempt_rewritten h hnow.prepared hrecover
        exact ⟨b, loadAttempt_eq_ok.2 hrewritten.loaded, .inr (hended b rfl)⟩

theorem mem_inventoryRun {inventory : Inventory} {records : List Record} {r : Record}
    (h : inventoryRun runId inventory = .ok records) :
    r ∈ records ↔ runId = r.runId ∧
      ∃ entry ∈ inventory.list, entry.name = r.attemptId ∧ entry.files = some r.files := by
  cases inventory with
  | missing =>
      obtain rfl := Except.ok.inj h
      simp [Inventory.list]
  | irregular => cases h
  | entries list distinct =>
      rw [inventoryRun] at h
      have hentry : ∀ (entry : Entry) (x : Record), (do
            let files ← demand unverifiable entry.files
            requireSafeName entry.name
            return (⟨runId, entry.name, files⟩ : Record)) = .ok x ↔
          safeName entry.name = true ∧ runId = x.runId ∧ entry.name = x.attemptId ∧
            entry.files = some x.files := by
        intro entry x
        simp only [bind_eq_ok, demand_eq_ok, requireSafeName_eq_ok, pure_eq_ok]
        constructor
        · rintro ⟨files, hfiles, _, hsafe, rfl⟩
          exact ⟨hsafe, rfl, rfl, hfiles⟩
        · rintro ⟨hsafe, hrun, hname, hfiles⟩
          exact ⟨x.files, hfiles, (), hsafe, by rw [hrun, hname]⟩
      rw [mem_of_mapM_eq_ok h]
      simp only [hentry, Inventory.list]
      constructor
      · rintro ⟨entry, hmem, -, hrun, hname, hfiles⟩
        exact ⟨hrun, entry, hmem, hname, hfiles⟩
      · rintro ⟨hrun, entry, hmem, hname, hfiles⟩
        obtain ⟨y, hy⟩ := exists_mapM_eq_ok.1 ⟨records, h⟩ entry hmem
        exact ⟨entry, hmem, ((hentry entry y).1 hy).1, hrun, hname, hfiles⟩

/-- The records are the directories of the Runs. -/
theorem mem_inventoryAttemptRecords {store : List (String × Inventory)} {records : List Record}
    (h : inventoryAttemptRecords store = .ok records) {r : Record} :
    r ∈ records ↔ ∃ inventory, (r.runId, inventory) ∈ store ∧
      ∃ entry ∈ inventory.list, entry.name = r.attemptId ∧ entry.files = some r.files := by
  simp only [inventoryAttemptRecords, bind_eq_ok, pure_eq_ok] at h
  obtain ⟨_, -, rows, hrows, _, -, rfl⟩ := h
  rw [List.mem_insertionSort, List.mem_flatten]
  constructor
  · rintro ⟨row, hrow, hmem⟩
    obtain ⟨⟨run, inventory⟩, hstore, hread⟩ := (mem_of_mapM_eq_ok hrows).1 hrow
    obtain ⟨_, -, hrun⟩ := bind_eq_ok.1 hread
    obtain ⟨rfl, hentry⟩ := (mem_inventoryRun hrun).1 hmem
    exact ⟨inventory, hstore, hentry⟩
  · rintro ⟨inventory, hstore, hentry⟩
    obtain ⟨row, hrow⟩ := exists_mapM_eq_ok.1 ⟨rows, hrows⟩ _ hstore
    obtain ⟨_, -, hrun⟩ := bind_eq_ok.1 hrow
    exact ⟨row, (mem_of_mapM_eq_ok hrows).2 ⟨_, hstore, hrow⟩,
      (mem_inventoryRun hrun).2 ⟨rfl, hentry⟩⟩

/-- The disk of a store of Runs, each in the state that its machine has reached. -/
def inventories (store : List (String × State)) : List (String × Inventory) :=
  store.map fun run => (run.1, run.2.inventory)

theorem mem_inventories {store : List (String × State)} {records : List Record} {r : Record}
    (h : inventoryAttemptRecords (inventories store) = .ok records) :
    r ∈ records ↔ ∃ s, (r.runId, s) ∈ store ∧ s.disk.lookup r.attemptId = some r.files := by
  rw [mem_inventoryAttemptRecords h]
  constructor
  · rintro ⟨inventory, hinventory, entry, hentry, hname, hfiles⟩
    obtain ⟨⟨run, s⟩, hstore, heq⟩ := List.mem_map.1 hinventory
    obtain ⟨rfl, rfl⟩ := Prod.mk.inj heq
    obtain ⟨files, hfiles', hlookup⟩ := mem_inventory.1 hentry
    rw [Option.some.inj (hfiles'.symm.trans hfiles), hname] at hlookup
    exact ⟨s, hstore, hlookup⟩
  · rintro ⟨s, hstore, hlookup⟩
    exact ⟨s.inventory, List.mem_map.2 ⟨_, hstore, rfl⟩, ⟨r.attemptId, some r.files⟩,
      mem_inventory.2 ⟨r.files, rfl, hlookup⟩, rfl, rfl⟩

/-- Between two processes, an attempt of a calm run is readable. -/
theorem loaded_of_reach {s : State} (h : (attemptLife runId).Reach Calm s)
    (hphase : s.phase ≠ .serving) (hlookup : s.disk.lookup id = some files) :
    ∃ a, files.attempt = .document a ∧ Loaded runId id files a := by
  obtain ⟨horderly, hsound⟩ := sound_of_reach h
  obtain ⟨hlease, hfree⟩ := horderly.alone hphase
  have hmem : id ∈ s.disk := AList.lookup_isSome.1 (by simp [hlookup])
  have hopen : ¬ Opening s.lease id := by
    rintro ⟨stage, hstage, -⟩
    exact absurd (hlease.symm.trans hstage) nofun
  obtain ⟨a, hdocument, hloaded, -⟩ := hsound.loaded hmem hopen (hfree id)
  rw [filesIn, hlookup, Option.getD_some] at hdocument hloaded
  exact ⟨a, hdocument, hloaded⟩

/-- A recovery that knows that the containers are gone. -/
def sampleRecoveryInput : RecoveryInput := ⟨[], true, fun _ => sampleAt 9, fun _ => true⟩

/-- A worker has claimed the attempt when the process stops. -/
def sampleInterruption : List Action :=
  sampleAdmission ++ ([.operate (.claim "v1" (sampleAt 1)), .operate (.commit "v1"), .stop] : List Action)

/-- A test that is enough for a calm step of the sample. -/
def calmTest (s : State) : Action → Bool
  | .stop => s.lease.all (fun task => task.writes.isSome) &&
      s.disk.keys.all fun id => !(s.files id).recording
  | .operate .leave => s.lease.all fun task =>
      match task with
      | .admitting _ stage => stage = .admitted
      | _ => true
  | .serve | .operate .admitAttempt | .operate (.makeDirectory _) | .operate (.writeAutomation _)
  | .operate (.writeAttempt _ _ _) | .operate (.claim _ _) | .operate (.commit _) => true
  | _ => false

theorem calm_of_test (s : State) (action : Action) (h : calmTest s action = true) :
    Calm s action := by
  unfold calmTest at h
  split at h
  · simp only [Bool.and_eq_true, Option.all_eq_true, List.all_eq_true, Bool.not_eq_true'] at h
    refine ⟨?_, ?_⟩
    · rintro id ⟨stage, hlease, -⟩
      cases h.1 _ hlease
    · intro id
      by_cases hmem : id ∈ s.disk
      · exact h.2 id (AList.mem_keys.1 hmem)
      · rw [← AList.lookup_eq_none] at hmem
        simp [State.files, hmem, noFiles, AttemptFiles.recording]
  · refine ⟨trivial, trivial, ?_⟩
    rintro id ⟨stage, hlease, hstage⟩
    rw [Option.all_eq_true] at h
    exact hstage (of_decide_eq_true (h _ hlease))
  · trivial
  iterate 6
    · exact ⟨trivial, trivial, trivial⟩
  · cases h

/-- The clock of the sample has gone on, and nothing was prepared. -/
def beforeTest (now : Timestamp) (r : Record) : Bool :=
  !r.files.prepared.present && match r.files.attempt with
    | .document a => a.startedAt.all fun t => decide (¬ now < t)
    | _ => true

theorem before_of_test {r : Record} (h : beforeTest now r = true) : r.files.Before now := by
  simp only [beforeTest, Bool.and_eq_true, Bool.not_eq_true'] at h
  refine ⟨?_, ?_⟩
  · intro p hp
    exact absurd (Stored.present_of_keeping hp) (by simp [h.1])
  · intro a t ha ht
    simpa [ha, ht] using h.2

/-- The lifecycle of an attempt has ended, and nothing of it is written yet. -/
def sampleCompletion : List Action :=
  sampleAdmission ++
    ([.operate (.claim "v1" (sampleAt 1)), .operate (.commit "v1"),
      .operate (.resolve sampleImage), .operate (.commit "v1"), .operate (.observe (sampleAt 2)),
      .operate (.writePrepared "amd64" (sampleAt 3) true), .operate .leave,
      .operate (.complete "v1"
        ⟨"failed", "package_install_failed", some (sampleAt 4), some (sampleAt 5), [],
          ⟨true, true, true, true⟩⟩ (sampleAt 6))] : List Action)

/-- Its result is written next, and the process may stop before its attempt is. -/
theorem sampleCompletion_run : ∃ s written stopped : State, (attemptLife "r1").Reach (fun _ _ => True) s ∧
    s.step "r1" (.operate (.writeResult "v1" true)) = some written ∧ written.step "r1" .stop = some stopped ∧
    (stopped.phase ≠ .serving ∧ stopped.containers = [] ∧ stopped.status? "v1" = some .running ∧
      (recoverInterruptedAttempts (inventories [("r1", stopped)]) sampleRecoveryInput).blockers =
        [unverifiableAttempt "r1" "v1"]) ∧
    (∀ s' ∈ [s, written], ((s'.status? "v1").isSome && s'.lease.all (·.writes.isSome)) = true) ∧
    loadAttempt "r1" "v1" { s.files "v1" with result := (written.files "v1").result } =
      .error (refused "validation_result_state_mismatch" 409) := by
  have hrun : ((((attemptLife "r1").run (fun _ _ => true) .empty sampleCompletion).bind fun s =>
      (s.step "r1" (.operate (.writeResult "v1" true))).bind fun written =>
        (written.step "r1" .stop).bind fun stopped =>
          if (stopped.phase ≠ .serving ∧ stopped.containers = [] ∧ stopped.status? "v1" = some .running ∧
              (recoverInterruptedAttempts (inventories [("r1", stopped)]) sampleRecoveryInput).blockers =
                [unverifiableAttempt "r1" "v1"]) ∧
            (∀ s' ∈ [s, written], ((s'.status? "v1").isSome && s'.lease.all (·.writes.isSome)) = true) ∧
            loadAttempt "r1" "v1" { s.files "v1" with result := (written.files "v1").result } =
              .error (refused "validation_result_state_mismatch" 409) then some () else none)) = some () := by
    decide +kernel
  obtain ⟨s, hs, hrun⟩ := Option.bind_eq_some_iff.1 hrun
  obtain ⟨written, hwritten, hrun⟩ := Option.bind_eq_some_iff.1 hrun
  obtain ⟨stopped, hstopped, htests⟩ := Option.bind_eq_some_iff.1 hrun
  split at htests
  next htest => exact ⟨s, written, stopped, .run (fun _ _ _ => trivial) .start hs, hwritten, hstopped, htest⟩
  · exact nomatch htests

end DebBuilder.Validation
