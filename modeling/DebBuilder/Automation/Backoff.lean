import Mathlib
import DebBuilder.Automation.Guarantees
import DebBuilder.Lib.Angelic

/-!
# How long a generation can wait

Which writes of the orchestrator the ledger accepts, and the run in which it rejects one:
`_admit_run` retries a refused admission without a limit, and the counter of a row has one.

## Main results

* `writes_accepted_iff` — the condition under which a write is accepted.
* `not_writes_accepted` — the ledger rejects the write after a thousand refusals.
-/

namespace DebBuilder.Automation
open Function Lib

/-! ## A generation whose admission is refused -/

/-- The generation after `n` refusals. -/
def refusedRow (n : Nat) : Row :=
  { newGeneration .build 5 0 10 with
    state := .retryDelayed, updatedAt := 22, preallocatedRunId := some "run-1"
    terminalClassification := some .transientRetryable, retryClass := .transient, retryCount := n
    notBefore := some (delay 22 n), lastErrorCode := some "storage_pressure_admission_blocked"
    diagnostic := some "run_admission_delayed", stage := .runAdmission, runRetryCount := n }

def sampleAttempt : Attempt :=
  ⟨(sampleSlot "v1").1, "demo", sampleSha256, sampleIdentity "v1"⟩

/-- The storage guard has refused the admission `n` times. -/
structure Refused (n : Nat) (s : State sampleConfig) : Prop where
  attempts : s.ledger.attempts = [⟨sampleAttempt, [refusedRow n]⟩]
  store : s.store "run-1" = .absent
  recipe : s.recipes "demo" = some (sampleRecipe .build)

theorem Refused.withLocks {n : Nat} {s : State sampleConfig} (h : Refused n s)
    (locks : Slot → Bool) : Refused n { s with locks } := ⟨h.attempts, h.store, h.recipe⟩

/-- The storage guard refuses one more time. -/
def storagePressure : Fault := .coded "storage_pressure_admission_blocked"

/-- The lock is free again. -/
def unlocked (s : State sampleConfig) : State sampleConfig :=
  { s with locks := update s.locks (sampleSlot "v1") false }

/-- What is asked of the ledger after a refusal. -/
def refusedRequest (n : Nat) : Request :=
  .finish .transientRetryable .transient (n + 1) (some (delay 22 (n + 1)))
    (some "storage_pressure_admission_blocked") (some "run_admission_delayed")

theorem delay_le (clock : Time) (n : Nat) : delay clock n ≤ clock + 900000000 := by
  have : min maxRetrySeconds (minRetrySeconds * 2 ^ (n - 1)) ≤ 900 := Nat.min_le_left _ _
  unfold delay
  exact Nat.add_le_add_left (Nat.mul_le_mul_left 1000000 this) clock

section
variable {n : Nat} {s : State sampleConfig} {Q : State sampleConfig → Prop}

/-- The storage guard refuses the Run before anything is created. -/
theorem can_enqueueRun (hstore : s.store "run-1" = .absent) {recipe : Recipe} {mode : RunMode}
    {origin : Origin} {automation : RunAutomation} {callback : RunId → Code sampleConfig Row}
    {Q : Except Fault Unit → State sampleConfig → Prop} (hQ : Q (.error storagePressure) s) :
    (enqueueRun "run-1" recipe mode origin automation callback).Can Q s := by
  unfold enqueueRun
  refine Prog.can_bind.2 (Prog.can_look {} ?_)
  refine Prog.can_bind.2 (Prog.can_look {} ?_)
  simp only [Choice.read, hstore, Workspace.doc?]
  exact Prog.can_bind.2 (Prog.can_look { fault := some storagePressure } hQ)

/-- The preallocated Run is looked for, and there is none. -/
theorem can_claimRun (h : Refused n s) {Q : Except Fault Row → State sampleConfig → Prop}
    (hQ : Q (.ok (refusedRow n)) s) :
    (claimRun ⟨sampleAttempt, [refusedRow n]⟩ (refusedRow n)).Can Q s := by
  have hrow : findRow s.ledger.attempts (sampleAttempt.key, 0) =
      some (sampleAttempt, refusedRow n) := by
    rw [h.attempts]
    rfl
  unfold claimRun
  rw [if_neg (by simp [refusedRow])]
  refine Prog.can_bind.2 (Prog.can_bind.2 (Prog.can_look {} ?_))
  rw [show (refusedRow n).generation = 0 from rfl]
  simp only [Choice.read, hrow]
  refine Prog.can_bind.2 (Prog.can_bind.2 (Prog.can_attempt.2 (Prog.can_look {} ?_)))
  simp only [Choice.read, h.store, Workspace.doc?]
  refine Prog.can_bind.2 (Prog.can_act {} ?_)
  simp only [State.discard, Store.discardIncompleteCreation, h.store, if_true]
  exact hQ

/-- The rest of the admission, up to the request for the next row. -/
theorem can_admitRecipe (h : Refused n s) {handler : Entry → Row → Code sampleConfig Unit} {recipe : Recipe}
    {Q : Except Fault Unit → State sampleConfig → Prop}
    (hQ : (scheduleRetry ⟨sampleAttempt, [refusedRow n]⟩ (refusedRow n)
      "storage_pressure_admission_blocked" "run_admission_delayed").Can Q s) :
    (admitRecipe handler ⟨sampleAttempt, [refusedRow n]⟩ (refusedRow n) recipe false).Can Q s := by
  have hlive : (s.recipes sampleAttempt.recipeId).filter (·.name = sampleAttempt.recipeId) =
      some (sampleRecipe .build) := by
    rw [show sampleAttempt.recipeId = "demo" from rfl, h.recipe]
    rfl
  unfold admitRecipe
  refine Prog.can_bind.2 (Prog.can_attempt.2 (Prog.can_act {} ?_))
  rw [if_pos (by simp [refusedRow])]
  refine Prog.can_bind.2 (Prog.can_attempt.2 (can_claimRun h ?_))
  refine Prog.can_bind.2 (Prog.can_attempt.2 ?_)
  unfold enqueueClaimed
  refine Prog.can_bind.2 (Prog.can_look {} ?_)
  simp only [hlive]
  refine Prog.can_bind.2 (Prog.can_look {} ?_)
  refine Prog.can_bind.2 (can_enqueueRun h.store ?_)
  refine Prog.can_bind.2 (Prog.can_look {} ?_)
  exact Prog.can_bind.2 (Prog.can_look {} hQ)
/-- A generation that was refused is due after a while, and is refused again. -/
theorem can_advanceLocked (h : Refused n s) {Q : Except Fault Unit → State sampleConfig → Prop}
    (hQ : (scheduleRetry ⟨sampleAttempt, [refusedRow n]⟩ (refusedRow n)
      "storage_pressure_admission_blocked" "run_admission_delayed").Can Q s) :
    (advanceLocked 3 (sampleSlot "v1")).Can Q s := by
  have hdue : retryDue (refusedRow n) 10000000000 = true := by
    have hle : delay 22 n ≤ 10000000000 := Nat.le_trans (delay_le 22 n) (by decide)
    simp [retryDue, refusedRow, hle]
  have hturn : isRecipeTurn [⟨sampleAttempt, [refusedRow n]⟩] (refusedRow n) sampleAttempt = true := by
    simp [isRecipeTurn, turnBefore_irrefl, refusedRow, newGeneration]
  have hlive : (s.recipes sampleAttempt.recipeId).filter (·.name = sampleAttempt.recipeId) =
      some (sampleRecipe .build) := by
    rw [show sampleAttempt.recipeId = "demo" from rfl, h.recipe]
    rfl
  have hauthorized : initialAuthorized sampleAttempt (refusedRow n) (some (sampleRecipe .build)) =
      true := rfl
  unfold advanceLocked
  refine Prog.can_bind.2 (Prog.can_look {} ?_)
  simp only [Choice.read, h.attempts]
  rw [show findEntry [⟨sampleAttempt, [refusedRow n]⟩] (sampleSlot "v1").1 =
      some ⟨sampleAttempt, [refusedRow n]⟩ from rfl,
    show findRow [⟨sampleAttempt, [refusedRow n]⟩] (sampleSlot "v1") =
      some (sampleAttempt, refusedRow n) from rfl]
  refine Prog.can_bind.2 (Prog.can_look { clock := 10000000000 } ?_)
  simp only []
  have hstopped : (refusedRow n).state.stopped = false := rfl
  rw [if_neg (by simp [hdue, hturn, hstopped])]
  unfold dispatch
  rw [if_neg (by simp [refusedRow, newGeneration])]
  refine Prog.can_bind.2 (Prog.can_look {} ?_)
  simp only [hlive]
  unfold admitRun
  refine Prog.can_bind.2 (Prog.can_look {} ?_)
  simp only [hauthorized, if_true]
  rw [if_neg (by simp), if_neg (by simp)]
  refine Prog.can_bind.2 ?_
  exact can_admitRecipe h hQ
end

theorem answer_refused (n : Nat) (load : RunId → Option (Option Run)) :
    (refusedRequest n).answer 22 load sampleAttempt (refusedRow n) =
      .ok (.write (refusedRow (n + 1))) := rfl

/-- The request for the next row. -/
theorem can_scheduleRetry {n : Nat} {s s' : State sampleConfig} {r : Except Fault Row}
    (hask : s.ask { now := 22, clock := 22 } (sampleSlot "v1") (refusedRow n) (refusedRequest n) =
      (r, s')) {Q : Except Fault Unit → State sampleConfig → Prop} (hQ : Q (r.map fun _ => ()) s') :
    (scheduleRetry ⟨sampleAttempt, [refusedRow n]⟩ (refusedRow n)
      "storage_pressure_admission_blocked" "run_admission_delayed").Can Q s := by
  refine Prog.can_bind.2 (Prog.can_act_of_eq { now := 22, clock := 22 } hask ?_)
  cases r with
  | ok row => exact hQ
  | error f => exact hQ

/-- One more refusal: the orchestrator asks the ledger for the next row, and passes over
an error of the ledger. -/
theorem Refused.advance {n : Nat} {s : State sampleConfig} (h : Refused n s)
    (hlock : s.locks (sampleSlot "v1") = false) {Q : State sampleConfig → Prop}
    (hQ : ∀ s', Refused n s' → ∃ r s'', s'.ask { now := 22, clock := 22 } (sampleSlot "v1")
      (refusedRow n) (refusedRequest n) = (r, s'') ∧ (∀ f, r = .error f → ∃ e, f = .ledger e) ∧
        Q (unlocked s'')) :
    (advance 3 (sampleSlot "v1") : Code sampleConfig Unit).Can (fun _ => Q) s := by
  unfold Automation.advance acquire
  refine Prog.can_bind.2 (Prog.can_act {} ?_)
  simp only [hlock, Bool.not_false, if_true]
  refine Prog.can_ensuring.2 (Prog.can_handle.2 ?_)
  have hlocked := h.withLocks (update s.locks (sampleSlot "v1") true)
  obtain ⟨r, s'', hask, herror, hs⟩ := hQ _ hlocked
  refine can_advanceLocked hlocked (can_scheduleRetry hask ?_)
  cases r with
  | ok row => exact Prog.can_act {} hs
  | error f =>
      obtain ⟨e, rfl⟩ := herror f rfl
      exact Prog.can_act {} hs

section
variable {n : Nat} {s : State sampleConfig} (h : Refused n s)
include h

theorem Refused.row? : s.row? (sampleSlot "v1") = some (sampleAttempt, refusedRow n) := by
  unfold State.row?
  rw [h.attempts]
  rfl

theorem Refused.putRow (row : Row) :
    putRow s.ledger.attempts (sampleSlot "v1") row = [⟨sampleAttempt, [row]⟩] := by
  rw [h.attempts]
  rfl

/-- The next row is valid as long as its counter has room. -/
theorem Refused.next_valid : (refusedRow (n + 1)).Valid 0 ↔ n < maxRetryCount := by
  have hrow : (refusedRow n).Valid 0 := s.ledger.row_valid h.row?
  exact (hrow.retry rfl (by decide)).trans (and_iff_left (by decide))

/-- A refusal that the counter has room for is recorded. -/
theorem Refused.ask (hn : n < maxRetryCount) :
    ∃ row s', s.ask { now := 22, clock := 22 } (sampleSlot "v1") (refusedRow n) (refusedRequest n) =
      (.ok row, s') ∧ Refused (n + 1) s' := by
  have hbytes (row : Row) : sampleConfig.encodedBytes [⟨sampleAttempt, [row]⟩] ≤ maxLedgerBytes :=
    Nat.le_of_ble_eq_true rfl
  have hsave := (s.ledger.save_putRow _ h.row?).2 ⟨h.next_valid.2 hn, by rw [h.putRow]; exact hbytes _⟩
  cases hl : Ledger.save sampleConfig (Automation.putRow s.ledger.attempts (sampleSlot "v1")
      (refusedRow (n + 1))) with
  | error e => simp [hl, Except.isOk, Except.toBool] at hsave
  | ok ledger =>
      have hanswer : s.ask { now := 22, clock := 22 } (sampleSlot "v1") (refusedRow n)
          (refusedRequest n) = (.ok (refusedRow (n + 1)), { s with
            ledger
            issued := ⟨sampleSlot "v1", refusedRow n, refusedRequest n,
              Automation.putRow s.ledger.attempts (sampleSlot "v1") (refusedRow (n + 1)), true⟩ ::
                s.issued }) := by
        unfold State.ask
        simp only [h.row?, answer_refused, hl]
        rfl
      refine ⟨_, _, hanswer, ?_, h.store, h.recipe⟩
      exact (Ledger.save_eq_ok.1 hl).1.trans (h.putRow _)

/-- A refusal that the counter has no room for is rejected. -/
theorem Refused.ask_full (hn : n = maxRetryCount) :
    ∃ e s', s.ask { now := 22, clock := 22 } (sampleSlot "v1") (refusedRow n) (refusedRequest n) =
      (.error (.ledger e), s') ∧ ∃ i ∈ s'.issued, i.accepted = false := by
  have hsave := mt (s.ledger.save_putRow _ h.row?).1 fun hvalid =>
    Nat.lt_irrefl _ (hn ▸ h.next_valid.1 hvalid.1)
  cases hl : Ledger.save sampleConfig (Automation.putRow s.ledger.attempts (sampleSlot "v1")
      (refusedRow (n + 1))) with
  | ok ledger => exact absurd (by rw [hl]; rfl) hsave
  | error e =>
      refine ⟨e, { s with issued := ⟨sampleSlot "v1", refusedRow n, refusedRequest n,
        Automation.putRow s.ledger.attempts (sampleSlot "v1") (refusedRow (n + 1)), false⟩ ::
          s.issued }, ?_, _, List.mem_cons_self, rfl⟩
      unfold State.ask
      simp only [h.row?, answer_refused, hl]
end

/-! ## A thousand refusals -/

/-- A pool whose generation was refused `n` times, and in which names are left. -/
structure RefusedPool (n : Nat) (p : SamplePool) : Prop where
  reachable : Reachable p
  refused : Refused n p.shared
  lock : p.shared.locks (sampleSlot "v1") = false
  free : ∃ bound, ∀ t, bound ≤ t → p.threads t = none

/-- The generation is advanced, and refused for the first time. -/
def sampleFirstRefusal : List (Event Nat Call Choice) :=
  List.flatten [sampleClaim .build, [.spawn 2 (.advance 3 (sampleSlot "v1"))], List.replicate 6 (.exec 2 {}),
    [.exec 2 { now := 21, fresh := "run-1" }], List.replicate 4 (.exec 2 {}),
    [.exec 2 { fault := some storagePressure }], List.replicate 4 (.exec 2 { now := 22, clock := 22 })]

theorem exists_refusedPool_one : ∃ p, RefusedPool 1 p := by
  have h : ((automation sampleConfig).run (Pool.start (State.start sampleConfig) : SamplePool)
      sampleFirstRefusal).any (fun p =>
        decide (p.shared.ledger.attempts = [⟨sampleAttempt, [refusedRow 1]⟩]) &&
        decide (p.shared.store "run-1" = .absent) &&
        decide (p.shared.recipes "demo" = some (sampleRecipe .build)) &&
        !p.shared.locks (sampleSlot "v1")) = true := by
    decide +kernel
  obtain ⟨p, hp, hc⟩ := (Option.any_eq_true ..).1 h
  simp only [Bool.and_eq_true, decide_eq_true_eq, Bool.not_eq_true'] at hc
  obtain ⟨⟨⟨hattempts, hstore⟩, hrecipe⟩, hlock⟩ := hc
  refine ⟨p, System.reaches_of_run hp, ⟨hattempts, hstore, hrecipe⟩, hlock, 3, fun t ht => ?_⟩
  refine System.free_of_run hp rfl fun call hcall => ?_
  simp [sampleFirstRefusal, sampleClaim] at hcall
  omega

theorem RefusedPool.next {n : Nat} {p : SamplePool} (h : RefusedPool n p) (hn : n < maxRetryCount) :
    ∃ q, RefusedPool (n + 1) q := by
  obtain ⟨bound, hfree⟩ := h.free
  have hcan : (advance 3 (sampleSlot "v1") : Code sampleConfig Unit).Can
      (fun _ s => Refused (n + 1) s ∧ s.locks (sampleSlot "v1") = false) p.shared := by
    refine h.refused.advance h.lock fun s hs => ?_
    obtain ⟨row, s', hask, hs'⟩ := hs.ask hn
    exact ⟨_, s', hask, fun f hf => by simp at hf, hs'.withLocks _, by simp [unlocked]⟩
  obtain ⟨q, hq, ⟨-, hrefused, hlock⟩, hothers⟩ := System.exists_of_can (S := automation sampleConfig)
    (.advance 3 (sampleSlot "v1")) (hfree bound (Nat.le_refl bound)) hcan
  refine ⟨q, h.reachable.trans hq, hrefused, hlock, bound + 1, fun t ht => ?_⟩
  rw [hothers t (Nat.ne_of_gt ht)]
  exact hfree t (Nat.le_of_succ_le ht)

theorem exists_refusedPool (n : Nat) (hn : n < maxRetryCount) : ∃ p, RefusedPool (n + 1) p := by
  induction n with
  | zero => exact exists_refusedPool_one
  | succ n ih =>
      obtain ⟨p, hp⟩ := ih (Nat.lt_of_succ_lt hn)
      exact hp.next hn

/-- After a thousand refusals the counter is full: the next one is not recorded. -/
theorem exists_rejected : ∃ p : SamplePool, Reachable p ∧
    ∃ i ∈ p.shared.issued, i.accepted = false := by
  obtain ⟨p, hp⟩ := exists_refusedPool 999 (by decide)
  obtain ⟨bound, hfree⟩ := hp.free
  have hcan : (advance 3 (sampleSlot "v1") : Code sampleConfig Unit).Can
      (fun _ s => ∃ i ∈ s.issued, i.accepted = false) p.shared := by
    refine hp.refused.advance hp.lock fun s hs => ?_
    obtain ⟨e, s', hask, hs'⟩ := hs.ask_full rfl
    exact ⟨_, s', hask, fun f hf => ⟨e, (Except.error.inj hf).symm⟩, hs'⟩
  obtain ⟨q, hq, ⟨-, hissued⟩, -⟩ := System.exists_of_can (S := automation sampleConfig)
    (.advance 3 (sampleSlot "v1")) (hfree bound (Nat.le_refl bound)) hcan
  exact ⟨q, hp.reachable.trans hq, hissued⟩

/-! ## The writes of the orchestrator -/

variable {cfg : Config} {τ : Type} [DecidableEq τ] {p : Pool τ (State cfg) Choice Fault Unit} in
/-- A write of the orchestrator is accepted exactly when it is benign; in a run whose
writes are all benign, all are accepted. -/
theorem writes_accepted_iff (h : Reachable p) :
    (∀ i ∈ p.shared.issued, i.accepted = true ↔ i.Benign cfg) ∧
    ((∀ i ∈ p.shared.issued, i.Benign cfg) → ∀ i ∈ p.shared.issued, i.accepted = true) :=
  ⟨h.inv.issued, fun hbenign i hi => (h.inv.issued i hi).2 (hbenign i hi)⟩

/-- The last write after a thousand refusals is not benign. -/
theorem writes_accepted_iff_refused : ∃ p : SamplePool, ∃ i ∈ p.shared.issued,
    ¬ i.Benign sampleConfig := by
  obtain ⟨p, hp, i, hi, hrejected⟩ := exists_rejected
  refine ⟨p, i, hi, fun hbenign => ?_⟩
  simp [((writes_accepted_iff hp).1 i hi).2 hbenign] at hrejected

theorem not_writes_accepted : ¬ ∀ p : SamplePool, Reachable p →
    ∀ i ∈ p.shared.issued, i.accepted = true := by
  intro h
  obtain ⟨p, hp, i, hi, hrejected⟩ := exists_rejected
  simp [h p hp i hi] at hrejected

end DebBuilder.Automation
