import Mathlib
import DebBuilder.Automation.Guarantees
import DebBuilder.Automation.Readmission
import DebBuilder.Recovery.Naming

/-!
# A crash during the admission of an automated Run

The process dies between the durable preallocation of a Run id and the durable queued
status of that Run, and starts again: startup recovery goes first, and the orchestrator
advances what it finds.

## Main definitions

* `Crash` — what the crash left of the admission.
* `Restart` — the host that finds it.
* `Healed` — what the restart owes to the generation.

## Main statements

* `crash_heals_iff` — when it is owed: not after a crash in the creation of the workspace.
-/

namespace DebBuilder.Recovery
open Lib Function Automation

/-! ## The crash -/

/-- A process that died after it preallocated a Run id and before it queued the Run, at any
point: the Run is not there, or it is as it was created. -/
structure Crash (cfg : Config) where
  pool : Pool Nat (Automation.State cfg) Automation.Choice Fault Unit
  reachable : Reachable pool
  slot : Slot
  attempt : Attempt
  row : Row
  run : RunId
  row_eq : pool.shared.row? slot = some (attempt, row)
  preallocated : row.preallocatedRunId = some run
  unqueued : ∀ doc, pool.shared.store run = .run doc → ∃ recipe mode origin automation now,
    doc = Automation.State.automatedRun run recipe mode origin automation now

/-- What the Runs root lists for a workspace. -/
def lstat? : Workspace → Option EntryKind
  | .absent | .gone => none
  | .incomplete => some .incomplete
  | .run _ => some .run

/-- The entries of the Runs root. -/
def Host.entries (host : Host) : List (RunId × EntryKind) :=
  match host.root with
  | .listed entries _ => entries
  | .missing | .failed _ => []

variable {cfg : Config}

/-- The host on which the process starts again, with any other Runs: of this Run it finds
what the crash left, and no trace of a command. -/
structure Restart (crash : Crash cfg) where
  host : Host
  files : RunId → RunFile
  entry : ∀ kind, (crash.run, kind) ∈ host.entries ↔ lstat? (crash.pool.shared.store crash.run) = some kind
  file : ∀ doc, crash.pool.shared.store crash.run = .run doc →
    ∃ effective, files crash.run = ({ run := doc, effective } : Persisted).file
  identity : (host.runs crash.run).identity = .ok none
  history : (host.runs crash.run).commandHistory = false

/-- The state in which the orchestrator starts: the ledger is as it was, the Run is as
recovery left it, and the other Runs have moved on. -/
structure Recovered (crash : Crash cfg) (files : RunId → RunFile) (s : Automation.State cfg) : Prop where
  untouched : Untouched crash.pool.shared s
  evolves : Evolves crash.pool.shared s
  locks : s.locks = fun _ => false
  empty : ∀ r, (crash.pool.shared.store r).doc? = none → s.store r = crash.pool.shared.store r
  run : ∀ doc, (crash.pool.shared.store crash.run).doc?.isSome → readRun crash.run (files crash.run) = .ok doc →
    s.store crash.run = .run doc.run

/-- What a restart owes to the generation: no blocker names its Run; in every run from there
it keeps the id of its Run, and is linked to no other; and an advance that meets no failure,
when the generation is due and it is its turn, links it to that Run or finishes it. -/
structure Healed (crash : Crash cfg) (result : StartupRecoveryResult) (files : RunId → RunFile) : Prop where
  unnamed : ∀ blocker ∈ result.blockers, blocker.runId ≠ crash.run
  recovered : ∃ s, Recovered crash files s
  owns : ∀ s, Recovered crash files s →
    ∀ q : Pool Nat (Automation.State cfg) Automation.Choice Fault Unit, (automation cfg).Reaches (Pool.start s) q →
      ∃ row, q.shared.row? crash.slot = some (crash.attempt, row) ∧ row.preallocatedRunId = some crash.run ∧
        (row.runId = none ∨ row.runId = some crash.run)
  advances : ∀ s, Recovered crash files s → isRecipeTurn s.ledger.attempts crash.row crash.attempt = true →
    (∀ row, cfg.encodedBytes (putRow s.ledger.attempts crash.slot row) ≤ maxLedgerBytes) →
    ∀ depth, (advance depth crash.slot : Automation.Code cfg Unit).Must (Smooth crash.row) (Owned crash.slot crash.run)
      (fun _ _ => False) s

/-! ## The entries of the root -/

section
variable {host : Host} {id : RunId}

/-- Only a readable Run with a safe name is a candidate. -/
theorem scanEntry_eq_inl_iff {repr : String → String} {name : RunId} {kind : EntryKind} :
    scanEntry repr name kind = .inl id ↔ kind = .run ∧ safeName name = true ∧ name = id := by
  cases hsafe : safeName name <;> cases kind <;> simp [scanEntry, safely, hsafe]

/-- An error names no Run, or the entry, which is no readable Run. -/
theorem of_scanEntry_eq_inr {repr : String → String} {name : RunId} {kind : EntryKind} {reason : String}
    (h : scanEntry repr name kind = .inr (id, reason)) (hne : id ≠ "") : name = id ∧ kind ≠ .run := by
  have hne' : ¬ "" = id := fun heq => hne heq.symm
  cases hsafe : safeName name <;> cases kind <;> simp_all [scanEntry, safely]

theorem mem_candidates_iff (hsafe : safeName id = true) : id ∈ candidates host ↔ (id, .run) ∈ host.entries := by
  unfold candidates persistedRunIds Host.entries
  cases host.root with
  | missing => simp
  | failed message => simp
  | listed entries distinct =>
      simp only [List.mem_insertionSort, List.mem_filterMap, List.mem_map, exists_exists_and_eq_and,
        Sum.getLeft?_eq_some_iff, scanEntry_eq_inl_iff]
      constructor
      · rintro ⟨⟨name, kind⟩, hentry, rfl, -, rfl⟩
        exact hentry
      · intro hentry
        exact ⟨_, hentry, rfl, hsafe, rfl⟩

theorem mem_inventoryErrors_of_incomplete (hsafe : safeName id = true) (h : (id, .incomplete) ∈ host.entries) :
    ∃ reason, (id, reason) ∈ inventoryErrors host := by
  unfold inventoryErrors persistedRunIds
  unfold Host.entries at h
  cases hroot : host.root with
  | missing => simp [hroot] at h
  | failed message => simp [hroot] at h
  | listed entries distinct =>
      simp only [hroot] at h
      refine ⟨"Run directory is incomplete: run.json is absent", ?_⟩
      simp only [List.mem_filterMap, List.mem_map, exists_exists_and_eq_and]
      exact ⟨_, h, by simp [scanEntry, safely, hsafe]⟩

theorem entry_of_mem_inventoryErrors {reason : String} (h : (id, reason) ∈ inventoryErrors host) (hne : id ≠ "") :
    ∃ kind, (id, kind) ∈ host.entries ∧ kind ≠ .run := by
  unfold inventoryErrors persistedRunIds at h
  unfold Host.entries
  cases hroot : host.root with
  | missing => simp [hroot] at h
  | failed message => simp [hroot] at h
  | listed entries distinct =>
      simp only [hroot, List.mem_filterMap, List.mem_map, exists_exists_and_eq_and,
        Sum.getRight?_eq_some_iff] at h
      obtain ⟨⟨name, kind⟩, hentry, hscan⟩ := h
      obtain ⟨hname, hkind⟩ := of_scanEntry_eq_inr hscan hne
      exact ⟨kind, hname ▸ hentry, hkind⟩

end

/-- The ledger accepts only ids that are safe names. -/
theorem safeName_of_valid {n : Nat} {row : Row} {r : RunId} (h : row.Valid n) (hr : row.preallocatedRunId = some r) :
    safeName r = true ∧ r ≠ "" := by
  have htext := h.preallocatedText
  have hsafe := h.preallocatedSafe
  rw [hr] at htext hsafe
  simp only [Automation.optional, Option.all_some, isText, Bool.and_eq_true, decide_eq_true_eq, ne_eq] at htext
  simp only [Automation.optional, Option.all_some, List.all_eq_true] at hsafe
  refine ⟨?_, htext.1.1⟩
  simp only [safeName, ne_eq, htext.1.1, not_false_eq_true, decide_true, Bool.true_and, List.all_eq_true]
  intro c hc
  have hchar := hsafe c hc
  simp only [isIdChar, isLower, isUpper, isDigit, Bool.or_eq_true, Bool.and_eq_true, decide_eq_true_eq] at hchar
  simp only [Char.isAlphanum, Char.isAlpha, Char.isUpper, Char.isLower, Char.isDigit, Bool.or_eq_true,
    Bool.and_eq_true, decide_eq_true_eq]
  rcases hchar with ((hlower | hupper) | hdigit) | hother
  · exact .inl (.inl (.inr hlower))
  · exact .inl (.inl (.inl hupper))
  · exact .inl (.inr hdigit)
  · exact .inr hother

/-! ## The recovery of the Run -/

section
variable {host : RunHost} {run : RunId} {boot : String} {doc : Persisted} {recipe : Automation.Recipe}
  {mode : RunMode} {origin : Origin} {automation : RunAutomation} {now : Time}

/-- The Run as it was created. -/
abbrev created (run : RunId) (recipe : Automation.Recipe) (mode : RunMode) (origin : Origin)
    (automation : RunAutomation) (now : Time) (effective : ResourcePolicy) : Persisted :=
  { run := Automation.State.automatedRun run recipe mode origin automation now, effective }

/-- The document that recovery makes of it. -/
def interrupted (host : RunHost) (doc : Persisted) : Persisted :=
  { terminalized host doc "none" "persisted lifecycle proves that command execution never began" none with
    events := .list [{
      time := host.now
      level := "error"
      message := "Interrupted execution reconciled during startup; Run marked failed." }] }

section
variable {effective : ResourcePolicy}

theorem readRun_created : readRun run (created run recipe mode origin automation now effective).file =
    .ok (created run recipe mode origin automation now effective) :=
  readRun_file rfl rfl

/-- No command of the Run can have started. -/
theorem noCommand_created (hhistory : host.commandHistory = false) :
    noCommandCouldHaveStarted host (created run recipe mode origin automation now effective) = true := by
  simp [noCommandCouldHaveStarted, hhistory, Automation.State.automatedRun, newRun, newStep, Events.truthy]

/-- What recovery does under the lock of the Run: one save of the failed document. -/
theorem recoverLocked_created (hidentity : host.identity = .ok none) (hhistory : host.commandHistory = false)
    {Q : Except Raised Unit → Session → Prop} :
    (recoverLocked host run boot).Ends Q { file := (created run recipe mode origin automation now effective).file } ↔
      (save host .lifecycle (interrupted host (created run recipe mode origin automation now effective))).Ends
        (Script.Goes (fun _ => Script.update ({ · with recovered := true })) Q)
        { file := (created run recipe mode origin automation now effective).file, processedRunIds := [run] } := by
  have hno : noCommandCouldHaveStarted host (created run recipe mode origin automation now effective) = true :=
    noCommand_created hhistory
  unfold recoverLocked
  have hpublications : runningPublications (created run recipe mode origin automation now effective) = [] := rfl
  have hevents : (terminalized host (created run recipe mode origin automation now effective) "none"
      "persisted lifecycle proves that command execution never began" none).events = .list [] := rfl
  have hterminal : (created run recipe mode origin automation now effective).run.status.terminal = false := rfl
  simp only [Script.ends_bind, Script.ends_get, Script.goes_ok, Script.ends_ofExcept, readRun_created,
    recoverInterruptedPublications, hpublications, if_true, Script.ends_pure, recoverWorkload, hidentity,
    Script.ends_update, hterminal, Bool.false_eq_true, if_false, recoverInterrupted, process, hno,
    terminalizeInterrupted, appendEvent_ends, hevents, List.nil_append]
  exact Iff.rfl

end

/-- Under its lock the Run is marked failed, when that can be saved. -/
theorem recoverRun_created {effective : ResourcePolicy} (hidentity : host.identity = .ok none)
    (hhistory : host.commandHistory = false) (hlock : host.lock = .free) (hsave : host.saves .lifecycle = .done) :
    recoverRun host run boot { file := (created run recipe mode origin automation now effective).file } =
      (.ok (), {
        file := (interrupted host (created run recipe mode origin automation now effective)).file
        processedRunIds := [run]
        recovered := true }) := by
  have hends : (recoverRun host run boot).Ends (fun r s => (r, s) = (.ok (), {
      file := (interrupted host (created run recipe mode origin automation now effective)).file
      processedRunIds := [run]
      recovered := true }))
      { file := (created run recipe mode origin automation now effective).file } := by
    unfold recoverRun
    rw [Script.ends_handle]
    simp only [Script.ends_bind, Script.ends_ofExcept, hlock, LockOutcome.result, Script.goes_ok,
      recoverLocked_created hidentity hhistory, save, hsave, Script.ends_update]
  exact hends

/-- Otherwise a blocker names it. -/
theorem recoverRun_created_blocked {effective : ResourcePolicy} (hidentity : host.identity = .ok none)
    (hhistory : host.commandHistory = false) (h : ¬ (host.lock = .free ∧ host.saves .lifecycle = .done)) :
    (recoverRun host run boot { file := (created run recipe mode origin automation now effective).file }).2.blockers ≠ [] := by
  have hends : (recoverRun host run boot).Ends (fun _ s => s.blockers ≠ [])
      { file := (created run recipe mode origin automation now effective).file } := by
    unfold recoverRun
    rw [Script.ends_handle]
    by_cases hlock : host.lock = .free
    · have hsave : host.saves .lifecycle ≠ .done := fun hsave => h ⟨hlock, hsave⟩
      simp only [Script.ends_bind, Script.ends_ofExcept, hlock, LockOutcome.result, Script.goes_ok,
        recoverLocked_created hidentity hhistory, save]
      cases houtcome : host.saves .lifecycle with
      | done => exact (hsave houtcome).elim
      | lost message => simp [unverifiable]
      | late message => simp [unverifiable]
    · cases houtcome : host.lock with
      | free => exact (hlock houtcome).elim
      | busy message => simp [LockOutcome.result, unverifiable]
      | failed message => simp [LockOutcome.result, unverifiable]
  exact hends

end

/-! ## The whole recovery -/

section
variable {host : Host} {files : RunId → RunFile} {result : StartupRecoveryResult} {state : State}

/-- What a recovery that returns has done with each Run. -/
theorem session_of_eq_ok (h : recoverStartup host files = (.ok result, state)) {id : RunId}
    (hid : id ∈ candidates host) :
    (session host files id).blockers ⊆ result.blockers ∧ state.files id = (session host files id).file := by
  obtain ⟨after, hruns, rfl, rfl⟩ := recoverStartup_eq_ok h
  have hopened := openInventory_opened host files
  have hend := recoverRuns_end host (knownBoot host) (candidates host) (openInventory host files).2.2
    (candidates_nodup host)
  rw [hruns] at hend
  have hall := recoverUnits_end host after ((hend.grown rfl).named hopened.named)
  obtain ⟨s, hrun, -, habsorbed⟩ := hend.sessions rfl id hid
  rw [hopened.files_eq] at hrun
  have hs : session host files id = s := by rw [session, hrun]
  rw [hs]
  exact ⟨fun b hb => hall.blockers (habsorbed.blockers hb), by rw [hall.files, habsorbed.file]⟩

end

/-! ## The restart -/

section
variable {crash : Crash cfg} {restart : Restart crash} {files : RunId → RunFile} {s : Automation.State cfg}

theorem Crash.valid (crash : Crash cfg) : crash.row.Valid crash.slot.2 :=
  crash.pool.shared.ledger.row_valid crash.row_eq

theorem Crash.safeName (crash : Crash cfg) : safeName crash.run = true ∧ crash.run ≠ "" :=
  safeName_of_valid crash.valid crash.preallocated

theorem Recovered.row_eq (h : Recovered crash files s) : s.row? crash.slot = some (crash.attempt, crash.row) := by
  rw [Automation.State.row?, h.untouched.ledger]
  exact crash.row_eq

theorem Recovered.inv (h : Recovered crash files s) : Inv s := by
  have hinv := crash.reachable.inv
  refine hinv.untouched h.untouched h.evolves fun r doc hdoc => ?_
  cases hold : (crash.pool.shared.store r).doc? with
  | none =>
      rw [h.empty r hold] at hdoc
      simp [hdoc] at hold
  | some old =>
      have hstore := Workspace.doc?_eq_some.1 hold
      obtain ⟨doc', hdoc', hlater⟩ := h.evolves.runs r old hstore
      obtain rfl := Workspace.run.inj (hdoc.symm.trans hdoc')
      exact (hinv.runs r old hstore).later hlater

/-- In every run the generation keeps its Run id. -/
theorem Recovered.owns (h : Recovered crash files s) {q : Pool Nat (Automation.State cfg) Automation.Choice Fault Unit}
    (hq : (automation cfg).Reaches (Pool.start s) q) :
    ∃ row, q.shared.row? crash.slot = some (crash.attempt, row) ∧ row.preallocatedRunId = some crash.run ∧
      (row.runId = none ∨ row.runId = some crash.run) := by
  have hkeeps : ((lease cfg).protocol Nat).Keeps none (fun t _ => Free t)
      (Pool.start s : Pool Nat (Automation.State cfg) Automation.Choice Fault Unit) :=
    Protocol.keeps_start ⟨h.inv, fun _ _ _ hu => by simp at hu, fun _ _ _ _ _ hu => by simp at hu⟩
  have hev : Evolves s q.shared := automation_sound.evolves hkeeps hq
  obtain ⟨row, hrow, hlater⟩ := hev.rows crash.slot crash.attempt crash.row h.row_eq
  have hpre := hlater.preallocated crash.run crash.preallocated
  refine ⟨row, hrow, hpre, ?_⟩
  rcases (q.shared.ledger.row_valid hrow).linked with hnone | hlinked
  · exact .inl hnone
  · exact .inr (hlinked.trans hpre)

/-- An advance that meets no failure links the generation to its Run or finishes it. -/
theorem Recovered.advances (h : Recovered crash files s) (hcomplete : crash.pool.shared.store crash.run ≠ .incomplete)
    (hturn : isRecipeTurn s.ledger.attempts crash.row crash.attempt = true)
    (hroom : ∀ row, cfg.encodedBytes (putRow s.ledger.attempts crash.slot row) ≤ maxLedgerBytes) (depth : Nat) :
    (advance depth crash.slot : Automation.Code cfg Unit).Must (Smooth crash.row) (Owned crash.slot crash.run)
      (fun _ _ => False) s := by
  by_cases hstopped : crash.row.state.stopped = true
  · exact Prog.must_of ⟨_, _, h.row_eq, .inr hstopped⟩
  cases hlinked : crash.row.runId with
  | some r =>
      have hpre := crash.valid.preallocated_of_runId hlinked
      obtain rfl : crash.run = r := Option.some.inj (crash.preallocated.symm.trans hpre)
      exact Prog.must_of ⟨_, _, h.row_eq, .inl hlinked⟩
  | none =>
      have hwaiting : Waiting crash.slot crash.attempt crash.row crash.run s :=
        ⟨h.row_eq, by simpa [Row.live] using hstopped, hlinked, crash.preallocated, hroom⟩
      refine hwaiting.advance (by rw [h.locks]) ?_ hturn depth
      cases hold : crash.pool.shared.store crash.run with
      | incomplete => exact (hcomplete hold).elim
      | absent => rw [h.empty _ (by rw [hold]; rfl), hold]; rintro ⟨⟩
      | gone => rw [h.empty _ (by rw [hold]; rfl), hold]; rintro ⟨⟩
      | run old =>
          obtain ⟨doc, hdoc, -⟩ := h.evolves.runs _ old hold
          rw [hdoc]
          rintro ⟨⟩

/-- There is a state in which the orchestrator starts. -/
theorem exists_recovered (doc' : Run) (hlater : ∀ doc, crash.pool.shared.store crash.run = .run doc → RunLater doc doc')
    (hread : ∀ doc, (crash.pool.shared.store crash.run).doc?.isSome → readRun crash.run (files crash.run) = .ok doc →
      doc.run = doc') : ∃ s, Recovered crash files s := by
  let store : Store := fun r => if r = crash.run ∧ (crash.pool.shared.store r).doc?.isSome then .run doc'
    else crash.pool.shared.store r
  have hu : Untouched crash.pool.shared { crash.pool.shared with locks := fun _ => false, store } :=
    ⟨rfl, rfl, rfl, rfl, rfl, rfl, rfl⟩
  refine ⟨{ crash.pool.shared with locks := fun _ => false, store }, hu, hu.evolves ?_ ?_, rfl, ?_, ?_⟩
  · intro r doc hdoc
    by_cases hr : r = crash.run
    · rw [hr] at hdoc ⊢
      exact ⟨doc', by simp [store, hdoc], hlater doc hdoc⟩
    · exact ⟨doc, by simp [store, hr, hdoc], .refl doc⟩
  · exact fun r id a ha => ⟨a, ha, fun _ => rfl⟩
  · intro r hnone
    simp [store, hnone]
  · intro doc hsome hdoc
    simp [store, hsome, hread doc hsome hdoc]

theorem Restart.candidate_iff (restart : Restart crash) :
    crash.run ∈ candidates restart.host ↔ ∃ doc, crash.pool.shared.store crash.run = .run doc := by
  rw [mem_candidates_iff crash.safeName.1, restart.entry]
  cases crash.pool.shared.store crash.run <;> simp [lstat?]

/-- The Run that recovery finds, as it was created. -/
theorem Restart.exists_created (restart : Restart crash) {doc : Run}
    (hdoc : crash.pool.shared.store crash.run = .run doc) :
    ∃ recipe mode origin automation now effective,
      doc = (created crash.run recipe mode origin automation now effective).run ∧
        restart.files crash.run = (created crash.run recipe mode origin automation now effective).file := by
  obtain ⟨recipe, mode, origin, automation, now, rfl⟩ := crash.unqueued doc hdoc
  obtain ⟨effective, hfile⟩ := restart.file _ hdoc
  exact ⟨recipe, mode, origin, automation, now, effective, rfl, hfile⟩

/-- A workspace without its `run.json` is named by a blocker. -/
theorem Restart.not_healed_of_incomplete (restart : Restart crash)
    (hincomplete : crash.pool.shared.store crash.run = .incomplete) :
    ¬ ∃ result state, recoverStartup restart.host restart.files = (.ok result, state) ∧
      Healed crash result state.files := by
  rintro ⟨result, state, hok, hhealed⟩
  have hentry := (restart.entry .incomplete).2 (by rw [hincomplete]; rfl)
  obtain ⟨reason, herror⟩ := mem_inventoryErrors_of_incomplete crash.safeName.1 hentry
  obtain ⟨blocker, hblocker, hnames, -⟩ := (failClosed_of_eq_ok hok).1.entries _ herror
  exact hhealed.unnamed blocker hblocker hnames

/-- A later version of the Run as it was created. -/
theorem runLater_interrupted (host : RunHost) {run : RunId} {recipe : Automation.Recipe} {mode : RunMode}
    {origin : Origin} {automation : RunAutomation} {now : Time} {effective : ResourcePolicy} :
    RunLater (created run recipe mode origin automation now effective).run
      (interrupted host (created run recipe mode origin automation now effective)).run := by
  rw [runLater_iff]
  refine ⟨rfl, rfl, rfl, rfl, rfl, rfl, rfl, rfl, fun _ => rfl, rfl, rfl⟩

/-- The restart heals the admission exactly when the recovery of no Run raises, the crash
left no workspace without its `run.json`, and the Run, if it is there, could be locked and
its failure saved. -/
theorem crash_heals_iff (crash : Crash cfg) (restart : Restart crash) :
    (∃ result state, recoverStartup restart.host restart.files = (.ok result, state) ∧
      Healed crash result state.files) ↔
      (∀ id ∈ candidates restart.host,
        ¬ Trips (restart.host.runs id) (knownBoot restart.host) id (restart.files id)) ∧
      crash.pool.shared.store crash.run ≠ .incomplete ∧
      ∀ doc, crash.pool.shared.store crash.run = .run doc →
        (restart.host.runs crash.run).lock = .free ∧ (restart.host.runs crash.run).saves .lifecycle = .done := by
  obtain ⟨hsafe, hne⟩ := crash.safeName
  constructor
  · rintro ⟨result, state, hok, hhealed⟩
    refine ⟨(failClosed_of_eq_ok hok).2, ?_, ?_⟩
    · intro hincomplete
      exact restart.not_healed_of_incomplete hincomplete ⟨result, state, hok, hhealed⟩
    · intro doc hdoc
      by_contra hnot
      obtain ⟨recipe, mode, origin, automation, now, effective, -, hfile⟩ := restart.exists_created hdoc
      have hsession := (session_of_eq_ok hok (restart.candidate_iff.2 ⟨doc, hdoc⟩)).1
      have hblocked : (session restart.host restart.files crash.run).blockers ≠ [] := by
        rw [session, hfile]
        exact recoverRun_created_blocked restart.identity restart.history hnot
      obtain ⟨blocker, hblocker⟩ := List.exists_mem_of_ne_nil _ hblocked
      exact hhealed.unnamed blocker (hsession hblocker) (recoverRun_names _ _ _ _ blocker hblocker)
  · rintro ⟨htrips, hcomplete, hsaves⟩
    obtain ⟨result, state, hok⟩ := exists_eq_ok htrips
    have hsession : ∀ doc, crash.pool.shared.store crash.run = .run doc → ∃ doc', RunLater doc doc'.run ∧
        session restart.host restart.files crash.run = {
          file := doc'.file
          processedRunIds := [crash.run]
          recovered := true } ∧ readRun crash.run doc'.file = .ok doc' := by
      intro doc hdoc
      obtain ⟨hlock, hsave⟩ := hsaves doc hdoc
      obtain ⟨recipe, mode, origin, automation, now, effective, rfl, hfile⟩ := restart.exists_created hdoc
      refine ⟨_, runLater_interrupted (restart.host.runs crash.run), ?_, readRun_file rfl rfl⟩
      rw [session, hfile, recoverRun_created restart.identity restart.history hlock hsave]
    refine ⟨result, state, hok, ?_, ?_, fun s h q hq => h.owns hq, fun s h hturn hroom depth =>
      h.advances hcomplete hturn hroom depth⟩
    · intro blocker hblocker hnames
      cases recoverStartup_origin hok hblocker with
      | general hgeneral => exact hne (hnames ▸ hgeneral)
      | entry herror =>
          rw [hnames] at herror
          obtain ⟨kind, hentry, hkind⟩ := entry_of_mem_inventoryErrors herror hne
          have hstore := (restart.entry kind).1 hentry
          cases hold : crash.pool.shared.store crash.run <;> simp_all [lstat?]
      | run hcandidate hblocked =>
          rw [hnames] at hcandidate hblocked
          obtain ⟨doc, hdoc⟩ := restart.candidate_iff.1 hcandidate
          obtain ⟨doc', -, hequals, -⟩ := hsession doc hdoc
          rw [hequals] at hblocked
          cases hblocked
      | unit hcandidate hbound =>
          rw [hnames] at hcandidate hbound
          obtain ⟨doc, hdoc⟩ := restart.candidate_iff.1 hcandidate
          obtain ⟨doc', -, hequals, -⟩ := hsession doc hdoc
          rw [hequals] at hbound
          cases hbound
    · cases hold : (crash.pool.shared.store crash.run).doc? with
      | none =>
          refine exists_recovered (newRun "" .build 0) ?_ ?_
          · intro doc hdoc
            simp [hdoc] at hold
          · intro doc hsome
            simp [hold] at hsome
      | some doc =>
          have hdoc := Workspace.doc?_eq_some.1 hold
          obtain ⟨doc', hlater, hequals, hread⟩ := hsession doc hdoc
          refine exists_recovered doc'.run ?_ ?_
          · intro old hdoc'
            obtain rfl := Workspace.run.inj (hdoc.symm.trans hdoc')
            exact hlater
          · intro doc'' _ hread'
            rw [(session_of_eq_ok hok (restart.candidate_iff.2 ⟨doc, hdoc⟩)).2, hequals, hread] at hread'
            rw [Except.ok.inj hread']

end

/-! ## The workspace that was half created -/

/-- The claim is advanced, the id is preallocated, and the directory is made; there the
process dies. -/
def halfCreation : List (Event Nat Call Automation.Choice) :=
  List.flatten [sampleClaim .build, [.spawn 2 (.advance 3 (sampleSlot "v1"))], List.replicate 6 (.exec 2 {}),
    [.exec 2 { now := 21, fresh := "run-1" }], List.replicate 5 (.exec 2 { now := 22 }),
    [.exec 2 { create := .leftDirectory .fileNotFound }, .restart]]

/-- The host after it: the directory of the Run has no `run.json`. -/
def halfCreatedHost : Host :=
  { calmHost with root := .listed [("run-1", .incomplete)] (by decide) }

/-- A crash between the directory and its `run.json` is not healed. -/
theorem half_creation_not_healed : ∃ (crash : Crash sampleConfig) (restart : Restart crash),
    crash.pool.shared.store crash.run = .incomplete ∧
    ¬ ∃ result state, recoverStartup restart.host restart.files = (.ok result, state) ∧
      Healed crash result state.files := by
  have hrun : (((automation sampleConfig).run (Pool.start (State.start sampleConfig) : SamplePool)
      halfCreation).any fun p => decide (p.shared.store "run-1" = .incomplete) &&
        sampleRow p (sampleSlot "v1") (·.preallocatedRunId = some "run-1")) = true := by
    decide +kernel
  obtain ⟨p, hreach, hcheck⟩ := System.exists_of_run halfCreation _ hrun
  simp only [Bool.and_eq_true, decide_eq_true_eq, sampleRow, Option.any_eq_true] at hcheck
  obtain ⟨hstore, ⟨attempt, row⟩, hrow, hpre⟩ := hcheck
  let crash : Crash sampleConfig := {
    pool := p
    reachable := hreach
    slot := sampleSlot "v1"
    attempt
    row
    run := "run-1"
    row_eq := hrow
    preallocated := hpre
    unqueued := fun doc hdoc => by simp [hstore] at hdoc }
  have hentry : ∀ kind, ("run-1", kind) ∈ halfCreatedHost.entries ↔ lstat? (p.shared.store "run-1") = some kind := by
    intro kind
    rw [hstore]
    simp [Host.entries, halfCreatedHost, lstat?, eq_comm]
  let restart : Restart crash := {
    host := halfCreatedHost
    files := fun _ => strayStepFile
    entry := hentry
    file := fun doc hdoc => by simp [crash, hstore] at hdoc
    identity := rfl
    history := rfl }
  exact ⟨crash, restart, hstore, restart.not_healed_of_incomplete hstore⟩

end DebBuilder.Recovery
