import Mathlib
import DebBuilder.Lib.Script
import DebBuilder.Run.Model

/-!
# Startup recovery

`recover_startup`: before anything is admitted, every persisted Run that has not ended is
either shown to have no workload any more, and marked failed, or named as a blocker; then
the command units that are still loaded are bound to a Run, reconciled or named.

What the host answers is an argument: the boot, the entries of the Runs root, for each Run
its lock, its active command, the containment of that command and the fate of each save.

## Main definitions

* `Persisted`, `RunFile`, `readRun` — a Run document as recovery finds it.
* `Host` — what the host answers.
* `recoverRun` — the recovery of one Run.
* `recoverStartup` — the whole of it.
-/

namespace DebBuilder.Recovery
open Lib Function

/-! ## Run documents -/

structure RunEvent where
  time : Time
  level : String
  message : String
  deriving DecidableEq, Repr

/-- `run["events"]`; nothing checks that it is a list. -/
inductive Events where
  | list (events : List RunEvent)
  | other (truthy : Bool)
  deriving DecidableEq, Repr

/-- `bool(run.get("events"))` -/
def Events.truthy : Events → Bool
  | .list events => events ≠ []
  | .other truthy => truthy

structure RecoveryRecord where
  status : String
  code : String
  backend : String
  reason : String
  recordedAt : Option Time
  resolvedAt : Option Time := none
  deriving DecidableEq, Repr

/-- `run["recovery"]`: nothing or an empty value, an object, or something else. -/
inductive RecoveryField where
  | absent
  | record (record : RecoveryRecord)
  | other
  deriving DecidableEq, Repr

/-- `value if isinstance(value, dict) else {}` -/
def RecoveryField.record? : RecoveryField → Option RecoveryRecord
  | .record value => some value
  | .absent | .other => none

/-- The limits of a resource policy, `FIELDS` in this order. -/
structure ResourcePolicy where
  memoryMaxBytes : Option Nat := none
  tasksMax : Option Nat := none
  cpuQuotaPercent : Option Nat := none
  ioReadBandwidthMaxBytesPerSec : Option Nat := none
  ioWriteBandwidthMaxBytesPerSec : Option Nat := none
  deriving DecidableEq, Repr

/-- A Run document in memory. -/
structure Persisted where
  run : Run
  events : Events := .list []
  recovery : RecoveryField := .absent
  /-- `run["resource_limits"]["effective"]` -/
  effective : ResourcePolicy := {}
  deriving DecidableEq, Repr

/-- `run.json`. -/
inductive RunFile where
  /-- Reading or validating it raises an `OSError`, a `TypeError` or a `ValueError`. -/
  | refused (message : String)
  /-- Its JSON is nested so deeply that reading it raises a `RecursionError`. -/
  | tooDeep
  /-- A document, with the rows of `steps`; `none` is a row that is no object. -/
  | document (doc : Persisted) (rows : List (Option Step))
  deriving DecidableEq, Repr

/-- An exception. -/
inductive Raised where
  /-- `WorkspaceBusyError` -/
  | busy (message : String)
  /-- `CommandIdentityError`, `OSError`, `TypeError` or `ValueError` -/
  | caught (message : String)
  /-- an exception that no handler of the recovery names -/
  | escaped
  deriving DecidableEq, Repr

/-- `read_run`, as far as the document decides it: `validate_run` asks each row of `steps`
for its name. -/
def readRun (id : RunId) : RunFile → Except Raised Persisted
  | .refused message => .error (.caught message)
  | .tooDeep => .error .escaped
  | .document doc rows =>
      match rows.mapM fun row => row with
      | none => .error .escaped
      | some steps =>
          if steps.map (·.name) ≠ stepNames then .error (.caught "build run has an invalid step sequence")
          else if doc.run.id ≠ id then
            .error (.caught "Run identity/workspace does not match the canonical builds root")
          else .ok { doc with run := { doc.run with steps } }

/-- What a save leaves. -/
def Persisted.file (doc : Persisted) : RunFile := .document doc (doc.run.steps.map some)

/-! ## The host -/

/-- `VerificationStatus` -/
inductive VerificationStatus where
  | matched
  | notRunning
  | mismatch
  | unverifiable
  deriving DecidableEq, Repr

def VerificationStatus.value : VerificationStatus → String
  | .matched => "match"
  | .notRunning => "not_running"
  | .mismatch => "mismatch"
  | .unverifiable => "unverifiable"

structure VerificationResult where
  status : VerificationStatus
  reason : String
  deriving DecidableEq, Repr

/-- What is observed of the resources of a command, by field. -/
abbrev ResourceControl := List (String × String)

/-- `ContainmentRecovery` and `OrphanContainmentRecovery` -/
structure ContainmentRecovery where
  verification : VerificationResult
  gone : Bool := false
  resourceControl : Option ResourceControl := none
  deriving DecidableEq, Repr

structure GroupTermination where
  groupGone : Bool
  error : String
  deriving DecidableEq, Repr

inductive Backend where
  | processGroup
  | systemdCgroup (unitName : String)
  deriving DecidableEq, Repr

def Backend.text : Backend → String
  | .processGroup => "process_group"
  | .systemdCgroup _ => "systemd_cgroup"

/-- A validated identity of an active command. -/
structure CommandIdentity where
  backend : Backend
  bootId : String
  resourceLimits : ResourcePolicy := {}
  deriving DecidableEq, Repr

/-- The unit that an identity names. -/
def CommandIdentity.unit? (identity : CommandIdentity) : Option String :=
  match identity.backend with
  | .systemdCgroup unitName => some unitName
  | .processGroup => none

/-- The saves that the recovery of a Run can make, each at most once. -/
inductive SaveSite where
  | publications
  | blocker
  | lifecycle
  | resolution
  deriving DecidableEq, Repr

/-- What becomes of a save: one that raises did so before the replacement or after it. -/
inductive SaveOutcome where
  | done
  | lost (message : String)
  | late (message : String)
  deriving DecidableEq, Repr

/-- `locked_run(run_id, blocking=False)` -/
inductive LockOutcome where
  | free
  | busy (message : String)
  | failed (message : String)
  deriving DecidableEq, Repr

def LockOutcome.result : LockOutcome → Except Raised Unit
  | .free => .ok ()
  | .busy message => .error (.busy message)
  | .failed message => .error (.caught message)

/-- What the host answers for one Run. -/
structure RunHost where
  now : Time
  lock : LockOutcome
  /-- `read_persisted_identity` and `validated_identity` -/
  identity : Except String (Option CommandIdentity)
  /-- `_command_history_exists` -/
  commandHistory : Bool
  /-- `recover_systemd_containment` -/
  containment : ContainmentRecovery
  /-- `verify_identity`, and `terminate_verified_process_group` after a match -/
  verification : VerificationResult
  termination : GroupTermination
  saves : SaveSite → SaveOutcome

/-- What an entry of the Runs root turns out to be. -/
inductive EntryKind where
  | unverifiable (message : String)
  | notDirectory
  | unopenable (message : String)
  | incomplete
  | metadataUnverifiable (message : String)
  | run
  deriving DecidableEq, Repr

inductive RunsRoot where
  /-- It is not there. -/
  | missing
  | failed (message : String)
  /-- A directory lists a name once. -/
  | listed (entries : List (RunId × EntryKind)) (distinct : (entries.map (·.1)).Nodup)

structure Host where
  /-- `current_boot_id` -/
  boot : Except String String
  root : RunsRoot
  runs : RunId → RunHost
  /-- `loaded_command_units`, each unit once -/
  units : Except String (List String)
  /-- `recover_orphan_systemd_containment` -/
  orphan : String → ContainmentRecovery
  /-- `repr` of a file name -/
  repr : String → String

/-! ## The result -/

def blockerCode : String := "execution_recovery_unresolved"
def recoveryErrorCode : String := "execution_interrupted"

structure Blocker where
  runId : RunId
  backend : String
  reason : String
  code : String := blockerCode
  deriving DecidableEq, Repr

/-- `StartupRecoveryResult` -/
structure StartupRecoveryResult where
  processedRunIds : List RunId := []
  recoveredRunIds : List RunId := []
  blockers : List Blocker := []
  strayUnits : List String := []
  reconciledOrphanUnits : List String := []
  unitScanError : String := ""
  deriving DecidableEq, Repr

/-- The details of `admission_blocker`. -/
structure AdmissionBlockerDetails where
  unresolvedRunIds : List RunId
  strayUnitCount : Nat
  deriving DecidableEq, Repr

/-- `admission_blocker` -/
def StartupRecoveryResult.admissionBlocker (result : StartupRecoveryResult) : Option AdmissionBlockerDetails :=
  if result.blockers = [] ∧ result.strayUnits = [] then none
  else some {
    unresolvedRunIds := (((result.blockers.map (·.runId)).filter (· ≠ "")).dedup).insertionSort (· ≤ ·)
    strayUnitCount := result.strayUnits.length }

/-! ## The inventory -/

/-- `require_safe_name` -/
def safeName (name : String) : Bool :=
  name ≠ "" && name.toList.all fun c => c.isAlphanum || c ∈ ['_', '.', '+', '-']

/-- The name of a directory is required to be safe before the directory is opened. -/
def safely (repr : String → String) (name : RunId) (opened : RunId ⊕ RunId × String) : RunId ⊕ RunId × String :=
  if safeName name then opened
  else .inr ("", s!"unsafe Run directory {repr name}: unsafe build run id")

/-- What an entry adds to the candidates, or to the errors. -/
def scanEntry (repr : String → String) (name : RunId) : EntryKind → RunId ⊕ RunId × String
  | .unverifiable message => .inr ("", s!"Run inventory entry {repr name} is unverifiable: {message}")
  | .notDirectory => .inr ("", s!"unexpected non-directory entry in the Runs root: {repr name}")
  | .unopenable message => safely repr name (.inr (name, s!"Run directory is unverifiable: {message}"))
  | .incomplete => safely repr name (.inr (name, "Run directory is incomplete: run.json is absent"))
  | .metadataUnverifiable message => safely repr name (.inr (name, s!"Run metadata is unverifiable: {message}"))
  | .run => safely repr name (.inl name)

/-- `_persisted_run_ids` -/
def persistedRunIds (host : Host) : Except String (List RunId × List (RunId × String)) :=
  match host.root with
  | .missing => .ok ([], [])
  | .failed message => .error message
  | .listed entries _ =>
      let scanned := entries.map fun entry => scanEntry host.repr entry.1 entry.2
      .ok ((scanned.filterMap Sum.getLeft?).insertionSort (· ≤ ·), scanned.filterMap Sum.getRight?)

/-! ## The recovery of one Run -/

/-- What the recovery of one Run adds to the result, and what it leaves on disk. -/
structure Session where
  file : RunFile
  identityCleared : Bool := false
  processedRunIds : List RunId := []
  recovered : Bool := false
  blockers : List Blocker := []
  /-- `run_id in blocked_ids` -/
  blocked : Bool := false
  trustworthy : Bool := true
  /-- the unit that is bound to the Run -/
  binding : Option String := none
  deriving DecidableEq, Repr

abbrev Act (α : Type) := Script Session Raised α

section
variable (host : RunHost) (id : RunId)

def save (site : SaveSite) (doc : Persisted) : Act Unit := do
  match host.saves site with
  | .done => .update ({ · with file := doc.file })
  | .lost message => .raise (.caught message)
  | .late message => do
      .update ({ · with file := doc.file })
      .raise (.caught message)

/-- `events.append(event)` -/
def Persisted.appendEvent (doc : Persisted) (event : RunEvent) : Act Persisted :=
  match doc.events with
  | .list events => pure { doc with events := .list (events ++ [event]) }
  | .other _ => .raise .escaped

/-- The publication attempts that were running. -/
def runningPublications (doc : Persisted) : List Publication :=
  doc.run.publications.filter (·.status = .running)

/-- The document with these attempts failed, as far as attempts are modelled. -/
def publicationsInterrupted (doc : Persisted) : Persisted :=
  let publications := doc.run.publications.map fun attempt =>
    if attempt.status = .running then
      { attempt with status := .failed, errorCode := some "publication_interrupted" }
    else attempt
  { doc with run := { doc.run with publications } }

/-- `_recover_interrupted_publications` -/
def recoverInterruptedPublications (doc : Persisted) : Act Persisted := do
  if runningPublications doc = [] then pure doc
  else do
    let doc' ← (publicationsInterrupted doc).appendEvent {
      time := host.now
      level := "error"
      message := s!"Recovered {(runningPublications doc).length} interrupted publication attempt(s)" }
    save host .publications doc'
    pure doc'

/-- `_no_command_could_have_started` -/
def noCommandCouldHaveStarted (doc : Persisted) : Bool :=
  (doc.run.status = .pending || doc.run.status = .queued) &&
    doc.run.startedAt.isNone && doc.run.finishedAt.isNone && doc.run.duration.isNone &&
    !doc.events.truthy && doc.run.error.isNone && !host.commandHistory &&
    doc.run.steps.all fun step =>
      step.status = .pending && step.startedAt.isNone && step.finishedAt.isNone && step.duration.isNone

/-- `_recovery_record` of a blocked Run -/
def blockedRecord (backend reason : String) (previous : Option RecoveryRecord) : RecoveryRecord where
  status := "blocked"
  code := blockerCode
  backend := backend
  reason := reason
  recordedAt := (previous.bind (·.recordedAt)).or (some host.now)

/-- `_recovery_record` of a resolved Run -/
def resolvedRecord (backend reason : String) (previous : Option RecoveryRecord) : RecoveryRecord where
  status := "resolved"
  code := recoveryErrorCode
  backend := backend
  reason := reason
  recordedAt := (previous.bind (·.recordedAt)).or (some host.now)
  resolvedAt := (previous.bind (·.resolvedAt)).or (some host.now)

/-- The blocker that `_record_blocker` keeps or makes. -/
def blockerRecord (doc : Persisted) (backend reason : String) : RecoveryRecord :=
  match doc.recovery.record? with
  | some previous =>
      if previous.status = "blocked" ∧ previous.code = blockerCode ∧ previous.backend = backend then previous
      else blockedRecord host backend reason (some previous)
  | none => blockedRecord host backend reason none

/-- `_record_blocker`, and what its callers do with the blocker -/
def recordBlocker (doc : Persisted) (backend reason : String) : Act Unit := do
  let record := blockerRecord host doc backend reason
  if doc.recovery ≠ .record record then
    save host .blocker { doc with recovery := .record record }
  let blocker : Blocker := {
    runId := doc.run.id
    backend := backend
    reason := if record.reason = "" then reason else record.reason }
  .update fun session => { session with blockers := session.blockers ++ [blocker], blocked := true }

/-- `result.processed_run_ids.append(run_id)` -/
def process : Act Unit := .update fun session =>
  { session with processedRunIds := session.processedRunIds ++ [id] }

/-- `_clear_resolved_identity`, which raises nothing -/
def clearResolvedIdentity : Act Unit := .update ({ · with identityCleared := true })

/-- `_elapsed` -/
def elapsed (startedAt : Option Time) (finishedAt : Time) : Nat :=
  match startedAt with
  | some startedAt => finishedAt - startedAt
  | none => 0

/-- The document of `_terminalize_interrupted`, but for its event. -/
def terminalized (doc : Persisted) (backend reason : String) (resourceControl : Option ResourceControl) : Persisted :=
  let active := doc.run.steps.find? (·.status = .running)
  let error : RunError := {
    stage := (active.map (·.name.text)).getD "recovery"
    code := recoveryErrorCode
    message := "Execution was interrupted before startup recovery completed"
    details := [("recovery_backend", backend), ("reason", reason)] ++
      ((resourceControl.getD []).map fun (field, value) => ("resource_control." ++ field, value)) }
  let steps := doc.run.steps.map fun step =>
    if some step.name = active.map (·.name) then
      { step with
        status := .failed
        finishedAt := some host.now
        duration := some (elapsed step.startedAt host.now)
        summary := error.message
        error := some error }
    else step
  { doc with
    run := { doc.run with
      status := .failed
      finishedAt := some host.now
      duration := some (elapsed doc.run.startedAt host.now)
      error := some error
      steps }
    recovery := .record (resolvedRecord host backend reason doc.recovery.record?) }

/-- `_terminalize_interrupted`; the line that it adds to the log raises nothing. -/
def terminalizeInterrupted (doc : Persisted) (backend reason : String)
    (resourceControl : Option ResourceControl := none) : Act Unit := do
  let doc ← (terminalized host doc backend reason resourceControl).appendEvent {
    time := host.now
    level := "error"
    message := "Interrupted execution reconciled during startup; Run marked failed." }
  save host .lifecycle doc

/-- `_terminalization_ambiguity` -/
def terminalizationAmbiguity (doc : Persisted) : Option String :=
  if (doc.run.steps.filter (·.status = .running)).length > 1 then
    some "persisted Run has multiple running steps; lifecycle mutation is ambiguous"
  else none

/-- `_record_terminal_resolution` -/
def recordTerminalResolution (doc : Persisted) (backend reason : String) : Act Unit :=
  match doc.recovery.record? with
  | some previous =>
      if previous.status = "blocked" then
        save host .resolution
          { doc with recovery := .record (resolvedRecord host backend reason (some previous)) }
      else pure ()
  | none => pure ()

/-- What is known of the workload of an active command. -/
structure Reconciled where
  absenceProved : Bool
  backend : String
  reason : String
  resourceControl : Option ResourceControl
  deriving DecidableEq, Repr

/-- `{**resource_control, "verification": "failed"}` -/
def verificationFailed (resourceControl : ResourceControl) : ResourceControl :=
  (resourceControl.filter (·.1 ≠ "verification")) ++ [("verification", "failed")]

/-- `_reconcile_current_boot_identity` -/
def reconcileCurrentBootIdentity (identity : CommandIdentity) (admitted : ResourcePolicy) : Reconciled :=
  match identity.backend with
  | .systemdCgroup _ =>
      let recovered := host.containment
      if recovered.verification.status = .notRunning ∧ recovered.gone then
        if identity.resourceLimits ≠ admitted then
          ⟨true, identity.backend.text, recovered.verification.reason ++
            "; active command resource policy does not match the admitted Run policy",
            recovered.resourceControl.map verificationFailed⟩
        else ⟨true, identity.backend.text, recovered.verification.reason, recovered.resourceControl⟩
      else
        ⟨false, identity.backend.text,
          s!"{recovered.verification.status.value}: {recovered.verification.reason}", recovered.resourceControl⟩
  | .processGroup =>
      let termination := if host.verification.status = .matched then some host.termination else none
      let unverified :=
        s!"{host.verification.status.value}: {host.verification.reason}; fallback descendants cannot be excluded on the current boot"
      let reason :=
        match termination with
        | some termination =>
            if termination.error ≠ "" then
              s!"fallback process group was addressed but remains unverifiable: {termination.error}"
            else if termination.groupGone then
              "fallback process group ended, but escaped descendants cannot be excluded on the current boot"
            else unverified
        | none => unverified
      ⟨false, "process_group", reason, none⟩

/-- `identity["boot_id"] != boot_id and boot_id and backend != "systemd_cgroup"` -/
def previousBoot (boot : String) (identity : CommandIdentity) : Bool :=
  identity.bootId ≠ boot && boot ≠ "" && identity.unit?.isNone

def previousBootReason : String := "durable command identity belongs to a previous boot"

/-- The blocker that an earlier start recorded in a Run that has ended. -/
def rememberedBlocker (recovery : RecoveryRecord) : Blocker where
  runId := id
  backend := if recovery.backend = "" then "unknown" else recovery.backend
  reason := if recovery.reason = "" then "terminal Run recovery remains unresolved" else recovery.reason

/-- The branch of a Run that has ended. -/
def recoverTerminal (boot : String) (doc : Persisted) (identity : Option CommandIdentity) : Act Unit := do
  if doc.recovery = .other then .raise .escaped
  else if doc.recovery.record?.any (·.status = "resolved") then clearResolvedIdentity
  else
    match identity, doc.recovery.record? with
    | none, some recovery =>
        if recovery.status = "blocked" then do
          process id
          .update fun session =>
            { session with blockers := session.blockers ++ [rememberedBlocker id recovery], blocked := true }
    | none, none => pure ()
    | some identity, _ => do
        process id
        if previousBoot boot identity then do
          clearResolvedIdentity
          recordTerminalResolution host doc identity.backend.text previousBootReason
        else
          let reconciled := reconcileCurrentBootIdentity host identity doc.effective
          if reconciled.absenceProved then do
            clearResolvedIdentity
            recordTerminalResolution host doc reconciled.backend reconciled.reason
          else recordBlocker host doc reconciled.backend reconciled.reason

/-- An interrupted Run whose workload is shown to be absent. -/
def settleInterrupted (doc : Persisted) (backend reason : String) (resourceControl : Option ResourceControl) :
    Act Unit := do
  match terminalizationAmbiguity doc with
  | some ambiguity => recordBlocker host doc backend ambiguity
  | none => do
      terminalizeInterrupted host doc backend reason resourceControl
      clearResolvedIdentity
      .update ({ · with recovered := true })

/-- The branch of a Run that has not ended. -/
def recoverInterrupted (boot : String) (doc : Persisted) (identity : Option CommandIdentity) : Act Unit := do
  process id
  match identity with
  | none =>
      if noCommandCouldHaveStarted host doc then do
        terminalizeInterrupted host doc "none"
          "persisted lifecycle proves that command execution never began"
        .update ({ · with recovered := true })
      else recordBlocker host doc "none" "no durable command identity can prove interrupted workload absence"
  | some identity =>
      if previousBoot boot identity then
        settleInterrupted host doc identity.backend.text previousBootReason none
      else
        let reconciled := reconcileCurrentBootIdentity host identity doc.effective
        if reconciled.absenceProved then
          settleInterrupted host doc reconciled.backend reconciled.reason reconciled.resourceControl
        else recordBlocker host doc reconciled.backend reconciled.reason

/-- What is done under the lock of a Run once its publications are recovered. -/
def recoverWorkload (boot : String) (doc : Persisted) : Act Unit := do
  match host.identity with
  | .error message => do
      .update ({ · with trustworthy := false })
      recordBlocker host doc "unknown" s!"active command metadata is unverifiable: {message}"
      process id
  | .ok identity => do
      .update ({ · with binding := identity.bind (·.unit?) })
      if doc.run.status.terminal then recoverTerminal host id boot doc identity
      else recoverInterrupted host id boot doc identity

/-- What is done under the lock of a Run. -/
def recoverLocked (boot : String) : Act Unit := do
  let session ← .get
  let doc ← .ofExcept (readRun id session.file)
  let doc ← recoverInterruptedPublications host doc
  recoverWorkload host id boot doc

/-- A Run that could not be recovered for this reason. -/
def unverifiable (reason : String) : Script Session Unit Unit := .update fun session =>
  { session with
    trustworthy := false
    processedRunIds := session.processedRunIds ++ [id]
    blockers := session.blockers ++ [{ runId := id, backend := "unknown", reason }]
    blocked := true }

/-- The body of the loop over the Runs, with its handlers. -/
def recoverRun (boot : String) : Script Session Unit Unit :=
  Script.handle (do
    .ofExcept host.lock.result
    recoverLocked host id boot) fun
    | .busy message => unverifiable id s!"Run recovery lock is unavailable: {message}"
    | .caught message => unverifiable id s!"persisted Run is unverifiable: {message}"
    | .escaped => .raise ()

end

/-! ## The recovery of all -/

/-- What `recover_startup` has done so far. -/
structure State where
  result : StartupRecoveryResult := {}
  files : RunId → RunFile
  /-- `unit_bindings`, the latest first -/
  unitBindings : List (String × RunId) := []
  blockedIds : List RunId := []
  trustworthy : Bool := true
  /-- the units for which `recover_orphan_systemd_containment` was called -/
  addressed : List String := []

/-- What a Run adds to the result. -/
def State.absorb (state : State) (id : RunId) (session : Session) : State where
  result := { state.result with
    processedRunIds := state.result.processedRunIds ++ session.processedRunIds
    recoveredRunIds := state.result.recoveredRunIds ++ (if session.recovered then [id] else [])
    blockers := state.result.blockers ++ session.blockers }
  files := update state.files id session.file
  unitBindings := (session.binding.map fun unit => (unit, id)).toList ++ state.unitBindings
  blockedIds := (if session.blocked then [id] else []) ++ state.blockedIds
  trustworthy := state.trustworthy && session.trustworthy
  addressed := state.addressed

/-- Something that is no Run is a blocker. -/
def State.block (state : State) (blocker : Blocker) : State :=
  { state with result := { state.result with blockers := state.result.blockers ++ [blocker] } }

/-- A blocker after which the inventory is not to be trusted. -/
def State.distrust (state : State) (blocker : Blocker) : State :=
  { state.block blocker with trustworthy := false }

/-- An error of the inventory. -/
def State.inventoryError (state : State) (error : RunId × String) : State :=
  let state := state.distrust { runId := error.1, backend := "unknown", reason := error.2 }
  { state with blockedIds := if error.1 = "" then state.blockedIds else error.1 :: state.blockedIds }

def recoverRuns (host : Host) (boot : String) : List RunId → State → Except Unit Unit × State
  | [], state => (.ok (), state)
  | id :: ids, state =>
      match recoverRun (host.runs id) id boot { file := state.files id } with
      | (.ok _, session) => recoverRuns host boot ids (state.absorb id session)
      | (.error _, session) => (.error (), { state with files := update state.files id session.file })

/-- `[:1000]` -/
def bounded (reason : String) : String := String.ofList (reason.toList.take 1000)

/-- The blocker of a unit that no Run is bound to. -/
def orphanBlocker (unit outcome : String) : Blocker where
  runId := ""
  backend := "systemd_cgroup"
  reason := bounded s!"orphan command unit {unit} {outcome}"

/-- The body of the loop over the loaded units. -/
def recoverUnit (host : Host) (state : State) (unit : String) : State :=
  let stray (state : State) (blocker : Blocker) : State :=
    let state := state.block blocker
    { state with result := { state.result with strayUnits := state.result.strayUnits ++ [unit] } }
  match state.unitBindings.lookup unit with
  | some id =>
      if id ∈ state.blockedIds then state
      else
        let state := stray state {
          runId := id
          backend := "systemd_cgroup"
          reason := "a current-boot bound transient unit remains outside non-terminal recovery" }
        { state with blockedIds := id :: state.blockedIds }
  | none =>
      if !state.trustworthy then
        stray state (orphanBlocker unit
          "was not signalled because persisted ownership inventory is unverifiable")
      else
        let orphan := host.orphan unit
        let state := { state with addressed := unit :: state.addressed }
        if orphan.verification.status = .notRunning ∧ orphan.gone then
          { state with result := { state.result with
              reconciledOrphanUnits := state.result.reconciledOrphanUnits ++ [unit] } }
        else stray state (orphanBlocker unit
          s!"remains unresolved: {orphan.verification.status.value}: {orphan.verification.reason}")

/-- The part of `recover_startup` up to the Runs: the boot, the Run ids, and the state. -/
def openInventory (host : Host) (files : RunId → RunFile) : String × List RunId × State :=
  let start : State := { files }
  let (boot, state) :=
    match host.boot with
    | .ok boot => (boot, start)
    | .error message =>
        ("", start.distrust {
          runId := ""
          backend := "unknown"
          reason := s!"current boot identity is unavailable: {message}" })
  match persistedRunIds host with
  | .ok (ids, errors) => (boot, ids, errors.foldl State.inventoryError state)
  | .error message =>
      (boot, [], state.distrust {
        runId := ""
        backend := "unknown"
        reason := s!"persisted Run inventory is unverifiable: {message}" })

/-- The part of `recover_startup` after the Runs. -/
def recoverUnits (host : Host) (state : State) : State :=
  match host.units with
  | .error message =>
      let state := state.block {
        runId := ""
        backend := "systemd_cgroup"
        reason := s!"DebBuilder command cgroup inventory is unverifiable: {message}" }
      { state with result := { state.result with unitScanError := message } }
  | .ok units => (units.insertionSort (· ≤ ·)).foldl (recoverUnit host) state

/-- `recover_startup`, from these documents -/
def recoverStartup (host : Host) (files : RunId → RunFile) : Except Unit StartupRecoveryResult × State :=
  let (boot, ids, state) := openInventory host files
  match recoverRuns host boot ids state with
  | (.error _, state) => (.error (), state)
  | (.ok _, state) =>
      let state := recoverUnits host state
      (.ok state.result, state)

end DebBuilder.Recovery
