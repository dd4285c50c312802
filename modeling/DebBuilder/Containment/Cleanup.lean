import Mathlib
import DebBuilder.Containment.Absence
import DebBuilder.Lib.Dict
import DebBuilder.Lib.Latch
import DebBuilder.Lib.Journal
import DebBuilder.Lib.Pool

/-!
# Cleanup blockers

A workload whose cleanup could not be proved is published as a blocker. Reconciliation
proves blockers absent while nobody holds the gate and removes them afterwards, when key,
value and generation are still those it had found. Admission asks the registry.

One section of a program is what the code does while it holds the gate. A section also
writes down what it did; no program reads this journal, nor the numbers it gives the passes.

## Main definitions

* `Gate` — the registry, with its journal.
* `publishCleanupBlocker`, `reconcileCleanupBlockers` — the two ways to change it.
* `reconcileCleanupForAdmission`, `requireCleanupAdmissionClear` — the checks of admission.
* `cleanup` — the calls that the threads of the process start.
-/

namespace DebBuilder.Containment
open Lib

/-- The key of a blocker. -/
structure Key where
  kind : Kind
  bootId : String
  unitName : String
  invocationId : String
  deriving DecidableEq, Repr

namespace Key

def texts (key : Key) : List String := [key.kind.text, key.bootId, key.unitName, key.invocationId]

/-- The order of the tuples of the source. -/
def before (a b : Key) : Prop := ¬ b.texts < a.texts

instance : DecidableRel before := fun a b => inferInstanceAs (Decidable (¬ b.texts < a.texts))

end Key

def CleanupBlocker.key (blocker : CleanupBlocker) : Key :=
  ⟨blocker.kind, blocker.bootId, blocker.unitName, blocker.invocationId⟩

/-- `MAX_CLEANUP_BLOCKERS` -/
def maxCleanupBlockers : Nat := 256

/-- What happened at the gate. -/
inductive Event
  /-- A publication was stored, or renewed, with this generation. -/
  | published (key : Key) (generation : Nat)
  /-- A publication exceeded the capacity. -/
  | refused (key : Key)
  | proofBegan (pass : Nat) (key : Key)
  | proofEnded (pass : Nat) (key : Key) (seen : Observation) (status : AbsenceStatus)
  | removed (pass : Nat) (key : Key)
  | admitted

/-- The registry of the process. -/
structure Gate where
  blockers : Dict Key CleanupBlocker := ∅
  generations : Dict Key Nat := ∅
  revision : Nat := 0
  saturated : Bool := false
  passes : Nat := 0
  events : List Event := []

/-- The identity of a workload, as its owner recorded it. -/
structure RecordedIdentity where
  runId : Option String
  commandId : Option String
  bootId : Option String
  unitName : Option String
  controlGroup : Option String
  invocationId : Option String
  deriving DecidableEq, Repr

/-- What the code does not decide. -/
structure Choice where
  /-- What a proof observes. -/
  seen : Observation
  /-- The probe that the capability check could not clean up, and why. -/
  probe : Option (String × RecordedIdentity)

/-- `RunAdmissionError`, or an exception of the containment code. -/
inductive Raised
  | fault (fault : Fault)
  | runAdmission (code message : String) (status : Nat) (reason : String)
  deriving DecidableEq, Repr

structure CleanupReconciliation where
  examined : Nat
  provenGone : Nat
  stillPresent : Nat
  ambiguous : Nat
  unavailable : Nat
  removed : Nat
  stale : Nat
  remaining : Nat
  saturated : Bool
  deriving DecidableEq, Repr

def CleanupReconciliation.admissionBlocked (result : CleanupReconciliation) : Bool :=
  result.saturated || result.remaining > 0

namespace Gate

def log (s : Gate) (e : Event) : Gate := { s with events := s.events ++ [e] }

/-- `_cleanup_blocker_summary` -/
def cleanupBlockerSummary (s : Gate) (kind : Option Kind) : String :=
  if s.saturated then "containment cleanup blocker capacity exceeded"
  else
    let blockers := s.blockers.items.filter fun e => kind.all (e.2.kind == ·)
    if blockers = [] then ""
    else toString blockers.length ++ " containment cleanup object(s) unresolved"

def containmentCleanupBlocker (s : Gate) : String := s.cleanupBlockerSummary none

/-- The part of a publication that holds the gate. -/
def publish (blocker : CleanupBlocker) (s : Gate) : Gate :=
  if blocker.key ∉ s.blockers ∧ maxCleanupBlockers ≤ s.blockers.keys.length then
    { s with saturated := true }.log (.refused blocker.key)
  else
    let revision := s.revision + 1
    { s with
      revision
      blockers := s.blockers.setDefault blocker.key blocker
      generations := s.generations.set blocker.key revision }.log (.published blocker.key revision)

end Gate

abbrev Threaded (α : Type) := Prog Gate Choice Raised α

section
variable (sha256 : String → String)

/-- The blocker of a recorded identity. -/
def cleanupBlocker (kind : Kind) (reason : String) (identity : RecordedIdentity) :
    Except Fault CleanupBlocker := do
  let runId ← demand (.key "'run_id'") identity.runId
  let commandId ← demand (.key "'command_id'") identity.commandId
  let unitName ← commandUnitName sha256 runId commandId
  refuse (identity.unitName ≠ some unitName) (.containment "cleanup blocker unit identity is invalid")
  let expected ← expectedControlGroup unitName
  let group := match identity.controlGroup with
    | none | some "" => expected
    | some group => group
  refuse (group ≠ expected) (.containment "cleanup blocker cgroup identity is invalid")
  let bootId ← demand (.key "'boot_id'") identity.bootId
  let reason := if reason = "" then "containment cleanup is unresolved" else reason
  return {
    kind, bootId, runId, commandId, unitName
    reason := (reason.take 500).toString
    invocationId := identity.invocationId.getD ""
    controlGroup := group }

/-- What a publication returns and leaves. -/
def Gate.publication (kind : Kind) (reason : String) (identity : RecordedIdentity) (s : Gate) :
    Except Raised String × Gate :=
  match cleanupBlocker sha256 kind reason identity with
  | .error e => (.error (.fault e), s)
  | .ok blocker => (.ok ((s.publish blocker).cleanupBlockerSummary kind), s.publish blocker)

/-- `_publish_cleanup_blocker`; its kind is one of two by its type. -/
def publishCleanupBlocker (kind : Kind) (reason : String) (identity : RecordedIdentity) : Threaded String :=
  .act fun _ s => s.publication sha256 kind reason identity

/-- One entry of the snapshot of a pass. -/
structure Entry where
  key : Key
  blocker : CleanupBlocker
  generation : Nat

/-- An entry and what its proof returned. -/
structure Outcome extends Entry where
  status : AbsenceStatus

namespace Gate

/-- The blockers in the order of their keys, each with its generation. -/
def snapshot (s : Gate) : List Entry :=
  (s.blockers.keys.insertionSort Key.before).filterMap fun key =>
    (s.blockers.lookup key).map fun blocker => ⟨key, blocker, (s.generations.lookup key).getD 0⟩

/-- Whether an entry is still what the pass had found. -/
def Current (s : Gate) (entry : Entry) : Prop :=
  s.blockers.lookup entry.key = some entry.blocker ∧
    (s.generations.lookup entry.key).getD 0 = entry.generation

instance (s : Gate) (entry : Entry) : Decidable (s.Current entry) :=
  inferInstanceAs (Decidable (_ ∧ _))

def remove (pass : Nat) (key : Key) (s : Gate) : Gate :=
  { s with blockers := s.blockers.erase key, generations := s.generations.erase key }.log (.removed pass key)

/-- One outcome of a pass is applied; the counts are of the removed and of the stale. -/
def applyOutcome (pass : Nat) (acc : Gate × Nat × Nat) (outcome : Outcome) : Gate × Nat × Nat :=
  if outcome.status ≠ .provenGone then acc
  else if acc.1.Current outcome.toEntry then (acc.1.remove pass outcome.key, acc.2.1 + 1, acc.2.2)
  else (acc.1, acc.2.1, acc.2.2 + 1)

end Gate

/-- `counts[status]` -/
def countOf (outcomes : List Outcome) (status : AbsenceStatus) : Nat :=
  (outcomes.filter (·.status == status)).length

/-- The status that a pass notes; whatever the proof raises, it is unavailable. -/
def proofStatus (blocker : CleanupBlocker) (seen : Observation) : AbsenceStatus :=
  match proveContainmentAbsent sha256 blocker seen with
  | .ok proof => proof.status
  | .error _ => .proofUnavailable

/-- The proofs of a pass, one after another, without the gate. -/
def proveAll (pass : Nat) : List Entry → Threaded (List Outcome)
  | [] => .pure []
  | entry :: rest =>
      (Prog.act fun _ s => (.ok (), s.log (.proofBegan pass entry.key))).bind fun () =>
        (Prog.act fun c s =>
          let status := proofStatus sha256 entry.blocker c.seen
          (.ok status, s.log (.proofEnded pass entry.key c.seen status))).bind fun status =>
            (proveAll pass rest).bind fun outcomes => .pure (⟨entry, status⟩ :: outcomes)

def reconcileCleanupBlockers : Threaded CleanupReconciliation :=
  (Prog.act fun _ s => (.ok (s.passes, s.snapshot), { s with passes := s.passes + 1 })).bind fun (pass, snapshot) =>
    (proveAll sha256 pass snapshot).bind fun outcomes =>
      .act fun _ s =>
        let (s, removed, stale) := outcomes.foldl (Gate.applyOutcome pass) (s, 0, 0)
        (.ok {
          examined := snapshot.length
          provenGone := countOf outcomes .provenGone
          stillPresent := countOf outcomes .stillPresentAndOwned
          ambiguous := countOf outcomes .presentButIdentityAmbiguous
          unavailable := countOf outcomes .proofUnavailable
          removed, stale
          remaining := s.blockers.keys.length
          saturated := s.saturated }, s)

/-! ## Admission -/

def cleanupAdmissionError (reason : String) : Raised :=
  .runAdmission "execution_recovery_unresolved"
    "Build/Test admission is blocked because containment cleanup is unresolved" 503 reason

def containmentCleanupBlocker : Threaded String := .look fun _ s => .ok s.containmentCleanupBlocker

/-- The end of a check: what is reported refuses the admission. -/
def refuseAdmission (blocker : String) (alreadyReconciled : Bool) : Threaded Bool :=
  .ofExcept (if blocker ≠ "" then .error (cleanupAdmissionError blocker) else .ok alreadyReconciled)

/-- `_reconcile_cleanup_for_admission` -/
def reconcileCleanupForAdmission (alreadyReconciled : Bool) : Threaded Bool :=
  containmentCleanupBlocker.bind fun blocker =>
    if blocker ≠ "" ∧ alreadyReconciled = false then
      -- Whatever the pass raised, the registry is asked again.
      (reconcileCleanupBlockers sha256).attempt.bind fun _ =>
        containmentCleanupBlocker.bind fun blocker => refuseAdmission blocker true
    else refuseAdmission blocker alreadyReconciled

/-- The capability check of an admission, which may leave a probe behind. -/
def resourceLimitCapability : Threaded String :=
  .act fun c s => match c.probe with
    | none => (.ok "", s)
    | some (reason, identity) => s.publication sha256 .probe reason identity

/-- `_prepare_run_admission`, as far as it concerns the blockers. -/
def prepareRunAdmission : Threaded Unit :=
  (reconcileCleanupForAdmission sha256 false).bind fun reconciled =>
    (resourceLimitCapability sha256).bind fun _ =>
      (reconcileCleanupForAdmission sha256 reconciled).bind fun _ => .pure ()

/-- `_require_cleanup_admission_clear` and the admission behind it, which keeps the gate. -/
def requireCleanupAdmissionClear : Threaded Unit :=
  .act fun _ s =>
    if s.containmentCleanupBlocker ≠ "" then (.error (cleanupAdmissionError s.containmentCleanupBlocker), s)
    else (.ok (), s.log .admitted)

/-! ## The threads -/

/-- The calls that a thread can make. -/
inductive Call
  | latchRuntime (reason : String) (identity : RecordedIdentity)
  | latchProbe (reason : String) (identity : RecordedIdentity)
  | reconcile
  | check
  | enqueue

inductive Answer
  | summary (text : String)
  | reconciliation (result : CleanupReconciliation)
  | admitted
  deriving DecidableEq, Repr

def code : Call → Threaded Answer
  | .latchRuntime reason identity =>
      (publishCleanupBlocker sha256 .runtime reason identity).bind fun text => .pure (.summary text)
  | .latchProbe reason identity =>
      (publishCleanupBlocker sha256 .probe reason identity).bind fun text => .pure (.summary text)
  | .reconcile => (reconcileCleanupBlockers sha256).bind fun result => .pure (.reconciliation result)
  | .check => containmentCleanupBlocker.bind fun text => .pure (.summary text)
  | .enqueue =>
      (prepareRunAdmission sha256).bind fun () =>
        requireCleanupAdmissionClear.bind fun () => .pure .admitted

/-- The process; its registry does not outlive it. -/
def cleanup : System Call Gate Choice Raised Answer := ⟨code sha256, fun _ => none⟩

end
end DebBuilder.Containment
