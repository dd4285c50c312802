import Mathlib
import DebBuilder.Containment.Names

/-!
# Proofs of absence

Whether the unit of a recorded identity and its control group are gone. The proof only
reads, and everything it reads is an argument: the boot id, the namespace lease, the
answers of systemd and of the control group file system in its two rounds.

## Main definitions

* `snapshotMatchesOwnership` — whether a loaded unit is the one that an identity names.
* `Observation` — the answers that one proof received.
* `proveContainmentAbsent` — the verdict on an identity.

## Main results

* `absent_of_provenGone` — a proof of absence saw neither unit nor control group, twice.
-/

namespace DebBuilder.Containment
open Lib

/-- What systemd shows of a unit, as far as its ownership depends on it. -/
structure UnitSnapshot where
  unitName : String
  description : String
  transient : Bool
  invocationId : String
  controlGroup : String
  activeState : String
  subState : String
  serviceType : String
  exitType : String
  killMode : String
  deriving DecidableEq, Repr

inductive VerificationStatus
  | «match» | mismatch | unverifiable | notRunning
  deriving DecidableEq, Repr

structure VerificationResult where
  status : VerificationStatus
  reason : String
  deriving DecidableEq, Repr

/-- The identity that names a unit. -/
structure UnitIdentity where
  runId : String
  commandId : String
  unitName : String
  deriving DecidableEq, Repr

/-- The first reason whose check failed, or `matched`. -/
def verdict (matched : String) (checks : List (Bool × String)) : VerificationResult :=
  match checks.find? (·.1) with
  | some (_, reason) => ⟨.mismatch, reason⟩
  | none => ⟨.match, matched⟩

/-- A property value is shown only when it looks like one of systemd's. -/
def observedValue (actual : String) : String :=
  let plain := actual.toList.all fun c => ('a' ≤ c && c ≤ 'z') || c == '-'
  if plain ∧ 1 ≤ actual.length ∧ actual.length ≤ 32 then actual else "<invalid>"

def propertyCheck (name actual expected : String) : Bool × String :=
  (actual != expected, "containment property mismatch: " ++ name ++ " expected=" ++ expected ++
    " observed=" ++ observedValue actual)

/-- The status of a proof of absence. -/
inductive AbsenceStatus
  | provenGone | stillPresentAndOwned | presentButIdentityAmbiguous | proofUnavailable
  deriving DecidableEq, Repr

structure AbsenceProof where
  status : AbsenceStatus
  reason : String
  deriving DecidableEq, Repr

inductive Kind
  | probe | runtime
  deriving DecidableEq, Repr

def Kind.text : Kind → String
  | probe => "probe"
  | runtime => "runtime"

structure CleanupBlocker where
  kind : Kind
  reason : String
  bootId : String
  runId : String
  commandId : String
  unitName : String
  invocationId : String
  controlGroup : String
  state : String := "uncertain"
  deriving DecidableEq, Repr

/-- The answers of one of the two rounds of a proof. -/
structure Round where
  snapshot : Except Fault (Option UnitSnapshot)
  /-- Whether `os.stat` found the control group. -/
  cgroupFound : Except Fault Bool

/-- What one proof is answered by everything outside the process. -/
structure Observation where
  bootId : Except Fault String
  lease : Except Fault Unit
  connection : Except Fault Unit
  first : Round
  second : Round
  /-- What closing the lease raises. -/
  releaseFault : Option Fault

/-- Neither unit nor control group were there. -/
def Round.Absent (round : Round) : Prop := round.snapshot = .ok none ∧ round.cgroupFound = .ok false

/-- The proof was made under the lease and both of its rounds found nothing. -/
structure Observation.Absent (seen : Observation) : Prop where
  lease : seen.lease = .ok ()
  connection : seen.connection = .ok ()
  first : seen.first.Absent
  second : seen.second.Absent

section
variable (sha256 : String → String)

def snapshotMatchesOwnership (snapshot : UnitSnapshot) (metadata : UnitIdentity) :
    Except Fault VerificationResult := do
  let expectedUnit ← commandUnitName sha256 metadata.runId metadata.commandId
  let expectedGroup ← expectedControlGroup expectedUnit
  let expectedDescription ← unitDescription sha256 metadata.runId metadata.commandId
  return verdict "precommitted transient unit ownership matches" [
    (metadata.unitName != expectedUnit || snapshot.unitName != expectedUnit,
      "transient unit name does not match command identity"),
    (!snapshot.transient, "unit is not transient"),
    (snapshot.description != expectedDescription,
      "transient unit description binding does not match"),
    propertyCheck "Type" snapshot.serviceType "exec",
    propertyCheck "ExitType" snapshot.exitType "cgroup",
    propertyCheck "KillMode" snapshot.killMode "control-group",
    (snapshot.controlGroup != "" && snapshot.controlGroup != expectedGroup,
      "transient unit control group is outside its expected boundary")]

/-- `_cgroup_is_absent` -/
def cgroupIsAbsent (controlGroup : String) (found : Except Fault Bool) : Except Fault Bool := do
  let expected ← expectedControlGroup (PosixPath.parse controlGroup).name
  refuse (controlGroup ≠ expected)
    (.containment "control group path is not confined to a DebBuilder command unit")
  let found ← found
  return !found

/-- The verdict on a unit that is still loaded. -/
def presentProof (identity : CleanupBlocker) (unitName currentBoot : String) (snapshot : UnitSnapshot) :
    Except Fault AbsenceProof :=
  if identity.bootId ≠ currentBoot ∨ identity.invocationId = "" ∨
      snapshot.invocationId ≠ identity.invocationId then
    .ok ⟨.presentButIdentityAmbiguous,
      "unit name is present without the recorded boot/invocation identity"⟩
  else do
    let verification ← snapshotMatchesOwnership sha256 snapshot ⟨identity.runId, identity.commandId, unitName⟩
    return match verification.status with
      | .match => ⟨.stillPresentAndOwned, "recorded unit remains loaded"⟩
      | _ => ⟨.presentButIdentityAmbiguous, verification.reason⟩

/-- One round; `none` when it found nothing. -/
def observe (identity : CleanupBlocker) (unitName group currentBoot : String) (round : Round) :
    Except Fault (Option AbsenceProof) := do
  match ← round.snapshot with
  | some snapshot =>
      let proof ← presentProof sha256 identity unitName currentBoot snapshot
      return some proof
  | none =>
      let absent ← cgroupIsAbsent group round.cgroupFound
      return if absent then none
        else some ⟨.presentButIdentityAmbiguous, "unit is absent but canonical cgroup remains"⟩

/-- What is read while the lease is held. The unit reads enclose those of the control group,
so a unit of the same name that appears meanwhile is seen. -/
def inspect (identity : CleanupBlocker) (unitName group currentBoot : String) (seen : Observation) :
    Except Fault AbsenceProof := do
  seen.connection
  match ← observe sha256 identity unitName group currentBoot seen.first with
  | some proof => return proof
  | none =>
      match ← observe sha256 identity unitName group currentBoot seen.second with
      | some proof => return proof
      | none => return ⟨.provenGone, "unit and canonical cgroup are absent"⟩

/-- What precedes the reads; `none` when the recorded identity is invalid. -/
def prepare (identity : CleanupBlocker) (seen : Observation) :
    Except Fault (Option (String × String × String)) := do
  let unitName ← commandUnitName sha256 identity.runId identity.commandId
  let group ← expectedControlGroup unitName
  if identity.unitName ≠ unitName ∨ identity.controlGroup ≠ group then
    return none
  else
    let currentBoot ← seen.bootId
    seen.lease
    return some (unitName, group, currentBoot)

/-- The `except` clause of the proof. -/
def unavailable (result : Except Fault AbsenceProof) : Except Fault AbsenceProof :=
  match result with
  | .ok proof => .ok proof
  | .error e => if e.foreseen then .ok ⟨.proofUnavailable, (e.text.take 300).toString⟩ else .error e

/-- The `finally` clause of a proof that holds the lease. -/
def released (releaseFault : Option Fault) (result : Except Fault AbsenceProof) : Except Fault AbsenceProof :=
  match releaseFault with
  | some e => .error e
  | none => result

def proveContainmentAbsent (identity : CleanupBlocker) (seen : Observation) : Except Fault AbsenceProof :=
  match prepare sha256 identity seen with
  | .error e => unavailable (.error e)
  | .ok none => .ok ⟨.proofUnavailable, "recorded containment identity is invalid"⟩
  | .ok (some (unitName, group, currentBoot)) =>
      released seen.releaseFault (unavailable (inspect sha256 identity unitName group currentBoot seen))

variable {sha256 : String → String} {identity : CleanupBlocker} {seen : Observation} {proof : AbsenceProof}
  {unitName group currentBoot : String} {round : Round}

/-! ## What a proof of absence has seen -/

theorem presentProof_ne_provenGone {snapshot : UnitSnapshot}
    (h : presentProof sha256 identity unitName currentBoot snapshot = .ok proof) :
    proof.status ≠ .provenGone := by
  unfold presentProof at h
  split at h
  · cases h
    decide
  · simp only [bind_eq_ok, pure_eq_ok] at h
    obtain ⟨verification, -, rfl⟩ := h
    split <;> simp

theorem observe_ne_provenGone (h : observe sha256 identity unitName group currentBoot round = .ok (some proof)) :
    proof.status ≠ .provenGone := by
  simp only [observe, bind_eq_ok] at h
  obtain ⟨snapshot, -, h⟩ := h
  cases snapshot with
  | some snapshot =>
      simp only [bind_eq_ok, pure_eq_ok, Option.some.injEq] at h
      obtain ⟨proof', hproof, rfl⟩ := h
      exact presentProof_ne_provenGone hproof
  | none =>
      simp only [bind_eq_ok, pure_eq_ok] at h
      obtain ⟨absent, -, h⟩ := h
      cases absent with
      | true => simp at h
      | false =>
          simp only [Bool.false_eq_true, if_false, Option.some.injEq] at h
          rw [← h]
          decide

theorem round_absent (h : observe sha256 identity unitName group currentBoot round = .ok none) : round.Absent := by
  simp only [observe, bind_eq_ok] at h
  obtain ⟨snapshot, hsnapshot, h⟩ := h
  cases snapshot with
  | some snapshot =>
      simp only [bind_eq_ok] at h
      obtain ⟨proof, -, h⟩ := h
      exact nomatch pure_eq_ok.1 h
  | none =>
      simp only [bind_eq_ok, pure_eq_ok] at h
      obtain ⟨absent, habsent, h⟩ := h
      refine ⟨hsnapshot, ?_⟩
      cases absent with
      | false => simp at h
      | true =>
          simp only [cgroupIsAbsent, bind_eq_ok, pure_eq_ok] at habsent
          obtain ⟨_, -, _, -, found, hfound, hnot⟩ := habsent
          simpa [hfound] using hnot

theorem inspect_provenGone (h : inspect sha256 identity unitName group currentBoot seen = .ok proof)
    (hgone : proof.status = .provenGone) :
    seen.connection = .ok () ∧ seen.first.Absent ∧ seen.second.Absent := by
  simp only [inspect, bind_eq_ok] at h
  obtain ⟨_, hconnection, first, hfirst, h⟩ := h
  cases first with
  | some first =>
      obtain rfl := pure_eq_ok.1 h
      exact absurd hgone (observe_ne_provenGone hfirst)
  | none =>
      simp only [bind_eq_ok] at h
      obtain ⟨second, hsecond, h⟩ := h
      cases second with
      | some second =>
          obtain rfl := pure_eq_ok.1 h
          exact absurd hgone (observe_ne_provenGone hsecond)
      | none => exact ⟨hconnection, round_absent hfirst, round_absent hsecond⟩

/-- An exception never proves absence. -/
theorem unavailable_provenGone {result : Except Fault AbsenceProof} (h : unavailable result = .ok proof)
    (hgone : proof.status = .provenGone) : result = .ok proof := by
  cases result with
  | ok proof' => exact h
  | error e =>
      simp only [unavailable] at h
      split at h
      · cases h
        exact nomatch hgone
      · exact nomatch h

/-- A proof of absence held the lease and found nothing in either round. -/
theorem absent_of_provenGone (h : proveContainmentAbsent sha256 identity seen = .ok proof)
    (hgone : proof.status = .provenGone) : seen.Absent := by
  unfold proveContainmentAbsent at h
  split at h
  · next e _ => exact nomatch unavailable_provenGone h hgone
  · cases h
    exact nomatch hgone
  · next unitName group currentBoot hprepare =>
    cases hrelease : seen.releaseFault with
    | some e =>
        rw [hrelease] at h
        exact nomatch h
    | none =>
        rw [hrelease] at h
        have hinspect := unavailable_provenGone h hgone
        obtain ⟨hconnection, hfirst, hsecond⟩ := inspect_provenGone hinspect hgone
        simp only [prepare, bind_eq_ok] at hprepare
        obtain ⟨_, -, _, -, hprepare⟩ := hprepare
        split at hprepare
        · exact nomatch pure_eq_ok.1 hprepare
        · simp only [bind_eq_ok] at hprepare
          obtain ⟨_, -, _, hlease, -⟩ := hprepare
          exact ⟨hlease, hconnection, hfirst, hsecond⟩

end
end DebBuilder.Containment
