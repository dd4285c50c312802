import Mathlib
import DebBuilder.Lib.Fallible
import DebBuilder.Lib.Latch

/-!
# Filesystem pressure

`StorageInventory.collect_capacity` measures the filesystem of the build workspaces and
that of the repository, and says of each whether it is under pressure. What it said last
is remembered, so that a filesystem leaves pressure later than it entered it.

## Main definitions

* `validatePolicy` — the policy and its bounds.
* `collectCapacity` — one measurement of both filesystems.
* `sinceChange` — what was measured since the thresholds changed.

## Main statements

* `pressure_hysteresis` — the state reported is the latch of these measurements.
-/

namespace DebBuilder.Storage
open Lib

/-! ## The policy -/

def maxSafeJsonInteger : Int := 2 ^ 53 - 1

/-- A value of the settings. -/
inductive Setting where
  | bool (b : Bool)
  | int (n : Int)
  | other
  deriving DecidableEq, Repr

/-- The settings object `workspace_cleanup`, with the fields that it has. -/
structure Settings where
  enabled : Option Setting := none
  failedWorkspacesToRetain : Option Setting := none
  pressureMinimumFreeBytes : Option Setting := none
  pressureMinimumFreePercent : Option Setting := none
  pressureTargetFreeBytes : Option Setting := none
  pressureTargetFreePercent : Option Setting := none
  deriving DecidableEq, Repr

/-- The four configured thresholds. -/
structure Thresholds where
  minimumFreeBytes : Int
  minimumFreePercent : Int
  targetFreeBytes : Int
  targetFreePercent : Int
  bytes_pos : 0 < minimumFreeBytes
  percent_pos : 1 ≤ minimumFreePercent
  bytes_lt : minimumFreeBytes < targetFreeBytes
  percent_lt : minimumFreePercent < targetFreePercent
  deriving DecidableEq, Repr

/-- What `validate_policy` returns. -/
structure Policy where
  enabled : Bool
  failedWorkspacesToRetain : Int
  thresholds : Thresholds
  deriving DecidableEq, Repr

/-- `DEFAULT_POLICY` -/
def defaultPolicy : Policy where
  enabled := true
  failedWorkspacesToRetain := 5
  thresholds := {
    minimumFreeBytes := 536870912
    minimumFreePercent := 10
    targetFreeBytes := 1073741824
    targetFreePercent := 15
    bytes_pos := by decide
    percent_pos := by decide
    bytes_lt := by decide
    percent_lt := by decide }

def Setting.bool? : Setting → Option Bool
  | .bool b => some b
  | _ => none

/-- `type(value) is int`: a Boolean is none -/
def Setting.int? : Setting → Option Int
  | .int n => some n
  | _ => none

/-- An integer setting within bounds. -/
def boundedInt (error : String) (low high : Int) (value : Setting) : Except String { n : Int // low ≤ n ∧ n ≤ high } := do
  let n ← demand error value.int?
  let within ← require (low ≤ n ∧ n ≤ high) error
  return ⟨n, within.down⟩

/-- `field`, an amount of free bytes. -/
def freeBytes (field : String) (value : Setting) : Except String { n : Int // 1 ≤ n ∧ n ≤ maxSafeJsonInteger } :=
  boundedInt s!"{field} must be an integer between 1 and {maxSafeJsonInteger}" 1 maxSafeJsonInteger value

/-- `field`, a share of free space. -/
def freePercent (field : String) (value : Setting) : Except String { n : Int // 1 ≤ n ∧ n ≤ 99 } :=
  boundedInt s!"{field} must be an integer between 1 and 99" 1 99 value

/-- `validate_policy`; `none` is a value that is no object -/
def validatePolicy (policy : Option Settings) : Except String Policy := do
  let settings ← demand "workspace_cleanup settings must be an object" policy
  let enabled ← demand "workspace_cleanup.enabled must be a boolean"
    (settings.enabled.getD (.bool defaultPolicy.enabled)).bool?
  let count ← boundedInt "failed_workspaces_to_retain must be an integer between 0 and 1000" 0 1000
    (settings.failedWorkspacesToRetain.getD (.int defaultPolicy.failedWorkspacesToRetain))
  let minimumBytes ← freeBytes "pressure_minimum_free_bytes"
    (settings.pressureMinimumFreeBytes.getD (.int defaultPolicy.thresholds.minimumFreeBytes))
  let targetBytes ← freeBytes "pressure_target_free_bytes"
    (settings.pressureTargetFreeBytes.getD (.int defaultPolicy.thresholds.targetFreeBytes))
  let minimumPercent ← freePercent "pressure_minimum_free_percent"
    (settings.pressureMinimumFreePercent.getD (.int defaultPolicy.thresholds.minimumFreePercent))
  let targetPercent ← freePercent "pressure_target_free_percent"
    (settings.pressureTargetFreePercent.getD (.int defaultPolicy.thresholds.targetFreePercent))
  let bytesLt ← require (minimumBytes.1 < targetBytes.1)
    "pressure_target_free_bytes must exceed pressure_minimum_free_bytes"
  let percentLt ← require (minimumPercent.1 < targetPercent.1)
    "pressure_target_free_percent must exceed pressure_minimum_free_percent"
  return {
    enabled
    failedWorkspacesToRetain := count
    thresholds := {
      minimumFreeBytes := minimumBytes
      minimumFreePercent := minimumPercent
      targetFreeBytes := targetBytes
      targetFreePercent := targetPercent
      bytes_pos := minimumBytes.2.1
      percent_pos := minimumPercent.2.1
      bytes_lt := bytesLt.down
      percent_lt := percentLt.down } }

/-- An empty object stands for the defaults. -/
example : validatePolicy (some {}) = .ok defaultPolicy := by rfl

/-- `effective_pressure_thresholds`: percentages of the total are rounded up -/
def effectivePressureThresholds (totalBytes : Int) (thresholds : Thresholds) : Int × Int :=
  let startPercent := (totalBytes * thresholds.minimumFreePercent + 99) / 100
  let targetPercent := (totalBytes * thresholds.targetFreePercent + 99) / 100
  (max thresholds.minimumFreeBytes startPercent, max thresholds.targetFreeBytes targetPercent)

/-- Of no filesystem the start exceeds the target. -/
theorem effectivePressureThresholds_le (totalBytes : Int) (thresholds : Thresholds) :
    (effectivePressureThresholds totalBytes thresholds).1 ≤
      (effectivePressureThresholds totalBytes thresholds).2 := by
  have hbytes := thresholds.bytes_lt
  have hpositive := thresholds.bytes_pos
  rcases Int.le_total 0 totalBytes with htotal | htotal
  · have hpercent : totalBytes * thresholds.minimumFreePercent ≤ totalBytes * thresholds.targetFreePercent :=
      Int.mul_le_mul_of_nonneg_left (Int.le_of_lt thresholds.percent_lt) htotal
    simp only [effectivePressureThresholds]
    omega
  · -- a negative total leaves the amounts in bytes
    have hpercent : totalBytes * thresholds.minimumFreePercent ≤ 0 :=
      Int.mul_nonpos_of_nonpos_of_nonneg htotal (by have := thresholds.percent_pos; omega)
    simp only [effectivePressureThresholds]
    omega

/-! ## Measurements -/

/-- What `os.fstat` and `os.fstatvfs` answer for an open directory. -/
structure Capacity where
  st_dev : Int
  f_frsize : Int
  f_blocks : Int
  f_bfree : Int
  f_bavail : Int
  deriving DecidableEq, Repr

/-- The directory that was measured. -/
inductive Scope where
  | builds
  | dataParent
  | repository
  deriving DecidableEq, Repr

/-- A measurement that is `ready`. -/
structure Measurement where
  measuredScope : Scope
  deviceId : Int
  totalBytes : Int
  usedBytes : Int
  freeBytes : Int
  availableBytes : Int
  deriving DecidableEq, Repr

/-- An exception on the way: of a class that the measurement catches, with its name
(`OSError`, `TypeError`, `ValueError`, `OverflowError`), or another. -/
inductive Raised where
  | caught (name : String)
  | escaped
  deriving DecidableEq, Repr

/-- `_filesystem_measurement` -/
def filesystemMeasurement (capacity : Capacity) (measuredScope : Scope) : Except Raised Measurement := do
  refuse (capacity.f_frsize ≤ 0 ∨ capacity.f_blocks ≤ 0 ∨
    ¬ (0 ≤ capacity.f_bavail ∧ capacity.f_bavail ≤ capacity.f_bfree ∧ capacity.f_bfree ≤ capacity.f_blocks) ∨
    ¬ (0 ≤ capacity.st_dev ∧ capacity.st_dev ≤ maxSafeJsonInteger)) (.caught "ValueError")
  let total := capacity.f_blocks * capacity.f_frsize
  let free := capacity.f_bfree * capacity.f_frsize
  let available := capacity.f_bavail * capacity.f_frsize
  let used := total - free
  refuse (∃ value ∈ [total, used, free, available], value > maxSafeJsonInteger) (.caught "ValueError")
  return {
    measuredScope
    deviceId := capacity.st_dev
    totalBytes := total
    usedBytes := used
    freeBytes := free
    availableBytes := available }

/-- A measurement, or the diagnostic of the one that failed. -/
inductive Reading where
  | ready (measurement : Measurement)
  | error (diagnostic : String)
  deriving DecidableEq, Repr

def Reading.measurement? : Reading → Option Measurement
  | .ready measurement => some measurement
  | .error _ => none

/-- `_measurement_error` -/
def measurementError (message : String) : Reading :=
  .error (String.ofList (message.toList.take 240))

/-- `except (OSError, TypeError, ValueError, OverflowError)`: the other exceptions escape. -/
def caughtAs (message : String) : Except Raised Measurement → Except Unit Reading
  | .ok measurement => .ok (.ready measurement)
  | .error (.caught name) => .ok (measurementError s!"{message}: {name}")
  | .error .escaped => .error ()

/-- What opening DATA and DATA/builds finds. -/
inductive Workspaces where
  | closed (raised : Raised)
  /-- There is no `builds` yet. -/
  | parent (data : Except Raised Capacity)
  | builds (builds : Except Raised Capacity)
  deriving DecidableEq

/-- `_measure_builds_filesystem` -/
def measureBuildsFilesystem (workspaces : Workspaces) : Except Unit Reading :=
  caughtAs "Build workspace filesystem measurement failed" <|
    match workspaces with
    | .closed raised => .error raised
    | .parent data => do filesystemMeasurement (← data) .dataParent
    | .builds builds => do filesystemMeasurement (← builds) .builds

/-- `_measure_repository_filesystem` -/
def measureRepositoryFilesystem (repository : Except Raised Capacity) : Except Unit Reading :=
  caughtAs "Repository filesystem measurement failed" do filesystemMeasurement (← repository) .repository

/-! ## The pressure of a measurement -/

inductive PressureState where
  | unknown
  | normal
  | pressure
  | measurementError
  deriving DecidableEq, Repr

/-- `pressure_state_for_measurement` -/
def pressureStateForMeasurement (previous : PressureState) (reading : Reading) (thresholds : Thresholds) :
    PressureState × Option (Int × Int) :=
  match reading with
  | .error _ => (.measurementError, none)
  | .ready measurement =>
      let effective := effectivePressureThresholds measurement.totalBytes thresholds
      let state :=
        if previous = .pressure then
          if measurement.availableBytes ≥ effective.2 then .normal else .pressure
        else if measurement.availableBytes < effective.1 then .pressure
        else .normal
      (state, some effective)

/-- A filesystem with a measurement of its own. -/
structure Filesystem where
  reading : Reading
  pressureState : PressureState
  /-- `effective_start_bytes` and `effective_target_bytes` -/
  effectiveBytes : Option (Int × Int)
  deriving DecidableEq, Repr

/-- The repository, on the device of the workspaces or on its own. -/
inductive Repository where
  | sameAsBuilds (deviceId : Int) (pressureState : PressureState)
  | own (filesystem : Filesystem)
  deriving DecidableEq, Repr

def Repository.pressureState : Repository → PressureState
  | .sameAsBuilds _ state => state
  | .own filesystem => filesystem.pressureState

structure Filesystems where
  builds : Filesystem
  repository : Repository
  deriving DecidableEq, Repr

/-- `_pressure_states` -/
structure PressureStates where
  builds : PressureState := .unknown
  repository : PressureState := .unknown
  deriving DecidableEq, Repr

/-- A filesystem as it is reported. -/
def projected (previous : PressureState) (reading : Reading) (thresholds : Thresholds) : Filesystem :=
  let judged := pressureStateForMeasurement previous reading thresholds
  { reading, pressureState := judged.1, effectiveBytes := judged.2 }

/-- `same_device`: the repository is under the pressure of the workspaces. -/
def repositoryBeside (builds own : Filesystem) : Repository :=
  match builds.reading, own.reading with
  | .ready ofBuilds, .ready ofRepository =>
      if ofRepository.deviceId = ofBuilds.deviceId then .sameAsBuilds ofBuilds.deviceId builds.pressureState
      else .own own
  | _, _ => .own own

/-- `collect_filesystem_capacity` -/
def collectFilesystemCapacity (workspaces : Workspaces) (repository : Except Raised Capacity)
    (thresholds : Thresholds) (previous : PressureStates) : Except Unit Filesystems := do
  let builds := projected previous.builds (← measureBuildsFilesystem workspaces) thresholds
  let own := projected previous.repository (← measureRepositoryFilesystem repository) thresholds
  return { builds, repository := repositoryBeside builds own }

/-! ## The inventory -/

/-- What `StorageInventory` remembers of the filesystems. -/
structure Inventory where
  filesystems : Option Filesystems := none
  pressureStates : PressureStates := {}
  pressurePolicy : Option Thresholds := none
  deriving DecidableEq

/-- One call of `collect_capacity`: its argument, what `policy_provider` would give, and
what the filesystems answer. An argument that is an empty object counts as none. -/
structure Call where
  argument : Option Settings
  provided : Option Settings
  workspaces : Workspaces
  repository : Except Raised Capacity

/-- `policy or self.policy_provider()` -/
def Call.policy (call : Call) : Option Settings := call.argument.or call.provided

/-- Why a call raises. -/
inductive CaptureError where
  | policy (message : String)
  | escaped
  deriving DecidableEq, Repr

/-- `if state in {"normal", "pressure"}`: another state is not remembered. -/
def remembered (previous state : PressureState) : PressureState :=
  if state = .normal ∨ state = .pressure then state else previous

def remember (previous : PressureStates) (filesystems : Filesystems) : PressureStates where
  builds := remembered previous.builds filesystems.builds.pressureState
  repository := remembered previous.repository filesystems.repository.pressureState

/-- `StorageInventory.collect_capacity`: calls hold `_capacity_lock` from the comparison of
the thresholds on, so that they take place one after the other. -/
def collectCapacity (inventory : Inventory) (call : Call) : Inventory × Except CaptureError Filesystems :=
  match validatePolicy call.policy with
  | .error message => (inventory, .error (.policy message))
  | .ok canonical =>
      let thresholds := canonical.thresholds
      let inventory :=
        if inventory.pressurePolicy = some thresholds then inventory else { inventory with pressureStates := {} }
      match collectFilesystemCapacity call.workspaces call.repository thresholds inventory.pressureStates with
      | .error _ => (inventory, .error .escaped)
      | .ok filesystems =>
          ({ filesystems := some filesystems
             pressurePolicy := some thresholds
             pressureStates := remember inventory.pressureStates filesystems },
            .ok filesystems)

/-- The inventory after the calls, the earliest first. -/
def afterCalls (calls : List Call) : Inventory :=
  calls.foldl (fun inventory call => (collectCapacity inventory call).1) {}

@[simp] theorem afterCalls_nil : afterCalls [] = {} := rfl

@[simp] theorem afterCalls_concat (calls : List Call) (call : Call) :
    afterCalls (calls ++ [call]) = (collectCapacity (afterCalls calls) call).1 := by
  simp [afterCalls]

/-! ## What was measured -/

/-- The measurement of the workspaces that a call brings back. -/
def Call.ready? (call : Call) : Option Measurement :=
  match measureBuildsFilesystem call.workspaces, measureRepositoryFilesystem call.repository with
  | .ok builds, .ok _ => builds.measurement?
  | _, _ => none

/-- The thresholds of a call whose policy is accepted, and what it measured under them. -/
def Call.captured (call : Call) : Option (Thresholds × Option Measurement) :=
  match validatePolicy call.policy with
  | .ok canonical => some (canonical.thresholds, call.ready?)
  | .error _ => none

/-- What was measured since the thresholds became `thresholds`. -/
def sinceChange (thresholds : Thresholds) (calls : List Call) : List Measurement :=
  ((calls.filterMap Call.captured).rtakeWhile (fun captured => captured.1 = thresholds)).filterMap (·.2)

section
variable {thresholds other : Thresholds} {calls : List Call} {call : Call} {measured : Option Measurement}

@[simp] theorem sinceChange_nil : sinceChange thresholds [] = [] := rfl

theorem sinceChange_concat (h : call.captured = some (thresholds, measured)) :
    sinceChange thresholds (calls ++ [call]) = sinceChange thresholds calls ++ measured.toList := by
  cases measured <;> simp [sinceChange, h]

theorem sinceChange_concat_of_ne (h : call.captured = some (other, measured)) (hne : other ≠ thresholds) :
    sinceChange thresholds (calls ++ [call]) = [] := by
  simp [sinceChange, h, hne]

theorem sinceChange_concat_of_none (h : call.captured = none) :
    sinceChange thresholds (calls ++ [call]) = sinceChange thresholds calls := by
  simp [sinceChange, h]

/-- Before the thresholds of the last accepted call nothing counts. -/
theorem sinceChange_eq_nil (h : ∀ captured, (calls.filterMap Call.captured).getLast? = some captured →
    captured.1 ≠ thresholds) : sinceChange thresholds calls = [] := by
  have hnone : (calls.filterMap Call.captured).rtakeWhile (fun captured => captured.1 = thresholds) = [] := by
    rw [List.rtakeWhile_eq_nil_iff]
    intro hne hlast
    exact h _ (List.getLast?_eq_getLast_of_ne_nil hne) (of_decide_eq_true hlast)
  rw [sinceChange, hnone, List.filterMap_nil]

end

/-- Pressure begins below the start and ends at the target, each of the filesystem measured. -/
def pressureLatch (thresholds : Thresholds) : Latch Measurement where
  sets measurement :=
    measurement.availableBytes < (effectivePressureThresholds measurement.totalBytes thresholds).1
  clears measurement :=
    (effectivePressureThresholds measurement.totalBytes thresholds).2 ≤ measurement.availableBytes
  exclusive measurement hbelow := by
    have hle := effectivePressureThresholds_le measurement.totalBytes thresholds
    omega

/-! ## The state reported -/

section
variable {previous : PressureState} {thresholds : Thresholds} {measurement : Measurement}

theorem projected_ready :
    (projected previous (.ready measurement) thresholds).pressureState = .normal ∨
      (projected previous (.ready measurement) thresholds).pressureState = .pressure := by
  simp only [projected, pressureStateForMeasurement]
  split_ifs <;> simp

@[simp] theorem projected_error {diagnostic : String} :
    (projected previous (.error diagnostic) thresholds).pressureState = .measurementError := rfl

/-- A state that follows the latch so far follows it after one more measurement. -/
theorem projected_pressure_iff {measured : List Measurement}
    (h : previous = .pressure ↔ (pressureLatch thresholds).On measured) :
    (projected previous (.ready measurement) thresholds).pressureState = .pressure ↔
      (pressureLatch thresholds).On (measured ++ [measurement]) := by
  by_cases hprevious : previous = .pressure
  · rw [Latch.on_concat_of_on _ (h.1 hprevious)]
    simp [projected, pressureStateForMeasurement, hprevious, pressureLatch]
  · rw [Latch.on_concat_of_not_on _ (fun hon => hprevious (h.2 hon))]
    simp [projected, pressureStateForMeasurement, hprevious, pressureLatch]

end

/-- What the inventory remembers under these thresholds: under others it starts cold. -/
def Inventory.recall (inventory : Inventory) (thresholds : Thresholds) : PressureStates :=
  if inventory.pressurePolicy = some thresholds then inventory.pressureStates else {}

/-- What the call of these measurements reports under what was remembered. -/
def reported (previous : PressureStates) (builds repository : Reading) (thresholds : Thresholds) : Filesystems where
  builds := projected previous.builds builds thresholds
  repository := repositoryBeside (projected previous.builds builds thresholds)
    (projected previous.repository repository thresholds)

/-- A call refuses its policy, breaks off in a measurement, or reports what it measured. -/
inductive Captures (inventory : Inventory) (call : Call) : Inventory × Except CaptureError Filesystems → Prop
  | refused {message : String} (captured : call.captured = none) :
      Captures inventory call (inventory, .error (.policy message))
  | escaped {thresholds : Thresholds} (captured : call.captured = some (thresholds, none)) :
      Captures inventory call ({ inventory with pressureStates := inventory.recall thresholds }, .error .escaped)
  | reported {thresholds : Thresholds} {builds repository : Reading}
      (captured : call.captured = some (thresholds, builds.measurement?)) :
      Captures inventory call
        ({ filesystems := some (reported (inventory.recall thresholds) builds repository thresholds)
           pressurePolicy := some thresholds
           pressureStates := remember (inventory.recall thresholds)
             (reported (inventory.recall thresholds) builds repository thresholds) },
          .ok (reported (inventory.recall thresholds) builds repository thresholds))

/-- A call with a policy depends on the inventory through what is recalled. -/
theorem collectCapacity_eq {inventory : Inventory} {call : Call} {policy : Policy}
    (hpolicy : validatePolicy call.policy = .ok policy) :
    collectCapacity inventory call =
      match collectFilesystemCapacity call.workspaces call.repository policy.thresholds
          (inventory.recall policy.thresholds) with
      | .error _ =>
          ({ inventory with pressureStates := inventory.recall policy.thresholds }, .error .escaped)
      | .ok filesystems =>
          ({ filesystems := some filesystems
             pressurePolicy := some policy.thresholds
             pressureStates := remember (inventory.recall policy.thresholds) filesystems },
            .ok filesystems) := by
  have hrecall : (if inventory.pressurePolicy = some policy.thresholds then inventory
      else { inventory with pressureStates := {} }) =
        { inventory with pressureStates := inventory.recall policy.thresholds } := by
    unfold Inventory.recall
    split <;> rfl
  simp only [collectCapacity, hpolicy]
  rw [hrecall]

theorem collectCapacity_captures (inventory : Inventory) (call : Call) :
    Captures inventory call (collectCapacity inventory call) := by
  cases hpolicy : validatePolicy call.policy with
  | error message =>
      simp only [collectCapacity, hpolicy]
      exact .refused (by simp [Call.captured, hpolicy])
  | ok policy =>
      rw [collectCapacity_eq hpolicy]
      cases hbuilds : measureBuildsFilesystem call.workspaces with
      | error _ =>
          simp only [collectFilesystemCapacity, hbuilds]
          exact .escaped (by simp [Call.captured, hpolicy, Call.ready?, hbuilds])
      | ok builds =>
          cases hrepository : measureRepositoryFilesystem call.repository with
          | error _ =>
              simp only [collectFilesystemCapacity, hbuilds, hrepository]
              exact .escaped (by simp [Call.captured, hpolicy, Call.ready?, hbuilds, hrepository])
          | ok repository =>
              simp only [collectFilesystemCapacity, hbuilds, hrepository]
              exact .reported (by simp [Call.captured, hpolicy, Call.ready?, hbuilds, hrepository])

/-! ## What is remembered -/

/-- What an inventory remembers after calls: nothing under thresholds that are not those of
the last accepted call, and of the workspaces the latch of what was measured since. -/
structure Remembers (inventory : Inventory) (calls : List Call) : Prop where
  cold : ∀ thresholds, (∀ captured, (calls.filterMap Call.captured).getLast? = some captured →
    captured.1 ≠ thresholds) → inventory.recall thresholds = {}
  latched : ∀ thresholds, (inventory.recall thresholds).builds = .pressure ↔
    (pressureLatch thresholds).On (sinceChange thresholds calls)

section
variable {inventory : Inventory} {calls : List Call} {call : Call}

theorem remembers_nil : Remembers {} [] where
  cold thresholds _ := by simp [Inventory.recall]
  latched thresholds := by simp [Inventory.recall]

/-- A call under other thresholds leaves nothing to recall. -/
theorem recall_of_ne {thresholds other : Thresholds} {measured : Option Measurement}
    (h : call.captured = some (other, measured)) (hne : other ≠ thresholds) :
    ((collectCapacity inventory call).1).recall thresholds = {} := by
  have hcall := collectCapacity_captures inventory call
  generalize collectCapacity inventory call = result at hcall
  cases hcall with
  | refused hnone => simp [hnone] at h
  | escaped hcaptured =>
      obtain ⟨rfl, -⟩ := Prod.mk.inj (Option.some.inj (hcaptured.symm.trans h))
      simp only [Inventory.recall]
      split_ifs <;> simp_all
  | reported hcaptured =>
      obtain ⟨rfl, -⟩ := Prod.mk.inj (Option.some.inj (hcaptured.symm.trans h))
      simp [Inventory.recall, hne]

/-- What a call leaves to recall of the workspaces under its own thresholds. -/
theorem recall_builds {thresholds : Thresholds} {measured : Option Measurement}
    (h : call.captured = some (thresholds, measured)) :
    (((collectCapacity inventory call).1).recall thresholds).builds =
      match measured with
      | some measurement =>
          (projected (inventory.recall thresholds).builds (.ready measurement) thresholds).pressureState
      | none => (inventory.recall thresholds).builds := by
  have hcall := collectCapacity_captures inventory call
  generalize collectCapacity inventory call = result at hcall
  cases hcall with
  | refused hnone => simp [hnone] at h
  | escaped hcaptured =>
      obtain ⟨rfl, rfl⟩ := Prod.mk.inj (Option.some.inj (hcaptured.symm.trans h))
      simp only [Inventory.recall]
      split_ifs <;> rfl
  | @reported _ builds repository hcaptured =>
      obtain ⟨rfl, rfl⟩ := Prod.mk.inj (Option.some.inj (hcaptured.symm.trans h))
      simp only [Inventory.recall, if_true, remember, remembered, reported]
      cases builds with
      | ready measurement => exact if_pos projected_ready
      | error diagnostic => simp [Reading.measurement?]

theorem Remembers.concat (h : Remembers inventory calls) :
    Remembers (collectCapacity inventory call).1 (calls ++ [call]) := by
  cases hcaptured : call.captured with
  | none =>
      have hsame : (collectCapacity inventory call).1 = inventory := by
        have hcall := collectCapacity_captures inventory call
        generalize collectCapacity inventory call = result at hcall
        cases hcall with
        | refused _ => rfl
        | escaped hsome => simp [hcaptured] at hsome
        | reported hsome => simp [hcaptured] at hsome
      rw [hsame]
      constructor
      · intro thresholds hlast
        exact h.cold thresholds (by simpa [hcaptured] using hlast)
      · intro thresholds
        rw [sinceChange_concat_of_none hcaptured]
        exact h.latched thresholds
  | some captured =>
      obtain ⟨own, measured⟩ := captured
      constructor
      · intro thresholds hlast
        exact recall_of_ne hcaptured (hlast (own, measured) (by simp [hcaptured]))
      · intro thresholds
        by_cases hown : own = thresholds
        · subst hown
          rw [recall_builds hcaptured, sinceChange_concat hcaptured]
          cases measured with
          | none => simpa using h.latched own
          | some measurement => exact projected_pressure_iff (h.latched own)
        · rw [recall_of_ne hcaptured hown, sinceChange_concat_of_ne hcaptured hown]
          simp

end

theorem remembers_afterCalls (calls : List Call) : Remembers (afterCalls calls) calls := by
  induction calls using List.reverseRecOn with
  | nil => exact remembers_nil
  | append_singleton calls call ih =>
      rw [afterCalls_concat]
      exact ih.concat

/-- A call that reports reports the state that follows from what it recalls. -/
theorem collectCapacity_eq_ok {inventory : Inventory} {call : Call} {policy : Policy} {filesystems : Filesystems}
    (hpolicy : validatePolicy call.policy = .ok policy)
    (hreport : (collectCapacity inventory call).2 = .ok filesystems) :
    ∃ builds repository, call.captured = some (policy.thresholds, builds.measurement?) ∧
      filesystems = reported (inventory.recall policy.thresholds) builds repository policy.thresholds ∧
      (collectCapacity inventory call).1 = {
        filesystems := some filesystems
        pressurePolicy := some policy.thresholds
        pressureStates := remember (inventory.recall policy.thresholds) filesystems } := by
  have hcall := collectCapacity_captures inventory call
  generalize collectCapacity inventory call = result at hcall hreport
  cases hcall with
  | refused _ => cases hreport
  | escaped _ => cases hreport
  | @reported thresholds builds repository hcaptured =>
      obtain rfl : policy.thresholds = thresholds := by
        simpa [Call.captured, hpolicy] using congrArg (Option.map Prod.fst) hcaptured
      obtain rfl := Except.ok.inj hreport
      exact ⟨builds, repository, hcaptured, rfl, rfl⟩

theorem repositoryBeside_own {builds own filesystem : Filesystem}
    (h : repositoryBeside builds own = .own filesystem) : filesystem = own := by
  unfold repositoryBeside at h
  split at h
  · split_ifs at h
    exact (Repository.own.inj h).symm
  · exact (Repository.own.inj h).symm

/-- What is reported of the workspaces when their measurement is ready is pressure exactly
when some measurement since the thresholds changed was below the start and none after it
reached the target. A failed measurement is reported as such and is not remembered, other
thresholds start from nothing, and no start exceeds its target. -/
theorem pressure_hysteresis (calls : List Call) (call : Call) (policy : Policy) (filesystems : Filesystems)
    (hpolicy : validatePolicy call.policy = .ok policy)
    (hreport : (collectCapacity (afterCalls calls) call).2 = .ok filesystems) :
    (∀ measurement, filesystems.builds.reading = .ready measurement →
      (filesystems.builds.pressureState = .normal ∨ filesystems.builds.pressureState = .pressure) ∧
      (filesystems.builds.pressureState = .pressure ↔
        ∃ before below after,
          sinceChange policy.thresholds (calls ++ [call]) = before ++ below :: after ∧
          below.availableBytes < (effectivePressureThresholds below.totalBytes policy.thresholds).1 ∧
          ∀ later ∈ after,
            ¬ (effectivePressureThresholds later.totalBytes policy.thresholds).2 ≤ later.availableBytes)) ∧
    (∀ diagnostic, filesystems.builds.reading = .error diagnostic →
      filesystems.builds.pressureState = .measurementError ∧
      (afterCalls (calls ++ [call])).pressureStates.builds = ((afterCalls calls).recall policy.thresholds).builds) ∧
    (∀ own diagnostic, filesystems.repository = .own own → own.reading = .error diagnostic →
      own.pressureState = .measurementError ∧
      (afterCalls (calls ++ [call])).pressureStates.repository =
        ((afterCalls calls).recall policy.thresholds).repository) ∧
    ((∀ captured, (calls.filterMap Call.captured).getLast? = some captured → captured.1 ≠ policy.thresholds) →
      collectCapacity (afterCalls calls) call = collectCapacity {} call) ∧
    ∀ totalBytes, (effectivePressureThresholds totalBytes policy.thresholds).1 ≤
      (effectivePressureThresholds totalBytes policy.thresholds).2 := by
  have hremembers := remembers_afterCalls calls
  obtain ⟨builds, repository, hcaptured, hfilesystems, hafter⟩ := collectCapacity_eq_ok hpolicy hreport
  refine ⟨?_, ?_, ?_, ?_, fun totalBytes => effectivePressureThresholds_le totalBytes policy.thresholds⟩
  · intro measurement hready
    have hbuilds : builds = .ready measurement := by rw [← hready, hfilesystems]; rfl
    subst hbuilds
    rw [hfilesystems, sinceChange_concat hcaptured]
    exact ⟨projected_ready, projected_pressure_iff (hremembers.latched policy.thresholds)⟩
  · intro diagnostic herror
    have hbuilds : builds = .error diagnostic := by rw [← herror, hfilesystems]; rfl
    subst hbuilds
    have hstate : filesystems.builds.pressureState = .measurementError := by rw [hfilesystems]; rfl
    rw [afterCalls_concat, hafter]
    simp [remember, remembered, hstate]
  · intro own diagnostic hown herror
    have hmeasured : own = projected ((afterCalls calls).recall policy.thresholds).repository repository
        policy.thresholds := by
      rw [hfilesystems] at hown
      exact repositoryBeside_own hown
    have hstate : own.pressureState = .measurementError := by
      rw [hmeasured] at herror ⊢
      obtain rfl : repository = .error diagnostic := herror
      rfl
    rw [afterCalls_concat, hafter]
    simp [remember, remembered, hown, Repository.pressureState, hstate]
  · intro hlast
    have hcold : (afterCalls calls).recall policy.thresholds = ({} : Inventory).recall policy.thresholds := by
      rw [hremembers.cold policy.thresholds hlast]
      simp [Inventory.recall]
    rw [collectCapacity_eq hpolicy] at hreport ⊢
    rw [collectCapacity_eq hpolicy, ← hcold]
    cases hmeasured : collectFilesystemCapacity call.workspaces call.repository policy.thresholds
        ((afterCalls calls).recall policy.thresholds) with
    | error _ => simp [hmeasured] at hreport
    | ok _ => rfl

/-- A disk of a hundred blocks of a GiB that measures `available` of them. -/
def sampleCall (available : Int) : Call where
  argument := none
  provided := some {}
  workspaces := .builds (.ok ⟨1, 2 ^ 30, 100, available, available⟩)
  repository := .error (.caught "FileNotFoundError")

def sampleReport : Filesystems where
  builds := {
    reading := .ready ⟨.builds, 1, 100 * 2 ^ 30, 88 * 2 ^ 30, 12 * 2 ^ 30, 12 * 2 ^ 30⟩
    pressureState := .pressure
    effectiveBytes := some (10 * 2 ^ 30, 15 * 2 ^ 30) }
  repository := .own {
    reading := .error "Repository filesystem measurement failed: FileNotFoundError"
    pressureState := .measurementError
    effectiveBytes := none }

/-- Twelve per cent free is above the start, but nine per cent were below it before. -/
theorem pressure_hysteresis_sample :
    ∃ before below after,
      sinceChange defaultPolicy.thresholds ([sampleCall 50, sampleCall 9] ++ [sampleCall 12]) =
        before ++ below :: after ∧
      below.availableBytes < (effectivePressureThresholds below.totalBytes defaultPolicy.thresholds).1 ∧
      ∀ later ∈ after,
        ¬ (effectivePressureThresholds later.totalBytes defaultPolicy.thresholds).2 ≤ later.availableBytes :=
  ((pressure_hysteresis [sampleCall 50, sampleCall 9] (sampleCall 12) defaultPolicy sampleReport
    (by rfl) (by rfl)).1 _ rfl).2.1 rfl

end DebBuilder.Storage
