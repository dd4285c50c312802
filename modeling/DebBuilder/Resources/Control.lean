import Mathlib
import DebBuilder.Lib.Machine

/-!
# Resource observations of a command

The event watcher, the synchronous captures and the samples of snapshots all merge what they read
into one record, each under the lock of the command.  `resource_control` copies the record under
the lock and then concludes from the copy and the last snapshot.

## Main definitions

* `recordEventValues`, `sampleResources` — the two merges.
* `conclude` — the report of `resource_control`.
* `act`, `machine` — the steps of all threads, with what has been sighted so far.
-/

namespace DebBuilder.Resources
open Lib

/-! ## Readings -/

/-- What a read of a counter file brings: nothing when it fails, else its rows of two words, with
the number of each where the second word is one. -/
abbrev Reading := Option (List (String × Option Int))

/-- `_key_values` and `_fd_key_values`; a key that comes twice has the value of its last row. -/
def keyValues (reading : Reading) : List (String × Int) :=
  ((reading.getD []).mapM fun (row : String × Option Int) => row.2.map (row.1, ·)).getD []

def get? (values : List (String × Int)) (key : String) : Option Int := values.reverse.lookup key

/-- What a read of `io.stat` brings: the items of each row, with the number of each. -/
abbrev IoReading := Option (List (List (String × Option Int)))

/-- The totals of the keys `rbytes` and `wbytes`; a number that is none makes the whole fail. -/
def ioTotals (rows : List (List (String × Option Int))) : Option (Int × Int) :=
  let items := rows.flatten.filter fun item => item.1 = "rbytes" || item.1 = "wbytes"
  (items.mapM fun (item : String × Option Int) => item.2.map (item.1, ·)).map fun counted =>
    (((counted.filter (·.1 = "rbytes")).map Prod.snd).sum, ((counted.filter (·.1 = "wbytes")).map Prod.snd).sum)

structure UnitSnapshot where
  controlGroup : String
  result : String
  memoryPeak : Int
  tasksCurrent : Int
  cpuUsageNsec : Int
  ioReadBytes : Int
  ioWriteBytes : Int

/-- The files of a control group. -/
structure Files where
  memoryEvents : Reading
  pidsEvents : Reading
  cpuStat : Reading
  ioStat : IoReading

/-! ## The record -/

structure Observations where
  memoryPeakBytes : Int
  memoryEvents : String → Option Int
  tasksPeak : Int
  tasksDenied : Int
  cpuUsageUsec : Int
  cpuThrottledPeriods : Int
  cpuThrottledUsec : Int
  ioReadBytes : Int
  ioWriteBytes : Int
  ioDeviceCount : Int

def Observations.start : Observations := ⟨0, fun _ => none, 0, 0, 0, 0, 0, 0, 0, 0⟩

inductive EventKind
  | memory
  | tasks
deriving DecidableEq

/-- The memory events of a reading, each at least what it was; a key that the reading does not
have, or has as zero, is gone. -/
def mergedEvents (previous : String → Option Int) (values : List (String × Int)) (key : String) : Option Int :=
  (get? values key).bind fun value => if value ≠ 0 then some (max ((previous key).getD 0) value) else none

/-- `_record_event_values(kind, values)` -/
def recordEventValues (kind : EventKind) (values : List (String × Int)) (o : Observations) : Observations :=
  match kind with
  | .memory => { o with memoryEvents := mergedEvents o.memoryEvents values }
  | .tasks => { o with tasksDenied := max o.tasksDenied ((get? values "max").getD 0) }

/-- An amount of a snapshot; the greatest number stands for one that is not available. -/
def amount? (value : Int) : Option Int := if 0 ≤ value ∧ value < 2 ^ 64 - 1 then some value else none

def raised (old : Int) (value : Option Int) : Int := (value.map (max old ·)).getD old

/-- The counters of the snapshot. -/
def sampleSnapshot (snapshot : UnitSnapshot) (o : Observations) : Observations :=
  { o with
    memoryPeakBytes := raised o.memoryPeakBytes (amount? snapshot.memoryPeak)
    tasksPeak := raised o.tasksPeak (amount? snapshot.tasksCurrent)
    cpuUsageUsec := raised o.cpuUsageUsec (amount? (snapshot.cpuUsageNsec / 1000))
    ioReadBytes := raised o.ioReadBytes (amount? snapshot.ioReadBytes)
    ioWriteBytes := raised o.ioWriteBytes (amount? snapshot.ioWriteBytes) }

/-- The counters of the control group. -/
def sampleFiles (files : Files) (o : Observations) : Observations :=
  let memory := keyValues files.memoryEvents
  let pids := keyValues files.pidsEvents
  let cpu := keyValues files.cpuStat
  let totals := files.ioStat.bind ioTotals
  { o with
    memoryEvents := if memory ≠ [] then mergedEvents o.memoryEvents memory else o.memoryEvents
    tasksDenied := max o.tasksDenied ((get? pids "max").getD 0)
    cpuUsageUsec := max o.cpuUsageUsec ((get? cpu "usage_usec").getD 0)
    cpuThrottledPeriods := max o.cpuThrottledPeriods ((get? cpu "nr_throttled").getD 0)
    cpuThrottledUsec := max o.cpuThrottledUsec ((get? cpu "throttled_usec").getD 0)
    ioReadBytes := raised o.ioReadBytes (totals.map Prod.fst)
    ioWriteBytes := raised o.ioWriteBytes (totals.map Prod.snd)
    ioDeviceCount := raised o.ioDeviceCount (totals.bind fun _ => files.ioStat.map fun rows => (rows.length : Int)) }

/-- The control group of the snapshot, or the one of the metadata. -/
def controlGroup (recorded : String) (snapshot : Option UnitSnapshot) : String :=
  let observed := (snapshot.map UnitSnapshot.controlGroup).getD ""
  if observed ≠ "" then observed else recorded

/-- `_sample_resources(snapshot)` -/
def sampleResources (recorded : String) (snapshot : Option UnitSnapshot) (files : Files) (o : Observations) : Observations :=
  let sampled := (snapshot.map (sampleSnapshot · o)).getD o
  if controlGroup recorded snapshot ≠ "" then sampleFiles files sampled else sampled

/-! ## The report -/

structure Outcome where
  code : String
  control : Option String
deriving DecidableEq

structure Report where
  observations : Observations
  verification : String
  unitResult : String
  outcome : Option Outcome

def limitKeys : List String := ["max", "oom", "oom_kill", "oom_group_kill"]

def memoryLimited (o : Observations) : Bool := limitKeys.any fun key => (o.memoryEvents key).getD 0 ≠ 0

/-- The last snapshot says that the kernel killed the command for its memory. -/
def killed (snapshot : Option UnitSnapshot) : Bool := snapshot.any fun s => s.result = "oom-kill"

/-- What `resource_control` makes of its copy. -/
def conclude (verification : String) (last : Option UnitSnapshot) (o : Observations) : Report where
  observations := o
  verification := verification
  unitResult := (last.map UnitSnapshot.result).getD ""
  outcome :=
    if verification ≠ "verified" then some ⟨"resource_limit_enforcement_failed", none⟩
    else if memoryLimited o || killed last then some ⟨"command_resource_limit_exceeded", some "memory_max_bytes"⟩
    else if o.tasksDenied ≠ 0 then some ⟨"command_resource_limit_exceeded", some "tasks_max"⟩
    else none

/-! ## The steps of all threads -/

/-- `copies` are the copies that calls of `resource_control` hold. -/
structure State where
  observations : Observations
  lastSnapshot : Option UnitSnapshot
  copies : Nat → Option Observations

inductive Action
  /-- A capture of an event file, by the watcher or synchronously. -/
  | capture (kind : EventKind) (reading : Reading)
  /-- A snapshot becomes the last one. -/
  | snapshot (snapshot : Option UnitSnapshot)
  /-- A sample of the last snapshot and the files of its control group. -/
  | sample (files : Files)
  /-- A call of `resource_control` copies the record. -/
  | copy (c : Nat)
  | conclude (c : Nat) (verification : String)

inductive Counter
  | memoryPeakBytes
  | memoryEvent (key : String)
  | tasksPeak
  | tasksDenied
  | cpuUsageUsec
  | cpuThrottledPeriods
  | cpuThrottledUsec
  | ioReadBytes
  | ioWriteBytes
  | ioDeviceCount

/-- A counter of the record; an event that is not recorded counts nothing. -/
def Observations.value (o : Observations) : Counter → Int
  | .memoryPeakBytes => o.memoryPeakBytes
  | .memoryEvent key => (o.memoryEvents key).getD 0
  | .tasksPeak => o.tasksPeak
  | .tasksDenied => o.tasksDenied
  | .cpuUsageUsec => o.cpuUsageUsec
  | .cpuThrottledPeriods => o.cpuThrottledPeriods
  | .cpuThrottledUsec => o.cpuThrottledUsec
  | .ioReadBytes => o.ioReadBytes
  | .ioWriteBytes => o.ioWriteBytes
  | .ioDeviceCount => o.ioDeviceCount

/-- What a sample shows. -/
inductive Sighting
  | counted (counter : Counter) (value : Int)
  | oomKilled

/-- Evidence that a limit was hit. -/
def Sighting.Limit : Sighting → Prop
  | counted (.memoryEvent key) value => key ∈ limitKeys ∧ 0 < value
  | counted .tasksDenied value => 0 < value
  | counted _ _ => False
  | oomKilled => True

def sighted (counter : Counter) (value : Option Int) : List Sighting := value.toList.map (.counted counter)

def memorySightings (values : List (String × Int)) : List Sighting :=
  values.flatMap fun entry => sighted (.memoryEvent entry.1) (get? values entry.1)

def eventSightings (kind : EventKind) (values : List (String × Int)) : List Sighting :=
  match kind with
  | .memory => memorySightings values
  | .tasks => sighted .tasksDenied (get? values "max")

def snapshotSightings (snapshot : UnitSnapshot) : List Sighting :=
  sighted .memoryPeakBytes (amount? snapshot.memoryPeak) ++ sighted .tasksPeak (amount? snapshot.tasksCurrent) ++
    sighted .cpuUsageUsec (amount? (snapshot.cpuUsageNsec / 1000)) ++ sighted .ioReadBytes (amount? snapshot.ioReadBytes) ++
    sighted .ioWriteBytes (amount? snapshot.ioWriteBytes)

def fileSightings (files : Files) : List Sighting :=
  let pids := keyValues files.pidsEvents
  let cpu := keyValues files.cpuStat
  let totals := files.ioStat.bind ioTotals
  memorySightings (keyValues files.memoryEvents) ++ sighted .tasksDenied (get? pids "max") ++
    sighted .cpuUsageUsec (get? cpu "usage_usec") ++ sighted .cpuThrottledPeriods (get? cpu "nr_throttled") ++
    sighted .cpuThrottledUsec (get? cpu "throttled_usec") ++ sighted .ioReadBytes (totals.map Prod.fst) ++
    sighted .ioWriteBytes (totals.map Prod.snd) ++
    sighted .ioDeviceCount (totals.bind fun _ => files.ioStat.map fun rows => (rows.length : Int))

/-- What an action shows in a state. -/
def sightings (recorded : String) (s : State) : Action → List Sighting
  | .capture kind reading => eventSightings kind (keyValues reading)
  | .snapshot snapshot => if killed snapshot then [.oomKilled] else []
  | .sample files =>
      (s.lastSnapshot.map snapshotSightings).getD [] ++
        if controlGroup recorded s.lastSnapshot ≠ "" then fileSightings files else []
  | _ => []

def act (recorded : String) (s : State) : Action → Option State
  | .capture kind reading => some { s with observations := recordEventValues kind (keyValues reading) s.observations }
  | .snapshot snapshot => some { s with lastSnapshot := snapshot }
  | .sample files => some { s with observations := sampleResources recorded s.lastSnapshot files s.observations }
  | .copy c => if (s.copies c).isSome then none else some { s with copies := Function.update s.copies c (some s.observations) }
  | .conclude c _ => (s.copies c).map fun _ => { s with copies := Function.update s.copies c none }

/-- What has been sighted, what had been when each copy was made, and the reports with what had
been sighted before their copies. -/
structure History where
  seen : List Sighting
  before : Nat → List Sighting
  reports : List (List Sighting × Report)

def record (recorded : String) (s : State) (a : Action) (h : History) : History :=
  let h := { h with seen := h.seen ++ sightings recorded s a }
  match a with
  | .copy c => { h with before := Function.update h.before c h.seen }
  | .conclude c verification =>
      { h with reports := h.reports ++ (s.copies c).toList.map fun o => (h.before c, conclude verification s.lastSnapshot o) }
  | _ => h

/-- The machine of one command. -/
def commandMachine (recorded : String) : Machine State Action where
  start := ⟨.start, none, fun _ => none⟩
  step := act recorded

/-- The runs of one command, with what has been sighted. -/
def machine (recorded : String) : Machine (State × History) Action :=
  (commandMachine recorded).recording ⟨[], fun _ => [], []⟩ (record recorded)

/-- The report has all that was sighted before it. -/
structure Report.Keeps (report : Report) (seen : List Sighting) : Prop where
  counters : ∀ counter value, .counted counter value ∈ seen → value ≤ report.observations.value counter
  limits : (∃ sighting ∈ seen, sighting.Limit) → report.verification = "verified" →
    report.outcome.map Outcome.code = some "command_resource_limit_exceeded"

end DebBuilder.Resources
