import Mathlib
import DebBuilder.Resources.Control

/-!
# Evidence of resource limits

A record only grows as long as each reading of the memory events names the events that are
recorded.  A read that fails is an empty reading, and a capture of it empties the record.

## Main definitions

* `Keeping` — the steps that lose nothing.
* `Covers` — the record has what has been sighted.

## Main results

* `evidence_kept` — in the runs of such steps each report has all that was sighted before it.
-/

namespace DebBuilder.Resources
open Lib

variable {recorded : String} {o o' o'' : Observations} {seen more : List Sighting} {s s' : State}
  {last : Option UnitSnapshot} {values : List (String × Int)} {h : History} {p : State × History}

/-! ## Steps that lose nothing -/

/-- A limit is on record. -/
def Limited (o : Observations) : Prop := memoryLimited o = true ∨ o.tasksDenied ≠ 0

/-- The reading has a number for each memory event on record. -/
def Named (o : Observations) (values : List (String × Int)) : Prop :=
  ∀ key, (o.memoryEvents key).getD 0 ≠ 0 → ∃ value, get? values key = some value ∧ value ≠ 0

/-- A reading of the memory events names what is on record, and a snapshot does not take back that
the command was killed, unless the record and the copies show it. -/
def Keeping (recorded : String) (s : State) : Action → Prop
  | .capture .memory reading => Named s.observations (keyValues reading)
  | .sample files => controlGroup recorded s.lastSnapshot ≠ "" → keyValues files.memoryEvents ≠ [] →
      Named s.observations (keyValues files.memoryEvents)
  | .snapshot snapshot => killed s.lastSnapshot = true →
      killed snapshot = true ∨ (Limited s.observations ∧ ∀ c o, s.copies c = some o → Limited o)
  | _ => True

/-! ## Growth of the record -/

/-- The record has grown, and has what was sighted on the way. -/
structure Grown (o o' : Observations) (more : List Sighting) : Prop where
  le : ∀ counter, o.value counter ≤ o'.value counter
  sighted : ∀ counter value, .counted counter value ∈ more → value ≤ o'.value counter

theorem Grown.refl : Grown o o [] := by
  constructor
  · intro counter
    exact le_rfl
  · intro counter value hmem
    cases hmem

theorem Grown.trans (h : Grown o o' seen) (h' : Grown o' o'' more) : Grown o o'' (seen ++ more) := by
  constructor
  · intro counter
    exact (h.le counter).trans (h'.le counter)
  · intro counter value hmem
    rcases List.mem_append.1 hmem with hmem | hmem
    · exact (h.sighted counter value hmem).trans (h'.le counter)
    · exact h'.sighted counter value hmem

theorem mem_sighted {sighting : Sighting} {counter : Counter} {value : Option Int} :
    sighting ∈ sighted counter value ↔ ∃ v, value = some v ∧ sighting = .counted counter v := by
  cases value <;> simp [sighted]

theorem le_mergedEvents {previous : String → Option Int} {key : String}
    (hnamed : (previous key).getD 0 ≠ 0 → ∃ value, get? values key = some value ∧ value ≠ 0) : (previous key).getD 0 ≤ (mergedEvents previous values key).getD 0 := by
  unfold mergedEvents
  by_cases hzero : (previous key).getD 0 = 0
  · rw [hzero]
    cases get? values key with
    | none => exact le_rfl
    | some value =>
        rw [Option.bind_some]
        split
        · exact le_max_left 0 value
        · exact le_rfl
  · obtain ⟨value, hvalue, hne⟩ := hnamed hzero
    rw [hvalue, Option.bind_some, if_pos hne, Option.getD_some]
    exact le_max_left _ _

theorem value_le_mergedEvents {previous : String → Option Int} {key : String} {value : Int} (hvalue : get? values key = some value) :
    value ≤ (mergedEvents previous values key).getD 0 := by
  unfold mergedEvents
  rw [hvalue, Option.bind_some]
  split
  · exact le_max_right _ _
  · next hzero => exact (not_not.1 hzero).le

/-- What a merge of the memory events does to the record. -/
theorem grown_memory (hnamed : Named o values) :
    Grown o { o with memoryEvents := mergedEvents o.memoryEvents values } (memorySightings values) := by
  constructor
  · intro counter
    cases counter with
    | memoryEvent key => exact le_mergedEvents (hnamed key)
    | memoryPeakBytes | tasksPeak | tasksDenied | cpuUsageUsec | cpuThrottledPeriods | cpuThrottledUsec | ioReadBytes |
      ioWriteBytes | ioDeviceCount => exact le_rfl
  · intro counter value hmem
    obtain ⟨entry, -, hentry⟩ := List.mem_flatMap.1 hmem
    obtain ⟨v, hv, heq⟩ := mem_sighted.1 hentry
    obtain ⟨rfl, rfl⟩ := Sighting.counted.inj heq
    exact value_le_mergedEvents hv

theorem le_raised (old : Int) (value : Option Int) : old ≤ raised old value := by
  cases value with
  | none => exact le_rfl
  | some value => exact le_max_left old value

theorem value_le_raised {old v : Int} {value : Option Int} (hvalue : value = some v) : v ≤ raised old value := by
  rw [hvalue]
  exact le_max_right old v

theorem le_max_getD {old v : Int} {value : Option Int} (hvalue : value = some v) : v ≤ max old (value.getD 0) := by
  rw [hvalue]
  exact le_max_right old v

theorem grown_snapshot (snapshot : UnitSnapshot) (o : Observations) :
    Grown o (sampleSnapshot snapshot o) (snapshotSightings snapshot) := by
  constructor
  · intro counter
    cases counter with
    | memoryPeakBytes | tasksPeak | cpuUsageUsec | ioReadBytes | ioWriteBytes => exact le_raised _ _
    | memoryEvent | tasksDenied | cpuThrottledPeriods | cpuThrottledUsec | ioDeviceCount => exact le_rfl
  · intro counter value hmem
    simp only [snapshotSightings, List.mem_append, mem_sighted, Sighting.counted.injEq] at hmem
    rcases hmem with (((hmem | hmem) | hmem) | hmem) | hmem <;> obtain ⟨v, hv, rfl, rfl⟩ := hmem <;> exact value_le_raised hv

theorem grown_files {files : Files}
    (hnamed : keyValues files.memoryEvents ≠ [] → Named o (keyValues files.memoryEvents)) :
    Grown o (sampleFiles files o) (fileSightings files) := by
  have hmemory : Grown o { o with
      memoryEvents := if keyValues files.memoryEvents ≠ [] then mergedEvents o.memoryEvents (keyValues files.memoryEvents)
        else o.memoryEvents } (memorySightings (keyValues files.memoryEvents)) := by
    by_cases hempty : keyValues files.memoryEvents = []
    · rw [if_neg (not_not.2 hempty), hempty]
      exact Grown.refl
    · rw [if_pos hempty]
      exact grown_memory (hnamed hempty)
  constructor
  · intro counter
    cases counter with
    | memoryEvent key => exact hmemory.le (.memoryEvent key)
    | memoryPeakBytes | tasksPeak => exact le_rfl
    | tasksDenied | cpuUsageUsec | cpuThrottledPeriods | cpuThrottledUsec => exact le_max_left _ _
    | ioReadBytes | ioWriteBytes | ioDeviceCount => exact le_raised _ _
  · intro counter value hmem
    simp only [fileSightings, List.mem_append, mem_sighted, Sighting.counted.injEq] at hmem
    rcases hmem with ((((((hmem | hmem) | hmem) | hmem) | hmem) | hmem) | hmem) | hmem
    · have hle := hmemory.sighted counter value hmem
      obtain ⟨entry, -, hentry⟩ := List.mem_flatMap.1 hmem
      obtain ⟨v, hv, heq⟩ := mem_sighted.1 hentry
      obtain ⟨rfl, rfl⟩ := Sighting.counted.inj heq
      exact hle
    · obtain ⟨v, hv, rfl, rfl⟩ := hmem
      exact le_max_getD hv
    · obtain ⟨v, hv, rfl, rfl⟩ := hmem
      exact le_max_getD hv
    · obtain ⟨v, hv, rfl, rfl⟩ := hmem
      exact le_max_getD hv
    · obtain ⟨v, hv, rfl, rfl⟩ := hmem
      exact le_max_getD hv
    · obtain ⟨v, hv, rfl, rfl⟩ := hmem
      exact value_le_raised hv
    · obtain ⟨v, hv, rfl, rfl⟩ := hmem
      exact value_le_raised hv
    · obtain ⟨v, hv, rfl, rfl⟩ := hmem
      exact value_le_raised hv

theorem grown_event {kind : EventKind} (hnamed : kind = .memory → Named o values) :
    Grown o (recordEventValues kind values o) (eventSightings kind values) := by
  cases kind with
  | memory => exact grown_memory (hnamed rfl)
  | tasks =>
      constructor
      · intro counter
        cases counter with
        | tasksDenied => exact le_max_left _ _
        | memoryPeakBytes | memoryEvent | tasksPeak | cpuUsageUsec | cpuThrottledPeriods | cpuThrottledUsec | ioReadBytes |
          ioWriteBytes | ioDeviceCount => exact le_rfl
      · intro counter value hmem
        simp only [eventSightings, mem_sighted, Sighting.counted.injEq] at hmem
        obtain ⟨v, hv, rfl, rfl⟩ := hmem
        exact le_max_getD hv

theorem grown_sample {files : Files}
    (hnamed : controlGroup recorded last ≠ "" → keyValues files.memoryEvents ≠ [] → Named o (keyValues files.memoryEvents)) :
    Grown o (sampleResources recorded last files o)
      ((last.map snapshotSightings).getD [] ++ if controlGroup recorded last ≠ "" then fileSightings files else []) := by
  have hsnapshot : Grown o ((last.map (sampleSnapshot · o)).getD o) ((last.map snapshotSightings).getD []) := by
    cases last with
    | none => exact Grown.refl
    | some snapshot => exact grown_snapshot snapshot o
  apply hsnapshot.trans
  unfold sampleResources
  by_cases hgroup : controlGroup recorded last ≠ ""
  · simp only [if_pos hgroup]
    apply grown_files
    · intro hmemory
      have hevents : ((last.map (sampleSnapshot · o)).getD o).memoryEvents = o.memoryEvents := by cases last <;> rfl
      unfold Named
      rw [hevents]
      exact hnamed hgroup hmemory
  · simp only [if_neg hgroup]
    exact Grown.refl

/-! ## The invariant -/

/-- The record has what has been sighted. -/
structure Covers (o : Observations) (last : Option UnitSnapshot) (seen : List Sighting) : Prop where
  nonneg : ∀ counter, 0 ≤ o.value counter
  counted : ∀ counter value, .counted counter value ∈ seen → value ≤ o.value counter
  oomKilled : .oomKilled ∈ seen → killed last = true ∨ Limited o

theorem memoryLimited_iff : memoryLimited o = true ↔ ∃ key ∈ limitKeys, (o.memoryEvents key).getD 0 ≠ 0 := by
  simp [memoryLimited]

theorem Limited.mono (h : Limited o) (hnonneg : ∀ counter, 0 ≤ o.value counter) (hle : ∀ counter, o.value counter ≤ o'.value counter) :
    Limited o' := by
  rcases h with hmemory | htasks
  · obtain ⟨key, hkey, hne⟩ := memoryLimited_iff.1 hmemory
    refine .inl (memoryLimited_iff.2 ⟨key, hkey, ?_⟩)
    have hbefore : 0 ≤ (o.memoryEvents key).getD 0 := hnonneg (.memoryEvent key)
    have hafter : (o.memoryEvents key).getD 0 ≤ (o'.memoryEvents key).getD 0 := hle (.memoryEvent key)
    omega
  · right
    have hbefore : 0 ≤ o.tasksDenied := hnonneg .tasksDenied
    have hafter : o.tasksDenied ≤ o'.tasksDenied := hle .tasksDenied
    omega

theorem Covers.grow (h : Covers o last seen) (hgrown : Grown o o' more) (hmore : .oomKilled ∉ more) : Covers o' last (seen ++ more) := by
  constructor
  · intro counter
    exact (h.nonneg counter).trans (hgrown.le counter)
  · intro counter value hmem
    rcases List.mem_append.1 hmem with hmem | hmem
    · exact (h.counted counter value hmem).trans (hgrown.le counter)
    · exact hgrown.sighted counter value hmem
  · intro hmem
    rcases h.oomKilled ((List.mem_append.1 hmem).resolve_right hmore) with hkilled | hlimited
    · exact .inl hkilled
    · exact .inr (hlimited.mono h.nonneg hgrown.le)

/-- A limit that was sighted shows in the record, or in the last snapshot. -/
theorem Covers.limit (h : Covers o last seen) (hlimit : ∃ sighting ∈ seen, sighting.Limit) : killed last = true ∨ Limited o := by
  obtain ⟨sighting, hmem, hlimit⟩ := hlimit
  cases sighting with
  | oomKilled => exact h.oomKilled hmem
  | counted counter value =>
      have hle := h.counted counter value hmem
      cases counter with
      | memoryEvent key =>
          obtain ⟨hkey, hpos⟩ := hlimit
          refine .inr (.inl (memoryLimited_iff.2 ⟨key, hkey, ?_⟩))
          have hvalue : value ≤ (o.memoryEvents key).getD 0 := hle
          omega
      | tasksDenied =>
          have hpos : 0 < value := hlimit
          have hvalue : value ≤ o.tasksDenied := hle
          refine .inr (.inr ?_)
          omega
      | memoryPeakBytes | tasksPeak | cpuUsageUsec | cpuThrottledPeriods | cpuThrottledUsec | ioReadBytes | ioWriteBytes |
        ioDeviceCount => exact absurd hlimit not_false

theorem Covers.conclude (h : Covers o last seen) (verification : String) : (conclude verification last o).Keeps seen := by
  constructor
  · exact h.counted
  · intro hlimit hverified
    have hshown := h.limit hlimit
    simp only [Resources.conclude] at hverified ⊢
    rw [if_neg (not_not.2 hverified)]
    split
    · rfl
    · next hclear =>
      rw [Bool.or_eq_true, not_or] at hclear
      have htasks : o.tasksDenied ≠ 0 := by
        rcases hshown with hkilled | hmemory | htasks
        · exact absurd hkilled hclear.2
        · exact absurd hmemory hclear.1
        · exact htasks
      rw [if_pos htasks]
      rfl

/-- The record and the copies have what has been sighted, and so have the reports. -/
structure Sound (p : State × History) : Prop where
  current : Covers p.1.observations p.1.lastSnapshot p.2.seen
  copies : ∀ c o, p.1.copies c = some o → Covers o p.1.lastSnapshot (p.2.before c)
  reports : ∀ entry ∈ p.2.reports, entry.2.Keeps entry.1

theorem oomKilled_notMem_sighted {counter : Counter} {value : Option Int} : Sighting.oomKilled ∉ sighted counter value := by
  rw [mem_sighted]
  rintro ⟨v, -, heq⟩
  cases heq

theorem oomKilled_notMem_memory : Sighting.oomKilled ∉ memorySightings values := by
  intro hmem
  obtain ⟨entry, -, hentry⟩ := List.mem_flatMap.1 hmem
  exact oomKilled_notMem_sighted hentry

theorem oomKilled_notMem_event {kind : EventKind} : Sighting.oomKilled ∉ eventSightings kind values := by
  cases kind with
  | memory => exact oomKilled_notMem_memory
  | tasks => exact oomKilled_notMem_sighted

theorem oomKilled_notMem_sample {files : Files} : Sighting.oomKilled ∉
    (last.map snapshotSightings).getD [] ++ if controlGroup recorded last ≠ "" then fileSightings files else [] := by
  rw [List.mem_append, not_or]
  constructor
  · cases last <;> simp [snapshotSightings, oomKilled_notMem_sighted]
  · split
    · simp [fileSightings, oomKilled_notMem_sighted, oomKilled_notMem_memory]
    · exact List.not_mem_nil

/-- Another snapshot becomes the last one. -/
theorem Covers.snapshot {snapshot : Option UnitSnapshot} (h : Covers o last seen)
    (hkeeps : killed last = true → killed snapshot = true ∨ Limited o) : Covers o snapshot seen := by
  refine ⟨h.nonneg, h.counted, ?_⟩
  intro hmem
  rcases h.oomKilled hmem with hkilled | hlimited
  · exact hkeeps hkilled
  · exact .inr hlimited

theorem Sound.step {a : Action} (h : Sound p) (hkeeping : Keeping recorded p.1 a) (hact : act recorded p.1 a = some s') :
    Sound (s', record recorded p.1 a p.2) := by
  obtain ⟨s, history⟩ := p
  cases a with
  | capture kind reading =>
      obtain rfl := Option.some.inj hact
      refine ⟨h.current.grow (grown_event ?_) oomKilled_notMem_event, h.copies, h.reports⟩
      rintro rfl
      exact hkeeping
  | snapshot snapshot =>
      obtain rfl := Option.some.inj hact
      refine ⟨?_, ?_, h.reports⟩
      · have hcovers := h.current.snapshot fun hkilled => (hkeeping hkilled).imp id And.left
        refine ⟨hcovers.nonneg, ?_, ?_⟩
        · intro counter value hmem
          refine h.current.counted counter value ((List.mem_append.1 hmem).resolve_right ?_)
          simp only [sightings]
          split <;> simp
        · intro hmem
          rcases List.mem_append.1 hmem with hmem | hmem
          · exact hcovers.oomKilled hmem
          · simp only [sightings] at hmem
            split at hmem
            · next hkilled => exact .inl hkilled
            · cases hmem
      · intro c o hc
        exact (h.copies c o hc).snapshot fun hkilled => (hkeeping hkilled).imp id fun hlimited => hlimited.2 c o hc
  | sample files =>
      obtain rfl := Option.some.inj hact
      exact ⟨h.current.grow (grown_sample hkeeping) oomKilled_notMem_sample, h.copies, h.reports⟩
  | copy c =>
      rw [act] at hact
      split at hact
      · cases hact
      · obtain rfl := Option.some.inj hact
        have hcurrent : Covers s.observations s.lastSnapshot (history.seen ++ []) := by
          rw [List.append_nil]
          exact h.current
        refine ⟨hcurrent, ?_, h.reports⟩
        intro d o hd
        simp only [record]
        by_cases hdc : d = c
        · subst hdc
          simp only [Function.update_self, Option.some.injEq] at hd ⊢
          exact hd ▸ hcurrent
        · simp only [Function.update_of_ne hdc] at hd ⊢
          exact h.copies d o hd
  | conclude c verification =>
      obtain ⟨o, ho, rfl⟩ := Option.map_eq_some_iff.1 hact
      have hcurrent : Covers s.observations s.lastSnapshot (history.seen ++ []) := by
        rw [List.append_nil]
        exact h.current
      refine ⟨hcurrent, ?_, ?_⟩
      · intro d o' hd
        by_cases hdc : d = c
        · subst hdc
          simp only [Function.update_self] at hd
          cases hd
        · simp only [Function.update_of_ne hdc] at hd
          exact h.copies d o' hd
      · intro entry hentry
        simp only [record, show s.copies c = _ from ho, Option.toList_some, List.map_cons, List.map_nil, List.mem_append,
          List.mem_singleton] at hentry
        rcases hentry with hentry | rfl
        · exact h.reports entry hentry
        · exact (h.copies c o ho).conclude verification

theorem sound_start : Sound (machine recorded).start := by
  constructor
  · constructor
    · intro counter
      cases counter <;> exact le_rfl
    · intro counter value hmem
      cases hmem
    · intro hmem
      cases hmem
  · intro c o hc
    cases hc
  · intro entry hentry
    cases hentry

/-- In the runs of steps that lose nothing, each report has what was sighted before its copy. -/
theorem evidence_kept (hreach : (machine recorded).Reach (fun p => Keeping recorded p.1) p) :
    ∀ entry ∈ p.2.reports, entry.2.Keeps entry.1 := by
  have hsound : Sound p := by
    apply Machine.Reach.inv sound_start _ hreach
    intro p a q hp hkeeping hstep
    obtain ⟨hact, hq⟩ := Machine.recording_step.1 hstep
    have hnext := hp.step hkeeping hact
    rw [← hq] at hnext
    exact hnext
  exact hsound.reports

/-! ## A capture after the cgroup has gone -/

/-- A kill is captured, the control group goes, and the file is captured once more. -/
def lostRun : List Action :=
  [.capture .memory (some [("oom_kill", some 1)]), .capture .memory none, .copy 0, .conclude 0 "verified"]

theorem evidence_lost : ¬ ∀ (recorded : String) (p : State × History), (machine recorded).Reach (fun _ _ => True) p →
    ∀ entry ∈ p.2.reports, entry.2.Keeps entry.1 := by
  intro hall
  have hrun : ∃ p, (machine "").run (fun _ _ => true) (machine "").start lostRun = some p ∧
      ∃ entry ∈ p.2.reports, .counted (.memoryEvent "oom_kill") 1 ∈ entry.1 ∧
        entry.2.observations.value (.memoryEvent "oom_kill") = 0 := by
    refine ⟨_, rfl, _, List.mem_singleton.2 rfl, ?_, ?_⟩
    · exact List.mem_singleton.2 rfl
    · rfl
  obtain ⟨p, hp, entry, hentry, hsighted, hzero⟩ := hrun
  have hreach := Machine.Reach.run (fun _ _ _ => trivial) Machine.Reach.start hp
  have hle := (hall "" p hreach entry hentry).counters _ _ hsighted
  rw [hzero] at hle
  omega

/-- A kill that is captured and reported. -/
theorem evidence_kept_sample : ∃ p : State × History, p.2.reports.length = 1 ∧ ∀ entry ∈ p.2.reports, entry.2.Keeps entry.1 := by
  have hcapture : Keeping "" (machine "").start.1 (.capture .memory (some [("oom_kill", some 1)])) := by
    intro key hkey
    exact absurd rfl hkey
  exact ⟨_, rfl, @evidence_kept "" _ (.step (.conclude 0 "verified") (.step (.copy 0)
    (.step (.capture .memory (some [("oom_kill", some 1)])) .start hcapture rfl) trivial rfl) trivial rfl)⟩

end DebBuilder.Resources
