import Mathlib

/-!
# Disposable workspace data

`workspace_cleanup.py`: the part that retention and storage pressure share. A pass first
looks at every Run and later comes back to clean some of them; it re-reads a Run under its
lock before it removes anything.

## Main definitions

* `Look` — what reading a Run under its lock gives.
* `retentionFailed`, `completionTime` — the status and the age of a Run.
* `Visit` — what the pass meets when it comes back.
* `removeTargets`, `cleanLocked`, `revisit` — the removal, from its core outwards.

## Main statements

* `mem_of_mem_revisit`, `mem_revisit` — nothing but the targets is removed.
* `revisit_revisit` — cleaning once more removes nothing more.
-/

namespace DebBuilder.Workspace

/-! ## Names -/

/-- `RETENTION_DISPOSABLE_DIRECTORIES` -/
def retentionDirectories : List String := ["source", "staging", "downloads"]

/-- `TERMINAL_DISPOSABLE_DIRECTORIES` -/
def terminalDirectories : List String := ["toolchain"]

/-- `DISPOSABLE_DIRECTORIES` -/
def disposableDirectories : List String := retentionDirectories ++ terminalDirectories

/-- `DISPOSABLE_FILES` -/
def disposableFiles : List String := ["source.tar.gz"]

/-- `CLEANUP_MARKER` -/
def cleanupMarker : String := ".workspace-cleanup.json"

/-- The names of the data that retention is about. -/
def retentionNames : List String := retentionDirectories ++ disposableFiles

/-- `entries.intersection(names)` is not empty. -/
def Holds (entries names : List String) : Prop := ∃ name ∈ names, name ∈ entries

instance (entries names : List String) : Decidable (Holds entries names) :=
  inferInstanceAs (Decidable (∃ name ∈ names, name ∈ entries))

/-! ## Runs -/

/-- The exceptions by the class that a handler tells apart: `WorkspaceBusyError`,
`FileNotFoundError`, another `OSError`, `ValueError`, and any that no handler names. -/
inductive Failure
  | busy
  | missing
  | os
  | value
  | other
  deriving DecidableEq, Repr

/-- A validation attempt or a publication. -/
structure Record where
  status : String
  finishedAt : Option String

/-- What the passes read of `run.json`. -/
structure Document (τ : Type) where
  status : String
  finishedAt : Option String
  publications : List Record
  createdAtEpoch : Option τ
  createdAt : Option String
  logDeleted : Bool

/-- What the readings of a Run under its lock give. -/
structure Look (τ : Type) where
  /-- `locked_workspace` -/
  lock : Option Failure
  /-- `read_run`, `require_run` and `require_finished` -/
  run : Except Failure (Document τ)
  /-- `list_attempts` -/
  attempts : Except Failure (List Record)
  /-- The marker of a deleted history. -/
  marker : Except Failure Bool
  /-- `st_mtime_ns` of `run.json` -/
  revision : Except Failure Nat

def endedBadly (status : String) : Bool := status = "failed" || status = "cancelled"

/-- `_retention_failed` -/
def retentionFailed {τ : Type} (run : Document τ) (attempts : List Record) : Bool :=
  endedBadly run.status || attempts.getLast?.any (endedBadly ·.status) ||
    run.publications.getLast?.any (endedBadly ·.status)

/-- `_completion_time`.  The time of a date is that of `datetime.fromisoformat`, for dates
with a time zone and a finite timestamp. -/
def completionTime {τ : Type} [LinearOrder τ] (timeOf : String → Option τ) (run : Document τ) (attempts : List Record) :
    Option τ :=
  let stamp (date : Option String) : Option τ := date.bind fun text => if text = "" then none else timeOf text
  let dates := run.finishedAt :: attempts.map Record.finishedAt ++ run.publications.map Record.finishedAt
  match (dates.filterMap stamp).max? with
  | some completed => some completed
  | none => run.createdAtEpoch.or (stamp run.createdAt)

/-! ## Removal -/

/-- What a pass meets when it comes back to a Run. -/
structure Visit (τ : Type) extends Look τ where
  /-- `require_destructive_run_safe` -/
  guard : Option Failure
  /-- The paths of the final artifacts, as parts below the workspace. -/
  artifacts : List (List String)
  /-- The names with a mount at or below them. -/
  mounted : List String
  /-- The names whose entry is of another type or on another device. -/
  foreign : List String
  /-- The error of removing a name that exists. -/
  unremovable : String → Option Failure
  /-- The error of writing the cleanup marker. -/
  unwritable : Option Failure

/-- `_check_artifact` -/
def artifactInside (artifacts : List (List String)) (directories files : List String) : Bool :=
  artifacts.any fun path => directories.any (fun name => [name].isPrefixOf path) || files.any fun name => path = [name]

/-- `_check_targets`: every name is checked for mounts, and those that exist for their type. -/
def unsafeTarget (mounted foreign names entries : List String) : Bool :=
  names.any (· ∈ mounted) || names.any fun name => name ∈ entries && name ∈ foreign

/-- `_remove_targets`, with the entries that are left.  A name that is gone is passed over. -/
def removeTargets (unremovable : String → Option Failure) :
    List String → List String → Except Failure (List String) × List String
  | [], entries => (.ok [], entries)
  | name :: names, entries =>
    if name ∈ entries then
      match unremovable name with
      | none =>
        match removeTargets unremovable names (entries.filter (· ≠ name)) with
        | (.ok removed, entries) => (.ok (name :: removed), entries)
        | (.error failure, entries) => (.error failure, entries)
      | some .missing => removeTargets unremovable names entries
      | some failure => (.error failure, entries)
    else removeTargets unremovable names entries

variable {τ : Type}

/-- What stands before any removal: the guard, `_check_artifact` and `_check_targets`. -/
def barrier (visit : Visit τ) (directories files entries : List String) : Option Failure :=
  match visit.guard with
  | some failure => some failure
  | none =>
    if artifactInside visit.artifacts directories files = true then some .value
    else if unsafeTarget visit.mounted visit.foreign (directories ++ files) entries = true then some .value
    else none

/-- The cleanup marker is written when something was removed. -/
def writeMarker (unwritable : Option Failure) :
    Except Failure (List String) × List String → Except Failure (List String) × List String
  | (.error failure, entries) => (.error failure, entries)
  | (.ok removed, entries) =>
    if removed = [] then (.ok [], entries)
    else
      match unwritable with
      | some failure => (.error failure, entries)
      | none => (.ok removed, entries.insert cleanupMarker)

/-- `_clean_locked` -/
def cleanLocked (visit : Visit τ) (directories files entries : List String) :
    Except Failure (List String) × List String :=
  match barrier visit directories files entries with
  | some failure => (.error failure, entries)
  | none => writeMarker visit.unwritable (removeTargets visit.unremovable (directories ++ files) entries)

/-- How the return to a Run ends. -/
inductive Outcome
  | stopped
  | changed
  | raised (failure : Failure)
  | done (removed : List String)
  deriving DecidableEq, Repr

def Outcome.ofClean : Except Failure (List String) × List String → Outcome × List String
  | (.error failure, entries) => (.raised failure, entries)
  | (.ok removed, entries) => (.done removed, entries)

/-- The part of both loops that runs under the lock of a Run: `run.json` must be the one
that the scan saw, and the Run must be failed as the scan saw it. -/
def revisit (visit : Visit τ) (stop : Bool) (revision : Nat) (failed : Bool) (directories files entries : List String) :
    Outcome × List String :=
  match visit.lock with
  | some failure => (.raised failure, entries)
  | none =>
    if stop = true then (.stopped, entries)
    else
      match visit.run with
      | .error failure => (.raised failure, entries)
      | .ok document =>
        match visit.revision with
        | .error failure => (.raised failure, entries)
        | .ok current =>
          if current ≠ revision then (.changed, entries)
          else
            match visit.attempts with
            | .error failure => (.raised failure, entries)
            | .ok attempts =>
              if retentionFailed document attempts ≠ failed then (.changed, entries)
              else Outcome.ofClean (cleanLocked visit directories files entries)

/-! ## What a removal leaves -/

section

variable {unremovable : String → Option Failure} {name mark : String} {names entries directories files : List String}

theorem mem_of_mem_removeTargets (h : name ∈ (removeTargets unremovable names entries).2) : name ∈ entries := by
  fun_induction removeTargets unremovable names entries with
  | case1 => exact h
  | case2 _ _ _ _ _ _ _ heq ih | case3 _ _ _ _ _ _ _ heq ih =>
      rw [heq] at ih
      exact List.mem_of_mem_filter (ih h)
  | case4 _ _ _ _ _ ih => exact ih h
  | case5 => exact h
  | case6 _ _ _ _ ih => exact ih h

/-- Nothing but the targets is removed. -/
theorem mem_removeTargets (hname : name ∉ names) (h : name ∈ entries) :
    name ∈ (removeTargets unremovable names entries).2 := by
  fun_induction removeTargets unremovable names entries with
  | case1 => exact h
  | case2 target _ _ _ _ _ _ heq ih | case3 target _ _ _ _ _ _ heq ih =>
      rw [heq] at ih
      have hne : name ≠ target := fun heq => hname (heq ▸ List.mem_cons_self)
      exact ih (fun hmem => hname (List.mem_cons_of_mem _ hmem)) (List.mem_filter.2 ⟨h, by simpa using hne⟩)
  | case4 _ _ _ _ _ ih => exact ih (fun hmem => hname (List.mem_cons_of_mem _ hmem)) h
  | case5 => exact h
  | case6 _ _ _ _ ih => exact ih (fun hmem => hname (List.mem_cons_of_mem _ hmem)) h

theorem removeTargets_cons_of_not_mem (h : name ∉ entries) :
    removeTargets unremovable (name :: names) entries = removeTargets unremovable names entries := by
  rw [removeTargets, if_neg h]

/-- A removal that ends removes nothing when it is done again; one that fails fails again at
the same name. -/
theorem removeTargets_removeTargets (unremovable : String → Option Failure) (names entries : List String) :
    removeTargets unremovable names (removeTargets unremovable names entries).2 =
      ((removeTargets unremovable names entries).1.map fun _ => [], (removeTargets unremovable names entries).2) := by
  fun_induction removeTargets unremovable names entries with
  | case1 => rfl
  | case2 target names entries _ _ _ _ heq ih | case3 target names entries _ _ _ _ heq ih =>
      have hgone : target ∉ (removeTargets unremovable names (entries.filter (· ≠ target))).2 := by
        intro hmem
        have hkept := mem_of_mem_removeTargets hmem
        simp at hkept
      rw [heq] at ih hgone
      exact (removeTargets_cons_of_not_mem hgone).trans ih
  | case4 target names entries _ hmissing ih =>
      by_cases hmem : target ∈ (removeTargets unremovable names entries).2
      · rw [removeTargets, if_pos hmem, hmissing]
        exact ih
      · rw [removeTargets_cons_of_not_mem hmem]
        exact ih
  | case5 target names entries hmem failure hother hfailure =>
      rw [removeTargets, if_pos hmem, hfailure]
      cases failure with
      | missing => exact absurd rfl hother
      | busy | os | value | other => rfl
  | case6 target names entries hmem ih =>
      rw [removeTargets_cons_of_not_mem fun h => hmem (mem_of_mem_removeTargets h)]
      exact ih

/-- A name that is no target takes no part. -/
theorem removeTargets_insert (h : mark ∉ names) :
    removeTargets unremovable names (entries.insert mark) =
      ((removeTargets unremovable names entries).1, (removeTargets unremovable names entries).2.insert mark) := by
  induction names generalizing entries with
  | nil => rfl
  | cons target names ih =>
      have hne : target ≠ mark := fun heq => h (heq ▸ List.mem_cons_self)
      have hrest : mark ∉ names := fun hmem => h (List.mem_cons_of_mem _ hmem)
      have hmem : target ∈ entries.insert mark ↔ target ∈ entries := by
        rw [List.mem_insert_iff, or_iff_right hne]
      have hfilter : (entries.insert mark).filter (· ≠ target) = (entries.filter (· ≠ target)).insert mark := by
        by_cases hmark : mark ∈ entries
        · rw [List.insert_of_mem hmark, List.insert_of_mem (List.mem_filter.2 ⟨hmark, by simpa using Ne.symm hne⟩)]
        · rw [List.insert_of_not_mem hmark, List.insert_of_not_mem fun hin => hmark (List.mem_of_mem_filter hin),
            List.filter_cons_of_pos (by simpa using Ne.symm hne)]
      by_cases htarget : target ∈ entries
      · rw [removeTargets, removeTargets, if_pos htarget, if_pos (hmem.2 htarget)]
        cases hfailure : unremovable target with
        | none =>
            simp only [hfilter, ih hrest]
            cases (removeTargets unremovable names (entries.filter (· ≠ target))) with
            | mk result _ => cases result <;> rfl
        | some failure =>
            cases failure with
            | missing => exact ih hrest
            | busy | os | value | other => rfl
      · rw [removeTargets_cons_of_not_mem htarget, removeTargets_cons_of_not_mem (fun hin => htarget (hmem.1 hin))]
        exact ih hrest

/-- Where no name resists, the targets go. -/
theorem removeTargets_of_removable (h : ∀ name, unremovable name = none) :
    ∃ removed, removeTargets unremovable names entries = (.ok removed, entries.filter (· ∉ names)) ∧
      (removed = [] ↔ ¬ Holds entries names) := by
  induction names generalizing entries with
  | nil => exact ⟨[], by simp [removeTargets], by simp [Holds]⟩
  | cons target names ih =>
      by_cases htarget : target ∈ entries
      · obtain ⟨removed, hrest, _⟩ := @ih (entries.filter (· ≠ target))
        refine ⟨target :: removed, ?_, ?_⟩
        · rw [removeTargets, if_pos htarget, h target, hrest]
          have hfilter : (entries.filter (· ≠ target)).filter (· ∉ names) = entries.filter (· ∉ target :: names) := by
            rw [List.filter_filter]
            apply List.filter_congr
            intro a _
            by_cases heq : a = target
            · simp [heq]
            · simp [heq]
          simp only [hfilter]
        · have hholds : Holds entries (target :: names) := ⟨target, List.mem_cons_self, htarget⟩
          simp [hholds]
      · obtain ⟨removed, hrest, hremoved⟩ := @ih entries
        refine ⟨removed, ?_, ?_⟩
        · have hfilter : entries.filter (· ∉ names) = entries.filter (· ∉ target :: names) := by
            apply List.filter_congr
            intro a ha
            have hne : a ≠ target := fun heq => htarget (heq ▸ ha)
            simp [hne]
          rw [removeTargets_cons_of_not_mem htarget, hrest, hfilter]
        · rw [hremoved]
          simp [Holds, htarget]

variable {τ : Type} {visit : Visit τ}

theorem writeMarker_eq (unwritable : Option Failure) (result : Except Failure (List String)) (entries : List String) :
    (writeMarker unwritable (result, entries)).2 = entries ∨
      (writeMarker unwritable (result, entries)).2 = entries.insert cleanupMarker := by
  cases result with
  | error failure => exact .inl rfl
  | ok removed =>
      simp only [writeMarker]
      by_cases hnone : removed = []
      · rw [if_pos hnone]
        exact .inl rfl
      · rw [if_neg hnone]
        cases unwritable with
        | none => exact .inr rfl
        | some failure => exact .inl rfl

theorem mem_of_mem_cleanLocked (h : name ∈ (cleanLocked visit directories files entries).2) :
    name ∈ entries ∨ name = cleanupMarker := by
  rw [cleanLocked] at h
  cases hbarrier : barrier visit directories files entries with
  | some failure =>
      rw [hbarrier] at h
      exact .inl h
  | none =>
      rw [hbarrier] at h
      rcases writeMarker_eq visit.unwritable _ _ with hmark | hmark
      · rw [hmark] at h
        exact .inl (mem_of_mem_removeTargets h)
      · rw [hmark] at h
        rcases List.mem_insert_iff.1 h with rfl | h
        · exact .inr rfl
        · exact .inl (mem_of_mem_removeTargets h)

theorem mem_cleanLocked (hname : name ∉ directories ++ files) (h : name ∈ entries) :
    name ∈ (cleanLocked visit directories files entries).2 := by
  rw [cleanLocked]
  cases barrier visit directories files entries with
  | some failure => exact h
  | none =>
      have hkept : name ∈ (removeTargets visit.unremovable (directories ++ files) entries).2 := mem_removeTargets hname h
      rcases writeMarker_eq visit.unwritable _ _ with hmark | hmark
      · rw [hmark]
        exact hkept
      · rw [hmark]
        exact List.mem_insert_of_mem hkept

/-- Checks that passed pass again when there are fewer targets. -/
theorem barrier_of_subset {entries' : List String} (h : barrier visit directories files entries = none)
    (hsubset : ∀ name ∈ directories ++ files, name ∈ entries' → name ∈ entries) :
    barrier visit directories files entries' = none := by
  rw [barrier] at h ⊢
  cases hguard : visit.guard with
  | some failure => rw [hguard] at h; exact absurd h nofun
  | none =>
      rw [hguard] at h
      by_cases hartifact : artifactInside visit.artifacts directories files = true
      · simp only [if_pos hartifact] at h
        exact absurd h nofun
      · simp only [if_neg hartifact] at h ⊢
        by_cases htarget : unsafeTarget visit.mounted visit.foreign (directories ++ files) entries = true
        · rw [if_pos htarget] at h
          exact absurd h nofun
        · rw [if_neg]
          intro hsame
          apply htarget
          rw [unsafeTarget, Bool.or_eq_true] at hsame ⊢
          rcases hsame with hmounted | hforeign
          · exact .inl hmounted
          · right
            obtain ⟨name, hname, hboth⟩ := List.any_eq_true.1 hforeign
            rw [Bool.and_eq_true, decide_eq_true_eq, decide_eq_true_eq] at hboth
            apply List.any_eq_true.2
            exact ⟨name, hname, by simpa using ⟨hsubset name hname hboth.1, hboth.2⟩⟩

/-- Cleaning once more removes nothing more. -/
theorem cleanLocked_cleanLocked (hmarker : cleanupMarker ∉ directories ++ files) :
    ∃ result, cleanLocked visit directories files (cleanLocked visit directories files entries).2 =
        (result, (cleanLocked visit directories files entries).2) ∧ ∀ removed, result = .ok removed → removed = [] := by
  cases hbarrier : barrier visit directories files entries with
  | some failure =>
      have hfirst : cleanLocked visit directories files entries = (.error failure, entries) := by
        rw [cleanLocked, hbarrier]
      rw [hfirst]
      exact ⟨_, hfirst, nofun⟩
  | none =>
      have hfirst : cleanLocked visit directories files entries =
          writeMarker visit.unwritable (removeTargets visit.unremovable (directories ++ files) entries) := by
        rw [cleanLocked, hbarrier]
      have hagain := removeTargets_removeTargets visit.unremovable (directories ++ files) entries
      have hbarrier' : barrier visit directories files (cleanLocked visit directories files entries).2 = none := by
        apply barrier_of_subset hbarrier
        intro name hname hmem
        exact (mem_of_mem_cleanLocked hmem).resolve_right fun heq => hmarker (heq ▸ hname)
      rw [cleanLocked, hbarrier', hfirst]
      generalize removeTargets visit.unremovable (directories ++ files) entries = found at hagain ⊢
      obtain ⟨result, left⟩ := found
      have hresult : ∃ again, removeTargets visit.unremovable (directories ++ files)
            (writeMarker visit.unwritable (result, left)).2 =
          (again, (writeMarker visit.unwritable (result, left)).2) ∧
            ∀ removed, again = .ok removed → removed = [] := by
        refine ⟨result.map fun _ => [], ?_, ?_⟩
        · rcases writeMarker_eq visit.unwritable result left with hmark | hmark
          · rw [hmark]
            exact hagain
          · rw [hmark, removeTargets_insert hmarker, hagain]
        · intro removed heq
          cases result with
          | error failure => exact absurd heq nofun
          | ok _ => exact (Except.ok.inj heq).symm
      obtain ⟨again, heq, hnone⟩ := hresult
      simp only [heq]
      cases again with
      | error failure => exact ⟨.error failure, rfl, nofun⟩
      | ok removed =>
          rw [hnone removed rfl]
          exact ⟨.ok [], rfl, fun removed heq => (Except.ok.inj heq).symm⟩

/-- A Run whose workspace nothing holds back loses all targets. -/
theorem cleanLocked_of_free (hbarrier : barrier visit directories files entries = none)
    (hremovable : ∀ name, visit.unremovable name = none) (hwritable : visit.unwritable = none) :
    ∃ removed, (cleanLocked visit directories files entries).1 = .ok removed ∧
      (removed = [] ↔ ¬ Holds entries (directories ++ files)) ∧
        ∀ name ∈ directories ++ files, name ≠ cleanupMarker → name ∉ (cleanLocked visit directories files entries).2 := by
  obtain ⟨removed, heq, hnone⟩ : ∃ removed, removeTargets visit.unremovable (directories ++ files) entries =
      (.ok removed, entries.filter (· ∉ directories ++ files)) ∧ (removed = [] ↔ ¬ Holds entries (directories ++ files)) :=
    removeTargets_of_removable hremovable
  have hleft : ∀ name ∈ directories ++ files, name ∉ entries.filter (· ∉ directories ++ files) := by
    intro name hname hmem
    exact absurd hname (of_decide_eq_true (List.mem_filter.1 hmem).2)
  refine ⟨removed, ?_, hnone, ?_⟩
  · simp only [cleanLocked, hbarrier, heq, writeMarker]
    by_cases hremoved : removed = []
    · simp [hremoved]
    · simp [hremoved, hwritable]
  · intro name hname hne hmem
    rw [cleanLocked, hbarrier, heq] at hmem
    rcases writeMarker_eq visit.unwritable (.ok removed) (entries.filter (· ∉ directories ++ files)) with hmark | hmark
    · rw [hmark] at hmem
      exact hleft name hname hmem
    · rw [hmark] at hmem
      exact hleft name hname ((List.mem_insert_iff.1 hmem).resolve_left hne)

variable {stop failed : Bool} {revision : Nat}

/-- The Run is as the scan saw it. -/
def Current (visit : Visit τ) (revision : Nat) (failed : Bool) : Prop :=
  visit.revision = .ok revision ∧ ∃ run attempts, visit.run = .ok run ∧ visit.attempts = .ok attempts ∧
    retentionFailed run attempts = failed

/-- A visit stands or falls before it comes to the workspace. -/
theorem revisit_cases (visit : Visit τ) (stop : Bool) (revision : Nat) (failed : Bool) :
    (∃ outcome, (∀ removed, outcome ≠ .done removed) ∧
      ∀ directories files entries, revisit visit stop revision failed directories files entries = (outcome, entries)) ∨
    Current visit revision failed ∧
      ∀ directories files entries, revisit visit stop revision failed directories files entries =
        Outcome.ofClean (cleanLocked visit directories files entries) := by
  simp only [revisit]
  cases visit.lock with
  | some failure => exact .inl ⟨.raised failure, nofun, fun _ _ _ => rfl⟩
  | none =>
      by_cases hstop : stop = true
      · simp only [if_pos hstop]
        exact .inl ⟨.stopped, nofun, fun _ _ _ => rfl⟩
      · simp only [if_neg hstop]
        cases hrun : visit.run with
        | error failure => exact .inl ⟨.raised failure, nofun, fun _ _ _ => rfl⟩
        | ok run =>
            cases hcurrent : visit.revision with
            | error failure => exact .inl ⟨.raised failure, nofun, fun _ _ _ => rfl⟩
            | ok current =>
                by_cases hrevision : current ≠ revision
                · simp only [if_pos hrevision]
                  exact .inl ⟨.changed, nofun, fun _ _ _ => rfl⟩
                · simp only [if_neg hrevision]
                  cases hattempts : visit.attempts with
                  | error failure => exact .inl ⟨.raised failure, nofun, fun _ _ _ => rfl⟩
                  | ok attempts =>
                      by_cases hfailed : retentionFailed run attempts ≠ failed
                      · simp only [if_pos hfailed]
                        exact .inl ⟨.changed, nofun, fun _ _ _ => rfl⟩
                      · simp only [if_neg hfailed]
                        rw [not_not.1 hrevision] at hcurrent
                        exact .inr ⟨⟨hcurrent, run, attempts, hrun, hattempts, not_not.1 hfailed⟩, fun _ _ _ => trivial⟩

theorem revisit_true (visit : Visit τ) (revision : Nat) (failed : Bool) (directories files entries : List String) :
    revisit visit true revision failed directories files entries = (.stopped, entries) ∨
      revisit visit true revision failed directories files entries =
        revisit visit false revision failed directories files entries := by
  simp only [revisit]
  cases visit.lock with
  | some failure => exact .inr rfl
  | none => exact .inl rfl

theorem ofClean_snd (result : Except Failure (List String) × List String) : (Outcome.ofClean result).2 = result.2 := by
  obtain ⟨result, entries⟩ := result
  cases result <;> rfl

/-- A workspace that is touched is that of a Run that did not change. -/
theorem current_of_revisit (h : (revisit visit stop revision failed directories files entries).2 ≠ entries ∨
    ∃ removed, (revisit visit stop revision failed directories files entries).1 = .done removed) :
    Current visit revision failed := by
  rcases revisit_cases visit stop revision failed with ⟨outcome, hother, heq⟩ | ⟨hcurrent, _⟩
  · rw [heq] at h
    rcases h with h | ⟨removed, h⟩
    · exact absurd rfl h
    · exact absurd h (hother removed)
  · exact hcurrent

/-- Nothing is added to a workspace but the marker. -/
theorem mem_of_mem_revisit (h : name ∈ (revisit visit stop revision failed directories files entries).2) :
    name ∈ entries ∨ name = cleanupMarker := by
  rcases revisit_cases visit stop revision failed with ⟨outcome, _, heq⟩ | ⟨_, heq⟩
  · rw [heq] at h
    exact .inl h
  · rw [heq, ofClean_snd] at h
    exact mem_of_mem_cleanLocked h

/-- Nothing but the targets is removed. -/
theorem mem_revisit (hname : name ∉ directories ++ files) (h : name ∈ entries) :
    name ∈ (revisit visit stop revision failed directories files entries).2 := by
  rcases revisit_cases visit stop revision failed with ⟨outcome, _, heq⟩ | ⟨_, heq⟩
  · rw [heq]
    exact h
  · rw [heq, ofClean_snd]
    exact mem_cleanLocked hname h

/-- Coming back once more removes nothing more. -/
theorem revisit_revisit (hmarker : cleanupMarker ∉ directories ++ files) :
    ∃ outcome, revisit visit stop revision failed directories files
          (revisit visit stop revision failed directories files entries).2 =
        (outcome, (revisit visit stop revision failed directories files entries).2) ∧
      ∀ removed, outcome = .done removed → removed = [] := by
  rcases revisit_cases visit stop revision failed with ⟨outcome, hother, heq⟩ | ⟨_, heq⟩
  · simp only [heq]
    exact ⟨outcome, rfl, fun removed hdone => absurd hdone (hother removed)⟩
  · simp only [heq, ofClean_snd]
    obtain ⟨result, hclean, hnone⟩ : ∃ result, cleanLocked visit directories files (cleanLocked visit directories files entries).2 =
        (result, (cleanLocked visit directories files entries).2) ∧ ∀ removed, result = .ok removed → removed = [] :=
      cleanLocked_cleanLocked hmarker
    rw [hclean]
    cases result with
    | error failure => exact ⟨.raised failure, rfl, nofun⟩
    | ok removed => exact ⟨.done removed, rfl, fun removed' heq => hnone removed' (by rw [Outcome.done.inj heq])⟩

end

end DebBuilder.Workspace
