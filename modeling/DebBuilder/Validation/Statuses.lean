import Mathlib
import DebBuilder.Validation.Eligibility
import DebBuilder.Validation.Moves

/-!
# The statuses of the attempts of a Run

The status that is stored in `attempt.json` moves along queued, running, cancelling and an
end, whoever writes it; and at most one attempt of a Run is active.

## Main definitions

* `Orderly` — what holds in every state.

## Main results

* `attempt_statuses_move` — over every run, with any interleaving, crash and failed write.
-/

namespace DebBuilder.Validation
open Lib

/-! ## The statuses of a state -/

/-- The status of an attempt on a disk. -/
def statusIn (disk : Dict String AttemptFiles) (id : String) : Option Status :=
  ((disk.lookup id).getD noFiles).status?

@[grind =] theorem statusIn_insert {disk : Dict String AttemptFiles} {id i : String}
    {files : AttemptFiles} :
    statusIn (disk.insert id files) i = if i = id then files.status? else statusIn disk i := by
  unfold statusIn
  by_cases h : i = id
  · subst h
    simp [AList.lookup_insert]
  · simp [AList.lookup_insert_ne h, h]

@[grind =] theorem statusIn_erase {disk : Dict String AttemptFiles} {id i : String} :
    statusIn (disk.erase id) i = if i = id then none else statusIn disk i := by
  unfold statusIn
  by_cases h : i = id
  · subst h
    simp [AList.lookup_erase, noFiles, AttemptFiles.status?, Stored.status?]
  · simp [AList.lookup_erase_ne h, h]

@[grind =] theorem statusIn_empty {i : String} :
    statusIn (∅ : Dict String AttemptFiles) i = none := by
  simp [statusIn, noFiles, AttemptFiles.status?, Stored.status?]

@[grind →] theorem mem_of_statusIn {disk : Dict String AttemptFiles} {id : String} {st : Status}
    (h : statusIn disk id = some st) : id ∈ disk := by
  by_contra hnot
  rw [← AList.lookup_eq_none] at hnot
  simp [statusIn, hnot, noFiles, AttemptFiles.status?, Stored.status?] at h

/-- The stored status of an attempt. -/
@[grind =] def State.status? (s : State) (id : String) : Option Status := statusIn s.disk id

theorem State.status?_files (s : State) (id : String) : (s.files id).status? = statusIn s.disk id :=
  rfl

/-- An attempt is active. -/
@[grind =] def ActiveIn (disk : Dict String AttemptFiles) (id : String) : Prop :=
  ∃ st, statusIn disk id = some st ∧ st.active = true

@[grind →] theorem activeIn_of {disk : Dict String AttemptFiles} {id : String} {st : Status}
    (h : statusIn disk id = some st) (hst : st.active = true) : ActiveIn disk id :=
  ⟨st, h, hst⟩

@[grind =] theorem activeIn_insert {disk : Dict String AttemptFiles} {id i : String}
    {files : AttemptFiles} :
    ActiveIn (disk.insert id files) i ↔ i = id ∧ (∃ st, files.status? = some st ∧ st.active = true) ∨
      i ≠ id ∧ ActiveIn disk i := by
  unfold ActiveIn
  by_cases h : i = id <;> simp [statusIn_insert, h]

attribute [grind =] AList.mem_insert AList.mem_erase

/-- The task works on an attempt. -/
@[grind =] def Task.on : Task → Option String
  | .reusing _ | .cleared => none
  | .admitting id _ | .preparing id _ _ | .settling id => some id

/-- The task runs sections of its own on an attempt. -/
@[grind =] def Task.writes : Task → Option String
  | .reusing _ | .cleared | .admitting _ _ => none
  | .preparing id _ _ | .settling id => some id

/-- The stages before the attempt is written. -/
@[grind =] def Stage.early : Stage → Bool
  | .directory | .automation => true
  | .admitted | .removing => false

/-! ## The invariant -/

structure Orderly (s : State) : Prop where
  /-- A section moves the status that is stored, or ends an attempt that is gone. -/
  pending : ∀ id sec a, s.sections id = some sec → sec.attempt = .ok a →
    (∃ st, statusIn s.disk id = some st ∧ st.Advance a.status) ∨
      statusIn s.disk id = none ∧ a.status.active = false
  unleased : ∀ id sec a, s.sections id = some sec → sec.attempt = .ok a → sec.leased = false →
    statusIn s.disk id = some .queued → a.status.active = false
  leased : ∀ id sec, s.sections id = some sec → sec.leased = true →
    ∃ task, s.lease = some task ∧ task.writes = some id
  one : ∀ a b, ActiveIn s.disk a → ActiveIn s.disk b → a = b
  cleared : s.lease = some .cleared → ∀ a, ¬ ActiveIn s.disk a
  reusing : ∀ selected, s.lease = some (.reusing selected) → ∀ a, ActiveIn s.disk a → a = selected
  early : ∀ id stage, s.lease = some (.admitting id stage) → stage.early = true →
    (∀ a, ¬ ActiveIn s.disk a) ∧ statusIn s.disk id = none ∧ s.sections id = none
  late : ∀ id stage, s.lease = some (.admitting id stage) → stage.early = false →
    ∀ a, ActiveIn s.disk a → a = id ∧ statusIn s.disk a = some .queued
  known : ∀ id, id ∈ s.disk ∨ s.sections id ≠ none → id ∈ s.allocated
  working : ∀ task id, s.lease = some task → task.on = some id → id ∈ s.allocated
  alone : s.phase ≠ .serving → s.lease = none ∧ ∀ id, s.sections id = none

variable {runId : String} {s s' : State}

def State.Active (s : State) (id : String) : Prop := ActiveIn s.disk id

theorem Orderly.empty : Orderly .empty := by
  have hdisk : ∀ i, i ∉ State.empty.disk := fun i => AList.notMem_empty i
  have hsections : State.empty.sections = fun _ => none := rfl
  have hlease : State.empty.lease = none := rfl
  constructor <;> grind -ring -linarith

theorem Status.Advance.active {st st' : Status} (h : st.Advance st') (hst : st'.active = true) :
    st.active = true := by
  rcases h with rfl | h
  · exact hst
  · cases h with
    | claimed | cancelling => rfl
    | ended h _ => exact h

/-! ## Admissions -/

theorem mem_inventory {entry : Entry} :
    entry ∈ s.inventory.list ↔ ∃ files, entry.files = some files ∧
      s.disk.lookup entry.name = some files := by
  simp only [State.inventory, Inventory.list, List.mem_map]
  constructor
  · rintro ⟨⟨id, files⟩, hmem, rfl⟩
    exact ⟨files, rfl, AList.mem_lookup_iff.2 hmem⟩
  · rintro ⟨files, hfiles, hlookup⟩
    refine ⟨⟨entry.name, files⟩, AList.mem_lookup_iff.1 hlookup, ?_⟩
    rw [← hfiles]

/-- An inventory that can be listed shows the active attempts. -/
theorem listed_of_active {attempts : List Attempt}
    (hlist : listAttempts runId s.inventory = .ok attempts) {id : String} (h : ActiveIn s.disk id) :
    ∃ attempt ∈ attempts, attempt.id = id ∧ attempt.status.active = true := by
  obtain ⟨st, hst, hactive⟩ := h
  obtain ⟨files, hfiles⟩ := Option.isSome_iff_exists.1 (AList.lookup_isSome.2 (mem_of_statusIn hst))
  have hentry : (⟨id, some files⟩ : Entry) ∈ s.inventory.list :=
    mem_inventory.2 ⟨files, rfl, hfiles⟩
  obtain ⟨-, found, attempt, hfound, hloaded⟩ :=
    (exists_listAttempts.1 ⟨attempts, hlist⟩).readable _ hentry
  obtain rfl := Option.some.inj hfound
  refine ⟨attempt, (mem_listAttempts hlist).2 ⟨_, hentry, _, rfl, hloaded⟩, hloaded.ofAttempt, ?_⟩
  have hstatus := status?_of_read hloaded.contract
  rw [statusIn, hfiles, Option.getD_some, hstatus, Option.some.injEq] at hst
  rw [hst]
  exact hactive

theorem Orderly.admitAttempt (h : Orderly s) (hserving : s.phase = .serving)
    (hs : s.admitAttempt runId = some s') : Orderly s' := by
  unfold State.admitAttempt at hs
  split at hs
  · exact nomatch hs
  next hlease =>
    split at hs
    · exact nomatch hs
    next attempts hlist =>
      have hlisted := fun id (hactive : ActiveIn s.disk id) => listed_of_active hlist hactive
      have hone := h.one
      split at hs
      next selected hlast =>
        obtain rfl := Option.some.inj hs
        have hmem := List.mem_filter.1 (List.mem_of_getLast? hlast)
        have hselected : ActiveIn s.disk selected.id := by
          obtain ⟨entry, hentry, files, hfiles, hloaded⟩ := (mem_listAttempts hlist).1 hmem.1
          obtain ⟨found, hfound, hlookup⟩ := mem_inventory.1 hentry
          obtain rfl := Option.some.inj (hfound.symm.trans hfiles)
          refine ⟨selected.status, ?_, hmem.2⟩
          rw [statusIn, hloaded.ofAttempt, hlookup, Option.getD_some]
          exact status?_of_read hloaded.contract
        cases h
        constructor <;> grind -ring -linarith
      next hnone =>
        obtain rfl := Option.some.inj hs
        have hno : ∀ id, ¬ ActiveIn s.disk id := by
          intro id hactive
          obtain ⟨attempt, hmem, -, hst⟩ := hlisted id hactive
          have hfilter : attempt ∈ attempts.filter (·.status.active) := List.mem_filter.2 ⟨hmem, hst⟩
          rw [List.getLast?_eq_none_iff.1 hnone] at hfilter
          exact nomatch hfilter
        cases h
        constructor <;> grind -ring -linarith

theorem Orderly.reuse (h : Orderly s) (hs : s.reuse runId = some s') : Orderly s' := by
  unfold State.reuse at hs
  split at hs
  next selected hlease =>
    split at hs
    · exact nomatch hs
    · split at hs
      · obtain rfl := Option.some.inj hs
        cases h
        constructor <;> grind -ring -linarith
      next attempt hloaded =>
        have hstatus := status?_of_read (read_of_loaded hloaded)
        rw [State.status?_files] at hstatus
        cases h
        split at hs
        · obtain rfl := Option.some.inj hs
          constructor <;> grind -ring -linarith
        · obtain rfl := Option.some.inj hs
          constructor <;> grind -ring -linarith
  · exact nomatch hs

theorem Orderly.makeDirectory {id : String} (h : Orderly s) (hs : s.makeDirectory id = some s') :
    Orderly s' := by
  unfold State.makeDirectory at hs
  split at hs
  next hlease =>
    split at hs
    · exact nomatch hs
    next hfresh =>
      obtain rfl := Option.some.inj hs
      have hno : noFiles.status? = none := rfl
      have hsection : s.sections id = none := by
        by_contra hsome
        exact hfresh (.inl (h.known id (.inr hsome)))
      cases h
      constructor <;> grind -ring -linarith
  · exact nomatch hs

/-- A write that leaves the status of a known attempt. -/
theorem Orderly.write {id : String} {change : AttemptFiles → AttemptFiles} (h : Orderly s)
    (hknown : id ∈ s.allocated)
    (hchange : (change (s.files id)).status? = statusIn s.disk id) : Orderly (s.write id change) := by
  cases h
  constructor <;> grind -ring -linarith

theorem Orderly.writeAutomation {metadata : AutomationMetadata} (h : Orderly s)
    (hs : s.writeAutomation metadata = some s') : Orderly s' := by
  unfold State.writeAutomation at hs
  split at hs
  next id hlease =>
    split at hs
    · obtain rfl := Option.some.inj hs
      have hwrite : Orderly (s.write id fun f => { f with automation := .document metadata }) :=
        h.write (h.working _ id hlease rfl) rfl
      have hlease' := s.write_lease id fun f => { f with automation := .document metadata }
      cases hwrite
      constructor <;> grind -ring -linarith
    · exact nomatch hs
  · exact nomatch hs

theorem Orderly.writeAttempt {inputs : Inputs} {image : ImageIdentity} {now : Timestamp}
    (h : Orderly s) (hs : s.writeAttempt runId inputs image now = some s') : Orderly s' := by
  unfold State.writeAttempt at hs
  split at hs
  next id hlease =>
    split at hs
    · exact nomatch hs
    next attempt hattempt =>
      have hstatus : attempt.status = .queued := normalizeValidationAttempt_status hattempt
      split at hs
      · exact nomatch hs
      · obtain rfl := Option.some.inj hs
        have hknown := h.working _ id hlease rfl
        obtain ⟨hquiet, hnone, hfree⟩ := h.early _ _ hlease rfl
        cases h
        constructor <;> grind -ring -linarith
  · exact nomatch hs

theorem Orderly.fail (h : Orderly s) (hs : s.fail = some s') : Orderly s' := by
  unfold State.fail at hs
  split at hs
  next id stage hlease =>
    obtain rfl := Option.some.inj hs
    cases h
    cases hearly : stage.early
    · constructor <;> grind -ring -linarith
    · constructor <;> grind -ring -linarith
  · exact nomatch hs

/-- While an admission cleans up, what is about to be written is an end. -/
theorem Orderly.ends_of_late {id : String} {stage : Stage} {sec : Section} {a : Attempt}
    (h : Orderly s) (hlease : s.lease = some (.admitting id stage)) (hstage : stage.early = false)
    (hsection : s.sections id = some sec) (ha : sec.attempt = .ok a) : a.status.active = false := by
  have hunleased : sec.leased = false := by
    by_contra hleased
    obtain ⟨task, htask, hwrites⟩ := h.leased id sec hsection (eq_true_of_ne_false hleased)
    rw [hlease, Option.some.injEq] at htask
    subst htask
    exact nomatch hwrites
  rcases h.pending id sec a hsection ha with ⟨st, hst, hmove⟩ | ⟨-, hended⟩
  · by_contra hactive
    have hstored := (h.late id stage hlease hstage id
      ⟨st, hst, hmove.active (eq_true_of_ne_false hactive)⟩).2
    exact hactive (h.unleased id sec a hsection ha hunleased hstored)
  · exact hended

theorem Orderly.removeFile {name : FileName} (h : Orderly s) (hs : s.removeFile name = some s') :
    Orderly s' := by
  unfold State.removeFile at hs
  split at hs
  next id hlease =>
    obtain rfl := Option.some.inj hs
    have hfiles := State.status?_files s id
    have hremoved : ((s.files id).remove name).status? = statusIn s.disk id ∨
        ((s.files id).remove name).status? = none := by
      cases name with
      | attempt => exact .inr rfl
      | automation | prepared | result => exact .inl rfl
    have hknown := h.working _ id hlease rfl
    have hends := fun sec a => @Orderly.ends_of_late s id .removing sec a h hlease rfl
    cases h
    constructor <;> grind -ring -linarith
  · exact nomatch hs

theorem Orderly.removeDirectory (h : Orderly s) (hs : s.removeDirectory = some s') :
    Orderly s' := by
  unfold State.removeDirectory at hs
  split at hs
  next id hlease =>
    split at hs
    next hfiles =>
      obtain rfl := Option.some.inj hs
      have hstatus := State.status?_files s id
      rw [hfiles] at hstatus
      have hends := fun sec a => @Orderly.ends_of_late s id .removing sec a h hlease rfl
      have hknown := h.working _ id hlease rfl
      cases h
      constructor <;> grind -ring -linarith
    · exact nomatch hs
  · exact nomatch hs

/-- The lease can be given back when no section needs it. -/
theorem Orderly.release (h : Orderly s)
    (hfree : ∀ id sec, s.sections id = some sec → sec.leased = false) :
    Orderly { s with lease := none } := by
  cases h
  constructor <;> grind -ring -linarith

/-- A task that runs no sections has none. -/
theorem Orderly.unleased_of_idle {task : Task} (h : Orderly s) (hlease : s.lease = some task)
    (hidle : task.writes = none) {id : String} {sec : Section} (hsection : s.sections id = some sec) :
    sec.leased = false := by
  by_contra hleased
  obtain ⟨other, hother, hwrites⟩ := h.leased id sec hsection (eq_true_of_ne_false hleased)
  obtain rfl := Option.some.inj (hlease.symm.trans hother)
  simp [hidle] at hwrites

theorem Orderly.leave (h : Orderly s) (hs : s.leave = some s') : Orderly s' := by
  unfold State.leave at hs
  split at hs
  next id attempt started hlease =>
    split at hs
    · exact nomatch hs
    next hown =>
      obtain rfl := Option.some.inj hs
      apply h.release
      intro other sec hsection
      by_contra hleased
      obtain ⟨task, htask, hwrites⟩ := h.leased other sec hsection (eq_true_of_ne_false hleased)
      obtain rfl := Option.some.inj (hlease.symm.trans htask)
      obtain rfl := Option.some.inj hwrites
      simp [hsection, hleased] at hown
  next hlease =>
    obtain rfl := Option.some.inj hs
    exact h.release fun _ _ => h.unleased_of_idle hlease rfl
  next hlease =>
    obtain rfl := Option.some.inj hs
    exact h.release fun _ _ => h.unleased_of_idle hlease rfl
  next hlease =>
    obtain rfl := Option.some.inj hs
    exact h.release fun _ _ => h.unleased_of_idle hlease rfl
  all_goals exact nomatch hs

/-! ## Sections -/

theorem Ends.statusIn {id : String} {attempt : Attempt} (h : Ends (s.files id) attempt) :
    ∃ st, Validation.statusIn s.disk id = some st ∧ st.Advance attempt.status ∧
      (st = .queued → attempt.status.active = false) := h

theorem Orderly.claim {id : String} {now : Timestamp} (h : Orderly s)
    (hserving : s.phase = .serving) (hs : s.claim runId id now = some s') : Orderly s' := by
  unfold State.claim at hs
  split at hs
  · exact nomatch hs
  next hfree =>
    split at hs
    · exact nomatch hs
    next attempt hclaim =>
      obtain rfl := Option.some.inj hs
      obtain ⟨hqueued, hrunning⟩ := claimAttempt_status hclaim
      rw [State.status?_files] at hqueued
      have hmove : Status.queued.Advance .running := .inr .claimed
      cases h
      constructor <;> grind -ring -linarith

theorem Orderly.resolve {image : ImageIdentity} (h : Orderly s) (hserving : s.phase = .serving)
    (hs : s.resolve image = some s') : Orderly s' := by
  unfold State.resolve at hs
  split at hs
  next id attempt hlease =>
    split at hs
    · exact nomatch hs
    · split at hs
      · exact nomatch hs
      next latest hlatest =>
        obtain rfl := Option.some.inj hs
        obtain ⟨hrunning, hstays⟩ := resolveImage_status hlatest
        rw [State.status?_files] at hrunning
        have hmove : Status.running.Advance .running := .inl rfl
        cases h
        constructor <;> grind -ring -linarith
  · exact nomatch hs

theorem Orderly.observe {now : Timestamp} (h : Orderly s) (hs : s.observe now = some s') : Orderly s' := by
  unfold State.observe at hs
  split at hs
  next id attempt hlease =>
    split at hs
    · exact nomatch hs
    · obtain rfl := Option.some.inj hs
      cases h
      constructor <;> grind -ring -linarith
  · exact nomatch hs

theorem Orderly.writePrepared {native : String} {now : Timestamp} {fits : Bool} (h : Orderly s)
    (hs : s.writePrepared native now fits = some s') : Orderly s' := by
  unfold State.writePrepared at hs
  split at hs
  next id attempt started hlease =>
    split at hs
    · exact nomatch hs
    · obtain rfl := Option.some.inj hs
      exact h.write (h.working _ _ hlease rfl) rfl
  · exact nomatch hs

theorem Orderly.openSection {id : String} {read : Except Fault (Option Attempt)} (h : Orderly s)
    (hserving : s.phase = .serving)
    (hends : ∀ attempt, read = .ok (some attempt) → Ends (s.files id) attempt)
    (hs : s.openSection id read = some s') : Orderly s' := by
  unfold State.openSection at hs
  split at hs
  next attempt =>
    split at hs
    · exact nomatch hs
    · obtain rfl := Option.some.inj hs
      obtain ⟨st, hst, hmove, hqueued⟩ := (hends attempt rfl).statusIn
      cases h
      constructor <;> grind -ring -linarith
  all_goals exact nomatch hs

theorem Orderly.settle {id : String} {completion : Completion} (h : Orderly s)
    (hserving : s.phase = .serving)
    (hends : ∀ attempt, completion.attempt = .ok attempt → Ends (s.files id) attempt)
    (hknown : id ∈ s.disk) (hs : s.settle id completion = some s') : Orderly s' := by
  unfold State.settle at hs
  split at hs
  · exact nomatch hs
  · obtain rfl := Option.some.inj hs
    have hends' := fun attempt hok => (hends attempt hok).statusIn
    cases h
    constructor <;> grind -ring -linarith

theorem Orderly.writeResult {id : String} {fits : Bool} (h : Orderly s)
    (hs : s.writeResult id fits = some s') : Orderly s' := by
  unfold State.writeResult at hs
  split at hs
  next result attempt leased hsection =>
    obtain rfl := Option.some.inj hs
    have hfiles := State.status?_files s id
    cases h
    constructor <;> grind -ring -linarith
  · exact nomatch hs

theorem State.leaseAfter_cases (s : State) (id : String) (leased : Bool) :
    s.leaseAfter id leased = s.lease ∨
      s.leaseAfter id leased = none ∧ s.lease = some (.settling id) := by
  unfold State.leaseAfter
  split
  next other hsettling =>
    split
    next hdone => exact .inr ⟨rfl, hdone.2 ▸ hsettling⟩
    · exact .inl hsettling.symm
  · exact .inl rfl

theorem Orderly.commit {id : String} (h : Orderly s) (hs : s.commit id = some s') : Orderly s' := by
  unfold State.commit at hs
  split at hs
  next attempt leased hsection =>
    obtain rfl := Option.some.inj hs
    have hactive : attempt.status.active = true → ∃ st, statusIn s.disk id = some st ∧
        st.active = true := by
      intro ha
      rcases h.pending id _ attempt hsection rfl with ⟨st, hst, hmove⟩ | ⟨-, hended⟩
      · exact ⟨st, hst, hmove.active ha⟩
      · simp [hended] at ha
    have hlease := s.leaseAfter_cases id leased
    have hlate : ∀ other stage, s.lease = some (.admitting other stage) → stage.early = false →
        attempt.status.active = false := by
      intro other stage hadmitting hstage
      by_contra hnot
      obtain ⟨st, hst, hmoved⟩ := hactive (eq_true_of_ne_false hnot)
      obtain ⟨rfl, -⟩ := h.late other stage hadmitting hstage id ⟨st, hst, hmoved⟩
      exact hnot (h.ends_of_late hadmitting hstage hsection rfl)
    have hknown := h.known id (.inr (by simp [hsection]))
    cases h
    constructor <;> grind -ring -linarith
  · exact nomatch hs

theorem Orderly.abandon {id : String} (h : Orderly s) (hs : s.abandon id = some s') :
    Orderly s' := by
  unfold State.abandon at hs
  split at hs
  next result attempt leased hsection =>
    obtain rfl := Option.some.inj hs
    cases leased
    · cases h
      constructor <;> grind -ring -linarith
    · obtain ⟨task, htask, hwrites⟩ := h.leased id _ hsection rfl
      cases h
      constructor <;> grind -ring -linarith
  · exact nomatch hs

theorem Orderly.upgrade {id : String} {metadata : AutomationMetadata} (h : Orderly s)
    (hs : s.upgrade id metadata = some s') : Orderly s' := by
  unfold State.upgrade at hs
  split at hs
  next current hcurrent =>
    split at hs
    · obtain rfl := Option.some.inj hs
      apply h.write _ rfl
      apply h.known id
      by_contra hnot
      rw [not_or, ← AList.lookup_eq_none] at hnot
      simp [State.files, hnot.1, noFiles] at hcurrent
    · exact nomatch hs
  · exact nomatch hs

theorem Orderly.containers {containers : List String} (h : Orderly s) :
    Orderly { s with containers } := by
  cases h
  constructor <;> grind -ring -linarith

theorem mem_disk_of_read {id : String} {attempt : Attempt}
    (h : readAttempt (s.files id) = .ok attempt) : id ∈ s.disk :=
  mem_of_statusIn (status?_of_read h)

/-! ## Steps and runs -/

theorem Orderly.operate {operation : Operation} (h : Orderly s) (hserving : s.phase = .serving)
    (hs : s.operate runId operation = some s') : Orderly s' := by
  cases operation with
  | admitAttempt => exact h.admitAttempt hserving hs
  | reuse => exact h.reuse hs
  | makeDirectory id => exact h.makeDirectory hs
  | writeAutomation metadata => exact h.writeAutomation hs
  | writeAttempt inputs image now => exact h.writeAttempt hs
  | fail => exact h.fail hs
  | removeFile name => exact h.removeFile hs
  | removeDirectory => exact h.removeDirectory hs
  | leave => exact h.leave hs
  | claim id now => exact h.claim hserving hs
  | resolve image => exact h.resolve hserving hs
  | observe now => exact h.observe hs
  | writePrepared native now fits => exact h.writePrepared hs
  | failPreparation id interruption cleanup now =>
      simp only [State.operate] at hs
      split at hs
      · exact nomatch hs
      · exact h.openSection hserving (fun _ => failPreparation_ends) hs
  | complete id validation now =>
      simp only [State.operate, State.complete] at hs
      split at hs
      · exact nomatch hs
      next completion hcompletion =>
        refine h.settle hserving (fun _ => completeLifecycleAttempt_ends hcompletion) ?_ hs
        obtain ⟨attempt, hread, -⟩ := bind_eq_ok.1 hcompletion
        exact mem_disk_of_read hread
  | failIfActive id code now =>
      simp only [State.operate, State.failIfActive] at hs
      split at hs
      next attempt hfail =>
        refine h.settle hserving ?_ ?_ hs
        · intro other hother
          obtain rfl := Except.ok.inj hother
          exact failIfActive_ends hfail
        · obtain ⟨latest, hloaded, -⟩ := bind_eq_ok.1 hfail
          exact mem_disk_of_read (read_of_loaded hloaded)
      all_goals exact nomatch hs
  | cancel id code message now =>
      exact h.openSection hserving (fun _ => cancelDurable_ends) hs
  | writeResult id fits => exact h.writeResult hs
  | commit id => exact h.commit hs
  | abandon id => exact h.abandon hs
  | upgrade id metadata => exact h.upgrade hs
  | createContainer id =>
      simp only [State.operate, State.createContainer] at hs
      split at hs
      · split at hs
        · obtain rfl := Option.some.inj hs
          exact h.containers
        · exact nomatch hs
      · exact nomatch hs
  | removeContainer id =>
      obtain rfl := Option.some.inj hs
      exact h.containers

theorem Orderly.recover {id : String} {absent persisted : Bool} {now : Timestamp} (h : Orderly s)
    (hphase : s.phase ≠ .serving) :
    Orderly (s.recover runId id absent persisted now) := by
  unfold State.recover
  split
  next attempt hrecover =>
    split
    · obtain ⟨st, hst, hmove, -⟩ := (recoverAttempt_ends hrecover).statusIn
      have hactive := hmove.active
      have hknown := h.known id (.inl (mem_of_statusIn hst))
      obtain ⟨hlease, hfree⟩ := h.alone hphase
      cases h
      constructor <;> grind -ring -linarith
    · exact h
  all_goals exact h

theorem recover_frame (runId : String) (s : State) (id : String) (absent persisted : Bool)
    (now : Timestamp) :
    (s.recover runId id absent persisted now).phase = s.phase ∧
      (s.recover runId id absent persisted now).lease = s.lease ∧
      (s.recover runId id absent persisted now).sections = s.sections := by
  unfold State.recover
  split
  · split <;> exact ⟨rfl, rfl, rfl⟩
  all_goals exact ⟨rfl, rfl, rfl⟩

theorem Orderly.step {action : Action} (h : Orderly s) (hs : s.step runId action = some s') :
    Orderly s' := by
  cases action with
  | stop =>
      obtain rfl := Option.some.inj hs
      cases h
      constructor <;> grind -ring -linarith
  | recover id absent persisted now =>
      simp only [State.step] at hs
      split at hs
      next left hphase =>
        split at hs
        · obtain rfl := Option.some.inj hs
          have hrecover : Orderly (s.recover runId id absent persisted now) :=
            h.recover (by simp [hphase])
          obtain ⟨hphase', hlease, hsections⟩ := recover_frame runId s id absent persisted now
          have halone := hrecover.alone (by simp [hphase', hphase])
          cases hrecover
          constructor <;> grind -ring -linarith
        · exact nomatch hs
      · exact nomatch hs
  | serve =>
      simp only [State.step] at hs
      split at hs
      · obtain rfl := Option.some.inj hs
        cases h
        constructor <;> grind -ring -linarith
      · exact nomatch hs
  | operate operation =>
      simp only [State.step] at hs
      split at hs
      next hserving => exact h.operate hserving hs
      · exact nomatch hs

theorem orderly_of_reach {ok : State → Action → Prop} (h : (attemptLife runId).Reach ok s) :
    Orderly s :=
  h.inv Orderly.empty fun _ _ _ hs _ hstep => hs.step hstep

/-! ## What a step does to the statuses -/

/-- What is stored and what is about to be written after a step, by what was there before. -/
structure Frame (s s' : State) : Prop where
  stored : ∀ id st', statusIn s'.disk id = some st' →
    (∃ st, statusIn s.disk id = some st ∧ st.Advance st') ∨
    s.lease = some (.admitting id .automation) ∧ st' = .queued ∨
    ∃ sec a, s.sections id = some sec ∧ sec.attempt = .ok a ∧ a.status = st'
  pending : ∀ id sec a, s'.sections id = some sec → sec.attempt = .ok a →
    (∃ st, statusIn s.disk id = some st ∧ st.Advance a.status) ∨
    ∃ sec', s.sections id = some sec' ∧ sec'.attempt = .ok a
  allocated : ∀ id, id ∈ s.allocated → id ∈ s'.allocated
  early : ∀ id stage, s'.lease = some (.admitting id stage) → stage.early = true →
    id ∉ s.allocated ∨ ∃ stage', s.lease = some (.admitting id stage') ∧ stage'.early = true

@[grind .] theorem Status.Advance.refl (st : Status) : st.Advance st := .inl rfl

/-- A step that gives the lease to another task, or to none. -/
theorem Frame.of_lease {lease : Option Task}
    (h : ∀ id stage, lease = some (.admitting id stage) → stage.early = true →
      s.lease = some (.admitting id stage)) : Frame s { s with lease } := by
  constructor <;> grind -ring -linarith

/-- A write that leaves the status, or removes it. -/
theorem Frame.of_write {id : String} {change : AttemptFiles → AttemptFiles}
    (h : (change (s.files id)).status? = statusIn s.disk id ∨
      (change (s.files id)).status? = none) : Frame s (s.write id change) := by
  constructor <;> grind -ring -linarith

/-- A step that opens a section. -/
theorem Frame.of_lock {id : String} {sec : Section} {lease : Option Task}
    (h : ∀ a, sec.attempt = .ok a → ∃ st, statusIn s.disk id = some st ∧ st.Advance a.status)
    (hlease : ∀ id stage, lease ≠ some (.admitting id stage)) :
    Frame s { s.lock id sec with lease } := by
  constructor <;> grind -ring -linarith

theorem Frame.of_openSection {id : String} {read : Except Fault (Option Attempt)}
    (hends : ∀ attempt, read = .ok (some attempt) → Ends (s.files id) attempt)
    (hs : s.openSection id read = some s') : Frame s s' := by
  unfold State.openSection at hs
  split at hs
  next attempt =>
    split at hs
    · exact nomatch hs
    · obtain rfl := Option.some.inj hs
      obtain ⟨st, hst, hmove, -⟩ := (hends attempt rfl).statusIn
      constructor <;> grind -ring -linarith
  all_goals exact nomatch hs

theorem Frame.of_settle {id : String} {completion : Completion}
    (hends : ∀ attempt, completion.attempt = .ok attempt → Ends (s.files id) attempt)
    (hs : s.settle id completion = some s') : Frame s s' := by
  unfold State.settle at hs
  split at hs
  · exact nomatch hs
  · obtain rfl := Option.some.inj hs
    apply Frame.of_lock
    · intro a ha
      obtain ⟨st, hst, hmove, -⟩ := (hends a ha).statusIn
      exact ⟨st, hst, hmove⟩
    · exact fun _ _ => nofun

theorem frame_operate {operation : Operation} (hs : s.operate runId operation = some s') :
    Frame s s' := by
  cases operation with
  | admitAttempt =>
      simp only [State.operate, State.admitAttempt] at hs
      split at hs
      · exact nomatch hs
      · split at hs
        · exact nomatch hs
        · split at hs
          all_goals
            obtain rfl := Option.some.inj hs
            exact .of_lease fun _ _ => nofun
  | reuse =>
      simp only [State.operate, State.reuse] at hs
      split at hs
      · split at hs
        · exact nomatch hs
        · split at hs
          · obtain rfl := Option.some.inj hs
            exact .of_lease fun _ _ => nofun
          · split at hs
            all_goals
              obtain rfl := Option.some.inj hs
              exact .of_lease fun _ _ => nofun
      · exact nomatch hs
  | makeDirectory id =>
      simp only [State.operate, State.makeDirectory] at hs
      split at hs
      · split at hs
        · exact nomatch hs
        next hfresh =>
          obtain rfl := Option.some.inj hs
          have hno : noFiles.status? = none := rfl
          constructor <;> grind -ring -linarith
      · exact nomatch hs
  | writeAutomation metadata =>
      simp only [State.operate, State.writeAutomation] at hs
      split at hs
      next id hlease =>
        split at hs
        · obtain rfl := Option.some.inj hs
          have hfiles := State.status?_files s id
          constructor <;> grind -ring -linarith
        · exact nomatch hs
      · exact nomatch hs
  | writeAttempt inputs image now =>
      simp only [State.operate, State.writeAttempt] at hs
      split at hs
      next id hlease =>
        split at hs
        · exact nomatch hs
        next attempt hattempt =>
          have hstatus : attempt.status = .queued := normalizeValidationAttempt_status hattempt
          split at hs
          · exact nomatch hs
          · obtain rfl := Option.some.inj hs
            constructor <;> grind -ring -linarith
      · exact nomatch hs
  | fail =>
      simp only [State.operate, State.fail] at hs
      split at hs
      · obtain rfl := Option.some.inj hs
        constructor <;> grind -ring -linarith
      · exact nomatch hs
  | removeFile name =>
      simp only [State.operate, State.removeFile] at hs
      split at hs
      next id hlease =>
        obtain rfl := Option.some.inj hs
        apply Frame.of_write
        cases name with
        | attempt => exact .inr rfl
        | automation | prepared | result => exact .inl rfl
      · exact nomatch hs
  | removeDirectory =>
      simp only [State.operate, State.removeDirectory] at hs
      split at hs
      · split at hs
        · obtain rfl := Option.some.inj hs
          constructor <;> grind -ring -linarith
        · exact nomatch hs
      · exact nomatch hs
  | leave =>
      simp only [State.operate, State.leave] at hs
      split at hs
      · split at hs
        · exact nomatch hs
        · obtain rfl := Option.some.inj hs
          exact .of_lease fun _ _ => nofun
      iterate 3
        · obtain rfl := Option.some.inj hs
          exact .of_lease fun _ _ => nofun
      all_goals exact nomatch hs
  | claim id now =>
      simp only [State.operate, State.claim] at hs
      split at hs
      · exact nomatch hs
      · split at hs
        · exact nomatch hs
        next attempt hclaim =>
          obtain rfl := Option.some.inj hs
          obtain ⟨hqueued, hrunning⟩ := claimAttempt_status hclaim
          apply Frame.of_lock
          · intro a ha
            obtain rfl := Except.ok.inj ha
            exact ⟨_, hqueued, .inr (hrunning ▸ .claimed)⟩
          · exact fun _ _ => nofun
  | resolve image =>
      simp only [State.operate, State.resolve] at hs
      split at hs
      · split at hs
        · exact nomatch hs
        · split at hs
          · exact nomatch hs
          next latest hlatest =>
            obtain rfl := Option.some.inj hs
            obtain ⟨hrunning, hstays⟩ := resolveImage_status hlatest
            apply Frame.of_lock
            · intro a ha
              obtain rfl := Except.ok.inj ha
              exact ⟨_, hrunning, .inl hstays.symm⟩
            · exact fun _ _ => nofun
      · exact nomatch hs
  | observe now =>
      simp only [State.operate, State.observe] at hs
      split at hs
      · split at hs
        · exact nomatch hs
        · obtain rfl := Option.some.inj hs
          exact .of_lease fun _ _ => nofun
      · exact nomatch hs
  | writePrepared native now fits =>
      simp only [State.operate, State.writePrepared] at hs
      split at hs
      · split at hs
        · exact nomatch hs
        · obtain rfl := Option.some.inj hs
          exact .of_write (.inl rfl)
      · exact nomatch hs
  | failPreparation id interruption cleanup now =>
      simp only [State.operate] at hs
      split at hs
      · exact nomatch hs
      · exact .of_openSection (fun _ => failPreparation_ends) hs
  | complete id validation now =>
      simp only [State.operate, State.complete] at hs
      split at hs
      · exact nomatch hs
      next completion hcompletion =>
        exact .of_settle (fun _ => completeLifecycleAttempt_ends hcompletion) hs
  | failIfActive id code now =>
      simp only [State.operate, State.failIfActive] at hs
      split at hs
      next attempt hfail =>
        refine .of_settle ?_ hs
        intro other hother
        obtain rfl := Except.ok.inj hother
        exact failIfActive_ends hfail
      all_goals exact nomatch hs
  | cancel id code message now => exact .of_openSection (fun _ => cancelDurable_ends) hs
  | writeResult id fits =>
      simp only [State.operate, State.writeResult] at hs
      split at hs
      next result attempt leased hsection =>
        obtain rfl := Option.some.inj hs
        have hfiles := State.status?_files s id
        constructor <;> grind -ring -linarith
      · exact nomatch hs
  | commit id =>
      simp only [State.operate, State.commit] at hs
      split at hs
      next attempt leased hsection =>
        obtain rfl := Option.some.inj hs
        have hlease := s.leaseAfter_cases id leased
        constructor <;> grind -ring -linarith
      · exact nomatch hs
  | abandon id =>
      simp only [State.operate, State.abandon] at hs
      split at hs
      next result attempt leased hsection =>
        obtain rfl := Option.some.inj hs
        constructor <;> grind -ring -linarith
      · exact nomatch hs
  | upgrade id metadata =>
      simp only [State.operate, State.upgrade] at hs
      split at hs
      · split at hs
        · obtain rfl := Option.some.inj hs
          exact .of_write (.inl rfl)
        · exact nomatch hs
      · exact nomatch hs
  | createContainer id =>
      simp only [State.operate, State.createContainer] at hs
      split at hs
      · split at hs
        · obtain rfl := Option.some.inj hs
          constructor <;> grind -ring -linarith
        · exact nomatch hs
      · exact nomatch hs
  | removeContainer id =>
      obtain rfl := Option.some.inj hs
      constructor <;> grind -ring -linarith

theorem frame_step {action : Action} (hs : s.step runId action = some s') : Frame s s' := by
  cases action with
  | stop =>
      obtain rfl := Option.some.inj hs
      constructor <;> grind -ring -linarith
  | recover id absent persisted now =>
      simp only [State.step] at hs
      split at hs
      · split at hs
        · obtain rfl := Option.some.inj hs
          unfold State.recover
          split
          next attempt hrecover =>
            obtain ⟨st, hst, hmove, -⟩ := (recoverAttempt_ends hrecover).statusIn
            split
            · constructor <;> grind -ring -linarith
            · constructor <;> grind -ring -linarith
          all_goals constructor <;> grind -ring -linarith
        · exact nomatch hs
      · exact nomatch hs
  | serve =>
      simp only [State.step] at hs
      split at hs
      · obtain rfl := Option.some.inj hs
        constructor <;> grind -ring -linarith
      · exact nomatch hs
  | operate operation =>
      simp only [State.step] at hs
      split at hs
      · exact frame_operate hs
      · exact nomatch hs

/-- One step advances the status of an attempt that had one before and has one after. -/
theorem Orderly.advance {action : Action} {id : String} {st st' : Status} (h : Orderly s)
    (hs : s.step runId action = some s') (hst : s.status? id = some st)
    (hst' : s'.status? id = some st') : st.Advance st' := by
  rcases (frame_step hs).stored id st' hst' with ⟨old, hold, hmove⟩ | ⟨hlease, -⟩ |
    ⟨sec, a, hsection, ha, rfl⟩
  · obtain rfl := Option.some.inj (hst.symm.trans hold)
    exact hmove
  · have hnone := (h.early id .automation hlease rfl).2.1
    exact absurd (hst.symm.trans hnone) nofun
  · rcases h.pending id sec a hsection ha with ⟨old, hold, hmove⟩ | ⟨hnone, -⟩
    · obtain rfl := Option.some.inj (hst.symm.trans hold)
      exact hmove
    · exact absurd (hst.symm.trans hnone) nofun

/-! ## What has been stored before -/

/-- The attempt has had this status. -/
structure After (id : String) (st : Status) (s : State) : Prop where
  stored : ∀ st', s.status? id = some st' → st.Leads st'
  pending : ∀ sec a, s.sections id = some sec → sec.attempt = .ok a → st.Leads a.status
  allocated : id ∈ s.allocated
  late : ∀ stage, s.lease = some (.admitting id stage) → stage.early = false

theorem After.start {id : String} {st : Status} (h : Orderly s) (hst : s.status? id = some st) :
    After id st s where
  stored st' hst' := by
    obtain rfl := Option.some.inj (hst.symm.trans hst')
    exact .refl
  pending sec a hsection ha := by
    rcases h.pending id sec a hsection ha with ⟨st', hst', hmove⟩ | ⟨hnone, -⟩
    · obtain rfl := Option.some.inj (hst.symm.trans hst')
      exact hmove.leads
    · exact absurd (hst.symm.trans hnone) nofun
  allocated := h.known id (.inl (mem_of_statusIn hst))
  late stage hlease := by
    by_contra hearly
    have hnone := (h.early id stage hlease (eq_true_of_ne_false hearly)).2.1
    exact absurd (hst.symm.trans hnone) nofun

theorem After.frame {id : String} {st : Status} (h : After id st s) (hframe : Frame s s') :
    After id st s' where
  stored st' hst' := by
    rcases hframe.stored id st' hst' with ⟨old, hold, hmove⟩ | ⟨hlease, -⟩ |
      ⟨sec, a, hsection, ha, rfl⟩
    · exact (h.stored old hold).trans hmove.leads
    · exact absurd (h.late _ hlease) nofun
    · exact h.pending sec a hsection ha
  pending sec a hsection ha := by
    rcases hframe.pending id sec a hsection ha with ⟨old, hold, hmove⟩ | ⟨sec', hsection', ha'⟩
    · exact (h.stored old hold).trans hmove.leads
    · exact h.pending sec' a hsection' ha'
  allocated := hframe.allocated id h.allocated
  late stage hlease := by
    by_contra hearly
    rcases hframe.early id stage hlease (eq_true_of_ne_false hearly) with hfresh | ⟨_, hlease', hst⟩
    · exact hfresh h.allocated
    · simp [h.late _ hlease'] at hst

/-! ## Every run -/

/-- The machine, from a state that a run has reached. -/
def attemptLifeFrom (runId : String) (s : State) : Machine State Action := ⟨s, State.step runId⟩

theorem After.reach {ok : State → Action → Prop} {id : String} {st : Status} (h : After id st s)
    (hreach : (attemptLifeFrom runId s).Reach ok s') : After id st s' :=
  hreach.inv h fun _ _ _ hafter _ hstep => hafter.frame (frame_step hstep)

/-- Whatever interleaving of admissions, workers, cancellations, stops, recoveries and failed
writes has led to `s`, and leads on to `s'`: a stored status has moved along the state machine
between the two, and has stayed if it was an end; each step is one move at most; and one
attempt at most is active. -/
theorem attempt_statuses_move {runId : String} {s s' : State}
    (hreach : (attemptLife runId).Reach (fun _ _ => True) s)
    (hlater : (attemptLifeFrom runId s).Reach (fun _ _ => True) s') :
    (∀ id st st', s.status? id = some st → s'.status? id = some st' →
      st.Leads st' ∧ (st.active = false → st' = st)) ∧
    (∀ action next id st st', s.step runId action = some next → s.status? id = some st →
      next.status? id = some st' → st.Advance st') ∧
    ∀ id other, s.Active id → s.Active other → id = other := by
  have horderly := orderly_of_reach hreach
  refine ⟨?_, ?_, ?_⟩
  · intro id st st' hst hst'
    have hleads := (After.start horderly hst |>.reach hlater).stored st' hst'
    exact ⟨hleads, hleads.eq_of_ended⟩
  · intro action next id st st' hstep
    exact horderly.advance hstep
  · intro id other
    exact horderly.one id other

/-- An admission, from the start of the application. -/
def sampleAdmission : List Action :=
  [.serve, .operate .admitAttempt, .operate (.makeDirectory "v1"),
    .operate (.writeAutomation ⟨false, false, .notRequested, none⟩),
    .operate (.writeAttempt ⟨"debian", sampleArtifact, none⟩ ⟨"image", none, none⟩ (sampleAt 0)),
    .operate .leave]

/-- The claim of the admitted attempt, a stop, and the recovery of the next start. -/
def sampleRecovery : List Action :=
  [.operate (.claim "v1" (sampleAt 1)), .operate (.commit "v1"), .stop,
    .recover "v1" true true (sampleAt 2)]

/-- The attempt is queued, and then interrupted. -/
theorem attempt_statuses_move_sample :
    ∃ s s' : State, (attemptLife "r1").Reach (fun _ _ => True) s ∧ s.status? "v1" = some .queued ∧
      s'.status? "v1" = some .failed ∧ Status.queued.Leads .failed ∧ ¬ s'.Active "v1" := by
  have hruns : (((attemptLife "r1").run (fun _ _ => true) .empty sampleAdmission).bind fun s =>
      ((attemptLifeFrom "r1" s).run (fun _ _ => true) s sampleRecovery).bind fun s' =>
        if s.status? "v1" = some .queued ∧ s'.status? "v1" = some .failed then some () else none)
      = some () := by decide +kernel
  simp only [Option.bind_eq_some_iff] at hruns
  obtain ⟨s, hs, s', hs', hstatuses⟩ := hruns
  split at hstatuses
  next hstatus =>
    have hreach : (attemptLife "r1").Reach (fun _ _ => True) s :=
      Machine.Reach.run (fun _ _ _ => trivial) .start hs
    have hmoves := (attempt_statuses_move hreach
      (Machine.Reach.run (fun _ _ _ => trivial) .start hs')).1 "v1" _ _ hstatus.1 hstatus.2
    refine ⟨s, s', hreach, hstatus.1, hstatus.2, hmoves.1, ?_⟩
    rintro ⟨st, hst, hactive⟩
    obtain rfl := Option.some.inj (hst.symm.trans hstatus.2)
    exact nomatch hactive
  · exact nomatch hstatuses

end DebBuilder.Validation
