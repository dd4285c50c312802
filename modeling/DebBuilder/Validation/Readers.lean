import Mathlib
import DebBuilder.Validation.Recovery

/-!
# Readers without a lock

`load_attempt` reads the four files of an attempt one after the other, while its writers go
on.  A reader that takes no lock gets the attempt as it was when `attempt.json` was read,
unless its reads fall on the writes in one of a few ways; the strict loader then raises, and
the orchestrator takes that for a broken state.

## Main definitions

* `Grows` — what a step does to the documents of an attempt.
* `Reading`, `Reading.Clear` — the moments of a reader, and the condition on them.

## Main results

* `loadAttempt_reading` — a reading is the attempt of its first moment exactly when it is
  clear.
-/

namespace DebBuilder.Validation
open Lib

variable {runId : String} {s s' : State}

/-! ## What a step does to the documents -/

/-- What is stored and what is about to be written after a step has grown out of what was
there before. -/
structure Grows (s s' : State) : Prop where
  stored : ∀ id b', ¬ Opening s'.lease id → (filesIn s'.disk id).attempt = .document b' →
    s.lease = some (.admitting id .automation) ∨ ¬ Opening s.lease id ∧
      ((∃ b, (filesIn s.disk id).attempt = .document b ∧ Evolves b b') ∨
        ∃ sec, s.sections id = some sec ∧ sec.attempt = .ok b')
  pending : ∀ id sec b', ¬ Opening s'.lease id → s'.sections id = some sec →
    sec.attempt = .ok b' → ¬ Opening s.lease id ∧
      ((∃ b, (filesIn s.disk id).attempt = .document b ∧ Evolves b b') ∨
        ∃ sec', s.sections id = some sec' ∧ sec'.attempt = .ok b')
  prepared : ∀ id, ¬ Opening s'.lease id → id ∈ s'.disk →
    s.lease = some (.admitting id .automation) ∨ ¬ Opening s.lease id ∧ id ∈ s.disk ∧
      ((filesIn s'.disk id).prepared = (filesIn s.disk id).prepared ∨
        ∃ b, (filesIn s.disk id).attempt = .document b ∧ b.finishedAt = none)

attribute [grind .] Evolves.refl

/-- The lease goes from a task that makes and removes no directory to another one. -/
theorem Grows.of_lease {lease : Option Task} (hold : ∀ id, ¬ Opening s.lease id) :
    Grows s { s with lease } := by
  constructor <;> grind -ring -linarith

theorem Grows.of_openSection {id : String} {read : Except Fault (Option Attempt)}
    (h : Sound runId s) (hends : ∀ b, read = .ok (some b) → Ends (s.files id) b)
    (hwrites : ∀ a b, Loaded runId id (s.files id) a → read = .ok (some b) → Evolves a b)
    (hs : s.openSection id read = some s') : Grows s s' := by
  unfold State.openSection at hs
  split at hs
  next b =>
    split at hs
    · exact nomatch hs
    next hfree =>
      rw [Option.not_isSome_iff_eq_none] at hfree
      obtain rfl := Option.some.inj hs
      obtain ⟨st, hst, -, -⟩ := (hends b rfl).statusIn
      have hmem := mem_of_statusIn hst
      have hevolves : ¬ Opening s.lease id →
          ∃ a, (filesIn s.disk id).attempt = .document a ∧ Evolves a b := by
        intro hopen
        obtain ⟨a, hdocument, hloaded, -⟩ := h.loaded hmem hopen hfree
        exact ⟨a, hdocument, hwrites a b hloaded rfl⟩
      constructor <;> grind -ring -linarith
  all_goals exact nomatch hs

theorem Grows.of_settle {id : String} {completion : Completion} (h : Sound runId s)
    (hmem : id ∈ s.disk)
    (hwrites : ∀ a b, Loaded runId id (s.files id) a → a.selectedProfile.image.Exact →
      completion.attempt = .ok b → Evolves a b)
    (hs : s.settle id completion = some s') : Grows s s' := by
  unfold State.settle at hs
  split at hs
  · exact nomatch hs
  next hfree =>
    rw [not_or, Option.not_isSome_iff_eq_none, Option.not_isSome_iff_eq_none] at hfree
    obtain rfl := Option.some.inj hs
    obtain ⟨a, hdocument, hloaded, hexact⟩ := h.loaded hmem (by grind -ring -linarith) hfree.2
    have hevolves := fun b => hwrites a b hloaded hexact
    constructor <;> grind -ring -linarith

theorem grows_operate {operation : Operation} (horderly : Orderly s) (h : Sound runId s)
    (hforward : Forward s operation) (hclosing : Closing s operation)
    (hs : s.operate runId operation = some s') : Grows s s' := by
  cases operation with
  | admitAttempt =>
      simp only [State.operate, State.admitAttempt] at hs
      split at hs
      · cases hs
      · split at hs
        · cases hs
        · split at hs
          all_goals
            obtain rfl := Option.some.inj hs
            apply Grows.of_lease
            grind -ring -linarith
  | reuse =>
      simp only [State.operate, State.reuse] at hs
      split at hs
      · split at hs
        · cases hs
        · split at hs
          · obtain rfl := Option.some.inj hs
            apply Grows.of_lease
            grind -ring -linarith
          · split at hs
            all_goals
              obtain rfl := Option.some.inj hs
              apply Grows.of_lease
              grind -ring -linarith
      · cases hs
  | makeDirectory id =>
      simp only [State.operate, State.makeDirectory] at hs
      split at hs
      · split at hs
        · cases hs
        next hfresh =>
          obtain rfl := Option.some.inj hs
          have hstage : Stage.directory ≠ .admitted := (by rintro ⟨⟩)
          constructor <;> grind -ring -linarith
      · cases hs
  | writeAutomation metadata =>
      simp only [State.operate, State.writeAutomation] at hs
      split at hs
      next id hlease =>
        split at hs
        · obtain rfl := Option.some.inj hs
          have hstage : Stage.automation ≠ .admitted := (by rintro ⟨⟩)
          have hopen : ∀ i, i ≠ id → ¬ Opening s.lease i := by grind -ring -linarith
          constructor <;> grind -ring -linarith
        · cases hs
      · cases hs
  | writeAttempt inputs image now =>
      simp only [State.operate, State.writeAttempt] at hs
      split at hs
      next id hlease =>
        split at hs
        · cases hs
        · split at hs
          · cases hs
          · obtain rfl := Option.some.inj hs
            have hopen : ∀ i, i ≠ id → ¬ Opening s.lease i := by grind -ring -linarith
            have hfree := (horderly.early id .automation hlease rfl).2.2
            constructor <;> grind -ring -linarith
      · cases hs
  | fail =>
      simp only [State.operate, State.fail] at hs
      split at hs
      next id stage hlease =>
        obtain rfl := Option.some.inj hs
        have hopen : ∀ i, i ≠ id → ¬ Opening s.lease i := by grind -ring -linarith
        have hstage : Stage.removing ≠ .admitted := (by rintro ⟨⟩)
        constructor <;> grind -ring -linarith
      · cases hs
  | removeFile name =>
      simp only [State.operate, State.removeFile] at hs
      split at hs
      next id hlease =>
        obtain rfl := Option.some.inj hs
        have hopen : Opening s.lease id := ⟨.removing, hlease, (by rintro ⟨⟩)⟩
        constructor <;> grind -ring -linarith
      · cases hs
  | removeDirectory =>
      simp only [State.operate, State.removeDirectory] at hs
      split at hs
      next id hlease =>
        split at hs
        · obtain rfl := Option.some.inj hs
          have hopen : ∀ i, i ≠ id → ¬ Opening s.lease i := by grind -ring -linarith
          have hfree := hclosing id ⟨.removing, hlease, (by rintro ⟨⟩)⟩
          have hnone : noFiles.attempt = .missing := rfl
          constructor <;> grind -ring -linarith
        · cases hs
      · cases hs
  | leave =>
      simp only [State.operate, State.leave] at hs
      split at hs
      · split at hs
        · cases hs
        · obtain rfl := Option.some.inj hs
          exact .of_lease hclosing
      iterate 3
        · obtain rfl := Option.some.inj hs
          exact .of_lease hclosing
      all_goals cases hs
  | claim id now =>
      simp only [State.operate, State.claim] at hs
      split at hs
      · cases hs
      next hfree =>
        rw [not_or, Option.not_isSome_iff_eq_none, Option.not_isSome_iff_eq_none] at hfree
        split at hs
        · cases hs
        next attempt hclaim =>
          obtain rfl := Option.some.inj hs
          have hmem : id ∈ s.disk := mem_of_statusIn (claimAttempt_status hclaim).1
          obtain ⟨a, hdocument, hloaded, -⟩ := h.loaded hmem (by grind -ring -linarith) hfree.2
          have hevolves := (claimAttempt_rewritten hloaded hclaim).1.evolves
          constructor <;> grind -ring -linarith
  | resolve image =>
      simp only [State.operate, State.resolve] at hs
      split at hs
      next id attempt hlease =>
        split at hs
        · cases hs
        next hfree =>
          simp only [not_or, Option.not_isSome_iff_eq_none, Bool.not_eq_false] at hfree
          split at hs
          · cases hs
          next latest hlatest =>
            obtain rfl := Option.some.inj hs
            have hmem : id ∈ s.disk := mem_of_statusIn (resolveImage_status hlatest).1
            obtain ⟨a, hdocument, hloaded, -⟩ := h.loaded hmem (by grind -ring -linarith) hfree.1
            obtain ⟨-, -, -, -, hevolves⟩ := resolveImage_loaded hloaded hfree.2.1 hlatest
            constructor <;> grind -ring -linarith
      · cases hs
  | observe now =>
      simp only [State.operate, State.observe] at hs
      split at hs
      · split at hs
        · cases hs
        · obtain rfl := Option.some.inj hs
          apply Grows.of_lease
          grind -ring -linarith
      · cases hs
  | writePrepared native now fits =>
      simp only [State.operate, State.writePrepared] at hs
      split at hs
      next id attempt started hlease =>
        split at hs
        · cases hs
        · obtain rfl := Option.some.inj hs
          have hprep := h.preparing id attempt started hlease
          obtain ⟨⟨b, hb, hwork⟩, -⟩ := hprep.stored.resolve_left fun hown => by cases hown.2
          have hfinished := hwork.finishedAt
          have hmem := mem_of_document hb
          constructor <;> grind -ring -linarith
      · cases hs
  | failPreparation id interruption cleanup now =>
      simp only [State.operate] at hs
      split at hs
      · cases hs
      · refine .of_openSection h (fun _ => failPreparation_ends) ?_ hs
        exact fun a b ha hb => (failPreparation_rewritten ha hforward hb).evolves
  | complete id validation now =>
      simp only [State.operate, State.complete] at hs
      split at hs
      · cases hs
      next completion hcompletion =>
        obtain ⟨latest, hread, -⟩ := completeLifecycleAttempt_started hcompletion
        refine .of_settle h (mem_disk_of_read hread) ?_ hs
        intro a b ha hexact hb
        exact (completeLifecycleAttempt_loaded ha hexact hforward hcompletion hb).2.2
  | failIfActive id code now =>
      simp only [State.operate, State.failIfActive] at hs
      split at hs
      next attempt hfail =>
        obtain ⟨latest, hloaded, -⟩ := bind_eq_ok.1 hfail
        refine .of_settle h (mem_disk_of_read (read_of_loaded hloaded)) ?_ hs
        intro a b ha _ hb
        obtain rfl := Except.ok.inj hb
        exact (failIfActive_rewritten ha hforward hfail).evolves
      all_goals cases hs
  | cancel id code message now =>
      refine .of_openSection h (fun _ => cancelDurable_ends) ?_ hs
      exact fun a b ha hb => (cancelDurable_rewritten ha hb).1.evolves
  | writeResult id fits =>
      simp only [State.operate, State.writeResult] at hs
      split at hs
      next result attempt leased hsection =>
        obtain rfl := Option.some.inj hs
        have hmem : ¬ Opening s.lease id → id ∈ s.disk := by
          intro hopen
          obtain ⟨b, hb, -⟩ := h.settling id _ result hsection rfl hopen
          exact mem_of_document hb
        constructor <;> grind -ring -linarith
      · cases hs
  | commit id =>
      simp only [State.operate, State.commit] at hs
      split at hs
      next attempt leased hsection =>
        obtain rfl := Option.some.inj hs
        have hlease := s.leaseAfter_cases id leased
        have hpresent := h.present id _ hsection
        constructor <;> grind -ring -linarith
      · cases hs
  | abandon id =>
      simp only [State.operate, State.abandon] at hs
      split at hs
      next result attempt leased hsection =>
        obtain rfl := Option.some.inj hs
        have hopen : leased = true → ∀ i, ¬ Opening s.lease i := by
          rintro rfl i ⟨stage, hlease, -⟩
          obtain ⟨task, htask, hwrites⟩ := horderly.leased id _ hsection rfl
          obtain rfl := Option.some.inj (hlease.symm.trans htask)
          cases hwrites
        constructor <;> grind -ring -linarith
      · cases hs
  | upgrade id metadata =>
      simp only [State.operate, State.upgrade] at hs
      split at hs
      next current hcurrent =>
        split at hs
        · obtain rfl := Option.some.inj hs
          have hmem : id ∈ s.disk := by
            by_contra hnot
            rw [← AList.lookup_eq_none] at hnot
            simp [State.files, hnot, noFiles] at hcurrent
          constructor <;> grind -ring -linarith
        · cases hs
      · cases hs
  | createContainer id =>
      simp only [State.operate, State.createContainer] at hs
      split at hs
      · split at hs
        · obtain rfl := Option.some.inj hs
          constructor <;> grind -ring -linarith
        · cases hs
      · cases hs
  | removeContainer id =>
      obtain rfl := Option.some.inj hs
      constructor <;> grind -ring -linarith

theorem grows_step {action : Action} (horderly : Orderly s) (h : Sound runId s)
    (hcalm : Calm s action) (hs : s.step runId action = some s') : Grows s s' := by
  cases action with
  | stop =>
      obtain rfl := Option.some.inj hs
      have hopen := hcalm.1
      constructor <;> grind -ring -linarith
  | recover id absent persisted now =>
      simp only [State.step] at hs
      split at hs
      next left hphase =>
        split at hs
        · obtain rfl := Option.some.inj hs
          obtain ⟨hlease, hfree⟩ := horderly.alone (by simp [hphase])
          have hopen : ∀ i, ¬ Opening s.lease i := by grind -ring -linarith
          unfold State.recover
          split
          next attempt hrecover =>
            obtain ⟨st, hst, -, -⟩ := (recoverAttempt_ends hrecover).statusIn
            have hmem := mem_of_statusIn hst
            obtain ⟨a, hdocument, hloaded, -⟩ := h.loaded hmem (hopen id) (hfree id)
            have hevolves := (recoverAttempt_rewritten hloaded hcalm hrecover).evolves
            split
            · constructor <;> grind -ring -linarith
            · constructor <;> grind -ring -linarith
          all_goals constructor <;> grind -ring -linarith
        · cases hs
      · cases hs
  | serve =>
      simp only [State.step] at hs
      split at hs
      · obtain rfl := Option.some.inj hs
        constructor <;> grind -ring -linarith
      · cases hs
  | operate operation =>
      simp only [State.step] at hs
      split at hs
      · exact grows_operate horderly h hcalm.1 hcalm.2.2 hs
      · cases hs

/-! ## What has become of an attempt that was read -/

/-- The documents of an attempt that was read as `a`, next to prepared dependencies. -/
structure Follows (id : String) (a : Attempt) (prepared : Stored Prepared) (s : State) : Prop where
  stored : ¬ Opening s.lease id → ∀ b, (filesIn s.disk id).attempt = .document b → Evolves a b
  pending : ¬ Opening s.lease id → ∀ sec b, s.sections id = some sec → sec.attempt = .ok b →
    Evolves a b
  prepared : ¬ Opening s.lease id → id ∈ s.disk → a.finishedAt ≠ none →
    (filesIn s.disk id).prepared = prepared
  allocated : id ∈ s.allocated
  late : ∀ stage, s.lease = some (.admitting id stage) → stage.early = false

theorem Follows.step {id : String} {a : Attempt} {prepared : Stored Prepared}
    (h : Follows id a prepared s) (hframe : Frame s s') (hgrows : Grows s s') :
    Follows id a prepared s' where
  stored hopen b' hb' := by
    rcases hgrows.stored id b' hopen hb' with hlease | ⟨hbefore, ⟨b, hb, hevolves⟩ | ⟨sec, hsec, hb⟩⟩
    · exact absurd (h.late _ hlease) nofun
    · exact (h.stored hbefore b hb).trans hevolves
    · exact h.pending hbefore sec b' hsec hb
  pending hopen sec b' hsec hb' := by
    obtain ⟨hbefore, ⟨b, hb, hevolves⟩ | ⟨sec', hsec', hb⟩⟩ := hgrows.pending id sec b' hopen hsec hb'
    · exact (h.stored hbefore b hb).trans hevolves
    · exact h.pending hbefore sec' b' hsec' hb
  prepared hopen hmem hover := by
    rcases hgrows.prepared id hopen hmem with hlease | ⟨hbefore, hmem', hsame | ⟨b, hb, hnone⟩⟩
    · exact absurd (h.late _ hlease) nofun
    · rw [hsame]
      exact h.prepared hbefore hmem' hover
    · rw [(h.stored hbefore b hb).finished hover] at hnone
      exact absurd hnone hover
  allocated := hframe.allocated id h.allocated
  late stage hlease := by
    by_contra hearly
    rcases hframe.early id stage hlease (eq_true_of_ne_false hearly) with hfresh | ⟨_, hlease', hst⟩
    · exact hfresh h.allocated
    · simp [h.late _ hlease'] at hst

/-! ## Readings -/

/-- The file that an operation replaces. -/
def Operation.replaces (s : State) : Operation → Option (String × FileName)
  | .writeAutomation _ => (s.lease.bind Task.on).map (·, .automation)
  | .writeAttempt _ _ _ => (s.lease.bind Task.on).map (·, .attempt)
  | .writePrepared _ _ _ => (s.lease.bind Task.on).map (·, .prepared)
  | .writeResult id _ => some (id, .result)
  | .commit id => some (id, .attempt)
  | .upgrade id _ => some (id, .automation)
  | _ => none

/-- The file that a step replaces. -/
def Action.replaces (s : State) : Action → Option (String × FileName)
  | .recover id _ _ _ => some (id, .attempt)
  | .operate operation => operation.replaces s
  | .stop | .serve => none

/-- A state, and the files that were replaced until then. -/
abbrev Moment : Type := State × List (String × FileName)

/-- The machine of a Run's attempts, with the files that were replaced. -/
def attemptHistory (runId : String) : Machine Moment Action :=
  (attemptLife runId).recording [] fun s action replaced => (action.replaces s).toList ++ replaced

/-- The same machine, from a moment that a run has reached. -/
def attemptHistoryFrom (runId : String) (m : Moment) : Machine Moment Action :=
  ⟨m, (attemptHistory runId).step⟩

/-- How `_load_recovery_json` reads a file: `lstat`, and then `open`. -/
structure Glance where
  found : Moment
  opened : Moment

/-- The file was replaced in between, and has another inode. -/
def Glance.replaced (g : Glance) (id : String) (name : FileName) : Bool :=
  g.opened.2.count (id, name) ≠ g.found.2.count (id, name)

/-- What is read of a file. -/
def Glance.see {α : Type} (g : Glance) (id : String) (name : FileName)
    (file : AttemptFiles → Stored α) : Stored α :=
  if (file (g.found.1.files id)).present && g.replaced id name then .refused
  else file (g.found.1.files id)

/-- The moments at which `load_attempt` reads the files. -/
structure Reading where
  attempt : Glance
  automation : Glance
  prepared : Glance
  result : Glance

namespace Reading

/-- What a reader sees. -/
def files (R : Reading) (id : String) : AttemptFiles where
  attempt := R.attempt.see id .attempt AttemptFiles.attempt
  automation := R.automation.see id .automation AttemptFiles.automation
  prepared := R.prepared.see id .prepared AttemptFiles.prepared
  result := R.result.see id .result AttemptFiles.result

/-- Its moments, in their order. -/
def moments (R : Reading) : List Moment :=
  [R.attempt.found, R.attempt.opened, R.automation.found, R.automation.opened, R.prepared.found,
    R.prepared.opened, R.result.found, R.result.opened]

/-- One moment comes after another in a run. -/
def Later (ok : State → Action → Prop) (runId : String) (m m' : Moment) : Prop :=
  (attemptHistoryFrom runId m).Reach (fun m => ok m.1) m'

/-- The moments belong to one run, in their order. -/
structure InOrder (ok : State → Action → Prop) (runId : String) (R : Reading) : Prop where
  reached : (attemptHistory runId).Reach (fun m => ok m.1) R.attempt.found
  ordered : R.moments.IsChain (Later ok runId)

/-- The directory is there, and is not being made or removed. -/
def Admitted (R : Reading) (id : String) : Prop :=
  ∀ m ∈ R.moments, id ∈ m.1.disk ∧ ¬ Opening m.1.lease id

/-- The reads do not fall on the writes: no file is replaced while it is read; prepared
dependencies are found only next to an attempt that had begun, with its image, when it was
read; and a result only next to one that had its result. -/
structure Clear (R : Reading) (id : String) : Prop where
  attempt : R.attempt.replaced id .attempt = false
  automation : R.automation.replaced id .automation = false
  prepared : (R.prepared.found.1.files id).prepared.present = true →
    R.prepared.replaced id .prepared = false ∧
      ∀ a, (R.attempt.found.1.files id).attempt = .document a →
        a.startedAt ≠ none ∧ a.selectedProfile.image.id ≠ none
  result : (R.result.found.1.files id).result.present = true →
    ∀ a, (R.attempt.found.1.files id).attempt = .document a →
      a.result ≠ none ∧ R.result.replaced id .result = false

end Reading

/-- Why `_handle_validation` finishes a generation as `blocked_manual`: the loader has raised
a `ValidationAdmissionError`. -/
def blockedBy : Except Fault Attempt → Option String
  | .error (.admission code _) => some code
  | _ => none

/-! ## What a reading shows -/

theorem Glance.see_of_unreplaced {α : Type} {g : Glance} {id : String} {name : FileName}
    {file : AttemptFiles → Stored α} (h : g.replaced id name = false) :
    g.see id name file = file (g.found.1.files id) := by
  simp [see, h]

/-- A file that was replaced cannot be read. -/
theorem Glance.see_eq {α : Type} {g : Glance} {id : String} {name : FileName}
    {file : AttemptFiles → Stored α} (hread : g.see id name file ≠ .refused)
    (hpresent : (file (g.found.1.files id)).present = true) :
    g.replaced id name = false ∧ g.see id name file = file (g.found.1.files id) := by
  cases hreplaced : g.replaced id name with
  | false => exact ⟨rfl, see_of_unreplaced hreplaced⟩
  | true => exact absurd (by simp [see, hpresent, hreplaced]) hread

theorem not_refused_of_keeping {α : Type} {normalize : α → Except ContractError α} {file : Stored α}
    {value : α} (h : keeping normalize file = .ok value) : file ≠ .refused := by
  obtain ⟨stored, rfl, -⟩ := keeping_eq_ok.1 h
  exact nofun

/-! ## From one moment to a later one -/

/-- What holds at every moment of the calm runs. -/
structure Steady (runId : String) (m : Moment) : Prop where
  orderly : Orderly m.1
  sound : Sound runId m.1

theorem steady_of_reach {m : Moment} (h : (attemptHistory runId).Reach (fun m => Calm m.1) m) :
    Steady runId m := by
  obtain ⟨horderly, hsound⟩ := sound_of_reach h.of_recording
  exact ⟨horderly, hsound⟩

theorem step_of_history {m₀ m m' : Moment} {action : Action}
    (h : (attemptHistoryFrom runId m₀).step m action = some m') :
    m.1.step runId action = some m'.1 := by
  have hstep : ((attemptLife runId).recording [] fun s action replaced =>
      (action.replaces s).toList ++ replaced).step m action = some m' := h
  exact (Machine.recording_step.1 hstep).1

theorem Steady.later {m m' : Moment} (h : Steady runId m) (hlater : Reading.Later Calm runId m m') :
    Steady runId m' := by
  apply hlater.inv h
  intro m action m' hm hcalm hstep
  have hs := step_of_history hstep
  exact ⟨hm.orderly.step hs, hm.sound.step hm.orderly hcalm hs⟩

theorem Follows.later {id : String} {a : Attempt} {prepared : Stored Prepared} {m m' : Moment}
    (hsteady : Steady runId m) (h : Follows id a prepared m.1)
    (hlater : Reading.Later Calm runId m m') : Follows id a prepared m'.1 := by
  suffices Steady runId m' ∧ Follows id a prepared m'.1 from this.2
  apply hlater.inv ⟨hsteady, h⟩
  intro m action m' ⟨hm, hfollows⟩ hcalm hstep
  have hs := step_of_history hstep
  exact ⟨⟨hm.orderly.step hs, hm.sound.step hm.orderly hcalm hs⟩,
    hfollows.step (frame_step hs) (grows_step hm.orderly hm.sound hcalm hs)⟩

theorem Follows.start {id : String} {a : Attempt} (horderly : Orderly s) (h : Sound runId s)
    (hmem : id ∈ s.disk) (hopen : ¬ Opening s.lease id)
    (hdocument : (filesIn s.disk id).attempt = .document a) :
    Follows id a (filesIn s.disk id).prepared s where
  stored _ b hb := by
    obtain rfl := Stored.document.inj (hdocument.symm.trans hb)
    exact .refl a
  pending _ sec b hsec hb := h.growing id sec a b hsec hb hopen hdocument
  prepared _ _ _ := rfl
  allocated := horderly.known id (.inl hmem)
  late stage hlease := by
    by_contra hearly
    refine hopen ⟨stage, hlease, ?_⟩
    rintro rfl
    exact hearly rfl

/-- An attempt with a result is over. -/
theorem Loaded.finished {id : String} {files : AttemptFiles} {a : Attempt}
    (h : Loaded runId id files a) (hresult : a.result ≠ none) : a.finishedAt ≠ none := by
  obtain ⟨_, -, ⟨hnone, -⟩ | ⟨-, r, hr⟩, -⟩ := h.evidence
  · exact absurd hnone hresult
  · obtain ⟨t, ht, -⟩ := hr.done
    simp [ht]

/-- What is found at one moment of a reading, after the attempt was read. -/
structure Finds (runId id : String) (a : Attempt) (prepared : Stored Prepared) (m : Moment) : Prop where
  steady : Steady runId m
  follows : Follows id a prepared m.1
  mem : id ∈ m.1.disk
  closed : ¬ Opening m.1.lease id

theorem Finds.later {id : String} {a : Attempt} {prepared : Stored Prepared} {m m' : Moment}
    (h : Finds runId id a prepared m) (hlater : Reading.Later Calm runId m m')
    (hadmitted : id ∈ m'.1.disk ∧ ¬ Opening m'.1.lease id) : Finds runId id a prepared m' :=
  ⟨h.steady.later hlater, h.follows.later h.steady hlater, hadmitted.1, hadmitted.2⟩

/-- The attempt of a later moment. -/
theorem Finds.kept {id : String} {a : Attempt} {prepared : Stored Prepared} {m : Moment}
    (h : Finds runId id a prepared m) :
    ∃ b, Kept runId id (m.1.files id) b ∧ Evolves a b := by
  obtain ⟨b, hb⟩ := h.steady.sound.kept id h.mem h.closed
  exact ⟨b, hb, h.follows.stored h.closed b hb.document⟩

theorem AttemptFiles.core_prepared_eq (files : AttemptFiles) : files.core.prepared = files.prepared := by
  unfold core
  split <;> rfl

/-- Prepared dependencies of a later moment are evidence for the attempt that was read, if
it had begun with its image. -/
theorem Finds.preparedFor {id : String} {a : Attempt} {prepared : Stored Prepared} {m : Moment}
    {files : AttemptFiles} (h : Finds runId id a prepared m)
    (hbegun : a.startedAt ≠ none ∧ a.selectedProfile.image.id ≠ none)
    (hpresent : (m.1.files id).prepared.present = true)
    (hseen : files.prepared = (m.1.files id).prepared) : ∃ p, PreparedFor files a p := by
  obtain ⟨b, hb, hevolves⟩ := h.kept
  obtain ⟨_, ⟨hmissing, -⟩ | ⟨p, -, hp⟩, -⟩ := hb.loaded.evidence
  · rw [AttemptFiles.core_prepared_eq] at hmissing
    simp [hmissing, Stored.present] at hpresent
  · refine ⟨p, ?_⟩
    have hcontract := hp.contract
    rw [AttemptFiles.core_prepared_eq, ← hseen] at hcontract
    exact
      { contract := hcontract, profile := by rw [← hevolves.inputs]; exact hp.profile
        current := by rw [← hevolves.inputs]; exact hp.current
        previous := by rw [← hevolves.inputs]; exact hp.previous
        image := by rw [← hevolves.profile hbegun.2]; exact hp.image
        begun := by rw [← hevolves.startedAt hbegun.1]; exact hp.begun
        done := by
          intro finished hfinished
          have hsame := hevolves.finished (by simp [hfinished])
          exact hp.done finished (hsame ▸ hfinished) }

/-! ## The main result -/

/-- What each glance of a reading finds. -/
structure Findings (runId id : String) (R : Reading) (a : Attempt) : Prop where
  kept : Kept runId id (R.attempt.found.1.files id) a
  attempt : Finds runId id a (R.attempt.found.1.files id).prepared R.attempt.found
  automation : Finds runId id a (R.attempt.found.1.files id).prepared R.automation.found
  prepared : Finds runId id a (R.attempt.found.1.files id).prepared R.prepared.found
  result : Finds runId id a (R.attempt.found.1.files id).prepared R.result.found

theorem findings_of_inOrder {id : String} {R : Reading} (horder : R.InOrder Calm runId)
    (hadmitted : R.Admitted id) : ∃ a, Findings runId id R a := by
  have hsteady := steady_of_reach horder.reached
  have hmoments := horder.ordered
  simp only [Reading.moments, List.isChain_cons_cons] at hmoments
  obtain ⟨h₀, h₁, h₂, h₃, h₄, h₅, -⟩ := hmoments
  simp only [Reading.Admitted, Reading.moments, List.forall_mem_cons] at hadmitted
  obtain ⟨a₀, a₁, a₂, a₃, a₄, a₅, a₆, -⟩ := hadmitted
  obtain ⟨a, ha⟩ := hsteady.sound.kept id a₀.1 a₀.2
  have hattempt : Finds runId id a (R.attempt.found.1.files id).prepared R.attempt.found :=
    ⟨hsteady, .start hsteady.orderly hsteady.sound a₀.1 a₀.2 ha.document, a₀.1, a₀.2⟩
  have hautomation := (hattempt.later h₀ a₁).later h₁ a₂
  have hprepared := (hautomation.later h₂ a₃).later h₃ a₄
  exact ⟨a, ha, hattempt, hautomation, hprepared, (hprepared.later h₄ a₅).later h₅ a₆⟩

theorem Glance.see_of_absent {α : Type} {g : Glance} {id : String} {name : FileName}
    {file : AttemptFiles → Stored α} (h : (file (g.found.1.files id)).present = false) :
    g.see id name file = .missing := by
  simp only [see, h, Bool.false_and, Bool.false_eq_true, if_false]
  exact Stored.present_eq_false.1 h

/-- The prepared dependencies that a clear reading sees. -/
theorem Findings.seenPrepared {id : String} {R : Reading} {a : Attempt}
    (h : Findings runId id R a) (hclear : R.Clear id) :
    (R.files id).prepared = (R.prepared.found.1.files id).prepared ∧
      ((R.files id).prepared = .missing ∨ ∃ p, PreparedFor (R.files id) a p) := by
  cases hpresent : (R.prepared.found.1.files id).prepared.present with
  | false =>
      have hseen : (R.files id).prepared = .missing := Glance.see_of_absent hpresent
      exact ⟨hseen.trans (Stored.present_eq_false.1 hpresent).symm, .inl hseen⟩
  | true =>
      obtain ⟨hunreplaced, hbegun⟩ := hclear.prepared hpresent
      have hseen : (R.files id).prepared = (R.prepared.found.1.files id).prepared :=
        Glance.see_of_unreplaced hunreplaced
      exact ⟨hseen, .inr (h.prepared.preparedFor (hbegun a h.kept.document) hpresent hseen)⟩

/-- An attempt that is over is found with the evidence that it had when it was read. -/
theorem Finds.finished {id : String} {a : Attempt} {prepared : Stored Prepared} {m : Moment}
    (h : Finds runId id a prepared m) (hover : a.finishedAt ≠ none) :
    Kept runId id (m.1.files id) a ∧ (m.1.files id).prepared = prepared := by
  obtain ⟨b, hb, hevolves⟩ := h.kept
  rw [hevolves.finished hover] at hb
  exact ⟨hb, h.follows.prepared h.closed h.mem hover⟩

/-- The result that a clear reading sees. -/
theorem Findings.seenResult {id : String} {R : Reading} {a : Attempt} {prepared : Option Prepared}
    (h : Findings runId id R a) (hclear : R.Clear id)
    (hprepared : ∀ p, prepared = some p → PreparedFor (R.files id) a p) :
    a.result = none ∧ (R.files id).result = .missing ∨
      a.result ≠ none ∧ ∃ r, ResultFor runId id (R.files id) a prepared r := by
  by_cases hnone : a.result = none
  · refine .inl ⟨hnone, Glance.see_of_absent ?_⟩
    by_contra hpresent
    exact (hclear.result (eq_true_of_ne_false hpresent) a h.kept.document).1 hnone
  · refine .inr ⟨hnone, ?_⟩
    have hover := h.kept.loaded.finished hnone
    obtain ⟨hkept, hfixed⟩ := h.result.finished hover
    have hfixed' := (h.prepared.finished hover).2
    have hquiet : (R.result.found.1.files id).recording = false := by
      obtain ⟨reference, hreference⟩ := Option.ne_none_iff_exists'.1 hnone
      simp [AttemptFiles.recording, hkept.document, hreference]
    have hloaded := hkept.loaded
    rw [AttemptFiles.core_of_not_recording hquiet] at hloaded
    obtain ⟨found, hfound, ⟨habsent, -⟩ | ⟨-, r, hr⟩, -⟩ := hloaded.evidence
    · exact absurd habsent hnone
    have hunreplaced :=
      (hclear.result (Stored.present_of_keeping hr.contract) a h.kept.document).2
    have hseen : (R.files id).result = (R.result.found.1.files id).result :=
      Glance.see_of_unreplaced hunreplaced
    refine ⟨r, { hr with contract := hseen ▸ hr.contract, afterPrepared := ?_ }⟩
    intro p hp
    have hcontract := (hprepared p hp).contract
    rw [(h.seenPrepared hclear).1, hfixed', ← hfixed] at hcontract
    rcases hfound with ⟨hmissing, -⟩ | ⟨q, rfl, hq⟩
    · have hpresent := Stored.present_of_keeping hcontract
      simp [hmissing, Stored.present] at hpresent
    · obtain rfl := Except.ok.inj (hq.contract.symm.trans hcontract)
      exact hr.afterPrepared q rfl

/-- A clear reading sees a readable attempt. -/
theorem Findings.loaded {id : String} {R : Reading} {a : Attempt} (h : Findings runId id R a)
    (hclear : R.Clear id) : Loaded runId id (R.files id) a := by
  have hattempt : (R.files id).attempt = .document a :=
    (Glance.see_of_unreplaced hclear.attempt).trans h.kept.document
  obtain ⟨b, hb, -⟩ := h.automation.kept
  obtain ⟨m, hm, hvalid⟩ := hb.loaded.automation
  have hautomation : (R.files id).automation = .document m := by
    refine (Glance.see_of_unreplaced hclear.automation).trans ?_
    rw [← hm]
    unfold AttemptFiles.core
    split <;> rfl
  have hcontract : keeping normalizeValidationAttempt (R.files id).attempt = .ok a := by
    rw [hattempt]
    exact keeping_document h.kept.loaded.canonical
  refine
    { contract := hcontract
      ofRun := h.kept.loaded.ofRun, ofAttempt := h.kept.loaded.ofAttempt
      automation := ⟨m, hautomation, hvalid⟩, evidence := ?_ }
  rcases (h.seenPrepared hclear).2 with hmissing | ⟨p, hp⟩
  · refine ⟨none, .inl ⟨hmissing, rfl⟩, h.seenResult hclear nofun, ?_⟩
    intro hsuccess
    have hover := h.kept.loaded.finished (result_of_success h.kept.loaded.rules hsuccess)
    have hfixed := (h.prepared.finished hover).2
    rw [← (h.seenPrepared hclear).1, hmissing] at hfixed
    obtain ⟨q, ⟨-, rfl⟩ | ⟨_, rfl, hq⟩, -, hneeded⟩ := h.kept.loaded.evidence
    · exact absurd rfl (hneeded hsuccess)
    · have hcontract := hq.contract
      rw [AttemptFiles.core_prepared_eq, ← hfixed] at hcontract
      exact nomatch Stored.present_of_keeping hcontract
  · refine ⟨some p, .inr ⟨p, rfl, hp⟩, h.seenResult hclear ?_, fun _ => nofun⟩
    intro q hq
    obtain rfl := Option.some.inj hq
    exact hp

/-- A reading that the strict loader accepts shows the attempt of its first moment, and is
clear. -/
theorem Findings.clear {id : String} {R : Reading} {a b : Attempt} (h : Findings runId id R a)
    (hloaded : Loaded runId id (R.files id) b) : b = a ∧ R.Clear id := by
  obtain ⟨hunreplaced, hseen⟩ := Glance.see_eq (not_refused_of_keeping hloaded.contract)
    (by rw [h.kept.document]; rfl)
  have hcontract := hloaded.contract
  have hattempt : (R.files id).attempt = .document a := hseen.trans h.kept.document
  rw [hattempt, keeping_document h.kept.loaded.canonical] at hcontract
  obtain rfl := Except.ok.inj hcontract
  obtain ⟨m, hm, -⟩ := hloaded.automation
  obtain ⟨c, hc, -⟩ := h.automation.kept
  obtain ⟨m', hm', -⟩ := hc.loaded.automation
  have hautomation : (R.automation.found.1.files id).automation = .document m' := by
    rw [← hm']
    unfold AttemptFiles.core
    split <;> rfl
  have hread : R.automation.see id .automation AttemptFiles.automation ≠ .refused := by
    intro hrefused
    cases hm.symm.trans hrefused
  refine ⟨rfl, hunreplaced, (Glance.see_eq hread (by rw [hautomation]; rfl)).1, ?_, ?_⟩
  · intro hpresent
    obtain ⟨_, ⟨hmissing, -⟩ | ⟨p, -, hp⟩, -⟩ := hloaded.evidence
    · have hread : R.prepared.see id .prepared AttemptFiles.prepared ≠ .refused := by
        intro hrefused
        cases hmissing.symm.trans hrefused
      have hmissing' := ((Glance.see_eq hread hpresent).2.symm.trans hmissing)
      simp [hmissing', Stored.present] at hpresent
    · refine ⟨(Glance.see_eq (not_refused_of_keeping hp.contract) hpresent).1, ?_⟩
      intro d hd
      obtain rfl := Stored.document.inj (h.kept.document.symm.trans hd)
      obtain ⟨t, ht, -⟩ := hp.begun
      exact ⟨by simp [ht], hp.image ▸ (fields_of_prepared hp.contract).1⟩
  · intro hpresent d hd
    obtain rfl := Stored.document.inj (h.kept.document.symm.trans hd)
    obtain ⟨_, -, ⟨-, hmissing⟩ | ⟨hresult, r, hr⟩, -⟩ := hloaded.evidence
    · have hread : R.result.see id .result AttemptFiles.result ≠ .refused := by
        intro hrefused
        cases hmissing.symm.trans hrefused
      have hmissing' := ((Glance.see_eq hread hpresent).2.symm.trans hmissing)
      simp [hmissing', Stored.present] at hpresent
    · exact ⟨hresult, (Glance.see_eq (not_refused_of_keeping hr.contract) hpresent).1⟩

/-- A directory of attempts, each of which is read at its own moments. -/
def readings (ids : List String) (hdistinct : ids.Nodup) (R : String → Reading) : Inventory :=
  .entries (ids.map fun id => ⟨id, some ((R id).files id)⟩) (by
    rw [List.map_map]
    exact (List.map_id ids).symm ▸ hdistinct)

/-- A reader of an admitted attempt, at any moments of a calm run: it gets the attempt that
was stored when it read `attempt.json`, and the orchestrator does not take the attempt for
blocked, exactly when the reading is clear.  A listing that reads each attempt clearly is
the list of these attempts. -/
theorem loadAttempt_reading (runId : String) :
    (∀ (id : String) (R : Reading), R.InOrder Calm runId → R.Admitted id →
      ((∃ a, loadAttempt runId id (R.files id) = .ok a) ↔ R.Clear id) ∧
      (∀ a, loadAttempt runId id (R.files id) = .ok a →
        (R.attempt.found.1.files id).attempt = .document a) ∧
      (R.Clear id → blockedBy (loadAttempt runId id (R.files id)) = none)) ∧
    ∀ (ids : List String) (hdistinct : ids.Nodup) (R : String → Reading),
      safeName runId = true → ids.length ≤ maxAttemptsPerRun →
      (∀ id ∈ ids, safeName id = true ∧ (R id).InOrder Calm runId ∧ (R id).Admitted id ∧
        (R id).Clear id) →
      ∃ attempts, listAttempts runId (readings ids hdistinct R) = .ok attempts ∧
        ∀ a ∈ attempts, ∃ id ∈ ids, ((R id).attempt.found.1.files id).attempt = .document a := by
  constructor
  · intro id R horder hadmitted
    obtain ⟨a, ha⟩ := findings_of_inOrder horder hadmitted
    have hiff : (∃ a, loadAttempt runId id (R.files id) = .ok a) ↔ R.Clear id := by
      constructor
      · rintro ⟨b, hb⟩
        exact (ha.clear (loadAttempt_eq_ok.1 hb)).2
      · intro hclear
        exact ⟨a, loadAttempt_eq_ok.2 (ha.loaded hclear)⟩
    refine ⟨hiff, ?_, ?_⟩
    · intro b hb
      rw [(ha.clear (loadAttempt_eq_ok.1 hb)).1]
      exact ha.kept.document
    · intro hclear
      rw [loadAttempt_eq_ok.2 (ha.loaded hclear)]
      rfl
  · intro ids hdistinct R hsafe hbound hclear
    have hverifiable : Verifiable runId (readings ids hdistinct R) := by
      refine ⟨hsafe, nofun, by simpa [readings, Inventory.list] using hbound, ?_⟩
      intro entry hentry
      obtain ⟨id, hid, rfl⟩ := List.mem_map.1 hentry
      obtain ⟨hname, horder, hadmitted, hread⟩ := hclear id hid
      obtain ⟨a, ha⟩ := findings_of_inOrder horder hadmitted
      exact ⟨hname, _, a, rfl, ha.loaded hread⟩
    obtain ⟨attempts, hattempts⟩ := exists_listAttempts.2 hverifiable
    refine ⟨attempts, hattempts, ?_⟩
    intro b hb
    obtain ⟨entry, hentry, files, hfiles, hloaded⟩ := (mem_listAttempts hattempts).1 hb
    obtain ⟨id, hid, rfl⟩ := List.mem_map.1 hentry
    obtain rfl := Option.some.inj hfiles
    obtain ⟨-, horder, hadmitted, -⟩ := hclear id hid
    obtain ⟨a, ha⟩ := findings_of_inOrder horder hadmitted
    refine ⟨id, hid, ?_⟩
    rw [(ha.clear hloaded).1]
    exact ha.kept.document

/-! ## Two readings -/

/-- The result is read later than the other files. -/
def sampleReading (m m' : Moment) : Reading := ⟨⟨m, m⟩, ⟨m, m⟩, ⟨m, m⟩, ⟨m', m'⟩⟩

theorem sampleReading_inOrder {ok : State → Action → Prop} {m m' : Moment}
    (hreach : (attemptHistory runId).Reach (fun m => ok m.1) m)
    (hlater : Reading.Later ok runId m m') : (sampleReading m m').InOrder ok runId := by
  have hsame : ∀ m, Reading.Later ok runId m m := fun m => .start
  refine ⟨hreach, ?_⟩
  simp [sampleReading, Reading.moments, hsame, hlater]

/-- The attempt is there, and no admission has the lease. -/
def admittedTest (m : Moment) : Bool :=
  (m.1.status? "v1").isSome && m.1.lease.all (·.writes.isSome)

theorem sampleReading_admitted {m m' : Moment} (h : admittedTest m = true)
    (h' : admittedTest m' = true) : (sampleReading m m').Admitted "v1" := by
  have hadmitted : ∀ m, admittedTest m = true → "v1" ∈ m.1.disk ∧ ¬ Opening m.1.lease "v1" := by
    intro m hm
    simp only [admittedTest, Bool.and_eq_true, Option.all_eq_true] at hm
    obtain ⟨st, hst⟩ := Option.isSome_iff_exists.1 hm.1
    refine ⟨mem_of_statusIn hst, ?_⟩
    rintro ⟨stage, hlease, -⟩
    exact absurd (hm.2 _ hlease) nofun
  simp [Reading.Admitted, sampleReading, Reading.moments, hadmitted m h, hadmitted m' h']

/-- A queued attempt that nobody writes is read. -/
theorem loadAttempt_reading_sample :
    ∃ R : Reading, R.Admitted "v1" ∧ blockedBy (loadAttempt "r1" "v1" (R.files "v1")) = none := by
  have hrun : ((attemptHistory "r1").run (fun m => calmTest m.1) (.empty, []) sampleAdmission).bind
      (fun m => if admittedTest m = true ∧ (m.1.files "v1").prepared.present = false ∧
          (m.1.files "v1").result.present = false then some () else none) = some () := by
    decide +kernel
  obtain ⟨m, hm, htests⟩ := Option.bind_eq_some_iff.1 hrun
  split at htests
  next htest =>
    have hreach : (attemptHistory "r1").Reach (fun m => Calm m.1) m :=
      .run (fun m => calm_of_test m.1) .start hm
    have hadmitted := sampleReading_admitted htest.1 htest.1
    refine ⟨sampleReading m m, hadmitted, ?_⟩
    have hreplaced : ∀ name, Glance.replaced ⟨m, m⟩ "v1" name = false := by simp [Glance.replaced]
    refine ((loadAttempt_reading "r1").1 "v1" _ (sampleReading_inOrder hreach .start) hadmitted).2.2
      ⟨hreplaced _, hreplaced _, ?_, ?_⟩
    · exact fun hpresent => absurd (htest.2.1.symm.trans hpresent) (by rintro ⟨⟩)
    · exact fun hpresent => absurd (htest.2.2.symm.trans hpresent) (by rintro ⟨⟩)
  · cases htests

/-- The result is written between the two reads: the strict loader raises, and the
orchestrator finishes the generation as blocked. -/
theorem loadAttempt_misjudged :
    ∃ R : Reading, R.InOrder (fun _ _ => True) "r1" ∧ R.Admitted "v1" ∧
      loadAttempt "r1" "v1" (R.files "v1") =
        .error (refused "validation_result_state_mismatch" 409) ∧
      blockedBy (loadAttempt "r1" "v1" (R.files "v1")) =
        some "validation_result_state_mismatch" := by
  obtain ⟨s, written, -, hreach, hwritten, -, -, htests, hload⟩ := sampleCompletion_run
  obtain ⟨g, hhistory⟩ : ∃ g, (attemptHistory "r1").Reach (fun _ _ => True) (s, g) := hreach.recording
  have hlife : (attemptLife "r1").step s (.operate (.writeResult "v1" true)) = some written := hwritten
  obtain ⟨m', hstep⟩ : ∃ m' : Moment, (attemptHistory "r1").step (s, g) (.operate (.writeResult "v1" true)) = some m' ∧
      m'.1 = written := ⟨(written, _), Machine.recording_step.2 ⟨hlife, rfl⟩, rfl⟩
  have hfiles : (sampleReading (s, g) m').files "v1" = { s.files "v1" with result := (written.files "v1").result } := by
    simp [Reading.files, sampleReading, Glance.see, Glance.replaced, hstep.2]
  refine ⟨sampleReading (s, g) m', sampleReading_inOrder hhistory
    (.step (.operate (.writeResult "v1" true)) .start trivial hstep.1),
    sampleReading_admitted (htests s (by simp)) ?_, ?_, ?_⟩
  · rw [admittedTest, hstep.2]
    exact htests written (by simp)
  · rw [hfiles, hload]
  · rw [hfiles, hload]
    rfl

end DebBuilder.Validation
