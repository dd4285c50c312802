import Mathlib
import DebBuilder.Lib.Dict
import DebBuilder.Lib.Machine
import DebBuilder.Validation.Writers

/-!
# The life of the attempts of a Run

Everything that writes below `manifests/validation-attempts` of one Run: admissions, the
preparation and the lifecycle of a worker, cancellations, the failure handlers, and the
recovery of the next start.  Each write of a file is an action of its own, and the process
can stop between any two.

Two locks order the writers.  The lease of the Run (`locked_run`) is held by an admission,
by a preparation up to its handler, and by the sections that settle an attempt.  The path
of `attempt.json` (`locked_path`) is locked by each section that reads and rewrites it.
Recovery runs alone, before anything is served.

Nothing here says that an operation runs only when a worker has reached it: a section may
run whenever its locks are free, and what it reads decides what it writes.

## Main definitions

* `State`, `Task`, `Section` — the disk, and who holds the locks.
* `Operation`, `State.operate` — the writers while the application serves.
* `attemptLife` — the machine of one Run.
-/

namespace DebBuilder.Validation
open Lib

/-! ## States -/

/-- How far an admission has come. -/
inductive Stage
  | directory | automation | admitted | removing
  deriving DecidableEq, Repr

/-- Who holds the lease of the Run, with the locals that it has there. -/
inductive Task
  /-- An admission that has found an active attempt. -/
  | reusing (selected : String)
  /-- An admission that has found none. -/
  | cleared
  | admitting (id : String) (stage : Stage)
  | preparing (id : String) (attempt : Attempt) (started : Option Timestamp)
  | settling (id : String)

/-- A section that holds the path of an attempt, with what it is about to write. -/
structure Section where
  result : Option Result
  attempt : Except ContractError Attempt
  /-- The section is part of the task that holds the lease. -/
  leased : Bool

/-- A process recovers the attempts that it found, and then serves. -/
inductive Phase
  | recovering (left : List String)
  | serving
  deriving DecidableEq

structure State where
  disk : Dict String AttemptFiles
  /-- The identifiers that were allocated. -/
  allocated : List String
  /-- The attempts that own a container, as the identity registry says. -/
  containers : List String
  lease : Option Task
  sections : String → Option Section
  phase : Phase

/-- A directory without files. -/
def noFiles : AttemptFiles := ⟨.missing, .missing, .missing, .missing⟩

namespace State

def empty : State := ⟨∅, [], [], none, fun _ => none, .recovering []⟩

/-- The files of an attempt. -/
def files (s : State) (id : String) : AttemptFiles := (s.disk.lookup id).getD noFiles

/-- A write below the directory of an attempt, which is made if it is gone. -/
def write (s : State) (id : String) (change : AttemptFiles → AttemptFiles) : State :=
  { s with disk := s.disk.insert id (change (s.files id)) }

/-- The directory of attempts, as `list_attempts` reads it. -/
def inventory (s : State) : Inventory :=
  .entries (s.disk.entries.map fun e => ⟨e.1, some e.2⟩) (by
    rw [List.map_map]
    exact s.disk.nodupKeys)

/-- The path of an attempt is locked, and released. -/
def lock (s : State) (id : String) (section' : Section) : State :=
  { s with sections := Function.update s.sections id (some section') }

def unlock (s : State) (id : String) : State :=
  { s with sections := Function.update s.sections id none }

section
variable (s : State) (id i : String) (change : AttemptFiles → AttemptFiles) (sec : Section)

@[simp, grind =] theorem write_disk :
    (s.write id change).disk = s.disk.insert id (change (s.files id)) := rfl
@[simp, grind =] theorem write_sections :
    (s.write id change).sections i = s.sections i := rfl
@[simp, grind =] theorem write_lease : (s.write id change).lease = s.lease := rfl
@[simp, grind =] theorem write_phase : (s.write id change).phase = s.phase := rfl
@[simp, grind =] theorem write_allocated : (s.write id change).allocated = s.allocated := rfl
@[simp, grind =] theorem write_containers : (s.write id change).containers = s.containers := rfl

@[simp, grind =] theorem lock_sections :
    (s.lock id sec).sections i = if i = id then some sec else s.sections i := by
  by_cases h : i = id <;> simp [lock, h]
@[simp, grind =] theorem lock_disk : (s.lock id sec).disk = s.disk := rfl
@[simp, grind =] theorem lock_lease : (s.lock id sec).lease = s.lease := rfl
@[simp, grind =] theorem lock_phase : (s.lock id sec).phase = s.phase := rfl
@[simp, grind =] theorem lock_allocated : (s.lock id sec).allocated = s.allocated := rfl
@[simp, grind =] theorem lock_containers : (s.lock id sec).containers = s.containers := rfl

@[simp, grind =] theorem unlock_sections :
    (s.unlock id).sections i = if i = id then none else s.sections i := by
  by_cases h : i = id <;> simp [unlock, h]
@[simp, grind =] theorem unlock_disk : (s.unlock id).disk = s.disk := rfl
@[simp, grind =] theorem unlock_lease : (s.unlock id).lease = s.lease := rfl
@[simp, grind =] theorem unlock_phase : (s.unlock id).phase = s.phase := rfl
@[simp, grind =] theorem unlock_allocated : (s.unlock id).allocated = s.allocated := rfl
@[simp, grind =] theorem unlock_containers : (s.unlock id).containers = s.containers := rfl

end

end State

/-! ## Operations -/

/-- The files of an attempt, by name. -/
inductive FileName
  | attempt | automation | prepared | result
  deriving DecidableEq, Repr

def AttemptFiles.remove (files : AttemptFiles) : FileName → AttemptFiles
  | .attempt => { files with attempt := .missing }
  | .automation => { files with automation := .missing }
  | .prepared => { files with prepared := .missing }
  | .result => { files with result := .missing }

/-- A written document, that the reader refuses when it is too large. -/
def written {α : Type} (fits : Bool) (value : α) : Stored α :=
  if fits then .document value else .refused

inductive Operation
  /-- `admit` takes the lease and lists the attempts. -/
  | admitAttempt
  /-- `_reuse_active` reads the selected attempt again. -/
  | reuse
  | makeDirectory (id : String)
  | writeAutomation (metadata : AutomationMetadata)
  | writeAttempt (inputs : Inputs) (image : ImageIdentity) (now : Timestamp)
  /-- An exception of the admission: its directory is removed. -/
  | fail
  | removeFile (name : FileName)
  | removeDirectory
  /-- A task ends, also by an exception. -/
  | leave
  | claim (id : String) (now : Timestamp)
  | resolve (image : ImageIdentity)
  | observe (now : Timestamp)
  | writePrepared (nativeArchitecture : String) (now : Timestamp) (fits : Bool)
  | failPreparation (id : String) (interruption : Interruption) (cleanupUnresolved : Bool)
      (now : Timestamp)
  | complete (id : String) (validation : Lifecycle) (now : Timestamp)
  | failIfActive (id : String) (code : String) (now : Timestamp)
  | cancel (id : String) (code message : String) (now : Timestamp)
  /-- The writes of a section, and the end of a section that could not write. -/
  | writeResult (id : String) (fits : Bool)
  | commit (id : String)
  | abandon (id : String)
  /-- The automation metadata are rewritten. -/
  | upgrade (id : String) (metadata : AutomationMetadata)
  | createContainer (id : String)
  | removeContainer (id : String)

namespace State
variable (runId : String) (s : State)

/-- `admit`, up to the choice between an active attempt and a new one. -/
def admitAttempt : Option State :=
  if s.lease.isSome then none
  else match listAttempts runId s.inventory with
    | .error _ => none
    | .ok attempts =>
        match (attempts.filter (·.status.active)).getLast? with
        | some selected => some { s with lease := some (.reusing selected.id) }
        | none => some { s with lease := some .cleared }

/-- `_reuse_active`: a selected attempt that is still active is the answer, and one that
has ended since makes room. -/
def reuse : Option State :=
  match s.lease with
  | some (.reusing selected) =>
      if (s.sections selected).isSome then none
      else match loadAttempt runId selected (s.files selected) with
        | .error _ => some { s with lease := none }
        | .ok attempt =>
            if attempt.status.active then some { s with lease := none }
            else some { s with lease := some .cleared }
  | _ => none

/-- `root.mkdir` -/
def makeDirectory (id : String) : Option State :=
  match s.lease with
  | some .cleared =>
      if id ∈ s.allocated ∨ id ∈ s.disk ∨ safeName id = false then none
      else some
        { s.write id fun _ => noFiles with
          allocated := id :: s.allocated, lease := some (.admitting id .directory) }
  | _ => none

def writeAutomation (metadata : AutomationMetadata) : Option State :=
  match s.lease with
  | some (.admitting id .directory) =>
      if automationValid metadata then
        some { s.write id fun f => { f with automation := .document metadata } with
          lease := some (.admitting id .automation) }
      else none
  | _ => none

/-- `_save_attempt` of the admission.  An admitted image has no identifier yet. -/
def writeAttempt (inputs : Inputs) (image : ImageIdentity) (now : Timestamp) : Option State :=
  match s.lease with
  | some (.admitting id .automation) =>
      match newAttempt runId id inputs image now with
      | .error _ => none
      | .ok attempt =>
          if image.id.isSome ∨ (s.sections id).isSome then none
          else some { s.write id fun f => { f with attempt := .document attempt } with
            lease := some (.admitting id .admitted) }
  | _ => none

def fail : Option State :=
  match s.lease with
  | some (.admitting id _) => some { s with lease := some (.admitting id .removing) }
  | _ => none

def removeFile (name : FileName) : Option State :=
  match s.lease with
  | some (.admitting id .removing) => some (s.write id (·.remove name))
  | _ => none

/-- `os.rmdir`, which wants an empty directory. -/
def removeDirectory : Option State :=
  match s.lease with
  | some (.admitting id .removing) =>
      match s.files id with
      | ⟨.missing, .missing, .missing, .missing⟩ =>
          some { s with disk := s.disk.erase id, lease := none }
      | _ => none
  | _ => none

/-- The end of a task.  A preparation has no open section of its own then. -/
def leave : Option State :=
  match s.lease with
  | some (.preparing id _ _) =>
      if (s.sections id).any (·.leased) then none else some { s with lease := none }
  | some (.reusing _) | some .cleared | some (.admitting _ _) => some { s with lease := none }
  | some (.settling _) | none => none

/-- A section that a preparation opens. -/
def claim (id : String) (now : Timestamp) : Option State :=
  if s.lease.isSome ∨ (s.sections id).isSome then none
  else match claimAttempt runId id (s.files id) now with
    | .error _ => none
    | .ok attempt =>
        some { s.lock id ⟨none, .ok attempt, true⟩ with lease := some (.preparing id attempt none) }

/-- The image that was provisioned has an exact identifier, as the runtime reports it. -/
def exactImage (image : ImageIdentity) : Bool :=
  image.id.any fun id => isImageId id && lower id = id

def resolve (image : ImageIdentity) : Option State :=
  match s.lease with
  | some (.preparing id attempt none) =>
      if (s.sections id).isSome ∨ attempt.selectedProfile.image.id.isSome ∨ exactImage image = false
        then none
      else match resolveImage (s.files id) attempt.selectedProfile.image image with
        | .error _ => none
        | .ok latest =>
            some { s.lock id ⟨none, .ok latest, true⟩ with lease := some (.preparing id latest none) }
  | _ => none

/-- The inputs were inspected, and are those of the attempt. -/
def observe (now : Timestamp) : Option State :=
  match s.lease with
  | some (.preparing id attempt none) =>
      if (s.sections id).any (·.leased) ∨ attempt.selectedProfile.image.id = none then none
      else some { s with lease := some (.preparing id attempt (some now)) }
  | _ => none

def writePrepared (nativeArchitecture : String) (now : Timestamp) (fits : Bool) : Option State :=
  match s.lease with
  | some (.preparing id attempt (some started)) =>
      match prepareDependencies attempt nativeArchitecture started now with
      | .error _ => none
      | .ok prepared => some (s.write id fun f => { f with prepared := written fits prepared })
  | _ => none

/-- The handler of a preparation runs after the preparation has given the lease back. -/
def prepares (id : String) : Bool :=
  match s.lease with
  | some (.preparing other _ _) => other = id
  | _ => false

/-- A section that holds no lease. -/
def openSection (id : String) : Except Fault (Option Attempt) → Option State
  | .ok (some attempt) =>
      if (s.sections id).isSome then none else some (s.lock id ⟨none, .ok attempt, false⟩)
  | .ok none | .error _ => none

/-- A section that holds the lease too. -/
def settle (id : String) (completion : Completion) : Option State :=
  if s.lease.isSome ∨ (s.sections id).isSome then none
  else some { s.lock id ⟨completion.result, completion.attempt, true⟩ with
    lease := some (.settling id) }

def complete (id : String) (validation : Lifecycle) (now : Timestamp) : Option State :=
  match completeLifecycleAttempt runId id (s.files id) validation now with
  | .error _ => none
  | .ok completion => s.settle id completion

def failIfActive (id : String) (code : String) (now : Timestamp) : Option State :=
  match Validation.failIfActive runId id (s.files id) code now with
  | .ok (some attempt) => s.settle id ⟨none, .ok attempt⟩
  | .ok none | .error _ => none

def writeResult (id : String) (fits : Bool) : Option State :=
  match s.sections id with
  | some ⟨some result, attempt, leased⟩ =>
      some ((s.write id fun f => { f with result := written fits result }).lock id
        ⟨none, attempt, leased⟩)
  | _ => none

/-- The lease after a section: one that settled an attempt gives it back. -/
def leaseAfter (id : String) (leased : Bool) : Option Task :=
  match s.lease with
  | some (.settling other) => if leased ∧ other = id then none else some (.settling other)
  | lease => lease

def commit (id : String) : Option State :=
  match s.sections id with
  | some ⟨none, .ok attempt, leased⟩ =>
      some { (s.write id fun f => { f with attempt := .document attempt }).unlock id with
        lease := s.leaseAfter id leased }
  | _ => none

/-- The end of a section that has raised: a preparation leaves with it. -/
def abandon (id : String) : Option State :=
  match s.sections id with
  | some ⟨_, _, leased⟩ =>
      some { s.unlock id with lease := if leased then none else s.lease }
  | none => none

def upgrade (id : String) (metadata : AutomationMetadata) : Option State :=
  match (s.files id).automation with
  | .document _ =>
      if automationValid metadata then
        some (s.write id fun f => { f with automation := .document metadata })
      else none
  | _ => none

/-- A container is made for an attempt that runs. -/
def createContainer (id : String) : Option State :=
  match readAttempt (s.files id) with
  | .ok attempt =>
      if attempt.status = .running ∨ attempt.status = .cancelling then
        some { s with containers := id :: s.containers }
      else none
  | .error _ => none

/-- What an operation does. -/
def operate : Operation → Option State
  | .admitAttempt => s.admitAttempt runId
  | .reuse => s.reuse runId
  | .makeDirectory id => s.makeDirectory id
  | .writeAutomation metadata => s.writeAutomation metadata
  | .writeAttempt inputs image now => s.writeAttempt runId inputs image now
  | .fail => s.fail
  | .removeFile name => s.removeFile name
  | .removeDirectory => s.removeDirectory
  | .leave => s.leave
  | .claim id now => s.claim runId id now
  | .resolve image => s.resolve image
  | .observe now => s.observe now
  | .writePrepared native now fits => s.writePrepared native now fits
  | .failPreparation id interruption cleanup now =>
      if s.prepares id then none
      else s.openSection id (Validation.failPreparation (s.files id) interruption cleanup now)
  | .complete id validation now => s.complete runId id validation now
  | .failIfActive id code now => s.failIfActive runId id code now
  | .cancel id code message now =>
      s.openSection id (cancelDurable runId id (s.files id) code message now)
  | .writeResult id fits => s.writeResult id fits
  | .commit id => s.commit id
  | .abandon id => s.abandon id
  | .upgrade id metadata => s.upgrade id metadata
  | .createContainer id => s.createContainer id
  | .removeContainer id => some { s with containers := s.containers.erase id }

end State

/-! ## The machine -/

inductive Action
  /-- The process stops, and another one starts. -/
  | stop
  /-- A record of the startup recovery; `persisted` says whether its write succeeds. -/
  | recover (id : String) (absent persisted : Bool) (now : Timestamp)
  | serve
  | operate (operation : Operation)

/-- What a record of the startup recovery leaves. -/
def State.recover (runId : String) (s : State) (id : String) (absent persisted : Bool)
    (now : Timestamp) : State :=
  match recoverAttempt runId id (s.files id) absent now with
  | .ok (some attempt) =>
      if persisted then s.write id fun f => { f with attempt := .document attempt } else s
  | .ok none | .error _ => s

/-- One step of a Run's attempts. -/
def State.step (runId : String) (s : State) : Action → Option State
  | .stop =>
      some { s with lease := none, sections := fun _ => none, phase := .recovering s.disk.keys }
  | .recover id absent persisted now =>
      match s.phase with
      | .recovering left =>
          if id ∈ left then
            some { s.recover runId id absent persisted now with phase := .recovering (left.erase id) }
          else none
      | .serving => none
  | .serve => if s.phase = .recovering [] then some { s with phase := .serving } else none
  | .operate operation => if s.phase = .serving then s.operate runId operation else none

/-- The attempts of one Run, over any number of processes. -/
def attemptLife (runId : String) : Machine State Action := ⟨.empty, State.step runId⟩

end DebBuilder.Validation
