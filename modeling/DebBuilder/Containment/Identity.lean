import Mathlib
import DebBuilder.Containment.Limits
import DebBuilder.Containment.Names
import DebBuilder.Lib.Machine
import DebBuilder.Recipe.Values

/-!
# The identity of an active command

One file in the workspace of a Run has the identity of the command that runs in it.  The
runner, its cancellation and the recovery at startup persist, update and clear it, each
under the lock of the Run, in three steps: the file is read, what was read is compared,
and the file is replaced or removed.

## Main definitions

* `validatedIdentity` — the checks of a record.
* `persistIdentity`, `updateIdentity`, `clearIdentity` — what each makes of the record that it reads.
* `workspace` — the parties, the lock and the file.

## Main statements

* `identity_compare_and_set` — what an operation changes, and what stays of a record.
-/

namespace DebBuilder.Containment
open Lib Json Function

/-! ## Records -/

def identitySchemaVersion : Int := 3

def maxIdentityBytes : Nat := 4096

/-- `BOOT_ID.fullmatch(text)` -/
def isBootId (text : String) : Bool :=
  match text.toList.splitOn '-' with
  | [a, b, c, d, e] => isLowerHex 8 a && isLowerHex 4 b && isLowerHex 4 c && isLowerHex 4 d && isLowerHex 12 e
  | _ => false

/-- `COMMAND_ID.fullmatch(text)` -/
def isCommandId (text : String) : Bool :=
  Recipe.fullMatch Char.isAlphanum (fun c => c.isAlphanum || "._+-".toList.contains c) text && text.length ≤ 128

/-- `debbuilder-command-[0-9a-f]{16}-[0-9a-f]{32}\.service` -/
def isUnitName (text : String) : Bool := (commandUnitComponents text).toOption.isSome

/-- `/system\.slice/debbuilder-command-[0-9a-f]{16}-[0-9a-f]{32}\.service` -/
def isControlGroup (text : String) : Bool :=
  "/system.slice/".toList <+: text.toList && isUnitName (String.ofList (text.toList.drop 14))

/-- `set(fields) == set(keys)` -/
def hasKeys (fields : Fields) (keys : List String) : Bool :=
  fields.all (fun field => keys.contains field.1) && keys.all fun key => (fields.lookup key).isSome

def processGroupFields : List String :=
  ["schema_version", "pid", "pgid", "start_time_ticks", "boot_id", "run_id", "command_id", "backend", "containment_state",
    "resource_limits", "resource_io_targets"]

def systemdStartingFields : List String :=
  ["schema_version", "backend", "boot_id", "run_id", "command_id", "unit_name", "containment_state", "resource_limits",
    "resource_io_targets"]

def systemdActiveRequired : List String := systemdStartingFields ++ ["invocation_id", "control_group"]

/-- `require_safe_name(value, "build run id")` -/
def requireRunId (value : Json) : Except Fault String :=
  match value with
  | .str text => if Recipe.safeName text then .ok text else .error (.value "unsafe build run id")
  | value => .error (if value.truthy then .type "expected string or bytes-like object" else .value "unsafe build run id")

/-- `value in members`, of a set of texts. -/
def inTexts (value : Json) (members : List String) : Except Fault Bool :=
  (Recipe.inSet value members).mapError fun
    | .type message => .type message
    | _ => .other "unreachable"

def identityFault (message : String) : Fault := .commandIdentity message

/-- The fields of a process group. -/
def checkProcessGroup (fields : Fields) : Except Fault Unit := do
  refuse ((get fields "containment_state").equals (.str "active") = false)
    (identityFault "process-group containment state is invalid")
  refuse (((get fields "pid").int?.any (0 < ·)) = false) (identityFault "active command pid is invalid")
  refuse (((get fields "pgid").int?.any (0 < ·)) = false) (identityFault "active command pgid is invalid")
  refuse (((get fields "start_time_ticks").int?.any (0 ≤ ·)) = false)
    (identityFault "active command start time is invalid")

/-- The fields of a systemd unit. -/
def checkSystemd (fields : Fields) : Except Fault Unit := do
  let known ← inTexts (get fields "containment_state") ["starting", "active", "stopping"]
  refuse (known = false) (identityFault "systemd containment state is invalid")
  refuse (((get fields "unit_name").str?.any isUnitName) = false) (identityFault "systemd unit name is invalid")
  if (get fields "containment_state").str? = some "starting" then
    refuse (hasKeys fields systemdStartingFields = false)
      (identityFault "starting systemd containment has invalid fields")
  else do
    refuse (((get fields "invocation_id").str?.any fun text => isLowerHex 32 text.toList) = false)
      (identityFault "systemd invocation ID is invalid")
    refuse (((get fields "control_group").str?.any isControlGroup) = false)
      (identityFault "systemd control group is invalid")

/-- The fields of the backend. -/
def checkBackend (fields : Fields) : Except Fault Unit :=
  if (get fields "backend").str? = some "process_group" then checkProcessGroup fields else checkSystemd fields

/-- The check of `resource_limits`. -/
def checkPolicy (value : Json) : Except Fault Unit := do
  refuse (value.fields? = none) (identityFault
    "active command resource policy is invalid: active command resource policy must be an object")
  let _ ← (Recipe.normalizePolicy value "$.resource_limits").mapError fun
    | .resourceLimit _ message _ => identityFault ("active command resource policy is invalid: " ++ message)
    | _ => .other "unreachable"

/-- The check of `resource_io_targets`. -/
def isIoTargets (value : Json) : Bool :=
  match value with
  | .arr targets => targets.length ≤ 2 && targets.all fun target => target.str?.any fun path => path.toList.head? = some '/'
  | _ => false

/-- The checks of `_validated_identity(value, expected_run_id=expected)`. -/
def checkIdentity (value : Json) (expectedRunId : Option String) : Except Fault Unit := do
  let fields ← demand (identityFault "active command identity has invalid fields") value.fields?
  refuse ((get fields "schema_version").equals (.int identitySchemaVersion) = false)
    (identityFault "active command identity schema is unsupported")
  let backend := get fields "backend"
  refuse ((backend.str? = some "process_group" ∧ hasKeys fields processGroupFields = false) ∨
    (backend.str? = some "systemd_cgroup" ∧ hasKeys fields systemdStartingFields = false ∧
      hasKeys fields systemdActiveRequired = false)) (identityFault "active command identity has invalid fields")
  let known ← inTexts backend ["process_group", "systemd_cgroup"]
  refuse (known = false) (identityFault "active command backend is invalid")
  checkBackend fields
  checkPolicy (get fields "resource_limits")
  refuse (isIoTargets (get fields "resource_io_targets") = false)
    (identityFault "active command I/O targets are invalid")
  refuse (((get fields "boot_id").str?.any isBootId) = false) (identityFault "active command boot ID is invalid")
  let runId ← requireRunId (get fields "run_id")
  let expected ← expectedRunId.mapM fun expected => requireRunId (.str expected)
  refuse (∃ other ∈ expected, runId ≠ other) (identityFault "active command belongs to a different Run")
  refuse (((get fields "command_id").str?.any isCommandId) = false) (identityFault "active command ID is invalid")

/-- `_validated_identity(value, expected_run_id=expected)` -/
def validatedIdentity (value : Json) (expectedRunId : Option String) : Except Fault Json := do
  checkIdentity value expectedRunId
  return value

/-! ## The file -/

/-- `.active-command.json` -/
inductive IdentityFile
  | missing
  /-- JSON, with the number of its bytes -/
  | document (value : Json) (size : Nat)
  /-- a file of another kind, with several links, or not JSON -/
  | unsafeFile
  /-- it cannot be opened -/
  | unreadable (message : String)

/-- `read_persisted_identity(workspace_fd)`: `None` and JSON's `null` are one value. -/
def readPersistedIdentity : IdentityFile → Except Fault Json
  | .missing => .ok .null
  | .document value size =>
      if maxIdentityBytes < size then .error (identityFault "active command metadata is unsafe or oversized") else .ok value
  | .unsafeFile => .error (identityFault "active command metadata is unsafe or oversized")
  | .unreadable message => .error (.os message)

/-- The change that an operation makes in the end. -/
inductive Change
  | write (value : Json)
  | unlink

/-- `persist_identity(workspace_fd, identity)`, up to the write. -/
def persistIdentity (file : IdentityFile) (identity : Json) : Except Fault (Option Change) := do
  let validated ← validatedIdentity identity none
  let current ← readPersistedIdentity file
  match current with
  | .null => return some (.write validated)
  | _ => .error (identityFault "Run already has an active command identity")

/-- `except (CommandIdentityError, OSError, TypeError, ValueError)` -/
def Fault.refused : Fault → Bool
  | .commandIdentity _ | .os _ | .type _ | .value _ => true
  | _ => false

/-- The answer `False` for an exception that is caught. -/
def orFalse (read : Except Fault (Option Change)) : Except Fault (Option Change) :=
  match read with
  | .error fault => if fault.refused then .ok none else .error fault
  | .ok change => .ok change

/-- `expected["run_id"]` -/
def runIdOf (identity : Json) : Option String := (identity.member "run_id").str?

/-- The record that is expected, and the one that is there. -/
def readExpected (file : IdentityFile) (identity : Json) : Except Fault (Json × Json) := do
  let expected ← validatedIdentity identity none
  let persisted ← readPersistedIdentity file
  let current ← validatedIdentity persisted (runIdOf expected)
  return (expected, current)

/-- `clear_identity(workspace_fd, identity)`, up to the removal. -/
def clearIdentity (file : IdentityFile) (identity : Json) : Except Fault (Option Change) :=
  orFalse do
    let (expected, current) ← readExpected file identity
    return if current.equals expected = false then none else some .unlink

/-- The fields that no update may change. -/
def invariantFields : List String := ["backend", "boot_id", "run_id", "command_id", "unit_name"]

/-- `(expected["containment_state"], updated["containment_state"])` is a transition. -/
def transitions : List (String × String) := [("starting", "active"), ("active", "stopping")]

def stateOf (identity : Json) : Option String := (identity.member "containment_state").str?

/-- The record may be replaced by the other one. -/
def mayReplace (expected updated : Json) : Bool :=
  invariantFields.all (fun field => (updated.member field).equals (expected.member field)) &&
    (expected.member "backend").equals (.str "systemd_cgroup") &&
    transitions.any fun transition => stateOf expected = some transition.1 && stateOf updated = some transition.2

/-- `update_identity(workspace_fd, expected, updated)`, up to the write. -/
def updateIdentity (file : IdentityFile) (expected updated : Json) : Except Fault (Option Change) :=
  orFalse do
    let expectedValue ← validatedIdentity expected none
    let updatedValue ← validatedIdentity updated (runIdOf expectedValue)
    let persisted ← readPersistedIdentity file
    let current ← validatedIdentity persisted (runIdOf expectedValue)
    return if current.equals expectedValue = false then none
      else if mayReplace expectedValue updatedValue = false then none
      else some (.write updatedValue)

/-! ## The parties and the lock -/

inductive Operation
  | persist (identity : Json)
  | update (expected updated : Json)
  | clear (identity : Json)

/-- What an operation makes of the file that it has read. -/
def Operation.change (operation : Operation) (seen : IdentityFile) : Except Fault (Option Change) :=
  match operation with
  | persist identity => persistIdentity seen identity
  | update expected updated => updateIdentity seen expected updated
  | clear identity => clearIdentity seen identity

/-- How `write_json`, or `unlink` and `fsync`, go. -/
inductive FileOutcome
  | done
  /-- it raised before the file was replaced or removed -/
  | lost (message : String)
  /-- it raised afterwards, when the directory was synchronised -/
  | late (message : String)
  deriving DecidableEq, Repr

def FileOutcome.isLate : FileOutcome → Bool
  | late _ => true
  | _ => false

section
variable (encodedBytes : Json → Nat)

def Change.applied : Change → IdentityFile
  | write value => .document value (encodedBytes value)
  | unlink => .missing

/-- The result of an operation, where `True` stands for the `None` of `persist_identity`, and the file after it. -/
def Operation.perform (operation : Operation) (outcome : FileOutcome) (seen file : IdentityFile) :
    Except Fault Bool × IdentityFile :=
  match operation.change seen with
  | .error fault => (.error fault, file)
  | .ok none => (.ok false, file)
  | .ok (some change) =>
      match outcome with
      | .done => (.ok true, change.applied encodedBytes)
      | .lost message => (.error (.os message), file)
      | .late message => (.error (.os message), change.applied encodedBytes)

variable (ι : Type) [DecidableEq ι]

/-- Where a party is: without the lock, with it, or with what it has read for an operation. -/
inductive Phase
  | idle
  | holding
  | read (operation : Operation) (seen : IdentityFile)

def Phase.isIdle : Phase → Bool
  | idle => true
  | _ => false

/-- The file, the party that has the lock of the Run, and where each party is. -/
structure Shared where
  file : IdentityFile
  holder : Option ι
  phase : ι → Phase

inductive Action
  | acquire (i : ι)
  | read (i : ι) (operation : Operation)
  | finish (i : ι) (outcome : FileOutcome)
  | release (i : ι)
  /-- The process ends, and its locks with it. -/
  | crash

variable {ι}

/-- One step of a party. -/
def Shared.step (s : Shared ι) : Action ι → Option (Shared ι)
  | .acquire i =>
      if s.holder = none ∧ (s.phase i).isIdle = true then some { s with holder := some i, phase := update s.phase i .holding }
      else none
  | .read i operation =>
      match s.phase i with
      | .holding => some { s with phase := update s.phase i (.read operation s.file) }
      | _ => none
  | .finish i outcome =>
      match s.phase i with
      | .read operation seen => some { s with
          file := (operation.perform encodedBytes outcome seen s.file).2
          phase := update s.phase i .holding }
      | _ => none
  | .release i =>
      match s.phase i with
      | .holding => some { s with holder := none, phase := update s.phase i .idle }
      | _ => none
  | .crash => some { s with holder := none, phase := fun _ => .idle }

/-- A workspace with a file, and nobody at work in it. -/
def workspace (ι : Type) [DecidableEq ι] (file : IdentityFile) : Machine (Shared ι) (Action ι) where
  start := { file, holder := none, phase := fun _ => .idle }
  step := Shared.step encodedBytes

end

/-! ## One operation at a time -/

variable {ι : Type} [DecidableEq ι] {encodedBytes : Json → Nat} {s s' : Shared ι} {file : IdentityFile} {i : ι}

/-- Who is at work has the lock, and what it has read is still there. -/
structure Exclusive (s : Shared ι) : Prop where
  holds : ∀ i, (s.phase i).isIdle = false → s.holder = some i
  current : ∀ i operation seen, s.phase i = .read operation seen → seen = s.file

theorem exclusive_start (file : IdentityFile) : Exclusive (workspace encodedBytes ι file).start where
  holds _ h := nomatch h
  current _ _ _ h := nomatch h

omit [DecidableEq ι] in
/-- Nobody else is at work. -/
theorem Exclusive.isIdle_of_ne {j : ι} (h : Exclusive s) (hi : (s.phase i).isIdle = false) (hne : j ≠ i) :
    (s.phase j).isIdle = true := by
  by_contra hj
  rw [Bool.not_eq_true] at hj
  exact hne (Option.some.inj ((h.holds j hj).symm.trans (h.holds i hi)))

/-- A step of the only party at work. -/
theorem exclusive_alone (hidle : ∀ j ≠ i, (s.phase j).isIdle = true) {phase : Phase} (file : IdentityFile)
    (holder : Option ι) (hholder : phase.isIdle = false → holder = some i)
    (hread : ∀ operation seen, phase = .read operation seen → seen = file) :
    Exclusive { file, holder, phase := update s.phase i phase } where
  holds j hj := by
    rcases eq_or_ne j i with rfl | hne
    · simp only [update_self] at hj
      exact hholder hj
    · simp only [update_of_ne hne, hidle j hne] at hj
      exact nomatch hj
  current j operation seen hj := by
    rcases eq_or_ne j i with rfl | hne
    · simp only [update_self] at hj
      exact hread operation seen hj
    · simp only [update_of_ne hne] at hj
      have hbusy := hidle j hne
      rw [hj] at hbusy
      exact nomatch hbusy

theorem Exclusive.step (h : Exclusive s) {action : Action ι} (hstep : s.step encodedBytes action = some s') : Exclusive s' := by
  cases action with
  | acquire i =>
      simp only [Shared.step] at hstep
      split at hstep
      · rename_i hfree
        rw [Option.some.injEq] at hstep
        subst hstep
        refine exclusive_alone (fun j _ => ?_) s.file (some i) (fun _ => rfl) nofun
        by_contra hj
        rw [Bool.not_eq_true] at hj
        exact nomatch (h.holds j hj).symm.trans hfree.1
      · exact nomatch hstep
  | read i operation =>
      simp only [Shared.step] at hstep
      split at hstep
      · rename_i hphase
        rw [Option.some.injEq] at hstep
        subst hstep
        have hbusy : (s.phase i).isIdle = false := by
          rw [hphase]
          rfl
        exact exclusive_alone (fun j hne => h.isIdle_of_ne hbusy hne) s.file s.holder (fun _ => h.holds i hbusy)
          fun _ _ heq => by cases heq; rfl
      · exact nomatch hstep
  | finish i outcome =>
      simp only [Shared.step] at hstep
      split at hstep
      · rename_i operation seen hphase
        rw [Option.some.injEq] at hstep
        subst hstep
        have hbusy : (s.phase i).isIdle = false := by
          rw [hphase]
          rfl
        exact exclusive_alone (fun j hne => h.isIdle_of_ne hbusy hne) _ s.holder (fun _ => h.holds i hbusy) nofun
      · exact nomatch hstep
  | release i =>
      simp only [Shared.step] at hstep
      split at hstep
      · rename_i hphase
        rw [Option.some.injEq] at hstep
        subst hstep
        have hbusy : (s.phase i).isIdle = false := by
          rw [hphase]
          rfl
        exact exclusive_alone (fun j hne => h.isIdle_of_ne hbusy hne) s.file none nofun nofun
      · exact nomatch hstep
  | crash =>
      simp only [Shared.step, Option.some.injEq] at hstep
      subst hstep
      constructor
      · exact fun _ hbusy => nomatch hbusy
      · exact fun _ _ _ hread => nomatch hread

theorem exclusive_of_reach {ok : Shared ι → Action ι → Prop} (h : (workspace encodedBytes ι file).Reach ok s) : Exclusive s :=
  h.inv (exclusive_start file) fun _ _ _ hs _ hstep => hs.step hstep

/-! ## What an operation changes -/

variable {operation : Operation} {outcome : FileOutcome} {identity expected updated current value : Json} {change : Change}

theorem validatedIdentity_eq_ok {runId : Option String} :
    validatedIdentity value runId = .ok current ↔ checkIdentity value runId = .ok () ∧ value = current := by
  simp only [validatedIdentity, bind_eq_ok, pure_eq_ok]
  exact ⟨fun ⟨_, h⟩ => h, fun h => ⟨(), h⟩⟩

theorem orFalse_eq_some {read : Except Fault (Option Change)} : orFalse read = .ok (some change) ↔ read = .ok (some change) := by
  cases read with
  | ok change => rfl
  | error fault =>
      rw [orFalse]
      cases fault.refused <;> simp

/-- A record is persisted where there is none. -/
theorem persistIdentity_eq_some (h : persistIdentity file identity = .ok (some change)) :
    change = .write identity ∧ readPersistedIdentity file = .ok .null := by
  simp only [persistIdentity, bind_eq_ok, validatedIdentity_eq_ok] at h
  obtain ⟨_, ⟨-, rfl⟩, current, hread, h⟩ := h
  cases current with
  | null =>
      rw [pure_eq_ok, Option.some.injEq] at h
      exact ⟨h.symm, hread⟩
  | bool | int | float | str | arr | obj => exact nomatch h

/-- A record is removed when it is the expected one. -/
theorem clearIdentity_eq_some (h : clearIdentity file identity = .ok (some change)) :
    change = .unlink ∧ ∃ current, readPersistedIdentity file = .ok current ∧ current.equals identity = true := by
  simp only [clearIdentity, orFalse_eq_some, readExpected, bind_eq_ok, pure_eq_ok, validatedIdentity_eq_ok] at h
  obtain ⟨_, ⟨_, ⟨-, rfl⟩, current, hread, _, ⟨-, rfl⟩, rfl⟩, h⟩ := h
  split at h
  · exact nomatch h
  · rename_i hequal
    rw [Option.some.injEq] at h
    exact ⟨h.symm, current, hread, by simpa using hequal⟩

/-- A record is replaced when it is the expected one, and the new one may follow it. -/
theorem updateIdentity_eq_some (h : updateIdentity file expected updated = .ok (some change)) :
    change = .write updated ∧ mayReplace expected updated = true ∧
      ∃ current, readPersistedIdentity file = .ok current ∧ current.equals expected = true ∧
        ∃ runId, checkIdentity current runId = .ok () := by
  simp only [updateIdentity, orFalse_eq_some, bind_eq_ok, pure_eq_ok, validatedIdentity_eq_ok] at h
  obtain ⟨_, ⟨-, rfl⟩, _, ⟨-, rfl⟩, current, hread, _, ⟨hcurrent, rfl⟩, h⟩ := h
  split at h
  · exact nomatch h
  · rename_i hequal
    split at h
    · exact nomatch h
    · rename_i hmay
      rw [Option.some.injEq] at h
      exact ⟨h.symm, by simpa using hmay, current, hread, by simpa using hequal, _, hcurrent⟩

/-! ## Texts of a record -/

variable {a b : Json} {field text : String}

theorem member_of_fields {fields : Fields} (h : value.fields? = some fields) : value.member field = get fields field := by
  cases value with
  | obj members =>
      rw [Option.some.inj h]
      rfl
  | null | bool | int | float | str | arr => exact nomatch h

theorem eq_str_of_inTexts {members : List String} (h : inTexts value members = .ok true) :
    ∃ text ∈ members, value = .str text := by
  cases value with
  | str text =>
      have hmem : decide (text ∈ members) = true := by
        simpa [inTexts, Recipe.inSet, Recipe.hashable, Except.mapError, bind, Except.bind, pure, Except.pure] using h
      exact ⟨text, of_decide_eq_true hmem, rfl⟩
  | null | bool | int | float | arr | obj =>
      simp [inTexts, Recipe.inSet, Recipe.hashable, Except.mapError, bind, Except.bind, pure, Except.pure] at h

theorem eq_str_of_any {p : String → Bool} (h : value.str?.any p = true) : ∃ text, value = .str text := by
  cases value with
  | str text => exact ⟨text, rfl⟩
  | null | bool | int | float | arr | obj => exact nomatch h

theorem eq_str_of_requireRunId {runId : String} (h : requireRunId value = .ok runId) : ∃ text, value = .str text := by
  cases value with
  | str text => exact ⟨text, rfl⟩
  | null | bool | int | float | arr | obj => exact nomatch h

/-- The backend of a valid record is a text. -/
theorem backend_of_checkIdentity {runId : Option String} (h : checkIdentity value runId = .ok ()) :
    ∃ text, value.member "backend" = .str text := by
  simp only [checkIdentity, bind_eq_ok, demand_eq_ok, refuse_eq_ok] at h
  obtain ⟨fields, hfields, _, -, _, -, known, hknown, _, htrue, -⟩ := h
  rw [Bool.not_eq_false] at htrue
  obtain ⟨text, -, heq⟩ := eq_str_of_inTexts (htrue ▸ hknown)
  exact ⟨text, (member_of_fields hfields).trans heq⟩

/-- The fields that identify a systemd unit, and its state, are texts. -/
theorem texts_of_checkIdentity {runId : Option String} (h : checkIdentity value runId = .ok ())
    (hbackend : value.member "backend" = .str "systemd_cgroup") :
    ∀ field ∈ "containment_state" :: invariantFields, ∃ text, value.member field = .str text := by
  simp only [checkIdentity, bind_eq_ok, demand_eq_ok, refuse_eq_ok, Bool.not_eq_false] at h
  obtain ⟨fields, hfields, _, -, _, -, known, -, _, -, _, hchecked, _, -, _, -, _, hboot, run, hrun, _, -, _, -, hcommand⟩ := h
  have hget (field : String) : value.member field = get fields field := member_of_fields hfields
  rw [hget] at hbackend
  rw [checkBackend, hbackend, if_neg (by decide)] at hchecked
  simp only [checkSystemd, bind_eq_ok, refuse_eq_ok, Bool.not_eq_false] at hchecked
  obtain ⟨_, hstate, _, rfl, _, hunit, -⟩ := hchecked
  obtain ⟨state, -, hstate⟩ := eq_str_of_inTexts hstate
  intro field hfield
  rw [hget]
  simp only [invariantFields, List.mem_cons, List.not_mem_nil, or_false] at hfield
  rcases hfield with rfl | rfl | rfl | rfl | rfl | rfl
  · exact ⟨state, hstate⟩
  · exact ⟨_, hbackend⟩
  · exact eq_str_of_any hboot
  · exact eq_str_of_requireRunId hrun
  · exact eq_str_of_any hcommand
  · exact eq_str_of_any hunit

theorem get_eq_of_lookup {fields : Fields} (h : fields.lookup field = some value) : get fields field = value := by
  rw [Json.get, h]
  rfl

theorem get_eq_null {fields : Fields} (h : fields.lookup field = none) : get fields field = .null := by
  rw [Json.get, h]
  rfl

/-- A record that equals another has its texts. -/
theorem member_of_equals (h : a.equals b = true) (hmember : a.member field = .str text) : b.member field = .str text := by
  cases a with
  | obj xs =>
      cases b with
      | obj ys =>
          have hlookup : xs.lookup field = some (.str text) := by
            cases hvalue : xs.lookup field with
            | some value => exact congrArg some ((get_eq_of_lookup hvalue).symm.trans hmember)
            | none => cases (get_eq_null hvalue).symm.trans hmember
          obtain ⟨before, after, hsplit, -⟩ := List.lookup_eq_some_iff.1 hlookup
          obtain ⟨value, hvalue, hequal⟩ := (equals_obj.1 h).2 (field, .str text) (by simp [hsplit])
          exact (get_eq_of_lookup hvalue).trans (equals_str.1 hequal)
      | null | bool | int | float | str | arr => simp [equals] at h
  | null | bool | int | float | str | arr => cases hmember

/-! ## What stays of a record -/

/-- The other record is of the same command, one state later. -/
structure Follows (a b : Json) : Prop where
  same : ∀ field ∈ invariantFields, ∃ text, a.member field = .str text ∧ b.member field = .str text
  moves : ∃ transition ∈ transitions, stateOf a = some transition.1 ∧ stateOf b = some transition.2

/-- What replaces a record follows it. -/
theorem follows_of_mayReplace {runId : Option String}
    (hcurrent : checkIdentity current runId = .ok ()) (hequal : current.equals expected = true)
    (h : mayReplace expected updated = true) : Follows current updated := by
  simp only [mayReplace, Bool.and_eq_true, List.all_eq_true, List.any_eq_true, decide_eq_true_eq] at h
  obtain ⟨⟨hsame, hsystemd⟩, transition, htransition, hfrom, hto⟩ := h
  have hbackend : expected.member "backend" = .str "systemd_cgroup" := eq_str_of_equals hsystemd
  obtain ⟨backend, hcurrentBackend⟩ := backend_of_checkIdentity hcurrent
  have hcurrentSystemd : current.member "backend" = .str "systemd_cgroup" := by
    rw [hcurrentBackend, ← member_of_equals hequal hcurrentBackend, hbackend]
  have htexts := texts_of_checkIdentity hcurrent hcurrentSystemd
  constructor
  · intro field hfield
    obtain ⟨text, htext⟩ := htexts field (List.mem_cons_of_mem _ hfield)
    have hupdated := hsame field hfield
    rw [member_of_equals hequal htext] at hupdated
    exact ⟨text, htext, eq_str_of_equals hupdated⟩
  · obtain ⟨state, hstate⟩ := htexts _ List.mem_cons_self
    refine ⟨transition, htransition, ?_, hto⟩
    rw [stateOf, member_of_equals hequal hstate] at hfrom
    rw [stateOf, hstate]
    exact hfrom

/-- What an operation may leave of a file. -/
inductive Effect (encodedBytes : Json → Nat) (file : IdentityFile) : Operation → IdentityFile → Prop
  | persist {identity : Json} (hread : readPersistedIdentity file = .ok .null) :
      Effect encodedBytes file (.persist identity) (.document identity (encodedBytes identity))
  | update {expected updated current : Json} (hread : readPersistedIdentity file = .ok current)
      (hequal : current.equals expected = true) (hfollows : Follows current updated) :
      Effect encodedBytes file (.update expected updated) (.document updated (encodedBytes updated))
  | clear {identity current : Json} (hread : readPersistedIdentity file = .ok current)
      (hequal : current.equals identity = true) : Effect encodedBytes file (.clear identity) .missing

theorem effect_of_change (h : operation.change file = .ok (some change)) :
    Effect encodedBytes file operation (change.applied encodedBytes) := by
  cases operation with
  | persist identity =>
      obtain ⟨rfl, hread⟩ := persistIdentity_eq_some h
      exact .persist hread
  | update expected updated =>
      obtain ⟨rfl, hmay, current, hread, hequal, runId, hcurrent⟩ := updateIdentity_eq_some h
      exact .update hread hequal (follows_of_mayReplace hcurrent hequal hmay)
  | clear identity =>
      obtain ⟨rfl, current, hread, hequal⟩ := clearIdentity_eq_some h
      exact .clear hread hequal

/-- An operation leaves the file, or it has its effect; it has none when it fails before the last step. -/
theorem perform_spec (operation : Operation) (outcome : FileOutcome) (file : IdentityFile) :
    ((operation.perform encodedBytes outcome file file).2 = file ∨
      Effect encodedBytes file operation (operation.perform encodedBytes outcome file file).2) ∧
    ((operation.perform encodedBytes outcome file file).1 ≠ .ok true → outcome.isLate = false →
      (operation.perform encodedBytes outcome file file).2 = file) := by
  cases hchange : operation.change file with
  | error fault => simp [Operation.perform, hchange]
  | ok selected =>
      cases selected with
      | none => simp [Operation.perform, hchange]
      | some change =>
          have heffect : Effect encodedBytes file operation (change.applied encodedBytes) := effect_of_change hchange
          cases outcome with
          | done => simpa [Operation.perform, hchange] using .inr heffect
          | lost message => simp [Operation.perform, hchange]
          | late message => simpa [Operation.perform, hchange, FileOutcome.isLate] using .inr heffect

/-! ## Runs -/

/-- A step leaves the file or has the effect of one operation. -/
theorem step_effect (h : Exclusive s) {action : Action ι} (hstep : s.step encodedBytes action = some s') :
    s'.file = s.file ∨ ∃ operation, Effect encodedBytes s.file operation s'.file := by
  cases action with
  | finish i outcome =>
      simp only [Shared.step] at hstep
      split at hstep
      · rename_i operation seen hphase
        rw [Option.some.injEq] at hstep
        subst hstep
        obtain rfl := h.current i operation seen hphase
        exact (perform_spec operation outcome s.file).1.imp_right fun heffect => ⟨operation, heffect⟩
      · exact nomatch hstep
  | acquire i | read i operation | release i =>
      simp only [Shared.step] at hstep
      split at hstep
      · rw [Option.some.injEq] at hstep
        exact .inl (hstep ▸ rfl)
      · exact nomatch hstep
  | crash =>
      simp only [Shared.step, Option.some.injEq] at hstep
      exact .inl (hstep ▸ rfl)

/-- A step after which there still is a file. -/
def Keeps (encodedBytes : Json → Nat) (s s' : Shared ι) : Prop :=
  ∃ action, s.step encodedBytes action = some s' ∧ s'.file ≠ .missing

/-- The file has a record. -/
def Records (file : IdentityFile) (value : Json) : Prop := value ≠ .null ∧ ∃ size, file = .document value size

theorem eq_of_readPersistedIdentity (h : Records file value) (hread : readPersistedIdentity file = .ok current) :
    current = value := by
  obtain ⟨-, size, rfl⟩ := h
  rw [readPersistedIdentity] at hread
  split at hread
  · exact nomatch hread
  · exact (Except.ok.inj hread).symm

/-- Each step that keeps a file keeps the record or replaces it by one that follows it. -/
theorem records_step (h : Exclusive s) (hrecords : Records s.file value) (hkeeps : Keeps encodedBytes s s') :
    ∃ value', Records s'.file value' ∧ (value' = value ∨ Follows value value') := by
  obtain ⟨action, hstep, hfile⟩ := hkeeps
  rcases step_effect h hstep with hsame | ⟨operation, heffect⟩
  · exact ⟨value, hsame ▸ hrecords, .inl rfl⟩
  · generalize s'.file = after at heffect hfile
    cases heffect with
    | persist hread => exact absurd (eq_of_readPersistedIdentity hrecords hread).symm hrecords.1
    | clear => exact absurd rfl hfile
    | @update expected updated current hread hequal hfollows =>
        obtain rfl := eq_of_readPersistedIdentity hrecords hread
        refine ⟨updated, ⟨?_, _, rfl⟩, .inr hfollows⟩
        rintro rfl
        obtain ⟨text, -, hmember⟩ := hfollows.same "backend" List.mem_cons_self
        exact nomatch hmember

theorem records_run (h : Exclusive s) (hrecords : Records s.file value)
    (hrun : Relation.ReflTransGen (Keeps encodedBytes) s s') :
    Exclusive s' ∧ ∃ value', Records s'.file value' ∧ Relation.ReflTransGen Follows value value' := by
  induction hrun with
  | refl => exact ⟨h, value, hrecords, .refl⟩
  | tail _ hkeeps ih =>
      obtain ⟨hexclusive, middle, hmiddle, hfollows⟩ := ih
      obtain ⟨last, hlast, hmove⟩ := records_step hexclusive hmiddle hkeeps
      obtain ⟨action, hstep, -⟩ := hkeeps
      refine ⟨hexclusive.step hstep, last, hlast, ?_⟩
      rcases hmove with rfl | hmove
      · exact hfollows
      · exact hfollows.tail hmove

/-- The same command, in the same state or in a later one. -/
def Later (a b : Json) : Prop :=
  a = b ∨ (∀ field ∈ invariantFields, ∃ text, a.member field = .str text ∧ b.member field = .str text) ∧
    ∃ transition ∈ ("starting", "stopping") :: transitions,
      stateOf a = some transition.1 ∧ stateOf b = some transition.2

theorem later_of_follows (h : Relation.ReflTransGen Follows a b) : Later a b := by
  induction h with
  | refl => exact .inl rfl
  | @tail b c _ hfollows ih =>
      obtain ⟨hsame, transition, htransition, hfrom, hto⟩ := hfollows
      rcases ih with rfl | ⟨hbefore, earlier, hearlier, hstart, hmiddle⟩
      · exact .inr ⟨hsame, transition, List.mem_cons_of_mem _ htransition, hfrom, hto⟩
      · refine .inr ⟨fun field hfield => ?_, ("starting", "stopping"), List.mem_cons_self, ?_⟩
        · obtain ⟨text, ha, hb⟩ := hbefore field hfield
          obtain ⟨text', hb', hc⟩ := hsame field hfield
          rw [hb, Json.str.injEq] at hb'
          exact ⟨text, ha, hb' ▸ hc⟩
        · have hstates : earlier.2 = transition.1 := Option.some.inj (hmiddle.symm.trans hfrom)
          simp only [transitions, List.mem_cons, List.not_mem_nil, or_false] at htransition hearlier
          rcases hearlier with rfl | rfl | rfl <;> rcases htransition with rfl | rfl <;> first
            | exact absurd hstates (by decide)
            | exact ⟨hstart, hto⟩

/-- The identity of a command is compared and set under the lock of its Run: an operation changes the file only as its
comparison allows, a failure before the last step leaves the file, and while there is a record it is of one command,
whose state only moves on. -/
theorem identity_compare_and_set {ok : Shared ι → Action ι → Prop} (h : (workspace encodedBytes ι file).Reach ok s) :
    (∀ i outcome operation seen, s.phase i = .read operation seen → ∀ s', s.step encodedBytes (.finish i outcome) = some s' →
      s'.file = (operation.perform encodedBytes outcome s.file s.file).2 ∧
      (s'.file = s.file ∨ Effect encodedBytes s.file operation s'.file) ∧
      ((operation.perform encodedBytes outcome s.file s.file).1 ≠ .ok true → outcome.isLate = false → s'.file = s.file)) ∧
    (∀ action s', s.step encodedBytes action = some s' → s'.file = s.file ∨
      ∃ i outcome operation, action = .finish i outcome ∧ s.phase i = .read operation s.file) ∧
    ∀ value s', Records s.file value → Relation.ReflTransGen (Keeps encodedBytes) s s' →
      ∃ value', Records s'.file value' ∧ Later value value' := by
  have hexclusive := exclusive_of_reach h
  refine ⟨?_, ?_, ?_⟩
  · intro i outcome operation seen hphase s' hstep
    obtain rfl := hexclusive.current i operation seen hphase
    simp only [Shared.step, hphase, Option.some.injEq] at hstep
    subst hstep
    exact ⟨rfl, perform_spec operation outcome s.file⟩
  · intro action s' hstep
    cases action with
    | finish i outcome =>
        cases hphase : s.phase i with
        | read operation seen =>
            obtain rfl := hexclusive.current i operation seen hphase
            exact .inr ⟨i, outcome, operation, rfl, hphase⟩
        | idle | holding => simp [Shared.step, hphase] at hstep
    | acquire i | read i operation | release i =>
        simp only [Shared.step] at hstep
        split at hstep
        · rw [Option.some.injEq] at hstep
          exact .inl (hstep ▸ rfl)
        · exact nomatch hstep
    | crash =>
        simp only [Shared.step, Option.some.injEq] at hstep
        exact .inl (hstep ▸ rfl)
  · intro value s' hrecords hrun
    obtain ⟨-, value', hrecords', hfollows⟩ := records_run hexclusive hrecords hrun
    exact ⟨value', hrecords', later_of_follows hfollows⟩

/-- The identity of a process group. -/
def processIdentity : Json :=
  .obj [("schema_version", .int 3), ("backend", .str "process_group"), ("containment_state", .str "active"), ("pid", .int 42),
    ("pgid", .int 42), ("start_time_ticks", .int 7), ("boot_id", .str "00000000-0000-0000-0000-000000000000"),
    ("run_id", .str "r1"), ("command_id", .str "c1"), ("resource_limits", .obj []), ("resource_io_targets", .arr [])]

theorem checkIdentity_processIdentity : checkIdentity processIdentity none = .ok () := by
  rfl

theorem perform_processIdentity (outcome : FileOutcome) :
    (Operation.persist processIdentity).perform (fun _ => 0) outcome .missing .missing =
      match outcome with
      | .done => (.ok true, .document processIdentity 0)
      | .lost message => (.error (.os message), .missing)
      | .late message => (.error (.os message), .document processIdentity 0) := by
  have hchange : (Operation.persist processIdentity).change .missing = .ok (some (.write processIdentity)) := by
    simp only [Operation.change, persistIdentity, bind_eq_ok, validatedIdentity_eq_ok]
    exact ⟨_, ⟨checkIdentity_processIdentity, rfl⟩, .null, rfl, rfl⟩
  cases outcome <;> simp [Operation.perform, hchange, Change.applied]

theorem identity_compare_and_set_persisted : ∃ s : Shared Bool, Records s.file processIdentity ∧
    ∀ s', Relation.ReflTransGen (Keeps fun _ => 0) s s' → ∃ value', Records s'.file value' ∧ Later processIdentity value' := by
  let begun : Shared Bool :=
    ⟨.missing, some true, update (update (fun _ => .idle) true .holding) true (.read (.persist processIdentity) .missing)⟩
  have hbegun : (workspace (fun _ => 0) Bool .missing).Reach (fun _ _ => True) begun :=
    .step (.read true (.persist processIdentity)) (.step (.acquire true) .start trivial rfl) trivial rfl
  have hreach : (workspace (fun _ => 0) Bool .missing).Reach (fun _ _ => True)
      ⟨.document processIdentity 0, some true, update begun.phase true .holding⟩ := by
    refine .step (.finish true .done) hbegun trivial ?_
    have hstep : begun.step (fun _ => 0) (.finish true .done) = some
        ⟨((Operation.persist processIdentity).perform (fun _ => 0) .done .missing .missing).2, some true,
          update begun.phase true .holding⟩ := rfl
    rwa [perform_processIdentity] at hstep
  have hrecords : Records (.document processIdentity 0) processIdentity := ⟨nofun, 0, rfl⟩
  exact ⟨_, hrecords, fun s' => (identity_compare_and_set hreach).2.2 processIdentity s' hrecords⟩

/-- A failure of the last step comes after the change. -/
theorem late_failure_changes : ¬ ∀ (encodedBytes : Json → Nat) (operation : Operation) (outcome : FileOutcome) (file : IdentityFile),
    (operation.perform encodedBytes outcome file file).1 ≠ .ok true →
      (operation.perform encodedBytes outcome file file).2 = file := by
  intro hall
  have hsame := hall (fun _ => 0) (.persist processIdentity) (.late "fsync") .missing
  rw [perform_processIdentity] at hsame
  exact nomatch hsame nofun

end DebBuilder.Containment
