import Mathlib
import DebBuilder.Lib.Script
import DebBuilder.Publishing.Repository

/-!
# The removal of a published package

`removePublishedPackage` asks the database, runs the removal command, and asks the database
and the exported indexes again.  The command changes the repository as it likes and then
reports what it likes; only the second look decides what the call says.

## Main definitions

* `Conduct` — what the world makes of one call.
* `removePublishedPackage` — the call.
* `Gone` — what a removal is to achieve.

## Main results

* `removePublishedPackage_eq_ok` — a call that returns has seen no version any more.
* `removePublishedPackage_proves_iff` — when the call proves what it reports.
-/

namespace DebBuilder.Publishing
open Lib

/-! ## The call -/

/-- What the world makes of one call: the outcome of taking the lease, of the two listings,
and of the command.  A command that cannot be run raises a text. -/
structure Conduct where
  lease : Except Raised Unit
  listBefore : String → Repository → Except String CommandResult
  /-- The command leaves a repository however it ends; `none` is a result that is no dictionary. -/
  remove : Repository → Except String (Option CommandResult) × Repository
  listAfter : String → Repository → Except String CommandResult
  now : String

/-- What `remove_published_package` returns. -/
structure RemovedPackage where
  package : String
  distribution : String
  component : String
  removedVersions : List String
  verifiedAt : String
  deriving DecidableEq, Repr

/-- `_database_query` -/
def databaseQuery (answer : Except String CommandResult) : Except Raised (List DatabaseRow) := do
  let result ← answer.mapError Raised.other
  refuse (result.status ≠ "success") (.publication ⟨"repository_query_failed",
    if result.stderr = "" then "Unable to query reprepro" else result.stderr, .none⟩)
  pure (parseListing result.stdout)

/-- A row of the package in the component. -/
def DatabaseRow.IsOf (codename component package : String) (row : DatabaseRow) : Prop :=
  row.distribution = codename ∧ row.component = component ∧ row.package = package

instance {codename component package : String} : DecidablePred (DatabaseRow.IsOf codename component package) :=
  fun _ => instDecidableAnd

/-- What the call does under the lease before it runs the command. -/
def prepareRemoval (world : Conduct) (package distribution component : String) (repository : Repository) :
    Except Raised (DistributionConfig × List DatabaseRow) := do
  world.lease
  let config ← repositoryConfig repository distribution
  let path ← safeRelativePath component none
  refuse (asPosix path ≠ component ∨ component ∉ config.components) (.publication
    ⟨"component_not_configured", s!"Component {Text.quoted component} is not configured", .none⟩)
  let database ← databaseQuery (world.listBefore config.codename repository)
  let before := database.filter (DatabaseRow.IsOf config.codename component package)
  refuse (before = []) (.publication ⟨"package_removal_proof_failed",
    "The live APT index reports this package, but reprepro does not own it", .none⟩)
  pure (config, before)

/-- The architectures whose index is read back. -/
def DistributionConfig.binaryArchitectures (config : DistributionConfig) : List String :=
  config.architectures.filter fun architecture => architecture ≠ "all" ∧ architecture ≠ "source"

/-- The versions that an index still lists: `Packages` is read where there is no `Packages.gz`. -/
def remainingVersions (package : String) (index : ExportedIndex) : Except Raised (List String) := do
  match ← indexRows index.compressed with
  | some rows => pure (versionsOf package rows)
  | none =>
      match ← indexRows index.plain with
      | some rows => pure (versionsOf package rows)
      | none => pure []

/-- What is left of the package after the command. -/
structure Remains where
  database : List DatabaseRow
  index : List (String × List String)
  deriving DecidableEq, Repr

def recoveryRequired (message : String) (details : ErrorDetails) : Raised :=
  .publication ⟨"package_removal_recovery_required", message, details⟩

/-- The second look at the database and the indexes. -/
def readBack (world : Conduct) (config : DistributionConfig) (component package : String)
    (repository : Repository) : Except Raised Remains := do
  let database ← databaseQuery (world.listAfter config.codename repository)
  let index ← config.binaryArchitectures.mapM fun architecture => do
    let versions ← remainingVersions package (repository.index config.codename component architecture)
    pure (architecture, versions)
  pure {
    database := database.filter (DatabaseRow.IsOf config.codename component package)
    index := (index.filter fun entry => entry.2 ≠ []).eraseDups }

/-- `except PublicationError as exc` around the second look. -/
def unproven : Raised → Raised
  | .publication e => recoveryRequired
      "Repository mutation completed but its final state could not be proven" (.cause e.code)
  | e => e

/-- What the call makes of the command's result and of the remains. -/
def judgeRemoval (world : Conduct) (config : DistributionConfig) (component package : String)
    (before : List DatabaseRow) (command : CommandResult) (remains : Remains) : Except Raised RemovedPackage := do
  let details := ErrorDetails.remaining remains.database.length remains.index
  refuse (command.status ≠ "success") (.publication
    ⟨if remains.database = [] then "package_removal_recovery_required" else "reprepro_remove_failed",
      if command.stderr = "" then "reprepro could not remove the package" else command.stderr, details⟩)
  refuse (remains.database ≠ [] ∨ remains.index ≠ []) (recoveryRequired
    "Package removal could not be proven across reprepro and exported APT indexes" details)
  pure {
    package := package
    distribution := config.codename
    component := component
    removedVersions := (before.map (·.version)).dedup.insertionSort (· ≤ ·)
    verifiedAt := world.now }

/-- The body of the call, under the lease. -/
def removeUnderLease (world : Conduct) (package distribution component : String) :
    Script Repository Raised RemovedPackage := do
  let repository ← Script.get
  let (config, before) ← Script.ofExcept (prepareRemoval world package distribution component repository)
  let answer := world.remove repository
  Script.update fun _ => answer.2
  let command ← Script.ofExcept (answer.1.mapError fun _ => recoveryRequired
    "The reprepro removal outcome is unknown and requires reconciliation" .none)
  let command ← Script.ofExcept (demand (recoveryRequired
    "The reprepro removal outcome is missing its command result" .none) command)
  let repository ← Script.get
  let remains ← Script.ofExcept ((readBack world config component package repository).mapError unproven)
  Script.ofExcept (judgeRemoval world config component package before command remains)

/-- `remove_published_package` -/
def removePublishedPackage (world : Conduct) (package distribution component : String) :
    Script Repository Raised RemovedPackage :=
  if isPackageName package then
    Script.handle (removeUnderLease world package distribution component) fun
      | .repositoryLock e => Script.raise (.publication e)
      | e => Script.raise e
  else Script.raise (.publication ⟨"invalid_package_id", "Package identity is invalid", .none⟩)

/-! ## What a removal is to achieve -/

/-- The database owns the package. -/
def Repository.Owns (repository : Repository) (codename component package : String) : Prop :=
  ∃ row ∈ repository.database, row.IsOf codename component package

/-- A file lists a version of the package. -/
def File.Lists (package : String) (file : File) : Prop :=
  ∃ rows, indexRows file = .ok (some rows) ∧ versionsOf package rows ≠ []

/-- Neither the database nor an exported index holds a version of the package. -/
structure Repository.Gone (repository : Repository) (config : DistributionConfig) (component package : String) :
    Prop where
  database : ¬ repository.Owns config.codename component package
  index : ∀ architecture ∈ config.binaryArchitectures,
    ¬ (repository.index config.codename component architecture).compressed.Lists package ∧
    ¬ (repository.index config.codename component architecture).plain.Lists package

/-! ## Reading an index back -/

/-- A compressed stream that ends early or is damaged. -/
def File.Broken (file : File) : Prop :=
  file = .regular (.error .eof) ∨ file = .regular (.error .zlib)

/-- The file that is read for the index can be read. -/
def ExportedIndex.Readable (index : ExportedIndex) : Prop :=
  (∃ rows, indexRows index.compressed = .ok (some rows)) ∨
    index.compressed = .missing ∧ ∃ rows, indexRows index.plain = .ok rows

theorem indexRows_eq_none {file : File} : indexRows file = .ok none ↔ file = .missing := by
  rcases file with _ | _ | ⟨e | payload⟩
  · simp [indexRows]
  · simp [indexRows]
  · cases e <;> simp [indexRows]
  · cases payload with
    | text s => cases h : parsePackagesIndex s <;> simp [indexRows, h]
    | _ => simp [indexRows]

/-- What a file that cannot be read raises. -/
theorem indexRows_eq_error {file : File} {e : Raised} (h : indexRows file = .error e) :
    (∃ error, e = .publication error) ∨ (e = .eof ∨ e = .zlib) ∧ file.Broken := by
  rcases file with _ | _ | ⟨e' | payload⟩
  · simp [indexRows] at h
  · exact .inl ⟨_, (Except.error.inj h).symm⟩
  · cases e' with
    | os => exact .inl ⟨_, (Except.error.inj h).symm⟩
    | eof => exact .inr ⟨.inl (Except.error.inj h).symm, .inl rfl⟩
    | zlib => exact .inr ⟨.inr (Except.error.inj h).symm, .inr rfl⟩
  · cases payload with
    | text s =>
        cases hs : parsePackagesIndex s with
        | ok rows => simp [indexRows, hs] at h
        | error e' =>
            simp only [indexRows, hs] at h
            exact .inl ⟨_, (Except.error.inj h).symm⟩
    | _ => exact .inl ⟨_, (Except.error.inj h).symm⟩

theorem indexRows_of_broken {file : File} (h : file.Broken) : ∃ e, indexRows file = .error e ∧ (e = .eof ∨ e = .zlib) := by
  rcases h with rfl | rfl
  · exact ⟨.eof, rfl, .inl rfl⟩
  · exact ⟨.zlib, rfl, .inr rfl⟩

section
variable {package : String} {index : ExportedIndex}

/-- The plain file of an index is no broken stream. -/
theorem ExportedIndex.not_broken_plain : ¬ index.plain.Broken := by
  rintro (h | h)
  · exact absurd (index.plain_error _ h) (by simp)
  · exact absurd (index.plain_error _ h) (by simp)

theorem exists_remainingVersions : (∃ versions, remainingVersions package index = .ok versions) ↔ index.Readable := by
  constructor
  · rintro ⟨versions, h⟩
    obtain ⟨found, hc, h⟩ := bind_eq_ok.1 h
    cases found with
    | some rows => exact .inl ⟨rows, hc⟩
    | none =>
        obtain ⟨rows, hp, -⟩ := bind_eq_ok.1 h
        exact .inr ⟨indexRows_eq_none.1 hc, rows, hp⟩
  · rintro (⟨rows, hc⟩ | ⟨hc, rows, hp⟩)
    · exact ⟨_, bind_eq_ok.2 ⟨some rows, hc, rfl⟩⟩
    · refine ⟨(rows.map (versionsOf package)).getD [], bind_eq_ok.2 ⟨none, indexRows_eq_none.2 hc, ?_⟩⟩
      refine bind_eq_ok.2 ⟨rows, hp, ?_⟩
      cases rows <;> rfl

theorem remainingVersions_eq_error {e : Raised} (h : remainingVersions package index = .error e) :
    (∃ error, e = .publication error) ∨ (e = .eof ∨ e = .zlib) ∧ index.compressed.Broken := by
  rcases bind_eq_error.1 h with h | ⟨found, -, h⟩
  · exact indexRows_eq_error h
  · cases found with
    | some rows => exact (pure_eq_error.1 h).elim
    | none =>
        rcases bind_eq_error.1 h with h | ⟨rows, -, h⟩
        · rcases indexRows_eq_error h with h | ⟨-, h⟩
          · exact .inl h
          · exact absurd h index.not_broken_plain
        · cases rows <;> exact (pure_eq_error.1 h).elim

/-- A version is left, and then the file that is read lists it. -/
theorem lists_of_remainingVersions {versions : List String} (h : remainingVersions package index = .ok versions)
    (hne : versions ≠ []) :
    index.compressed.Lists package ∨ index.compressed = .missing ∧ index.plain.Lists package := by
  obtain ⟨found, hc, h⟩ := bind_eq_ok.1 h
  cases found with
  | some rows => exact .inl ⟨rows, hc, by rwa [pure_eq_ok.1 h]⟩
  | none =>
      obtain ⟨found, hp, h⟩ := bind_eq_ok.1 h
      cases found with
      | some rows => exact .inr ⟨indexRows_eq_none.1 hc, rows, hp, by rwa [pure_eq_ok.1 h]⟩
      | none => exact absurd (pure_eq_ok.1 h).symm hne

/-- The file that is read for the index can be read, and lists no version of the package. -/
structure ExportedIndex.Clear (index : ExportedIndex) (package : String) : Prop where
  readable : index.Readable
  compressed : ¬ index.compressed.Lists package
  plain : index.compressed = .missing → ¬ index.plain.Lists package

theorem remainingVersions_eq_nil : remainingVersions package index = .ok [] ↔ index.Clear package := by
  constructor
  · intro h
    have hreadable := exists_remainingVersions.1 ⟨_, h⟩
    obtain ⟨found, hc, h⟩ := bind_eq_ok.1 h
    cases found with
    | some rows =>
        have hnil : versionsOf package rows = [] := pure_eq_ok.1 h
        refine ⟨hreadable, ?_, fun hmissing => ?_⟩
        · rintro ⟨rows', hrows', hne⟩
          obtain rfl : rows = rows' := by simpa [hc] using hrows'
          exact hne hnil
        · rw [indexRows_eq_none.2 hmissing] at hc
          cases hc
    | none =>
        obtain ⟨found, hp, h⟩ := bind_eq_ok.1 h
        refine ⟨hreadable, ?_, ?_⟩
        · rintro ⟨rows', hrows', -⟩
          rw [hc] at hrows'
          cases hrows'
        · rintro - ⟨rows', hrows', hne⟩
          obtain rfl : found = some rows' := by simpa [hp] using hrows'
          exact hne (pure_eq_ok.1 h)
  · intro h
    obtain ⟨versions, hversions⟩ := exists_remainingVersions.2 h.readable
    by_cases hne : versions = []
    · rw [hversions, hne]
    · rcases lists_of_remainingVersions hversions hne with hlists | ⟨hmissing, hlists⟩
      · exact absurd hlists h.compressed
      · exact absurd hlists (h.plain hmissing)

end

/-! ## How a call ends -/

section
variable (world : Conduct) (package distribution component : String) (repository : Repository)

/-- The call comes to the removal command. -/
structure ReachesCommand (config : DistributionConfig) : Prop where
  name : isPackageName package = true
  lease : world.lease = .ok ()
  configuration : repositoryConfig repository distribution = .ok config
  path : ∃ path, safeRelativePath component none = .ok path ∧ asPosix path = component
  configured : component ∈ config.components
  listed : ∃ result, world.listBefore config.codename repository = .ok result ∧ result.status = "success" ∧
    ∃ row ∈ parseListing result.stdout, row.IsOf config.codename component package

/-- The listings tell what the database owns of the package when they succeed. -/
structure Conduct.ListsDatabase : Prop where
  before : ∀ codename result, world.listBefore codename repository = .ok result → result.status = "success" →
    ∀ row, row.IsOf codename component package → (row ∈ parseListing result.stdout ↔ row ∈ repository.database)
  after : ∀ codename result, world.listAfter codename (world.remove repository).2 = .ok result →
    result.status = "success" → ∀ row, row.IsOf codename component package →
    (row ∈ parseListing result.stdout ↔ row ∈ (world.remove repository).2.database)

/-- What is proved of one call: it returns only when nothing is left, and it raises
`package_removal_recovery_required` when the database gave the package up and it did not return. -/
structure ProvesRemoval : Prop where
  gone : ∀ removed after, removePublishedPackage world package distribution component repository = (.ok removed, after) →
    ∃ config, repositoryConfig repository distribution = .ok config ∧ after.Gone config component package
  recovery : ∀ config e after, repositoryConfig repository distribution = .ok config →
    removePublishedPackage world package distribution component repository = (.error e, after) →
    repository.Owns config.codename component package → ¬ after.Owns config.codename component package →
    ∃ message details, e = recoveryRequired message details

end

section
variable {world : Conduct} {package distribution component : String} {repository : Repository}
variable {config : DistributionConfig}

theorem databaseQuery_eq_ok {answer : Except String CommandResult} {rows : List DatabaseRow} :
    databaseQuery answer = .ok rows ↔
      ∃ result, answer = .ok result ∧ result.status = "success" ∧ parseListing result.stdout = rows := by
  simp only [databaseQuery, bind_eq_ok, mapError_eq_ok, refuse_eq_ok, pure_eq_ok, not_not, exists_and_left,
    exists_const]

/-- What a query that fails raises. -/
theorem databaseQuery_eq_error {answer : Except String CommandResult} {e : Raised}
    (h : databaseQuery answer = .error e) :
    (∃ error, e = .publication error) ∨ ∃ message, answer = .error message ∧ e = .other message := by
  rcases bind_eq_error.1 h with h | ⟨result, -, h⟩
  · obtain ⟨message, hanswer, rfl⟩ := mapError_eq_error.1 h
    exact .inr ⟨message, hanswer, rfl⟩
  · rcases bind_eq_error.1 h with h | ⟨_, -, h⟩
    · exact .inl ⟨_, (refuse_eq_error.1 h).2.symm⟩
    · exact (pure_eq_error.1 h).elim

/-- What the call has passed when it runs the command. -/
theorem prepareRemoval_eq_ok {before : List DatabaseRow} :
    isPackageName package = true ∧ prepareRemoval world package distribution component repository = .ok (config, before) →
      ReachesCommand world package distribution component repository config := by
  rintro ⟨hname, h⟩
  simp only [prepareRemoval, bind_eq_ok, refuse_eq_ok, pure_eq_ok, databaseQuery_eq_ok] at h
  obtain ⟨⟨⟩, hlease, config', hconfig, path, hpath, -, hcomponent, -, ⟨result, hresult, hsuccess, rfl⟩, -, hbefore,
    hpair⟩ := h
  obtain ⟨rfl, rfl⟩ := Prod.mk.inj hpair
  rw [not_or, not_not, not_not] at hcomponent
  obtain ⟨row, hrow⟩ := List.exists_mem_of_ne_nil _ hbefore
  have hmem := List.mem_filter.1 hrow
  exact ⟨hname, hlease, hconfig, ⟨path, hpath, hcomponent.1⟩, hcomponent.2,
    result, hresult, hsuccess, row, hmem.1, of_decide_eq_true hmem.2⟩

theorem ReachesCommand.prepareRemoval (h : ReachesCommand world package distribution component repository config) :
    ∃ before, prepareRemoval world package distribution component repository = .ok (config, before) := by
  obtain ⟨path, hpath, hposix⟩ := h.path
  obtain ⟨result, hresult, hsuccess, row, hrow, hof⟩ := h.listed
  refine ⟨(parseListing result.stdout).filter (DatabaseRow.IsOf config.codename component package), ?_⟩
  simp only [Publishing.prepareRemoval, bind_eq_ok, refuse_eq_ok, pure_eq_ok, databaseQuery_eq_ok]
  refine ⟨(), h.lease, config, h.configuration, path, hpath, (), ?_, _, ⟨result, hresult, hsuccess, rfl⟩, (), ?_, rfl⟩
  · exact fun hor => hor.elim (fun hne => hne hposix) fun hno => hno h.configured
  · exact List.ne_nil_of_mem (List.mem_filter.2 ⟨hrow, decide_eq_true hof⟩)

/-- `except RepositoryLockError as exc` around the body. -/
def lockErrors : Raised → Raised
  | .repositoryLock e => .publication e
  | e => e

/-- A call that does not come to the command raises, and changes nothing. -/
theorem removePublishedPackage_of_not_reaches
    (h : ∀ config, ¬ ReachesCommand world package distribution component repository config) :
    ∃ e, removePublishedPackage world package distribution component repository = (.error e, repository) := by
  by_cases hname : isPackageName package = true
  · cases hp : prepareRemoval world package distribution component repository with
    | ok found => exact absurd (prepareRemoval_eq_ok ⟨hname, hp⟩) (h found.1)
    | error e =>
        refine ⟨lockErrors e, ?_⟩
        rw [removePublishedPackage, if_pos hname, Script.handle]
        have hrun : removeUnderLease world package distribution component repository = (.error e, repository) := by
          simp [removeUnderLease, Bind.bind, Script.bind, Script.get, Script.ofExcept, hp]
        rw [hrun]
        cases e <;> rfl
  · exact ⟨_, by rw [removePublishedPackage, if_neg hname]; rfl⟩

/-- What the call makes of the command's answer. -/
def answered (world : Conduct) (config : DistributionConfig) (component package : String) (before : List DatabaseRow)
    (repository : Repository) : Except String (Option CommandResult) → Except Raised RemovedPackage
  | .error _ => .error (recoveryRequired
      "The reprepro removal outcome is unknown and requires reconciliation" .none)
  | .ok none => .error (recoveryRequired
      "The reprepro removal outcome is missing its command result" .none)
  | .ok (some command) => do
      let remains ← (readBack world config component package repository).mapError unproven
      judgeRemoval world config component package before command remains

/-- A call that comes to the command ends as its second look says. -/
theorem ReachesCommand.removePublishedPackage
    (h : ReachesCommand world package distribution component repository config) :
    ∃ before, removePublishedPackage world package distribution component repository =
      ((answered world config component package before (world.remove repository).2 (world.remove repository).1).mapError
        lockErrors, (world.remove repository).2) := by
  obtain ⟨before, hprepare⟩ := h.prepareRemoval
  refine ⟨before, ?_⟩
  have hrun : removeUnderLease world package distribution component repository =
      (answered world config component package before (world.remove repository).2 (world.remove repository).1,
        (world.remove repository).2) := by
    rcases hremove : world.remove repository with ⟨e | ⟨_ | command⟩, after⟩
    · simp [removeUnderLease, Bind.bind, Script.bind, Script.get, Script.ofExcept, Script.update, hprepare, hremove,
        answered, Except.mapError]
    · simp [removeUnderLease, Bind.bind, Script.bind, Script.get, Script.ofExcept, Script.update, hprepare, hremove,
        answered, Except.mapError, demand]
    · simp only [removeUnderLease, Bind.bind, Script.bind, Script.get, Script.ofExcept, Script.update, hprepare,
        hremove, answered, Except.mapError, demand]
      cases readBack world config component package after <;> rfl
  rw [Publishing.removePublishedPackage, if_pos h.name, Script.handle, hrun]
  rcases answered world config component package before (world.remove repository).2 (world.remove repository).1 with e | removed
  · cases e <;> rfl
  · rfl

end

/-- The call comes to its end: the command and the second look succeed, and nothing that the second
look reads is left of the package. -/
structure RemovalSucceeds (world : Conduct) (package distribution component : String) (repository : Repository)
    (config : DistributionConfig) (after : Repository) : Prop where
  reaches : ReachesCommand world package distribution component repository config
  command : ∃ command, world.remove repository = (.ok (some command), after) ∧ command.status = "success"
  listing : ∃ result, world.listAfter config.codename after = .ok result ∧ result.status = "success"
  database : ¬ after.Owns config.codename component package
  index : ∀ a ∈ config.binaryArchitectures, (after.index config.codename component a).Clear package

/-- What the second look does not account for, with a command that ended in a result and a
database that gave the package up. -/
inductive Overlooks (world : Conduct) (config : DistributionConfig) (component package : String)
    (command : CommandResult) (after : Repository) : Prop
  /-- The second listing cannot be run. -/
  | listing (message : String) (h : world.listAfter config.codename after = .error message)
  /-- The first index that cannot be read is a broken compressed stream. -/
  | stream (result : CommandResult) (h : world.listAfter config.codename after = .ok result)
      (success : result.status = "success") (earlier : List String) (architecture : String) (later : List String)
      (split : config.binaryArchitectures = earlier ++ architecture :: later)
      (readable : ∀ a ∈ earlier, (after.index config.codename component a).Readable)
      (broken : (after.index config.codename component architecture).compressed.Broken)
  /-- All that is read is clear of the package, and a `Packages` beside a `Packages.gz` lists it. -/
  | shadowed (result : CommandResult) (h : world.listAfter config.codename after = .ok result)
      (success : result.status = "success") (command_success : command.status = "success")
      (clear : ∀ a ∈ config.binaryArchitectures, (after.index config.codename component a).Clear package)
      (architecture : String) (configured : architecture ∈ config.binaryArchitectures)
      (lists : (after.index config.codename component architecture).plain.Lists package)

section
variable {world : Conduct} {package distribution component : String} {repository after : Repository}
variable {config : DistributionConfig} {before : List DatabaseRow} {command : CommandResult} {remains : Remains}

theorem Conduct.ListsDatabase.after_of_remove (h : world.ListsDatabase package component repository)
    {answer : Except String (Option CommandResult)} {codename : String} {result : CommandResult}
    (hremove : world.remove repository = (answer, after)) (hresult : world.listAfter codename after = .ok result)
    (hsuccess : result.status = "success") :
    ∀ row, row.IsOf codename component package → (row ∈ parseListing result.stdout ↔ row ∈ after.database) := by
  have hafter := h.after codename result
  rw [hremove] at hafter
  exact hafter hresult hsuccess

/-- What the second look has read when it succeeds. -/
theorem readBack_eq_ok :
    readBack world config component package after = .ok remains ↔
      ∃ result, world.listAfter config.codename after = .ok result ∧ result.status = "success" ∧
        ∃ index, config.binaryArchitectures.mapM (fun architecture => do
            let versions ← remainingVersions package (after.index config.codename component architecture)
            pure (architecture, versions)) = .ok index ∧
          remains = {
            database := (parseListing result.stdout).filter (DatabaseRow.IsOf config.codename component package)
            index := (index.filter fun entry => entry.2 ≠ []).eraseDups } := by
  constructor
  · intro h
    obtain ⟨database, hquery, h⟩ := bind_eq_ok.1 h
    obtain ⟨result, hresult, hsuccess, rfl⟩ := databaseQuery_eq_ok.1 hquery
    obtain ⟨index, hindex, h⟩ := bind_eq_ok.1 h
    exact ⟨result, hresult, hsuccess, index, hindex, (pure_eq_ok.1 h).symm⟩
  · rintro ⟨result, hresult, hsuccess, index, hindex, rfl⟩
    refine bind_eq_ok.2 ⟨_, databaseQuery_eq_ok.2 ⟨result, hresult, hsuccess, rfl⟩, ?_⟩
    exact bind_eq_ok.2 ⟨index, hindex, rfl⟩

/-- The rest of the database is empty exactly when it gave the package up. -/
theorem filter_eq_nil_iff_not_owns {rows : List DatabaseRow} {codename : String}
    (h : ∀ row, row.IsOf codename component package → (row ∈ rows ↔ row ∈ after.database)) :
    rows.filter (DatabaseRow.IsOf codename component package) = [] ↔ ¬ after.Owns codename component package := by
  rw [List.filter_eq_nil_iff]
  constructor
  · rintro hall ⟨row, hrow, hof⟩
    exact hall row ((h row hof).2 hrow) (decide_eq_true hof)
  · intro hno row hrow hof
    have hof := of_decide_eq_true hof
    exact hno ⟨row, (h row hof).1 hrow, hof⟩

/-- No version was found in an index exactly when none is left. -/
theorem forall_remainingVersions_nil {index : List (String × List String)}
    (h : config.binaryArchitectures.mapM (fun architecture => do
      let versions ← remainingVersions package (after.index config.codename component architecture)
      pure (architecture, versions)) = .ok index) (hnil : (index.filter fun entry => entry.2 ≠ []).eraseDups = []) :
    ∀ architecture ∈ config.binaryArchitectures,
      remainingVersions package (after.index config.codename component architecture) = .ok [] := by
  intro architecture harch
  obtain ⟨entry, hentry⟩ := exists_mapM_eq_ok.1 ⟨index, h⟩ architecture harch
  obtain ⟨versions, hversions, heq⟩ := bind_eq_ok.1 hentry
  have hmem : entry ∈ index := (mem_of_mapM_eq_ok h).2 ⟨architecture, harch, hentry⟩
  have hempty : versions = [] := by
    by_contra hne
    have : entry ∈ (index.filter fun entry => entry.2 ≠ []).eraseDups := by
      rw [List.mem_eraseDups, List.mem_filter]
      exact ⟨hmem, decide_eq_true (by rwa [← pure_eq_ok.1 heq])⟩
    rw [hnil] at this
    exact absurd this List.not_mem_nil
  rw [hversions, hempty]

/-- The second look at clear indexes. -/
theorem mapM_remainingVersions_of_clear {architectures : List String} {index : String → ExportedIndex}
    (h : ∀ architecture ∈ architectures, (index architecture).Clear package) :
    architectures.mapM (fun architecture => do
      let versions ← remainingVersions package (index architecture)
      pure (architecture, versions)) = .ok (architectures.map fun architecture => (architecture, [])) := by
  refine mapM_eq_ok.2 (List.forall₂_map_right_iff.2 (List.forall₂_same.2 fun architecture harch => ?_))
  exact bind_eq_ok.2 ⟨[], remainingVersions_eq_nil.2 (h architecture harch), rfl⟩

/-- A second look that fails for another reason than a `PublicationError` overlooks something,
and no handler makes a `PublicationError` of it. -/
theorem readBack_eq_error {e : Raised} (h : readBack world config component package after = .error e) :
    (∃ error, e = .publication error) ∨
      (∀ error, lockErrors (unproven e) ≠ .publication error) ∧
        Overlooks world config component package command after := by
  rcases bind_eq_error.1 h with h | ⟨database, hquery, h⟩
  · rcases databaseQuery_eq_error h with h | ⟨message, hmessage, rfl⟩
    · exact .inl h
    · exact .inr ⟨by simp [unproven, lockErrors], .listing message hmessage⟩
  · obtain ⟨result, hresult, hsuccess, -⟩ := databaseQuery_eq_ok.1 hquery
    rcases bind_eq_error.1 h with h | ⟨_, -, h⟩
    · obtain ⟨earlier, architecture, later, hsplit, hearlier, harch⟩ := mapM_eq_error.1 h
      have hread : remainingVersions package (after.index config.codename component architecture) = .error e := by
        rcases bind_eq_error.1 harch with harch | ⟨_, -, harch⟩
        · exact harch
        · exact (pure_eq_error.1 harch).elim
      rcases remainingVersions_eq_error hread with h | ⟨hclass, hbroken⟩
      · exact .inl h
      · refine .inr ⟨?_, .stream result hresult hsuccess earlier architecture later hsplit (fun a ha => ?_) hbroken⟩
        · rcases hclass with rfl | rfl <;> simp [unproven, lockErrors]
        obtain ⟨entry, hentry⟩ := hearlier a ha
        obtain ⟨versions, hversions, -⟩ := bind_eq_ok.1 hentry
        exact exists_remainingVersions.1 ⟨versions, hversions⟩
    · exact (pure_eq_error.1 h).elim

theorem judgeRemoval_eq_ok {removed : RemovedPackage}
    (h : judgeRemoval world config component package before command remains = .ok removed) :
    command.status = "success" ∧ remains.database = [] ∧ remains.index = [] := by
  obtain ⟨_, hstatus, h⟩ := bind_eq_ok.1 h
  obtain ⟨_, hempty, -⟩ := bind_eq_ok.1 h
  rw [refuse_eq_ok, not_not] at hstatus
  rw [refuse_eq_ok, not_or, not_not, not_not] at hempty
  exact ⟨hstatus, hempty⟩

theorem judgeRemoval_of_clear (h : command.status = "success") :
    ∃ removed, judgeRemoval world config component package before command ⟨[], []⟩ = .ok removed :=
  ⟨_, bind_eq_ok.2 ⟨(), refuse_eq_ok.2 (not_not.2 h), bind_eq_ok.2 ⟨(), refuse_eq_ok.2 (by simp), rfl⟩⟩⟩

/-- The two codes of a removal that is not proved. -/
theorem judgeRemoval_code {e : Raised} (h : judgeRemoval world config component package before command remains = .error e) :
    ∃ error, e = .publication error ∧
      (error.code = "package_removal_recovery_required" ∨ error.code = "reprepro_remove_failed") := by
  rcases bind_eq_error.1 h with h | ⟨_, -, h⟩
  · refine ⟨_, (refuse_eq_error.1 h).2.symm, ?_⟩
    dsimp only
    split
    · exact .inl rfl
    · exact .inr rfl
  · rcases bind_eq_error.1 h with h | ⟨_, -, h⟩
    · exact ⟨_, (refuse_eq_error.1 h).2.symm, .inl rfl⟩
    · exact (pure_eq_error.1 h).elim

/-- A removal that is not proved asks for recovery, when the database gave the package up. -/
theorem judgeRemoval_eq_error {e : Raised} (h : judgeRemoval world config component package before command remains = .error e)
    (hempty : remains.database = []) : ∃ message details, e = recoveryRequired message details := by
  rcases bind_eq_error.1 h with h | ⟨_, -, h⟩
  · rw [refuse_eq_error, if_pos hempty] at h
    exact ⟨_, _, h.2.symm⟩
  · rcases bind_eq_error.1 h with h | ⟨_, -, h⟩
    · exact ⟨_, _, (refuse_eq_error.1 h).2.symm⟩
    · exact (pure_eq_error.1 h).elim

/-- **A call that returns** has run the command, and has seen no version after it. -/
theorem removePublishedPackage_eq_ok {removed : RemovedPackage}
    (h : removePublishedPackage world package distribution component repository = (.ok removed, after)) :
    ∃ config command remains, ReachesCommand world package distribution component repository config ∧
      world.remove repository = (.ok (some command), after) ∧
      readBack world config component package after = .ok remains ∧
      command.status = "success" ∧ remains.database = [] ∧ remains.index = [] := by
  by_cases hreach : ∃ config, ReachesCommand world package distribution component repository config
  · obtain ⟨config, hreach⟩ := hreach
    obtain ⟨before, hrun⟩ := hreach.removePublishedPackage
    obtain ⟨hanswer, hafter⟩ := Prod.mk.inj (hrun.symm.trans h)
    rw [mapError_eq_ok] at hanswer
    rcases hremove : world.remove repository with ⟨e | ⟨_ | command⟩, after'⟩
    · simp [hremove, answered] at hanswer
    · simp [hremove, answered] at hanswer
    · obtain rfl : after' = after := by rw [← hafter, hremove]
      simp only [hremove, answered, bind_eq_ok, mapError_eq_ok] at hanswer
      obtain ⟨remains, hback, hjudge⟩ := hanswer
      exact ⟨config, command, remains, hreach, rfl, hback, judgeRemoval_eq_ok hjudge⟩
  · obtain ⟨e, he⟩ := removePublishedPackage_of_not_reaches (not_exists.1 hreach)
    rw [he] at h
    cases h

/-- **When a call returns.** -/
theorem removePublishedPackage_returns_iff (hlists : world.ListsDatabase package component repository) :
    (∃ removed, removePublishedPackage world package distribution component repository = (.ok removed, after)) ↔
      ∃ config, RemovalSucceeds world package distribution component repository config after := by
  constructor
  · rintro ⟨removed, hrun⟩
    obtain ⟨config, command, remains, hreach, hremove, hback, hsuccess, hdatabase, hindex⟩ :=
      removePublishedPackage_eq_ok hrun
    obtain ⟨result, hresult, hlisted, index, hmap, rfl⟩ := readBack_eq_ok.1 hback
    have howns := (filter_eq_nil_iff_not_owns (hlists.after_of_remove hremove hresult hlisted)).1 hdatabase
    exact ⟨config, hreach, ⟨command, hremove, hsuccess⟩, ⟨result, hresult, hlisted⟩, howns,
      fun a ha => remainingVersions_eq_nil.1 (forall_remainingVersions_nil hmap hindex a ha)⟩
  · rintro ⟨config, h⟩
    obtain ⟨command, hremove, hcommand⟩ := h.command
    obtain ⟨result, hresult, hsuccess⟩ := h.listing
    obtain ⟨before, hrun⟩ := h.reaches.removePublishedPackage
    rw [hremove] at hrun
    have hback : readBack world config component package after = .ok ⟨[], []⟩ := by
      refine readBack_eq_ok.2 ⟨result, hresult, hsuccess, _, mapM_remainingVersions_of_clear h.index, ?_⟩
      rw [(filter_eq_nil_iff_not_owns (hlists.after_of_remove hremove hresult hsuccess)).2 h.database]
      simp [List.filter_map, Function.comp_def]
    obtain ⟨removed, hjudge⟩ : ∃ removed, judgeRemoval world config component package before command ⟨[], []⟩ =
        .ok removed := judgeRemoval_of_clear hcommand
    refine ⟨removed, hrun.trans (Prod.ext (mapError_eq_ok.2 ?_) rfl)⟩
    exact bind_eq_ok.2 ⟨⟨[], []⟩, mapError_eq_ok.2 hback, hjudge⟩

/-- **A call that raises** a `PublicationError` has not run the command, or says so. -/
theorem removePublishedPackage_eq_error {e : PublicationError}
    (h : removePublishedPackage world package distribution component repository = (.error (.publication e), after)) :
    after = repository ∨ e.code = "package_removal_recovery_required" ∨ e.code = "reprepro_remove_failed" := by
  by_cases hreach : ∃ config, ReachesCommand world package distribution component repository config
  · refine .inr ?_
    obtain ⟨config, hreach⟩ := hreach
    obtain ⟨before, hrun⟩ := hreach.removePublishedPackage
    obtain ⟨hanswer, -⟩ := Prod.mk.inj (hrun.symm.trans h)
    obtain ⟨e', hraised, heq⟩ := mapError_eq_error.1 hanswer
    rcases hremove : world.remove repository with ⟨e'' | ⟨_ | command⟩, after'⟩
    · simp only [hremove, answered, Except.error.injEq] at hraised
      subst hraised
      exact .inl (by rw [← Raised.publication.inj heq])
    · simp only [hremove, answered, Except.error.injEq] at hraised
      subst hraised
      exact .inl (by rw [← Raised.publication.inj heq])
    · simp only [hremove, answered] at hraised
      rcases bind_eq_error.1 hraised with hback | ⟨remains, -, hjudge⟩
      · obtain ⟨e'', hread, rfl⟩ := mapError_eq_error.1 hback
        have hfails : (∃ error, e'' = .publication error) ∨
            (∀ error, lockErrors (unproven e'') ≠ .publication error) ∧
              Overlooks world config component package command after' := readBack_eq_error hread
        rcases hfails with ⟨error, rfl⟩ | ⟨hother, -⟩
        · exact .inl (by rw [← Raised.publication.inj heq])
        · exact absurd heq (hother e)
      · obtain ⟨error, rfl, hcode⟩ := judgeRemoval_code hjudge
        rwa [← Raised.publication.inj heq]
  · obtain ⟨e', he'⟩ := removePublishedPackage_of_not_reaches (not_exists.1 hreach)
    exact .inl (Prod.mk.inj (he'.symm.trans h)).2.symm

/-- What a call overlooks breaks its proof. -/
theorem not_provesRemoval_of_overlooks (hlists : world.ListsDatabase package component repository)
    (hreach : ReachesCommand world package distribution component repository config)
    (hremove : world.remove repository = (.ok (some command), after))
    (hgone : ¬ after.Owns config.codename component package)
    (h : Overlooks world config component package command after) :
    ¬ ProvesRemoval world package distribution component repository := by
  intro hproves
  obtain ⟨before, hrun⟩ := hreach.removePublishedPackage
  rw [hremove] at hrun
  have howned : repository.Owns config.codename component package := by
    obtain ⟨result, hresult, hsuccess, row, hrow, hof⟩ := hreach.listed
    exact ⟨row, (hlists.before _ _ hresult hsuccess row hof).1 hrow, hof⟩
  -- an exception of another class passes every handler
  have hpasses : ∀ e, readBack world config component package after = .error e → unproven e = e → lockErrors e = e →
      ∃ message details, e = recoveryRequired message details := by
    intro e hback hunproven hlock
    refine hproves.recovery config e after hreach.configuration ?_ howned hgone
    rw [hrun]
    simp [answered, hback, Except.mapError, bind, Except.bind, hunproven, hlock]
  cases h with
  | listing message hmessage =>
      have hback : readBack world config component package after = .error (.other message) := by
        simp [readBack, databaseQuery, hmessage, Except.mapError, bind, Except.bind]
      obtain ⟨_, _, heq⟩ := hpasses _ hback rfl rfl
      cases heq
  | stream result hresult hsuccess earlier architecture later hsplit hreadable hbroken =>
      obtain ⟨e, he, hclass⟩ := indexRows_of_broken hbroken
      have hback : readBack world config component package after = .error e := by
        refine bind_eq_error.2 (.inr ⟨_, databaseQuery_eq_ok.2 ⟨result, hresult, hsuccess, rfl⟩, ?_⟩)
        refine bind_eq_error.2 (.inl (mapM_eq_error.2 ⟨earlier, architecture, later, hsplit, fun a ha => ?_, ?_⟩))
        · obtain ⟨versions, hversions⟩ : ∃ versions, remainingVersions package _ = .ok versions :=
            exists_remainingVersions.2 (hreadable a ha)
          exact ⟨_, bind_eq_ok.2 ⟨versions, hversions, rfl⟩⟩
        · exact bind_eq_error.2 (.inl (bind_eq_error.2 (.inl he)))
      rcases hclass with rfl | rfl
      · obtain ⟨_, _, heq⟩ := hpasses _ hback rfl rfl
        cases heq
      · obtain ⟨_, _, heq⟩ := hpasses _ hback rfl rfl
        cases heq
  | shadowed result hresult hsuccess hcommand hclear architecture harch hplain =>
      obtain ⟨removed, hremoved⟩ := (removePublishedPackage_returns_iff hlists).2
        ⟨config, hreach, ⟨command, hremove, hcommand⟩, ⟨result, hresult, hsuccess⟩, hgone, hclear⟩
      obtain ⟨config', hconfig', hgone'⟩ := hproves.gone removed after hremoved
      obtain rfl : config = config' := by simpa [hreach.configuration] using hconfig'
      exact (hgone'.index architecture harch).2 hplain

/-- **When the removal proves what it reports.**  A call returns only when neither the database
nor an exported index holds a version of the package, and asks for recovery whenever the
database gave the package up and it does not return, exactly when the second look
overlooks nothing. -/
theorem removePublishedPackage_proves_iff (hlists : world.ListsDatabase package component repository) :
    ProvesRemoval world package distribution component repository ↔
      ∀ config command after, ReachesCommand world package distribution component repository config →
        world.remove repository = (.ok (some command), after) →
        ¬ after.Owns config.codename component package →
        ¬ Overlooks world config component package command after := by
  constructor
  · intro hproves config command after hreach hremove hgone hoverlooks
    exact not_provesRemoval_of_overlooks hlists hreach hremove hgone hoverlooks hproves
  intro h
  constructor
  · intro removed after hrun
    obtain ⟨config, hsucceeds⟩ := (removePublishedPackage_returns_iff hlists).1 ⟨removed, hrun⟩
    obtain ⟨command, hremove, hcommand⟩ := hsucceeds.command
    obtain ⟨result, hresult, hlisted⟩ := hsucceeds.listing
    refine ⟨config, hsucceeds.reaches.configuration, hsucceeds.database,
      fun a ha => ⟨(hsucceeds.index a ha).compressed, fun hplain => ?_⟩⟩
    exact h config command after hsucceeds.reaches hremove hsucceeds.database
      (.shadowed result hresult hlisted hcommand hsucceeds.index a ha hplain)
  · intro config e after hconfig hrun howned hgone
    by_cases hreach : ∃ config, ReachesCommand world package distribution component repository config
    · obtain ⟨config', hreach⟩ := hreach
      obtain rfl : config' = config := by simpa [hreach.configuration] using hconfig
      obtain ⟨before, hrun'⟩ := hreach.removePublishedPackage
      obtain ⟨hanswer, hafter⟩ := Prod.mk.inj (hrun'.symm.trans hrun)
      obtain ⟨e', hraised, rfl⟩ := mapError_eq_error.1 hanswer
      rcases hremove : world.remove repository with ⟨e'' | ⟨_ | command⟩, after'⟩
      · simp only [hremove, answered, Except.error.injEq] at hraised
        subst hraised
        exact ⟨_, _, rfl⟩
      · simp only [hremove, answered, Except.error.injEq] at hraised
        subst hraised
        exact ⟨_, _, rfl⟩
      · obtain rfl : after' = after := by rw [← hafter, hremove]
        simp only [hremove, answered] at hraised
        rcases bind_eq_error.1 hraised with hback | ⟨remains, hback, hjudge⟩
        · obtain ⟨e'', hread, rfl⟩ := mapError_eq_error.1 hback
          rcases readBack_eq_error hread with ⟨error, rfl⟩ | ⟨-, hoverlooks⟩
          · exact ⟨_, _, rfl⟩
          · exact absurd hoverlooks (h _ command _ hreach hremove hgone)
        · obtain ⟨result, hresult, hlisted, index, hmap, rfl⟩ := readBack_eq_ok.1 (mapError_eq_ok.1 hback)
          have hnil := (filter_eq_nil_iff_not_owns (hlists.after_of_remove hremove hresult hlisted)).2 hgone
          obtain ⟨message, details, rfl⟩ := judgeRemoval_eq_error hjudge hnil
          exact ⟨message, details, rfl⟩
    · obtain ⟨e', he'⟩ := removePublishedPackage_of_not_reaches (not_exists.1 hreach)
      obtain ⟨-, rfl⟩ := Prod.mk.inj (he'.symm.trans hrun)
      exact absurd howned hgone

end

/-! ## A sample -/

/-- The index of a compressed file alone. -/
def indexOf (compressed : File) : ExportedIndex := ⟨compressed, .missing, by simp⟩

/-- A repository that publishes one version for one architecture. -/
def sampleRepository : Repository where
  distributions := .regular (.ok (.text "Suite: stable\nCodename: bookworm\nArchitectures: amd64\nComponents: main\n"))
  options := .missing
  directories := ["conf", "db", "dists", "pool", "lists", "logs", "morgue"]
  database := [⟨"bookworm", "main", "amd64", "demo", "2.0-1"⟩]
  index _ _ _ := indexOf (.regular (.ok (.text "Package: demo\nVersion: 2.0-1\nArchitecture: amd64\n")))

/-- A removal that succeeds and leaves `left` as `Packages.gz`. -/
def sampleConduct (left : File) : Conduct where
  lease := .ok ()
  listBefore _ _ := .ok ⟨"success", "bookworm|main|amd64: demo 2.0-1\n", ""⟩
  remove repository := (.ok (some ⟨"success", "", ""⟩),
    { repository with
      database := []
      index := fun _ _ _ => indexOf left })
  listAfter _ _ := .ok ⟨"success", "", ""⟩
  now := "2026-01-01T00:00:00Z"

theorem sampleConduct_listsDatabase (left : File) {package component : String} :
    (sampleConduct left).ListsDatabase package component sampleRepository := by
  constructor
  · intro codename result hresult _ row _
    obtain rfl := Except.ok.inj hresult
    rw [show parseListing "bookworm|main|amd64: demo 2.0-1\n" = sampleRepository.database by decide +kernel]
  · intro codename result hresult _ row _
    obtain rfl := Except.ok.inj hresult
    rw [show parseListing "" = [] by decide +kernel]
    exact Iff.rfl

theorem sample_reachesCommand (left : File) : ∃ config,
    ReachesCommand (sampleConduct left) "demo" "bookworm" "main" sampleRepository config ∧
      config.codename = "bookworm" ∧ config.binaryArchitectures = ["amd64"] := by
  refine ⟨⟨"stable", "bookworm", ["amd64"], ["main"], []⟩, ⟨?_, rfl, ?_, ⟨["main"], ?_, ?_⟩, ?_, _, rfl, rfl,
    ⟨"bookworm", "main", "amd64", "demo", "2.0-1"⟩, ?_, ?_⟩, rfl, ?_⟩
  all_goals decide +kernel

/-- A removal whose index is written cleanly is proved. -/
theorem sample_provesRemoval :
    ProvesRemoval (sampleConduct (.regular (.ok (.text "")))) "demo" "bookworm" "main" sampleRepository := by
  refine (removePublishedPackage_proves_iff (sampleConduct_listsDatabase _)).2 ?_
  intro config command after _ hremove _ hoverlooks
  obtain ⟨-, rfl⟩ := Prod.mk.inj hremove
  cases hoverlooks with
  | listing message h => cases h
  | stream _ _ _ _ _ _ _ _ broken => simp [File.Broken, indexOf] at broken
  | shadowed _ _ _ _ _ _ _ lists => simp [File.Lists, indexRows, indexOf] at lists

/-- The command has removed the package and left a `Packages.gz` that ends early: the call
raises `EOFError`. -/
theorem sample_not_provesRemoval :
    (sampleConduct (.regular (.error .eof))).ListsDatabase "demo" "main" sampleRepository ∧
      ¬ ProvesRemoval (sampleConduct (.regular (.error .eof))) "demo" "bookworm" "main" sampleRepository := by
  have hlists : (sampleConduct (.regular (.error .eof))).ListsDatabase "demo" "main" sampleRepository :=
    sampleConduct_listsDatabase _
  obtain ⟨config, hreach, hcodename, harchitectures⟩ := sample_reachesCommand (.regular (.error .eof))
  refine ⟨hlists, not_provesRemoval_of_overlooks hlists hreach rfl ?_ ?_⟩
  · rintro ⟨row, hrow, -⟩
    exact absurd hrow List.not_mem_nil
  · exact .stream _ rfl rfl [] "amd64" [] harchitectures (by simp) (.inl rfl)

end DebBuilder.Publishing
