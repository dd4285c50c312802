import Mathlib
import DebBuilder.Lib.Json
import DebBuilder.Publishing.Removal

/-!
# The retirement of a package

`delete_package` writes a pending marker to the override of the package, removes the package
from the repository when the live index lists it, and writes the retirement.  Whether a
removal is needed is read from the exported index of one architecture; an index that cannot
be read counts as empty.

## Main definitions

* `Surroundings`, `packageView`, `livePublishedIndex` — what the call reads.
* `Catalog`, `Call`, `deletePackage` — the call and the state it changes.
-/

namespace DebBuilder.Publishing
open Lib

/-! ## What the call reads -/

/-- `normalized_package_name` -/
def normalizedPackageName (value : String) : String := String.ofList (Text.lower (Text.strip value.toList))

/-- `repo_settings()` -/
structure AptSettings where
  distribution : String
  component : String
  architecture : String
  deriving DecidableEq, Repr

/-- An entry of `recipe_records_by_package`, which has the normalized name as its key: ambiguous
Recipes have no id. -/
structure RecipeRecord where
  name : String
  id : String
  deriving DecidableEq, Repr

/-- A Run that is in the history, under its normalized package name. -/
structure RunRow where
  id : String
  package : String
  createdAt : String
  isBuild : Bool
  succeeded : Bool
  hasArtifact : Bool
  isActive : Bool
  deriving DecidableEq, Repr

/-- What a call finds around it: the settings, the Recipes, the Runs, the order of Debian
versions, and which index files the live reader refuses because they change under it or
exceed its bounds. -/
structure Surroundings where
  settings : AptSettings
  recipes : List RecipeRecord
  /-- In the order of `summarize_runs`, the latest first. -/
  runs : List RunRow
  newer : String → String → Bool
  refusesRoot : Bool
  refusesCompressed : Bool
  refusesPlain : Bool

/-- The payload of an index file, decompressed, decoded and parsed. -/
def decodeIndex : Except ReadError Payload → Except Raised (Option (List IndexRow))
  | .error .os | .error .eof | .ok .tooLarge | .ok .notUtf8 => .ok none
  -- `_bounded_gzip_decompress` does not catch it
  | .error .zlib => .error .zlib
  | .ok (.text s) =>
      match parsePackagesIndex s with
      | .error _ => .ok none
      | .ok rows =>
          if Text.strip s.toList ≠ [] ∧ rows = [] then .ok none
          else if rows.any fun row => ["Package", "Version", "Architecture"].any fun field =>
              (row.lookup field).getD "" = "" then .ok none
          else .ok (some rows)

/-- `local_packages_index` -/
def localPackagesIndex (around : Surroundings) (repository : Repository) : Except Raised (Option (List IndexRow)) :=
  let settings := around.settings
  let base := s!"dists/{settings.distribution}/{settings.component}/binary-{settings.architecture}"
  match safeRelativePath base (some "dists") with
  | .error _ => .ok none
  | .ok _ =>
      if around.refusesRoot then .ok none
      else
        let index := repository.index settings.distribution settings.component settings.architecture
        match index.compressed with
        | .blocked => .ok none
        | .regular content => if around.refusesCompressed then .ok none else decodeIndex content
        | .missing =>
            match index.plain with
            | .blocked | .missing => .ok none
            | .regular content => if around.refusesPlain then .ok none else decodeIndex content

/-- `live_published_index` -/
def livePublishedIndex (around : Surroundings) (repository : Repository) : Except Raised (List IndexRow) :=
  (·.getD []) <$> localPackagesIndex around repository

/-- The override rows of `packages.json`, by name. -/
abbrev Overrides := Dict String Json.Fields

/-- The override rows of a package, in the order of their names. -/
def overrideRows (overrides : Overrides) (key : String) : List (String × Json.Fields) :=
  ((Dict.items overrides).filter fun row => normalizedPackageName row.1 = key).insertionSort fun a b => a.1 ≤ b.1

/-- The parts of a package projection that the call reads. -/
structure PackageView where
  name : String
  hasRecipe : Bool
  /-- `build.active_run_id` -/
  activeRun : String
  deriving DecidableEq, Repr

/-- The newer of a row of the package and the one known. -/
def newerRow (newer : String → String → Bool) (key : String) (known : Option IndexRow) (row : IndexRow) :
    Option IndexRow :=
  if normalizedPackageName ((row.lookup "Package").getD "") = key then
    match known with
    | none => some row
    | some other => if newer ((row.lookup "Version").getD "") ((other.lookup "Version").getD "") then some row else known
  else known

/-- The newest live row of a package. -/
def liveRow (newer : String → String → Bool) (key : String) (rows : List IndexRow) : Option IndexRow :=
  rows.foldl (newerRow newer key) none

/-- The override that counts: the last that is no retirement. -/
def overrideRow (overrides : Overrides) (key : String) : Option (String × Json.Fields) :=
  ((overrideRows overrides key).filter fun row => !(Json.get row.2 "deleted").truthy).getLast?

def retirementRow (overrides : Overrides) (key : String) : Option (String × Json.Fields) :=
  ((overrideRows overrides key).filter fun row => (Json.get row.2 "deleted").truthy).getLast?

def runsOf (around : Surroundings) (key : String) : List RunRow := around.runs.filter fun run => run.package = key

/-- The Runs after the retirement of the package. -/
def laterRuns (around : Surroundings) (overrides : Overrides) (key : String) : List RunRow :=
  match retirementRow overrides key with
  | none => []
  | some row =>
      let removedAt := (Json.get row.2 "removed_at").text
      if removedAt = "" then [] else (runsOf around key).filter fun run => removedAt < run.createdAt

def isRebuilt (runs : List RunRow) : Bool := runs.any fun run => run.isBuild && run.succeeded && run.hasArtifact

def recipeRecord (around : Surroundings) (key : String) : Option RecipeRecord :=
  around.recipes.find? fun record => normalizedPackageName record.name = key

/-- The name that a package is shown under. -/
def packageName (around : Surroundings) (overrides : Overrides) (live : List IndexRow) (key : String) : Option String :=
  match overrideRow overrides key, liveRow around.newer key live, recipeRecord around key with
  | some row, _, _ => some row.1
  | none, some row, _ => some ((row.lookup "Package").getD "")
  | none, none, some record => some record.name
  | none, none, none => if runsOf around key = [] then none else some key

/-- The entry of `list_packages` under a key. -/
def packageView (around : Surroundings) (overrides : Overrides) (live : List IndexRow) (key : String) :
    Option PackageView :=
  let retired := (retirementRow overrides key).isSome
  let later := laterRuns around overrides key
  if retired && (liveRow around.newer key live).isNone && !isRebuilt later then none
  else
    let runs := if retired && isRebuilt later then later else runsOf around key
    (packageName around overrides live key).map fun name => {
      name
      hasRecipe := match recipeRecord around key, overrideRow overrides key with
        | some record, _ => record.id ≠ ""
        | none, some row => (Json.get row.2 "recipe").truthy
        | none, none => false
      activeRun := ((runs.find? fun run => run.isBuild && run.isActive).map (·.id)).getD "" }

/-! ## The call -/

/-- The state that the call changes. -/
structure Catalog where
  repository : Repository
  overrides : Overrides

/-- How a write of `packages.json` ends: an `OSError` comes before the file is replaced, or
after it. -/
inductive Write
  | done | lost | late
  deriving DecidableEq, Repr

/-- What the world makes of one call. -/
structure Call where
  around : Surroundings
  conduct : Conduct
  beginWrite : Write
  restoreWrite : Write
  markWrite : Write
  requestedAt : String
  removedAt : String

/-- `save_overrides` -/
def saveOverrides (write : Write) (overrides : Overrides) : Script Catalog Raised Unit := do
  let failed : Raised := .os "packages.json could not be written"
  match write with
  | .lost => Script.raise failed
  | .done => Script.update fun s => { s with overrides }
  | .late => do
      Script.update fun s => { s with overrides }
      Script.raise failed

/-- `SAFE_NAME` -/
def isSafeName (value : String) : Bool :=
  value ≠ "" && value.toList.all fun c => isAlnum c || c ∈ ['_', '.', '+', '-']

def requireSafeName (value what : String) : Except Raised Unit := refuse (!isSafeName value) (.value s!"unsafe {what}")

/-- The override row with a pending marker. -/
def pendingRow (name requestedAt : String) (previous : Option Json.Fields) : Json.Fields :=
  Json.put (Json.put (previous.getD [("name", .str name)]) "name" (.str name)) "removal"
    (.obj [("status", .str "pending"), ("requested_at", .str requestedAt)])

/-- `begin_removal` -/
def beginRemoval (write : Write) (now name : String) : Script Catalog Raised (Option Json.Fields) := do
  Script.ofExcept (requireSafeName name "package")
  let s ← Script.get
  let previous := s.overrides.lookup name
  saveOverrides write (s.overrides.insert name (pendingRow name now previous))
  pure previous

/-- `restore_after_failed_removal` -/
def restoreAfterFailedRemoval (write : Write) (name : String) (previous : Option Json.Fields) :
    Script Catalog Raised Unit := do
  Script.ofExcept (requireSafeName name "package")
  let s ← Script.get
  saveOverrides write (match previous with
    | none => s.overrides.erase name
    | some row => s.overrides.insert name row)

/-- The record of a removal in an override. -/
def removalDocument (removed : RemovedPackage) : Json :=
  .obj [("package", .str removed.package), ("distribution", .str removed.distribution),
    ("component", .str removed.component), ("removed_versions", .arr (removed.removedVersions.map .str)),
    ("verified_at", .str removed.verifiedAt)]

/-- The override row of a retired package. -/
def retiredRow (name now : String) (pending : Json.Fields) (removed : Option RemovedPackage) : Json.Fields :=
  let requestedAt := Json.member (Json.get pending "removal") "requested_at"
  [("name", .str name), ("deleted", .bool true), ("removed_at", .str now),
    ("removal", .obj [("status", .str "success"),
      ("requested_at", if requestedAt.truthy then requestedAt else .str now),
      ("repository", (removed.map removalDocument).getD .null)])]

/-- `mark_deleted` -/
def markDeleted (write : Write) (now name : String) (removed : Option RemovedPackage) : Script Catalog Raised Unit := do
  Script.ofExcept (requireSafeName name "package")
  let s ← Script.get
  saveOverrides write (s.overrides.insert name (retiredRow name now ((s.overrides.lookup name).getD []) removed))

/-- A script of the repository, as one of the catalog. -/
def onRepository {α : Type} (p : Script Repository Raised α) : Script Catalog Raised α := fun s =>
  ((p s.repository).1, { s with repository := (p s.repository).2 })

/-- What `delete_package` returns. -/
structure DeletedPackage where
  name : String
  publicationRemoved : Bool
  recipePreserved : Bool
  repository : Option RemovedPackage
  deriving DecidableEq, Repr

/-- The codes after which the pending marker is kept. -/
def keepsMarker (code : String) : Bool := code ∈ ["reprepro_remove_failed", "package_removal_recovery_required"]

/-- The removal and the retirement, between the two metadata writes. -/
def removeAndMark (call : Call) (canonicalName : String) (published : Bool) :
    Script Catalog Raised (Option RemovedPackage) := do
  let settings := call.around.settings
  let removed ← if published then
      some <$> onRepository (removePublishedPackage call.conduct (normalizedPackageName canonicalName)
        settings.distribution settings.component)
    else pure none
  markDeleted call.markWrite call.removedAt canonicalName removed
  pure removed

/-- The retirement could not be written. -/
def notCommitted : Raised := recoveryRequired
  "Repository removal completed but package retirement metadata could not be committed" .none

/-- The handlers around them. -/
def settleFailure (call : Call) (canonicalName : String) (previous : Option Json.Fields) :
    Raised → Script Catalog Raised (Option RemovedPackage)
  | .publication e =>
      if keepsMarker e.code then Script.raise (.publication e)
      else do
        Script.handle (restoreAfterFailedRemoval call.restoreWrite canonicalName previous) fun
          | .os _ => Script.raise (recoveryRequired
              "Package removal failed and its metadata intent could not be restored" (.cause e.code))
          | e => Script.raise e
        Script.raise (.publication e)
  | .os _ => Script.raise notCommitted
  | e => Script.raise e

/-- The live index lists the package. -/
def isPublished (live : List IndexRow) (key : String) : Bool :=
  live.any fun row => normalizedPackageName ((row.lookup "Package").getD "") = key

/-- What the call decides before it writes anything. -/
structure Selection where
  canonicalName : String
  hasRecipe : Bool
  published : Bool
  deriving DecidableEq, Repr

/-- The reads of the call. -/
def selectPackage (around : Surroundings) (s : Catalog) (name : String) : Except Raised Selection := do
  requireSafeName name "package"
  let live ← livePublishedIndex around s.repository
  let package ← demand (.os "package not found")
    (packageView around s.overrides live (normalizedPackageName name))
  refuse (package.activeRun ≠ "") (.publication ⟨"package_operation_conflict",
    "Package removal is unavailable while the package has an active Run", .run package.activeRun⟩)
  let canonicalName := if package.name = "" then name else package.name
  pure {
    canonicalName
    hasRecipe := package.hasRecipe
    published := isPublished live (normalizedPackageName canonicalName) }

/-- `delete_package` -/
def deletePackage (call : Call) (name : String) : Script Catalog Raised DeletedPackage := do
  let s ← Script.get
  let selection ← Script.ofExcept (selectPackage call.around s name)
  let canonicalName := selection.canonicalName
  let previous ← Script.handle (beginRemoval call.beginWrite call.requestedAt canonicalName) fun
    | .os _ => Script.raise (recoveryRequired "Package removal intent could not be persisted" .none)
    | e => Script.raise e
  let removed ← Script.handle (removeAndMark call canonicalName selection.published)
    (settleFailure call canonicalName previous)
  pure {
    name := canonicalName
    publicationRemoved := selection.published
    recipePreserved := selection.hasRecipe
    repository := removed }

/-! ## How a call ends -/

/-- The override of the package has a pending marker. -/
def Catalog.Pending (s : Catalog) (name : String) : Prop :=
  ∃ row, s.overrides.lookup name = some row ∧ Json.member (Json.get row "removal") "status" = .str "pending"

/-- The override of the package is its retirement. -/
def Catalog.Retired (s : Catalog) (name : String) : Prop :=
  ∃ row, s.overrides.lookup name = some row ∧ Json.get row "deleted" = .bool true ∧
    Json.member (Json.get row "removal") "status" = .str "success"

/-- The state with the pending marker. -/
def Catalog.begun (s : Catalog) (call : Call) (name : String) : Catalog :=
  { s with overrides := s.overrides.insert name (pendingRow name call.requestedAt (s.overrides.lookup name)) }

/-- The state with the retirement, when the repository is `repository`. -/
def Catalog.finished (s : Catalog) (call : Call) (name : String) (removed : Option RemovedPackage)
    (repository : Repository) : Catalog where
  repository := repository
  overrides := (s.begun call name).overrides.insert name
    (retiredRow name call.removedAt (pendingRow name call.requestedAt (s.overrides.lookup name)) removed)

section
variable {call : Call} {name : String} {s : Catalog} {selection : Selection}

theorem Catalog.pending_begun : (s.begun call name).Pending name := by
  refine ⟨_, AList.lookup_insert _, ?_⟩
  rw [pendingRow, Json.get_put_self]
  rfl

theorem Catalog.retired_finished {removed : Option RemovedPackage} {repository : Repository} :
    (s.finished call name removed repository).Retired name :=
  ⟨_, AList.lookup_insert _, rfl, rfl⟩

/-- A retired override has no pending marker. -/
theorem Catalog.Retired.not_pending (h : s.Retired name) : ¬ s.Pending name := by
  rintro ⟨row, hrow, hpending⟩
  obtain ⟨row', hrow', _, hsuccess⟩ := h
  obtain rfl : row = row' := by simpa [hrow] using hrow'
  rw [hpending] at hsuccess
  exact absurd hsuccess (by simp)

theorem saveOverrides_apply {write : Write} {overrides : Overrides} :
    saveOverrides write overrides s =
      (if write = .done then .ok () else .error (.os "packages.json could not be written"),
        if write = .lost then s else { s with overrides }) := by
  cases write <;> rfl

theorem deletePackage_of_error {e : Raised} (h : selectPackage call.around s name = .error e) :
    deletePackage call name s = (.error e, s) := by
  simp [deletePackage, Bind.bind, Script.bind, Script.get, Script.ofExcept, h]

theorem deletePackage_of_unsafe (h : selectPackage call.around s name = .ok selection)
    (hsafe : isSafeName selection.canonicalName = false) :
    ∃ e, deletePackage call name s = (.error e, s) := by
  refine ⟨.value "unsafe package", ?_⟩
  simp [deletePackage, beginRemoval, requireSafeName, refuse, Bind.bind, Script.bind, Script.get, Script.ofExcept,
    Script.handle, h, hsafe, Script.raise]
  rfl

/-- The marker could not be written. -/
theorem deletePackage_of_begin (h : selectPackage call.around s name = .ok selection)
    (hsafe : isSafeName selection.canonicalName = true) (hwrite : call.beginWrite ≠ .done) :
    ∃ e, deletePackage call name s = (.error e, if call.beginWrite = .lost then s else s.begun call selection.canonicalName) := by
  refine ⟨recoveryRequired "Package removal intent could not be persisted" .none, ?_⟩
  cases hbegin : call.beginWrite with
  | done => exact absurd hbegin hwrite
  | lost =>
      simp [deletePackage, beginRemoval, requireSafeName, refuse, Bind.bind, Script.bind, Script.get,
        Script.ofExcept, Script.handle, h, hsafe, Script.raise, saveOverrides, hbegin]
  | late =>
      simp [deletePackage, beginRemoval, requireSafeName, refuse, Bind.bind, Script.bind, Script.get,
        Script.ofExcept, Script.handle, h, hsafe, Script.raise, saveOverrides, hbegin, Script.update, Catalog.begun]

/-- The call after its marker is written. -/
theorem deletePackage_of_done (h : selectPackage call.around s name = .ok selection)
    (hsafe : isSafeName selection.canonicalName = true) (hwrite : call.beginWrite = .done) :
    deletePackage call name s =
      (Script.handle (removeAndMark call selection.canonicalName selection.published)
        (settleFailure call selection.canonicalName (s.overrides.lookup selection.canonicalName)) >>= fun removed =>
          pure ⟨selection.canonicalName, selection.published, selection.hasRecipe, removed⟩)
        (s.begun call selection.canonicalName) := by
  simp [deletePackage, beginRemoval, requireSafeName, refuse, Bind.bind, Script.bind, Script.get,
    Script.ofExcept, Script.handle, h, hsafe, saveOverrides, hwrite, Script.update, Catalog.begun]
  rfl

/-- The removal of the call. -/
def Call.removal (call : Call) (canonicalName : String) (repository : Repository) :
    Except Raised RemovedPackage × Repository :=
  removePublishedPackage call.conduct (normalizedPackageName canonicalName) call.around.settings.distribution
    call.around.settings.component repository

/-- The repository side of the call is through: nothing was to do, or the removal returned. -/
def Call.Removes (call : Call) (selection : Selection) (repository : Repository) (removed : Option RemovedPackage)
    (after : Repository) : Prop :=
  if selection.published = true then ∃ p, removed = some p ∧ call.removal selection.canonicalName repository = (.ok p, after)
  else removed = none ∧ after = repository

/-- The retirement after the repository side is through. -/
theorem removeAndMark_of_removes {removed : Option RemovedPackage} {after : Repository}
    (hsafe : isSafeName selection.canonicalName = true) (h : call.Removes selection s.repository removed after) :
    removeAndMark call selection.canonicalName selection.published (s.begun call selection.canonicalName) =
      (if call.markWrite = .done then .ok removed else .error (.os "packages.json could not be written"),
        if call.markWrite = .lost then { s.begun call selection.canonicalName with repository := after }
        else s.finished call selection.canonicalName removed after) := by
  have hmark : ∀ removed, (markDeleted call.markWrite call.removedAt selection.canonicalName removed)
      { s.begun call selection.canonicalName with repository := after } =
      (if call.markWrite = .done then .ok () else .error (.os "packages.json could not be written"),
        if call.markWrite = .lost then { s.begun call selection.canonicalName with repository := after }
        else s.finished call selection.canonicalName removed after) := by
    intro removed
    cases hwrite : call.markWrite <;>
      simp [markDeleted, requireSafeName, refuse, hsafe, Bind.bind, Script.bind, Script.ofExcept, Script.get,
        saveOverrides, Script.update, Script.raise, Catalog.begun, Catalog.finished]
  unfold Call.Removes at h
  split at h
  next hpublished =>
    obtain ⟨p, rfl, hremoval⟩ := h
    simp only [Call.removal] at hremoval
    have hrun : (some <$> onRepository (removePublishedPackage call.conduct
        (normalizedPackageName selection.canonicalName) call.around.settings.distribution
        call.around.settings.component) : Script Catalog Raised (Option RemovedPackage))
          (s.begun call selection.canonicalName) =
        (.ok (some p), { s.begun call selection.canonicalName with repository := after }) := by
      simp [Functor.map, Script.bind, onRepository, Catalog.begun, hremoval]
      rfl
    simp only [removeAndMark, hpublished, if_true, Bind.bind, Script.bind, hrun, hmark]
    cases call.markWrite <;> rfl
  next hpublished =>
    obtain ⟨rfl, rfl⟩ := h
    have hbegun : { s.begun call selection.canonicalName with repository := s.repository } =
        s.begun call selection.canonicalName := rfl
    rw [hbegun] at hmark
    simp only [removeAndMark, hpublished, Bool.false_eq_true, if_false, Bind.bind, Script.bind, pure, hmark, hbegun]
    cases call.markWrite <;> rfl

/-- The removal raised. -/
theorem removeAndMark_of_error {e : Raised} {after : Repository} (hpublished : selection.published = true)
    (h : call.removal selection.canonicalName s.repository = (.error e, after)) :
    removeAndMark call selection.canonicalName selection.published (s.begun call selection.canonicalName) =
      (.error e, { s.begun call selection.canonicalName with repository := after }) := by
  simp only [Call.removal] at h
  simp [removeAndMark, hpublished, Bind.bind, Script.bind, Functor.map, onRepository, Catalog.begun, h]

/-- The repository side is through, or its removal raised. -/
theorem removes_or_error :
    (∃ removed after, call.Removes selection s.repository removed after) ∨
      selection.published = true ∧ ∃ e after, call.removal selection.canonicalName s.repository = (.error e, after) := by
  by_cases hpublished : selection.published = true
  · rcases hremoval : call.removal selection.canonicalName s.repository with ⟨e | p, after⟩
    · exact .inr ⟨hpublished, e, after, rfl⟩
    · refine .inl ⟨some p, after, ?_⟩
      rw [Call.Removes, if_pos hpublished]
      exact ⟨p, rfl, hremoval⟩
  · refine .inl ⟨none, s.repository, ?_⟩
    rw [Call.Removes, if_neg hpublished]
    exact ⟨rfl, rfl⟩

/-- What a call leaves of the catalog when it raises and has undone or not begun its work. -/
def Catalog.Unchanged (s after : Catalog) : Prop :=
  after.repository = s.repository ∧ ∀ n, after.overrides.lookup n = s.overrides.lookup n

theorem Catalog.Unchanged.refl : s.Unchanged s := ⟨rfl, fun _ => rfl⟩

/-- The restored overrides are those before the marker. -/
theorem lookup_restored {n : String} :
    (match s.overrides.lookup name with
      | none => (s.begun call name).overrides.erase name
      | some row => (s.begun call name).overrides.insert name row).lookup n = s.overrides.lookup n := by
  by_cases hn : n = name
  · subst hn
    split
    next h => rw [AList.lookup_erase, h]
    next row h => rw [AList.lookup_insert, h]
  · split
    · rw [AList.lookup_erase_ne hn]
      exact AList.lookup_insert_ne hn
    · rw [AList.lookup_insert_ne hn]
      exact AList.lookup_insert_ne hn

theorem restoreAfterFailedRemoval_apply {write : Write} {previous : Option Json.Fields} (hsafe : isSafeName name = true) :
    restoreAfterFailedRemoval write name previous s =
      (if write = .done then .ok () else .error (.os "packages.json could not be written"),
        if write = .lost then s
        else { s with overrides := match previous with
          | none => s.overrides.erase name
          | some row => s.overrides.insert name row }) := by
  cases write <;>
    simp [restoreAfterFailedRemoval, requireSafeName, refuse, hsafe, Bind.bind, Script.bind, Script.ofExcept,
      Script.get, saveOverrides, Script.update, Script.raise]

/-- A removal that raised leaves the marker, or nothing. -/
theorem settleFailure_ends {e : Raised} {after : Repository}
    (hsafe : isSafeName name = true)
    (h : call.removal name s.repository = (.error e, after)) :
    ∃ e' s', settleFailure call name (s.overrides.lookup name) e { s.begun call name with repository := after } =
      (.error e', s') ∧ (s.Unchanged s' ∨ s'.Pending name) := by
  have hpending : ({ s.begun call name with repository := after } : Catalog).Pending name :=
    Catalog.pending_begun (s := s)
  cases e with
  | publication error =>
      by_cases hkeeps : keepsMarker error.code = true
      · exact ⟨_, _, by rw [settleFailure, if_pos hkeeps]; rfl, .inr hpending⟩
      · -- the command has not run
        obtain rfl : after = s.repository := by
          rcases removePublishedPackage_eq_error h with h | h | h
          · exact h
          · simp [keepsMarker, h] at hkeeps
          · simp [keepsMarker, h] at hkeeps
        rw [settleFailure, if_neg hkeeps]
        have hrestored : s.Unchanged { s.begun call name with overrides := match s.overrides.lookup name with
            | none => (s.begun call name).overrides.erase name
            | some row => (s.begun call name).overrides.insert name row } :=
          ⟨rfl, fun n => lookup_restored⟩
        cases hwrite : call.restoreWrite with
        | done =>
            refine ⟨.publication error, _, ?_, .inl hrestored⟩
            simp only [Bind.bind, Script.bind, Script.handle, restoreAfterFailedRemoval_apply hsafe, if_true]
            rfl
        | lost =>
            refine ⟨recoveryRequired "Package removal failed and its metadata intent could not be restored"
              (.cause error.code), _, ?_, .inr hpending⟩
            simp only [Bind.bind, Script.bind, Script.handle, restoreAfterFailedRemoval_apply hsafe]
            rfl
        | late =>
            refine ⟨recoveryRequired "Package removal failed and its metadata intent could not be restored"
              (.cause error.code), _, ?_, .inl hrestored⟩
            simp only [Bind.bind, Script.bind, Script.handle, restoreAfterFailedRemoval_apply hsafe]
            rfl
  | os message => exact ⟨_, _, rfl, .inr hpending⟩
  | _ => exact ⟨_, _, rfl, .inr hpending⟩

/-- The metadata writes before the last, and the repository side, are through. -/
structure Through (call : Call) (name : String) (s : Catalog) (selection : Selection) (removed : Option RemovedPackage)
    (after : Repository) : Prop where
  select : selectPackage call.around s name = .ok selection
  safe : isSafeName selection.canonicalName = true
  begin : call.beginWrite = .done
  removes : call.Removes selection s.repository removed after

/-- The ways a call can end. -/
inductive Ended (call : Call) (name : String) (s : Catalog) : Except Raised DeletedPackage → Catalog → Prop
  | unchanged (e : Raised) (after : Catalog) (h : s.Unchanged after) : Ended call name s (.error e) after
  | pending (e : Raised) (selection : Selection) (after : Catalog)
      (select : selectPackage call.around s name = .ok selection) (h : after.Pending selection.canonicalName) :
      Ended call name s (.error e) after
  /-- The retirement is in place, and its write raised nevertheless. -/
  | late (e : Raised) (selection : Selection) (removed : Option RemovedPackage) (after : Repository)
      (through : Through call name s selection removed after) (mark : call.markWrite = .late) :
      Ended call name s (.error e) (s.finished call selection.canonicalName removed after)
  | done (selection : Selection) (removed : Option RemovedPackage) (after : Repository)
      (through : Through call name s selection removed after) (mark : call.markWrite = .done) :
      Ended call name s
        (.ok ⟨selection.canonicalName, selection.published, selection.hasRecipe, removed⟩)
        (s.finished call selection.canonicalName removed after)

/-- The call after a repository side that is through. -/
theorem Through.deletePackage {removed : Option RemovedPackage} {after : Repository}
    (h : Through call name s selection removed after) :
    (call.markWrite = .done ∧ deletePackage call name s =
      (.ok ⟨selection.canonicalName, selection.published, selection.hasRecipe, removed⟩,
        s.finished call selection.canonicalName removed after)) ∨
    ∃ e, (call.markWrite = .lost ∧ deletePackage call name s =
        (.error e, { s.begun call selection.canonicalName with repository := after })) ∨
      call.markWrite = .late ∧ deletePackage call name s =
        (.error e, s.finished call selection.canonicalName removed after) := by
  rw [deletePackage_of_done h.select h.safe h.begin]
  have hmark := removeAndMark_of_removes h.safe h.removes
  cases hwrite : call.markWrite with
  | done =>
      refine .inl ⟨rfl, ?_⟩
      simp only [Bind.bind, Script.bind, Script.handle, hmark, hwrite, if_true]
      rfl
  | lost =>
      refine .inr ⟨notCommitted, .inl ⟨rfl, ?_⟩⟩
      simp only [Bind.bind, Script.bind, Script.handle, hmark, hwrite]
      rfl
  | late =>
      refine .inr ⟨notCommitted, .inr ⟨rfl, ?_⟩⟩
      simp only [Bind.bind, Script.bind, Script.handle, hmark, hwrite]
      rfl

/-- **How a call ends.** -/
theorem deletePackage_ended : Ended call name s (deletePackage call name s).1 (deletePackage call name s).2 := by
  cases hselect : selectPackage call.around s name with
  | error e =>
      rw [deletePackage_of_error hselect]
      exact .unchanged e s .refl
  | ok selection =>
      by_cases hsafe : isSafeName selection.canonicalName = true
      · by_cases hbegin : call.beginWrite = .done
        · have heither : (∃ removed after, call.Removes selection s.repository removed after) ∨
              selection.published = true ∧
                ∃ e after, call.removal selection.canonicalName s.repository = (.error e, after) := removes_or_error
          rcases heither with ⟨removed, after, hremoves⟩ | ⟨hpublished, e, after, hremoval⟩
          · have hthrough : Through call name s selection removed after := ⟨hselect, hsafe, hbegin, hremoves⟩
            rcases hthrough.deletePackage with ⟨hmark, hrun⟩ | ⟨e, ⟨-, hrun⟩ | ⟨hmark, hrun⟩⟩
            · rw [hrun]
              exact .done selection removed after hthrough hmark
            · rw [hrun]
              exact .pending e selection _ hselect (Catalog.pending_begun (s := s))
            · rw [hrun]
              exact .late e selection removed after hthrough hmark
          · obtain ⟨e', s', hsettle, hends⟩ := settleFailure_ends hsafe hremoval
            have hrun : deletePackage call name s = (.error e', s') := by
              rw [deletePackage_of_done hselect hsafe hbegin]
              simp only [Bind.bind, Script.bind, Script.handle, removeAndMark_of_error hpublished hremoval, hsettle]
            rw [hrun]
            rcases hends with h | h
            · exact .unchanged e' s' h
            · exact .pending e' selection s' hselect h
        · obtain ⟨e, he⟩ := deletePackage_of_begin hselect hsafe hbegin
          rw [he]
          by_cases hlost : call.beginWrite = .lost
          · rw [if_pos hlost]
            exact .unchanged e s .refl
          · rw [if_neg hlost]
            exact .pending e selection _ hselect Catalog.pending_begun
      · obtain ⟨e, he⟩ := deletePackage_of_unsafe hselect (by simpa using hsafe)
        rw [he]
        exact .unchanged e s .refl

end

/-! ## Truth -/

/-- What a call is to be trusted for: it returns only when the package is gone and retired, and
when it raises it has changed nothing, or left its marker. -/
structure RetiresTruthfully (call : Call) (name : String) (s : Catalog) : Prop where
  returned : ∀ result after, deletePackage call name s = (.ok result, after) →
    after.Retired result.name ∧
      ∀ config, repositoryConfig s.repository call.around.settings.distribution = .ok config →
        after.repository.Gone config call.around.settings.component (normalizedPackageName result.name)
  raised : ∀ e after, deletePackage call name s = (.error e, after) →
    s.Unchanged after ∨
      ∃ selection, selectPackage call.around s name = .ok selection ∧ after.Pending selection.canonicalName

section
variable (call : Call) (name : String) (s : Catalog)

/-- The removal of the call comes to its end, and leaves `after`. -/
def Call.RemovalSucceeds (selection : Selection) (after : Repository) : Prop :=
  ∃ config, Publishing.RemovalSucceeds call.conduct (normalizedPackageName selection.canonicalName)
    call.around.settings.distribution call.around.settings.component s.repository config after

/-- The inputs on which a call is not to be trusted. -/
inductive Misjudges : Prop
  /-- The live index does not list the package, and the repository holds it. -/
  | blind (selection : Selection) (select : selectPackage call.around s name = .ok selection)
      (safe : isSafeName selection.canonicalName = true) (begin : call.beginWrite = .done)
      (mark : call.markWrite = .done) (unpublished : selection.published = false) (config : DistributionConfig)
      (configuration : repositoryConfig s.repository call.around.settings.distribution = .ok config)
      (h : ¬ s.repository.Gone config call.around.settings.component (normalizedPackageName selection.canonicalName))
  /-- The removal is through, and a `Packages` beside a `Packages.gz` still lists the package. -/
  | shadowed (selection : Selection) (select : selectPackage call.around s name = .ok selection)
      (safe : isSafeName selection.canonicalName = true) (begin : call.beginWrite = .done)
      (mark : call.markWrite = .done) (published : selection.published = true) (after : Repository)
      (removal : call.RemovalSucceeds s selection after) (config : DistributionConfig)
      (configuration : repositoryConfig s.repository call.around.settings.distribution = .ok config)
      (architecture : String) (configured : architecture ∈ config.binaryArchitectures)
      (lists : (after.index config.codename call.around.settings.component architecture).plain.Lists
        (normalizedPackageName selection.canonicalName))
  /-- The retirement is written, and the write raises. -/
  | late (selection : Selection) (select : selectPackage call.around s name = .ok selection)
      (safe : isSafeName selection.canonicalName = true) (begin : call.beginWrite = .done)
      (mark : call.markWrite = .late)
      (changes : if selection.published = true then ∃ after, call.RemovalSucceeds s selection after
        else s.overrides.lookup selection.canonicalName ≠ some (retiredRow selection.canonicalName call.removedAt
          (pendingRow selection.canonicalName call.requestedAt (s.overrides.lookup selection.canonicalName)) none))

end

section
variable {call : Call} {name : String} {s : Catalog} {selection : Selection}

/-- The listings of the call tell what the database owns. -/
def Call.ListsDatabase (call : Call) (repository : Repository) : Prop :=
  ∀ package, call.conduct.ListsDatabase package call.around.settings.component repository

theorem removes_iff_of_published (hlists : call.ListsDatabase s.repository) (hpublished : selection.published = true)
    {after : Repository} :
    (∃ removed, call.Removes selection s.repository removed after) ↔ call.RemovalSucceeds s selection after := by
  rw [Call.RemovalSucceeds, ← removePublishedPackage_returns_iff (hlists _)]
  simp only [Call.Removes, if_pos hpublished, Call.removal]
  constructor
  · rintro ⟨_, p, _, hremoval⟩
    exact ⟨p, hremoval⟩
  · rintro ⟨p, hremoval⟩
    exact ⟨some p, p, rfl, hremoval⟩

/-- A removal that succeeds has changed the repository. -/
theorem Call.RemovalSucceeds.ne (hlists : call.ListsDatabase s.repository) {after : Repository}
    (h : call.RemovalSucceeds s selection after) : after ≠ s.repository := by
  obtain ⟨config, h⟩ := h
  intro heq
  obtain ⟨result, hresult, hsuccess, row, hrow, hof⟩ := h.reaches.listed
  refine h.database ⟨row, ?_, hof⟩
  rw [heq]
  exact ((hlists _).before _ _ hresult hsuccess row hof).1 hrow

/-- **When a call is to be trusted.** -/
theorem retiresTruthfully_iff (hlists : call.ListsDatabase s.repository) :
    RetiresTruthfully call name s ↔ ¬ Misjudges call name s := by
  constructor
  · intro h hmisjudges
    cases hmisjudges with
    | blind selection select safe begin mark unpublished config configuration hholds =>
        have hthrough : Through call name s selection none s.repository :=
          ⟨select, safe, begin, by rw [Call.Removes, if_neg (by simp [unpublished])]; exact ⟨rfl, rfl⟩⟩
        rcases hthrough.deletePackage with ⟨-, hrun⟩ | ⟨e, ⟨hmark, -⟩ | ⟨hmark, -⟩⟩
        · exact hholds ((h.returned _ _ hrun).2 config configuration)
        · rw [mark] at hmark
          cases hmark
        · rw [mark] at hmark
          cases hmark
    | shadowed selection select safe begin mark published after removal config configuration architecture configured lists =>
        obtain ⟨removed, hremoves⟩ := (removes_iff_of_published hlists published).2 removal
        have hthrough : Through call name s selection removed after := ⟨select, safe, begin, hremoves⟩
        rcases hthrough.deletePackage with ⟨-, hrun⟩ | ⟨e, ⟨hmark, -⟩ | ⟨hmark, -⟩⟩
        · exact (((h.returned _ _ hrun).2 config configuration).index architecture configured).2 lists
        · rw [mark] at hmark
          cases hmark
        · rw [mark] at hmark
          cases hmark
    | late selection select safe begin mark changes =>
        have hthrough : ∃ removed after, Through call name s selection removed after ∧
            ¬ s.Unchanged (s.finished call selection.canonicalName removed after) := by
          split at changes
          next published =>
            obtain ⟨after, removal⟩ := changes
            obtain ⟨removed, hremoves⟩ := (removes_iff_of_published hlists published).2 removal
            exact ⟨removed, after, ⟨select, safe, begin, hremoves⟩, fun hsame => removal.ne hlists hsame.1⟩
          next unpublished =>
            refine ⟨none, s.repository, ⟨select, safe, begin, ?_⟩, fun hsame => changes ?_⟩
            · rw [Call.Removes, if_neg unpublished]
              exact ⟨rfl, rfl⟩
            · exact (hsame.2 selection.canonicalName).symm.trans (AList.lookup_insert _)
        obtain ⟨removed, after, hthrough, hchanged⟩ := hthrough
        rcases hthrough.deletePackage with ⟨hmark, -⟩ | ⟨e, ⟨hmark, -⟩ | ⟨-, hrun⟩⟩
        · rw [mark] at hmark
          cases hmark
        · rw [mark] at hmark
          cases hmark
        · rcases h.raised e _ hrun with hsame | ⟨selection', hselect, hpending⟩
          · exact hchanged hsame
          · obtain rfl : selection = selection' := by simpa [select] using hselect
            exact Catalog.retired_finished.not_pending hpending
  · intro h
    constructor
    · intro result after hrun
      have hended : Ended call name s (deletePackage call name s).1 (deletePackage call name s).2 :=
        deletePackage_ended
      rw [hrun] at hended
      cases hended with
      | done selection removed repository through mark =>
          refine ⟨Catalog.retired_finished, fun config configuration => ?_⟩
          by_cases hpublished : selection.published = true
          · have hremoval := (removes_iff_of_published hlists hpublished).1 ⟨removed, through.removes⟩
            obtain ⟨config', hsucceeds⟩ := hremoval
            obtain rfl : config' = config := by simpa [hsucceeds.reaches.configuration] using configuration
            refine ⟨hsucceeds.database, fun a ha => ⟨(hsucceeds.index a ha).compressed, fun hplain => h ?_⟩⟩
            exact .shadowed selection through.select through.safe through.begin mark hpublished repository
              ⟨config', hsucceeds⟩ config' configuration a ha hplain
          · have hremoves := through.removes
            rw [Call.Removes, if_neg hpublished] at hremoves
            obtain ⟨-, rfl⟩ := hremoves
            by_contra hholds
            exact h (.blind selection through.select through.safe through.begin mark (by simpa using hpublished) config
              configuration hholds)
    · intro e after hrun
      have hended : Ended call name s (deletePackage call name s).1 (deletePackage call name s).2 :=
        deletePackage_ended
      rw [hrun] at hended
      cases hended with
      | unchanged _ _ hsame => exact .inl hsame
      | pending _ selection _ select hpending => exact .inr ⟨selection, select, hpending⟩
      | late _ selection removed repository through mark =>
          by_cases hpublished : selection.published = true
          · have hremoval := (removes_iff_of_published hlists hpublished).1 ⟨removed, through.removes⟩
            refine absurd (.late selection through.select through.safe through.begin mark ?_) h
            rw [if_pos hpublished]
            exact ⟨repository, hremoval⟩
          · have hremoves := through.removes
            rw [Call.Removes, if_neg hpublished] at hremoves
            obtain ⟨rfl, rfl⟩ := hremoves
            by_cases hsame : s.overrides.lookup selection.canonicalName = some (retiredRow selection.canonicalName
                call.removedAt (pendingRow selection.canonicalName call.requestedAt
                  (s.overrides.lookup selection.canonicalName)) none)
            · refine .inl ⟨rfl, fun n => ?_⟩
              by_cases hn : n = selection.canonicalName
              · subst hn
                exact (AList.lookup_insert _).trans hsame.symm
              · exact (AList.lookup_insert_ne hn).trans (AList.lookup_insert_ne hn)
            · refine absurd (.late selection through.select through.safe through.begin mark ?_) h
              rw [if_neg hpublished]
              exact hsame

end

/-! ## Repetition -/

/-- The states of repeated calls. -/
def repeated (calls : Nat → Call) (name : String) (s : Catalog) : Nat → Catalog
  | 0 => s
  | i + 1 => (deletePackage (calls i) name (repeated calls name s i)).2

/-- Calls that find the same around them, whose writes succeed, on a repository whose database
does not hold the package. -/
structure Repeats (around : Surroundings) (name : String) (s : Catalog) (calls : Nat → Call) : Prop where
  surroundings : ∀ i, (calls i).around = around
  begin : ∀ i, (calls i).beginWrite = .done
  mark : ∀ i, (calls i).markWrite = .done
  lists : ∀ i, (calls i).ListsDatabase s.repository
  unowned : ∀ config, repositoryConfig s.repository around.settings.distribution = .ok config →
    ¬ s.repository.Owns config.codename around.settings.component (normalizedPackageName name)

/-- One of the calls returns. -/
def EventuallyReturns (calls : Nat → Call) (name : String) (s : Catalog) : Prop :=
  ∃ i result, (deletePackage (calls i) name (repeated calls name s i)).1 = .ok result

/-- A call has nothing in its way: the package is found, has no active Run, and is not in the
live index. -/
def NothingInTheWay (around : Surroundings) (name : String) (s : Catalog) : Prop :=
  ∃ selection, selectPackage around s name = .ok selection ∧ isSafeName selection.canonicalName = true ∧
    selection.published = false

section
variable {around : Surroundings} {name : String} {s : Catalog} {selection : Selection}

theorem normalizedPackageName_idem (value : String) :
    normalizedPackageName (normalizedPackageName value) = normalizedPackageName value := by
  simp only [normalizedPackageName, String.toList_ofList, Text.strip_lower, Text.strip_strip, Text.lower_lower]

theorem mem_overrideRows {overrides : Overrides} {key : String} {row : String × Json.Fields}
    (h : row ∈ overrideRows overrides key) : normalizedPackageName row.1 = key := by
  rw [overrideRows, List.mem_insertionSort] at h
  simpa using (List.mem_filter.1 h).2

theorem liveRow_key {newer : String → String → Bool} {key : String} {rows : List IndexRow} {row : IndexRow}
    (h : liveRow newer key rows = some row) : normalizedPackageName ((row.lookup "Package").getD "") = key := by
  suffices hfold : ∀ known, (∀ row ∈ known, normalizedPackageName ((row.lookup "Package").getD "") = key) →
      ∀ row ∈ rows.foldl (newerRow newer key) known, normalizedPackageName ((row.lookup "Package").getD "") = key from
    hfold none (by simp) row h
  clear h
  induction rows with
  | nil => exact fun known hknown => hknown
  | cons first rows ih =>
      intro known hknown
      have hnext : ∀ row ∈ newerRow newer key known first, normalizedPackageName ((row.lookup "Package").getD "") = key := by
        intro row hrow
        unfold newerRow at hrow
        split at hrow
        next hfirst =>
          cases known with
          | none =>
              obtain rfl := Option.some.inj hrow
              exact hfirst
          | some other =>
              dsimp only at hrow
              split at hrow
              · obtain rfl := Option.some.inj hrow
                exact hfirst
              · exact hknown row hrow
        · exact hknown row hrow
      rw [List.foldl_cons]
      exact ih (newerRow newer key known first) hnext

/-- The projection is under the key of its name. -/
theorem packageView_key {overrides : Overrides} {live : List IndexRow} {key : String} {view : PackageView}
    (hkey : normalizedPackageName key = key) (h : packageView around overrides live key = some view) :
    normalizedPackageName view.name = key := by
  have hname : packageName around overrides live key = some view.name := by
    unfold packageView at h
    dsimp only at h
    split at h
    · cases h
    · obtain ⟨name, hname, rfl⟩ := Option.map_eq_some_iff.1 h
      exact hname
  unfold packageName at hname
  split at hname
  next row hrow =>
    rw [← Option.some.inj hname]
    exact mem_overrideRows (List.mem_of_mem_filter (List.mem_of_mem_getLast? hrow))
  next row _ hrow =>
    rw [← Option.some.inj hname]
    exact liveRow_key hrow
  next record _ _ hrecord =>
    rw [← Option.some.inj hname]
    simpa using List.find?_some hrecord
  · split at hname
    · cases hname
    · rwa [← Option.some.inj hname]

/-- What a selection says of the live index. -/
theorem published_of_selectPackage (h : selectPackage around s name = .ok selection) :
    ∃ live, livePublishedIndex around s.repository = .ok live ∧
      normalizedPackageName selection.canonicalName = normalizedPackageName name ∧
      selection.published = isPublished live (normalizedPackageName name) := by
  simp only [selectPackage, bind_eq_ok, demand_eq_ok, pure_eq_ok] at h
  obtain ⟨_, _, live, hlive, package, hpackage, _, _, rfl⟩ := h
  have hkey : normalizedPackageName (if package.name = "" then name else package.name) = normalizedPackageName name := by
    split
    · rfl
    · exact packageView_key (normalizedPackageName_idem name) hpackage
  exact ⟨live, hlive, hkey, by rw [hkey]⟩

theorem settleFailure_raises {call : Call} {previous : Option Json.Fields} {e : Raised} (t : Catalog) :
    ∃ e' t', settleFailure call name previous e t = (.error e', t') ∧ t'.repository = t.repository := by
  cases e with
  | publication error =>
      by_cases hkeeps : keepsMarker error.code = true
      · exact ⟨_, t, by rw [settleFailure, if_pos hkeeps]; rfl, rfl⟩
      · rw [settleFailure, if_neg hkeeps]
        by_cases hsafe : isSafeName name = true
        · simp only [Bind.bind, Script.bind, Script.handle, restoreAfterFailedRemoval_apply hsafe]
          cases call.restoreWrite
          · exact ⟨_, _, rfl, rfl⟩
          · exact ⟨_, _, rfl, rfl⟩
          · exact ⟨_, _, rfl, rfl⟩
        · have hrestore : restoreAfterFailedRemoval call.restoreWrite name previous t =
              (.error (.value "unsafe package"), t) := by
            simp [restoreAfterFailedRemoval, requireSafeName, refuse, hsafe, Bind.bind, Script.bind, Script.ofExcept]
            rfl
          simp only [Bind.bind, Script.bind, Script.handle, hrestore]
          exact ⟨_, _, rfl, rfl⟩
  | _ => exact ⟨_, t, rfl, rfl⟩

/-- A package that the live index lists and the database does not own cannot be removed: the call
raises, and leaves the repository as it is. -/
theorem deletePackage_of_unowned {call : Call}
    (hlists : call.ListsDatabase s.repository)
    (hunowned : ∀ config, repositoryConfig s.repository call.around.settings.distribution = .ok config →
      ¬ s.repository.Owns config.codename call.around.settings.component (normalizedPackageName name))
    (hselect : selectPackage call.around s name = .ok selection) (hpublished : selection.published = true) :
    ∃ e s', deletePackage call name s = (.error e, s') ∧ s'.repository = s.repository := by
  by_cases hsafe : isSafeName selection.canonicalName = true
  · by_cases hbegin : call.beginWrite = .done
    · obtain ⟨-, -, hkey, -⟩ := published_of_selectPackage hselect
      obtain ⟨e, hremoval⟩ : ∃ e, call.removal selection.canonicalName s.repository = (.error e, s.repository) := by
        refine removePublishedPackage_of_not_reaches fun config hreach => ?_
        obtain ⟨result, hresult, hsuccess, row, hrow, hof⟩ := hreach.listed
        refine hunowned config hreach.configuration ⟨row, ?_, hkey ▸ hof⟩
        exact ((hlists _).before _ _ hresult hsuccess row hof).1 hrow
      obtain ⟨e', s', hsettle, hrepository⟩ : ∃ e' s', settleFailure call selection.canonicalName
          (s.overrides.lookup selection.canonicalName) e
          { s.begun call selection.canonicalName with repository := s.repository } = (.error e', s') ∧
            s'.repository = s.repository := settleFailure_raises _
      refine ⟨e', s', ?_, hrepository⟩
      rw [deletePackage_of_done hselect hsafe hbegin]
      simp only [Bind.bind, Script.bind, Script.handle, removeAndMark_of_error hpublished hremoval, hsettle]
    · obtain ⟨e, he⟩ := deletePackage_of_begin hselect hsafe hbegin
      refine ⟨e, _, he, ?_⟩
      split <;> rfl
  · obtain ⟨e, he⟩ := deletePackage_of_unsafe hselect (by simpa using hsafe)
    exact ⟨e, s, he, rfl⟩

/-- **When a repeated call returns**: at once, or never. -/
theorem eventuallyReturns_iff {calls : Nat → Call} (h : Repeats around name s calls) :
    EventuallyReturns calls name s ↔ NothingInTheWay around name s := by
  constructor
  · rintro ⟨i, result, hresult⟩
    by_contra hway
    cases hselect : selectPackage around s name with
    | error e =>
        -- nothing is written, and the next call finds the same
        have hstuck : ∀ i, repeated calls name s i = s ∧ deletePackage (calls i) name s = (.error e, s) := by
          intro i
          have hrun : ∀ i, deletePackage (calls i) name s = (.error e, s) :=
            fun i => deletePackage_of_error (by rw [h.surroundings i]; exact hselect)
          refine ⟨?_, hrun i⟩
          induction i with
          | zero => rfl
          | succ i ih => rw [repeated, ih, hrun i]
        rw [(hstuck i).1, (hstuck i).2] at hresult
        cases hresult
    | ok selection =>
        by_cases hsafe : isSafeName selection.canonicalName = true
        · have hpublished : selection.published = true := by
            by_contra hno
            exact hway ⟨selection, hselect, hsafe, by simpa using hno⟩
          obtain ⟨live, hlive, -, hlisted⟩ := published_of_selectPackage hselect
          -- the repository stays, and with it what the live index lists
          have hstuck : ∀ t : Catalog, t.repository = s.repository → ∀ i, ∃ e t',
              deletePackage (calls i) name t = (.error e, t') ∧ t'.repository = s.repository := by
            intro t ht i
            cases hselect' : selectPackage (calls i).around t name with
            | error e => exact ⟨e, t, deletePackage_of_error hselect', ht⟩
            | ok selection' =>
                obtain ⟨live', hlive', -, hlisted'⟩ := published_of_selectPackage hselect'
                rw [h.surroundings i, ht, hlive] at hlive'
                obtain rfl := Except.ok.inj hlive'
                have hlists := h.lists i
                have hunowned := h.unowned
                rw [← ht] at hlists hunowned
                rw [← h.surroundings i] at hunowned
                rw [← ht]
                exact deletePackage_of_unowned hlists hunowned hselect' (by rw [hlisted', ← hlisted, hpublished])
          have hrepository : ∀ i, (repeated calls name s i).repository = s.repository := by
            intro i
            induction i with
            | zero => rfl
            | succ i ih =>
                obtain ⟨e, t', hrun, ht'⟩ := hstuck _ ih i
                rw [repeated, hrun]
                exact ht'
          obtain ⟨e, t', hrun, -⟩ := hstuck _ (hrepository i) i
          rw [hrun] at hresult
          cases hresult
        · have hrun : ∀ i, ∃ e, deletePackage (calls i) name s = (.error e, s) :=
            fun i => deletePackage_of_unsafe (by rw [h.surroundings i]; exact hselect) (by simpa using hsafe)
          have hsame : ∀ i, repeated calls name s i = s := by
            intro i
            induction i with
            | zero => rfl
            | succ i ih =>
                obtain ⟨e, he⟩ := hrun i
                rw [repeated, ih, he]
          obtain ⟨e, he⟩ := hrun i
          rw [hsame i, he] at hresult
          cases hresult
  · rintro ⟨selection, hselect, hsafe, hunpublished⟩
    have hthrough : Through (calls 0) name s selection none s.repository := by
      refine ⟨by rw [h.surroundings 0]; exact hselect, hsafe, h.begin 0, ?_⟩
      rw [Call.Removes, if_neg (by simp [hunpublished])]
      exact ⟨rfl, rfl⟩
    rcases hthrough.deletePackage with ⟨-, hrun⟩ | ⟨e, ⟨hmark, -⟩ | ⟨hmark, -⟩⟩
    · exact ⟨0, _, by rw [repeated, hrun]⟩
    · rw [h.mark 0] at hmark
      cases hmark
    · rw [h.mark 0] at hmark
      cases hmark

end

/-! ## A sample -/

/-- A call that finds the sample repository, and an index that changes while it is read when
`moving`. -/
def sampleCall (moving : Bool) : Call where
  around := {
    settings := ⟨"bookworm", "main", "amd64"⟩
    recipes := []
    runs := []
    newer := fun _ _ => false
    refusesRoot := false
    refusesCompressed := moving
    refusesPlain := false }
  conduct := sampleConduct (.regular (.ok (.text "")))
  beginWrite := .done
  restoreWrite := .done
  markWrite := .done
  requestedAt := "2026-01-01T00:00:00Z"
  removedAt := "2026-01-01T00:00:01Z"

def sampleCatalog : Catalog where
  repository := sampleRepository
  overrides := AList.singleton "demo" [("name", .str "demo")]

theorem sample_selectPackage (moving : Bool) :
    selectPackage (sampleCall moving).around sampleCatalog "demo" = .ok ⟨"demo", false, !moving⟩ := by
  cases moving <;> decide +kernel

theorem sample_listsDatabase (moving : Bool) : (sampleCall moving).ListsDatabase sampleRepository :=
  fun _ => sampleConduct_listsDatabase _

end DebBuilder.Publishing
