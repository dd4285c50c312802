import Mathlib
import DebBuilder.Archive.Selectors

/-!
# Payload plans

`resolve_payload` finds the files of an extracted archive that the selectors of a Recipe
choose.

## Main definitions

* `Extracted` — the directory of an extracted archive.
* `archiveInventory`, `resolvePayload` — `_archive_inventory` and `resolve_payload`.

## Main statements

* `mem_files_of_resolvePayload` — which files a plan has.
* `resolvePayload_perm` — the order in which a directory is listed does not matter.
* `selectors_keep_meaning` — the canonical selectors mean what the written ones mean.
-/

namespace DebBuilder.Archive
open Lib Recipe

/-- What `lstat` finds. -/
inductive Kind
  | symlink
  | directory
  | regular
  | special
  deriving DecidableEq, Repr

/-- `actual_kind` -/
def Kind.name : Kind → String
  | .symlink => "symlink"
  | .directory => "directory"
  | .regular => "file"
  | .special => "special"

/-- A path below the directory of the archive. -/
structure Entry where
  relative : String
  kind : Kind
  /-- The path that it resolves to, and whether that is below the directory too. -/
  resolved : String
  inside : Bool
  size : Nat
  mode : Nat
  deriving DecidableEq

/-- The directory of an extracted archive. -/
structure Extracted where
  /-- What `rglob` finds, in any order. -/
  entries : List Entry
  distinct : (entries.map Entry.relative).Nodup
  /-- What `lstat` finds under the parts of a selector, and whether it resolves to a path below
  the directory. -/
  lstat : List (List Char) → Option (Kind × Bool)

/-- `UpstreamArchiveError`, with its details. -/
structure SelectionError where
  code : String
  message : String
  role : String
  path : String
  expectedKind : String
  actualKind : Option String
  deriving DecidableEq, Repr

inductive PayloadError
  | selection (error : SelectionError)
  | recipe (error : RecipeError)

/-- `_selector_target` -/
def selectorTarget (source : Extracted) (role selector : String) : Except PayloadError Unit := do
  let parsed ← (parseArchivePath (.str selector)).mapError .recipe
  let expected := if parsed.isDirectory then "directory" else "file"
  let error code message actual : PayloadError := .selection ⟨code, message, role, selector, expected, actual⟩
  let found ← demand (error "archive_selection_path_not_found" s!"Archive {role} path was not found: {selector}" none)
    (source.lstat parsed.parts)
  refuse (found.1 = .symlink)
    (error "archive_selection_unsafe_path" s!"Archive {role} path is a symbolic link: {selector}" (some "symlink"))
  refuse (found.1.name ≠ expected)
    (error "archive_selection_type_mismatch" s!"Archive {role} path has the wrong type: {selector}" (some found.1.name))
  refuse (found.2 = false)
    (error "archive_selection_unsafe_path" s!"Archive {role} path escapes the extraction root: {selector}" none)

/-- The regular files of entries that may all be packaged. -/
def inventoryOf : List Entry → Except PayloadError (List Entry)
  | [] => .ok []
  | entry :: entries => do
      let relative := entry.relative
      let error message expected actual : PayloadError :=
        .selection ⟨"archive_selection_unsafe_path", message, "inventory", relative, expected, actual⟩
      refuse (entry.kind = .symlink)
        (error s!"Extracted archive contains a symbolic link: {relative}" "regular entry" (some "symlink"))
      let canonical := if entry.kind = .directory then relative ++ "/" else relative
      let _ ← (parseArchivePath (.str canonical)).mapError fun _ =>
        error s!"Extracted archive contains an unsafe logical path: {relative}" "canonical path" none
      if entry.kind = .directory then inventoryOf entries
      else do
        refuse (entry.kind ≠ .regular)
          (error s!"Extracted archive contains a special entry: {relative}" "file" (some "special"))
        refuse (entry.inside = false)
          (error s!"Extracted archive file escapes the extraction root: {relative}" "file" none)
        let files ← inventoryOf entries
        return entry :: files

/-- `_archive_inventory` -/
def archiveInventory (source : Extracted) : Except PayloadError (List Entry) :=
  inventoryOf (source.entries.insertionSort fun a b => a.relative ≤ b.relative)

/-- `_file_record` -/
structure FileRecord where
  relativePath : String
  path : String
  size : Nat
  mode : Nat
  deriving DecidableEq

def fileRecord (entry : Entry) : FileRecord := ⟨entry.relative, entry.resolved, entry.size, entry.mode⟩

/-- The entries for which a test that may fail holds. -/
def keep (test : Entry → Except PayloadError Bool) : List Entry → Except PayloadError (List Entry)
  | [] => .ok []
  | entry :: entries => do
      let holds ← test entry
      let kept ← keep test entries
      return if holds then entry :: kept else kept

structure PayloadPlan where
  mode : String
  «include» : List String
  exclude : List String
  explicitFiles : Nat
  selectedDirectories : Nat
  selectedFiles : Nat
  excludedFiles : Nat
  excludedDirectories : Nat
  excludedResolvedFiles : Nat
  files : List FileRecord

/-- `resolve_payload` -/
def resolvePayload (payload : Payload) (source : Extracted) : Except PayloadError PayloadPlan := do
  payload.include.forM (selectorTarget source "include")
  payload.exclude.forM (selectorTarget source "exclude")
  let inventory ← archiveInventory source
  let included ← keep (fun entry => if payload.mode = "entire_archive" then .ok true
    else (selectorsMatch payload.include entry.relative).mapError .recipe) inventory
  let selected ← keep (fun entry => do
    let excluded ← (selectorsMatch payload.exclude entry.relative).mapError .recipe
    return !excluded) included
  refuse (selected = [])
    (.selection ⟨"archive_selection_empty", "Archive payload selection resolved to zero files", "payload", "", "file", none⟩)
  let includePaths ← (payload.include.mapM fun selector => parseArchivePath (.str selector)).mapError .recipe
  let excludePaths ← (payload.exclude.mapM fun selector => parseArchivePath (.str selector)).mapError .recipe
  return {
    mode := payload.mode
    «include» := payload.include
    exclude := payload.exclude
    explicitFiles := includePaths.countP fun path => !path.isDirectory
    selectedDirectories := includePaths.countP (·.isDirectory)
    selectedFiles := selected.length
    excludedFiles := excludePaths.countP fun path => !path.isDirectory
    excludedDirectories := excludePaths.countP (·.isDirectory)
    excludedResolvedFiles := included.length - selected.length
    files := selected.map fileRecord
  }

/-! ## The inventory -/

theorem mem_inventoryOf {entries files : List Entry} (h : inventoryOf entries = .ok files) (entry : Entry) :
    entry ∈ files ↔ entry ∈ entries ∧ entry.kind = .regular := by
  induction entries generalizing files with
  | nil =>
      cases h
      simp
  | cons first entries ih =>
      simp only [inventoryOf, bind_eq_ok, refuse_eq_ok] at h
      obtain ⟨_, hlink, _, _, h⟩ := h
      split at h
      · next hdirectory =>
        rw [ih h, List.mem_cons]
        constructor
        · exact fun hmem => ⟨.inr hmem.1, hmem.2⟩
        · rintro ⟨rfl | hmem, hkind⟩
          · rw [hdirectory] at hkind
            exact nomatch hkind
          · exact ⟨hmem, hkind⟩
      · simp only [bind_eq_ok, refuse_eq_ok, pure_eq_ok] at h
        obtain ⟨_, hregular, _, _, rest, hrest, rfl⟩ := h
        rw [List.mem_cons, ih hrest, List.mem_cons]
        constructor
        · rintro (rfl | hmem)
          · exact ⟨.inl rfl, not_not.1 hregular⟩
          · exact ⟨.inr hmem.1, hmem.2⟩
        · rintro ⟨rfl | hmem, hkind⟩
          · exact .inl rfl
          · exact .inr ⟨hmem, hkind⟩

theorem mem_keep {test : Entry → Except PayloadError Bool} {entries kept : List Entry} (h : keep test entries = .ok kept)
    (entry : Entry) : entry ∈ kept ↔ entry ∈ entries ∧ test entry = .ok true := by
  induction entries generalizing kept with
  | nil =>
      cases h
      simp
  | cons first entries ih =>
      simp only [keep, bind_eq_ok, pure_eq_ok] at h
      obtain ⟨holds, hholds, rest, hrest, rfl⟩ := h
      cases holds with
      | true =>
          rw [if_pos rfl, List.mem_cons, ih hrest, List.mem_cons]
          constructor
          · rintro (rfl | hmem)
            · exact ⟨.inl rfl, hholds⟩
            · exact ⟨.inr hmem.1, hmem.2⟩
          · rintro ⟨rfl | hmem, htest⟩
            · exact .inl rfl
            · exact .inr ⟨hmem, htest⟩
      | false =>
          rw [if_neg nofun, ih hrest, List.mem_cons]
          constructor
          · exact fun hmem => ⟨.inr hmem.1, hmem.2⟩
          · rintro ⟨rfl | hmem, htest⟩
            · rw [hholds] at htest
              exact nomatch htest
            · exact ⟨hmem, htest⟩

/-! ## Plans -/

/-- The files of a plan are those that the payload selects. -/
theorem mem_files_of_resolvePayload {payload : Payload} {source : Extracted} {plan : PayloadPlan}
    (h : resolvePayload payload source = .ok plan) (file : FileRecord) :
    file ∈ plan.files ↔ ∃ entry ∈ source.entries, entry.kind = .regular ∧
      (payload.mode = "entire_archive" ∨ selectorsMatch payload.include entry.relative = .ok true) ∧
        selectorsMatch payload.exclude entry.relative = .ok false ∧ fileRecord entry = file := by
  simp only [resolvePayload, bind_eq_ok, pure_eq_ok, refuse_eq_ok, archiveInventory] at h
  obtain ⟨_, _, _, _, inventory, hinventory, included, hincluded, selected, hselected, _, _, _, _, _, _, rfl⟩ := h
  rw [List.mem_map]
  have hentry (entry : Entry) : entry ∈ selected ↔ entry ∈ source.entries ∧ entry.kind = .regular ∧
      (payload.mode = "entire_archive" ∨ selectorsMatch payload.include entry.relative = .ok true) ∧
        selectorsMatch payload.exclude entry.relative = .ok false := by
    rw [mem_keep hselected, mem_keep hincluded, mem_inventoryOf hinventory, List.mem_insertionSort]
    have hinclude : (if payload.mode = "entire_archive" then .ok true
        else (selectorsMatch payload.include entry.relative).mapError PayloadError.recipe) = .ok true ↔
          payload.mode = "entire_archive" ∨ selectorsMatch payload.include entry.relative = .ok true := by
      by_cases hmode : payload.mode = "entire_archive" <;> simp [hmode, mapError_eq_ok]
    simp only [hinclude, bind_eq_ok, mapError_eq_ok, pure_eq_ok, Bool.not_eq_true', exists_eq_right, and_assoc]
  simp only [hentry, and_assoc]

instance : Std.Total fun a b : Entry => a.relative ≤ b.relative := ⟨fun _ _ => String.le_total _ _⟩
instance : IsTrans Entry fun a b => a.relative ≤ b.relative := ⟨fun _ _ _ => String.le_trans⟩

/-- Entries with distinct paths have one order. -/
theorem sort_perm {entries others : List Entry} (hperm : others.Perm entries) (hdistinct : (entries.map Entry.relative).Nodup) :
    (others.insertionSort fun a b => a.relative ≤ b.relative) = entries.insertionSort fun a b => a.relative ≤ b.relative := by
  have hsorted := (List.perm_insertionSort (fun a b : Entry => a.relative ≤ b.relative) others).trans
    (hperm.trans (List.perm_insertionSort (fun a b : Entry => a.relative ≤ b.relative) entries).symm)
  refine hsorted.eq_of_pairwise ?_ (List.pairwise_insertionSort _ _) (List.pairwise_insertionSort _ _)
  intro a b ha hb hab hba
  have hina : a ∈ entries := hperm.mem_iff.1 ((List.mem_insertionSort _).1 ha)
  have hinb : b ∈ entries := (List.mem_insertionSort _).1 hb
  exact List.inj_on_of_nodup_map hdistinct hina hinb (String.le_antisymm hab hba)

/-- The order in which the directory is listed does not matter. -/
theorem resolvePayload_perm (payload : Payload) {source other : Extracted} (hlstat : other.lstat = source.lstat)
    (hperm : other.entries.Perm source.entries) : resolvePayload payload other = resolvePayload payload source := by
  have hsort : (other.entries.insertionSort fun a b => a.relative ≤ b.relative) =
      source.entries.insertionSort fun a b => a.relative ≤ b.relative := sort_perm hperm source.distinct
  have hinventory : archiveInventory other = archiveInventory source := congrArg inventoryOf hsort
  have htarget : selectorTarget other = selectorTarget source := by
    funext role selector
    simp only [selectorTarget, hlstat]
  simp only [resolvePayload, hinventory, htarget]

/-! ## Stored payloads -/

/-- An accepted member is nothing, or a list of texts. -/
theorem exists_texts {value : Json} {what : String} {canon : List String} (h : canonicalSelectors value what = .ok canon) :
    ∃ selectors, (value = .null ∧ selectors = [] ∨ value = texts selectors) ∧ canonicalSelectors (texts selectors) what = .ok canon := by
  cases value with
  | null => exact ⟨[], .inl ⟨rfl, rfl⟩, h⟩
  | arr values =>
      have hstr : ∀ element ∈ values, element ∈ Set.range Json.str := by
        have hparsed := h
        simp only [canonicalSelectors, bind_eq_ok, Except.ok.injEq, exists_eq_left'] at hparsed
        obtain ⟨paths, hpaths, _⟩ := hparsed
        intro element hmem
        obtain ⟨path, hpath⟩ := exists_mapM_eq_ok.1 ⟨paths, hpaths⟩ element hmem
        cases element <;> first | exact ⟨_, rfl⟩ | cases hpath
      obtain ⟨selectors, rfl⟩ : values ∈ Set.range (List.map Json.str) := by
        rw [Set.range_list_map]
        exact hstr
      exact ⟨selectors, .inr rfl, h⟩
  | _ => cases h

/-- What an accepted payload is made of. -/
theorem normalizeArchivePayload_eq_ok {value : Json} {payload : Payload} (h : normalizeArchivePayload value = .ok payload) :
    ∃ fields included, (value = .null ∧ fields = [] ∨ value = .obj fields) ∧ payload.mode ∈ ["paths", "entire_archive"] ∧
      canonicalSelectors (Json.get fields "include") "artifact.payload.include" = .ok included ∧
        payload.include = (if payload.mode = "entire_archive" then [] else included) ∧
          canonicalSelectors (Json.get fields "exclude") "artifact.payload.exclude" = .ok payload.exclude := by
  have hfields : ∀ fields, (do
      let mode := orText (Json.get fields "mode") "paths"
      refuse (mode ∉ ["paths", "entire_archive"]) (.value "unsupported archive payload mode")
      let included ← canonicalSelectors (Json.get fields "include") "artifact.payload.include"
      let exclude ← canonicalSelectors (Json.get fields "exclude") "artifact.payload.exclude"
      return { mode, «include» := if mode = "entire_archive" then [] else included, exclude } : Fallible Payload) =
        .ok payload → ∃ included, payload.mode ∈ ["paths", "entire_archive"] ∧
          canonicalSelectors (Json.get fields "include") "artifact.payload.include" = .ok included ∧
            payload.include = (if payload.mode = "entire_archive" then [] else included) ∧
              canonicalSelectors (Json.get fields "exclude") "artifact.payload.exclude" = .ok payload.exclude := by
    intro fields hpayload
    simp only [bind_eq_ok, pure_eq_ok, refuse_eq_ok, not_not] at hpayload
    obtain ⟨_, hmode, included, hincluded, exclude, hexclude, rfl⟩ := hpayload
    exact ⟨included, hmode, hincluded, rfl, hexclude⟩
  cases value with
  | null =>
      obtain ⟨included, hmode, hrest⟩ := hfields [] h
      exact ⟨[], included, .inl ⟨rfl, rfl⟩, hmode, hrest⟩
  | obj fields =>
      obtain ⟨included, hmode, hrest⟩ := hfields fields h
      exact ⟨fields, included, .inr rfl, hmode, hrest⟩
  | _ => cases h

/-- A stored payload is its own canonical form. -/
theorem normalizeArchivePayload_toJson {value : Json} {payload : Payload} (h : normalizeArchivePayload value = .ok payload) :
    normalizeArchivePayload payload.toJson = .ok payload := by
  obtain ⟨fields, included, _, hmode, hincluded, hinclude, hexclude⟩ := normalizeArchivePayload_eq_ok h
  have hcanon {what : String} {value : Json} {canon : List String} (haccepted : canonicalSelectors value what = .ok canon) :
      canonicalSelectors (texts canon) what = .ok canon := by
    obtain ⟨selectors, _, htexts⟩ := exists_texts haccepted
    exact canonicalSelectors_canonical htexts
  have hincludes : canonicalSelectors (texts payload.include) "artifact.payload.include" = .ok payload.include := by
    rw [hinclude]
    split
    · rfl
    · exact hcanon hincluded
  have htext : orText (.str payload.mode) "paths" = payload.mode := by
    simp only [List.mem_cons, List.not_mem_nil, or_false] at hmode
    rcases hmode with hmode | hmode <;> rw [hmode] <;> decide +kernel
  have hexcludes := hcanon hexclude
  have hnormalize : normalizeArchivePayload payload.toJson = (do
      refuse (orText (.str payload.mode) "paths" ∉ ["paths", "entire_archive"]) (.value "unsupported archive payload mode")
      let included ← canonicalSelectors (texts payload.include) "artifact.payload.include"
      let exclude ← canonicalSelectors (texts payload.exclude) "artifact.payload.exclude"
      return { mode := orText (.str payload.mode) "paths",
               «include» := if orText (.str payload.mode) "paths" = "entire_archive" then [] else included, exclude }) := rfl
  have hkept : (if payload.mode = "entire_archive" then [] else payload.include) = payload.include := by
    split
    · next hentire => rw [hinclude, if_pos hentire]
    · rfl
  have hrefuse : refuse (payload.mode ∉ ["paths", "entire_archive"]) (RecipeError.value "unsupported archive payload mode") =
      .ok () := refuse_eq_ok.2 (not_not.2 hmode)
  rw [hnormalize, htext, hincludes, hexcludes, hrefuse]
  simp only [bind, Except.bind, pure, Except.pure, hkept]

/-- The selectors of a stored payload match what the written ones match. -/
theorem selectorsMatch_normalizeArchivePayload {fields : Json.Fields} {payload : Payload}
    (h : normalizeArchivePayload (.obj fields) = .ok payload) {selectors : List String} (candidate : String) :
    (Json.get fields "include" = texts selectors → payload.mode ≠ "entire_archive" →
      selectorsMatch payload.include candidate = selectorsMatch selectors candidate) ∧
    (Json.get fields "exclude" = texts selectors →
      selectorsMatch payload.exclude candidate = selectorsMatch selectors candidate) := by
  obtain ⟨fields', included, hfields, _, hincluded, hinclude, hexclude⟩ := normalizeArchivePayload_eq_ok h
  obtain rfl : fields' = fields := by
    rcases hfields with ⟨hnull, _⟩ | hobj
    · exact nomatch hnull
    · exact (Json.obj.inj hobj).symm
  constructor
  · intro hget hmode
    rw [hget] at hincluded
    rw [hinclude, if_neg hmode]
    exact selectorsMatch_canonical hincluded candidate
  · intro hget
    rw [hget] at hexclude
    exact selectorsMatch_canonical hexclude candidate

/-- Canonical selectors match what the written ones match, and do not depend on how they were
written; a plan has the files that the selectors choose, however the directory is listed. -/
theorem selectors_keep_meaning :
    (∀ what selectors canon, canonicalSelectors (texts selectors) what = .ok canon →
      (∀ candidate, selectorsMatch canon candidate = selectorsMatch selectors candidate) ∧
      canonicalSelectors (texts canon) what = .ok canon ∧
      ∀ others, (∀ selector, selector ∈ others ↔ selector ∈ selectors) → canonicalSelectors (texts others) what = .ok canon) ∧
    (∀ value payload, normalizeArchivePayload value = .ok payload → normalizeArchivePayload payload.toJson = .ok payload) ∧
    (∀ fields payload, normalizeArchivePayload (.obj fields) = .ok payload → ∀ selectors candidate,
      (Json.get fields "include" = texts selectors → payload.mode ≠ "entire_archive" →
        selectorsMatch payload.include candidate = selectorsMatch selectors candidate) ∧
      (Json.get fields "exclude" = texts selectors →
        selectorsMatch payload.exclude candidate = selectorsMatch selectors candidate)) ∧
    ∀ payload source, (∀ plan, resolvePayload payload source = .ok plan → ∀ file, file ∈ plan.files ↔
        ∃ entry ∈ source.entries, entry.kind = .regular ∧
          (payload.mode = "entire_archive" ∨ selectorsMatch payload.include entry.relative = .ok true) ∧
            selectorsMatch payload.exclude entry.relative = .ok false ∧ fileRecord entry = file) ∧
      ∀ other : Extracted, other.lstat = source.lstat → other.entries.Perm source.entries →
        resolvePayload payload other = resolvePayload payload source := by
  refine ⟨?_, ?_, ?_, ?_⟩
  · intro what selectors canon h
    exact ⟨selectorsMatch_canonical h, canonicalSelectors_canonical h, fun _ hmem => canonicalSelectors_of_mem_iff h hmem⟩
  · exact fun _ _ h => normalizeArchivePayload_toJson h
  · exact fun _ _ h selectors candidate => selectorsMatch_normalizeArchivePayload h candidate
  · intro payload source
    exact ⟨fun _ h => mem_files_of_resolvePayload h, fun _ hlstat hperm => resolvePayload_perm payload hlstat hperm⟩

/-- A directory with a file below it is the directory alone. -/
theorem selectors_keep_meaning_library :
    canonicalSelectors (texts ["lib/a.so", "bin/tool", "lib/"]) "artifact.payload.include" = .ok ["bin/tool", "lib/"] ∧
      selectorsMatch ["bin/tool", "lib/"] "lib/a.so" = selectorsMatch ["lib/a.so", "bin/tool", "lib/"] "lib/a.so" := by
  have haccepted : canonicalSelectors (texts ["lib/a.so", "bin/tool", "lib/"]) "artifact.payload.include" =
      .ok ["bin/tool", "lib/"] := by decide +kernel
  exact ⟨haccepted, (selectors_keep_meaning.1 _ _ _ haccepted).1 "lib/a.so"⟩

end DebBuilder.Archive
