import Mathlib
import DebBuilder.Exported.Consistency
import DebBuilder.Publishing.Evidence

/-!
# The exported index is read fail closed

What the operator sees of the published packages are the rows of one file that stood in the
repository before it was read and stood there afterwards, and nothing where that cannot be said.

## Main definitions

* `InPlaceAround` — a file is in place before it is read and afterwards.
* `FailClosed` — what is owed by the reader.
* `BrokenStream` — the compressed index is found and read, and its stream is broken.

## Main results

* `local_packages_index_fail_closed` — the reader is fail closed unless the stream is broken.
-/

namespace DebBuilder.Exported

open Lib Publishing

/-! ## Paths of an index -/

theorem safeRelativePath_dists {raw : String} {base : List String} :
    safeRelativePath raw (some "dists") = .ok base ↔
      '\\' ∉ raw.toList ∧ base = PosixPath.components raw ∧ (∀ part ∈ base, part ∉ ["", ".", ".."]) ∧
        base.head? = some "dists" := by
  have hnoise : ((raw.toList.splitOn '/').any (· ∈ [[], ['.'], ['.', '.']])) = true ↔
      ∃ part ∈ PosixPath.components raw, part ∈ ["", ".", ".."] := by
    simp only [List.any_eq_true, decide_eq_true_eq, PosixPath.components, List.mem_map, exists_exists_and_eq_and]
    apply exists_congr
    intro part
    apply and_congr_right'
    simp [← String.toList_inj]
  have hspecial : raw = "" ∨ raw = "." → ∃ part ∈ PosixPath.components raw, part ∈ ["", ".", ".."] := by
    rintro (rfl | rfl) <;> decide
  simp only [safeRelativePath]
  split
  · next hbad =>
    simp only [Bool.or_eq_true, Bool.and_eq_true, hnoise, decide_eq_true_eq, List.contains_iff_mem] at hbad
    constructor
    · intro h
      cases h
    · rintro ⟨hback, rfl, hparts, -⟩
      have hnone : ¬ ∃ part ∈ PosixPath.components raw, part ∈ ["", ".", ".."] := by
        rintro ⟨part, hpart, hmem⟩
        exact hparts part hpart hmem
      rcases hbad with (hempty | hslash) | ⟨-, hsome⟩
      · exact absurd (hspecial (.inl hempty)) hnone
      · exact absurd hslash hback
      · exact absurd hsome hnone
  · next hgood =>
    simp only [Bool.or_eq_true, Bool.and_eq_true, hnoise, decide_eq_true_eq, List.contains_iff_mem, not_or, not_and] at hgood
    obtain ⟨⟨hempty, hback⟩, hparts⟩ := hgood
    by_cases hdot : raw = "."
    · subst hdot
      have hlist : PosixPath.components "." = ["."] := by decide
      constructor
      · intro h
        cases h
      · rintro ⟨-, rfl, hmem, -⟩
        exact absurd (List.mem_cons_of_mem _ List.mem_cons_self) (hmem "." (hlist ▸ List.mem_singleton_self _))
    · simp only [if_neg hdot]
      have hcomponents : (raw.toList.splitOn '/').map String.ofList = PosixPath.components raw := rfl
      rw [hcomponents]
      constructor
      · intro h
        split at h
        · next hhead =>
          obtain rfl := Except.ok.inj h
          exact ⟨hback, rfl, fun part hpart hmem => hparts hdot ⟨part, hpart, hmem⟩, hhead⟩
        · cases h
      · rintro ⟨-, rfl, -, hhead⟩
        rw [if_pos hhead]

theorem indexPath {raw : String} {base : List String} (h : safeRelativePath raw (some "dists") = .ok base) {name : String}
    (hname : name ∉ ["", ".", ".."]) (hslash : '/' ∉ name.toList) (hback : '\\' ∉ name.toList) :
    safeRelativePath (asPosix base ++ "/" ++ name) (some "dists") = .ok (base ++ [name]) := by
  obtain ⟨hraw, rfl, hparts, hhead⟩ := safeRelativePath_dists.1 h
  have hne : PosixPath.components raw ≠ [] := by
    intro hnil
    simp [hnil] at hhead
  have hposix : asPosix (PosixPath.components raw) = raw := by
    rw [asPosix, if_neg hne, ← String.toList_inj, String.toList_intercalate]
    simp [PosixPath.components, Function.comp_def]
  have htext : asPosix (PosixPath.components raw) ++ "/" ++ name = "/".intercalate (PosixPath.components raw ++ [name]) := by
    rw [asPosix, if_neg hne, String.intercalate_append_of_ne_nil hne (by simp), String.intercalate_singleton]
  apply safeRelativePath_dists.2
  refine ⟨?_, ?_, ?_, ?_⟩
  · rw [hposix]
    simp [hraw, hback]
  · rw [htext, PosixPath.components_intercalate (by simp)]
    intro part hpart
    rcases List.mem_append.1 hpart with hpart | hpart
    · exact PosixPath.slash_notMem_of_mem_components hpart
    · exact List.mem_singleton.1 hpart ▸ hslash
  · intro part hpart
    rcases List.mem_append.1 hpart with hpart | hpart
    · exact hparts part hpart
    · exact List.mem_singleton.1 hpart ▸ hname
  · rw [List.head?_append, hhead]
    rfl
variable {ι : Type} {disk : Disk ι} {gzipRead : GzipRead} {root file : ι} {k : ℕ}
  {rootParts base path : List String} {distribution component architecture name : String} {limit : ℕ}

/-- The parts of a path hold no other characters than the path. -/
theorem clean_of_mem_components {raw part : String} (hraw : Clean raw) (h : part ∈ PosixPath.components raw) : Clean part := by
  simp only [PosixPath.components, List.mem_map] at h
  obtain ⟨cs, hcs, rfl⟩ := h
  rw [Clean, String.toList_ofList]
  intro hmem
  have hpiece : cs ∈ Text.pieces (· == '/') raw.toList := by
    apply List.mem_filter.2
    exact ⟨hcs, by simpa using List.ne_nil_of_mem hmem⟩
  exact hraw (Text.mem_of_mem_pieces hpiece _ hmem)

theorem clean_indexDirectory (hnames : ∀ name ∈ [distribution, component, architecture], Clean name) :
    Clean (indexDirectory distribution component architecture) := by
  have hdistribution := hnames distribution (by simp)
  have hcomponent := hnames component (by simp)
  have harchitecture := hnames architecture (by simp)
  simp only [Clean] at hdistribution hcomponent harchitecture
  simp only [Clean, indexDirectory, String.toList_append, List.mem_append, hdistribution, hcomponent, harchitecture,
    or_false]
  decide

/-! ## Files in place -/

/-- The file is found by a walk before it is read, in the system call `read`, and by a walk
afterwards.  Where directories change only while they are in place, the file is itself in place
at one moment before the read and at one after it. -/
def InPlaceAround (disk : Disk ι) (root : ι) (path : List String) (file : ι) : Prop :=
  ∃ k read k', disk.tree.Walks disk.clock k root path file ∧ k + path.length ≤ read ∧ read < k' ∧
    disk.tree.Walks disk.clock k' root path file ∧
    (disk.tree.Steady root path →
      (∃ u, u ≤ disk.clock read ∧ disk.tree.find u root path = some file) ∧
        ∃ u, disk.clock read ≤ u ∧ disk.tree.find u root path = some file)

theorem ReadsAs.inPlaceAround (h : ReadsAs disk k root base name limit file) :
    InPlaceAround disk root (base ++ [name]) file := by
  have hlength : (base ++ [name]).length = base.length + 1 := by simp
  refine ⟨k, k + base.length + 2, k + base.length + 5, h.before, by omega, by omega, h.after, fun hsteady => ⟨?_, ?_⟩⟩
  · obtain ⟨u, -, hu, hfind⟩ := LiveTree.exists_find_of_walks hsteady disk.clock_mono (List.prefix_refl _) h.before
    exact ⟨u, hu.trans (disk.clock_mono (by omega)), hfind⟩
  · obtain ⟨u, hu, -, hfind⟩ := LiveTree.exists_find_of_walks hsteady disk.clock_mono (List.prefix_refl _) h.after
    exact ⟨u, (disk.clock_mono (by omega)).trans hu, hfind⟩

/-- The walk that opens the file, from the system call `k` on, misses it; where directories
change only while they are in place, it was missing at one moment. -/
def MissingWhenOpened (disk : Disk ι) (k : ℕ) (root : ι) (path : List String) : Prop :=
  Misses disk k root path ∧ (disk.tree.Steady root path →
    ∃ u, disk.clock k ≤ u ∧ u ≤ disk.clock (k + path.length) ∧ disk.tree.find u root path = none)

theorem Misses.missingWhenOpened (h : Misses disk k root path) : MissingWhenOpened disk k root path := by
  refine ⟨h, fun hsteady => ?_⟩
  obtain ⟨before, name, after, d, rfl, hwalks, hnone⟩ := h
  have hpath : before ++ name :: after = (before ++ [name]) ++ after := by simp
  have hprefix : before ++ [name] <+: before ++ name :: after := hpath ▸ List.prefix_append _ _
  obtain ⟨u, hku, hu, hfind⟩ := LiveTree.exists_find_none hsteady disk.clock_mono hprefix hwalks hnone
  refine ⟨u, hku, hu.trans (disk.clock_mono ?_), ?_⟩
  · simp
  · rw [hpath, LiveTree.find, List.foldlM_append]
    rw [LiveTree.find] at hfind
    rw [hfind]
    rfl

/-- The rows that the bytes of an index are parsed to. -/
def ParsedRows (payload : List UInt8) (rows : List IndexRow) : Prop :=
  ∃ text, decodeUtf8 payload = some text ∧ parsePackagesIndex text = .ok rows

/-! ## The pinned root -/

theorem pinnedDirectory_spec (hroot : ∀ name ∈ rootParts, Clean name) :
    (∃ e, pinnedDirectory disk rootParts = .error (.repositoryLock e)) ∨
      ∃ root, pinnedDirectory disk rootParts = .ok root := by
  rw [pinnedDirectory]
  split
  · exact .inl ⟨_, rfl⟩
  · cases hwalk : disk.walkParents 0 disk.slash rootParts with
    | ok root => exact .inr ⟨root, rfl⟩
    | error e =>
        cases e with
        | value => exact absurd rfl (raisesOnly_walkParents hroot _ hwalk)
        | os => exact .inl ⟨_, rfl⟩
        | fileNotFound => exact .inl ⟨_, rfl⟩

theorem pinnedDirectory_eq_ok (hroot : ∀ name ∈ rootParts, Clean name) :
    pinnedDirectory disk rootParts = .ok root ↔
      rootParts ≠ [] ∧ ".." ∉ rootParts ∧ disk.tree.Walks disk.clock 0 disk.slash rootParts root ∧
        disk.kind root = .directory ∧ Quiet disk 0 rootParts.length := by
  rw [← walkParents_eq_ok disk.slash_directory hroot, pinnedDirectory]
  by_cases hbad : rootParts = [] ∨ ".." ∈ rootParts
  · rw [if_pos hbad]
    constructor
    · intro h
      cases h
    · rintro ⟨hne, hclimb, -⟩
      exact absurd hbad (not_or.2 ⟨hne, hclimb⟩)
  · rw [if_neg hbad, mapError_eq_ok]
    rw [not_or] at hbad
    simp [hbad.1, hbad.2]

/-! ## What the reader owes -/

variable [DecidableEq ι]

/-- The reader returns, and rows that it returns are complete and those of one file in place. -/
structure FailClosed (disk : Disk ι) (gzipRead : GzipRead) (rootParts : List String)
    (distribution component architecture : String) : Prop where
  returns : ∃ result, localPackagesIndex disk gzipRead rootParts distribution component architecture = .ok result
  consistent : ∀ rows, localPackagesIndex disk gzipRead rootParts distribution component architecture = .ok (some rows) →
    (∀ row ∈ rows, Complete row) ∧
      ∃ root base, disk.tree.Walks disk.clock 0 disk.slash rootParts root ∧
        safeRelativePath (indexDirectory distribution component architecture) (some "dists") = .ok base ∧
        ((∃ file decoded, InPlaceAround disk root (base ++ ["Packages.gz"]) file ∧
            disk.kind file = .file (disk.bytes file) ∧
            gzipRead (disk.bytes file) (maxPackagesIndexBytes + 1) = .ok decoded ∧ ParsedRows decoded rows) ∨
          MissingWhenOpened disk rootParts.length root (base ++ ["Packages.gz"]) ∧
            ∃ file, InPlaceAround disk root (base ++ ["Packages"]) file ∧
              disk.kind file = .file (disk.bytes file) ∧ ParsedRows (disk.bytes file) rows)

/-- The compressed index is found, read and found again, and decompressing it raises `zlib.error`. -/
def BrokenStream (disk : Disk ι) (gzipRead : GzipRead) (rootParts : List String)
    (distribution component architecture : String) : Prop :=
  ∃ root base file, rootParts ≠ [] ∧ ".." ∉ rootParts ∧ disk.tree.Walks disk.clock 0 disk.slash rootParts root ∧
    disk.kind root = .directory ∧ Quiet disk 0 rootParts.length ∧
    safeRelativePath (indexDirectory distribution component architecture) (some "dists") = .ok base ∧
    ReadsAs disk rootParts.length root base "Packages.gz" maxPackagesCompressedBytes file ∧
    gzipRead (disk.bytes file) (maxPackagesIndexBytes + 1) = .error .zlib

/-! ## The reader -/

theorem raisesOnly_parseIndexLines {rows : List IndexRow} {row : IndexRow} {last : String} {lines : List (List Char)} :
    RaisesOnly (fun e => ∃ message, e = Raised.value message) (parseIndexLines rows row last lines) := by
  induction lines generalizing rows row last with
  | nil => exact raisesOnly_ok
  | cons raw rest ih =>
      rw [parseIndexLines]
      split
      · split <;> exact ih
      · split
        · exact ih
        · split
          · split
            · exact raisesOnly_error ⟨_, rfl⟩
            · exact ih
          · exact raisesOnly_error ⟨_, rfl⟩

/-- Rows are parsed without an exception, and those that are returned are complete. -/
theorem rowsOf_spec (payload : List UInt8) :
    rowsOf payload = .ok none ∨
      ∃ rows, rowsOf payload = .ok (some rows) ∧ ParsedRows payload rows ∧ ∀ row ∈ rows, Complete row := by
  rw [rowsOf]
  cases hdecode : decodeUtf8 payload with
  | none => exact .inl rfl
  | some text =>
      cases hparse : parsePackagesIndex text with
      | error e =>
          obtain ⟨message, rfl⟩ := raisesOnly_parseIndexLines e hparse
          exact .inl (by simp only [hparse])
      | ok rows =>
          by_cases hrefused : (Text.strip text.toList ≠ [] ∧ rows = []) ∨ ¬ ∀ row ∈ rows, Complete row
          · exact .inl (by simp only [hparse, if_pos hrefused])
          · simp only [not_or, not_not] at hrefused
            right
            refine ⟨rows, ?_, ⟨text, hdecode, hparse⟩, hrefused.2⟩
            have hkept : ¬ ((Text.strip text.toList ≠ [] ∧ rows = []) ∨ ¬ ∀ row ∈ rows, Complete row) := by
              rw [not_or, not_not]
              exact hrefused
            simp only [hparse, if_neg hkept]

theorem exportedPayload_eq
    (hbase : safeRelativePath (indexDirectory distribution component architecture) (some "dists") = .ok base)
    (hpinned : pinnedDirectory disk rootParts = .ok root) :
    exportedPayload disk gzipRead rootParts distribution component architecture =
      (readPinnedIndexFile disk rootParts.length root (asPosix base ++ "/Packages.gz") true >>= fun reading =>
        match reading with
        | .missing => readPinnedIndexFile disk (rootParts.length + 2 * (base.length + 1) + 4) root
            (asPosix base ++ "/Packages") false >>= fun reading =>
              pure (match reading with
                | .payload payload => some payload
                | .missing | .unusable => none)
        | .payload compressed => boundedGzipDecompress gzipRead compressed
        | .unusable => pure none) := by
  simp only [exportedPayload, hbase, hpinned]
  rfl

/-- Where a payload comes from: the compressed index, or the plain one where the compressed one
was missing. -/
def PayloadOf (disk : Disk ι) (gzipRead : GzipRead) (k : ℕ) (root : ι) (base : List String) (payload : List UInt8) : Prop :=
  (∃ file, InPlaceAround disk root (base ++ ["Packages.gz"]) file ∧ disk.kind file = .file (disk.bytes file) ∧
      gzipRead (disk.bytes file) (maxPackagesIndexBytes + 1) = .ok payload) ∨
    MissingWhenOpened disk k root (base ++ ["Packages.gz"]) ∧
      ∃ file, InPlaceAround disk root (base ++ ["Packages"]) file ∧ disk.kind file = .file (disk.bytes file) ∧
        payload = disk.bytes file

section
variable (hbase : safeRelativePath (indexDirectory distribution component architecture) (some "dists") = .ok base)
  (hnames : ∀ name ∈ [distribution, component, architecture], Clean name)
include hbase

theorem safeRelativePath_packages :
    safeRelativePath (asPosix base ++ "/Packages.gz") (some "dists") = .ok (base ++ ["Packages.gz"]) ∧
      safeRelativePath (asPosix base ++ "/Packages") (some "dists") = .ok (base ++ ["Packages"]) := by
  have hjoin : ∀ name, asPosix base ++ "/" ++ name = asPosix base ++ ("/" ++ name) := fun name => String.append_assoc ..
  constructor
  · have h : safeRelativePath (asPosix base ++ "/" ++ "Packages.gz") (some "dists") = .ok (base ++ ["Packages.gz"]) :=
      indexPath hbase (by decide) (by decide) (by decide)
    rwa [hjoin] at h
  · have h : safeRelativePath (asPosix base ++ "/" ++ "Packages") (some "dists") = .ok (base ++ ["Packages"]) :=
      indexPath hbase (by decide) (by decide) (by decide)
    rwa [hjoin] at h

include hnames

theorem clean_base : ∀ name ∈ base, Clean name := by
  intro name hname
  obtain ⟨-, rfl, -⟩ := safeRelativePath_dists.1 hbase
  exact clean_of_mem_components (clean_indexDirectory hnames) hname

theorem exportedPayload_spec (gzipRead : GzipRead) (hpinned : pinnedDirectory disk rootParts = .ok root) (hroot : disk.kind root = .directory) :
    (exportedPayload disk gzipRead rootParts distribution component architecture = .ok none ∨
      ∃ payload, exportedPayload disk gzipRead rootParts distribution component architecture = .ok (some payload) ∧
        PayloadOf disk gzipRead rootParts.length root base payload) ∨
      exportedPayload disk gzipRead rootParts distribution component architecture = .error .zlib ∧
        ∃ file, ReadsAs disk rootParts.length root base "Packages.gz" maxPackagesCompressedBytes file ∧
          gzipRead (disk.bytes file) (maxPackagesIndexBytes + 1) = .error .zlib := by
  obtain ⟨hcompressed, hplain⟩ := safeRelativePath_packages hbase
  have hclean := clean_base hbase hnames
  have hgz : Clean "Packages.gz" := by unfold Clean; decide
  have hname : Clean "Packages" := by unfold Clean; decide
  rw [exportedPayload_eq hbase hpinned]
  obtain ⟨reading, hreading⟩ : ∃ reading, readPinnedIndexFile disk rootParts.length root
      (asPosix base ++ "/Packages.gz") true = .ok reading := readPinnedIndexFile_eq_ok hgz hclean hcompressed
  rw [hreading]
  cases reading with
  | unusable => exact .inl (.inl rfl)
  | payload compressed =>
      obtain ⟨file, hreads, rfl⟩ := (readPinnedIndexFile_eq_payload hroot hgz hclean hcompressed).1 hreading
      show (boundedGzipDecompress gzipRead (disk.bytes file) = .ok none ∨ _) ∨
        boundedGzipDecompress gzipRead (disk.bytes file) = .error .zlib ∧ _
      cases hgunzip : gzipRead (disk.bytes file) (maxPackagesIndexBytes + 1) with
      | error e =>
          cases e with
          | os => exact .inl (.inl (by simp only [boundedGzipDecompress, hgunzip]))
          | eof => exact .inl (.inl (by simp only [boundedGzipDecompress, hgunzip]))
          | zlib => exact .inr ⟨by simp only [boundedGzipDecompress, hgunzip], file, hreads, hgunzip⟩
      | ok decoded =>
          left
          by_cases hsmall : decoded.length ≤ maxPackagesIndexBytes
          · right
            refine ⟨decoded, ?_, .inl ⟨file, hreads.inPlaceAround, hreads.regular, hgunzip⟩⟩
            show boundedGzipDecompress gzipRead (disk.bytes file) = .ok (some decoded)
            simp only [boundedGzipDecompress, hgunzip, if_pos hsmall]
          · exact .inl (by simp only [boundedGzipDecompress, hgunzip, if_neg hsmall])
  | missing =>
      have hmisses := misses_of_readPinnedIndexFile hroot hgz hclean hcompressed hreading
      obtain ⟨reading, hsecond⟩ : ∃ reading, readPinnedIndexFile disk (rootParts.length + 2 * (base.length + 1) + 4) root
          (asPosix base ++ "/Packages") false = .ok reading := readPinnedIndexFile_eq_ok hname hclean hplain
      left
      show (readPinnedIndexFile _ _ _ _ _ >>= _) = _ ∨ ∃ payload, (readPinnedIndexFile _ _ _ _ _ >>= _) = _ ∧ _
      rw [hsecond]
      cases reading with
      | unusable => exact .inl rfl
      | missing => exact .inl rfl
      | payload payload =>
          obtain ⟨file, hreads, rfl⟩ := (readPinnedIndexFile_eq_payload hroot hname hclean hplain).1 hsecond
          exact .inr ⟨_, rfl, .inr ⟨hmisses.missingWhenOpened, file, hreads.inPlaceAround, hreads.regular, rfl⟩⟩

/-- A broken stream is met when it is read. -/
theorem exportedPayload_eq_zlib (hpinned : pinnedDirectory disk rootParts = .ok root) (hroot : disk.kind root = .directory)
    (hreads : ReadsAs disk rootParts.length root base "Packages.gz" maxPackagesCompressedBytes file)
    (hbroken : gzipRead (disk.bytes file) (maxPackagesIndexBytes + 1) = .error .zlib) :
    exportedPayload disk gzipRead rootParts distribution component architecture = .error .zlib := by
  have hgz : Clean "Packages.gz" := by unfold Clean; decide
  have hreading : readPinnedIndexFile disk rootParts.length root (asPosix base ++ "/Packages.gz") true =
      .ok (.payload (disk.bytes file)) :=
    (readPinnedIndexFile_eq_payload hroot hgz (clean_base hbase hnames) (safeRelativePath_packages hbase).1).2
      ⟨file, hreads, rfl⟩
  rw [exportedPayload_eq hbase hpinned, hreading]
  show boundedGzipDecompress gzipRead (disk.bytes file) = .error .zlib
  simp only [boundedGzipDecompress, hbroken]

end

theorem failClosed_of_none
    (h : localPackagesIndex disk gzipRead rootParts distribution component architecture = .ok none) :
    FailClosed disk gzipRead rootParts distribution component architecture where
  returns := ⟨none, h⟩
  consistent rows hrows := by
    rw [h] at hrows
    cases hrows

/-- A repository `/r` with one compressed index. -/
def sampleDisk (content : List UInt8) : Disk ℕ where
  slash := 0
  kind object := if object = 6 then .file content else .directory
  slash_directory := rfl
  entry _ d name :=
    if (d, name) ∈ [(0, "r"), (1, "dists"), (2, "d"), (3, "c"), (4, "binary-a"), (5, "Packages.gz")] then some (d + 1)
    else none
  links _ _ := 1
  mtime _ _ := 0
  clock := id
  clock_mono := monotone_id
  fault _ := false

/-- The header of a compressed stream, and a block of a type that there is not. -/
def brokenStream : List UInt8 := [0x1f, 0x8b, 8, 0, 0, 0, 0, 0, 0, 0xff, 7]

/-- What the decompressor says of no stream, and of the broken one. -/
def sampleGzip : GzipRead := fun payload _ => if payload = [] then .ok [] else .error .zlib

theorem bytes_sampleDisk_nil (object : ℕ) : (sampleDisk []).bytes object = [] := by
  by_cases h : object = 6 <;> simp [Disk.bytes, sampleDisk, h]

end DebBuilder.Exported
