import Mathlib
import DebBuilder.Lib.LiveTree
import DebBuilder.Publishing.Repository

/-!
# The reader of the exported index

The exported `Packages` file of one architecture is read without the lock of the publisher, who
replaces files and directories meanwhile.  The walk to the file is pinned to the repository root
and follows no link; the file is read once it is open, and used only if a second walk from the
root finds it again.

Every system call has its number in the call, and happens at the moment that the clock gives it,
so that anything may have happened since the one before.

## Main definitions

* `Disk` — the file system while the reader runs.
* `readPinnedIndexFile` — one index file, missing, unusable or read.
* `localPackagesIndex` — the rows of the exported index.
-/

namespace DebBuilder.Exported

open Lib Publishing

/-! ## The file system -/

/-- What an object is; `other` is a FIFO, a socket or a device. -/
inductive Kind
  | directory
  | file (bytes : List UInt8)
  | link
  | other
  deriving DecidableEq

/-- The file system while the reader runs.  Files are replaced and not written to, so that what
an object is never changes, and the number of an open file is given to no other one. -/
structure Disk (ι : Type) where
  slash : ι
  kind : ι → Kind
  slash_directory : kind slash = .directory
  entry : ℕ → ι → String → Option ι
  links : ℕ → ι → ℕ
  mtime : ℕ → ι → ℕ
  /-- The moment of each system call. -/
  clock : ℕ → ℕ
  clock_mono : Monotone clock
  /-- The system calls that raise an `OSError` whatever they find. -/
  fault : ℕ → Bool

/-- The exceptions of a system call; `value` is the `ValueError` for a NUL in a name. -/
inductive SysError
  | fileNotFound
  | os
  | value
  deriving DecidableEq

/-- What `stat` says: the device and the inode together are the object. -/
structure Info (ι : Type) where
  object : ι
  size : ℕ
  mtime : ℕ
  nlink : ℕ
  regular : Bool

/-- `revision(info)` -/
def Info.revision {ι : Type} (info : Info ι) : ι × ℕ × ℕ := (info.object, info.size, info.mtime)

namespace Disk
variable {ι : Type} (disk : Disk ι)

def tree : LiveTree ι := ⟨fun object => disk.kind object = .directory, disk.entry⟩

/-- The bytes of a regular file. -/
def bytes (object : ι) : List UInt8 :=
  match disk.kind object with
  | .file bytes => bytes
  | _ => []

def info (k : ℕ) (object : ι) : Info ι where
  object := object
  size := (disk.bytes object).length
  mtime := disk.mtime (disk.clock k) object
  nlink := disk.links (disk.clock k) object
  regular := disk.kind object = .file (disk.bytes object)

/-- The object that the system call `k` finds under a name of an open directory. -/
def lookUp (k : ℕ) (d : ι) (name : String) : Except SysError ι :=
  if Char.ofNat 0 ∈ name.toList then .error .value
  else if disk.fault k then .error .os
  else match disk.entry (disk.clock k) d name with
    | none => .error .fileNotFound
    | some object => .ok object

/-- `os.open(name, O_DIRECTORY | O_NOFOLLOW, dir_fd=d)` -/
def openDirectory (k : ℕ) (d : ι) (name : String) : Except SysError ι :=
  disk.lookUp k d name >>= fun object => if disk.kind object = .directory then .ok object else .error .os

/-- `os.open(name, O_NOFOLLOW | O_NONBLOCK, dir_fd=d)` -/
def openFile (k : ℕ) (d : ι) (name : String) : Except SysError ι :=
  disk.lookUp k d name >>= fun object => if disk.kind object = .link then .error .os else .ok object

/-- `os.stat(name, dir_fd=d, follow_symlinks=False)` -/
def stat (k : ℕ) (d : ι) (name : String) : Except SysError (Info ι) :=
  disk.info k <$> disk.lookUp k d name

/-- `os.fstat(descriptor)` -/
def fstat (k : ℕ) (object : ι) : Except SysError (Info ι) :=
  if disk.fault k then .error .os else .ok (disk.info k object)

/-- Opens one directory below the other. -/
def walkParents : ℕ → ι → List String → Except SysError ι
  | _, d, [] => .ok d
  | k, d, name :: names => disk.openDirectory k d name >>= fun child => walkParents (k + 1) child names

end Disk

/-! ## One file -/

def maxPackagesCompressedBytes : ℕ := 8 * 1024 * 1024
def maxPackagesIndexBytes : ℕ := 32 * 1024 * 1024

/-- `maximum` -/
def maximum (compressed : Bool) : ℕ := if compressed then maxPackagesCompressedBytes else maxPackagesIndexBytes

/-- The loop of `os.read`: the chunks of what is left of the file, at most `remaining` bytes. -/
def readChunks (rest : List UInt8) (remaining : ℕ) : List (List UInt8) :=
  let chunk := rest.take (min (1024 * 1024) remaining)
  if _h : remaining = 0 ∨ chunk = [] then []
  else chunk :: readChunks (rest.drop chunk.length) (remaining - chunk.length)
  termination_by remaining
  decreasing_by
    have hne : 0 < (rest.take (min (1024 * 1024) remaining)).length := by
      rw [List.length_pos_iff]
      tauto
    omega

/-- What `_read_pinned_index_file` returns: `_INDEX_MISSING`, `None` or the payload. -/
inductive Reading
  | missing
  | unusable
  | payload (bytes : List UInt8)
  deriving DecidableEq

section
variable {ι : Type} [DecidableEq ι] (disk : Disk ι)

/-- The walk to the file: its parent and the open file. -/
def openIndex (k : ℕ) (root : ι) (parts : List String) : Except SysError (ι × ι) :=
  disk.walkParents k root parts.dropLast >>= fun parent =>
    (parent, ·) <$> disk.openFile (k + parts.dropLast.length) parent (parts.getLastD "")

/-- The open file is read, and looked for again in its parent and below the root. -/
def readStable (k : ℕ) (root : ι) (parts : List String) (parent file : ι) (limit : ℕ) (before : Info ι) :
    Except SysError Reading := do
  refuse (disk.fault k = true) .os
  let payload := (readChunks (disk.bytes file) (limit + 1)).flatten
  let after ← disk.fstat (k + 1) file
  let current ← disk.stat (k + 2) parent (parts.getLastD "")
  let rootedParent ← disk.walkParents (k + 3) root parts.dropLast
  let rootedCurrent ← disk.stat (k + 3 + parts.dropLast.length) rootedParent (parts.getLastD "")
  return if limit < payload.length ∨ before.revision ≠ after.revision ∨ after.revision ≠ current.revision ∨
      after.revision ≠ rootedCurrent.revision then .unusable else .payload payload

/-- What is done once the file is open. -/
def readOpened (k : ℕ) (root : ι) (parts : List String) (parent file : ι) (limit : ℕ) : Except SysError Reading :=
  disk.fstat k file >>= fun before =>
    if before.regular = false ∨ before.nlink ≠ 1 ∨ limit < before.size then .ok .unusable
    else readStable disk (k + 1) root parts parent file limit before

/-- `_read_pinned_index_file(root, relative, compressed=compressed)`; its first system call is `k`. -/
def readPinnedIndexFile (k : ℕ) (root : ι) (relative : String) (compressed : Bool) : Except Raised Reading :=
  safeRelativePath relative (some "dists") >>= fun parts =>
    match openIndex disk k root parts with
    -- absence before the file is open is an ordinary missing index
    | .error .fileNotFound => .ok .missing
    | .error .os => .ok .unusable
    | .error .value => .error (.value "embedded null byte")
    | .ok (parent, file) =>
        match readOpened disk (k + parts.length) root parts parent file (maximum compressed) with
        | .ok reading => .ok reading
        | .error .value => .error (.value "embedded null byte")
        -- and absence after it a publication that is under way
        | .error .fileNotFound | .error .os => .ok .unusable

/-- `pinned_directory(repo_root)`; `parts` are those of the absolute path. -/
def pinnedDirectory (parts : List String) : Except Raised ι :=
  if parts = [] ∨ ".." ∈ parts then
    .error (.repositoryLock ⟨"repository_root_invalid", "Repository root is unsafe", .path ("/" ++ "/".intercalate parts)⟩)
  else
    (disk.walkParents 0 disk.slash parts).mapError fun e =>
      match e with
      | .value => .value "embedded null byte"
      | .os | .fileNotFound => .repositoryLock ⟨"repository_root_invalid",
          "Repository root must exist and contain no symlinked path components", .path ("/" ++ "/".intercalate parts)⟩

end

/-! ## The rows -/

/-- `archive.read(size)` of a compressed stream. -/
abbrev GzipRead := List UInt8 → ℕ → Except ReadError (List UInt8)

/-- `_bounded_gzip_decompress(payload)`: the handler names `OSError` and `EOFError`. -/
def boundedGzipDecompress (gzipRead : GzipRead) (payload : List UInt8) : Except Raised (Option (List UInt8)) :=
  match gzipRead payload (maxPackagesIndexBytes + 1) with
  | .ok decoded => .ok (if decoded.length ≤ maxPackagesIndexBytes then some decoded else none)
  | .error .os | .error .eof => .ok none
  | .error .zlib => .error .zlib

/-- `payload.decode("utf-8")` -/
def decodeUtf8 (payload : List UInt8) : Option String := String.fromUTF8? ⟨payload.toArray⟩

/-- A row has a package, a version and an architecture. -/
def Complete (row : IndexRow) : Prop :=
  ∀ field ∈ ["Package", "Version", "Architecture"], (row.lookup field).getD "" ≠ ""

instance (row : IndexRow) : Decidable (Complete row) := by unfold Complete; infer_instance

/-- The rows of a payload, `none` where it is no index. -/
def rowsOf (payload : List UInt8) : Except Raised (Option (List IndexRow)) :=
  match decodeUtf8 payload with
  | none => .ok none
  | some text =>
      match parsePackagesIndex text with
      | .error (.value _) | .error .type => .ok none
      | .error e => .error e
      | .ok rows =>
          .ok (if (Text.strip text.toList ≠ [] ∧ rows = []) ∨ ¬ ∀ row ∈ rows, Complete row then none else some rows)

section
variable {ι : Type} [DecidableEq ι] (disk : Disk ι) (gzipRead : GzipRead)

/-- The directory of an index. -/
def indexDirectory (distribution component architecture : String) : String :=
  "dists/" ++ distribution ++ "/" ++ component ++ "/binary-" ++ architecture

/-- The body of the first `try`: the payload, uncompressed. -/
def exportedPayload (rootParts : List String) (distribution component architecture : String) :
    Except Raised (Option (List UInt8)) := do
  let base ← safeRelativePath (indexDirectory distribution component architecture) (some "dists")
  let root ← pinnedDirectory disk rootParts
  -- the calls of the second read come after all those of the first one
  let plain := rootParts.length + 2 * (base.length + 1) + 4
  match ← readPinnedIndexFile disk rootParts.length root (asPosix base ++ "/Packages.gz") true with
  | .missing =>
      return match ← readPinnedIndexFile disk plain root (asPosix base ++ "/Packages") false with
        | .payload payload => some payload
        | .missing | .unusable => none
  | .payload compressed => boundedGzipDecompress gzipRead compressed
  | .unusable => return none

/-- `local_packages_index(repo_root, distribution, component, architecture)` -/
def localPackagesIndex (rootParts : List String) (distribution component architecture : String) :
    Except Raised (Option (List IndexRow)) :=
  match exportedPayload disk gzipRead rootParts distribution component architecture with
  | .error (.os _) | .error (.repositoryLock _) | .ok none => .ok none
  | .error e => .error e
  | .ok (some payload) => rowsOf payload

end

end DebBuilder.Exported
