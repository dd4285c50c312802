import Mathlib
import DebBuilder.Lib.Fallible
import DebBuilder.Lib.PartialMap
import DebBuilder.Lib.Path

/-!
# Extractors

`extract_zip_archive` and `extract_tar_archive`, on the members that the library for each
format lists.

## Main definitions

* `Disk`, `System` — the files below the destination, and what the operating system refuses.
* `ZipMember`, `TarMember` — the members of the two formats.
* `extractZipArchive`, `extractTarArchive` — the extractors.
-/

namespace DebBuilder.Archive
open Lib PartialMap

/-! ## The destination -/

inductive Node
  | directory
  | file (contents : List UInt8) (executable : Bool)
  deriving DecidableEq

/-- What is under a path, by its parts from the root. -/
abbrev Disk := List String → Option Node

/-- What the operating system refuses to create, because the disk is full or a name is long. -/
structure System where
  refuses : Disk → List String → Bool

/-- A directory that was created, or that was there. -/
structure Destination where
  path : List String
  /-- It was resolved. -/
  resolved : ".." ∉ path
  /-- What is in it. -/
  entries : List String

/-- The destination and the directories above it. -/
def Destination.disk (destination : Destination) : Disk := fun path =>
  if path <+: destination.path then some .directory else none

/-- `mkdir(exist_ok=True)`, below a directory. -/
def makeDirectory (system : System) (disk : Disk) (path : List String) : Disk × Bool :=
  match disk path with
  | some .directory => (disk, true)
  | some (.file _ _) => (disk, false)
  | none => if system.refuses disk path then (disk, false) else (write disk path .directory, true)

/-- Several directories, as long as none fails. -/
def makeAll (system : System) : Disk → List (List String) → Disk × Bool
  | disk, [] => (disk, true)
  | disk, path :: paths =>
      let made := makeDirectory system disk path
      if made.2 then makeAll system made.1 paths else made

/-- `path.mkdir(parents=True, exist_ok=True)` -/
def makeParents (system : System) (disk : Disk) (path : List String) : Disk × Bool := makeAll system disk path.inits

/-- `path.open("xb")`, a copy of the contents, and `path.chmod`. -/
def createFile (system : System) (disk : Disk) (path : List String) (contents : List UInt8) (executable : Bool) : Disk × Bool :=
  if (disk path).isSome ∨ system.refuses disk path then (disk, false)
  else (write disk path (.file contents executable), true)

/-- `path.resolve()`, where no link is. -/
def resolve (path : List String) : List String := path.foldl PosixPath.climb []

/-! ## Safe parts -/

/-- `UpstreamArchiveError` and `SourceError`. -/
structure ExtractionError where
  code : String
  message : String
  deriving DecidableEq, Repr

/-- The parts of a member's name, without `.`. -/
def partsOrRefuse (error : ExtractionError) (name : String) : Except ExtractionError (List String) := do
  let path := PosixPath.parse name
  refuse (path.isAbsolute = true ∨ path.parts = [] ∨ ".." ∈ path.parts) error
  return path.parts

/-- `_safe_parts` -/
def safeParts (name : String) : Except ExtractionError (List String) :=
  partsOrRefuse ⟨"archive_extract_failed", s!"Unsafe path in release archive: {name}"⟩ name

/-- `_safe_member_parts` -/
def safeMemberParts (name : String) : Except ExtractionError (List String) :=
  partsOrRefuse ⟨"source_extract_failed", s!"Unsafe path in source archive: {name}"⟩ name

/-- One root with something below it. -/
def stripRoot (parsed : List (List String)) : Bool :=
  (parsed.map fun parts => parts.headD "").dedup.length == 1 && parsed.any fun parts => 2 ≤ parts.length

/-- What is told of an extraction. -/
structure Summary where
  files : Nat
  uncompressedSize : Nat
  strippedRoot : String
  deriving DecidableEq, Repr

def summaryOf (files total : Nat) (parsed : List (List String)) : Summary :=
  ⟨files, total, if stripRoot parsed then (parsed.headD []).headD "" else ""⟩

/-- The limits of an extraction. -/
structure Limits where
  maxMembers : Nat
  maxUncompressedBytes : Nat

/-- A loop over the members, up to the first that fails. -/
def extractAll {α : Type} (step : Disk → α → Disk × Except ExtractionError Nat) :
    Disk → Nat → List α → Disk × Except ExtractionError Nat
  | disk, extracted, [] => (disk, .ok extracted)
  | disk, extracted, row :: rows =>
      match step disk row with
      | (disk, .error error) => (disk, .error error)
      | (disk, .ok added) => extractAll step disk (extracted + added) rows

/-! ## Zip -/

/-- `zipfile.ZipInfo` -/
structure ZipMember where
  filename : String
  fileSize : Nat
  externalAttr : Nat
  flagBits : Nat
  contents : List UInt8

/-- `member.is_dir()` -/
def ZipMember.isDir (member : ZipMember) : Bool := member.filename.toList.getLast? = some '/'

def ZipMember.mode (member : ZipMember) : Nat := member.externalAttr >>> 16

/-- `stat.S_IFMT(mode)` -/
def ZipMember.fileType (member : ZipMember) : Nat := member.mode &&& 0o170000

def ZipMember.executable (member : ZipMember) : Bool := member.mode &&& 0o111 ≠ 0

def regularType : Nat := 0o100000
def directoryType : Nat := 0o040000
def linkType : Nat := 0o120000

/-- An entry that the extractor does not take. -/
def ZipMember.unsupported (member : ZipMember) : Bool :=
  member.flagBits &&& 1 ≠ 0 || member.fileType = linkType || member.fileType ∉ [0, regularType, directoryType]

/-- One turn of the loop over the members of a zip file. -/
def extractZipMember (system : System) (target : List String) (strip : Bool) (disk : Disk)
    (row : ZipMember × List String) : Disk × Except ExtractionError Nat :=
  let member := row.1
  let failed message : Except ExtractionError Nat := .error ⟨"archive_extract_failed", message⟩
  if member.unsupported then
    (disk, failed s!"Unsupported encrypted, link, or special entry in release archive: {member.filename}")
  else
    let relative := if strip then row.2.tail else row.2
    if relative = [] then (disk, .ok 0)
    else
      let output := resolve (target ++ relative)
      if ¬ target <+: output then (disk, failed s!"Unsafe path in release archive: {member.filename}")
      else if member.isDir then
        let made := makeParents system disk output
        (made.1, if made.2 then .ok 0 else failed "Release ZIP extraction failed")
      else
        let made := makeParents system disk output.dropLast
        if ¬ made.2 then (made.1, failed "Release ZIP extraction failed")
        else
          let created := createFile system made.1 output member.contents member.executable
          (created.1, if created.2 then .ok 1 else failed "Release ZIP extraction failed")

/-- `extract_zip_archive` -/
def extractZipArchive (system : System) (limits : Limits) (destination : Destination) (members : List ZipMember) :
    Disk × Except ExtractionError Summary :=
  let failed message : Except ExtractionError Summary := .error ⟨"archive_extract_failed", message⟩
  if destination.entries ≠ [] then (destination.disk, failed "Archive destination is not empty")
  else if members = [] ∨ limits.maxMembers < members.length then
    (destination.disk, failed "Release archive is empty or contains too many entries")
  else match members.mapM fun member => safeParts member.filename with
    | .error error => (destination.disk, .error error)
    | .ok parsed =>
      let total := ((members.filter fun member => !member.isDir).map (·.fileSize)).sum
      if limits.maxUncompressedBytes < total then
        (destination.disk, failed "Expanded release archive exceeds the configured size limit")
      else
        let result := extractAll (extractZipMember system destination.path (stripRoot parsed)) destination.disk 0
          (members.zip parsed)
        (result.1, result.2.map fun extracted => summaryOf extracted total parsed)

/-! ## Tar -/

/-- What `isfile`, `isdir`, `issym` and the others say of a member. -/
inductive TarType
  | regular
  | directory
  | symbolicLink
  | hardLink
  | characterDevice
  | blockDevice
  | fifo
  /-- A type for which all of them are false. -/
  | unknown
  deriving DecidableEq, Repr

/-- `tarfile.TarInfo` -/
structure TarMember where
  name : String
  type : TarType
  size : Nat
  mode : Nat
  contents : List UInt8

def TarMember.executable (member : TarMember) : Bool := member.mode &&& 0o111 ≠ 0

def TarMember.unsupported (member : TarMember) : Bool :=
  member.type ∈ [.symbolicLink, .hardLink, .characterDevice, .blockDevice, .fifo]

/-- One turn of the loop over the members of a tar file. -/
def extractTarMember (system : System) (target : List String) (strip : Bool) (disk : Disk)
    (row : TarMember × List String) : Disk × Except ExtractionError Nat :=
  let member := row.1
  let failed message : Except ExtractionError Nat := .error ⟨"source_extract_failed", message⟩
  if member.unsupported then (disk, failed s!"Unsupported link or special file in source archive: {member.name}")
  else
    let relative := if strip then row.2.tail else row.2
    if relative = [] then (disk, .ok 0)
    else
      let output := resolve (target ++ relative)
      if ¬ target <+: output then (disk, failed s!"Unsafe path in source archive: {member.name}")
      else if member.type = .directory then
        let made := makeParents system disk output
        (made.1, if made.2 then .ok 0 else failed "Source archive extraction failed")
      else if member.type = .regular then
        let made := makeParents system disk output.dropLast
        if ¬ made.2 then (made.1, failed "Source archive extraction failed")
        else
          let created := createFile system made.1 output member.contents member.executable
          (created.1, if created.2 then .ok 1 else failed "Source archive extraction failed")
      else (disk, .ok 0)

/-- `extract_tar_archive` -/
def extractTarArchive (system : System) (limits : Limits) (destination : Destination) (members : List TarMember) :
    Disk × Except ExtractionError Summary :=
  let failed message : Except ExtractionError Summary := .error ⟨"source_extract_failed", message⟩
  if destination.entries ≠ [] then (destination.disk, failed "Source directory is not empty")
  else if members = [] ∨ limits.maxMembers < members.length then
    (destination.disk, failed "Source archive is empty or contains too many entries")
  else match members.mapM fun member => safeMemberParts member.name with
    | .error error => (destination.disk, .error error)
    | .ok parsed =>
      let total := ((members.filter (·.type = .regular)).map (·.size)).sum
      if limits.maxUncompressedBytes < total then
        (destination.disk, failed "Expanded source exceeds the configured size limit")
      else
        let result := extractAll (extractTarMember system destination.path (stripRoot parsed)) destination.disk 0
          (members.zip parsed)
        (result.1, result.2.map fun extracted => summaryOf extracted total parsed)

end DebBuilder.Archive
