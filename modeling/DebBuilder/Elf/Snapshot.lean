import Mathlib
import DebBuilder.Elf.Resolver
import DebBuilder.Lib.Bytes

/-!
# Filtered snapshots

`_filtered_snapshot` follows the program headers of an ELF file to its dynamic segment and string
table, and turns the entries that name an ignored library into entries that the resolver passes
over.  The names are read from the buffer that is being edited.

## Main definitions

* `layout` — the dynamic entries and the place of the string table.
* `filtered` — the edited bytes.
* `filteredSnapshot` — the snapshot, on the files.
-/

namespace DebBuilder.Elf
open Lib Bytes

inductive SnapshotFailure
  /-- `ResolutionError` -/
  | resolution (code message : String)
  /-- `ElfInspectionError` -/
  | inspection (code message : String)
  /-- `struct.error`, `UnicodeDecodeError` or `ValueError` -/
  | caught (name : String)
  /-- An error of the file system. -/
  | osError
deriving DecidableEq

def invalidOverride (message : String) : SnapshotFailure := .resolution "invalid_dependency_override" message

/-! ## Reading -/

/-- A field of `struct.unpack_from(format, data, offset)`, of a format of `span` bytes from the field on. -/
def unpackFrom (data : List UInt8) (offset span width : Nat) : Except SnapshotFailure Nat := do
  refuse (data.length < offset + span) (.caught "struct.error")
  pure (little data offset width)

/-- A segment to be loaded. -/
structure Segment where
  fileOffset : Nat
  address : Nat
  size : Nat

/-- One turn of the loop over the program headers, with the segments found so far. -/
def addHeader (data : List UInt8) (found : List Segment × Option (Nat × Nat)) (offset : Nat) :
    Except SnapshotFailure (List Segment × Option (Nat × Nat)) := do
  let kind ← unpackFrom data offset 4 4
  let fileOffset ← unpackFrom data (offset + 8) 24 8
  let address ← unpackFrom data (offset + 16) 8 8
  let size ← unpackFrom data (offset + 32) 8 8
  refuse (data.length < fileOffset + size) (invalidOverride "ELF segment exceeds the file")
  if kind = 1 then pure (found.1 ++ [⟨fileOffset, address, size⟩], found.2)
  else if kind = 2 then
    refuse found.2.isSome (invalidOverride "ELF has duplicate dynamic segments")
    pure (found.1, some (fileOffset, size))
  else pure found

/-- The places of the program headers. -/
def headerOffsets (phOffset phSize phCount : Nat) : List Nat := (List.range phCount).map fun index => phOffset + index * phSize

/-- The segments to be loaded, and the place and the size of the dynamic segment. -/
def segments (data : List UInt8) : Except SnapshotFailure (List Segment × Nat × Nat) := do
  let phOffset ← unpackFrom data 32 8 8
  let phSize ← unpackFrom data 54 4 2
  let phCount ← unpackFrom data 56 2 2
  refuse (phSize < 56 ∨ 128 < phCount ∨ data.length < phOffset + phCount * phSize)
    (invalidOverride "ELF program headers are invalid")
  let found ← (headerOffsets phOffset phSize phCount).foldlM (addHeader data) ([], none)
  let dynamic ← demand (invalidOverride "ELF dynamic segment is invalid") found.2
  refuse (dynamic.2 % 16 ≠ 0) (invalidOverride "ELF dynamic segment is invalid")
  pure (found.1, dynamic)

structure Entry where
  offset : Nat
  tag : Nat
  value : Nat
deriving DecidableEq

/-- `range(start, start + size, 16)` -/
def entryOffsets (start size : Nat) : List Nat := (List.range (size / 16)).map fun index => start + 16 * index

/-- The dynamic entries, up to the first of tag 0. -/
def dynamicEntries (data : List UInt8) : List Nat → Except SnapshotFailure (List Entry)
  | [] => pure []
  | offset :: offsets => do
      let tag ← unpackFrom data offset 16 8
      let value ← unpackFrom data (offset + 8) 8 8
      if tag = 0 then pure []
      else do
        let entries ← dynamicEntries data offsets
        pure (⟨offset, tag, value⟩ :: entries)

/-- The values of the entries of a tag. -/
def valuesOf (tag : Nat) (entries : List Entry) : List Nat := (entries.filter fun entry => entry.tag = tag).map Entry.value

/-- Where a table in memory lies in the file, by each segment that holds it. -/
def locations (load : List Segment) (table size : Nat) : List Nat :=
  (load.filter fun segment => segment.address ≤ table ∧ table + size ≤ segment.address + segment.size).map
    fun segment => segment.fileOffset + table - segment.address

/-- The place and the size of the string table. -/
def stringTable (load : List Segment) (entries : List Entry) : Except SnapshotFailure (Nat × Nat) :=
  match valuesOf 5 entries, valuesOf 10 entries with
  | [table], [size] =>
      match locations load table size with
      | [base] => .ok (base, size)
      | _ => .error (invalidOverride "ELF string table is outside a unique load segment")
  | _, _ => .error (invalidOverride "ELF string table is ambiguous")

structure Layout where
  entries : List Entry
  base : Nat
  size : Nat
deriving DecidableEq

def layout (data : List UInt8) : Except SnapshotFailure Layout := do
  let (load, start, size) ← segments data
  let entries ← dynamicEntries data (entryOffsets start size)
  let (base, size) ← stringTable load entries
  pure ⟨entries, base, size⟩

/-- The name of an entry, in the bytes as they are now. -/
def neededName (data : List UInt8) (base size value : Nat) : Except SnapshotFailure String := do
  refuse (size ≤ value) (invalidOverride "ELF needed name is outside its string table")
  let name ← demand (invalidOverride "ELF needed name is unterminated") (cstring data (base + value) (size - value))
  refuse (∃ byte ∈ name, 128 ≤ byte) (.caught "UnicodeDecodeError")
  pure (String.ofList (name.map fun byte => Char.ofNat byte.toNat))

/-! ## Filtering -/

/-- The eight bytes of `DT_DEBUG`. -/
def debugTag : List UInt8 := [21, 0, 0, 0, 0, 0, 0, 0]

/-- `struct.pack_into("<Q", data, offset, 21)` -/
def packInto (data : List UInt8) (offset : Nat) : Except SnapshotFailure (List UInt8) := do
  refuse (data.length < offset + debugTag.length) (.caught "struct.error")
  pure (overwrite data offset debugTag)

/-- One turn of the loop over the entries, with the buffer and the names removed so far. -/
def filterEntry (base size : Nat) (ignored : Finset String) (state : List UInt8 × Finset String) (entry : Entry) :
    Except SnapshotFailure (List UInt8 × Finset String) :=
  if entry.tag ≠ 1 then pure state
  else do
    let name ← neededName state.1 base size entry.value
    if name ∈ ignored then do
      let data ← packInto state.1 entry.offset
      pure (data, insert name state.2)
    else pure state

/-- `b"\x7fELF\x02\x01"` -/
def magic : List UInt8 := [0x7f, 0x45, 0x4c, 0x46, 2, 1]

def maxFileBytes : Nat := 256 * 1024 * 1024

section
-- The digest of a byte string, and what `inspect_elf` answers for a file with these bytes.
variable (sha256 : List UInt8 → String) (inspectElf : List UInt8 → Except InspectionFailure Inspection)

/-- `_filtered_snapshot`, up to the edited bytes. -/
def filtered (data : List UInt8) (inspection : Inspection) (ignored : Finset String) : Except SnapshotFailure (List UInt8) := do
  refuse (maxFileBytes < data.length) (.resolution "elf_size_limit" "ELF snapshot exceeds inspection size bound")
  refuse (sha256 data ≠ inspection.sha256) (.resolution "elf_identity_mismatch" "ELF changed since inspection")
  refuse (data.length ≠ inspection.size ∨ data.take 6 ≠ magic)
    (invalidOverride "Only verified amd64 ELF64 snapshots can be filtered")
  let found ← layout data
  let (edited, removed) ← found.entries.foldlM (filterEntry found.base found.size ignored) (data, ∅)
  refuse (removed ≠ ignored) (invalidOverride "Ignored SONAME does not match this ELF")
  pure edited

def inspectionFailure : InspectionFailure → SnapshotFailure
  | .value _ => .caught "ValueError"
  | .inspection code message => .inspection code message

/-- The check of the file that was written. -/
def checkSnapshot (data : List UInt8) (inspection : Inspection) (ignored : Finset String) : Except SnapshotFailure Unit := do
  let observed ← (inspectElf data).mapError inspectionFailure
  refuse (observed.kind ≠ .elf ∨ observed.needed.toFinset ≠ inspection.needed.toFinset \ ignored)
    (invalidOverride "Filtered ELF snapshot did not retain expected requirements")

abbrev Files := String → Option (List UInt8)

/-- `_filtered_snapshot(source, destination, inspection, ignored)` -/
def filteredSnapshotOn (files : Files) (source destination : String) (inspection : Inspection) (ignored : Finset String) :
    Files × Except SnapshotFailure Unit :=
  match files source with
  | none => (files, .error .osError)
  | some data =>
      match filtered sha256 data inspection ignored with
      | .error failure => (files, .error failure)
      | .ok edited => (Function.update files destination (some edited), checkSnapshot inspectElf edited inspection ignored)

/-- The handler of `filtered_snapshot`. -/
def translated : SnapshotFailure → SnapshotFailure
  | .caught _ => invalidOverride "ELF cannot be safely filtered for an explicit override"
  | failure => failure

/-- `filtered_snapshot(source, destination, inspection, ignored)` -/
def filteredSnapshot (files : Files) (source destination : String) (inspection : Inspection) (ignored : Finset String) :
    Files × Except SnapshotFailure Unit :=
  let (files, result) := filteredSnapshotOn sha256 inspectElf files source destination inspection ignored
  (files, result.mapError translated)

end

end DebBuilder.Elf
