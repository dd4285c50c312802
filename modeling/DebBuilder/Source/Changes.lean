import Mathlib
import DebBuilder.Lib.Fallible
import DebBuilder.Lib.Occurrences
import DebBuilder.Lib.Path

/-!
# Source changes

The changes that a Recipe makes to an acquired source tree.  A text change reads a file,
counts the places of the search text, and writes the file anew when there is one place.

## Main definitions

* `Tree` — the source tree.
* `safeTarget`, `readText`, `atomicWrite` — the helpers.
* `applyChange`, `applyChanges` — one change, and a list of them.
-/

namespace DebBuilder.Source
open Lib Function

/-! ## The source tree -/

inductive Node
  | file (bytes : ByteArray) (mode : Nat)
  | directory
  | link
  /-- A device, a socket, a pipe. -/
  | other
  deriving DecidableEq

/-- What stands below the source root, by the parts of its path. -/
abbrev Tree := List String → Option Node

/-! ## Reading and writing text -/

/-- What a text stream makes of the line ends of a file. -/
def universalNewlines : List Char → List Char
  | '\r' :: '\n' :: cs => '\n' :: universalNewlines cs
  | '\r' :: cs => '\n' :: universalNewlines cs
  | c :: cs => c :: universalNewlines cs
  | [] => []

/-- `bytes.decode("utf-8")` -/
def decode (bytes : ByteArray) : Option (List Char) := bytes.utf8Decode?.map Array.toList

/-- The bytes that a text stream writes, where lines end with a line feed. -/
def encode (text : List Char) : ByteArray := (String.ofList text).toByteArray

/-! ## Changes -/

inductive Operation
  | replace
  | insertBefore
  | insertAfter
  | remove
  | createFile
  | removeFile
  deriving DecidableEq, Repr

/-- `OPERATIONS` -/
def Operation.parse : String → Option Operation
  | "replace" => some .replace
  | "insert_before" => some .insertBefore
  | "insert_after" => some .insertAfter
  | "remove" => some .remove
  | "create_file" => some .createFile
  | "remove_file" => some .removeFile
  | _ => none

/-- A change as the Recipe has it; `search` is absent when it is no string. -/
structure Change where
  operation : String
  path : String
  search : Option String
  content : String
  deriving DecidableEq, Repr

/-- `details` -/
structure Details where
  index : Nat
  operation : String
  path : String
  found : Option Nat
  anchor : String
  anchorTruncated : Bool
  deriving DecidableEq, Repr

structure SourceChangeError where
  code : String
  message : String
  index : Option Nat
  details : Option Details
  deriving DecidableEq, Repr

inductive Raised
  | change (error : SourceChangeError)
  /-- `OSError` -/
  | os
  deriving DecidableEq, Repr

/-- `_safe_target`: the parts of the target below the root. -/
def safeTarget (tree : Tree) (relativePath : String) (allowMissing : Bool) : Except SourceChangeError (List String) := do
  let raw := PosixPath.parse relativePath
  refuse (relativePath = "" ∨ raw.isAbsolute ∨ ".." ∈ raw.parts)
    ⟨"unsafe_source_path", s!"Source change path must be relative and remain in the source workspace: {relativePath}",
      none, none⟩
  refuse (∃ parts ∈ raw.parts.inits, parts ≠ [] ∧ tree parts = some .link)
    ⟨"unsafe_source_path", s!"Source change path contains a symbolic link: {relativePath}", none, none⟩
  refuse (allowMissing = false ∧ tree raw.parts = none)
    ⟨"source_file_not_found", s!"Source file not found: {relativePath}", none, none⟩
  pure raw.parts

/-- `_read_text` -/
def readText (tree : Tree) (target : List String) (relativePath : String) : Except SourceChangeError (List Char × Nat) :=
  match tree target with
  | some (.file bytes mode) =>
      match decode bytes with
      | some text => .ok (universalNewlines text, mode)
      | none => .error ⟨"source_not_text", s!"Source file is not valid UTF-8 text: {relativePath}", none, none⟩
  | _ => .error ⟨"source_file_not_found", s!"Source file not found: {relativePath}", none, none⟩

/-- The directories above a path. -/
def parentsOf (target : List String) : List (List String) := target.inits.filter (· ≠ target)

/-- `target.parent.mkdir(parents=True, exist_ok=True)`, unless something else is in the
way. -/
def makeParents (tree : Tree) (target : List String) : Option Tree :=
  if ∀ parent ∈ parentsOf target, tree parent = none ∨ tree parent = some .directory then
    some fun parts => if parts ∈ parentsOf target then some .directory else tree parts
  else none

/-- `_atomic_write`; `fault` when the operating system fails it. -/
def atomicWrite (fault : Bool) (tree : Tree) (target : List String) (content : List Char) (mode : Nat) :
    Except Raised Unit × Tree :=
  match makeParents tree target with
  | none => (.error .os, tree)
  | some tree => if fault then (.error .os, tree) else (.ok (), update tree target (some (.file (encode content) mode)))

def detailsOf (change : Change) (index : Nat) : Details :=
  let anchor := (change.search.getD "").toList
  { index, operation := change.operation, path := change.path, found := none
    anchor := String.ofList (anchor.take 160), anchorTruncated := anchor.length > 160 }

/-- The text that an operation puts in the place of the search text. -/
def Operation.replacement (search content : List Char) : Operation → List Char
  | .insertBefore => content ++ search
  | .insertAfter => search ++ content
  | .remove => []
  | _ => content

/-- A text change: the new text, the mode of the file and how many places were found.  A
failure comes with what is known of them. -/
def textChange (tree : Tree) (operation : Operation) (change : Change) (target : List String) :
    Except (SourceChangeError × Option Nat) (List Char × Nat × Nat) := do
  let search := (change.search.getD "").toList
  refuse (search = [])
    (⟨"source_match_required", s!"A non-empty search value is required for {change.operation}: {change.path}", none,
      none⟩, none)
  let (original, mode) ← (readText tree target change.path).mapError fun error => (error, none)
  let found := Text.count search original
  refuse (found = 0) (⟨"source_match_not_found", s!"Search content not found in {change.path}", none, none⟩, some found)
  refuse (found > 1)
    (⟨"source_match_ambiguous",
      s!"Search content matched {found} times in {change.path}; exactly one match is required", none, none⟩, some found)
  pure (Text.replaceFirst search (operation.replacement search change.content.toList) original, mode, found)

/-- `apply_change` of a change with its target, after the details. -/
def applyTo (fault : Bool) (tree : Tree) (operation : Operation) (change : Change) (target : List String)
    (details : Details) : Except Raised Details × Tree :=
  let failed (error : SourceChangeError) (details : Details) : Except Raised Details × Tree :=
    (.error (.change { error with index := some details.index, details := some details }), tree)
  match operation with
  | .createFile =>
      if tree target ≠ none then
        failed ⟨"source_file_exists", s!"Create file target already exists: {change.path}", none, none⟩ details
      else
        let (written, tree) := atomicWrite fault tree target change.content.toList 0o644
        (written.map fun _ => details, tree)
  | .removeFile =>
      match tree target with
      | some (.file _ _) => if fault then (.error .os, tree) else (.ok details, update tree target none)
      | _ => failed ⟨"source_file_not_found", s!"Source file not found: {change.path}", none, none⟩ details
  | operation =>
      match textChange tree operation change target with
      | .error (error, found) => failed error { details with found }
      | .ok (updated, mode, found) =>
          let (written, tree) := atomicWrite fault tree target updated (mode % 0o1000)
          (written.map fun _ => { details with found := some found }, tree)

/-- `apply_change` -/
def applyChange (fault : Bool) (tree : Tree) (change : Change) (index : Nat) : Except Raised Details × Tree :=
  match Operation.parse change.operation with
  | none =>
      (.error (.change ⟨"unsupported_source_change", s!"Unsupported source change operation: {change.operation}",
        some index, none⟩), tree)
  | some operation =>
      match safeTarget tree change.path (operation = .createFile) with
      | .error error => (.error (.change error), tree)
      | .ok target => applyTo fault tree operation change target (detailsOf change index)

/-- What `apply_changes` raises: the failed change, what was applied before it and how many
were asked for. -/
inductive ChangesRaised
  | change (error : SourceChangeError) (applied : List Details) (requested : Nat)
  | os

/-- `apply_changes`, from the change with this index on; `faults` says where the operating
system fails one. -/
def applyFrom (faults : Nat → Bool) (requested : Nat) (tree : Tree) (applied : List Details) (index : Nat) :
    List Change → Except ChangesRaised (List Details) × Tree
  | [] => (.ok applied, tree)
  | change :: changes =>
      match applyChange (faults index) tree change index with
      | (.error (.change error), tree) =>
          (.error (.change { error with index := some (error.index.getD index) } applied requested), tree)
      | (.error .os, tree) => (.error .os, tree)
      | (.ok details, tree) => applyFrom faults requested tree (applied ++ [details]) (index + 1) changes

/-- `apply_changes` -/
def applyChanges (faults : Nat → Bool) (tree : Tree) (changes : List Change) :
    Except ChangesRaised (List Details) × Tree :=
  applyFrom faults changes.length tree [] 1 changes

end DebBuilder.Source
