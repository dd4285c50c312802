import Mathlib
import DebBuilder.Elf.Links
import DebBuilder.Elf.Shlibdeps
import DebBuilder.Recipe.Values

/-!
# The resolution of ELF dependencies

The walk from the entrypoints of a package over the libraries that it bundles: every file
is inspected again, each library that it needs is explained, and the proposed relations are
merged.

## Main definitions

* `Inspection`, `inspectElf` — what is observed of a file.
* `privateSearchPaths`, `bundled` — the bundled library of a SONAME.
* `walk` — one file and the bundled libraries below it.
* `resolveElfDependencies` — the whole resolution.
-/

namespace DebBuilder.Elf
open Lib

/-! ## Inspections -/

inductive ElfKind
  | notElf
  | malformedElf
  | elf
  deriving DecidableEq, Repr

inductive Linkage
  | static
  | dynamic
  | notApplicable
  deriving DecidableEq, Repr

/-- `ElfInspectionResult` -/
structure Inspection where
  kind : ElfKind
  sha256 : String
  size : Nat
  elfClass : String := ""
  endianness : String := ""
  machine : String := ""
  debianArchitecture : String := ""
  elfType : String := ""
  linkage : Option Linkage := none
  interpreter : String := ""
  soname : String := ""
  needed : List String := []
  rpath : List String := []
  runpath : List String := []
  versionRequirements : List (String × String) := []
  diagnostics : List String := []
  deriving DecidableEq, Repr

/-- What `inspect_elf` raises. -/
inductive InspectionFailure
  | value (message : String)
  /-- `ElfInspectionError` -/
  | inspection (code message : String)
  deriving DecidableEq, Repr

/-- The bytes of the staged files, as their digests and what `readelf` says of them. -/
structure Inspector where
  digest : List String → Except InspectionFailure String
  describe : List String → Except InspectionFailure Inspection
  /-- Only an ELF file needs libraries. -/
  plain : ∀ path inspection, describe path = .ok inspection → inspection.kind ≠ .elf → inspection.needed = []

/-- `re.fullmatch(r"[0-9a-fA-F]{64}", text)` -/
def isHexDigest (text : String) : Bool :=
  text.toList.length == 64 && text.toList.all fun c => c.isDigit || ('a' ≤ c && c ≤ 'f') || ('A' ≤ c && c ≤ 'F')

/-- `inspect_elf(path, expected_sha256=expected)` -/
def inspectElf (inspector : Inspector) (path : List String) (expected : Option String) :
    Except InspectionFailure Inspection := do
  refuse (∃ sha256 ∈ expected, isHexDigest sha256 = false) (.value "expected_sha256 must be a SHA-256 hex digest")
  let digest ← inspector.digest path
  refuse (∃ sha256 ∈ expected, digest.toList ≠ Text.lower sha256.toList)
    (.inspection "elf_identity_mismatch" "ELF bytes differ from the expected acquired identity")
  inspector.describe path

/-! ## Bundled libraries -/

/-- `posixpath.dirname(path)`, of a canonical path. -/
def dirname (path : String) : String :=
  let path := PosixPath.parse path
  (⟨path.root, path.parts.dropLast⟩ : PosixPath).asPosix

/-- The length of the name of the origin at the head of a text, when it ends a component. -/
def originLength (cs : List Char) : Option Nat :=
  let ends (rest : List Char) : Bool := rest = [] || rest = ['\n'] || rest.head? = some '/'
  if "{ORIGIN}".toList <+: cs && ends (cs.drop 8) then some 8
  else if "ORIGIN".toList <+: cs && ends (cs.drop 6) then some 6
  else none

/-- `re.sub(r"\$(?:\{ORIGIN\}|ORIGIN)(?=/|$)", origin, entry)`, after `skip` characters. -/
def expandOrigin (origin : List Char) : Nat → List Char → List Char
  | _, [] => []
  | skip + 1, _ :: cs => expandOrigin origin skip cs
  | 0, c :: cs =>
      match if c = '$' then originLength cs else none with
      | some length => origin ++ expandOrigin origin length cs
      | none => c :: expandOrigin origin 0 cs

/-- `_private_search_paths(requester, inspection)` -/
def privateSearchPaths (requester : String) (inspection : Inspection) : List String :=
  let entries := if inspection.runpath ≠ [] then inspection.runpath else inspection.rpath
  entries.foldl (fun result entry =>
    let expanded := expandOrigin (dirname requester).toList 0 entry.toList
    if '$' ∈ expanded ∨ expanded.head? ≠ some '/' then result
    else
      let canonical := normpath (String.ofList expanded)
      if isAbsolute canonical ∧ canonical ∉ result then result ++ [canonical] else result) []

/-- `posixpath.join(directory, name)`, of a name without a slash. -/
def joinName (directory name : String) : String :=
  if directory.toList.getLast? = some '/' then directory ++ name else directory ++ "/" ++ name

variable {α : Type}

/-- The files that are staged, and who looks at them. -/
structure Staging (α : Type) where
  host : FileTree α
  root : List String
  inspector : Inspector
  environment : Environment
  decisions : List Recipe.DependencyOverride

/-- The first directory that has the library. -/
def searchBundled (staging : Staging α) (soname : String) : List String → Except Failure String
  | [] => .ok ""
  | directory :: directories =>
      match stagedBundled staging.host staging.root (joinName directory soname) with
      | .ok selected => .ok selected.1
      | .error failure =>
          match failure with
          | .resolution code _ _ => if code = "staged_elf_missing" then searchBundled staging soname directories else .error failure
          | _ => .error failure

/-- `_bundled(root, requester, inspection, soname)` -/
def bundled (staging : Staging α) (requester : String) (inspection : Inspection) (soname : String) :
    Except Failure String := do
  refuse ('/' ∈ soname.toList ∨ soname = "." ∨ soname = "..")
    (resolutionError "invalid_soname" "ELF SONAME is not a safe basename")
  searchBundled staging soname (privateSearchPaths requester inspection)

/-! ## The walk -/

def maxElfFiles : Nat := 128
def maxRequirements : Nat := 512
def maxDepth : Nat := 16

/-- What the walk has collected; the sets are lists. -/
structure Walked where
  rows : List Requirement
  depends : List String
  visited : List String
  active : List String

/-- `rows.append(row)` -/
def Walked.note (state : Walked) (row : Requirement) : Walked := { state with rows := state.rows ++ [row] }

def decisionFor (staging : Staging α) (soname : String) : Option Recipe.DependencyOverride :=
  staging.decisions.find? fun row => row.soname = soname

def unresolved (requester soname : String) : Requirement := ⟨requester, soname, "", "unresolved", "", "", "", ""⟩

/-- `exc.requirements = …` -/
def withRequirements (state : Walked) (installed : String) (external : List String) : Failure → Failure
  | .resolution code message requirements =>
      if code ∈ ["soname_unresolved", "resolver_command_failed", "resolver_mapping_ambiguous"] then
        .resolution code message (state.rows ++ external.map (unresolved installed))
      else .resolution code message requirements
  | failure => failure

/-- A library of the target system. -/
def resolveExternal (staging : Staging α) (installed : String) (parsed : Parsed) (state : Walked) (soname : String) :
    Except Failure Walked := do
  let (package, metadata, path) ← demand
    (.resolution "soname_unresolved" ("Required SONAME " ++ soname ++ " was not resolved")
      (state.rows ++ [unresolved installed soname]))
    (parsed.sources.lookup soname)
  let selected ← canonical staging.environment path
  let others ← ((parsed.found.lookup soname).getD []).mapM (canonical staging.environment)
  refuse (∃ other ∈ others, other ≠ selected)
    (resolutionError "resolver_mapping_ambiguous" "Debian resolver found different libraries for one SONAME")
  let owner ← owner staging.environment path
  refuse (metadata ≠ "shlibs" ∧ package ≠ owner)
    (resolutionError "resolver_mapping_ambiguous" "Debian symbols metadata disagrees with installed library owner")
  let package := if metadata = "shlibs" then owner else package
  let relation ← dependencyFor package parsed.depends
  pure (state.note ⟨installed, soname, path, "resolved_external", package, relation, metadata, ""⟩)

/-- One pass of the loop over the needed libraries. -/
def resolveNeeded (staging : Staging α) (descend : Walked → String → Inspection → Except Failure Walked)
    (installed : String) (parsed : Parsed) (locals : List (String × String)) (state : Walked) (soname : String) :
    Except Failure Walked := do
  refuse (maxRequirements ≤ state.rows.length)
    (resolutionError "resolver_traversal_limit" "ELF requirement count exceeds its bound")
  let library := (locals.lookup soname).getD ""
  let decision := decisionFor staging soname
  if library ≠ "" then
    refuse (decision.isSome = true)
      (resolutionError "invalid_dependency_override" "Override targets a bundled requirement")
    let file ← staged staging.host staging.root library
    let child ← (inspectElf staging.inspector file none).mapError fun _ => .other "ElfInspectionError"
    refuse (child.kind ≠ .elf ∨ child.soname ≠ soname)
      (resolutionError "bundled_library_invalid" "Bundled library is not a matching valid ELF")
    descend (state.note ⟨installed, soname, library, "bundled", "", "", "", ""⟩) library child
  else match decision with
    | none => resolveExternal staging installed parsed state soname
    | some row =>
        if row.action = "ignore" then
          pure (state.note ⟨installed, soname, "", "ignored_explicitly", "", "", "", row.reason⟩)
        else if row.action = "manual" then do
          let (package, _) ← demand (.other "AttributeError") (dependency row.relation)
          let state := { state with depends := row.relation :: state.depends }
          pure (state.note
            ⟨installed, soname, "", "manually_resolved", package, row.relation, "operator_mapping", row.reason⟩)
        else resolveExternal staging installed parsed state soname

/-- The proposal of the Debian resolver, for a dynamic file. -/
def proposalFor (staging : Staging α) (state : Walked) (installed : String) (inspection : Inspection)
    (external : List String) : Except Failure Parsed :=
  if inspection.linkage = some .dynamic then
    (resolveOne staging.environment installed external).mapError (withRequirements state installed external)
  else pure ⟨∅, [], ∅⟩

/-- The interpreter is of a package that is proposed. -/
def checkInterpreter (staging : Staging α) (inspection : Inspection) (parsed : Parsed) : Except Failure Unit :=
  if inspection.interpreter = "" then pure ()
  else do
    let owner ← owner staging.environment inspection.interpreter
    let _ ← dependencyFor owner parsed.depends
    pure ()

/-- The part of `walk` below the checks: an ELF file for the architecture. -/
def resolveFile (staging : Staging α) (descend : Walked → String → Inspection → Except Failure Walked) (installed : String)
    (inspection : Inspection) (state : Walked) : Except Failure Walked := do
  refuse (maxRequirements < state.rows.length + inspection.needed.length)
    (resolutionError "resolver_traversal_limit" "ELF requirement count exceeds its bound")
  let locals ← inspection.needed.mapM fun soname => do
    let selected ← bundled staging installed inspection soname
    pure (soname, selected)
  let external := inspection.needed.filter fun soname =>
    (locals.lookup soname).getD "" = "" ∧ decisionFor staging soname = none
  let parsed ← proposalFor staging state installed inspection external
  let state := { state with depends := parsed.depends ++ state.depends }
  checkInterpreter staging inspection parsed
  inspection.needed.foldlM (resolveNeeded staging descend installed parsed locals) state

/-- The part of `walk` for a file that has not been visited: it is inspected again. -/
def visit (staging : Staging α) (descend : Walked → String → Inspection → Except Failure Walked) (state : Walked)
    (installed : String) (inspection : Inspection) : Except Failure Walked := do
  refuse (maxElfFiles ≤ state.visited.length)
    (resolutionError "resolver_traversal_limit" "Bundled ELF traversal exceeds its bound")
  let file ← staged staging.host staging.root installed
  let verified ← (inspectElf staging.inspector file (some inspection.sha256)).mapError fun
    | .inspection code message => resolutionError code message
    | .value _ => .other "ValueError"
  refuse (verified ≠ inspection)
    (resolutionError "elf_identity_mismatch" "Staged ELF inspection differs from supplied metadata")
  let state := { state with visited := installed :: state.visited }
  if inspection.kind = .notElf then pure state
  else do
    refuse (inspection.kind ≠ .elf) (resolutionError "malformed_elf" "A staged ELF is malformed")
    refuse (inspection.debianArchitecture ≠ "amd64")
      (resolutionError "elf_architecture_mismatch" "ELF architecture differs from Bookworm/amd64")
    let state := { state with active := installed :: state.active }
    let state ← resolveFile staging descend installed inspection state
    pure { state with active := state.active.erase installed }

/-- `walk(installed, inspection, depth)`, with the levels that are left. -/
def walk (staging : Staging α) (left : Nat) (state : Walked) (installed : String) (inspection : Inspection) :
    Except Failure Walked := do
  let installed ← relative installed
  if installed ∈ state.active ∨ installed ∈ state.visited then pure state
  else match left with
    | 0 => .error (resolutionError "resolver_traversal_limit" "Bundled ELF traversal exceeds its bound")
    | left + 1 => visit staging (walk staging left) state installed inspection

/-! ## The whole resolution -/

/-- `ResolutionResult` -/
structure Resolution where
  contractVersion : Nat
  status : String
  distribution : String
  architecture : String
  depends : List String
  requirements : List Requirement
  diagnostics : List String

def contractVersion : Nat := 1

/-- `sorted(entrypoints.items())` -/
def sortedItems (entrypoints : Dict String Inspection) : List (String × Inspection) :=
  (sorted (entrypoints.items.map Prod.fst)).filterMap fun installed =>
    (entrypoints.lookup installed).map fun inspection => (installed, inspection)

/-- The overrides, as `normalize_runtime_dependency_detection` reads them. -/
def readDecisions (overrides : List Json) : Except Failure (List Recipe.DependencyOverride) :=
  match Recipe.normalizeRuntimeDependencyDetection (.obj [("enabled", .bool true), ("overrides", .arr overrides)]) with
  | .ok detection => .ok detection.overrides
  | .error (.value message) | .error (.document _ message _ _ _) | .error (.resourceLimit _ message _) =>
      .error (resolutionError "invalid_dependency_override" message)
  | .error (.type _) => .error (.other "TypeError")
  | .error (.regex _) => .error (.other "error")
  | .error (.overflow _) => .error (.other "OverflowError")

/-- The staging root without links, below which the final package is staged. -/
def stagingRootOf (host : FileTree α) (environment : Environment) (stagingRoot : List String) :
    Except Failure (List String) := do
  refuse (host.lstat symlinkLimit stagingRoot |>.all fun node => match node with
      | .directory => false
      | _ => true)
    (resolutionError "unsafe_staging_path" "Staging root must be a real directory")
  let root ← demand (.other "OSError") (host.resolveFrom symlinkLimit [] stagingRoot)
  refuse (∃ mounted ∈ environment.mountedRoot, mounted ≠ root)
    (resolutionError "resolver_environment_mismatch" "Mounted staging tree does not match the inspected staging tree")
  match host.lstat symlinkLimit (root ++ ["DEBIAN"]), host.lstat symlinkLimit (root ++ ["DEBIAN", "control"]) with
  | some .directory, some (.file _) => pure root
  | _, _ => .error (resolutionError "resolver_environment_incomplete"
      "Final staging must contain DEBIAN/control for dpkg-shlibdeps")

/-- Membership in a list of names is decided with this instance. -/
local instance lawfulBEqName : LawfulBEq (List Char) := inferInstance

/-- The checks of the prepared environment. -/
def checkEnvironment (environment : Environment) : Except Failure Unit := do
  let release ← run environment ["cat", "/etc/os-release"] false
  refuse ("VERSION_CODENAME=bookworm".toList ∉ release.toList.splitOn '\n')
    (resolutionError "resolver_environment_mismatch" "Prepared environment is not Debian Bookworm")
  let architecture ← run environment ["dpkg", "--print-architecture"] false
  refuse (Text.strip architecture.toList ≠ "amd64".toList)
    (resolutionError "resolver_environment_mismatch" "Prepared environment is not amd64")
  let prepared := do
    let _ ← run environment ["test", "-x", "/usr/bin/dpkg-shlibdeps"] false
    let _ ← run environment ["test", "-f", workRoot ++ "/debian/control"] false
  prepared.mapError fun
    | .resolution "resolver_command_failed" _ _ =>
        resolutionError "resolver_environment_incomplete" "Bookworm dpkg-dev is not prepared in the target environment"
    | failure => failure

/-- `resolve_elf_dependencies(staging_root, entrypoints, …)` -/
def resolveElfDependencies (host : FileTree α) (inspector : Inspector) (stagingRoot : List String)
    (entrypoints : Dict String Inspection) (distribution architecture : String) (environment : Option Environment)
    (overrides : List Json) : Except Failure Resolution :=
  if distribution ≠ "bookworm" ∨ architecture ≠ "amd64" then
    .ok ⟨contractVersion, "unsupported", distribution, architecture, [], [],
      ["Automatic resolution supports Bookworm/amd64 only"]⟩
  else do
    let environment ← demand
      (resolutionError "resolver_environment_missing" "A prepared Bookworm/amd64 environment is required") environment
    let decisions ← readDecisions overrides
    let root ← stagingRootOf host environment stagingRoot
    refuse (maxElfFiles < entrypoints.items.length)
      (resolutionError "resolver_traversal_limit" "ELF entrypoint count exceeds its bound")
    checkEnvironment environment
    let staging : Staging α := ⟨host, root, inspector, environment, decisions⟩
    let walked ← (sortedItems entrypoints).foldlM
      (fun state entry => walk staging (maxDepth + 1) state entry.1 entry.2) ⟨[], [], [], []⟩
    refuse (∃ row ∈ decisions, row.soname ∉ walked.rows.map (·.soname))
      (resolutionError "invalid_dependency_override" "Override does not match an observed ELF requirement")
    let depends ← mergeDepends environment walked.depends
    pure ⟨contractVersion, "success", distribution, architecture, depends, walked.rows, []⟩

end DebBuilder.Elf
