import Mathlib
import DebBuilder.Elf.Relations

/-!
# The answers of the Debian resolver

The commands that run in the prepared environment, and what is read from their output: the
relations and sources that `dpkg-shlibdeps` proposes for a file, and the package that owns
a library.

## Main definitions

* `run` — a command whose output is bounded and whose diagnostics are refused.
* `parseShlibdeps`, `resolveOne` — the proposal for one file.
* `dependencyFor`, `owner`, `canonical` — the relation of a package, and the package of a path.

## Main statements

* `isSome_of_mem_proposed` — the proposed relations can be read.
-/

namespace DebBuilder.Elf
open Lib

def mountRoot : String := "/debbuilder-staging"

def workRoot : String := "/debbuilder-elf-work"

def maxCommandBytes : Nat := 1024 * 1024

/-- What follows a text in another. -/
def after (start cs : List Char) : Option (List Char) := if start <+: cs then some (cs.drop start.length) else none

/-! ## Commands -/

/-- The warning about a filtered copy that is let through. -/
def isPluginWarning (line : List Char) : Bool :=
  let reference := " contains an unresolvable reference to symbol ".toList
  let closing := ": it's probably a plugin".toList
  match after "dpkg-shlibdeps: warning: /debbuilder-elf-work/filtered/".toList line with
  | none => false
  | some rest =>
      closing <:+ rest &&
        (let middle := rest.take (rest.length - closing.length)
        (List.range middle.length).any fun i =>
          0 < i && reference <+: middle.drop i && i + reference.length < middle.length)

/-- `stderr or stdout or text` -/
def firstText (stderr stdout text : String) : String :=
  if stderr ≠ "" then stderr else if stdout ≠ "" then stdout else text

/-- `_run(environment, arguments, filtered=filtered)` -/
def run (environment : Environment) (arguments : List String) (filtered : Bool) : Except Failure String := do
  let result := environment.execute arguments
  let stdout := result.stdout
  let stderr := result.stderr
  refuse (maxCommandBytes < stdout.utf8ByteSize + stderr.utf8ByteSize)
    (resolutionError "resolver_output_limit" "Debian resolver output exceeds its bound")
  refuse (result.timedOut = true) (resolutionError "resolver_timeout" "Debian resolver command timed out")
  refuse (result.exitCode ≠ some 0) (resolutionError "resolver_command_failed"
    (String.ofList ((firstText stderr stdout "Debian resolver command failed").toList.take 1000)))
  let diagnostics := Text.strip stderr.toList
  refuse (diagnostics ≠ [] ∧
      ¬ (filtered = true ∧ ∀ line ∈ Text.lines (String.ofList diagnostics), isPluginWarning line = true))
    (resolutionError "resolver_command_output_invalid" "Unexpected Debian resolver diagnostic output")
  pure stdout

/-! ## The proposal for one file -/

/-- The characters before white space, and the rest. -/
def token (cs : List Char) : Option (List Char × List Char) :=
  let word := cs.takeWhile fun c => ¬ Text.isSpace c
  if word = [] then none else some (word, cs.dropWhile fun c => ¬ Text.isSpace c)

/-- `(/\S+)` up to the end. -/
def rootedPath (cs : List Char) : Option String :=
  if cs.head? = some '/' ∧ 2 ≤ cs.length ∧ cs.all (fun c => !Text.isSpace c) = true then some (String.ofList cs) else none

/-- `FOUND.fullmatch(line).groups()` -/
def foundLine (line : List Char) : Option (String × String) := do
  let (soname, rest) ← (after "dpkg-shlibdeps: debug: Library ".toList line).bind token
  let path ← (after " found in ".toList rest).bind rootedPath
  pure (String.ofList soname, path)

/-- `SYMBOLS.fullmatch(line).groups()` -/
def symbolsLine (line : List Char) : Option (String × String) := do
  let rest ← after "dpkg-shlibdeps: debug: Using symbols file /var/lib/dpkg/info/".toList line
  let package := rest.takeWhile isPackageChar
  let soname ← after ":amd64.symbols for ".toList (rest.dropWhile isPackageChar)
  if package = [] ∨ soname = [] ∨ soname.any Text.isSpace then none else pure (String.ofList package, String.ofList soname)

/-- `SHLIBS.fullmatch(line).groups()` -/
def shlibsLine (line : List Char) : Option (String × String) := do
  let (soname, rest) ← (after "dpkg-shlibdeps: debug: Using shlibs+objdump for ".toList line).bind token
  let path ← after " (file ".toList rest
  if path.getLast? = some ')' then (rootedPath path.dropLast).map fun path => (String.ofList soname, path) else none

/-- What has been read of the output: the package, the metadata and the path of each SONAME, the
paths that were found, and the proposed relations. -/
structure Proposal where
  sources : Dict String (String × String × String)
  found : Dict String (List String)
  dependsLine : List Char

def ambiguousSoname : Failure :=
  resolutionError "resolver_mapping_ambiguous" "Debian metadata maps a SONAME ambiguously"

/-- `found.setdefault(soname, [])`, with the path appended that is not there. -/
def notePath (found : Dict String (List String)) (soname path : String) : Dict String (List String) :=
  let paths := (found.lookup soname).getD []
  found.set soname (if path ∈ paths then paths else paths ++ [path])

/-- One pass of the loop over the lines. -/
def readLine (state : Proposal) (line : List Char) : Except Failure Proposal := do
  refuse (¬ ("dpkg-shlibdeps: debug: ".toList <+: line ∨ "shlibs:Depends=".toList <+: line))
    (resolutionError "resolver_output_invalid" "Unexpected dpkg-shlibdeps output line")
  let found := match foundLine line with
    | some (soname, path) => notePath state.found soname path
    | none => state.found
  let sources ← match symbolsLine line with
    | some (package, soname) => do
        refuse (∃ source ∈ state.sources.lookup soname, (source.1, source.2.1) ≠ (package, "symbols")) ambiguousSoname
        pure (state.sources.set soname (package, "symbols", ((found.lookup soname).getD [""]).headD ""))
    | none => pure state.sources
  let sources ← match shlibsLine line with
    | some (soname, path) => do
        refuse (∃ source ∈ sources.lookup soname, source ≠ ("", "shlibs", path)) ambiguousSoname
        pure (sources.set soname ("", "shlibs", path))
    | none => pure sources
  match after "shlibs:Depends=".toList line with
  | some depends => do
      refuse (state.dependsLine ≠ []) (resolutionError "resolver_output_invalid" "Duplicate shlibs:Depends output")
      pure ⟨sources, found, depends⟩
  | none => pure ⟨sources, found, state.dependsLine⟩

/-- The relations between the commas. -/
def relationsOf (dependsLine : List Char) : List String :=
  (((dependsLine.splitOn ',').map Text.strip).filter (· ≠ [])).map String.ofList

/-- What `_parse_shlibdeps` returns. -/
structure Parsed where
  sources : Dict String (String × String × String)
  depends : List String
  found : Dict String (List String)

/-- `_parse_shlibdeps(output, needed)` -/
def parseShlibdeps (output : String) (needed : List String) : Except Failure Parsed := do
  let state ← (Text.lines output).foldlM readLine ⟨∅, ∅, []⟩
  refuse (state.dependsLine = [] ∧ needed ≠ [])
    (resolutionError "resolver_output_invalid" "dpkg-shlibdeps produced no dependencies for a dynamic ELF")
  let depends := relationsOf state.dependsLine
  refuse (∃ relation ∈ depends, dependency relation = none)
    (resolutionError "resolver_output_invalid" "dpkg-shlibdeps returned an unsupported relation")
  refuse (∃ soname ∈ needed, ∀ source ∈ state.sources.lookup soname, source.2.2 = "")
    (resolutionError "soname_unresolved" "Debian resolver did not explain every external SONAME")
  pure ⟨state.sources, depends, state.found⟩

/-- `_resolve_one(environment, installed, needed)` -/
def resolveOne (environment : Environment) (installed : String) (needed : List String) : Except Failure Parsed := do
  let filtered := decide (installed ∈ environment.filteredInstalled)
  let selected := if filtered then workRoot ++ "/filtered" ++ installed else mountRoot ++ installed
  let output ← run environment ["env", "-i", "-C", workRoot, "LC_ALL=C", "PATH=/usr/bin:/bin", "DEB_HOST_ARCH=amd64",
    "dpkg-shlibdeps", "-v", "-O", "-S" ++ mountRoot, "-e" ++ selected] filtered
  parseShlibdeps output needed

/-- `_dependency_for(package, depends)` -/
def dependencyFor (package : String) (depends : List String) : Except Failure String :=
  match depends.filter fun row => (dependency row).map Prod.fst = some package with
  | [row] => .ok row
  | _ => .error (resolutionError "resolver_mapping_ambiguous" "Debian package mapping does not match the proposed Depends")

/-! ## Owners -/

def invalidLibraryPath : Failure :=
  resolutionError "resolver_mapping_ambiguous" "Selected Debian library path is invalid"

/-- `_canonical(environment, path)` -/
def canonical (environment : Environment) (path : String) : Except Failure String := do
  let output ← run environment ["realpath", "-e", path] false
  let canonical := Text.strip output.toList
  refuse (canonical.head? ≠ some '/' ∨ '\n' ∈ canonical) invalidLibraryPath
  pure (String.ofList canonical)

/-- `_run(environment, ["dpkg-query", "-S", path]).strip().splitlines()` -/
def ownership (environment : Environment) (path : String) : Except Failure (List (List Char)) := do
  let output ← run environment ["dpkg-query", "-S", path] false
  pure (Text.lines (String.ofList (Text.strip output.toList)))

/-- `text.split(separator, 1)[0]` -/
def headOf (separator cs : List Char) : List Char := ((Text.cut separator cs).map Prod.fst).getD cs

/-- `_owner(environment, path)` -/
def owner (environment : Environment) (path : String) : Except Failure String := do
  refuse (path.toList.head? ≠ some '/' ∨ (mountRoot ++ "/").toList <+: path.toList ∨ '\n' ∈ path.toList) invalidLibraryPath
  let real ← canonical environment path
  let rows ← match ownership environment path with
    | .ok rows => pure rows
    | .error failure =>
        match failure with
        | .resolution code _ _ =>
            if path = real ∨ code ≠ "resolver_command_failed" then .error failure else ownership environment real
        | _ => .error failure
  match rows with
  | [row] => do
      refuse (Text.cut ": ".toList row = none)
        (resolutionError "resolver_mapping_ambiguous" "Shared-library ownership is ambiguous")
      let package := headOf [':'] (headOf ": ".toList row)
      refuse (¬ (package.head?.any isLowerAlnum = true ∧ package.all isPackageChar = true))
        (resolutionError "resolver_mapping_ambiguous" "Shared-library owner is invalid")
      pure (String.ofList package)
  | _ => .error (resolutionError "resolver_mapping_ambiguous" "Shared-library ownership is ambiguous")

/-! ## What is proposed -/

variable {environment : Environment} {installed output relation : String} {needed : List String} {parsed : Parsed}

theorem isSome_of_mem_depends (h : parseShlibdeps output needed = .ok parsed) (hmem : relation ∈ parsed.depends) :
    (dependency relation).isSome := by
  simp only [parseShlibdeps, bind_eq_ok, refuse_eq_ok, pure_eq_ok] at h
  obtain ⟨state, -, _, -, _, hread, _, -, rfl⟩ := h
  cases hrelation : dependency relation with
  | some parts => rfl
  | none => exact absurd ⟨relation, hmem, hrelation⟩ hread

/-- Every relation that is proposed for a file can be read. -/
theorem isSome_of_mem_proposed (h : resolveOne environment installed needed = .ok parsed) (hmem : relation ∈ parsed.depends) :
    (dependency relation).isSome := by
  simp only [resolveOne, bind_eq_ok] at h
  obtain ⟨output, -, hparsed⟩ := h
  exact isSome_of_mem_depends hparsed hmem

end DebBuilder.Elf
