import Mathlib
import DebBuilder.Recipe.Normalize

/-!
# Validation of canonical Recipes

The checks that a canonical Recipe has to pass, in their order. Each raises its own error.

## Main definitions

* `validateRecipeMetadata` — the canonical form of a document that passes every check.
-/

namespace DebBuilder.Recipe
open Lib Json

/-- Membership in a list of texts is decided with this instance. -/
local instance lawfulBEqText : LawfulBEq (List Char) := inferInstance

/-- `_safe_relative` -/
def safeRelative (value what : String) (allowDot : Bool := false) : Fallible Unit :=
  refuse (value = "" ∨ value.toList.head? = some '/' ∨ ['.', '.'] ∈ value.toList.splitOn '/' ∨
    (value = "." ∧ allowDot = false)) (.value (what ++ " must be a safe relative path"))

/-- A character of an installed path. -/
def pathChar (c : Char) : Bool := c.isAlphanum || "._+/-".toList.contains c

/-- `".." in text.split("/")` -/
def climbs (text : String) : Bool := (text.toList.splitOn '/').contains ['.', '.']

/-- A fixed beginning and a rest of the given characters. -/
def begins (start : String) (rest : Char → Bool) (text : String) : Bool :=
  start.toList.isPrefixOf text.toList && fullMatch rest rest (String.ofList (text.toList.drop start.length))

/-- The tree itself, or a path below it. -/
def withinTree (start text : String) : Bool := text = start || begins (start ++ "/") pathChar text

/-- `[A-Za-z0-9_.@-]+\.service` -/
def serviceName (text : String) : Bool :=
  let nameChar (c : Char) : Bool := c.isAlphanum || "_.@-".toList.contains c
  ".service".toList.isSuffixOf text.toList &&
    fullMatch nameChar nameChar (String.ofList (text.toList.take (text.length - 8)))

def singleLine (text : String) : Bool := text.toList.all fun c => c != '\r' && c != '\n'

def validatePackage (r : CanonicalRecipe) : Fallible Unit := do
  requireSafeName r.name "recipe name"
  let package := r.package
  refuse (safePackage package.name = false) (.value "package.name must be a valid Debian package name")
  refuse (package.architecture ∉ ["all", "amd64", "arm64", "armhf"]) (.value "unsupported architecture")
  refuse (safePackage package.section = false) (.value "package.section must be a valid Debian section")
  refuse (package.priority ∉ ["required", "important", "standard", "optional", "extra"])
    (.value "package.priority must be a valid Debian priority")
  refuse (singleLine package.maintainer = false) (.value "package.maintainer must be a single line")
  refuse (package.runtimeDependencies.any (fun dependency => !safePackage dependency) = true)
    (.value "runtime dependencies must be simple Debian package names")
  refuse (package.runtimeDependencyDetection.enabled = true ∧ (r.artifact.mode ≠ "upstream_archive" ∨
      r.artifact.archiveSource ≠ "release_asset" ∨ package.architecture ≠ "amd64"))
    (.value "automatic ELF dependencies require an amd64 Release-asset payload")
  let revisionChar (c : Char) : Bool := c.isAlphanum || ".+~".toList.contains c
  refuse (fullMatch revisionChar revisionChar package.versionRevision = false)
    (.value "package.version_revision is invalid")
  refuse ((bool? r.active).isNone = true) (.value "active must be a boolean")

/-- `[A-Za-z0-9_.-]+/[A-Za-z0-9_.-]+` -/
def repositorySlug (text : String) : Bool :=
  let slugChar (c : Char) : Bool := c.isAlphanum || "_.-".toList.contains c
  match text.toList.splitOn '/' with
  | [owner, name] => fullMatch slugChar slugChar (String.ofList owner) && fullMatch slugChar slugChar (String.ofList name)
  | _ => false

def validateSource (lib : Library) (source : Source) : Fallible Unit := do
  refuse (source.provider ≠ "github") (.value "unsupported source provider")
  refuse (source.repository ≠ "" ∧ repositorySlug source.repository = false)
    (.value "source.repository must look like owner/name")
  refuse (source.tracking ∉ ["latest_release", "tag", "manual"]) (.value "unsupported version tracking mode")
  refuse (source.tracking ∈ ["tag", "manual"] ∧ (source.ref = "" ∨ 200 < source.ref.length ∨
      source.ref.toList.any Text.isSpace = true))
    (.value "source.ref is required for explicit tag or manual tracking")
  refuse (source.versionSource ∉ ["tag", "release_name", "regex"]) (.at "unsupported_version_source"
    "source.version.source must be one of: release_name, regex, tag" "$.source.version.source")
  if source.versionSource = "regex" then
    refuse (source.versionExpression = "" ∨ 200 < source.versionExpression.length)
      (.value "a bounded version expression is required")
    match lib.regexError source.versionExpression with
    | some message => .error (.regex message)
    | none => .ok ()
  else return ()

/-- The checks of the members that prepare an auxiliary Node project. -/
def validateNodeProject (build : Build) (artifact : Artifact) : Fallible Unit := do
  refuse (build.nodeProjectDirectory.isSome = true ∧ artifact.mode ≠ "source_build")
    (.at "auxiliary_node_project_requires_source_build"
      "build.node_project_directory is supported only for source_build Recipes" "$.build.node_project_directory")
  match build.auxiliaryNodeInstall with
  | none => return ()
  | some install =>
    refuse (install.str? ≠ some "npm_ci") (.at "auxiliary_node_install_invalid"
      "build.auxiliary_node_install must be npm_ci" "$.build.auxiliary_node_install")
    refuse (artifact.mode ≠ "source_build") (.at "auxiliary_node_install_requires_source_build"
      "build.auxiliary_node_install is supported only for source_build Recipes" "$.build.auxiliary_node_install")
    refuse (build.nodeProjectDirectory = none) (.at "auxiliary_node_install_requires_node_project"
      "build.auxiliary_node_install requires build.node_project_directory" "$.build.auxiliary_node_install")

/-- The checks of the selection of a release asset and of the payload. -/
def validateArchive (artifact : Artifact) : Fallible Unit :=
  if artifact.mode = "upstream_archive" then do
    if artifact.archiveSource = "release_asset" then
      refuse (artifact.assetSelection = "exact" ∧ (artifact.assetName = "" ∨ artifact.namePattern ≠ ""))
        (.value "release asset selection requires exactly one exact asset_name")
      refuse (artifact.assetSelection = "pattern" ∧ (artifact.namePattern = "" ∨ artifact.assetName ≠ ""))
        (.value "release asset selection requires exactly one name_pattern")
    else
      refuse (artifact.assetName ≠ "" ∨ artifact.namePattern ≠ "")
        (.value "release asset fields are only valid with release_asset archive source")
    refuse (artifact.payload.mode = "paths" ∧ artifact.payload.include = [])
      (.value "paths archive payload requires at least one included path")
  else
    refuse (artifact.payload.mode ≠ "paths" ∨ artifact.payload.include ≠ [] ∨ artifact.payload.exclude ≠ [])
      (.value "artifact.payload is only configurable for upstream_archive")

def validateArtifact (build : Build) (artifact : Artifact) : Fallible Unit := do
  refuse (build.inactivityTimeout.any (fun n => n < 1 || 86400 < n) = true)
    (.value "build.inactivity_timeout must be null or between 1 and 86400 seconds")
  refuse (build.maximumRuntime.any (fun n => n < 1 || 604800 < n) = true)
    (.value "build.maximum_runtime must be empty or between 1 and 604800 seconds")
  refuse (artifact.mode ∉ ["source_build", "upstream_deb", "upstream_archive"]) (.value "unsupported artifact mode")
  validateNodeProject build artifact
  refuse (artifact.mode ∈ ["source_build", "upstream_deb"] ∧ artifact.type ≠ "deb")
    (.value "unsupported upstream artifact type")
  refuse (artifact.mode = "upstream_archive" ∧ artifact.type ∉ ["archive", "tar.gz", "tgz", "tar.xz", "zip"])
    (.value "unsupported upstream archive type")
  refuse (artifact.archiveSource ∉ ["auto", "github_source", "release_asset"])
    (.value "unsupported upstream archive source")
  refuse (artifact.assetSelection ∉ ["pattern", "exact"]) (.value "unsupported release asset selection mode")
  refuse (artifact.archiveFormat ∉ ["tar.gz", "zip"]) (.value "unsupported GitHub source archive format")
  refuse (artifact.architecture ∉ ["all", "amd64", "arm64", "armhf"]) (.value "unsupported artifact architecture")
  refuse (200 < artifact.namePattern.length ∨ singleLine artifact.namePattern = false)
    (.value "artifact.name_pattern is invalid")
  refuse (200 < artifact.assetName.length ∨
      artifact.assetName.toList.any (fun c => "/\\\r\n".toList.contains c) = true)
    (.value "artifact.asset_name is invalid")
  validateArchive artifact
  refuse ((bool? artifact.matchPackage).isNone = true ∨ (bool? artifact.matchVersion).isNone = true)
    (.value "artifact matching flags must be booleans")

/-- The paths that the output of a build selects. -/
def selectedPaths (output : Output) : List String := if output.mode = "path" then [output.path] else output.paths

/-- The post-build directories from an index on that the output does not cover. -/
def coveredFrom (selected : List (List String)) (index : Nat) : List String → Fallible Unit
  | [] => .ok ()
  | directory :: directories => do
    let parts := (PosixPath.parse directory).parts
    refuse (selected.any (·.isPrefixOf parts) = false) (.at "post_build_directory_invalid_path"
      ("Post-build directory is not covered by build.output: " ++ directory)
      ("$.build.ensure_directories[" ++ toString index ++ "]"))
    coveredFrom selected (index + 1) directories

def validateOutput (build : Build) (artifact : Artifact) : Fallible Unit := do
  let output := build.output
  refuse (output.mode ∉ ["path", "paths", "source"]) (.value "unsupported build output mode")
  if output.mode = "path" then safeRelative output.path "build.output.path" else .ok ()
  if output.mode = "paths" then do
    refuse (output.paths = []) (.value "build.output.paths must not be empty")
    output.paths.forM fun path => safeRelative path "build.output.paths entry"
  else .ok ()
  refuse (build.ensureDirectories ≠ [] ∧ artifact.mode ≠ "source_build") (.at "post_build_directory_invalid_path"
    "build.ensure_directories is only supported for source_build Recipes" "$.build.ensure_directories")
  if output.mode ≠ "source" then
    coveredFrom ((selectedPaths output).map fun path => (PosixPath.parse path).parts) 0 build.ensureDirectories
  else .ok ()

def sourceChangeTypes : List String :=
  ["replace", "insert_before", "insert_after", "remove", "create_file", "remove_file"]

/-- One source change; its number in a message starts at one. -/
def validateSourceChange (build : Build) (index : Nat) (change : Json) : Fallible Unit := do
  let what := "source change " ++ toString (index + 1)
  let fault := RecipeError.value (what ++ " has an unsupported operation")
  let fields ← demand fault change.fields?
  let supported ← inSet (get fields "operation") sourceChangeTypes
  refuse (supported = false) fault
  let path := textOf fields "path" ""
  safeRelative path (what ++ " path")
  let nodeModules := (PosixPath.parse (build.nodeProjectDirectory.getD "")).parts ++ ["node_modules"]
  refuse ((build.auxiliaryNodeInstall.bind Json.str?) = some "npm_ci" ∧
      nodeModules.isPrefixOf (PosixPath.parse path).parts = true)
    (.at "auxiliary_node_modules_source_change_forbidden"
      "source_changes must not target the auxiliary node_modules directory"
      ("$.build.source_changes[" ++ toString index ++ "].path"))

def validateSourceChanges (build : Build) (index : Nat) : List Json → Fallible Unit
  | [] => .ok ()
  | change :: changes => do
    validateSourceChange build index change
    validateSourceChanges build (index + 1) changes

/-- `detected_project in {None, …}` -/
def knownProject (project : Json) : Fallible Bool :=
  match project with
  | .null => .ok true
  | project => inSet project ["nodejs", "python", "rust", "static"]

def validateBuild (build : Build) (artifact : Artifact) : Fallible Unit := do
  let known ← knownProject build.detectedProject
  refuse (known = false) (.value "unsupported configured project type")
  safeRelative build.workingDirectory "build.working_directory" true
  validateOutput build artifact
  validateSourceChanges build 0 build.sourceChanges

/-- One configuration file mapping. -/
def validateConfigFile (configured : ConfigFile) : Fallible Unit := do
  refuse (begins "/" pathChar configured.destination = false ∨ climbs configured.destination = true)
    (.value "configuration files must use safe absolute paths")
  safeRelative configured.source "configuration source"
  refuse (configured.policy ∉ ["dpkg_conffile", "replace", "create_if_missing"])
    (.value "unsupported configuration policy")
  refuse (configured.mode.any (fun mode => !(match mode.toList with
      | ['0', a, b, c] => [a, b, c].all fun d => '0' ≤ d && d ≤ '7'
      | _ => false)) = true) (.value "configuration mapping mode must be an octal file mode")
  configured.owner.forM fun owner => requireSafeName owner "configuration mapping owner"
  configured.group.forM fun group => requireSafeName group "configuration mapping group"

def validateAccount (account : Account) (what : String) : Fallible Unit := do
  refuse ((bool? account.createUser).isNone = true) (.value ("install." ++ what ++ ".create_user must be a boolean"))
  refuse ((bool? account.createGroup).isNone = true) (.value ("install." ++ what ++ ".create_group must be a boolean"))
  requireSafeName account.user ("install " ++ what ++ " user")
  requireSafeName account.group ("install " ++ what ++ " group")

def validateDirectory (packageName : String) (directory : Directory) : Fallible Unit := do
  refuse (["/etc/", "/var/lib/", "/var/log/"].any (fun tree => withinTree (tree ++ packageName) directory.path) = false ∨
      climbs directory.path = true) (.value "install directory must be a safe package-specific persistent path")
  refuse (directory.mode ∉ ["0755", "0750", "0700"]) (.value "unsupported persistent directory mode")
  requireSafeName directory.owner "persistent directory owner"
  requireSafeName directory.group "persistent directory group"

/-- A destination in one of the supported trees. -/
def supportedDestination (packageName destination : String) : Bool :=
  (begins "/opt/" pathChar destination || ["/usr/bin", "/usr/sbin"].contains destination ||
    ["/usr/lib/", "/usr/share/"].any fun tree => withinTree (tree ++ packageName) destination) && !climbs destination

def validateInstall (packageName : String) (install : Install) : Fallible Unit := do
  if install.contentSource = "configured_files" then
    refuse (install.destination ≠ "") (.value "install.destination is not applicable to configured_files")
  else
    refuse (supportedDestination packageName install.destination = false)
      (.value "install.destination must be a supported FHS package path")
  refuse (install.directoryMode ∉ ["0755", "0750", "0700"] ∨ install.fileMode ∉ ["0644", "0640", "0600"])
    (.value "unsupported install permissions")
  refuse (install.contentSource ∉ ["build_output", "configured_files"]) (.value "unsupported install content source")
  install.configFiles.forM validateConfigFile
  validateAccount install.owner "owner"
  validateAccount install.account "account"
  install.directories.forM (validateDirectory packageName)

def serviceTypes : List String := ["simple", "exec", "forking", "oneshot", "notify", "dbus"]

def restartPolicies : List String :=
  ["", "no", "always", "on-success", "on-failure", "on-abnormal", "on-abort", "on-watchdog"]

def validateService (service : Service) : Fallible Unit := do
  refuse (service.enabled = true ∧ service.configured = false) (.value "an enabled service must be configured")
  refuse (service.configured = true ∧ (service.type ∉ serviceTypes ∨ service.restart ∉ restartPolicies))
    (.value "unsupported systemd service setting")
  refuse (service.name ≠ "" ∧ serviceName service.name = false) (.value "service.name must end in .service")
  if service.configured then do
    refuse (service.workingDirectory ≠ "" ∧ (begins "/" pathChar service.workingDirectory = false ∨
        climbs service.workingDirectory = true)) (.value "service.working_directory must be a safe absolute path")
    if service.user ≠ "" then requireSafeName service.user "service user" else .ok ()
    if service.group ≠ "" then requireSafeName service.group "service group" else .ok ()
  else .ok ()
  refuse (service.conflicts.any (fun unit => !serviceName unit) = true)
    (.value "service.conflicts must contain service unit names")
  refuse (service.limitNofile ≠ "" ∧ service.limitNofile ≠ "infinity" ∧
      fullMatch (fun c => '1' ≤ c && c ≤ '9') Char.isDigit service.limitNofile = false)
    (.value "service.limit_nofile is invalid")
  refuse (service.killMode ∉ ["", "control-group", "mixed", "process", "none"]) (.value "service.kill_mode is invalid")
  let identifierChar (c : Char) : Bool := c.isAlphanum || "_.@-".toList.contains c
  refuse (service.syslogIdentifier ≠ "" ∧ fullMatch identifierChar identifierChar service.syslogIdentifier = false)
    (.value "service.syslog_identifier is invalid")
  refuse (service.ambientCapabilities.any (fun capability =>
      !begins "CAP_" (fun c => c.isUpper || c.isDigit || c == '_') capability) = true)
    (.value "service.ambient_capabilities contains an invalid capability")

def validateRecipeMetadata (lib : Library) (workflow : Fields) : Fallible CanonicalRecipe := do
  let recipe ← normalizeRecipe lib workflow
  validatePackage recipe
  validateSource lib recipe.source
  validateArtifact recipe.build recipe.artifact
  validateBuild recipe.build recipe.artifact
  validateInstall recipe.package.name recipe.install
  validateService recipe.service
  return recipe

end DebBuilder.Recipe
