import Mathlib
import DebBuilder.Recipe.Repositories

/-!
# Normalisation of Recipes

The canonical form of a document of the current schema, section by section, with its
defaults applied.

## Main definitions

* `normalizeRecipe` — the whole document.
-/

namespace DebBuilder.Recipe
open Lib Json

/-- `_require_current_schema` -/
def requireCurrentSchema (workflow : Fields) : Fallible Unit :=
  let version := get workflow "schema_version"
  refuse (Json.equals (.int schemaVersion) version = false ∨ (bool? version).isSome)
    (.document "unsupported_recipe_schema" ("Recipe schema_version must be " ++ toString schemaVersion)
      "$.schema_version" version.int? (some schemaVersion))

/-- `isinstance(parent, dict) and field in parent` -/
def present (parent : Json) (field : String) : Bool := (parent.fields?.map (hasKey · field)).getD false

/-- `_reject_removed_recipe_fields` -/
def rejectRemovedRecipeFields (workflow : Fields) : Fallible Unit :=
  let removedFields : List (Json × String × String) := [
    (.obj workflow, "steps", "$.steps"),
    (get workflow "build", "timeout", "$.build.timeout"),
    (get workflow "install", "config_policy", "$.install.config_policy"),
    (get workflow "service", "configured", "$.service.configured"),
    (get workflow "artifact", "selected_files", "$.artifact.selected_files"),
    ((get workflow "artifact").member "payload", "legacy_file_layout", "$.artifact.payload.legacy_file_layout")]
  match removedFields.find? fun removed => present removed.1 removed.2.1 with
  | some (_, _, path) => .error (.at "unknown_field" ("Unknown Recipe field: " ++ path) path)
  | none => .ok ()

/-! ## Sections -/

/-- `str(fields.get(key) or default)` -/
def textOf (fields : Fields) (key default : String) : String := orText (get fields key) default

def packageName (workflow package : Fields) : String :=
  String.ofList (Text.lower (textOf package "name" (textOf workflow "name" "recipe")).toList)

def packageSection (name : String) (package : Fields) : Fallible Package := do
  let runtimeDependencies ← stringList (get package "runtime_dependencies") "package.runtime_dependencies"
  let runtimeDependencyDetection ← normalizeRuntimeDependencyDetection (get package "runtime_dependency_detection")
  return {
    name
    versionRevision := textOf package "version_revision" "1"
    architecture := textOf package "architecture" "amd64"
    «section» := textOf package "section" "misc"
    priority := textOf package "priority" "optional"
    maintainer := textOf package "maintainer" ""
    description := textOf package "description" name
    runtimeDependencies, runtimeDependencyDetection }

def sourceSection (source version : Fields) : Source where
  provider := textOf source "provider" "github"
  repository := strip (textOf source "repository" "")
  tracking := textOf source "tracking" "latest_release"
  ref := textOf source "ref" ""
  versionSource := textOf version "source" "tag"
  versionExpression := textOf version "expression" ""

def artifactSection (package artifact : Fields) (payload : Payload) : Artifact :=
  let mode := textOf artifact "mode" "source_build"
  { mode
    type := textOf artifact "type" (if mode = "upstream_archive" then "archive" else "deb")
    architecture := orText (orElse (get artifact "architecture") (get package "architecture")) "amd64"
    namePattern := textOf artifact "name_pattern" ""
    matchPackage := getOr artifact "match_package" (.bool true)
    matchVersion := getOr artifact "match_version" (.bool true)
    assetName := textOf artifact "asset_name" ""
    archiveSource := textOf artifact "archive_source" "auto"
    assetSelection := textOf artifact "asset_selection"
      (if (get artifact "asset_name").truthy then "exact" else "pattern")
    archiveFormat := textOf artifact "archive_format" "tar.gz"
    payload }

/-- `_ensure_directories`, of the entries from an index on. -/
def ensureDirectoriesFrom (seen : List String) (index : Nat) : List Json → Fallible (List String)
  | [] => .ok []
  | row :: rows => do
    let path := "$.build.ensure_directories[" ++ toString index ++ "]"
    let fault (message : String) := RecipeError.at "post_build_directory_invalid_path" message path
    let text ← demand (fault "build.ensure_directories entries must be strings") row.str?
    let parsed := PosixPath.parse text
    refuse (text = "" ∨ parsed.parts = [] ∨ 1024 < text.length ∨ hasControl text = true ∨ '\\' ∈ text.toList ∨
        parsed.isAbsolute = true ∨ text ≠ parsed.asPosix ∨ parsed.parts.any (["", ".", ".."].contains ·) = true)
      (fault "build.ensure_directories entries must be canonical relative POSIX paths")
    refuse (text ∈ seen) (fault ("Duplicate post-build directory: " ++ text))
    let rest ← ensureDirectoriesFrom (text :: seen) (index + 1) rows
    return text :: rest

def ensureDirectories (value : Json) : Fallible (List String) := do
  let rows ← asList value "build.ensure_directories"
  refuse (256 < rows.length) (.at "post_build_directory_invalid_path"
    "build.ensure_directories must contain at most 256 paths" "$.build.ensure_directories")
  ensureDirectoriesFrom [] 0 rows

def normalizeNodeProjectDirectory (value : Json) : Fallible String := do
  let fault (message : String) :=
    RecipeError.at "auxiliary_node_project_invalid_path" message "$.build.node_project_directory"
  let text ← demand (fault "build.node_project_directory must be a string") value.str?
  let parsed := PosixPath.parse text
  refuse (text = "" ∨ strip text = "" ∨ parsed.parts = [] ∨ 1024 < text.length ∨
      text.toList.any isControl = true ∨ '\\' ∈ text.toList ∨ parsed.isAbsolute = true ∨ text ≠ parsed.asPosix ∨
      parsed.parts.any (["", ".", ".."].contains ·) = true)
    (fault "build.node_project_directory must be a canonical relative POSIX path")
  return text

/-- `str(output_in.get("mode") or …)`; a build with an `output` member has a path by default. -/
def outputMode (build output : Fields) : String :=
  textOf output "mode" (if hasKey build "output" then "path" else "source")

def outputSection (build output : Fields) (paths : List String) : Output :=
  let mode := outputMode build output
  { mode, paths
    path := match output.lookup "path" with
      | some path => strOf path
      | none => if mode = "path" then "dist" else "" }

def buildSection (lib : Library) (build : Fields) (output : Output) : Fallible Build := do
  let detectedFiles ← stringList (get build "detected_files") "build.detected_files"
  let detectedDependencies ← stringList (get build "detected_dependencies") "build.detected_dependencies"
  let detectedTools ← stringList (get build "detected_tools") "build.detected_tools"
  let extraDependencies ← stringList (get build "extra_dependencies") "build.extra_dependencies"
  let sourceChanges ← asList (get build "source_changes") "build.source_changes"
  let commands ← stringList (get build "commands") "build.commands"
  let ensureDirectories ← ensureDirectories (get build "ensure_directories")
  let inactivityTimeout ← match build.lookup "inactivity_timeout" with
    | some value => optionalPositiveInt lib value "build.inactivity_timeout"
    | none => .ok (some 300)
  let maximumRuntime ← optionalPositiveInt lib (get build "maximum_runtime") "build.maximum_runtime"
  let environment ← environment (get build "environment") "build.environment"
  let nodeProjectDirectory ← (build.lookup "node_project_directory").mapM normalizeNodeProjectDirectory
  return {
    detectedProject := get build "detected_project"
    detectedFiles, detectedDependencies, detectedTools, extraDependencies, sourceChanges, commands
    ensureDirectories, inactivityTimeout, maximumRuntime, environment
    workingDirectory := textOf build "working_directory" "."
    nodeProjectDirectory
    auxiliaryNodeInstall := build.lookup "auxiliary_node_install"
    output }

/-- One member of `_directories`. -/
def directoryRow (row : Json) : Fallible Directory := do
  let fault := RecipeError.value "install.directories must contain directory objects"
  let fields ← demand fault row.fields?
  let path ← demand fault (get fields "path").str?
  return {
    path := strip path
    owner := textOf fields "owner" "root"
    group := textOf fields "group" "root"
    mode := textOf fields "mode" "0755" }

/-- A member of a mapping that is kept when its text is not blank. -/
def notBlank (fields : Fields) (key : String) : Option String :=
  let text := strip (textOf fields key "")
  if text = "" then none else some (strip (strOf (get fields key)))

/-- One member of `_config_files`. -/
def configFileRow (row : Json) : Fallible ConfigFile := do
  let fault := RecipeError.value "install.config_files must contain source/destination mappings"
  let fields ← demand fault row.fields?
  let source ← demand fault (get fields "source").str?
  let destination ← demand fault (get fields "destination").str?
  return {
    source := strip source
    destination := strip destination
    policy := textOf fields "policy" "dpkg_conffile"
    owner := notBlank fields "owner"
    group := notBlank fields "group"
    mode := notBlank fields "mode" }

/-- `install.owner`; nobody creates the user or the group `root`. -/
def ownerSection (name : String) (owner : Fields) : Account :=
  let user := textOf owner "user" name
  let group := textOf owner "group" name
  { user, group
    createUser := if user ≠ "root" then getOr owner "create_user" (.bool false) else .bool false
    createGroup := if group ≠ "root" then getOr owner "create_group" (.bool false) else .bool false }

/-- `install.account`, whose defaults are the members of the owner. -/
def accountSection (name : String) (owner account : Fields) : Account where
  user := orText (orElse (get account "user") (get owner "user")) name
  group := orText (orElse (get account "group") (get owner "group")) name
  createUser := getOr account "create_user" (getOr owner "create_user" (.bool false))
  createGroup := getOr account "create_group" (getOr owner "create_group" (.bool false))

/-- The objects below the install section. -/
structure InstallMembers where
  owner : Fields
  account : Fields
  content : Fields
  scripts : Fields

def installSection (name : String) (install : Fields) (members : InstallMembers) : Fallible Install := do
  let contentSource := textOf members.content "source" "build_output"
  let directories ← (← asList (get install "directories") "install.directories").mapM directoryRow
  let configFiles ← (← asList (get install "config_files") "install.config_files").mapM configFileRow
  return {
    destination := if contentSource = "configured_files" then "" else textOf install "destination" ("/opt/" ++ name)
    contentSource
    contentPath := textOf members.content "path" ""
    owner := ownerSection name members.owner
    account := accountSection name members.owner members.account
    directories
    directoryMode := textOf install "directory_mode" "0755"
    fileMode := textOf install "file_mode" "0644"
    configFiles
    maintainerScripts := {
      preinst := textOf members.scripts "preinst" ""
      postinst := textOf members.scripts "postinst" ""
      prerm := textOf members.scripts "prerm" ""
      postrm := textOf members.scripts "postrm" "" } }

/-- The members by which a document asks for a service. -/
def serviceMembers : List String :=
  ["name", "description", "user", "group", "command", "environment_files", "environment", "after", "wants",
    "requires", "restart_sec", "timeout_start_sec", "timeout_stop_sec", "kill_signal", "exec_start_pre",
    "exec_start_post", "exec_stop", "standard_output", "standard_error", "working_directory"]

def serviceSection (packageName : String) (service : Fields) : Fallible Service := do
  let requested := (get service "enabled").truthy || serviceMembers.any fun key => (get service key).truthy
  let environmentFiles ← stringList (get service "environment_files") "service.environment_files"
  let environment ← environment (get service "environment") "service.environment"
  let after ← stringList (get service "after") "service.after"
  let wants ← stringList (get service "wants") "service.wants"
  let requires ← stringList (get service "requires") "service.requires"
  let execStartPre ← stringList (get service "exec_start_pre") "service.exec_start_pre"
  let execStartPost ← stringList (get service "exec_start_post") "service.exec_start_post"
  let execStop ← stringList (get service "exec_stop") "service.exec_stop"
  let conflicts ← stringList (get service "conflicts") "service.conflicts"
  let ambientCapabilities ← stringList (get service "ambient_capabilities") "service.ambient_capabilities"
  return {
    configured := strip (textOf service "name" "") ≠ "" && strip (textOf service "command" "") ≠ ""
    enabled := (get service "enabled").truthy
    name := textOf service "name" ""
    description := if requested then textOf service "description" packageName else ""
    type := if requested then textOf service "type" "simple" else ""
    user := textOf service "user" ""
    group := textOf service "group" ""
    restart := if requested then textOf service "restart" "on-failure" else ""
    command := textOf service "command" ""
    environmentFiles, environment, after, wants, requires
    restartSec := textOf service "restart_sec" ""
    timeoutStartSec := textOf service "timeout_start_sec" ""
    timeoutStopSec := textOf service "timeout_stop_sec" ""
    killSignal := textOf service "kill_signal" ""
    execStartPre, execStartPost, execStop
    standardOutput := textOf service "standard_output" ""
    standardError := textOf service "standard_error" ""
    workingDirectory := textOf service "working_directory" ""
    conflicts
    limitNofile := textOf service "limit_nofile" ""
    killMode := textOf service "kill_mode" ""
    syslogIdentifier := textOf service "syslog_identifier" ""
    ambientCapabilities }

/-! ## The document -/

def normalizeRecipe (lib : Library) (workflow : Fields) : Fallible CanonicalRecipe := do
  requireCurrentSchema workflow
  rejectRemovedRecipeFields workflow
  refuse (((workflow.lookup "resource_limits").any fun limits => limits.fields?.isNone) = true)
    (.resourceLimit "invalid_resource_limits" "Resource limits must be an object" "$.resource_limits")
  let package ← asDict (get workflow "package") "package"
  let source ← asDict (get workflow "source") "source"
  let build ← asDict (get workflow "build") "build"
  let install ← asDict (get workflow "install") "install"
  let service ← asDict (get workflow "service") "service"
  let artifact ← asDict (get workflow "artifact") "artifact"
  let version ← asDict (get source "version") "source.version"
  let output ← asDict (get build "output") "build.output"
  let owner ← asDict (get install "owner") "install.owner"
  let account ← asDict (get install "account") "install.account"
  let content ← asDict (get install "content") "install.content"
  let scripts ← asDict (get install "maintainer_scripts") "install.maintainer_scripts"
  let name := textOf workflow "name" "recipe"
  let packageName := packageName workflow package
  let outputPaths ← stringList (get output "paths") "build.output.paths"
  let payload ← normalizeArchivePayload (get artifact "payload")
  let automation ← normalizeAutomationPolicy (get workflow "automation")
  let management ← (workflow.lookup "management").mapM fun value => management value name
  let resourceLimits ← normalizePolicy (getOr workflow "resource_limits" (.obj [])) "$.resource_limits"
  let runtimeAptRepositories ← normalizeRuntimeAptRepositories lib (get workflow "runtime_apt_repositories")
  let package' ← packageSection packageName package
  let build' ← buildSection lib build (outputSection build output outputPaths)
  let install' ← installSection packageName install ⟨owner, account, content, scripts⟩
  let service' ← serviceSection packageName service
  return {
    name
    active := getOr workflow "active" (.bool true)
    automation, management, resourceLimits, runtimeAptRepositories
    package := package'
    source := sourceSection source version
    artifact := artifactSection package artifact payload
    build := build'
    install := install'
    service := service' }

end DebBuilder.Recipe
