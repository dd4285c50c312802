import Mathlib
import DebBuilder.Lib.Fallible
import DebBuilder.Lib.Json

/-!
# Canonical Recipes

The canonical form of a Recipe, section by section, and the JSON object it is. A member that
normalisation copies unread stays a JSON value here.

## Main definitions

* `RecipeError` — what the schema code raises.
* `Library` — the functions of the standard library that it calls.
* `Recipe`, `Recipe.toJson` — the canonical form.
-/

namespace DebBuilder.Recipe
open Lib

/-- The exceptions of the schema code. -/
inductive RecipeError
  | document (code message path : String) (sourceVersion targetVersion : Option Int)
  | resourceLimit (code message path : String)
  | value (message : String)
  | type (message : String)
  /-- `re.error` -/
  | regex (message : String)
  /-- `OverflowError`, which no caller expects. -/
  | overflow (message : String)
  deriving DecidableEq, Repr

/-- A `RecipeDocumentError` without versions. -/
def RecipeError.at (code message path : String) : RecipeError := .document code message path none none

/-- What `urlsplit` finds in a text. -/
structure SplitUri where
  scheme : String
  netloc : String
  hostname : Option String
  port : Option Nat
  username : Option String
  password : Option String
  path : String

/-- The functions of the standard library that the schema code calls on texts. -/
structure Library where
  /-- `int(text)` -/
  intOf : String → Option Int
  /-- What `re.compile` raises. -/
  regexError : String → Option String
  /-- `urlsplit(text)` and its `port`, where neither raises. -/
  urlsplit : String → Option SplitUri
  /-- `urlunsplit(("https", authority, path, "", ""))` -/
  urlunsplit : String → String → String
  /-- Whether `ipaddress.IPv6Address` accepts a text. -/
  isIpv6 : String → Bool
  /-- The length of `base64.b64decode(text, validate=True)`. -/
  decodedLength : String → Option Nat

abbrev Fallible (α : Type) := Except RecipeError α

def texts (values : List String) : Json := .arr (values.map .str)

def environmentJson (rows : List (String × String)) : Json := .obj (rows.map fun row => (row.1, .str row.2))

def optionalInt : Option Int → Json
  | some n => .int n
  | none => .null

/-- A limit of each control, in the order of the source's fields. -/
abbrev Policy := List (String × Option Int)

def Policy.toJson (policy : Policy) : Json := .obj (policy.map fun limit => (limit.1, optionalInt limit.2))

structure Automation where
  enabled : Bool
  policy : String

def Automation.toJson (a : Automation) : Json := .obj [("enabled", .bool a.enabled), ("policy", .str a.policy)]

/-- The members of an operator override of the build; a timeout may be null. -/
structure BuildOverrides where
  environment : Option (List (String × String))
  inactivityTimeout : Option (Option Int)
  maximumRuntime : Option (Option Int)

/-- A member that may be absent. -/
def member? {α : Type} (key : String) (toJson : α → Json) : Option α → Json.Fields
  | some value => [(key, toJson value)]
  | none => []

def BuildOverrides.toJson (b : BuildOverrides) : Json :=
  .obj (member? "environment" environmentJson b.environment ++
    member? "inactivity_timeout" optionalInt b.inactivityTimeout ++
    member? "maximum_runtime" optionalInt b.maximumRuntime)

structure OperatorOverrides where
  active : Option Bool
  maintainer : Option String
  build : Option BuildOverrides
  resourceLimits : Option Policy

def OperatorOverrides.toJson (o : OperatorOverrides) : Json :=
  .obj (member? "active" .bool o.active ++
    member? "package" (fun maintainer => .obj [("maintainer", .str maintainer)]) o.maintainer ++
    member? "build" BuildOverrides.toJson o.build ++
    member? "resource_limits" Policy.toJson o.resourceLimits)

/-- `BUILTIN_RECIPE_ID` -/
def builtinRecipeId : String := "debbuilder"

structure Management where
  definitionVersion : Int
  operatorOverrides : OperatorOverrides

def Management.toJson (m : Management) : Json := .obj [
  ("owner", .str "application"), ("builtin_id", .str builtinRecipeId),
  ("definition_version", .int m.definitionVersion), ("operator_overrides", m.operatorOverrides.toJson)]

structure Repository where
  id : String
  uri : String
  suite : String
  components : List String
  armored : String

def Repository.toJson (r : Repository) : Json := .obj [
  ("id", .str r.id), ("uri", .str r.uri), ("suite", .str r.suite), ("components", texts r.components),
  ("signing_key", .obj [("armored", .str r.armored)])]

structure DependencyOverride where
  soname : String
  action : String
  reason : String
  relation : String

def DependencyOverride.toJson (o : DependencyOverride) : Json := .obj [
  ("soname", .str o.soname), ("action", .str o.action), ("reason", .str o.reason), ("relation", .str o.relation)]

structure DependencyDetection where
  enabled : Bool
  overrides : List DependencyOverride

def DependencyDetection.toJson (d : DependencyDetection) : Json := .obj [
  ("enabled", .bool d.enabled), ("overrides", .arr (d.overrides.map DependencyOverride.toJson))]

structure Package where
  name : String
  versionRevision : String
  architecture : String
  «section» : String
  priority : String
  maintainer : String
  description : String
  runtimeDependencies : List String
  runtimeDependencyDetection : DependencyDetection

def Package.toJson (p : Package) : Json := .obj [
  ("name", .str p.name), ("version_revision", .str p.versionRevision), ("architecture", .str p.architecture),
  ("section", .str p.section), ("priority", .str p.priority), ("maintainer", .str p.maintainer),
  ("description", .str p.description), ("runtime_dependencies", texts p.runtimeDependencies),
  ("runtime_dependency_detection", p.runtimeDependencyDetection.toJson)]

structure Source where
  provider : String
  repository : String
  tracking : String
  ref : String
  versionSource : String
  versionExpression : String

def Source.toJson (s : Source) : Json := .obj [
  ("provider", .str s.provider), ("repository", .str s.repository), ("tracking", .str s.tracking),
  ("ref", .str s.ref),
  ("version", .obj [("source", .str s.versionSource), ("expression", .str s.versionExpression)])]

structure Payload where
  mode : String
  «include» : List String
  exclude : List String

def Payload.toJson (p : Payload) : Json := .obj [
  ("mode", .str p.mode), ("include", texts p.include), ("exclude", texts p.exclude)]

structure Artifact where
  mode : String
  type : String
  architecture : String
  namePattern : String
  matchPackage : Json
  matchVersion : Json
  assetName : String
  archiveSource : String
  assetSelection : String
  archiveFormat : String
  payload : Payload

def Artifact.toJson (a : Artifact) : Json := .obj [
  ("mode", .str a.mode), ("type", .str a.type), ("architecture", .str a.architecture),
  ("name_pattern", .str a.namePattern), ("match_package", a.matchPackage), ("match_version", a.matchVersion),
  ("asset_name", .str a.assetName), ("archive_source", .str a.archiveSource),
  ("asset_selection", .str a.assetSelection), ("archive_format", .str a.archiveFormat),
  ("payload", a.payload.toJson)]

structure Output where
  mode : String
  path : String
  /-- Present in the mode `paths` only. -/
  paths : List String

def Output.toJson (o : Output) : Json := .obj ([("mode", .str o.mode), ("path", .str o.path)] ++
  if o.mode = "paths" then [("paths", texts o.paths)] else [])

structure Build where
  detectedProject : Json
  detectedFiles : List String
  detectedDependencies : List String
  detectedTools : List String
  extraDependencies : List String
  sourceChanges : List Json
  commands : List String
  ensureDirectories : List String
  inactivityTimeout : Option Int
  maximumRuntime : Option Int
  environment : List (String × String)
  workingDirectory : String
  nodeProjectDirectory : Option String
  auxiliaryNodeInstall : Option Json
  output : Output

def Build.toJson (b : Build) : Json := .obj ([
  ("detected_project", b.detectedProject), ("detected_files", texts b.detectedFiles),
  ("detected_dependencies", texts b.detectedDependencies), ("detected_tools", texts b.detectedTools),
  ("extra_dependencies", texts b.extraDependencies), ("source_changes", .arr b.sourceChanges),
  ("commands", texts b.commands), ("ensure_directories", texts b.ensureDirectories),
  ("inactivity_timeout", optionalInt b.inactivityTimeout), ("maximum_runtime", optionalInt b.maximumRuntime),
  ("environment", environmentJson b.environment), ("working_directory", .str b.workingDirectory)] ++
  member? "node_project_directory" .str b.nodeProjectDirectory ++
  member? "auxiliary_node_install" id b.auxiliaryNodeInstall ++ [("output", b.output.toJson)])

/-- The owner of the installed files, or the account that the package creates. -/
structure Account where
  user : String
  group : String
  createUser : Json
  createGroup : Json

def Account.toJson (a : Account) : Json := .obj [
  ("user", .str a.user), ("group", .str a.group), ("create_user", a.createUser), ("create_group", a.createGroup)]

structure Directory where
  path : String
  owner : String
  group : String
  mode : String

def Directory.toJson (d : Directory) : Json := .obj [
  ("path", .str d.path), ("owner", .str d.owner), ("group", .str d.group), ("mode", .str d.mode)]

structure ConfigFile where
  source : String
  destination : String
  policy : String
  owner : Option String
  group : Option String
  mode : Option String

def ConfigFile.toJson (c : ConfigFile) : Json := .obj (
  [("source", .str c.source), ("destination", .str c.destination), ("policy", .str c.policy)] ++
  member? "owner" .str c.owner ++ member? "group" .str c.group ++ member? "mode" .str c.mode)

structure MaintainerScripts where
  preinst : String
  postinst : String
  prerm : String
  postrm : String

def MaintainerScripts.toJson (m : MaintainerScripts) : Json := .obj [
  ("preinst", .str m.preinst), ("postinst", .str m.postinst), ("prerm", .str m.prerm), ("postrm", .str m.postrm)]

structure Install where
  destination : String
  contentSource : String
  contentPath : String
  owner : Account
  account : Account
  directories : List Directory
  directoryMode : String
  fileMode : String
  configFiles : List ConfigFile
  maintainerScripts : MaintainerScripts

def Install.toJson (i : Install) : Json := .obj [
  ("destination", .str i.destination),
  ("content", .obj [("source", .str i.contentSource), ("path", .str i.contentPath)]),
  ("owner", i.owner.toJson), ("account", i.account.toJson),
  ("directories", .arr (i.directories.map Directory.toJson)), ("directory_mode", .str i.directoryMode),
  ("file_mode", .str i.fileMode), ("config_files", .arr (i.configFiles.map ConfigFile.toJson)),
  ("maintainer_scripts", i.maintainerScripts.toJson)]

structure Service where
  configured : Bool
  enabled : Bool
  name : String
  description : String
  type : String
  user : String
  group : String
  restart : String
  command : String
  environmentFiles : List String
  environment : List (String × String)
  after : List String
  wants : List String
  requires : List String
  restartSec : String
  timeoutStartSec : String
  timeoutStopSec : String
  killSignal : String
  execStartPre : List String
  execStartPost : List String
  execStop : List String
  standardOutput : String
  standardError : String
  workingDirectory : String
  conflicts : List String
  limitNofile : String
  killMode : String
  syslogIdentifier : String
  ambientCapabilities : List String

def Service.toJson (s : Service) : Json := .obj [
  ("configured", .bool s.configured), ("enabled", .bool s.enabled), ("name", .str s.name),
  ("description", .str s.description), ("type", .str s.type), ("user", .str s.user), ("group", .str s.group),
  ("restart", .str s.restart), ("command", .str s.command), ("environment_files", texts s.environmentFiles),
  ("environment", environmentJson s.environment), ("after", texts s.after), ("wants", texts s.wants),
  ("requires", texts s.requires), ("restart_sec", .str s.restartSec),
  ("timeout_start_sec", .str s.timeoutStartSec), ("timeout_stop_sec", .str s.timeoutStopSec),
  ("kill_signal", .str s.killSignal), ("exec_start_pre", texts s.execStartPre),
  ("exec_start_post", texts s.execStartPost), ("exec_stop", texts s.execStop),
  ("standard_output", .str s.standardOutput), ("standard_error", .str s.standardError),
  ("working_directory", .str s.workingDirectory), ("conflicts", texts s.conflicts),
  ("limit_nofile", .str s.limitNofile), ("kill_mode", .str s.killMode),
  ("syslog_identifier", .str s.syslogIdentifier), ("ambient_capabilities", texts s.ambientCapabilities)]

/-- `SCHEMA_VERSION` -/
def schemaVersion : Int := 5

/-- A Recipe in canonical form. -/
structure CanonicalRecipe where
  name : String
  active : Json
  automation : Automation
  management : Option Management
  resourceLimits : Policy
  runtimeAptRepositories : List Repository
  package : Package
  source : Source
  artifact : Artifact
  build : Build
  install : Install
  service : Service

def CanonicalRecipe.toJson (r : CanonicalRecipe) : Json := .obj (
  [("schema_version", .int schemaVersion), ("name", .str r.name), ("active", r.active),
    ("automation", r.automation.toJson)] ++
  member? "management" Management.toJson r.management ++
  [("resource_limits", r.resourceLimits.toJson),
    ("runtime_apt_repositories", .arr (r.runtimeAptRepositories.map Repository.toJson)),
    ("package", r.package.toJson), ("source", r.source.toJson), ("artifact", r.artifact.toJson),
    ("build", r.build.toJson), ("install", r.install.toJson), ("service", r.service.toJson)])

end DebBuilder.Recipe
