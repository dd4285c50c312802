import Mathlib
import DebBuilder.Recipe.Model
import DebBuilder.Lib.Path

/-!
# Readers of Recipe members

The readers that the sections of a Recipe share, and the parts of a Recipe with a
normaliser of their own.

## Main definitions

* `asDict`, `asList`, `stringList`, `environment` — the shapes that a member may have.
* `orText` — `str(value or default)`.
* `normalizePolicy`, `normalizeAutomationPolicy`, `management`,
  `normalizeRuntimeDependencyDetection`, `normalizeArchivePayload` — the parts.
-/

namespace DebBuilder.Recipe
open Lib Json

/-- `text.strip()` -/
def strip (text : String) : String := String.ofList (Text.strip text.toList)

/-- `str(value)` -/
def strOf : Json → String
  | .str s => s
  | value => value.shown

/-- `str(value or default)` -/
def orText (value : Json) (default : String) : String := if value.truthy then strOf value else default

/-- `a or b` -/
def orElse (a b : Json) : Json := if a.truthy then a else b

/-- `fields.get(key, default)` -/
def getOr (fields : Fields) (key : String) (default : Json) : Json := (fields.lookup key).getD default

def hasKey (fields : Fields) (key : String) : Bool := (fields.lookup key).isSome

/-- `sorted(set(fields) - set(known))`, its first element. -/
def firstUnknown (fields : Fields) (known : List String) : Option String :=
  (((fields.map Prod.fst).filter (· ∉ known)).insertionSort (· ≤ ·)).head?

theorem firstUnknown_eq_none {fields : Fields} {known : List String} :
    firstUnknown fields known = none ↔ ∀ e ∈ fields, e.1 ∈ known := by
  simp only [firstUnknown, List.head?_eq_none_iff]
  rw [← List.length_eq_zero_iff, List.length_insertionSort, List.length_eq_zero_iff]
  simp

/-- `hash(value)` raises for lists and dictionaries. -/
def hashable (value : Json) : Fallible Unit :=
  match value with
  | .arr _ => .error (.type "unhashable type: 'list'")
  | .obj _ => .error (.type "unhashable type: 'dict'")
  | _ => .ok ()

/-- `value in members`, of a set of texts. -/
def inSet (value : Json) (members : List String) : Fallible Bool := do
  hashable value
  return match value with
    | .str s => s ∈ members
    | _ => false

/-- `isinstance(value, bool)` -/
def bool? : Json → Option Bool
  | .bool b => some b
  | _ => none

/-- `re.fullmatch` of a first character and the rest. -/
def fullMatch (first rest : Char → Bool) (text : String) : Bool :=
  match text.toList with
  | [] => false
  | c :: cs => first c && cs.all rest

def lowerAlnum (c : Char) : Bool := ('a' ≤ c && c ≤ 'z') || c.isDigit

/-- `[a-z0-9][a-z0-9+.-]*`, the form of `SAFE_PACKAGE` and of simple dependencies. -/
def safePackage (text : String) : Bool :=
  fullMatch lowerAlnum (fun c => lowerAlnum c || "+.-".toList.contains c) text

/-- `SAFE_NAME` -/
def safeName (text : String) : Bool :=
  let safe (c : Char) : Bool := c.isAlphanum || "_.+-".toList.contains c
  fullMatch safe safe text

def requireSafeName (text what : String) : Fallible Unit :=
  refuse (safeName text = false) (.value ("unsafe " ++ what))

def hasControl (text : String) : Bool := text.toList.any (·.toNat < 32)

/-- A category of `Cc`. -/
def isControl (c : Char) : Bool := c.toNat < 32 || (127 ≤ c.toNat && c.toNat < 160)

/-- `_dict` -/
def asDict (value : Json) (what : String) : Fallible Fields :=
  match value with
  | .null => .ok []
  | .obj fields => .ok fields
  | _ => .error (.value (what ++ " must be an object"))

/-- `_list` -/
def asList (value : Json) (what : String) : Fallible (List Json) :=
  match value with
  | .null => .ok []
  | .arr values => .ok values
  | _ => .error (.value (what ++ " must be a list"))

/-- `_string_list` -/
def stringList (value : Json) (what : String) : Fallible (List String) := do
  let rows ← asList value what
  let rows ← rows.mapM fun row => match row with
    | .str s => .ok s
    | _ => .error (.value (what ++ " must contain non-empty strings"))
  refuse (rows.any (strip · == "") = true) (.value (what ++ " must contain non-empty strings"))
  return rows.map strip

/-- `_environment` -/
def environment (value : Json) (what : String) : Fallible (List (String × String)) := do
  let rows ← asDict value what
  rows.mapM fun row => match row with
    | (key, .str s) => if key = "" then .error (.value (what ++ " must contain string keys and values")) else .ok (key, s)
    | _ => .error (.value (what ++ " must contain string keys and values"))

section
variable (lib : Library)

/-- `int(value)`: `none` where it raises a `TypeError` or a `ValueError`. -/
def intOf (value : Json) : Fallible (Option Int) :=
  match value with
  | .bool b => .ok (some (if b then 1 else 0))
  | .int n => .ok (some n)
  | .float (.finite q) _ => .ok (some (q.num.tdiv q.den))
  | .float (.infinite _) _ => .error (.overflow "cannot convert float infinity to integer")
  | .str s => .ok (lib.intOf s)
  | .float .nan _ | .null | .arr _ | .obj _ => .ok none

/-- `_optional_positive_int` -/
def optionalPositiveInt (value : Json) (what : String) : Fallible (Option Int) :=
  match value with
  | .null | .str "" => .ok none
  | value => do
    let parsed ← intOf lib value
    let parsed ← demand (.value (what ++ " must be a positive integer or empty")) parsed
    refuse (parsed < 1) (.value (what ++ " must be a positive integer or empty"))
    return some parsed

end

/-! ## Resource limits -/

def policyFields : List String :=
  ["memory_max_bytes", "tasks_max", "cpu_quota_percent", "io_read_bandwidth_max_bytes_per_sec",
    "io_write_bandwidth_max_bytes_per_sec"]

/-- `MAXIMUMS[field]` -/
def policyMaximum (field : String) : Int :=
  if field = "cpu_quota_percent" then min (2 ^ 53 - 1) ((2 ^ 64 - 1) / 10000) else 2 ^ 53 - 1

/-- One limit of a policy. -/
def normalizeLimit (fields : Fields) (path field : String) : Fallible (String × Option Int) :=
  match get fields field with
  | .null => .ok (field, none)
  | .int n => do
    refuse (n ≤ 0) (.resourceLimit "invalid_resource_limit" (field ++ " must be greater than zero or null")
      (path ++ "." ++ field))
    refuse (policyMaximum field < n) (.resourceLimit "resource_limit_out_of_range" (field ++
      (if field = "cpu_quota_percent" then " cannot map exactly to CPUQuotaPerSecUSec"
        else " cannot round-trip exactly through JSON clients")) (path ++ "." ++ field))
    return (field, some n)
  | _ => .error (.resourceLimit "invalid_resource_limit" (field ++ " must be a positive integer or null")
      (path ++ "." ++ field))

def normalizePolicy (value : Json) (path : String) : Fallible Policy := do
  let fields ← match value with
    | .null => .ok []
    | .obj fields => .ok fields
    | _ => .error (.resourceLimit "invalid_resource_limits" "Resource limits must be an object" path)
  match firstUnknown fields policyFields with
  | some unknown => .error (.resourceLimit "unknown_resource_limit"
      ("Unknown resource limit field: " ++ path ++ "." ++ unknown) (path ++ "." ++ unknown))
  | none => policyFields.mapM (normalizeLimit fields path)

/-! ## Automation -/

def automationPolicies : List String := ["manual", "detect", "test", "build", "build_validate", "full"]

def normalizeAutomationPolicy (value : Json) : Fallible Automation := do
  let policy ← asDict value "automation"
  match firstUnknown policy ["enabled", "policy"] with
  | some unknown => .error (.value ("unknown automation field: " ++ unknown))
  | none =>
    let enabled ← demand (.value "automation.enabled must be a boolean") (bool? (getOr policy "enabled" (.bool false)))
    let selected ← demand (.value "automation.policy is unsupported") (getOr policy "policy" (.str "manual")).str?
    refuse (selected ∉ automationPolicies) (.value "automation.policy is unsupported")
    return ⟨enabled, selected⟩

/-! ## Application management -/

def overrideFault (message field : String) : RecipeError :=
  .at "builtin_recipe_override_invalid" message ("$.management.operator_overrides" ++ field)

/-- A member that the built-in Recipe does not support. -/
def supported (fields : Fields) (known : List String) (what path : String) : Fallible Unit :=
  match firstUnknown fields known with
  | some unknown => .error (.at "builtin_recipe_upgrade_required" ("Unsupported built-in " ++ what ++ ": " ++ unknown)
      (path ++ "." ++ unknown))
  | none => .ok ()

/-- The override of the maintainer. -/
def packageOverride (value : Json) : Fallible String := do
  let package ← demand (overrideFault "package overrides must be an object" ".package") value.fields?
  supported package ["maintainer"] "package override" "$.management.operator_overrides.package"
  let fault := overrideFault "package.maintainer override must be a non-empty single-line string" ".package.maintainer"
  let maintainer ← demand fault (get package "maintainer").str?
  refuse (hasKey package "maintainer" = false ∨ strip maintainer = "" ∨
    maintainer.toList.any (fun c => c == '\r' || c == '\n')) fault
  return maintainer

/-- A timeout of an override: absent, null or within its bounds. -/
def timeoutOverride (build : Fields) (key : String) (maximum : Int) : Fallible (Option (Option Int)) :=
  match build.lookup key with
  | none => .ok none
  | some .null => .ok (some none)
  | some (.int n) =>
      if 1 ≤ n ∧ n ≤ maximum then .ok (some (some n))
      else .error (overrideFault ("build." ++ key ++ " override must be null or an integer between 1 and " ++
        toString maximum) (".build." ++ key))
  | some _ => .error (overrideFault ("build." ++ key ++ " override must be null or an integer between 1 and " ++
        toString maximum) (".build." ++ key))

def buildOverride (value : Json) : Fallible BuildOverrides := do
  let fault := overrideFault "build overrides must be a non-empty object" ".build"
  let build ← demand fault value.fields?
  refuse (build = []) fault
  supported build ["environment", "inactivity_timeout", "maximum_runtime"] "build override"
    "$.management.operator_overrides.build"
  let environment ← (build.lookup "environment").mapM fun value =>
    (environment value "build.environment override").mapError fun e => match e with
      | .value message => overrideFault message ".build.environment"
      | e => e
  let inactivityTimeout ← timeoutOverride build "inactivity_timeout" 86400
  let maximumRuntime ← timeoutOverride build "maximum_runtime" 604800
  return { environment, inactivityTimeout, maximumRuntime }

def resourceLimitsOverride (value : Json) : Fallible Policy :=
  let path := "$.management.operator_overrides.resource_limits"
  let limits : Fallible Policy := match value with
    | .obj _ => normalizePolicy value path
    | _ => .error (.resourceLimit "invalid_resource_limits" "Resource limits must be an object" path)
  limits.mapError fun e => match e with
    | .resourceLimit _ message path => .at "builtin_recipe_override_invalid" message path
    | e => e

/-- `_management` -/
def management (value : Json) (recipeName : String) : Fallible Management := do
  let fields ← demand (.at "builtin_recipe_invalid" "Recipe management metadata must be an object" "$.management")
    value.fields?
  supported fields ["owner", "builtin_id", "definition_version", "operator_overrides"] "management field" "$.management"
  refuse ((get fields "owner").str? ≠ some "application" ∨ (get fields "builtin_id").str? ≠ some builtinRecipeId ∨
    recipeName ≠ builtinRecipeId) (.at "builtin_recipe_invalid"
      "Application management metadata is reserved for the DebBuilder built-in Recipe" "$.management")
  let versionFault := RecipeError.at "builtin_recipe_invalid" "Built-in definition_version must be a positive integer"
    "$.management.definition_version"
  let definitionVersion ← demand versionFault (get fields "definition_version").int?
  refuse (definitionVersion < 1) versionFault
  let overrides ← demand (overrideFault "Built-in operator_overrides must be an object" "")
    (getOr fields "operator_overrides" (.obj [])).fields?
  supported overrides ["active", "package", "build", "resource_limits"] "operator override"
    "$.management.operator_overrides"
  let active ← (overrides.lookup "active").mapM fun value =>
    demand (overrideFault "active override must be a boolean" ".active") (bool? value)
  let maintainer ← (overrides.lookup "package").mapM packageOverride
  let build ← (overrides.lookup "build").mapM buildOverride
  let resourceLimits ← (overrides.lookup "resource_limits").mapM resourceLimitsOverride
  return { definitionVersion, operatorOverrides := { active, maintainer, build, resourceLimits } }

/-! ## Runtime dependencies -/

def sonameChar (c : Char) : Bool := c.isAlphanum || "_+.-".toList.contains c

/-- `ELF_SONAME` -/
def elfSoname (text : String) : Bool := fullMatch sonameChar sonameChar text && text.length ≤ 128

/-- `DEBIAN_RELATION` -/
def debianRelation (text : String) : Bool :=
  let nameChar (c : Char) : Bool := lowerAlnum c || "+.-".toList.contains c
  let name := text.toList.takeWhile nameChar
  let rest := text.toList.dropWhile nameChar
  let version := (rest.drop 5).dropLast
  safePackage (String.ofList name) && (rest.isEmpty ||
    (rest == " (>= ".toList ++ version ++ [')'] && !version.isEmpty &&
      version.all fun c => c.isAlphanum || ".+:~-".toList.contains c))

/-- One override, after those with the given sonames. -/
def dependencyOverride (seen : List String) (row : Json) : Fallible DependencyOverride := do
  let fields ← demand (.value "invalid runtime dependency override") row.fields?
  refuse (firstUnknown fields ["soname", "action", "reason", "relation"] ≠ none)
    (.value "invalid runtime dependency override")
  let sonameFault := RecipeError.value "invalid or duplicate runtime dependency override SONAME"
  let soname ← demand sonameFault (get fields "soname").str?
  refuse (elfSoname soname = false ∨ soname ∈ seen) sonameFault
  let known ← inSet (get fields "action") ["ignore", "manual"]
  let decisionFault := RecipeError.value "invalid runtime dependency override decision"
  refuse (known = false) decisionFault
  let reason ← demand decisionFault (get fields "reason").str?
  refuse (strip reason = "" ∨ 256 < reason.length ∨ hasControl reason = true) decisionFault
  let action := strOf (get fields "action")
  let relationFault := RecipeError.value "invalid runtime dependency override relation"
  let relation ← demand relationFault (getOr fields "relation" (.str "")).str?
  refuse ((action = "manual" ∧ debianRelation relation = false) ∨ (action = "ignore" ∧ relation ≠ "")) relationFault
  return { soname, action, reason := strip reason, relation }

/-- The overrides in order, each checked against those before it. -/
def dependencyOverrides (seen : List String) : List Json → Fallible (List DependencyOverride)
  | [] => .ok []
  | row :: rows => do
    let first ← dependencyOverride seen row
    let rest ← dependencyOverrides (first.soname :: seen) rows
    return first :: rest

def normalizeRuntimeDependencyDetection (value : Json) : Fallible DependencyDetection := do
  let policy ← asDict value "package.runtime_dependency_detection"
  refuse (firstUnknown policy ["enabled", "overrides"] ≠ none) (.value "unknown runtime dependency detection field")
  let enabled ← demand (.value "runtime dependency detection enabled must be boolean")
    (bool? (getOr policy "enabled" (.bool false)))
  let rows ← asList (get policy "overrides") "package.runtime_dependency_detection.overrides"
  refuse (32 < rows.length) (.value "too many runtime dependency overrides")
  let overrides ← dependencyOverrides [] rows
  return { enabled, overrides }

/-! ## Archive payloads -/

/-- A selector: the parts of its path, and whether it selects a directory. -/
structure ArchivePath where
  value : String
  parts : List (List Char)
  isDirectory : Bool
  deriving DecidableEq

/-- `^[A-Za-z]:/` -/
def windowsDrive : List Char → Bool
  | c :: ':' :: '/' :: _ => c.isAlpha
  | _ => false

/-- Membership in a list of path parts is decided with this instance. -/
local instance lawfulBEqPart : LawfulBEq (List Char) := inferInstance

def parseArchivePath (value : Json) : Fallible ArchivePath := do
  let text ← demand (.value "archive payload path must be a non-empty string") value.str?
  refuse (text = "") (.value "archive payload path must be a non-empty string")
  let cs := text.toList
  refuse (cs.any isControl = true) (.value "archive payload path must not contain control characters")
  refuse ('\\' ∈ cs) (.value "archive payload path must use POSIX separators")
  refuse (cs.head? = some '/') (.value "archive payload path must be relative")
  refuse (windowsDrive cs = true) (.value "archive payload path must not use a Windows drive prefix")
  let isDirectory := cs.getLast? == some '/'
  let path := if isDirectory then cs.dropLast else cs
  refuse (path = [] ∨ path.getLast? = some '/') (.value "archive payload path has a malformed directory marker")
  let parts := path.splitOn '/'
  refuse ([] ∈ parts) (.value "archive payload path must not contain repeated separators")
  refuse (['.'] ∈ parts ∨ ['.', '.'] ∈ parts) (.value "archive payload path must not contain . or .. components")
  return ⟨text, parts, isDirectory⟩

/-- A path that is a file for one selector and a directory for an earlier one. -/
def conflict? : List ArchivePath → List ArchivePath → Option ArchivePath
  | _, [] => none
  | before, path :: paths =>
      match before.find? (·.parts == path.parts) with
      | some first => if first.isDirectory = path.isDirectory then conflict? before paths else some path
      | none => conflict? (path :: before) paths

/-- `_canonical_selectors` -/
def canonicalSelectors (value : Json) (what : String) : Fallible (List String) := do
  let values ← match value with
    | .null => .ok []
    | .arr values => .ok values
    | _ => .error (.value (what ++ " must be a list"))
  let parsed ← values.mapM parseArchivePath
  match conflict? [] parsed with
  | some path => .error (.value (what ++ " contains conflicting file and directory selectors: " ++
      "/".intercalate (path.parts.map String.ofList)))
  | none =>
    let unique := parsed.reverse.dedup.reverse
    let directories := (unique.filter (·.isDirectory)).map (·.parts)
    let retained := unique.filter fun path =>
      !(List.range path.parts.length).any fun depth => 1 ≤ depth && directories.contains (path.parts.take depth)
    return (retained.map (·.value)).insertionSort (· ≤ ·)

/-- `normalize_archive_payload`, without the requirement of an included path. -/
def normalizeArchivePayload (value : Json) : Fallible Payload := do
  let fields ← match value with
    | .null => .ok []
    | .obj fields => .ok fields
    | _ => .error (.value "artifact.payload must be an object")
  let mode := orText (get fields "mode") "paths"
  refuse (mode ∉ ["paths", "entire_archive"]) (.value "unsupported archive payload mode")
  let included ← canonicalSelectors (get fields "include") "artifact.payload.include"
  let exclude ← canonicalSelectors (get fields "exclude") "artifact.payload.exclude"
  return { mode, «include» := if mode = "entire_archive" then [] else included, exclude }

end DebBuilder.Recipe
