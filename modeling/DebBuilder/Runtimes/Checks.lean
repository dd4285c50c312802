import Mathlib
import DebBuilder.Lib.Fallible
import DebBuilder.Lib.Text

/-!
# Runtime checks

How the interpreters that a package depends on are found in its `Depends`, what is asked of each, and how its
reported version is compared.

## Main definitions

* `runtimeClauses`, `runtimeDependencySpecs` — the relations of a `Depends` text.
* `nodeSatisfies`, `pythonSatisfies` — the requirement languages of the two interpreters.
* `runtimeChecks` — the checks, and what is raised.
-/

namespace DebBuilder.Runtimes
open Lib

/-! ## Numbers -/

/-- The decimal digits, as `\d` and `int` read them. -/
structure Decimals where
  value : Char → Option Nat
  ascii : ∀ c, c.toNat < 128 → value c = if c.isDigit then some (c.toNat - '0'.toNat) else none
  not_space : ∀ c, Text.isSpace c = true → value c = none

/-- The digits of ASCII alone. -/
def asciiDecimals : Decimals where
  value c := if c.isDigit then some (c.toNat - '0'.toNat) else none
  ascii _ _ := rfl
  not_space c h := by
    have hdigit : c.isDigit = false := by
      simp only [Text.isSpace, Bool.or_eq_true, Bool.and_eq_true, decide_eq_true_eq, beq_iff_eq] at h
      simp only [Char.isDigit, Bool.and_eq_false_iff, decide_eq_false_iff_not, ge_iff_le, UInt32.le_iff_toNat_le]
      change ¬ 48 ≤ c.toNat ∨ ¬ c.toNat ≤ 57
      omega
    rw [hdigit]
    rfl

section
variable (d : Decimals)

def isDecimal (c : Char) : Bool := (d.value c).isSome

/-- `int(digits)` -/
def number (digits : List Char) : Nat := digits.foldl (fun n c => 10 * n + (d.value c).getD 0) 0

/-- `(\d+)` -/
def takeNumber (cs : List Char) : Option (Nat × List Char) :=
  if cs.takeWhile (isDecimal d) = [] then none
  else some (number d (cs.takeWhile (isDecimal d)), cs.dropWhile (isDecimal d))

/-- `\.(\d+)` -/
def takeDotNumber : List Char → Option (Nat × List Char)
  | '.' :: cs => takeNumber d cs
  | _ => none

/-- `\d+(?:\.\d+){0,2}`, of the whole text: its numbers. -/
def dotted (cs : List Char) : Option (List Nat) := do
  let (first, rest) ← takeNumber d cs
  match takeDotNumber d rest with
  | none => if rest = [] then some [first] else none
  | some (second, rest) =>
      match takeDotNumber d rest with
      | none => if rest = [] then some [first, second] else none
      | some (third, rest) => if rest = [] then some [first, second, third] else none

/-- Three numbers, of which the missing ones are 0. -/
def padded (numbers : List Nat) : List Nat := [numbers.getD 0 0, numbers.getD 1 0, numbers.getD 2 0]

/-! ## Requirements -/

/-- `v?(\d+)\.(\d+)\.(\d+)`, of the whole text. -/
def nodeVersion (version : List Char) : Option (List Nat) := do
  let version := Text.strip version
  let (major, rest) ← takeNumber d (if version.head? = some 'v' then version.tail else version)
  let (minor, rest) ← takeDotNumber d rest
  let (patch, rest) ← takeDotNumber d rest
  if rest = [] then some [major, minor, patch] else none

/-- `\s*(\^|>=)?\s*(\d+)(?:\.(\d+))?(?:\.(\d+))?\s*`, of the whole text: the operator and the numbers. -/
def nodeRequirement (requirement : List Char) : Option (List Char × List Nat) :=
  let cs := Text.strip requirement
  let (operator, rest) :=
    if ['^'].isPrefixOf cs then (['^'], cs.drop 1) else if ['>', '='].isPrefixOf cs then (['>', '='], cs.drop 2) else ([], cs)
  (dotted d (Text.lstrip rest)).map fun numbers => (operator, numbers)

/-- `node_satisfies(version, requirement)` -/
def nodeSatisfies (version requirement : List Char) : Bool :=
  match nodeVersion d version, nodeRequirement d requirement with
  | some actual, some (operator, numbers) =>
      let minimum := padded numbers
      if operator = ['^'] then !decide (actual < minimum) && actual.head? = minimum.head?
      else if operator = ['>', '='] then !decide (actual < minimum)
      else actual = minimum
  | _, _ => false

/-- `(\d+)\.(\d+)(?:\.(\d+))?`, from the start of a text. -/
def pythonNumbers (cs : List Char) : Option (List Nat) := do
  let (major, rest) ← takeNumber d cs
  let (minor, rest) ← takeDotNumber d rest
  some [major, minor, ((takeDotNumber d rest).map Prod.fst).getD 0]

/-- `Python\s+` -/
def pythonPrefix (cs : List Char) : Option (List Char) :=
  let name := "Python".toList
  if name.isPrefixOf cs ∧ ((cs.drop name.length).head?.any Text.isSpace) then some (Text.lstrip (cs.drop name.length)) else none

/-- `(?:Python\s+)?(\d+)\.(\d+)(?:\.(\d+))?`, wherever it begins first. -/
def pythonVersion : List Char → Option (List Nat)
  | [] => none
  | c :: cs => (((pythonPrefix (c :: cs)).bind (pythonNumbers d)).or (pythonNumbers d (c :: cs))).or (pythonVersion cs)

/-- `(\^|~=|==|>=|<=|>|<)?` and what stands behind it. -/
def takeOperator (cs : List Char) : List Char × List Char :=
  match ([['^'], ['~', '='], ['=', '='], ['>', '='], ['<', '='], ['>'], ['<']]).find? (·.isPrefixOf cs) with
  | some operator => (operator, cs.drop operator.length)
  | none => ([], cs)

/-- The first version that `^` and `~=` exclude. -/
def upperBound (operator : List Char) (numbers : List Nat) : List Nat :=
  let expected := padded numbers
  if operator = ['^'] then
    match expected with
    | [major, minor, patch] =>
        if major ≠ 0 then [major + 1, 0, 0] else if minor ≠ 0 then [major, minor + 1, 0] else [major, minor, patch + 1]
    | _ => []
  else if numbers.length ≤ 2 then [expected.getD 0 0 + 1, 0, 0]
  else [expected.getD 0 0, expected.getD 1 0 + 1, 0]

/-- One clause of a Python requirement. -/
def pythonClause (actual : List Nat) (clause : List Char) : Bool :=
  if clause = [] then true
  else
    let (operator, rest) := takeOperator clause
    match dotted d (Text.lstrip rest) with
    | none => false
    | some numbers =>
        let expected := padded numbers
        if operator = ['>', '='] then !decide (actual < expected)
        else if operator = ['>'] then decide (expected < actual)
        else if operator = ['<', '='] then !decide (expected < actual)
        else if operator = ['<'] then decide (actual < expected)
        else if operator = [] ∨ operator = ['=', '='] then actual.take numbers.length = expected.take numbers.length
        else !decide (actual < expected) && decide (actual < upperBound operator numbers)

/-- `python_satisfies(version, requirement)` -/
def pythonSatisfies (version requirement : List Char) : Bool :=
  match pythonVersion d (Text.strip version) with
  | none => false
  | some actual => (Text.splitOn [','] requirement).all fun clause => pythonClause d actual (Text.strip clause)

/-! ## Relations -/

/-- An alternative of a clause: its package, in lower case, and the relation to a version. -/
structure Spec where
  package : List Char
  operator : List Char
  version : List Char
deriving DecidableEq

/-- `[a-z0-9]`, of either case: four letters beyond ASCII are letters of the other case too. -/
def isAlnum (c : Char) : Bool :=
  c.isDigit || ('a' ≤ c && c ≤ 'z') || ('A' ≤ c && c ≤ 'Z') || [0x130, 0x131, 0x17f, 0x212a].contains c.toNat

def isNameChar (c : Char) : Bool := isAlnum c || c = '+' || c = '.' || c = '-'

def isArchitectureChar (c : Char) : Bool := isAlnum c || c = '-'

/-- `name.lower()` -/
def lowerName (name : List Char) : List Char :=
  name.flatMap fun c => if c.toNat = 0x130 then ['i', Char.ofNat 0x307] else [Text.lowerChar c]

/-- The five operators, in the order in which they are tried. -/
def operators : List (List Char) := [['>', '='], ['<', '='], ['='], ['<', '<'], ['>', '>']]

/-- What stands behind `(`: the operator and the version, up to the `)` that ends the text. -/
def readRelation (cs : List Char) : Option (List Char × List Char) := do
  let operator ← operators.find? (·.isPrefixOf cs)
  let (version, rest) ← Text.cut [')'] (cs.drop operator.length)
  if rest = [] ∧ Text.strip version ≠ [] then some (operator, Text.strip version) else none

/-- What stands behind the name: an architecture, or nothing. -/
def skipArchitecture : List Char → Option (List Char)
  | ':' :: cs => if cs.takeWhile isArchitectureChar = [] then none else some (cs.dropWhile isArchitectureChar)
  | cs => some cs

/-- The alternative, when it is one. -/
def readSpec (alternative : List Char) : Option Spec := do
  let cs := Text.strip alternative
  let name := cs.takeWhile isNameChar
  if name.head?.any isAlnum then
    let rest ← skipArchitecture (cs.dropWhile isNameChar)
    match Text.lstrip rest with
    | [] => some ⟨lowerName name, [], []⟩
    | '(' :: relation => (readRelation relation).map fun (operator, version) => ⟨lowerName name, operator, version⟩
    | _ => none
  else none

structure ValidationError where
  code : String
  message : List Char
  package : List Char := []
  required : List Char := []
  actual : List Char := []
deriving DecidableEq

def invalidMetadata (message : String) : ValidationError := { code := "artifact_metadata_invalid", message := message.toList }

/-- The clauses of a `Depends` text, each with its alternatives. -/
def runtimeClauses (depends : List Char) : Except ValidationError (List (List Spec)) :=
  if Text.strip depends = [] then .ok []
  else
    (Text.splitOn [','] depends).mapM fun clause => (Text.splitOn ['|'] clause).mapM fun alternative =>
      demand (invalidMetadata "Final artifact dependency inspection is malformed") (readSpec alternative)

/-- `_runtime_dependency_specs(artifact_data)`, for the `Depends` text of the inspection, when there is one. -/
def runtimeDependencySpecs (depends : Option (List Char)) : Except ValidationError (List Spec) := do
  let depends ← demand (invalidMetadata "Final artifact dependency inspection is missing or invalid") depends
  let clauses ← runtimeClauses depends
  pure clauses.flatten

/-! ## Checks -/

/-- The operator, in the requirement language of the interpreters. -/
def translated (operator : List Char) : List Char :=
  if operator = ['='] then ['=', '='] else if operator = ['<', '<'] then ['<'] else if operator = ['>', '>'] then ['>'] else operator

/-- `_runtime_version_requirement(spec)` -/
def runtimeVersionRequirement (spec : Spec) : List Char :=
  if (dotted d spec.version).isNone ∨ spec.operator = [] then [] else translated spec.operator ++ spec.version

/-- The interpreters that are checked. -/
inductive Runtime
  | node
  | python
deriving DecidableEq

namespace Runtime

def package : Runtime → List Char
  | node => "nodejs".toList
  | python => "python3".toList

def checkName : Runtime → String
  | node => "runtime_node"
  | python => "runtime_python"

def displayName : Runtime → String
  | node => "Node.js"
  | python => "Python"

def command : Runtime → List String
  | node => ["node", "--version"]
  | python => ["python3", "--version"]

def satisfies : Runtime → List Char → List Char → Bool
  | node => nodeSatisfies d
  | python => pythonSatisfies d

end Runtime

/-- What a command comes to. -/
structure Answer where
  accepted : Bool
  stdout : List Char
  stderr : List Char

/-- The version text of an answer. -/
def Answer.actual (answer : Answer) : List Char := Text.strip (if answer.stdout ≠ [] then answer.stdout else answer.stderr)

/-- `re.search(r"\d+\.\d+", actual)` -/
def hasNumbers (actual : List Char) : Bool :=
  actual.tails.any fun cs => ((takeNumber d cs).bind fun found => takeDotNumber d found.2).isSome

structure Check where
  name : String
  passed : Bool
  package : List Char
  required : List Char
  actual : List Char
  profile : String
  error : List Char

section
variable (specs : List Spec) (exec : List String → Answer) (profile : String)

/-- The first relation on the package of an interpreter. -/
def firstSpec (runtime : Runtime) : Option Spec := specs.find? fun spec => spec.package = runtime.package

def compatible (runtime : Runtime) (spec : Spec) : Bool :=
  let answer := exec runtime.command
  let requirement := runtimeVersionRequirement d spec
  answer.accepted && hasNumbers d answer.actual && (requirement = [] || runtime.satisfies d answer.actual requirement)

/-- The row of a check. -/
def checkRow (runtime : Runtime) (spec : Spec) : Check :=
  let answer := exec runtime.command
  let requirement := runtimeVersionRequirement d spec
  let passed := compatible d exec runtime spec
  { name := runtime.checkName
    passed := passed
    package := runtime.package
    required := if requirement ≠ [] then requirement else "declared runtime package".toList
    actual := answer.actual
    profile := profile
    error :=
      if passed then []
      else if answer.stderr ≠ [] then answer.stderr
      else runtime.displayName.toList ++ " is missing or incompatible".toList }

def incompatible (runtime : Runtime) (spec : Spec) : ValidationError :=
  let actual := (exec runtime.command).actual
  let requirement := runtimeVersionRequirement d spec
  let expected := if requirement ≠ [] then requirement else "the declared ".toList ++ runtime.package ++ " runtime".toList
  { code := "validation_runtime_incompatible"
    message := runtime.displayName.toList ++ [' '] ++ (if actual ≠ [] then actual else "missing".toList) ++
      " does not satisfy ".toList ++ expected
    package := runtime.package
    required := requirement
    actual := actual }

/-- The loop over the interpreters, with the checks so far. -/
def checkRuntimes (checks : List Check) : List Runtime → List Check × Except ValidationError Unit
  | [] => (checks, .ok ())
  | runtime :: runtimes =>
      match firstSpec specs runtime with
      | none => checkRuntimes checks runtimes
      | some spec =>
          let checks := checks ++ [checkRow d exec profile runtime spec]
          if compatible d exec runtime spec then checkRuntimes checks runtimes
          else (checks, .error (incompatible d exec runtime spec))

/-- `_runtime_checks(specs, backend, checks, profile)` -/
def runtimeChecks (checks : List Check) : List Check × Except ValidationError Unit :=
  checkRuntimes d specs exec profile checks [.node, .python]

end

end

end DebBuilder.Runtimes
