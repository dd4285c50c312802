import Mathlib
import DebBuilder.Run.Errors

/-!
# The automation ledger

`AutomationLedger` keeps one entry for each attempt key, and in it one row for each
generation of the attempt.  `_validate` runs over the whole document when the ledger is
read and again before it is written, so the file only ever holds a valid document: here
a `Ledger` carries that fact.

An operation on a row answers at once, or gives the row to write; `Ledger.save` then
accepts or rejects the document.  A document is a list of entries in the order of their
keys, the order in which the file stores them.

## Main definitions

* `Row`, `Entry` — one generation, and one attempt with its generations.
* `validateGeneration`, `Config.validate` — the validator.
* `Ledger` — a valid document, and `Ledger.save`.
* `Request`, `Request.answer` — what the orchestrator may ask for a row.
* `claimEntry`, `explicitRetry` — the two operations that add a generation.
-/

namespace DebBuilder.Automation

/-- `AutomationLedgerError`. -/
structure LedgerError where
  code : String
  message : String
  path : String := "$"
  deriving DecidableEq, Repr

/-! ## Rows -/

/-- `STATES`. -/
inductive RowState where
  | claimed
  | runPreallocated
  | admitted
  | terminal
  | retryDelayed
  | blocked
  deriving DecidableEq, Repr

/-- `TERMINAL_CLASSIFICATIONS`. -/
inductive Classification where
  | success
  | terminalFailure
  | transientRetryable
  | blockedManual
  | cancelled
  | disabled
  deriving DecidableEq, Repr

/-- `RETRY_CLASSES`. -/
inductive RetryClass where
  | none
  | transient
  | operator
  deriving DecidableEq, Repr

/-- `STAGES`. -/
inductive Stage where
  | detection
  | runAdmission
  | run
  | validationAdmission
  | validation
  | publication
  | terminal
  deriving DecidableEq, Repr

/-- One generation of an attempt. -/
structure Row where
  generation : Nat
  state : RowState
  desiredPolicy : Policy
  detectedAt : Time
  createdAt : Time
  updatedAt : Time
  preallocatedRunId : Option RunId
  runId : Option RunId
  terminalClassification : Option Classification
  retryClass : RetryClass
  retryCount : Nat
  notBefore : Option Time
  lastErrorCode : Option String
  diagnostic : Option String
  stage : Stage
  validationAttemptId : Option String
  publicationAttemptId : Option String
  completionNotified : Bool
  runRetryCount : Nat
  validationRetryCount : Nat
  publicationRetryCount : Nat
  deriving DecidableEq, Repr

/-- `row["state"] in {"terminal", "blocked"}` -/
def RowState.stopped : RowState → Bool
  | .terminal | .blocked => true
  | .claimed | .runPreallocated | .admitted | .retryDelayed => false

/-- A generation that the orchestrator still advances. -/
def Row.live (row : Row) : Bool := !row.state.stopped

/-- `_generation`. -/
def newGeneration (policy : Policy) (detectedAt : Time) (generation : Nat) (now : Time) : Row :=
  { generation, state := .claimed, desiredPolicy := policy, detectedAt, createdAt := now
    updatedAt := now, preallocatedRunId := none, runId := none, terminalClassification := none
    retryClass := .none, retryCount := 0, notBefore := none, lastErrorCode := none
    diagnostic := none, stage := .detection, validationAttemptId := none
    publicationAttemptId := none, completionNotified := false, runRetryCount := 0
    validationRetryCount := 0, publicationRetryCount := 0 }

/-! ## The checks of the validator -/

def maxRetryCount : Nat := 1000
def maxGenerations : Nat := 8
def maxRecipes : Nat := 256
def maxLedgerBytes : Nat := 16 * 1024 * 1024

def isLower (c : Char) : Bool := 'a' ≤ c && c ≤ 'z'
def isUpper (c : Char) : Bool := 'A' ≤ c && c ≤ 'Z'
def isDigit (c : Char) : Bool := '0' ≤ c && c ≤ '9'

/-- `_optional_text` of a value that is there. -/
def isText (maximum : Nat) (s : String) : Bool :=
  s ≠ "" && s.length ≤ maximum && s.toList.all fun c => 32 ≤ c.toNat

/-- `[A-Za-z0-9_.+-]` -/
def isIdChar (c : Char) : Bool := isLower c || isUpper c || isDigit c || c ∈ ['_', '.', '+', '-']

/-- `[A-Za-z0-9_.:+-]` -/
def isAttemptIdChar (c : Char) : Bool := isIdChar c || c = ':'

/-- `[a-z0-9_.-]` -/
def isCodeChar (c : Char) : Bool := isLower c || isDigit c || c ∈ ['_', '.', '-']

/-- `[0-9a-f]` -/
def isHexChar (c : Char) : Bool := isDigit c || 'a' ≤ c && c ≤ 'f'

/-- A check of an optional text: absent, or as `ok` wants it. -/
def optional (ok : String → Bool) (value : Option String) : Bool := value.all ok

/-- `if not holds: raise error` -/
def require (holds : Bool) (error : LedgerError) : Except LedgerError Unit :=
  if holds then .ok () else .error error

/-- `AutomationLedgerError("automation_ledger_invalid", …)` -/
def invalid (message path : String) : LedgerError := ⟨"automation_ledger_invalid", message, path⟩

/-- `_validate_generation`. -/
def validateGeneration (expected : Nat) (row : Row) : Except LedgerError Unit := do
  let path := "$.generations[" ++ toString expected ++ "]"
  let bounded (field : String) := invalid (path ++ field ++ " is invalid or unbounded") (path ++ field)
  let owned := row.state = .runPreallocated ∨ row.state = .admitted
  let active := owned ∨ row.state = .claimed
  require (row.generation = expected)
    (invalid "Automation generations must be contiguous" (path ++ ".generation"))
  require (row.desiredPolicy ≠ .manual)
    (invalid "Automation generation contains an unsupported enum" path)
  require (row.retryCount ≤ maxRetryCount)
    (invalid "retry_count is invalid" (path ++ ".retry_count"))
  require (row.runRetryCount ≤ maxRetryCount)
    (invalid "run_retry_count is invalid" (path ++ ".run_retry_count"))
  require (row.validationRetryCount ≤ maxRetryCount)
    (invalid "validation_retry_count is invalid" (path ++ ".validation_retry_count"))
  require (row.publicationRetryCount ≤ maxRetryCount)
    (invalid "publication_retry_count is invalid" (path ++ ".publication_retry_count"))
  require (optional (isText 128) row.runId) (bounded ".run_id")
  require (optional (isText 128) row.preallocatedRunId) (bounded ".preallocated_run_id")
  require (optional (isText 128) row.validationAttemptId) (bounded ".validation_attempt_id")
  require (optional (isText 128) row.publicationAttemptId) (bounded ".publication_attempt_id")
  require (optional (·.toList.all isIdChar) row.runId)
    (invalid "run_id is unsafe" (path ++ ".run_id"))
  require (optional (·.toList.all isIdChar) row.preallocatedRunId)
    (invalid "preallocated_run_id is unsafe" (path ++ ".preallocated_run_id"))
  require (row.runId = none ∨ row.runId = row.preallocatedRunId)
    (invalid "Linked Run must match the preallocated Run ID" (path ++ ".run_id"))
  require (owned → row.preallocatedRunId ≠ none)
    (invalid "State requires a preallocated Run ID" path)
  require (row.desiredPolicy = .detect →
      row.preallocatedRunId = none ∧ row.runId = none ∧ ¬ owned)
    (invalid "Detect-only policy cannot own a Run" path)
  require (row.state = .admitted → row.runId ≠ none)
    (invalid "Admitted state requires a linked Run" path)
  require (¬ active → row.terminalClassification ≠ none)
    (invalid "Terminal state requires a classification" path)
  require (row.state = .retryDelayed → row.terminalClassification = some .transientRetryable)
    (invalid "retry_delayed requires transient classification" path)
  require (row.state = .blocked → row.terminalClassification = some .blockedManual)
    (invalid "blocked requires manual-action classification" path)
  require (row.state = .blocked → row.retryClass = .operator)
    (invalid "blocked state requires operator retry classification" path)
  require (row.state = .terminal → row.terminalClassification ≠ some .transientRetryable ∧
      row.terminalClassification ≠ some .blockedManual)
    (invalid "Terminal state/classification mismatch" path)
  require (row.state = .terminal → row.retryClass = .none)
    (invalid "Terminal state cannot carry retry eligibility" path)
  require (active → row.terminalClassification = none)
    (invalid "Active state cannot be terminally classified" path)
  require (active → row.retryClass = .none)
    (invalid "Active state cannot carry retry eligibility" path)
  require (row.state = .retryDelayed → row.retryClass = .transient ∧ row.notBefore ≠ none)
    (invalid "Retry-delayed state requires transient retry metadata" path)
  require (row.state ≠ .retryDelayed → row.notBefore = none)
    (invalid "Only retry-delayed state can carry not_before" path)
  require (row.state.stopped = true → row.stage = .terminal)
    (invalid "Stopped automation must use the terminal stage" path)
  require (row.state.stopped = false → row.stage ≠ .terminal)
    (invalid "Active automation cannot use the terminal stage" path)
  require (optional (·.toList.all isAttemptIdChar) row.validationAttemptId)
    (invalid "validation_attempt_id is unsafe" (path ++ ".validation_attempt_id"))
  require (optional (·.toList.all isAttemptIdChar) row.publicationAttemptId)
    (invalid "publication_attempt_id is unsafe" (path ++ ".publication_attempt_id"))
  require (row.publicationAttemptId ≠ none → row.validationAttemptId ≠ none)
    (invalid "Publication linkage requires Validation linkage" path)
  require (row.stage = .detection → row.preallocatedRunId = none ∧ row.runId = none ∧
      row.validationAttemptId = none ∧ row.publicationAttemptId = none)
    (invalid "Detection stage cannot carry lifecycle links" path)
  require (row.stage = .runAdmission → row.preallocatedRunId ≠ none ∧ row.runId = none ∧
      row.validationAttemptId = none ∧ row.publicationAttemptId = none)
    (invalid "Run admission has inconsistent lifecycle links" path)
  require (row.stage = .run → row.runId ≠ none ∧
      row.validationAttemptId = none ∧ row.publicationAttemptId = none)
    (invalid "Run stage has inconsistent lifecycle links" path)
  require (row.stage = .validationAdmission → row.runId ≠ none ∧ row.publicationAttemptId = none)
    (invalid "Validation admission has inconsistent lifecycle links" path)
  require (row.stage = .validation → row.runId ≠ none ∧ row.validationAttemptId ≠ none ∧
      row.publicationAttemptId = none)
    (invalid "Validation stage requires its canonical links" path)
  require (row.stage = .publication → row.runId ≠ none ∧ row.validationAttemptId ≠ none)
    (invalid "Publication stage requires Run and Validation links" path)
  require (row.completionNotified = true → row.state.stopped = true)
    (invalid "Only stopped automation can be notified" path)
  require (optional (isText 80) row.lastErrorCode) (bounded ".last_error_code")
  require (optional (·.toList.all isCodeChar) row.lastErrorCode)
    (invalid "last_error_code must be a stable code" (path ++ ".last_error_code"))
  require (optional (isText 80) row.diagnostic)
    (invalid "$.diagnostic is invalid or unbounded" "$.diagnostic")
  require (optional (·.toList.all isCodeChar) row.diagnostic)
    (invalid "diagnostic must be a stable non-sensitive code" "$.diagnostic")

/-! ## Documents -/

/-- The immutable part of an entry. -/
structure Attempt where
  key : AttemptKey
  recipeId : RecipeId
  recipeSha256 : String
  upstreamIdentity : Identity
  deriving DecidableEq, Repr

/-- One attempt and its generations, oldest first. -/
structure Entry extends Attempt where
  generations : List Row
  deriving DecidableEq, Repr

/-- What the ledger takes from outside: the digest that names an attempt, the length of
the JSON text of a document, and the two bounds it was opened with. -/
structure Config where
  attemptKey : RecipeId → Identity → String → AttemptKey
  encodedBytes : List Entry → Nat
  attemptsBound : Nat := 2048
  attemptsPerRecipeBound : Nat := 128

namespace Config

def maxAttempts (cfg : Config) : Nat := min (max 1 cfg.attemptsBound) 2048
def maxAttemptsPerRecipe (cfg : Config) : Nat := min (max 1 cfg.attemptsPerRecipeBound) 128

/-- `automation-v1-[0-9a-f]{64}` -/
def isAttemptKey (s : String) : Bool :=
  s.toList.take 14 = "automation-v1-".toList && (s.toList.drop 14).length = 64 &&
    (s.toList.drop 14).all isHexChar

/-- The rows of an entry, each at its index. -/
def validateRows : Nat → List Row → Except LedgerError Unit
  | _, [] => .ok ()
  | n, row :: rows => do
      validateGeneration n row
      validateRows (n + 1) rows

variable (cfg : Config)

/-- One entry, after entries of the Recipes `seen`. -/
def validateEntry (seen : List RecipeId) (entry : Entry) : Except LedgerError Unit := do
  let path := "$.attempts." ++ entry.key
  require (isAttemptKey entry.key) (invalid "Automation attempt key is invalid" path)
  require (isText 128 entry.recipeId && entry.recipeId.toList.all isIdChar)
    (invalid "Recipe ID is invalid" (path ++ ".recipe_id"))
  require (entry.recipeSha256.length = 64 && entry.recipeSha256.toList.all isHexChar)
    (invalid "Recipe SHA-256 is invalid" (path ++ ".recipe_sha256"))
  require (entry.upstreamIdentity.complete &&
      cfg.attemptKey entry.recipeId entry.upstreamIdentity entry.recipeSha256 = entry.key)
    (invalid "Attempt key does not match its exact inputs" path)
  require (1 ≤ entry.generations.length ∧ entry.generations.length ≤ maxGenerations)
    ⟨"automation_ledger_bounds_exceeded", "Automation generation inventory exceeds its bound",
      path ++ ".generations"⟩
  require (seen.count entry.recipeId + 1 ≤ cfg.maxAttemptsPerRecipe)
    ⟨"automation_ledger_bounds_exceeded", "Recipe attempt inventory exceeds its bound", "$.attempts"⟩
  validateRows 0 entry.generations

def validateEntries : List RecipeId → List Entry → Except LedgerError (List RecipeId)
  | seen, [] => .ok seen
  | seen, entry :: entries => do
      cfg.validateEntry seen entry
      validateEntries (entry.recipeId :: seen) entries

/-- `_validate`. -/
def validate (attempts : List Entry) : Except LedgerError Unit := do
  require (attempts.length ≤ cfg.maxAttempts)
    ⟨"automation_ledger_bounds_exceeded", "Automation attempt inventory exceeds its bound",
      "$.attempts"⟩
  let seen ← cfg.validateEntries [] attempts
  require (seen.dedup.length ≤ maxRecipes)
    ⟨"automation_ledger_bounds_exceeded", "Recipe inventory exceeds its bound", "$.attempts"⟩

end Config

/-- The document that the file holds. -/
structure Ledger (cfg : Config) where
  attempts : List Entry
  valid : cfg.validate attempts = .ok ()

/-- `_empty_document`. -/
def Ledger.empty (cfg : Config) : Ledger cfg := ⟨[], by simp [Config.validate, Config.validateEntries,
  require, bind, Except.bind]⟩

/-- `_save_unlocked`, up to the replacement of the file. -/
def Ledger.save (cfg : Config) (attempts : List Entry) : Except LedgerError (Ledger cfg) :=
  match h : cfg.validate attempts with
  | .error e => .error e
  | .ok () =>
      if cfg.encodedBytes attempts ≤ maxLedgerBytes then .ok ⟨attempts, h⟩
      else .error ⟨"automation_ledger_bounds_exceeded",
        "Automation ledger serialization exceeds its byte bound", "$"⟩

/-- `document["attempts"].get(key)` -/
def findEntry (attempts : List Entry) (key : AttemptKey) : Option Entry :=
  attempts.find? (·.key = key)

/-- A generation of the ledger, by its attempt key and its number. -/
abbrev Slot := AttemptKey × Nat

/-- `_row`, with the attempt that the row belongs to. -/
def findRow (attempts : List Entry) (slot : Slot) : Option (Attempt × Row) :=
  (findEntry attempts slot.1).bind fun entry =>
    entry.generations[slot.2]?.map fun row => (entry.toAttempt, row)

/-- The document in which an entry has the generations `change` gives. -/
def updateEntry (attempts : List Entry) (key : AttemptKey) (change : List Row → List Row) :
    List Entry :=
  attempts.map fun entry =>
    if entry.key = key then { entry with generations := change entry.generations } else entry

/-- The document in which a row is replaced. -/
def putRow (attempts : List Entry) (slot : Slot) (row : Row) : List Entry :=
  updateEntry attempts slot.1 fun rows => rows.set slot.2 row

/-! ## Requests for a row -/

/-- What an operation on a row does: it answers with the row as it is, or has a row
written and answers with that. -/
inductive Answer where
  | keep (row : Row)
  | write (row : Row)
  deriving DecidableEq, Repr

/-- `row.update` of `finish`, which also files the count under the stage that is left. -/
def Row.finish (row : Row) (classification : Classification) (retryClass : RetryClass)
    (retryCount : Nat) (notBefore : Option Time) (lastErrorCode diagnostic : Option String)
    (now : Time) : Row :=
  let state := match classification with
    | .transientRetryable => RowState.retryDelayed
    | .blockedManual => .blocked
    | .success | .terminalFailure | .cancelled | .disabled => .terminal
  let finished :=
    { row with
      state
      stage := if state.stopped then .terminal else row.stage
      terminalClassification := some classification
      retryClass, retryCount, notBefore, lastErrorCode, diagnostic, updatedAt := now }
  if classification = .transientRetryable then
    match row.stage with
    | .runAdmission => { finished with runRetryCount := retryCount }
    | .validationAdmission | .validation => { finished with validationRetryCount := retryCount }
    | .publication => { finished with publicationRetryCount := retryCount }
    | .detection | .run | .terminal => finished
  else finished

/-- `row.update` of `link_run`. -/
def Row.link (row : Row) (run : RunId) (now : Time) : Row :=
  { row with
    runId := some run, state := .admitted, stage := .run, terminalClassification := none
    retryClass := .none, notBefore := none, lastErrorCode := none, diagnostic := none
    updatedAt := now }

/-- `row.update` of `advance_lifecycle`. -/
def Row.advance (row : Row) (stage : Stage) (validationAttemptId publicationAttemptId : Option String)
    (now : Time) : Row :=
  { row with
    validationAttemptId := validationAttemptId.or row.validationAttemptId
    publicationAttemptId := publicationAttemptId.or row.publicationAttemptId
    state := .admitted, stage, terminalClassification := none, retryClass := .none
    notBefore := none, lastErrorCode := none, diagnostic := none, updatedAt := now }

/-- The binding that `_verify_run_binding` checks. -/
def bound (attempt : Attempt) (row : Row) (run : Run) : Bool :=
  some run.id = row.preallocatedRunId && run.recipeId = attempt.recipeId &&
    run.recipeSha256 = attempt.recipeSha256 &&
    run.automation = some ⟨attempt.key, row.generation, row.desiredPolicy, attempt.upstreamIdentity⟩

/-- `_verify_run_binding`. -/
def verifyRunBinding (attempt : Attempt) (row : Row) : Option Run → Except LedgerError Unit
  | none => .error ⟨"automation_run_not_found", "Preallocated Run does not exist", "$"⟩
  | some run => require (bound attempt row run)
      ⟨"automation_run_binding_invalid", "Run does not match its durable automation claim", "$"⟩

/-- A call of the ledger for one row. -/
inductive Request where
  | preallocateRun (candidate : RunId)
  | linkRun (run : RunId)
  | finish (classification : Classification) (retryClass : RetryClass) (retryCount : Nat)
      (notBefore : Option Time) (lastErrorCode diagnostic : Option String)
  | advanceLifecycle (stage : Stage) (validationAttemptId publicationAttemptId : Option String)
  | markCompletionNotified
  deriving DecidableEq, Repr

/-- `preallocate_run`, `link_run`, `finish`, `advance_lifecycle` and
`mark_completion_notified`, up to the write.  `load` is what `link_run` reads of the Run,
`none` when that read raises. -/
def Request.answer (now : Time) (load : RunId → Option (Option Run)) (attempt : Attempt)
    (row : Row) : Request → Except LedgerError Answer
  | .preallocateRun candidate =>
      if row.preallocatedRunId ≠ none then .ok (.keep row)
      else if row.state ≠ .claimed then .error ⟨"automation_state_conflict",
        "Generation cannot preallocate a Run from its current state", "$"⟩
      else if row.desiredPolicy = .detect then .error ⟨"automation_policy_ineligible",
        "Detect-only policy cannot preallocate a Run", "$"⟩
      else .ok (.write { row with
        preallocatedRunId := some candidate, state := .runPreallocated, stage := .runAdmission
        updatedAt := now })
  | .linkRun run =>
      if row.runId ≠ none then
        if row.runId ≠ some run then .error ⟨"automation_run_mismatch",
          "Generation is already linked to another Run", "$"⟩
        else .ok (.keep row)
      else if row.preallocatedRunId ≠ some run then .error ⟨"automation_run_mismatch",
        "Run does not match the durable preallocation", "$"⟩
      else match load run with
        | none => .error ⟨"automation_run_binding_invalid",
            "Preallocated Run cannot be verified", "$"⟩
        | some doc => (verifyRunBinding attempt row doc).map fun _ => .write (row.link run now)
  | .finish classification retryClass retryCount notBefore lastErrorCode diagnostic =>
      .ok (.write (row.finish classification retryClass retryCount notBefore lastErrorCode
        diagnostic now))
  | .advanceLifecycle stage validationAttemptId publicationAttemptId =>
      if stage = .detection ∨ stage = .terminal then .error ⟨"automation_stage_invalid",
        "Unsupported active automation stage", "$"⟩
      else if row.state.stopped then .ok (.keep row)
      else if row.runId = none then .error ⟨"automation_run_not_linked",
        "Lifecycle cannot advance before Run linkage", "$"⟩
      else if validationAttemptId ≠ none ∧ row.validationAttemptId ≠ none ∧
          row.validationAttemptId ≠ validationAttemptId ∧
          stage ≠ .validationAdmission ∧ stage ≠ .validation then
        .error ⟨"automation_validation_mismatch",
          "Validation linkage cannot change at this stage", "$"⟩
      else .ok (.write (row.advance stage validationAttemptId publicationAttemptId now))
  | .markCompletionNotified =>
      if !row.state.stopped then .error ⟨"automation_not_terminal",
        "Automation completion is not terminal", "$"⟩
      else if row.completionNotified then .ok (.keep row)
      else .ok (.write { row with completionNotified := true, updatedAt := now })

/-! ## New generations -/

/-- What is read of a Recipe, with its digest `canonical_recipe_sha256`. -/
structure Recipe where
  name : RecipeId
  active : Bool
  enabled : Bool
  policy : Policy
  sha256 : String
  deriving DecidableEq, Repr

/-- `ClaimResult`; `document` is what is to be written. -/
structure ClaimResult where
  created : Bool
  generation : Nat
  document : List Entry
  deriving DecidableEq, Repr

/-- Insertion into a document, in the order of the keys. -/
def insertEntry (entry : Entry) : List Entry → List Entry
  | [] => [entry]
  | e :: es => if entry.key < e.key then entry :: e :: es else e :: insertEntry entry es

/-- The checks of `automation_attempt_key`, which raises an `UpstreamIdentityError`. -/
def checkAttemptInputs (recipeId : RecipeId) (identity : Identity) (sha256 : String) :
    Except LedgerError Unit := do
  require (isText 128 recipeId && recipeId.toList.all isIdChar)
    ⟨"invalid_attempt_recipe", "Recipe ID is invalid", "$"⟩
  require (sha256.length = 64 && sha256.toLower.toList.all isHexChar)
    ⟨"invalid_attempt_recipe_sha256", "Recipe SHA-256 is invalid", "$"⟩
  require identity.complete
    ⟨"incomplete_upstream_identity",
      "A partial upstream identity cannot form a durable automation claim", "$.upstream_identity"⟩

/-- `claim_current_recipe` under its two leases: `recipe` is the live Recipe. -/
def claimEntry (cfg : Config) (attempts : List Entry) (recipe : Option Recipe) (recipeId : RecipeId)
    (identity : Identity) (recipeSha256 : String) (policy : Policy) (detectedAt : Time)
    (baselineOnFirst : Bool) (now : Time) : Except LedgerError ClaimResult := do
  require (policy ≠ .manual)
    ⟨"automation_policy_ineligible", "Automation policy cannot be guarded and claimed", "$"⟩
  checkAttemptInputs recipeId identity recipeSha256
  let sha256 := recipeSha256.toLower
  let key := cfg.attemptKey recipeId identity sha256
  let detectOnly := policy = .detect
  let current ← recipe.elim (.error ⟨"recipe_changed_during_detection",
    "Recipe became unavailable during upstream detection", "$"⟩) .ok
  require (current.name = recipeId && current.sha256 = sha256 && current.active &&
      current.enabled && current.policy = policy)
    ⟨"recipe_changed_during_detection",
      "Recipe changed or became ineligible during upstream detection", "$"⟩
  match findEntry attempts key with
  | some existing =>
      match existing.generations.getLast? with
      | none => .error (invalid "Automation attempt has an invalid shape" ("$.attempts." ++ key))
      | some latest => do
          require (latest.desiredPolicy = policy)
            ⟨"automation_policy_mismatch", "Claim policy does not match its Recipe revision", "$"⟩
          .ok ⟨false, latest.generation, attempts⟩
  | none => do
      require (attempts.length < cfg.maxAttempts)
        ⟨"automation_ledger_bounds_exceeded", "Automation ledger is full", "$"⟩
      require (attempts.countP (·.recipeId = recipeId) < cfg.maxAttemptsPerRecipe)
        ⟨"automation_ledger_bounds_exceeded", "Recipe automation history is full", "$"⟩
      let baseline := baselineOnFirst && attempts.all fun e =>
        e.recipeId ≠ recipeId || e.recipeSha256 ≠ sha256
      let first := newGeneration policy detectedAt 0 now
      let first := if detectOnly || baseline then
        { first with
          state := .terminal, terminalClassification := some .success
          diagnostic := some (if baseline then "initial_baseline" else "detect_only_handled")
          stage := .terminal }
        else first
      .ok ⟨true, 0, insertEntry ⟨⟨key, recipeId, sha256, identity⟩, [first]⟩ attempts⟩

/-- `generations[0]["detected_at"]` -/
def Entry.detectedAt (entry : Entry) : Time := (entry.generations.head?.map (·.detectedAt)).getD 0

/-- `generations[0]["created_at"]` -/
def Entry.createdAt (entry : Entry) : Time := (entry.generations.head?.map (·.createdAt)).getD 0

/-- The order in which `explicit_retry_current_recipe` and the status page look for the
newest attempt of a Recipe. -/
def Entry.before (a b : Entry) : Bool :=
  a.detectedAt < b.detectedAt || a.detectedAt = b.detectedAt &&
    (a.createdAt < b.createdAt || a.createdAt = b.createdAt && a.key < b.key)

/-- `max` of a list under an order: the first of its greatest elements. -/
def latestBy {α : Type} (before : α → α → Bool) : List α → Option α
  | [] => none
  | a :: as => some (as.foldl (fun best b => if before best b then b else best) a)

def staleRetry (message : String) : LedgerError := ⟨"automation_retry_stale", message, "$"⟩

/-- `explicit_retry_current_recipe` under its two leases. -/
def explicitRetry (attempts : List Entry) (recipe : Option Recipe) (recipeId : RecipeId)
    (key : AttemptKey) (expectedGeneration : Int) (expectedUpdatedAt : Option Time) (now : Time) :
    Except LedgerError ClaimResult := do
  match (findEntry attempts key).filter (·.recipeId = recipeId) with
  | none => .error ⟨"automation_attempt_not_found", "Automation attempt was not found", "$"⟩
  | some entry =>
  match entry.generations.getLast? with
  | none => .error ⟨"automation_attempt_not_found", "Automation attempt was not found", "$"⟩
  | some latest => do
      let newest := latestBy Entry.before (attempts.filter (·.recipeId = recipeId))
      require (newest.any (·.key = key)) (staleRetry "A newer upstream attempt is available")
      require (0 ≤ expectedGeneration) (staleRetry "Automation retry generation is stale")
      let expected := expectedGeneration.toNat
      let duplicate := latest.generation = expected + 1
      require (duplicate ∨ latest.generation = expected)
        (staleRetry "Automation retry generation is stale")
      let observed := if duplicate then entry.generations[expected]? else some latest
      require (expectedUpdatedAt.all fun expectedAt =>
          observed.any (·.updatedAt = expectedAt))
        (staleRetry "Automation retry status is stale")
      require (duplicate ∨ latest.state = .terminal ∨ latest.state = .retryDelayed ∨
          latest.state = .blocked)
        ⟨"automation_retry_not_terminal", "Only a stopped generation can be explicitly retried", "$"⟩
      require (duplicate ∨ entry.generations.length < maxGenerations)
        ⟨"automation_ledger_bounds_exceeded", "Automation retry generation limit reached", "$"⟩
      let current ← recipe.elim (.error ⟨"automation_recipe_stale",
        "Recipe is unavailable for this retry", "$"⟩) .ok
      require (current.name = recipeId) ⟨"automation_recipe_stale", "Recipe identity changed", "$"⟩
      require (current.sha256 = entry.recipeSha256 && current.active && current.enabled &&
          current.policy = latest.desiredPolicy && current.policy ≠ .manual)
        ⟨"automation_recipe_stale", "Recipe changed or is no longer eligible for this retry", "$"⟩
      if duplicate then .ok ⟨false, latest.generation, attempts⟩
      else
        let generation := entry.generations.length
        .ok ⟨true, generation, updateEntry attempts key fun rows =>
          rows ++ [newGeneration latest.desiredPolicy latest.detectedAt generation now]⟩

end DebBuilder.Automation
