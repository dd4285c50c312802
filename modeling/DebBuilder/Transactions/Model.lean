import Mathlib
import DebBuilder.Lib.Dict

/-!
# The offline transactions of a validation

What a prepared contract plans for a phase, and the two checks after the phase: the boundary of the transaction,
over the inventories before and after it, and the modeled state, over the inventory after it.

## Main definitions

* `Prepared` — a contract, as its normalization accepts it.
* `expectedPhaseState`, `verifyModeledState` — the rows that are expected after a phase.
* `verifyTransactionBoundary` — what a phase may change.
-/

namespace DebBuilder.Transactions
open Lib

inductive Phase
  | previous
  | current
deriving DecidableEq

/-- The name and the architecture of an installed package. -/
abbrev Key := String × String

structure Row where
  package : String
  version : String
  architecture : String
deriving DecidableEq

def Row.key (row : Row) : Key := (row.package, row.architecture)

/-- A row of a phase. -/
structure PhaseRow extends Row where
  role : Phase
deriving DecidableEq

/-- `prepared_runtime_dependencies`, as `normalize_prepared_runtime_dependencies` returns it. -/
structure Prepared where
  nativeArchitecture : String
  currentArtifact : Row
  previousArtifact : Option Row
  basePackages : List PhaseRow
  packages : List PhaseRow
  native_ne_all : nativeArchitecture ≠ "all"
  current_architecture : currentArtifact.architecture ∈ ["all", nativeArchitecture]
  previous_identity : ∀ artifact ∈ previousArtifact,
    artifact.package = currentArtifact.package ∧ artifact.architecture = currentArtifact.architecture
  packages_once : (packages.map fun row => (row.role, row.package)).Nodup
  packages_architecture : ∀ row ∈ packages, row.architecture ∈ ["all", nativeArchitecture]
  base_once : (basePackages.map fun row => (row.role, row.package, row.architecture)).Nodup
  base_architecture : ∀ row ∈ basePackages, row.architecture ∈ ["all", nativeArchitecture]

/-- The rows of a phase. -/
def rowsOf (phase : Phase) (rows : List PhaseRow) : List Row := (rows.filter fun row => row.role = phase).map PhaseRow.toRow

namespace Prepared
variable (prepared : Prepared)

def artifact : Phase → Option Row
  | .previous => prepared.previousArtifact
  | .current => some prepared.currentArtifact

/-- The packages that a phase installs, and its artifact behind them. -/
def planned (phase : Phase) : List Row := rowsOf phase prepared.packages ++ (prepared.artifact phase).toList

/-- The packages of the previous phase that the current one does not name. -/
def carried : Phase → List Row
  | .previous => []
  | .current =>
      let currentNames := (rowsOf .current prepared.packages).map Row.package
      (rowsOf .previous prepared.packages).filter fun row => row.package ∉ currentNames

/-- The rows of a phase, of which the last one of a key counts. -/
def phaseRows (phase : Phase) : List Row :=
  rowsOf phase prepared.basePackages ++ prepared.carried phase ++ prepared.planned phase

/-- `_expected_phase_state(prepared, role)` -/
def expectedPhaseState (phase : Phase) : List Row :=
  (Dict.items ((prepared.phaseRows phase).foldl (fun rows row => Dict.set rows row.key row) ∅)).map Prod.snd

/-- What a phase may change. -/
def allowed (phase : Phase) : List Key := (prepared.planned phase).map Row.key

end Prepared

/-! ## Inventories -/

/-- The installed packages, as `_installed_inventory` reads them. -/
abbrev Inventory := Dict Key String

/-- The lines of `dpkg-query --show` for a name. -/
def dpkgQuery (inventory : Inventory) (package : String) : List Row :=
  ((Dict.items inventory).filter fun item => item.1.1 = package).map fun item => ⟨item.1.1, item.2, item.1.2⟩

/-- The fields of the answer: those of its line, when it has exactly one. -/
def actualRow (inventory : Inventory) (package : String) : Option Row :=
  match dpkgQuery inventory package with
  | [row] => some row
  | _ => none

structure ValidationError where
  code : String
  message : String
  phase : Phase
  mismatches : List (Row × Option Row) := []

/-- `_verify_modeled_state(backend, prepared, role, checks)`, in an environment with these packages. -/
def verifyModeledState (inventory : Inventory) (prepared : Prepared) (phase : Phase) : Except ValidationError Unit :=
  let mismatches := ((prepared.expectedPhaseState phase).map fun row => (row, actualRow inventory row.package)).filter
    fun found => found.2 ≠ some found.1
  if mismatches = [] then .ok ()
  else .error {
    code := "modeled_state_drift"
    message := "Installed package state differs from the prepared APT model"
    phase := phase
    mismatches := mismatches.take 20 }

/-- The keys at which two inventories differ. -/
def changedKeys (before after : Inventory) : List Key :=
  (before.keys ++ after.keys).filter fun key => before.lookup key ≠ after.lookup key

/-- Membership in a list of keys is decided with this instance. -/
local instance lawfulBEqKey : LawfulBEq (Key) := inferInstance

/-- `_verify_transaction_boundary(before, after, allowed, phase, checks)` -/
def verifyTransactionBoundary (before after : Inventory) (allowed : List Key) (phase : Phase) : Except ValidationError Unit :=
  let unexpected := (changedKeys before after).filter fun key => key ∉ allowed
  let removed := before.keys.filter fun key => key ∉ after.keys
  if unexpected = [] ∧ removed = [] then .ok ()
  else .error {
    code := "modeled_state_drift"
    message := "Offline APT changed package state outside the prepared transaction"
    phase := phase }

/-- The checks behind a phase: both pass. -/
def verifyPhase (prepared : Prepared) (phase : Phase) (before after : Inventory) : Except ValidationError Unit := do
  verifyTransactionBoundary before after (prepared.allowed phase) phase
  verifyModeledState after prepared phase

end DebBuilder.Transactions
