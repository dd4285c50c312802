import Mathlib
import DebBuilder.Lib.Fallible
import DebBuilder.Lib.Path

/-!
# Names of command units

A command runs in a transient service whose name is derived from its Run and its command
id. The digest of a Run id is a parameter.

## Main definitions

* `commandUnitName`, `commandUnitComponents` — a unit name and its parts.
* `expectedControlGroup`, `unitDescription` — what systemd shows of such a unit.
* `Fault` — the exceptions of the containment code.
-/

namespace DebBuilder.Containment
open Lib

/-- The exceptions that the containment code tells apart. -/
inductive Fault
  | containment (message : String)
  | commandIdentity (message : String)
  | os (message : String)
  | key (message : String)
  | type (message : String)
  | value (message : String)
  /-- Any other exception. -/
  | other (message : String)
  deriving DecidableEq, Repr

namespace Fault

/-- `str(exc)` -/
def text : Fault → String
  | containment message | commandIdentity message | os message | key message | type message
  | value message | other message => message

/-- `except (ContainmentError, CommandIdentityError, OSError, KeyError, TypeError, ValueError)` -/
def foreseen : Fault → Bool
  | other _ => false
  | _ => true

end Fault

/-- `UNIT_PREFIX` -/
def unitPrefix : String := "debbuilder-command-"

/-- A character of `[0-9a-f]`. -/
def lowerHex (c : Char) : Bool := ('0' ≤ c && c ≤ '9') || ('a' ≤ c && c ≤ 'f')

/-- `re.fullmatch(r"[0-9a-f]{n}", text)` -/
def isLowerHex (n : Nat) (text : List Char) : Bool := text.length == n && text.all lowerHex

section
variable (sha256 : String → String)

/-- `hashlib.sha256(run_id.encode("utf-8")).hexdigest()[:16]` -/
def commandRunDigest (runId : String) : Except Fault String := do
  refuse (runId = "") (.containment "Run ID is unavailable for systemd containment")
  return ((sha256 runId).take 16).toString

def commandUnitName (runId commandId : String) : Except Fault String := do
  refuse (runId = "") (.containment "Run ID is unavailable for systemd containment")
  refuse (isLowerHex 32 commandId.toList = false)
    (.containment "command ID is invalid for systemd containment")
  let runDigest ← commandRunDigest sha256 runId
  return unitPrefix ++ runDigest ++ "-" ++ commandId ++ ".service"

def unitDescription (runId commandId : String) : Except Fault String := do
  let digest ← commandRunDigest sha256 runId
  return "DebBuilder command " ++ digest ++ "/" ++ commandId

end

/-- The two groups of `UNIT_NAME_PATTERN`, when the whole name matches. -/
def commandUnitComponents (unitName : String) : Except Fault (String × String) := do
  let text := unitName.toList.drop unitPrefix.length
  let runDigest := text.take 16
  let commandId := (text.drop 17).take 32
  refuse (unitName.toList ≠ unitPrefix.toList ++ runDigest ++ '-' :: commandId ++ ".service".toList ∨
      isLowerHex 16 runDigest = false ∨ isLowerHex 32 commandId = false)
    (.containment "transient unit name is invalid")
  return (String.ofList runDigest, String.ofList commandId)

def expectedControlGroup (unitName : String) : Except Fault String := do
  let _ ← commandUnitComponents unitName
  return "/system.slice/" ++ unitName

end DebBuilder.Containment
