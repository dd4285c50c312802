import Mathlib
import DebBuilder.Lib.Fallible
import DebBuilder.Lib.SemVer

/-!
# Version ranges of Node.js toolchains

`version_satisfies` evaluates the `engines` and `packageManager` requirements of a project:
a requirement is split into alternatives, an alternative is a hyphen range or a conjunction
of tokens, and a token is an operator before one to three parts.

## Main definitions

* `Digits` — the digits that `str.isdigit` and `int` know.
* `partialVersion`, `tokenVerdict`, `simpleRangeSatisfies`, `versionSatisfies` — the
  evaluation.
-/

namespace DebBuilder.Toolchain
open Lib SemVer

/-- The characters of Unicode that are digits; only some of them are digits of a decimal
number. -/
structure Digits where
  /-- `c.isdigit()` -/
  isDigit : Char → Bool
  /-- The value of a decimal digit. -/
  decimal : Char → Option Nat
  isDigit_of_decimal : ∀ c n, decimal c = some n → isDigit c = true
  decimal_ascii : ∀ c, c.isDigit = true → decimal c = some (c.toNat - '0'.toNat)
  isDigit_ascii : ∀ c, c.toNat < 128 → isDigit c = true → c.isDigit = true

/-- The digits of ASCII alone. -/
def asciiDigits : Digits where
  isDigit c := c.isDigit
  decimal c := if c.isDigit then some (c.toNat - '0'.toNat) else none
  isDigit_of_decimal c n h := by
    by_contra hc
    simp [hc] at h
  decimal_ascii c h := if_pos h
  isDigit_ascii _ _ h := h

/-- `ValueError`, from `int`. -/
inductive ValueError
  | invalidLiteral
  deriving DecidableEq, Repr

abbrev Fallible (α : Type) := Except ValueError α

/-! ## Versions -/

/-- The digits at the start of a text. -/
def takeNumber (cs : List Char) : Option (Nat × List Char) :=
  let digits := cs.takeWhile Char.isDigit
  if digits = [] then none else some (Nat.ofDigitChars 10 digits 0, cs.dropWhile Char.isDigit)

/-- A dot, then digits. -/
def takeDotNumber : List Char → Option (Nat × List Char)
  | '.' :: cs => takeNumber cs
  | _ => none

/-- `(?:-[0-9A-Za-z.-]+)?`, up to the end. -/
def isSuffix : List Char → Bool
  | [] => true
  | '-' :: cs => cs ≠ [] && cs.all fun c => c.isAlphanum || c = '.' || c = '-'
  | _ => false

/-- `_version` -/
def version (value : List Char) : Option Version := do
  let value := Text.strip value
  let value := if value.head?.any (· ∈ ['v', 'V']) then value.tail else value
  let (major, rest) ← takeNumber value
  let (minor, rest) ← takeDotNumber rest
  let (patch, rest) ← takeDotNumber rest
  if isSuffix rest then some ⟨major, minor, patch⟩ else none

/-! ## Requirements -/

variable (d : Digits)

/-- `int(part)`, of digits. -/
def int (part : List Char) : Fallible Nat :=
  demand .invalidLiteral ((part.mapM d.decimal).map fun values => values.foldl (fun n k => 10 * n + k) 0)

/-- Membership in a list of version parts is decided with this instance. -/
local instance lawfulBEqPart : LawfulBEq (List Char) := inferInstance

/-- The numbers before the first wildcard, and whether there is a wildcard; `none` where a
part is no number. -/
def readParts : List (List Char) → Fallible (Option (List Nat × Bool))
  | [] => .ok (some ([], false))
  | part :: parts =>
      if Text.lower part ∈ [['x'], ['*']] then .ok (some ([], true))
      else if part = [] ∨ part.all d.isDigit = false then .ok none
      else do
        let number ← int d part
        let rest ← readParts parts
        pure (rest.map fun (numbers, wildcard) => (number :: numbers, wildcard))

/-- `_partial` -/
def partialVersion (value : List Char) : Fallible (Option (List Nat × Bool)) :=
  let parts := ((Text.strip value).dropWhile (· ∈ ['v', 'V'])).splitOn '.'
  if 1 ≤ parts.length ∧ parts.length ≤ 3 then do
    let parsed ← readParts d parts
    pure (parsed.map fun (numbers, wildcard) => (numbers, wildcard || numbers.length < 3))
  else .ok none

/-- `tuple((numbers + [0, 0, 0])[:3])` -/
def padded (numbers : List Nat) : Version := ⟨numbers.getD 0 0, numbers.getD 1 0, numbers.getD 2 0⟩

/-- The first version that a shorter one no longer stands for. -/
def widened (numbers : List Nat) (lower : Version) : Version :=
  if numbers.length = 1 then ⟨lower.major + 1, 0, 0⟩ else ⟨lower.major, lower.minor + 1, 0⟩

inductive Operator
  | caret
  | tilde
  | ge
  | le
  | gt
  | lt
  | eqEq
  | eq
  deriving DecidableEq, Repr

/-- The alternatives of the token's expression, in their order. -/
def operators : List (Operator × List Char) :=
  [(.caret, ['^']), (.tilde, ['~']), (.ge, ['>', '=']), (.le, ['<', '=']), (.gt, ['>']), (.lt, ['<']),
    (.eqEq, ['=', '=']), (.eq, ['='])]

/-- `re.fullmatch(r"(\^|~|>=|<=|>|<|==|=)?(.+)", token)`: an operator is followed by
something. -/
def readOperator (token : List Char) : Option Operator × List Char :=
  match operators.find? fun operator => operator.2 <+: token && operator.2 ≠ token with
  | some (operator, text) => (some operator, token.drop text.length)
  | none => (none, token)

/-- `_compare` -/
def compare (actual expected : Version) : Operator → Bool
  | .gt => expected < actual
  | .ge => expected ≤ actual
  | .lt => actual < expected
  | .le => actual ≤ expected
  | .eq | .eqEq => actual = expected
  -- not a key of the source's table
  | .caret | .tilde => false

def between (lower upper actual : Version) : Bool := lower ≤ actual && actual < upper

/-- The test of one token, `none` where the range is not supported. -/
def satisfied (actual : Version) (operator : Option Operator) (numbers : List Nat) (isPartial : Bool) : Option Bool :=
  let lower := padded numbers
  match operator with
  | some .caret =>
      if numbers = [] then none
      else
        let upper : Version :=
          if lower.major ≠ 0 then ⟨lower.major + 1, 0, 0⟩
          else if lower.minor ≠ 0 then ⟨0, lower.minor + 1, 0⟩
          else ⟨0, 0, lower.patch + 1⟩
        some (between lower upper actual)
  | some .tilde => some (between lower (widened numbers lower) actual)
  | some operator =>
      if isPartial && operator ∈ [.eq, .eqEq] then some (between lower (widened numbers lower) actual)
      else some (compare actual lower operator)
  | none =>
      if isPartial then some (between lower (widened numbers lower) actual) else some (actual = lower)

/-- One round of the loop over the tokens. -/
def tokenVerdict (actual : Version) (token : List Char) : Fallible (Option Bool) := do
  let (operator, raw) := readOperator token
  let parsed ← partialVersion d raw
  pure (parsed.bind fun (numbers, isPartial) => satisfied actual operator numbers isPartial)

/-- The loop over the tokens: it ends at the first that is not supported or not satisfied. -/
def conjunction (actual : Version) : List (List Char) → Fallible (Option Bool)
  | [] => .ok (some true)
  | token :: tokens => do
      match ← tokenVerdict d actual token with
      | none => pure none
      | some false => pure (some false)
      | some true => conjunction actual tokens

/-- `re.fullmatch(r"([^\s]+)\s+-\s+([^\s]+)", expression)` -/
def hyphen? (expression : List Char) : Option (List Char × List Char) :=
  match Text.words expression with
  | [low, ['-'], high] => some (low, high)
  | _ => none

/-- A hyphen range. -/
def hyphenVerdict (actual : Version) (low high : List Char) : Fallible (Option Bool) := do
  let low ← partialVersion d low
  let high ← partialVersion d high
  match low, high with
  | some (lowNumbers, _), some (highNumbers, _) =>
      let lo := padded lowNumbers
      let hi := padded highNumbers
      if highNumbers.length = 3 then pure (some (lo ≤ actual && actual ≤ hi))
      else pure (some (between lo (widened highNumbers hi) actual))
  | _, _ => pure none

/-- `re.split(r"[\s,]+", expression)`, without the empty tokens. -/
def tokens (expression : List Char) : List (List Char) :=
  Text.pieces (fun c => Text.isSpace c || c = ',') expression

/-- `_simple_range_satisfies` -/
def simpleRangeSatisfies (actual : Version) (expression : List Char) : Fallible (Option Bool) :=
  let expression := Text.strip expression
  match hyphen? expression with
  | some (low, high) => hyphenVerdict d actual low high
  | none =>
      if tokens expression = [] then .ok none
      else conjunction d actual (tokens expression)

/-- `version_satisfies` -/
def versionSatisfies (value requirement : String) : Fallible (Option Bool) :=
  match version value.toList with
  | none => .ok none
  | some actual =>
      if Text.strip requirement.toList = [] then .ok none
      else do
        let results ← (Text.splitOn ['|', '|'] requirement.toList).mapM (simpleRangeSatisfies d actual)
        pure (if some true ∈ results then some true else if none ∈ results then none else some false)

end DebBuilder.Toolchain
