import Mathlib
import DebBuilder.Lib.Text

/-!
# JSON values of the source language

What `json.loads` returns, with the operations by which a reader of untrusted documents
works: `value.get(key)` of a dictionary, truth, equality across the numeric types, and
`str(value)`.

## Main definitions

* `Json` — a value; a float carries the text that `repr` shows of it.
* `Json.fields?`, `Json.get` — a dictionary, and the value under a key of it.
* `Json.truthy`, `Json.equals`, `Json.text` — `bool(value)`, `==` and `str(value)`.
-/

namespace Lib

/-- The value of a float. -/
inductive FloatValue
  | finite (q : Rat)
  | infinite (negative : Bool)
  | nan
  deriving DecidableEq, Repr

/-- A JSON value. -/
inductive Json
  | null
  | bool (b : Bool)
  | int (n : Int)
  | float (value : FloatValue) (shown : String)
  | str (s : String)
  | arr (values : List Json)
  | obj (fields : List (String × Json))

namespace Json

/-- The pairs of a dictionary. -/
abbrev Fields := List (String × Json)

/-- `fields.get(key)`: a missing key is `None`. -/
def get (fields : Fields) (key : String) : Json := (fields.lookup key).getD null

/-- `{**fields, key: value}` -/
def put (fields : Fields) (key : String) (value : Json) : Fields :=
  if (fields.lookup key).isSome then fields.map fun field => if field.1 = key then (key, value) else field
  else fields ++ [(key, value)]

/-- The pairs of a value, when it is a dictionary. -/
def fields? : Json → Option Fields
  | obj fields => some fields
  | _ => none

/-- `value.get(key) if isinstance(value, dict) else None` -/
def member (value : Json) (key : String) : Json :=
  match value with
  | obj fields => get fields key
  | _ => null

/-- The elements of a value, when it is a list. -/
def values? : Json → Option (List Json)
  | arr values => some values
  | _ => none

def str? : Json → Option String
  | str s => some s
  | _ => none

/-- The value, when `type(value) is int`. -/
def int? : Json → Option Int
  | int n => some n
  | _ => none

/-- `bool(value)` -/
def truthy : Json → Bool
  | null => false
  | bool b => b
  | int n => n ≠ 0
  | float v _ => v ≠ .finite 0
  | str s => s ≠ ""
  | arr values => !values.isEmpty
  | obj fields => !fields.isEmpty

/-- The number that a value is in a comparison; `nan` is no number and equals nothing. -/
def number? : Json → Option FloatValue
  | bool b => some (.finite (if b then 1 else 0))
  | int n => some (.finite n)
  | float .nan _ => none
  | float v _ => some v
  | _ => none

/-- Equality of two values that are numbers. -/
def sameNumber (a b : Json) : Bool :=
  match a.number?, b.number? with
  | some x, some y => x = y
  | _, _ => false

mutual

/-- `a == b` -/
def equals : Json → Json → Bool
  | null, b => match b with | null => true | _ => false
  | str s, b => match b with | str t => s = t | _ => false
  | arr xs, b => match b with | arr ys => equalsAll xs ys | _ => false
  | obj xs, b => match b with | obj ys => xs.length = ys.length && equalsFields xs ys | _ => false
  | bool x, b => sameNumber (bool x) b
  | int n, b => sameNumber (int n) b
  | float v shown, b => sameNumber (float v shown) b

def equalsAll : List Json → List Json → Bool
  | [], ys => ys.isEmpty
  | x :: xs, ys => match ys with | y :: ys => equals x y && equalsAll xs ys | [] => false

/-- Each pair of the one is in the other. -/
def equalsFields : List (String × Json) → List (String × Json) → Bool
  | [], _ => true
  | (key, x) :: xs, ys => (match ys.lookup key with | some y => equals x y | none => false) && equalsFields xs ys

end

mutual

/-- `repr(value)` -/
def shown : Json → String
  | null => "None"
  | bool b => if b then "True" else "False"
  | int n => toString n
  | float _ text => text
  | str s => Text.quoted s
  | arr values => "[" ++ ", ".intercalate (shownAll values) ++ "]"
  | obj fields => "\x7b" ++ ", ".intercalate (shownFields fields) ++ "\x7d"

def shownAll : List Json → List String
  | [] => []
  | value :: values => shown value :: shownAll values

def shownFields : List (String × Json) → List String
  | [] => []
  | (key, value) :: fields => (Text.quoted key ++ ": " ++ shown value) :: shownFields fields

end

/-- `str(value or "")` -/
def text (value : Json) : String :=
  if value.truthy then
    match value with
    | str s => s
    | _ => value.shown
  else ""

@[simp] theorem get_put_self {fields : Fields} {key : String} {value : Json} : get (put fields key value) key = value := by
  have hmap : ∀ fields : Fields, (fields.lookup key).isSome →
      (fields.map fun field => if field.1 = key then (key, value) else field).lookup key = some value := by
    intro fields
    induction fields with
    | nil => simp
    | cons field fields ih =>
        intro h
        by_cases hkey : field.1 = key
        · simp [hkey]
        · have hne : (key == field.1) = false := by simpa using Ne.symm hkey
          rw [List.lookup, hne] at h
          rw [List.map_cons, if_neg hkey, List.lookup, hne]
          exact ih h
  unfold get put
  split
  next h => rw [hmap fields h, Option.getD_some]
  next h =>
    have hnone : fields.lookup key = none := Option.not_isSome_iff_eq_none.1 h
    simp [List.lookup_append, hnone]

@[simp] theorem equals_str {s : String} {value : Json} : equals (str s) value = true ↔ value = str s := by
  cases value <;> simp [equals, eq_comm]

example : equals (obj [("a", int 1), ("b", arr [str "x"])]) (obj [("b", arr [str "x"]), ("a", bool true)]) = true := by
  rfl

end Json
end Lib
