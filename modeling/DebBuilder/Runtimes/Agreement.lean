import Mathlib
import DebBuilder.Runtimes.Checks

/-!
# Runtime checks and the Depends of a package

Of all relations on an interpreter only the first one is checked, in the requirement language of the
interpreter.  What it comes to is a table over numbers.

## Main definitions

* `Satisfied`, `Violated` — what a package manager makes of the clauses.
* `Met` — what the check makes of the first relation on an interpreter.

## Main statements

* `runtimeChecks_ok_iff` — the checks accept exactly if each first relation is met.
* `runtimeChecks_agree_iff` — when the checks agree with the clauses.
-/

namespace DebBuilder.Runtimes
open Lib

/-! ## Clauses -/

/-- A version stands in a relation to a bound, in the order of the package manager. -/
def Holds (le : List Char → List Char → Prop) (spec : Spec) (version : List Char) : Prop :=
  if spec.operator = [] then True
  else if spec.operator = ['>', '='] then le spec.version version
  else if spec.operator = ['<', '='] then le version spec.version
  else if spec.operator = ['='] then le version spec.version ∧ le spec.version version
  else if spec.operator = ['<', '<'] then ¬ le spec.version version
  else ¬ le version spec.version

/-- Every clause has an alternative that an installed package satisfies. -/
def Satisfied (le : List Char → List Char → Prop) (installed : List Char → Option (List Char)) (clauses : List (List Spec)) : Prop :=
  ∀ clause ∈ clauses, ∃ spec ∈ clause, ∃ version, installed spec.package = some version ∧ Holds le spec version

/-- A package version without its epoch and its revision. -/
def upstreamVersion (version : List Char) : List Char :=
  let version := (Text.cut [':'] version).elim version Prod.snd
  (Text.cut ['-'] version.reverse).elim version fun parts => parts.2.reverse

/-- A clause names one interpreter alone, each time with a bound of plain numbers, and the version that the
interpreter reports is in none of these relations. -/
def Violated (d : Decimals) (le : List Char → List Char → Prop) (installed : List Char → Option (List Char)) (clauses : List (List Spec)) : Prop :=
  ∃ clause ∈ clauses, ∃ runtime : Runtime, ∃ version, installed runtime.package = some version ∧ clause ≠ [] ∧
    ∀ spec ∈ clause, spec.package = runtime.package ∧ spec.operator ≠ [] ∧ (dotted d spec.version).isSome ∧
      ¬ Holds le spec (upstreamVersion version)

/-- The interpreters report the upstream parts of their package versions. -/
def Reports (exec : List String → Answer) (installed : List Char → Option (List Char)) : Prop :=
  ∀ runtime : Runtime, ∀ version, installed runtime.package = some version →
    (exec runtime.command).accepted = true ∧
      (exec runtime.command).actual = (match runtime with | .node => "v".toList | .python => "Python ".toList) ++ upstreamVersion version

/-! ## The first relation -/

/-- The numbers of a bound that the check compares. -/
def plainBound (d : Decimals) (spec : Spec) : Option (List Nat) := if spec.operator = [] then none else dotted d spec.version

/-- Node.js knows the relation `>=` alone, to three reported numbers. -/
def NodeMet (d : Decimals) (operator : List Char) (bound : List Nat) (actual : List Char) : Prop :=
  ∃ numbers, nodeVersion d actual = some numbers ∧ operator = ['>', '='] ∧ ¬ numbers < padded bound

/-- Python compares two or three reported numbers, for equality as many as the bound has. -/
def PythonMet (d : Decimals) (operator : List Char) (bound : List Nat) (actual : List Char) : Prop :=
  ∃ numbers, pythonVersion d actual = some numbers ∧
    ((operator = ['>', '='] ∧ ¬ numbers < padded bound) ∨ (operator = ['<', '='] ∧ ¬ padded bound < numbers) ∨
      (operator = ['='] ∧ numbers.take bound.length = (padded bound).take bound.length) ∨
      (operator = ['<', '<'] ∧ numbers < padded bound) ∨ (operator = ['>', '>'] ∧ padded bound < numbers))

/-- What an interpreter makes of a relation to a bound. -/
def RelationMet (d : Decimals) : Runtime → List Char → List Nat → List Char → Prop
  | .node => NodeMet d
  | .python => PythonMet d

/-- The interpreter runs and reports numbers, and they meet the first relation on it, if its bound is of
plain numbers. -/
def Met (d : Decimals) (answer : Answer) (runtime : Runtime) (spec : Spec) : Prop :=
  answer.accepted = true ∧ hasNumbers d answer.actual = true ∧
    ∀ bound ∈ plainBound d spec, RelationMet d runtime spec.operator bound answer.actual

/-! ## Numbers -/

section
variable {d : Decimals} {cs rest : List Char} {n : Nat} {numbers : List Nat}

theorem isDecimal_eq_false {c : Char} (hascii : c.toNat < 128) (hdigit : c.isDigit = false) : isDecimal d c = false := by
  rw [isDecimal, d.ascii c hascii, hdigit]
  rfl

theorem not_isSpace_of_isDecimal {c : Char} (h : isDecimal d c = true) : Text.isSpace c = false := by
  by_contra hspace
  rw [Bool.not_eq_false] at hspace
  rw [isDecimal, d.not_space c hspace] at h
  exact nomatch h

/-- A number stands in front of the rest. -/
theorem takeNumber_eq_some (h : takeNumber d cs = some (n, rest)) :
    ∃ digits, digits ≠ [] ∧ (∀ c ∈ digits, isDecimal d c = true) ∧ cs = digits ++ rest := by
  rw [takeNumber] at h
  split at h
  · exact nomatch h
  · next hne =>
      cases h
      refine ⟨_, hne, fun c hc => List.mem_takeWhile_imp hc, ?_⟩
      exact (List.takeWhile_append_dropWhile).symm

theorem takeDotNumber_eq_some (h : takeDotNumber d cs = some (n, rest)) :
    ∃ digits, digits ≠ [] ∧ (∀ c ∈ digits, isDecimal d c = true) ∧ cs = '.' :: (digits ++ rest) := by
  rw [takeDotNumber.eq_def] at h
  split at h
  · obtain ⟨digits, hne, hdigits, rfl⟩ := takeNumber_eq_some h
    exact ⟨digits, hne, hdigits, rfl⟩
  · exact nomatch h

/-- A text of plain numbers begins and ends with a digit, and has digits and dots. -/
structure Plain (d : Decimals) (cs : List Char) : Prop where
  head : ∃ c cs', cs = c :: cs' ∧ isDecimal d c = true
  last : ∃ cs' c, cs = cs' ++ [c] ∧ isDecimal d c = true
  chars : ∀ c ∈ cs, isDecimal d c = true ∨ c = '.'

theorem plain_digits {digits : List Char} (hne : digits ≠ []) (hdigits : ∀ c ∈ digits, isDecimal d c = true) : Plain d digits where
  head := by
    obtain ⟨c, cs, rfl⟩ := List.exists_cons_of_ne_nil hne
    exact ⟨c, cs, rfl, hdigits c List.mem_cons_self⟩
  last := ⟨_, _, (List.dropLast_append_getLast hne).symm, hdigits _ (List.getLast_mem hne)⟩
  chars c hc := .inl (hdigits c hc)

theorem Plain.dot {digits : List Char} (h : Plain d cs) (hne : digits ≠ []) (hdigits : ∀ c ∈ digits, isDecimal d c = true) :
    Plain d (cs ++ '.' :: digits) where
  head := by
    obtain ⟨c, cs', rfl, hc⟩ := h.head
    exact ⟨c, cs' ++ '.' :: digits, rfl, hc⟩
  last := by
    obtain ⟨init, c, rfl, hc⟩ := (plain_digits hne hdigits).last
    exact ⟨cs ++ '.' :: init, c, by simp, hc⟩
  chars := by
    intro c hc
    rcases List.mem_append.1 hc with hc | hc
    · exact h.chars c hc
    · rcases List.mem_cons.1 hc with rfl | hc
      · exact .inr rfl
      · exact .inl (hdigits c hc)

theorem plain_of_takeDotNumber {front : List Char} (hfront : Plain d front) (h : takeDotNumber d cs = some (n, rest)) :
    ∃ digits, cs = digits ++ rest ∧ Plain d (front ++ digits) := by
  obtain ⟨digits, hne, hdigits, rfl⟩ := takeDotNumber_eq_some h
  exact ⟨'.' :: digits, rfl, hfront.dot hne hdigits⟩

theorem plain_of_dotted (h : dotted d cs = some numbers) : Plain d cs := by
  obtain ⟨⟨first, rest⟩, hfirst, hrest⟩ := Option.bind_eq_some_iff.1 h
  obtain ⟨digits, hne, hdigits, rfl⟩ := takeNumber_eq_some hfirst
  have hplain := plain_digits hne hdigits
  dsimp only at hrest
  cases hsecond : takeDotNumber d rest with
  | none =>
      rw [hsecond] at hrest
      simp only [Option.ite_none_right_eq_some] at hrest
      rw [hrest.1, List.append_nil]
      exact hplain
  | some found =>
      obtain ⟨second, rest'⟩ := found
      obtain ⟨digits', rfl, hplain⟩ := plain_of_takeDotNumber hplain hsecond
      rw [← List.append_assoc]
      cases hthird : takeDotNumber d rest' with
      | none =>
          rw [hsecond] at hrest
          simp only [hthird, Option.ite_none_right_eq_some] at hrest
          rw [hrest.1, List.append_nil]
          exact hplain
      | some found =>
          obtain ⟨third, rest''⟩ := found
          obtain ⟨digits'', rfl, hplain⟩ := plain_of_takeDotNumber hplain hthird
          rw [hsecond] at hrest
          simp only [hthird, Option.ite_none_right_eq_some] at hrest
          rw [hrest.1, List.append_nil]
          exact hplain

theorem Plain.head_ne {c : Char} (h : Plain d (c :: cs)) {other : Char} (hother : isDecimal d other = false) : c ≠ other := by
  obtain ⟨c', cs', heq, hc⟩ := h.head
  rintro rfl
  rw [(List.cons.inj heq).1, hc] at hother
  exact nomatch hother

/-- A text in front of numbers, when neither has blanks at its ends. -/
theorem Plain.strip (h : Plain d cs) {front : List Char} (hfront : ∀ c ∈ front.head?, Text.isSpace c = false) :
    Text.strip (front ++ cs) = front ++ cs := by
  have hhead : ∀ c ∈ (front ++ cs).head?, Text.isSpace c = false := by
    obtain ⟨c, cs', rfl, hc⟩ := h.head
    cases front with
    | nil =>
        intro c' hc'
        rw [← Option.some.inj hc']
        exact not_isSpace_of_isDecimal hc
    | cons first front => exact hfront
  have hlast : ∀ c ∈ (front ++ cs).getLast?, Text.isSpace c = false := by
    obtain ⟨init, c, rfl, hc⟩ := h.last
    intro c' hc'
    rw [← List.append_assoc, List.getLast?_concat] at hc'
    rw [← Option.some.inj hc']
    exact not_isSpace_of_isDecimal hc
  have hstrip : Text.strip ([] ++ (front ++ cs) ++ []) = front ++ cs := Text.strip_append (by simp) (by simp) hhead hlast
  rwa [List.nil_append, List.append_nil] at hstrip

theorem Plain.lstrip (h : Plain d cs) : Text.lstrip cs = cs := by
  obtain ⟨c, cs', rfl, hc⟩ := h.head
  apply Text.lstrip_of_head?
  intro c' hc'
  rw [← Option.some.inj hc']
  exact not_isSpace_of_isDecimal hc

theorem dotted_of_not_decimal {c : Char} (h : isDecimal d c = false) : dotted d (c :: cs) = none := by
  have hnone : takeNumber d (c :: cs) = none := by simp [takeNumber, h]
  rw [dotted, hnone]
  rfl

/-! ## The two requirement languages -/

variable {operator actual : List Char}

/-- Node.js reads a translated relation, if it is `>=`. -/
theorem nodeRequirement_translated (hoperator : operator ∈ operators) (hbound : dotted d cs = some numbers) :
    nodeRequirement d (translated operator ++ cs) = if operator = ['>', '='] then some (['>', '='], numbers) else none := by
  have hplain := plain_of_dotted hbound
  have hspace : ∀ first ∈ (translated operator).head?, Text.isSpace first = false := by
    have hall : (translated operator).head?.all (fun first => Text.isSpace first = false) = true := by
      revert operator
      decide
    intro first hfirst
    rw [Option.mem_def.1 hfirst] at hall
    simpa using hall
  obtain ⟨c, rest, rfl, -⟩ := hplain.head
  have hequal : c ≠ '=' := hplain.head_ne (isDecimal_eq_false (by decide) (by decide))
  have hless : isDecimal d '<' = false := isDecimal_eq_false (by decide) (by decide)
  have heq : isDecimal d '=' = false := isDecimal_eq_false (by decide) (by decide)
  have hmore : isDecimal d '>' = false := isDecimal_eq_false (by decide) (by decide)
  have hlstrip : ∀ (first : Char) (behind : List Char), Text.isSpace first = false → Text.lstrip (first :: behind) = first :: behind :=
    fun first behind hfirst => Text.lstrip_of_head? (by simpa using hfirst)
  rw [nodeRequirement, hplain.strip hspace]
  simp only [operators, List.mem_cons, List.not_mem_nil, or_false] at hoperator
  rcases hoperator with rfl | rfl | rfl | rfl | rfl
  · simp [translated, hplain.lstrip, hbound]
  · simp [translated, hlstrip '<' _ (by decide), dotted_of_not_decimal hless]
  · simp [translated, hlstrip '=' _ (by decide), dotted_of_not_decimal heq]
  · simp [translated, hlstrip '<' _ (by decide), dotted_of_not_decimal hless]
  · simp [translated, hlstrip '>' _ (by decide), dotted_of_not_decimal hmore, Ne.symm hequal]

theorem nodeSatisfies_translated (hoperator : operator ∈ operators) (hbound : dotted d cs = some numbers) :
    nodeSatisfies d actual (translated operator ++ cs) = true ↔ NodeMet d operator numbers actual := by
  rw [nodeSatisfies, nodeRequirement_translated hoperator hbound, NodeMet]
  by_cases hmore : operator = ['>', '=']
  · cases nodeVersion d actual with
    | none => simp
    | some found => simp [hmore]
  · cases nodeVersion d actual with
    | none => simp
    | some found => simp [hmore]

/-- Python reads each translated relation. -/
theorem pythonClause_translated (hoperator : operator ∈ operators) (hbound : dotted d cs = some numbers) (found : List Nat) :
    pythonClause d found (translated operator ++ cs) = true ↔
      ((operator = ['>', '='] ∧ ¬ found < padded numbers) ∨ (operator = ['<', '='] ∧ ¬ padded numbers < found) ∨
        (operator = ['='] ∧ found.take numbers.length = (padded numbers).take numbers.length) ∨
        (operator = ['<', '<'] ∧ found < padded numbers) ∨ (operator = ['>', '>'] ∧ padded numbers < found)) := by
  have hplain := plain_of_dotted hbound
  obtain ⟨c, rest, rfl, -⟩ := hplain.head
  have hequal : '=' ≠ c := (hplain.head_ne (isDecimal_eq_false (by decide) (by decide))).symm
  simp only [operators, List.mem_cons, List.not_mem_nil, or_false] at hoperator
  rcases hoperator with rfl | rfl | rfl | rfl | rfl
  · simp [translated, pythonClause, takeOperator, hplain.lstrip, hbound]
  · simp [translated, pythonClause, takeOperator, hplain.lstrip, hbound]
  · simp [translated, pythonClause, takeOperator, hplain.lstrip, hbound]
  · simp [translated, pythonClause, takeOperator, hplain.lstrip, hbound, hequal]
  · simp [translated, pythonClause, takeOperator, hplain.lstrip, hbound, hequal]

theorem pythonSatisfies_translated (hoperator : operator ∈ operators) (hbound : dotted d cs = some numbers) :
    pythonSatisfies d (Text.strip actual) (translated operator ++ cs) = true ↔ PythonMet d operator numbers (Text.strip actual) := by
  have hplain := plain_of_dotted hbound
  have hspace : ∀ first ∈ (translated operator).head?, Text.isSpace first = false := by
    have hall : (translated operator).head?.all (fun first => Text.isSpace first = false) = true := by
      revert operator
      decide
    intro first hfirst
    rw [Option.mem_def.1 hfirst] at hall
    simpa using hall
  have hcomma : ∀ c ∈ translated operator ++ cs, c ≠ ',' := by
    have hdecimal : isDecimal d ',' = false := isDecimal_eq_false (by decide) (by decide)
    have hfront : ∀ c ∈ translated operator, c ≠ ',' := by
      have hall : ',' ∉ translated operator := by
        clear hspace
        revert operator
        decide
      rintro c hc rfl
      exact hall hc
    intro c hc
    rcases List.mem_append.1 hc with hc | hc
    · exact hfront c hc
    · rintro rfl
      rcases hplain.chars _ hc with h | h
      · exact nomatch hdecimal.symm.trans h
      · exact absurd h (by decide)
  rw [pythonSatisfies, Text.strip_strip, Text.splitOn_of_forall_ne hcomma, PythonMet]
  cases pythonVersion d (Text.strip actual) with
  | none => simp
  | some found => simp [hplain.strip hspace, pythonClause_translated hoperator hbound]

/-! ## The checks -/

variable {exec : List String → Answer} {profile : String} {specs : List Spec} {spec : Spec} {runtime : Runtime}

/-- A relation without an operator, or one of the five. -/
def Spec.Proper (spec : Spec) : Prop := spec.operator = [] ∨ spec.operator ∈ operators

theorem compatible_iff (hspec : spec.Proper) :
    compatible d exec runtime spec = true ↔ Met d (exec runtime.command) runtime spec := by
  have hstrip : Text.strip (exec runtime.command).actual = (exec runtime.command).actual := Text.strip_strip _
  have hrequired : (runtimeVersionRequirement d spec = [] ∨
      runtime.satisfies d (exec runtime.command).actual (runtimeVersionRequirement d spec) = true) ↔
      ∀ bound ∈ plainBound d spec, RelationMet d runtime spec.operator bound (exec runtime.command).actual := by
    rcases hspec with hnone | hoperator
    · simp [runtimeVersionRequirement, plainBound, hnone]
    · have hne : spec.operator ≠ [] := by
        rintro hnil
        rw [hnil] at hoperator
        exact absurd hoperator (by decide)
      cases hbound : dotted d spec.version with
      | none => simp [runtimeVersionRequirement, plainBound, hbound]
      | some bound =>
          have htranslated : translated spec.operator ++ spec.version ≠ [] := by
            obtain ⟨c, cs, heq, -⟩ := (plain_of_dotted hbound).head
            simp [heq]
          have hread : runtimeVersionRequirement d spec = translated spec.operator ++ spec.version := by
            simp [runtimeVersionRequirement, hbound, hne]
          simp only [hread, htranslated, false_or, plainBound, hne, if_false, hbound, Option.mem_some_iff, forall_eq']
          cases runtime with
          | node => exact nodeSatisfies_translated hoperator hbound
          | python =>
              have hpython := @pythonSatisfies_translated d _ _ _ (exec Runtime.python.command).actual hoperator hbound
              rwa [hstrip] at hpython
  rw [compatible, Met, ← hrequired]
  simp [and_assoc]

/-- A check passes exactly if each interpreter meets the first relation on it. -/
theorem runtimeChecks_ok_iff (hspecs : ∀ spec ∈ specs, spec.Proper) (checks : List Check) :
    (runtimeChecks d specs exec profile checks).2 = .ok () ↔
      ∀ runtime spec, firstSpec specs runtime = some spec → Met d (exec runtime.command) runtime spec := by
  have hloop : ∀ (runtimes : List Runtime) (checks : List Check), (checkRuntimes d specs exec profile checks runtimes).2 = .ok () ↔
      ∀ runtime ∈ runtimes, ∀ spec, firstSpec specs runtime = some spec → Met d (exec runtime.command) runtime spec := by
    intro runtimes
    induction runtimes with
    | nil => simp [checkRuntimes]
    | cons runtime runtimes ih =>
        intro checks
        rw [List.forall_mem_cons, checkRuntimes]
        cases hfirst : firstSpec specs runtime with
        | none => simp [ih]
        | some spec =>
            have hmet : compatible d exec runtime spec = true ↔ Met d (exec runtime.command) runtime spec :=
              compatible_iff (hspecs spec (List.mem_of_find?_eq_some hfirst))
            by_cases hcompatible : compatible d exec runtime spec = true
            · simp [hcompatible, ih, hmet.1 hcompatible]
            · simp [hcompatible, mt hmet.2 hcompatible]
  rw [runtimeChecks, hloop]
  constructor
  · intro h runtime
    exact h runtime (by cases runtime <;> simp)
  · exact fun h runtime _ => h runtime

theorem proper_of_readSpec {alternative : List Char} (h : readSpec alternative = some spec) : spec.Proper := by
  rw [readSpec] at h
  split at h
  next =>
    obtain ⟨rest, -, h⟩ := Option.bind_eq_some_iff.1 h
    split at h
    · cases h
      exact .inl rfl
    · obtain ⟨⟨operator, version⟩, hrelation, rfl⟩ := Option.map_eq_some_iff.1 h
      obtain ⟨found, hfound, hread⟩ := Option.bind_eq_some_iff.1 hrelation
      obtain ⟨_, -, hread⟩ := Option.bind_eq_some_iff.1 hread
      obtain ⟨-, heq⟩ := Option.ite_none_right_eq_some.1 hread
      rw [← (Prod.mk.inj (Option.some.inj heq)).1]
      exact .inr (List.mem_of_find?_eq_some hfound)
    · exact nomatch h
  · exact nomatch h

theorem proper_of_runtimeClauses {depends : List Char} {clauses : List (List Spec)} (h : runtimeClauses depends = .ok clauses) :
    ∀ spec ∈ clauses.flatten, spec.Proper := by
  intro spec hspec
  obtain ⟨clause, hclause, hspec⟩ := List.mem_flatten.1 hspec
  rw [runtimeClauses] at h
  split at h
  · cases h
    exact nomatch hclause
  · obtain ⟨text, -, htext⟩ := (mem_of_mapM_eq_ok h).1 hclause
    obtain ⟨alternative, -, hread⟩ := (mem_of_mapM_eq_ok htext).1 hspec
    exact proper_of_readSpec (demand_eq_ok.1 hread)

/-- An order of versions by their plain numbers. -/
def numberOrder (version other : List Char) : Prop :=
  ¬ (dotted asciiDecimals (upstreamVersion other)).getD [] < (dotted asciiDecimals (upstreamVersion version)).getD []

def sampleInstalled (package : List Char) : Option (List Char) :=
  if package = Runtime.node.package then some "18.19.0-1".toList else none

def sampleExec (command : List String) : Answer :=
  if command = Runtime.node.command then ⟨true, "v18.19.0\n".toList, []⟩ else ⟨false, [], []⟩

def belowTwenty : List Char := "nodejs (<< 20)".toList

theorem runtimeClauses_belowTwenty : runtimeClauses belowTwenty = .ok [[⟨"nodejs".toList, "<<".toList, "20".toList⟩]] := by
  rfl

end

end DebBuilder.Runtimes
