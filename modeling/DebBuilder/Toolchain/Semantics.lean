import Mathlib
import DebBuilder.Toolchain.Notation

/-!
# The meaning of version ranges

The evaluation of a range against the meaning that its notation has.  A comparator whose
version is left open is misread by some operators: `>` and `<=` compare with the first
version of the block instead of with its end, a caret before zeros keeps the patch number,
and a wildcard alone stands for `0.0`.

## Main definitions

* `Misread` — a comparator is misread at a version.

## Main statements

* `versionSatisfies_iff` — when a range is evaluated as it is meant.
-/

namespace DebBuilder.Toolchain
open Lib SemVer

variable {d : Digits} {v : Version}

/-! ## Comparators -/

/-- Past the first version of a block and not past the block. -/
def Inside (numbers : List Nat) (v : Version) : Prop := firstOf numbers < v ∧ Below v (pastOf numbers)

instance (numbers : List Nat) (v : Version) : Decidable (Inside numbers v) := inferInstanceAs (Decidable (_ ∧ _))

/-- The versions at which the code and the notation differ about a comparator with these
numbers. -/
def MisreadAt (v : Version) (numbers : List Nat) : Comparator → Prop
  -- a wildcard alone is read as 0.0
  | .plain _ | .tilde _ | .compare .eq _ => numbers = [] ∧ ⟨0, 1, 0⟩ ≤ v
  -- a wildcard alone is not supported here, and zeros keep all their parts
  | .caret _ => numbers = [] ∨ (∀ n ∈ numbers, n = 0) ∧ numbers.length < 3 ∧ Inside numbers v
  -- the block counts as its first version
  | .compare .gt _ | .compare .le _ => numbers.length < 3 ∧ Inside numbers v
  | .compare .ge _ | .compare .lt _ => False

def Misread (v : Version) (c : Comparator) : Prop := MisreadAt v c.base.numbers c

/-- Up to three numbers. -/
theorem cases_of_length_le {P : (numbers : List Nat) → numbers.length ≤ 3 → Prop} (none : ∀ h, P [] h)
    (one : ∀ a h, P [a] h) (two : ∀ a b h, P [a, b] h) (three : ∀ a b c h, P [a, b, c] h) :
    ∀ numbers h, P numbers h
  | [], h => none h
  | [a], h => one a h
  | [a, b], h => two a b h
  | [a, b, c], h => three a b c h
  | _ :: _ :: _ :: _ :: _, h => absurd h (by simp)

theorem block_iff (numbers : List Nat) (h : numbers.length ≤ 3) :
    between (padded numbers) (widened numbers (padded numbers)) v = true ↔
      (Window.Admits ⟨firstOf numbers, pastOf (numbers.take 2)⟩ v ↔ ¬ (numbers = [] ∧ ⟨0, 1, 0⟩ ≤ v)) := by
  induction numbers, h using cases_of_length_le with
  | none => simp [between, padded, widened, Window.Admits, firstOf, pastOf, Below, Version.lt_def, Version.le_def]
  | one a => simp [between, padded, widened, Window.Admits, firstOf, pastOf, Below]
  | two a b => simp [between, padded, widened, Window.Admits, firstOf, pastOf, Below]
  | three a b c => simp [between, padded, widened, Window.Admits, firstOf, pastOf, Below]

theorem caret_iff (numbers : List Nat) (h : numbers.length ≤ 3) :
    satisfied v (some .caret) numbers (decide (numbers.length < 3)) = some true ↔
      (Window.Admits ⟨firstOf numbers, pastOf (significant numbers)⟩ v ↔
        ¬ (numbers = [] ∨ (∀ n ∈ numbers, n = 0) ∧ numbers.length < 3 ∧ Inside numbers v)) := by
  induction numbers, h using cases_of_length_le with
  | none => simp [satisfied, Window.Admits, firstOf, significant, pastOf, Below, Version.le_def]
  | one a =>
      cases a <;> simp [satisfied, between, padded, Window.Admits, firstOf, significant, pastOf, Below, Inside,
        Version.lt_def, Version.le_def]
      all_goals omega
  | two a b =>
      cases a <;> cases b <;> simp [satisfied, between, padded, Window.Admits, firstOf, significant, pastOf, Below,
        Inside, Version.lt_def, Version.le_def]
      all_goals omega
  | three a b c =>
      cases a <;> cases b <;> cases c <;> simp [satisfied, between, padded, Window.Admits, firstOf, significant, pastOf,
        Below, Inside, Version.lt_def, Version.le_def]
      all_goals omega

theorem gt_iff (numbers : List Nat) (h : numbers.length ≤ 3) :
    padded numbers < v ↔ (¬ Below v (pastOf numbers) ↔ ¬ (numbers.length < 3 ∧ Inside numbers v)) := by
  induction numbers, h using cases_of_length_le with
  | none =>
      simp [padded, firstOf, pastOf, Below, Inside, Version.lt_def]
      omega
  | one a =>
      simp [padded, firstOf, pastOf, Below, Inside, Version.lt_def]
      omega
  | two a b =>
      simp [padded, firstOf, pastOf, Below, Inside, Version.lt_def]
      omega
  | three a b c =>
      simp [padded, firstOf, pastOf, Below, Inside, Version.lt_def]
      omega

theorem le_iff (numbers : List Nat) (h : numbers.length ≤ 3) :
    v ≤ padded numbers ↔ (Below v (pastOf numbers) ↔ ¬ (numbers.length < 3 ∧ Inside numbers v)) := by
  induction numbers, h using cases_of_length_le with
  | none => simp [padded, firstOf, pastOf, Below, Inside, Version.lt_def, Version.le_def]
  | one a =>
      simp [padded, firstOf, pastOf, Below, Inside, Version.lt_def, Version.le_def]
      omega
  | two a b =>
      simp [padded, firstOf, pastOf, Below, Inside, Version.lt_def, Version.le_def]
      omega
  | three a b c =>
      simp [padded, firstOf, pastOf, Below, Inside, Version.lt_def, Version.le_def]
      omega

/-- The block of a version whose parts may be open. -/
theorem exact_iff (numbers : List Nat) (h : numbers.length ≤ 3) :
    (if numbers.length < 3 then between (padded numbers) (widened numbers (padded numbers)) v
      else decide (v = padded numbers)) = true ↔
      (Window.Admits ⟨firstOf numbers, pastOf numbers⟩ v ↔ ¬ (numbers = [] ∧ ⟨0, 1, 0⟩ ≤ v)) := by
  by_cases hopen : numbers.length < 3
  · have htake : numbers.take 2 = numbers := List.take_of_length_le (by omega)
    rw [if_pos hopen, block_iff numbers h, htake]
  · induction numbers, h using cases_of_length_le with
    | none | one _ | two _ _ => simp at hopen
    | three a b c =>
        simp [padded, firstOf, pastOf, Window.Admits, Below, Version.ext_iff', Version.lt_def, Version.le_def]
        omega

theorem padded_eq_firstOf (numbers : List Nat) (h : numbers.length ≤ 3) : padded numbers = firstOf numbers := by
  induction numbers, h using cases_of_length_le <;> rfl

theorem verdictOn_iff (c : Comparator) : verdictOn v c = some true ↔ (c.Allows v ↔ ¬ Misread v c) := by
  cases c with
  | plain p =>
      show satisfied v none p.numbers (decide (p.numbers.length < 3)) = some true ↔ _
      refine Iff.trans ?_ (exact_iff _ p.length_numbers_le)
      by_cases hopen : p.numbers.length < 3 <;> simp [satisfied, hopen]
  | caret p => exact caret_iff _ p.length_numbers_le
  | tilde p =>
      show satisfied v (some .tilde) p.numbers (decide (p.numbers.length < 3)) = some true ↔ _
      refine Iff.trans ?_ (block_iff _ p.length_numbers_le)
      simp [satisfied]
  | compare r p =>
      have hfirst := padded_eq_firstOf _ p.length_numbers_le
      cases r with
      | gt =>
          show satisfied v (some .gt) p.numbers (decide (p.numbers.length < 3)) = some true ↔ _
          refine Iff.trans ?_ (gt_iff _ p.length_numbers_le)
          simp [satisfied, compare]
      | le =>
          show satisfied v (some .le) p.numbers (decide (p.numbers.length < 3)) = some true ↔ _
          refine Iff.trans ?_ (le_iff _ p.length_numbers_le)
          simp [satisfied, compare]
      | ge =>
          show satisfied v (some .ge) p.numbers (decide (p.numbers.length < 3)) = some true ↔ _
          simp [satisfied, compare, Comparator.Allows, Relation.Allows, Misread, MisreadAt, hfirst]
      | lt =>
          show satisfied v (some .lt) p.numbers (decide (p.numbers.length < 3)) = some true ↔ _
          simp [satisfied, compare, Comparator.Allows, Relation.Allows, Misread, MisreadAt, hfirst]
      | eq =>
          show satisfied v (some .eq) p.numbers (decide (p.numbers.length < 3)) = some true ↔ _
          refine Iff.trans ?_ (exact_iff _ p.length_numbers_le)
          by_cases hopen : p.numbers.length < 3 <;> simp [satisfied, compare, hopen]

/-! ## Hyphen ranges -/

/-- A hyphen range that ends with a wildcard alone is read up to 0.1.0. -/
def HyphenMisread (v : Version) (low high : Partial) : Prop :=
  high.numbers = [] ∧ firstOf low.numbers ≤ v ∧ ⟨0, 1, 0⟩ ≤ v

theorem hyphenHolds_iff (low high : Partial) : hyphenHolds v low high = true ↔
    (Window.Admits ⟨firstOf low.numbers, pastOf high.numbers⟩ v ↔ ¬ HyphenMisread v low high) := by
  have hlow := padded_eq_firstOf _ low.length_numbers_le
  rw [hyphenHolds, hlow, HyphenMisread]
  generalize firstOf low.numbers = lower
  have hlength := high.length_numbers_le
  generalize high.numbers = numbers at hlength
  induction numbers, hlength using cases_of_length_le with
  | none =>
      simp [between, padded, widened, Window.Admits, pastOf, Below, Version.lt_def, Version.le_def]
      omega
  | one a => simp [between, padded, widened, Window.Admits, pastOf, Below]
  | two a b => simp [between, padded, widened, Window.Admits, pastOf, Below]
  | three a b c =>
      simp [padded, Window.Admits, pastOf, Below, Version.lt_def, Version.le_def]
      omega

/-! ## Ranges -/

/-- A part of an alternative that is evaluated on its own. -/
inductive Test
  | hyphen (low high : Partial)
  | comparator (c : Comparator)

def Test.Allows (v : Version) : Test → Prop
  | .hyphen low high => Window.Admits ⟨firstOf low.numbers, pastOf high.numbers⟩ v
  | .comparator c => c.Allows v

def Test.Misread (v : Version) : Test → Prop
  | .hyphen low high => HyphenMisread v low high
  | .comparator c => Toolchain.Misread v c

def tests : Alternative → List Test
  | .hyphen low _ _ high => [.hyphen low high]
  | .all first rest => (first :: rest.map Prod.snd).map .comparator

/-- The misread parts of a range do not decide about a version: taken the other way round
they leave the outcome as it is. -/
def Undecided (range : Range) (v : Version) : Prop :=
  (∃ branch ∈ range, ∀ test ∈ tests branch.alternative, test.Allows v) ↔
    ∃ branch ∈ range, ∀ test ∈ tests branch.alternative, (test.Allows v ↔ ¬ test.Misread v)

theorem allows_iff (alternative : Alternative) :
    alternative.Allows v ↔ ∀ test ∈ tests alternative, test.Allows v := by
  cases alternative with
  | hyphen low before after high => simp [Alternative.Allows, tests, Test.Allows]
  | all first rest =>
      simp only [Alternative.Allows, tests, List.forall_mem_map, List.forall_mem_cons]
      exact Iff.rfl

theorem granted_iff (alternative : Alternative) :
    Granted v alternative ↔ ∀ test ∈ tests alternative, (test.Allows v ↔ ¬ test.Misread v) := by
  cases alternative with
  | hyphen low before after high =>
      rw [Granted, hyphenHolds_iff]
      simp [tests, Test.Allows, Test.Misread]
  | all first rest =>
      simp only [Granted, tests, verdictOn_iff, List.forall_mem_map, List.forall_mem_cons]
      exact Iff.rfl

/-- Where nothing is misread the misread parts decide nothing. -/
theorem Undecided.of_forall {range : Range}
    (h : ∀ branch ∈ range, ∀ test ∈ tests branch.alternative, ¬ test.Misread v) : Undecided range v := by
  have hsame : ∀ branch ∈ range, (∀ test ∈ tests branch.alternative, test.Allows v) ↔
      ∀ test ∈ tests branch.alternative, (test.Allows v ↔ ¬ test.Misread v) := by
    intro branch hbranch
    constructor
    · intro hall test htest
      simp [hall test htest, h branch hbranch test htest]
    · intro hall test htest
      exact (hall test htest).2 (h branch hbranch test htest)
  constructor
  · rintro ⟨branch, hbranch, hall⟩
    exact ⟨branch, hbranch, (hsame branch hbranch).1 hall⟩
  · rintro ⟨branch, hbranch, hall⟩
    exact ⟨branch, hbranch, (hsame branch hbranch).2 hall⟩

/-- A range of one comparator is decided by its being misread. -/
theorem undecided_single_iff (before after : Nat) (c : Comparator) :
    Undecided [⟨before, .all c [], after⟩] v ↔ ¬ Misread v c := by
  by_cases hallows : c.Allows v <;> simp [Undecided, tests, Test.Allows, Test.Misread, hallows]

/-- **A range is evaluated as it is meant** at a version about which no misread part of it
decides, and at no other. -/
theorem versionSatisfies_iff (d : Digits) (range : Range) (v : Version) :
    (versionSatisfies d (String.ofList v.text) (String.ofList range.text) = .ok (some true) ↔ range.Allows v) ↔
      Undecided range v := by
  obtain ⟨verdict, hverdict, hgranted⟩ := versionSatisfies_text (d := d) (v := v) range
  have hread : versionSatisfies d (String.ofList v.text) (String.ofList range.text) = .ok (some true) ↔
      ∃ branch ∈ range, ∀ test ∈ tests branch.alternative, (test.Allows v ↔ ¬ test.Misread v) := by
    rw [hverdict, Except.ok.injEq, hgranted]
    simp only [granted_iff]
  have hallows : range.Allows v ↔ ∃ branch ∈ range, ∀ test ∈ tests branch.alternative, test.Allows v := by
    simp only [Range.Allows, allows_iff]
  rw [hread, hallows, Undecided]
  exact ⟨Iff.symm, Iff.symm⟩

/-- `*` -/
def anyVersion : Range := [⟨0, .all (.plain ⟨[.wild .star], nofun, by decide⟩) [], 0⟩]

/-- Every version is meant by `*`, and 1.0.0 does not satisfy it. -/
theorem star_not_satisfied : ¬ ∀ (range : Range) (v : Version),
    versionSatisfies asciiDigits (String.ofList v.text) (String.ofList range.text) = .ok (some true) ↔ range.Allows v := by
  intro h
  have hallows : Range.Allows anyVersion ⟨1, 0, 0⟩ := by
    refine ⟨_, List.mem_singleton_self _, ?_, nofun⟩
    show Window.Admits ⟨⟨0, 0, 0⟩, none⟩ ⟨1, 0, 0⟩
    decide
  have hfalse : versionSatisfies asciiDigits (String.ofList (Version.text ⟨1, 0, 0⟩))
      (String.ofList (Range.text anyVersion)) = .ok (some false) := by
    rfl
  rw [(h anyVersion ⟨1, 0, 0⟩).2 hallows] at hfalse
  exact absurd hfalse nofun

end DebBuilder.Toolchain
