import Mathlib
import DebBuilder.Lib.Text

/-!
# Version ranges

Release versions, the notation in which packages of npm name ranges of them, and what the
notation means by npm's own documentation: a shorter version stands for every version that
starts with its parts, and each operator bounds a range by the first version of that block
or by the first one past it.

## Main definitions

* `Version`, `Window` — a release version, an interval of versions.
* `Partial`, `Comparator`, `Alternative`, `Range` — the notation.
* `Range.Allows` — the versions of a range.
* `Range.text` — a range as it is written.
-/

namespace Lib
namespace SemVer

/-- A release version. -/
structure Version where
  major : Nat
  minor : Nat
  patch : Nat
  deriving DecidableEq, Repr

namespace Version

/-- Versions are compared part by part. -/
def Before (a b : Version) : Prop :=
  a.major < b.major ∨ a.major = b.major ∧ (a.minor < b.minor ∨ a.minor = b.minor ∧ a.patch < b.patch)

instance : LT Version := ⟨Before⟩

instance : LE Version := ⟨fun a b => ¬ Before b a⟩

theorem lt_def {a b : Version} : a < b ↔
    a.major < b.major ∨ a.major = b.major ∧ (a.minor < b.minor ∨ a.minor = b.minor ∧ a.patch < b.patch) :=
  Iff.rfl

theorem le_def {a b : Version} : a ≤ b ↔
    ¬ (b.major < a.major ∨ b.major = a.major ∧ (b.minor < a.minor ∨ b.minor = a.minor ∧ b.patch < a.patch)) :=
  Iff.rfl

instance (a b : Version) : Decidable (a < b) := decidable_of_iff _ lt_def.symm

instance (a b : Version) : Decidable (a ≤ b) := decidable_of_iff _ le_def.symm

theorem ext_iff' {a b : Version} : a = b ↔ a.major = b.major ∧ a.minor = b.minor ∧ a.patch = b.patch := by
  cases a
  cases b
  simp

/-- The version as it is written. -/
def text (v : Version) : List Char :=
  Nat.toDigits 10 v.major ++ '.' :: (Nat.toDigits 10 v.minor ++ '.' :: Nat.toDigits 10 v.patch)

end Version

/-- The versions from `first` on, up to `past` where there is a bound. -/
structure Window where
  first : Version
  past : Option Version
  deriving DecidableEq, Repr

/-- A version is below a bound, when there is one. -/
def Below (v : Version) : Option Version → Prop
  | some bound => v < bound
  | none => True

instance (v : Version) : (bound : Option Version) → Decidable (Below v bound)
  | some bound => inferInstanceAs (Decidable (v < bound))
  | none => inferInstanceAs (Decidable True)

def Window.Admits (w : Window) (v : Version) : Prop := w.first ≤ v ∧ Below v w.past

instance (w : Window) (v : Version) : Decidable (w.Admits v) := inferInstanceAs (Decidable (_ ∧ _))

/-! ## Versions with parts left open -/

inductive Wildcard
  | x
  | X
  | star
  deriving DecidableEq, Repr

inductive Part
  | number (n : Nat)
  | wild (w : Wildcard)
  deriving DecidableEq, Repr

/-- One to three parts; those from the first wildcard on are open, as are those that are not
written. -/
structure Partial where
  parts : List Part
  nonempty : parts ≠ []
  short : parts.length ≤ 3

/-- The numbers before the first wildcard. -/
def numbersOf : List Part → List Nat
  | .number n :: parts => n :: numbersOf parts
  | .wild _ :: _ | [] => []

def Partial.numbers (p : Partial) : List Nat := numbersOf p.parts

theorem length_numbersOf_le (parts : List Part) : (numbersOf parts).length ≤ parts.length := by
  fun_induction numbersOf parts with
  | case1 n parts ih => simpa using ih
  | case2 => simp
  | case3 => simp

theorem Partial.length_numbers_le (p : Partial) : p.numbers.length ≤ 3 :=
  Nat.le_trans (length_numbersOf_le p.parts) p.short

/-- The first version whose parts start with the numbers. -/
def firstOf : List Nat → Version
  | [] => ⟨0, 0, 0⟩
  | [major] => ⟨major, 0, 0⟩
  | [major, minor] => ⟨major, minor, 0⟩
  | major :: minor :: patch :: _ => ⟨major, minor, patch⟩

/-- The first version past all those whose parts start with the numbers. -/
def pastOf : List Nat → Option Version
  | [] => none
  | [major] => some ⟨major + 1, 0, 0⟩
  | [major, minor] => some ⟨major, minor + 1, 0⟩
  | major :: minor :: patch :: _ => some ⟨major, minor, patch + 1⟩

/-- The numbers up to the left-most one that is not zero. -/
def significant : List Nat → List Nat
  | 0 :: numbers => 0 :: significant numbers
  | n :: _ => [n]
  | [] => []

/-! ## The notation -/

inductive Relation
  | gt
  | ge
  | lt
  | le
  | eq
  deriving DecidableEq, Repr

inductive Comparator
  | plain (p : Partial)
  | caret (p : Partial)
  | tilde (p : Partial)
  | compare (r : Relation) (p : Partial)

/-- What stands between two comparators of a conjunction. -/
structure Separator where
  chars : List Char
  nonempty : chars ≠ []
  only : ∀ c ∈ chars, c = ' ' ∨ c = ','

/-- One alternative of a range; a hyphen has `before + 1` and `after + 1` blanks around it. -/
inductive Alternative
  | hyphen (low : Partial) (before after : Nat) (high : Partial)
  | all (first : Comparator) (rest : List (Separator × Comparator))

/-- An alternative with the blanks around it. -/
structure Branch where
  before : Nat
  alternative : Alternative
  after : Nat

/-- Alternatives, between which stand two bars. -/
abbrev Range := List Branch

/-! ## Its meaning -/

def Relation.Allows (numbers : List Nat) (v : Version) : Relation → Prop
  | .gt => ¬ Below v (pastOf numbers)
  | .ge => firstOf numbers ≤ v
  | .lt => v < firstOf numbers
  | .le => Below v (pastOf numbers)
  | .eq => Window.Admits ⟨firstOf numbers, pastOf numbers⟩ v

/-- A caret allows what does not change the left-most number that is not zero, a tilde what
does not change the first two numbers. -/
def Comparator.Allows (v : Version) : Comparator → Prop
  | .plain p => Window.Admits ⟨firstOf p.numbers, pastOf p.numbers⟩ v
  | .caret p => Window.Admits ⟨firstOf p.numbers, pastOf (significant p.numbers)⟩ v
  | .tilde p => Window.Admits ⟨firstOf p.numbers, pastOf (p.numbers.take 2)⟩ v
  | .compare r p => r.Allows p.numbers v

/-- A hyphen joins the first version of the one end with all those of the other. -/
def Alternative.Allows (v : Version) : Alternative → Prop
  | .hyphen low _ _ high => Window.Admits ⟨firstOf low.numbers, pastOf high.numbers⟩ v
  | .all first rest => first.Allows v ∧ ∀ c ∈ rest, c.2.Allows v

def Range.Allows (range : Range) (v : Version) : Prop := ∃ branch ∈ range, branch.alternative.Allows v

/-! ## Its text -/

def Wildcard.char : Wildcard → Char
  | .x => 'x'
  | .X => 'X'
  | .star => '*'

def Part.text : Part → List Char
  | .number n => Nat.toDigits 10 n
  | .wild w => [w.char]

def Partial.text (p : Partial) : List Char := ['.'].intercalate (p.parts.map Part.text)

def Relation.text : Relation → List Char
  | .gt => ['>']
  | .ge => ['>', '=']
  | .lt => ['<']
  | .le => ['<', '=']
  | .eq => ['=']

def Comparator.text : Comparator → List Char
  | .plain p => p.text
  | .caret p => '^' :: p.text
  | .tilde p => '~' :: p.text
  | .compare r p => r.text ++ p.text

/-- The version behind the operator. -/
def Comparator.base : Comparator → Partial
  | .plain p | .caret p | .tilde p | .compare _ p => p

def blanks (n : Nat) : List Char := List.replicate n ' '

/-- The comparators after the first, each behind its separator. -/
def restText : List (Separator × Comparator) → List Char
  | [] => []
  | (separator, c) :: rest => separator.chars ++ c.text ++ restText rest

def Alternative.text : Alternative → List Char
  | .hyphen low before after high => low.text ++ blanks (before + 1) ++ '-' :: (blanks (after + 1) ++ high.text)
  | .all first rest => first.text ++ restText rest

def Branch.text (branch : Branch) : List Char :=
  blanks branch.before ++ branch.alternative.text ++ blanks branch.after

def Range.text (range : Range) : List Char := ['|', '|'].intercalate (range.map Branch.text)

/-! ## The characters of the notation -/

theorem isDigit_of_mem_toDigits {n : Nat} {c : Char} (h : c ∈ Nat.toDigits 10 n) : c.isDigit = true :=
  Nat.isDigit_of_mem_toDigits (by decide) (by decide) h

/-- A character that stands in a version of the notation. -/
def InVersion (c : Char) : Prop := c.isDigit = true ∨ c ∈ ['.', 'x', 'X', '*']

theorem inVersion_of_mem_text {part : Part} {c : Char} (h : c ∈ part.text) : InVersion c := by
  cases part with
  | number n => exact .inl (isDigit_of_mem_toDigits h)
  | wild w =>
      obtain rfl := List.mem_singleton.1 h
      cases w <;> exact .inr (by decide)

theorem toNat_of_isDigit {c : Char} (h : c.isDigit = true) : 48 ≤ c.toNat ∧ c.toNat ≤ 57 := by
  simpa [Char.isDigit, UInt32.le_iff_toNat_le] using h

theorem InVersion.toNat_mem {c : Char} (h : InVersion c) :
    48 ≤ c.toNat ∧ c.toNat ≤ 57 ∨ c.toNat = 46 ∨ c.toNat = 120 ∨ c.toNat = 88 ∨ c.toNat = 42 := by
  rcases h with h | h
  · exact .inl (toNat_of_isDigit h)
  · simp only [List.mem_cons, List.not_mem_nil, or_false] at h
    rcases h with rfl | rfl | rfl | rfl <;> decide

theorem InVersion.isSpace {c : Char} (h : InVersion c) : Text.isSpace c = false := by
  have := h.toNat_mem
  rw [← Bool.not_eq_true]
  simp only [Text.isSpace, Bool.or_eq_true, Bool.and_eq_true, decide_eq_true_eq, beq_iff_eq]
  omega

theorem InVersion.ne {c c' : Char} (h : InVersion c)
    (hc' : ¬ (48 ≤ c'.toNat ∧ c'.toNat ≤ 57 ∨ c'.toNat = 46 ∨ c'.toNat = 120 ∨ c'.toNat = 88 ∨ c'.toNat = 42)) :
    c ≠ c' := by
  rintro rfl
  exact hc' h.toNat_mem

/-- What a text is made of when its parts are, and what joins them. -/
theorem forall_mem_intercalate {P : Char → Prop} {s : Char} {parts : List (List Char)} (hs : P s)
    (h : ∀ part ∈ parts, ∀ c ∈ part, P c) : ∀ c ∈ [s].intercalate parts, P c := by
  induction parts with
  | nil => simp
  | cons part parts ih =>
      have hpart := h part (List.mem_cons_self ..)
      have hparts := ih fun part hmem => h part (List.mem_cons_of_mem _ hmem)
      by_cases hnil : parts = []
      · simpa [hnil] using hpart
      · intro c hc
        rw [List.intercalate_cons_of_ne_nil hnil] at hc
        simp only [List.mem_append, List.mem_singleton] at hc
        rcases hc with (hc | rfl) | hc
        · exact hpart c hc
        · exact hs
        · exact hparts c hc

theorem inVersion_of_mem_ofPart {p : Partial} : ∀ c ∈ p.text, InVersion c := by
  refine forall_mem_intercalate (.inr (by decide)) ?_
  intro part hmem c hc
  obtain ⟨part, -, rfl⟩ := List.mem_map.1 hmem
  exact inVersion_of_mem_text hc

theorem Part.text_ne_nil (part : Part) : part.text ≠ [] := by
  cases part with
  | number n => exact Nat.toDigits_ne_nil
  | wild w => exact nofun

/-- The first character of a version in the notation. -/
theorem Partial.exists_text (p : Partial) : ∃ c rest, p.text = c :: rest ∧ InVersion c := by
  have hne : p.text ≠ [] := by
    obtain ⟨part, parts, hparts⟩ := List.exists_cons_of_ne_nil p.nonempty
    have hfirst : part.text ≠ [] := Part.text_ne_nil part
    simp only [Partial.text, hparts, List.map_cons]
    cases parts with
    | nil => simpa using hfirst
    | cons next parts =>
        rw [List.map_cons, List.intercalate_cons_of_ne_nil (by simp)]
        simp [hfirst]
  obtain ⟨c, rest, htext⟩ := List.exists_cons_of_ne_nil hne
  exact ⟨c, rest, htext, inVersion_of_mem_ofPart c (htext ▸ List.mem_cons_self ..)⟩

theorem InVersion.ne_v {c : Char} (h : InVersion c) : c ≠ 'v' ∧ c ≠ 'V' :=
  ⟨h.ne (by decide), h.ne (by decide)⟩

/-- No character of a version is stripped. -/
theorem strip_of_inVersion {cs : List Char} (h : ∀ c ∈ cs, InVersion c) : Text.strip cs = cs := by
  have hstrip : Text.strip ([] ++ cs ++ []) = cs := Text.strip_append nofun nofun
    (fun c hc => (h c (List.mem_of_mem_head? hc)).isSpace) (fun c hc => (h c (List.mem_of_getLast? hc)).isSpace)
  simpa using hstrip

theorem Part.dot_not_mem_text (part : Part) : '.' ∉ part.text := by
  cases part with
  | number n =>
      intro hmem
      exact absurd (isDigit_of_mem_toDigits hmem) (by decide)
  | wild w => cases w <;> decide

theorem lower_toDigits (n : Nat) : Text.lower (Nat.toDigits 10 n) ∉ [['x'], ['*']] := by
  obtain ⟨c, rest, hdigits⟩ := List.exists_cons_of_ne_nil (Nat.toDigits_ne_nil (n := n) (b := 10))
  have hc : c.isDigit = true := isDigit_of_mem_toDigits (n := n) (hdigits ▸ List.mem_cons_self ..)
  have hrange := toNat_of_isDigit hc
  have hlower : Text.lowerChar c = c := by
    rw [Text.lowerChar, if_neg (by omega), if_neg (by omega)]
  rw [hdigits, Text.lower, List.map_cons, hlower]
  intro hmem
  simp only [List.mem_cons, List.cons.injEq, List.not_mem_nil, or_false] at hmem
  rcases hmem with ⟨rfl, -⟩ | ⟨rfl, -⟩
  · exact absurd hc (by decide)
  · exact absurd hc (by decide)

/-- A character of a comparator. -/
def InComparator (c : Char) : Prop := InVersion c ∨ c ∈ ['^', '~', '>', '<', '=']

theorem InComparator.toNat_mem {c : Char} (h : InComparator c) :
    48 ≤ c.toNat ∧ c.toNat ≤ 57 ∨ c.toNat ∈ [46, 120, 88, 42, 94, 126, 62, 60, 61] := by
  rcases h with h | h
  · rcases h.toNat_mem with h | h | h | h | h
    · exact .inl h
    all_goals simp [h]
  · simp only [List.mem_cons, List.not_mem_nil, or_false] at h
    rcases h with rfl | rfl | rfl | rfl | rfl <;> decide

theorem InComparator.isSpace {c : Char} (h : InComparator c) : Text.isSpace c = false := by
  have := h.toNat_mem
  simp only [List.mem_cons, List.not_mem_nil, or_false] at this
  rw [← Bool.not_eq_true]
  simp only [Text.isSpace, Bool.or_eq_true, Bool.and_eq_true, decide_eq_true_eq, beq_iff_eq]
  omega

theorem InComparator.ne {c : Char} (h : InComparator c) : c ≠ ',' ∧ c ≠ '|' ∧ c ≠ '-' := by
  have := h.toNat_mem
  refine ⟨?_, ?_, ?_⟩
  all_goals
    rintro rfl
    revert this
    decide

theorem Comparator.exists_text (c : Comparator) : ∃ operator, c.text = operator ++ c.base.text ∧
    ∀ x ∈ operator, x ∈ ['^', '~', '>', '<', '='] := by
  cases c with
  | plain p => exact ⟨[], rfl, nofun⟩
  | caret p => exact ⟨['^'], rfl, by simp⟩
  | tilde p => exact ⟨['~'], rfl, by simp⟩
  | compare r p => exact ⟨r.text, rfl, by cases r <;> simp [Relation.text]⟩

theorem inComparator_of_mem {c : Comparator} : ∀ x ∈ c.text, InComparator x := by
  obtain ⟨operator, htext, hoperator⟩ := c.exists_text
  intro x hx
  rw [htext, List.mem_append] at hx
  rcases hx with hx | hx
  · exact .inr (hoperator x hx)
  · exact .inl (inVersion_of_mem_ofPart x hx)

theorem Partial.text_ne_nil (p : Partial) : p.text ≠ [] := by
  obtain ⟨c, rest, htext, -⟩ := p.exists_text
  exact htext ▸ nofun

theorem Comparator.text_ne_nil (c : Comparator) : c.text ≠ [] := by
  obtain ⟨operator, htext, -⟩ := c.exists_text
  simp [htext, c.base.text_ne_nil]

/-- A character of a conjunction. -/
def InConjunction (c : Char) : Prop := InComparator c ∨ c = ' ' ∨ c = ','

theorem inConjunction_of_mem_restText {rest : List (Separator × Comparator)} :
    ∀ x ∈ restText rest, InConjunction x := by
  induction rest with
  | nil => exact nofun
  | cons next rest ih =>
      intro x hx
      simp only [restText, List.mem_append] at hx
      rcases hx with (hx | hx) | hx
      · exact .inr (next.1.only x hx)
      · exact .inl (inComparator_of_mem x hx)
      · exact ih x hx

/-- Every alternative ends with a version. -/
theorem restText_append (first : Comparator) (rest : List (Separator × Comparator)) :
    ∃ front last, first.text ++ restText rest = front ++ Comparator.text last := by
  induction rest generalizing first with
  | nil => exact ⟨[], first, List.append_nil _⟩
  | cons next rest ih =>
      obtain ⟨front, last, htext⟩ := ih next.2
      refine ⟨first.text ++ next.1.chars ++ front, last, ?_⟩
      rw [List.append_assoc, ← htext]
      simp [restText]

end SemVer
end Lib
