import Mathlib
import DebBuilder.Lib.Chunks

/-!
# Decoding of UTF-8 with replacement

What `bytes.decode("utf-8", errors="replace")` gives: the bytes that are no character are
replaced, the longest beginning of a character by one U+FFFD.  The decoder reads one byte after
another and remembers the character it is in.

## Main definitions

* `Utf8.Pending` — a character that is not finished.
* `Utf8.decode` — the text of a list of bytes.
* `Utf8.Between` — a cut that is not inside a character.

## Main statements

* `Utf8.decode_append`, `Utf8.between_of_length` — a list may be decoded in two parts when it
  is cut between characters, and only then.
-/

namespace Lib
namespace Utf8

/-- The beginning of a character: the code so far, the range in which the next byte continues
it, and the number of bytes that follow this one.  No byte of the range begins a character. -/
structure Pending where
  code : Nat
  low : Nat := 0x80
  high : Nat := 0xBF
  more : Nat := 0
  low_le : 0x80 ≤ low := by decide
  high_lt : high < 0xC2 := by decide

/-- The byte continues the character. -/
def Pending.Continues (p : Pending) (b : UInt8) : Prop := p.low ≤ b.toNat ∧ b.toNat ≤ p.high

instance (p : Pending) (b : UInt8) : Decidable (p.Continues b) := inferInstanceAs (Decidable (_ ∧ _))

/-- `\uFFFD` -/
def replacement : Char := Char.ofNat 0xFFFD

/-- The character that a lead byte begins. -/
def lead (b : Nat) : Option Pending :=
  if b < 0xC2 then none
  else if b < 0xE0 then some { code := b - 0xC0 }
  else if b = 0xE0 then some { code := 0, low := 0xA0, more := 1 }
  else if b = 0xED then some { code := 0xD, high := 0x9F, more := 1 }
  else if b < 0xF0 then some { code := b - 0xE0, more := 1 }
  else if b = 0xF0 then some { code := 0, low := 0x90, more := 2 }
  else if b < 0xF4 then some { code := b - 0xF0, more := 2 }
  else if b = 0xF4 then some { code := 4, high := 0x8F, more := 2 }
  else none

/-- A byte outside a character. -/
def begin (b : UInt8) : Option Pending × List Char :=
  if b.toNat < 0x80 then (none, [Char.ofNat b.toNat])
  else
    match lead b.toNat with
    | some p => (some p, [])
    | none => (none, [replacement])

/-- A byte that continues a character. -/
def Pending.next (p : Pending) (b : UInt8) : Option Pending × List Char :=
  let code := p.code * 64 + (b.toNat - 0x80)
  match p.more with
  | 0 => (none, [Char.ofNat code])
  | more + 1 => (some { code, more }, [])

/-- The decoder; its state is the character that is not finished. -/
def decoder : Transducer (Option Pending) UInt8 Char where
  start := none
  step
    | none, b => begin b
    | some p, b => if p.Continues b then p.next b else ((begin b).1, replacement :: (begin b).2)
  finish
    | none => []
    | some _ => [replacement]

/-- `bytes.decode("utf-8", errors="replace")` -/
def decode (bytes : List UInt8) : List Char := decoder.run bytes

/-- The cut is not inside a character: no character is unfinished, or what follows does not
continue it. -/
def Between (x y : List UInt8) : Prop :=
  ∀ p ∈ decoder.after none x, ∀ b ∈ y.head?, ¬ p.Continues b

instance (x y : List UInt8) : Decidable (Between x y) := inferInstanceAs (Decidable (∀ p ∈ _, ∀ b ∈ _, _))

example : decode [0x63, 0xC3, 0xA9, 0xE2, 0x82, 0xAC, 0xF0, 0x9F] = ['c', 'é', '€', replacement] := by decide

/-! ## The cuts -/

variable {p : Pending} {b : UInt8} {x y : List UInt8}

/-- What continues a character begins none. -/
theorem begin_of_continues (h : p.Continues b) : begin b = (none, [replacement]) := by
  have hlow := Nat.le_trans p.low_le h.1
  have hhigh := Nat.lt_of_le_of_lt h.2 p.high_lt
  have hlead : lead b.toNat = none := if_pos hhigh
  rw [begin, if_neg (by omega), hlead]

theorem runFrom_none_continues (h : p.Continues b) : decoder.runFrom none (b :: y) = replacement :: decoder.runFrom none y := by
  rw [Transducer.runFrom_cons]
  show (begin b).2 ++ decoder.runFrom (begin b).1 y = _
  rw [begin_of_continues h]
  rfl

theorem runFrom_some_continues (h : p.Continues b) :
    decoder.runFrom (some p) (b :: y) = (p.next b).2 ++ decoder.runFrom (p.next b).1 y := by
  rw [Transducer.runFrom_cons]
  show (if _ then _ else _ : Option Pending × List Char).2 ++ decoder.runFrom (if _ then _ else _ : Option Pending × List Char).1 y = _
  rw [if_pos h]

/-- A byte that does not continue a character ends it, and is read as if the text began there. -/
theorem runFrom_some (h : ∀ b ∈ y.head?, ¬ p.Continues b) :
    decoder.runFrom (some p) y = replacement :: decoder.runFrom none y := by
  cases y with
  | nil => rfl
  | cons b y =>
      have hb := h b rfl
      rw [Transducer.runFrom_cons, Transducer.runFrom_cons]
      show (if _ then _ else _ : Option Pending × List Char).2 ++ decoder.runFrom (if _ then _ else _ : Option Pending × List Char).1 y = _
      rw [if_neg hb]
      rfl

/-- A character that is not finished gives at most one character more. -/
theorem length_runFrom_some_le : (decoder.runFrom (some p) y).length ≤ (decoder.runFrom none y).length + 1 := by
  induction y generalizing p with
  | nil => exact Nat.le_refl _
  | cons b y ih =>
      by_cases h : p.Continues b
      · rw [runFrom_some_continues h, runFrom_none_continues h, Pending.next]
        cases p.more with
        | zero => simp
        | succ more => exact Nat.le_trans ih (by simp)
      · rw [runFrom_some (by simpa using h)]
        exact Nat.le_refl _

/-- The byte that continues a character gives less than it does at the beginning of a text. -/
theorem length_runFrom_continues (h : p.Continues b) :
    (decoder.runFrom (some p) (b :: y)).length < (decoder.runFrom none (b :: y)).length + 1 := by
  rw [runFrom_some_continues h, runFrom_none_continues h, Pending.next]
  cases p.more with
  | zero => simp
  | succ more => exact Nat.lt_succ_of_le length_runFrom_some_le

theorem decode_eq (x : List UInt8) : decode x = decoder.written none x ++ decoder.finish (decoder.after none x) := rfl

theorem decode_cut (x y : List UInt8) :
    decode (x ++ y) = decoder.written none x ++ decoder.runFrom (decoder.after none x) y := decoder.run_append x y

/-- Between characters, a list is decoded in two parts. -/
theorem decode_append (h : Between x y) : decode (x ++ y) = decode x ++ decode y := by
  rw [decode_cut, decode_eq x, List.append_assoc]
  congr 1
  cases hstate : decoder.after none x with
  | none => rfl
  | some p => exact runFrom_some (h p hstate)

theorem length_decode_append_le (x y : List UInt8) : (decode (x ++ y)).length ≤ (decode x).length + (decode y).length := by
  rw [decode_cut, decode_eq x, List.length_append, List.length_append]
  cases hstate : decoder.after none x with
  | none => simp [decoder, decode, Transducer.run]
  | some p =>
      have hle := length_runFrom_some_le (p := p) (y := y)
      have hfinish : (decoder.finish (some p)).length = 1 := rfl
      have hy : decode y = decoder.runFrom none y := rfl
      rw [hfinish, hy]
      omega

/-- A cut inside a character makes the two parts give more characters. -/
theorem between_of_length (h : (decode (x ++ y)).length = (decode x).length + (decode y).length) : Between x y := by
  intro p hp b hb hcontinues
  cases y with
  | nil => exact nomatch hb
  | cons c y =>
      obtain rfl : c = b := Option.some.inj hb
      rw [decode_cut, decode_eq x, List.length_append, List.length_append, hp] at h
      have hlt := length_runFrom_continues (y := y) hcontinues
      have hfinish : (decoder.finish (some p)).length = 1 := rfl
      have hy : decode (c :: y) = decoder.runFrom none (c :: y) := rfl
      rw [hfinish, hy] at h
      omega

/-- The chunks of a list of bytes give its text exactly when no cut is inside a character. -/
theorem decode_flatten_iff (chunks : List (List UInt8)) :
    chunks.flatMap decode = decode chunks.flatten ↔ CutsClean Between chunks := by
  constructor
  · intro h
    exact cutsClean_of_length rfl length_decode_append_le (fun _ _ => between_of_length) (Nat.le_of_eq (by rw [h]))
  · intro h
    exact (flatMap_of_cutsClean rfl (fun _ _ => decode_append) h).symm

end Utf8
end Lib
