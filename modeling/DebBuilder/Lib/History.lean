import Mathlib

/-!
# Histories

A history is a list of events, the last one first.

## Main definitions

* `Since` — something that is due has happened, and nothing that settles it has happened after it.
* `Lawful` — each event was allowed by what had happened before it.
-/

namespace Lib

variable {ε : Type} {settles due due' : ε → Prop} {allowed : ε → List ε → Prop} {e : ε} {history : List ε}

/-- Something `due` has happened, and nothing that `settles` it since. -/
def Since (settles due : ε → Prop) : List ε → Prop
  | [] => False
  | e :: history => due e ∨ ¬ settles e ∧ Since settles due history

@[simp] theorem since_nil : ¬ Since settles due [] := fun h => h

@[simp] theorem since_cons : Since settles due (e :: history) ↔ due e ∨ ¬ settles e ∧ Since settles due history := Iff.rfl

theorem since_iff :
    Since settles due history ↔
      ∃ after e before, history = after ++ e :: before ∧ due e ∧ ∀ x ∈ after, ¬ settles x := by
  induction history with
  | nil => simp
  | cons x history ih =>
      rw [since_cons, ih]
      constructor
      · rintro (hdue | ⟨hx, after, e, before, heq, he, hafter⟩)
        · exact ⟨[], x, history, rfl, hdue, by simp⟩
        · exact ⟨x :: after, e, before, by simp [heq], he, by simpa using ⟨hx, hafter⟩⟩
      · rintro ⟨after, e, before, heq, he, hafter⟩
        cases after with
        | nil =>
            have hx : x = e := (List.cons.inj heq).1
            exact .inl (hx ▸ he)
        | cons y after =>
            simp only [List.cons_append, List.cons.injEq] at heq
            obtain ⟨rfl, heq⟩ := heq
            have hparts := List.forall_mem_cons.1 hafter
            exact .inr ⟨hparts.1, after, e, before, heq, he, hparts.2⟩

/-- Each event was `allowed` by the history before it. -/
def Lawful (allowed : ε → List ε → Prop) : List ε → Prop
  | [] => True
  | e :: history => allowed e history ∧ Lawful allowed history

theorem Lawful.of_append {after : List ε} (h : Lawful allowed (after ++ e :: history)) : allowed e history := by
  induction after with
  | nil => exact h.1
  | cons x after ih => exact ih h.2

end Lib
