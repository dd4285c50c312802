import Mathlib

/-!
# Lists that come in chunks

A function of a list that is applied to one chunk after another gives what it gives on the
whole list when every cut between the chunks is clean for it.  For a function that a
transducer computes, whether a cut is clean is seen in the state at the cut.

## Main definitions

* `CutsClean` — every cut between the chunks is clean.
* `Transducer` — a state, what one item writes, and what is written at the end.

## Main statements

* `flatMap_of_cutsClean` — the whole list and its chunks give the same.
* `Transducer.run_append` — the cut of a run.
-/

namespace Lib

variable {α β σ : Type}

/-- Every cut of the chunks is clean, between a chunk and all that follows it. -/
def CutsClean (clean : List α → List α → Prop) : List (List α) → Prop
  | [] => True
  | chunk :: chunks => clean chunk chunks.flatten ∧ CutsClean clean chunks

instance (clean : List α → List α → Prop) [∀ x y, Decidable (clean x y)] :
    (chunks : List (List α)) → Decidable (CutsClean clean chunks)
  | [] => inferInstanceAs (Decidable True)
  | chunk :: chunks =>
      have := instDecidableCutsClean clean chunks
      inferInstanceAs (Decidable (clean chunk chunks.flatten ∧ CutsClean clean chunks))

section
variable {clean : List α → List α → Prop} {f : List α → List β} {chunks : List (List α)}

theorem flatMap_of_cutsClean (hnil : f [] = []) (hclean : ∀ x y, clean x y → f (x ++ y) = f x ++ f y)
    (h : CutsClean clean chunks) : f chunks.flatten = chunks.flatMap f := by
  induction chunks with
  | nil => exact hnil
  | cons chunk chunks ih =>
      rw [List.flatten_cons, hclean _ _ h.1, ih h.2, List.flatMap_cons]

/-- When the first cut that is not clean shows in what a chunk gives, all cuts are clean
where the chunks give what the whole list gives. -/
theorem cutsClean_of_flatMap (hclean : ∀ x y, clean x y → f (x ++ y) = f x ++ f y)
    (hcut : ∀ x y z, f (x ++ y) = f x ++ z → clean x y) (h : f chunks.flatten = chunks.flatMap f) :
    CutsClean clean chunks := by
  induction chunks with
  | nil => trivial
  | cons chunk chunks ih =>
      rw [List.flatten_cons, List.flatMap_cons] at h
      have hfirst := hcut _ _ _ h
      refine ⟨hfirst, ih ?_⟩
      rw [hclean _ _ hfirst] at h
      exact List.append_cancel_left h

/-- Where no cut makes a whole list give more, the chunks give at least as many items. -/
theorem length_flatten_le (hnil : f [] = []) (hle : ∀ x y, (f (x ++ y)).length ≤ (f x).length + (f y).length)
    (chunks : List (List α)) : (f chunks.flatten).length ≤ (chunks.flatMap f).length := by
  induction chunks with
  | nil => simp [hnil]
  | cons chunk chunks ih =>
      have hfirst := hle chunk chunks.flatten
      rw [List.flatten_cons, List.flatMap_cons, List.length_append]
      omega

/-- When each cut that is not clean makes the whole list give fewer items, all cuts are clean
where the chunks give no more than the whole list. -/
theorem cutsClean_of_length (hnil : f [] = [])
    (hle : ∀ x y, (f (x ++ y)).length ≤ (f x).length + (f y).length)
    (hcut : ∀ x y, (f (x ++ y)).length = (f x).length + (f y).length → clean x y)
    (h : (chunks.flatMap f).length ≤ (f chunks.flatten).length) : CutsClean clean chunks := by
  induction chunks with
  | nil => trivial
  | cons chunk chunks ih =>
      rw [List.flatten_cons, List.flatMap_cons, List.length_append] at h
      have hfirst := hle chunk chunks.flatten
      have hrest := length_flatten_le hnil hle chunks
      constructor
      · apply hcut
        omega
      · apply ih
        omega

end

/-! ## Transducers -/

/-- What reads a list from left to right: `step` says what one item writes, and `finish` what
is written at the end. -/
structure Transducer (σ α β : Type) where
  start : σ
  step : σ → α → σ × List β
  finish : σ → List β

namespace Transducer
variable (T : Transducer σ α β)

/-- The state after a list. -/
def after (s : σ) : List α → σ
  | [] => s
  | a :: as => after (T.step s a).1 as

/-- What is written before the end. -/
def written (s : σ) : List α → List β
  | [] => []
  | a :: as => (T.step s a).2 ++ written (T.step s a).1 as

/-- All that is written, from a state. -/
def runFrom (s : σ) (as : List α) : List β := T.written s as ++ T.finish (T.after s as)

def run (as : List α) : List β := T.runFrom T.start as

@[simp] theorem runFrom_nil (s : σ) : T.runFrom s [] = T.finish s := rfl

@[simp] theorem runFrom_cons (s : σ) (a : α) (as : List α) :
    T.runFrom s (a :: as) = (T.step s a).2 ++ T.runFrom (T.step s a).1 as := by
  simp [runFrom, written, after]

theorem runFrom_append (s : σ) (x y : List α) :
    T.runFrom s (x ++ y) = T.written s x ++ T.runFrom (T.after s x) y := by
  induction x generalizing s with
  | nil => rfl
  | cons a x ih => simp [ih, written, after]

/-- The run over a list is the run up to a cut, and the run from the state there. -/
theorem run_append (x y : List α) :
    T.run (x ++ y) = T.written T.start x ++ T.runFrom (T.after T.start x) y :=
  T.runFrom_append T.start x y

end Transducer
end Lib
