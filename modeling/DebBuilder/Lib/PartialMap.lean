import Mathlib

/-!
# Partial maps that only grow

A store from keys to values in which nothing is overwritten.

## Main definitions

* `PartialMap.write` — a map with one more entry.
* `PartialMap.Adds` — a map with more entries, of an allowed kind.
-/

namespace Lib
namespace PartialMap

variable {κ ν : Type} {allowed allowed' : κ → ν → Prop} {m m' m'' : κ → Option ν}

def write [DecidableEq κ] (m : κ → Option ν) (key : κ) (value : ν) : κ → Option ν := fun other =>
  if other = key then some value else m other

/-- Nothing that was there is changed, and what is new is allowed. -/
def Adds (allowed : κ → ν → Prop) (m m' : κ → Option ν) : Prop :=
  ∀ key, m' key = m key ∨ m key = none ∧ ∃ value, m' key = some value ∧ allowed key value

theorem Adds.refl : Adds allowed m m := fun _ => .inl rfl

theorem Adds.mono (h : Adds allowed m m') (himp : ∀ key value, allowed key value → allowed' key value) :
    Adds allowed' m m' := by
  intro key
  rcases h key with hsame | ⟨hnone, value, hvalue, hallowed⟩
  · exact .inl hsame
  · exact .inr ⟨hnone, value, hvalue, himp key value hallowed⟩

theorem Adds.kept (h : Adds allowed m m') {key : κ} {value : ν} (hvalue : m key = some value) : m' key = some value := by
  rcases h key with hsame | ⟨hnone, _⟩
  · rw [hsame, hvalue]
  · rw [hvalue] at hnone
    exact nomatch hnone

theorem Adds.none_of_none (h : Adds allowed m m') {key : κ} (hnone : m' key = none) : m key = none := by
  cases hvalue : m key with
  | none => rfl
  | some value =>
      rw [h.kept hvalue] at hnone
      exact nomatch hnone

theorem Adds.trans (h : Adds allowed m m') (h' : Adds allowed m' m'') : Adds allowed m m'' := by
  intro key
  rcases h' key with hsame | ⟨hnone, value, hvalue, hallowed⟩
  · rcases h key with hsame' | ⟨hnone, value, hvalue, hallowed⟩
    · exact .inl (hsame.trans hsame')
    · exact .inr ⟨hnone, value, hsame.trans hvalue, hallowed⟩
  · exact .inr ⟨h.none_of_none hnone, value, hvalue, hallowed⟩

theorem adds_write [DecidableEq κ] {key : κ} {value : ν} (hnone : m key = none) (hallowed : allowed key value) :
    Adds allowed m (write m key value) := by
  intro other
  by_cases hother : other = key
  · subst hother
    exact .inr ⟨hnone, value, by simp [write], hallowed⟩
  · exact .inl (by simp [write, hother])

end PartialMap
end Lib
