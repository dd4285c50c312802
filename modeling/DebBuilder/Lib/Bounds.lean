import Mathlib

/-!
# Bounds from below

Values are ordered by a total preorder: two values may be equal in the order without
being the same.  A requirement bounds a value from below, or only asks that there is one;
of several requirements the strictest one says as much as all of them.

## Main definitions

* `TotalPreorder` — a relation by which any two values compare.
* `TotalPreorder.Meets` — a value meets a bound.
* `TotalPreorder.Weaker` — what meets one bound meets the other.

## Main statements

* `TotalPreorder.weaker_iff` — the bounds are ordered as their values, no bound being the
  weakest.
-/

namespace Lib

/-- A relation by which any two values compare. -/
structure TotalPreorder (V : Type) where
  le : V → V → Prop
  total : ∀ v w, le v w ∨ le w v
  trans : ∀ {u v w}, le u v → le v w → le u w

namespace TotalPreorder
variable {V : Type} (order : TotalPreorder V) {a b c : Option V} {v w : V}

theorem refl (v : V) : order.le v v := (order.total v v).elim id id

variable {order} in
theorem le_of_not_le (h : ¬ order.le v w) : order.le w v := (order.total v w).resolve_left h

/-- The value is not below the bound. -/
def Meets : Option V → V → Prop
  | none, _ => True
  | some bound, v => order.le bound v

@[simp] theorem meets_none : order.Meets none v := trivial

@[simp] theorem meets_some : order.Meets (some w) v ↔ order.le w v := Iff.rfl

/-- What meets `b` meets `a`. -/
def Weaker (a b : Option V) : Prop := ∀ v, order.Meets b v → order.Meets a v

theorem Weaker.refl (a : Option V) : order.Weaker a a := fun _ h => h

variable {order} in
theorem Weaker.trans (hab : order.Weaker a b) (hbc : order.Weaker b c) : order.Weaker a c :=
  fun v h => hab v (hbc v h)

theorem none_weaker (b : Option V) : order.Weaker none b := fun _ _ => trivial

theorem weaker_iff : order.Weaker (some v) (some w) ↔ order.le v w := by
  constructor
  · intro h
    exact h w (order.refl w)
  · intro h u hu
    exact order.trans h hu

end TotalPreorder
end Lib
