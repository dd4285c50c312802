import Mathlib

/-!
# Computations that can fail

What it means that a computation in `Except` succeeds, former by former: a sequence
succeeds when both parts do, a test when nothing is broken, a list when each element
does.

## Main definitions

* `refuse`, `require`, `demand` — the tests of a computation.
* `RaisesOnly` — what a computation may fail with.
-/

namespace Lib

variable {ε α β : Type}

/-- `if broken: raise error` -/
def refuse (broken : Prop) [Decidable broken] (error : ε) : Except ε Unit :=
  if broken then .error error else .ok ()

/-- The test whose proof is needed afterwards. -/
def require (holds : Prop) [Decidable holds] (error : ε) : Except ε (PLift holds) :=
  if h : holds then .ok ⟨h⟩ else .error error

/-- The value that must be there. -/
def demand (error : ε) : Option α → Except ε α
  | some value => .ok value
  | none => .error error

theorem bind_eq_ok {x : Except ε α} {f : α → Except ε β} {b : β} :
    (x >>= f) = .ok b ↔ ∃ a, x = .ok a ∧ f a = .ok b := by
  cases x <;> simp [bind, Except.bind]

theorem map_eq_ok {x : Except ε α} {f : α → β} {b : β} :
    f <$> x = .ok b ↔ ∃ a, x = .ok a ∧ f a = b := by
  cases x <;> simp [Functor.map, Except.map]

theorem pure_eq_ok {a b : α} : (pure a : Except ε α) = .ok b ↔ a = b := by
  simp [pure, Except.pure]

theorem throw_eq_ok {e : ε} {b : α} : (throw e : Except ε α) = .ok b ↔ False := by
  simp [throw, throwThe, MonadExceptOf.throw]

theorem refuse_eq_ok {broken : Prop} [Decidable broken] {error : ε} {u : Unit} :
    refuse broken error = .ok u ↔ ¬ broken := by
  by_cases h : broken <;> simp [refuse, h]

theorem demand_eq_ok {error : ε} {o : Option α} {a : α} : demand error o = .ok a ↔ o = some a := by
  cases o <;> simp [demand]

theorem bind_eq_error {x : Except ε α} {f : α → Except ε β} {e : ε} :
    (x >>= f) = .error e ↔ x = .error e ∨ ∃ a, x = .ok a ∧ f a = .error e := by
  cases x <;> simp [bind, Except.bind]

theorem pure_eq_error {a : α} {e : ε} : (pure a : Except ε α) = .error e ↔ False := by
  simp [pure, Except.pure]

theorem refuse_eq_error {broken : Prop} [Decidable broken] {error e : ε} :
    refuse broken error = .error e ↔ broken ∧ error = e := by
  by_cases h : broken <;> simp [refuse, h]

theorem mapError_eq_ok {ε' : Type} {x : Except ε α} {f : ε → ε'} {a : α} : x.mapError f = .ok a ↔ x = .ok a := by
  cases x <;> simp [Except.mapError]

theorem mapError_eq_error {ε' : Type} {x : Except ε α} {f : ε → ε'} {e : ε'} :
    x.mapError f = .error e ↔ ∃ e', x = .error e' ∧ f e' = e := by
  cases x <;> simp [Except.mapError]

/-- Each element of a list is computed. -/
theorem mapM_eq_ok {f : α → Except ε β} {xs : List α} {ys : List β} :
    xs.mapM f = .ok ys ↔ List.Forall₂ (fun x y => f x = .ok y) xs ys := by
  induction xs generalizing ys with
  | nil =>
      rw [List.mapM_nil, pure_eq_ok, List.forall₂_nil_left_iff]
      exact eq_comm
  | cons x xs ih =>
      simp only [List.mapM_cons, bind_eq_ok, pure_eq_ok, List.forall₂_cons_left_iff]
      constructor
      · rintro ⟨y, hy, ys', hys, rfl⟩
        exact ⟨y, ys', hy, ih.1 hys, rfl⟩
      · rintro ⟨y, ys', hy, hys, rfl⟩
        exact ⟨y, hy, ys', ih.2 hys, rfl⟩

/-- What was computed for the elements of a list. -/
theorem mem_of_mapM_eq_ok {f : α → Except ε β} {xs : List α} {ys : List β} {y : β}
    (h : xs.mapM f = .ok ys) : y ∈ ys ↔ ∃ x ∈ xs, f x = .ok y := by
  have hall := mapM_eq_ok.1 h
  clear h
  induction hall with
  | nil => simp
  | cons hxy _ ih =>
      constructor
      · intro hy
        rcases List.mem_cons.1 hy with rfl | hy
        · exact ⟨_, List.mem_cons_self, hxy⟩
        · obtain ⟨x, hx, hfx⟩ := ih.1 hy
          exact ⟨x, List.mem_cons_of_mem _ hx, hfx⟩
      · rintro ⟨x, hx, hfx⟩
        rcases List.mem_cons.1 hx with rfl | hx
        · rw [Except.ok.inj (hfx.symm.trans hxy)]
          exact List.mem_cons_self
        · exact List.mem_cons_of_mem _ (ih.2 ⟨x, hx, hfx⟩)

/-- A list is computed when each of its elements is. -/
theorem exists_mapM_eq_ok {f : α → Except ε β} {xs : List α} :
    (∃ ys, xs.mapM f = .ok ys) ↔ ∀ x ∈ xs, ∃ y, f x = .ok y := by
  induction xs with
  | nil => simp [pure_eq_ok]
  | cons x xs ih =>
      simp only [mapM_eq_ok, List.forall₂_cons_left_iff, List.forall_mem_cons] at ih ⊢
      constructor
      · rintro ⟨_, y, ys, hy, hys, rfl⟩
        exact ⟨⟨y, hy⟩, ih.1 ⟨ys, hys⟩⟩
      · rintro ⟨⟨y, hy⟩, hrest⟩
        obtain ⟨ys, hys⟩ := ih.2 hrest
        exact ⟨_, y, ys, hy, hys, rfl⟩

/-- Where the computation of a list fails. -/
theorem mapM_eq_error {f : α → Except ε β} {xs : List α} {e : ε} :
    xs.mapM f = .error e ↔
      ∃ earlier x later, xs = earlier ++ x :: later ∧ (∀ y ∈ earlier, ∃ b, f y = .ok b) ∧ f x = .error e := by
  induction xs with
  | nil => simp [pure, Except.pure]
  | cons x xs ih =>
      rw [List.mapM_cons]
      constructor
      · intro h
        cases hx : f x with
        | error e' =>
            obtain rfl : e' = e := by simpa [hx, bind, Except.bind] using h
            exact ⟨[], x, xs, rfl, by simp, hx⟩
        | ok y =>
            have hxs : xs.mapM f = .error e := by
              cases hxs : xs.mapM f with
              | error e' => simpa [hx, hxs, bind, Except.bind] using h
              | ok ys => simp [hx, hxs, bind, Except.bind, pure, Except.pure] at h
            obtain ⟨earlier, x', later, rfl, hearlier, hx'⟩ := ih.1 hxs
            refine ⟨x :: earlier, x', later, rfl, ?_, hx'⟩
            exact List.forall_mem_cons.2 ⟨⟨y, hx⟩, hearlier⟩
      · rintro ⟨earlier, x', later, hxs, hearlier, hx'⟩
        cases earlier with
        | nil =>
            obtain ⟨rfl, rfl⟩ := List.cons.inj hxs
            simp [hx', bind, Except.bind]
        | cons z earlier =>
            obtain ⟨rfl, rfl⟩ := List.cons.inj hxs
            obtain ⟨⟨y, hy⟩, hrest⟩ := List.forall_mem_cons.1 hearlier
            rw [hy, ih.2 ⟨earlier, x', later, rfl, hrest, hx'⟩]
            rfl

/-! ## Errors -/

/-- The computation fails with nothing else. -/
def RaisesOnly (P : ε → Prop) (x : Except ε α) : Prop := ∀ e, x = .error e → P e

section
variable {P Q : ε → Prop} {x : Except ε α}

theorem raisesOnly_ok {a : α} : RaisesOnly P (.ok a : Except ε α) := by
  intro e h
  cases h

theorem raisesOnly_pure {a : α} : RaisesOnly P (pure a : Except ε α) := raisesOnly_ok

theorem raisesOnly_error {e : ε} (h : P e) : RaisesOnly P (.error e : Except ε α) := by
  intro e' he
  rwa [← Except.error.inj he]

theorem raisesOnly_refuse {broken : Prop} [Decidable broken] {error : ε} (h : P error) :
    RaisesOnly P (refuse broken error) := by
  intro e he
  exact (refuse_eq_error.1 he).2 ▸ h

theorem raisesOnly_demand {o : Option α} {error : ε} (h : P error) : RaisesOnly P (demand error o) := by
  cases o with
  | none => exact raisesOnly_error h
  | some a => exact raisesOnly_ok

theorem RaisesOnly.bind {f : α → Except ε β} (hx : RaisesOnly P x) (hf : ∀ a, x = .ok a → RaisesOnly P (f a)) :
    RaisesOnly P (x >>= f) := by
  intro e he
  rcases bind_eq_error.1 he with he | ⟨a, ha, he⟩
  · exact hx e he
  · exact hf a ha e he

theorem RaisesOnly.mono (hx : RaisesOnly P x) (h : ∀ e, P e → Q e) : RaisesOnly Q x :=
  fun e he => h e (hx e he)

end

end Lib
