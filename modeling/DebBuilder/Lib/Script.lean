import Mathlib

/-!
# Computations whose effects outlive an exception

A script changes a state and may raise; what it changed before it raised stays.  What a
script ends in is found by walking through it: each former has one rule, and the rules
together turn an assertion about the end into one about the start.

## Main definitions

* `Script` — a script, with `raise`, `get`, `update` and `handle`.
* `Script.Ends` — how a script ends that starts in a state.
* `Script.Keeps` — an invariant of the state that the script keeps, however it ends.
-/

namespace Lib

/-- A script over the state `σ` that raises `ε` or returns `α`. -/
def Script (σ ε α : Type) := σ → Except ε α × σ

namespace Script
variable {σ ε ε' α β : Type}

/-- Sequencing: an exception skips the rest. -/
def bind (p : Script σ ε α) (f : α → Script σ ε β) : Script σ ε β := fun s =>
  match p s with
  | (.ok a, s') => f a s'
  | (.error e, s') => (.error e, s')

instance : Monad (Script σ ε) where
  pure a := fun s => (.ok a, s)
  bind := bind

def raise (e : ε) : Script σ ε α := fun s => (.error e, s)

def get : Script σ ε σ := fun s => (.ok s, s)

def update (f : σ → σ) : Script σ ε Unit := fun s => (.ok (), f s)

def ofExcept (r : Except ε α) : Script σ ε α := fun s => (r, s)

/-- `try: p  except e: h e` -/
def handle (p : Script σ ε α) (h : ε → Script σ ε' α) : Script σ ε' α := fun s =>
  match p s with
  | (.ok a, s') => (.ok a, s')
  | (.error e, s') => h e s'

/-- The script ends in `Q` when it starts in `s`. -/
def Ends (p : Script σ ε α) (Q : Except ε α → σ → Prop) (s : σ) : Prop := Q (p s).1 (p s).2

variable {Q Q' : Except ε α → σ → Prop} {s : σ}

@[simp] theorem ends_pure {a : α} : (pure a : Script σ ε α).Ends Q s ↔ Q (.ok a) s := Iff.rfl

@[simp] theorem ends_raise {e : ε} : (raise e : Script σ ε α).Ends Q s ↔ Q (.error e) s := Iff.rfl

@[simp] theorem ends_get {Q : Except ε σ → σ → Prop} : (get : Script σ ε σ).Ends Q s ↔ Q (.ok s) s := Iff.rfl

@[simp] theorem ends_update {f : σ → σ} {Q : Except ε Unit → σ → Prop} :
    (update f : Script σ ε Unit).Ends Q s ↔ Q (.ok ()) (f s) := Iff.rfl

@[simp] theorem ends_ofExcept {r : Except ε α} : (ofExcept r : Script σ ε α).Ends Q s ↔ Q r s := Iff.rfl

/-- What a script goes on with after a result. -/
def Goes (f : α → Script σ ε β) (Q : Except ε β → σ → Prop) : Except ε α → σ → Prop
  | .ok a, s => (f a).Ends Q s
  | .error e, s => Q (.error e) s

@[simp] theorem goes_ok {f : α → Script σ ε β} {Q : Except ε β → σ → Prop} {a : α} :
    Goes f Q (.ok a) s ↔ (f a).Ends Q s := Iff.rfl

@[simp] theorem goes_error {f : α → Script σ ε β} {Q : Except ε β → σ → Prop} {e : ε} :
    Goes f Q (.error e) s ↔ Q (.error e) s := Iff.rfl

/-- The rule of sequencing. -/
@[simp] theorem ends_bind {p : Script σ ε α} {f : α → Script σ ε β} {Q : Except ε β → σ → Prop} :
    (p >>= f).Ends Q s ↔ p.Ends (Goes f Q) s := by
  simp only [Ends, Bind.bind, bind]
  rcases p s with ⟨a | e, s'⟩ <;> exact Iff.rfl

/-- A run of a script that is known. -/
theorem ends_of_eq {p : Script σ ε α} {r : Except ε α} {s' : σ} (h : p s = (r, s')) : p.Ends Q s ↔ Q r s' := by
  rw [Ends, h]

/-- The rule of `try`. -/
theorem ends_handle {p : Script σ ε α} {h : ε → Script σ ε' α} {Q : Except ε' α → σ → Prop} :
    (p.handle h).Ends Q s ↔
      p.Ends (fun r s' => match r with | .ok a => Q (.ok a) s' | .error e => (h e).Ends Q s') s := by
  simp only [Ends, handle]
  rcases p s with ⟨a | e, s'⟩ <;> exact Iff.rfl

/-- The rule of consequence. -/
theorem Ends.mono {p : Script σ ε α} (h : p.Ends Q s) (hQ : ∀ r s, Q r s → Q' r s) : p.Ends Q' s :=
  hQ _ _ h

/-- The rule of sequencing, with an assertion between the two. -/
theorem Ends.seq {p : Script σ ε α} {f : α → Script σ ε β} {R : Except ε β → σ → Prop} (h : p.Ends Q s)
    (hok : ∀ a s, Q (.ok a) s → (f a).Ends R s) (herror : ∀ e s, Q (.error e) s → R (.error e) s) :
    (p >>= f).Ends R s := by
  rw [ends_bind]
  apply h.mono
  rintro (e | a) s' hq
  · exact herror e s' hq
  · exact hok a s' hq

theorem Ends.and {p : Script σ ε α} (h : p.Ends Q s) (h' : p.Ends Q' s) :
    p.Ends (fun r s => Q r s ∧ Q' r s) s := ⟨h, h'⟩

/-! ## Invariants -/

/-- The script keeps the invariant, however it ends. -/
def Keeps (I : σ → Prop) (p : Script σ ε α) : Prop := ∀ s, I s → p.Ends (fun _ s' => I s') s

section
variable {I : σ → Prop}

theorem keeps_pure {a : α} : Keeps I (pure a : Script σ ε α) := fun _ h => h

theorem keeps_raise {e : ε} : Keeps I (raise e : Script σ ε α) := fun _ h => h

theorem keeps_get : Keeps I (get : Script σ ε σ) := fun _ h => h

theorem keeps_ofExcept {r : Except ε α} : Keeps I (ofExcept r : Script σ ε α) := fun _ h => h

theorem keeps_update {f : σ → σ} (h : ∀ s, I s → I (f s)) : Keeps I (update f : Script σ ε Unit) := h

theorem Keeps.bind {p : Script σ ε α} {f : α → Script σ ε β} (hp : Keeps I p) (hf : ∀ a, Keeps I (f a)) :
    Keeps I (p >>= f) := by
  intro s hs
  exact (hp s hs).seq (fun a s' hs' => hf a s' hs') fun _ _ hs' => hs'

theorem Keeps.handle {p : Script σ ε α} {h : ε → Script σ ε' α} (hp : Keeps I p) (hh : ∀ e, Keeps I (h e)) :
    Keeps I (p.handle h) := by
  intro s hs
  rw [ends_handle]
  apply (hp s hs).mono
  rintro (e | a) s' hs'
  · exact hh e s' hs'
  · exact hs'

/-- What is known of the result may be used for the rest. -/
theorem keeps_bind_of {p : Script σ ε α} {f : α → Script σ ε β} {P : α → Prop}
    (hp : ∀ s, I s → p.Ends (fun r s' => I s' ∧ ∀ a, r = .ok a → P a) s) (hf : ∀ a, P a → Keeps I (f a)) :
    Keeps I (p >>= f) := by
  intro s hs
  exact (hp s hs).seq (fun a s' hs' => hf a (hs'.2 a rfl) s' hs'.1) fun _ _ hs' => hs'.1

end

end Script
end Lib
