import Mathlib

/-!
# Programs made of atomic sections

A thread's code as a tree of atomic sections over a shared state.  A section is
what the code does while it holds one lock, or one call of a store that is atomic
for every other thread; between two sections any other thread may run.

A section reads a *choice* as well as the state.  The choice stands for everything
the code does not decide: the outcome of a write, the result of a callback, the
expiry of a deadline.

## Main definitions

* `Prog σ χ ε α` — a program over the state `σ` with choices `χ`, raising `ε` and
  returning `α`.
* `Prog.act`, `Prog.actWhen` — one atomic section, and one that waits for a guard.
* `Prog.attempt`, `Prog.ensuring` — exceptions as values, and `try … finally`.
* `Prog.Ends` — total correctness of a program that no other thread disturbs.
-/

namespace Lib

/-- The code of one thread: it has returned, it has raised, or it is about to
perform an atomic section. -/
inductive Prog (σ χ ε α : Type) where
  | pure (a : α)
  | throw (e : ε)
  | atomic (enabled : χ → σ → Bool) (update : χ → σ → σ) (next : χ → σ → Prog σ χ ε α)

namespace Prog
variable {σ χ ε α β : Type}

/-- Sequencing: an exception skips the continuation. -/
def bind : Prog σ χ ε α → (α → Prog σ χ ε β) → Prog σ χ ε β
  | pure a, f => f a
  | throw e, _ => throw e
  | atomic en upd next, f => atomic en upd fun c s => (next c s).bind f

instance : Monad (Prog σ χ ε) where
  pure := pure
  bind := bind

/-- Run a program and return how it ended. -/
def attempt : Prog σ χ ε α → Prog σ χ ε (Except ε α)
  | pure a => pure (.ok a)
  | throw e => pure (.error e)
  | atomic en upd next => atomic en upd fun c s => (next c s).attempt

/-- The program that ends as `r` did. -/
def ofExcept : Except ε α → Prog σ χ ε α
  | .ok a => pure a
  | .error e => throw e

/-- `try: p  except e: h e`. -/
def handle (p : Prog σ χ ε α) (h : ε → Prog σ χ ε α) : Prog σ χ ε α := do
  match ← p.attempt with
  | .ok a => pure a
  | .error e => h e

/-- `try: p  finally: fin`; the way `p` ended is the way the whole ends. -/
def ensuring (p : Prog σ χ ε α) (fin : Prog σ χ ε Unit) : Prog σ χ ε α := do
  let r ← p.attempt
  fin
  ofExcept r

instance : MonadExceptOf ε (Prog σ χ ε) where
  throw := throw
  tryCatch := handle

/-- One atomic section, entered only when `en` allows it.  The state it leaves is
kept when it raises. -/
def actWhen (en : χ → σ → Bool) (f : χ → σ → Except ε α × σ) : Prog σ χ ε α :=
  atomic en (fun c s => (f c s).2) fun c s => ofExcept (f c s).1

/-- One atomic section. -/
def act (f : χ → σ → Except ε α × σ) : Prog σ χ ε α := actWhen (fun _ _ => true) f

/-- An atomic section that leaves the state alone. -/
def look (f : χ → σ → Except ε α) : Prog σ χ ε α := act fun c s => (f c s, s)

/-- A thread that never runs again. -/
def halt (e : ε) : Prog σ χ ε α := atomic (fun _ _ => false) (fun _ s => s) fun _ _ => throw e

/-! ## Running alone -/

/-- Total correctness of a program that no other thread disturbs: with any choices
that meet `ok` every guard on its way is open and it ends in `Q`. -/
def Ends (ok : χ → Prop) (Q : Except ε α → σ → Prop) : Prog σ χ ε α → σ → Prop
  | pure a, s => Q (.ok a) s
  | throw e, s => Q (.error e) s
  | atomic en upd next, s => ∀ c, ok c → en c s = true ∧ (next c s).Ends ok Q (upd c s)

@[simp] theorem bind_eq (p : Prog σ χ ε α) (f : α → Prog σ χ ε β) : p >>= f = p.bind f := rfl

@[simp] theorem pure_eq (a : α) : (Pure.pure a : Prog σ χ ε α) = pure a := rfl

@[simp] theorem throw_eq (e : ε) : (throwThe ε e : Prog σ χ ε α) = throw e := rfl

variable {ok : χ → Prop} {Q Q' : Except ε α → σ → Prop} {s : σ}

@[simp] theorem ends_ofExcept {r : Except ε α} :
    (ofExcept r : Prog σ χ ε α).Ends ok Q s ↔ Q r s := by
  cases r <;> exact Iff.rfl

@[simp] theorem ends_act {f : χ → σ → Except ε α × σ} :
    (act f).Ends ok Q s ↔ ∀ c, ok c → Q (f c s).1 (f c s).2 := by
  simp [act, actWhen, Ends]

theorem Ends.mono (h : ∀ r s, Q r s → Q' r s) {p : Prog σ χ ε α} (hp : p.Ends ok Q s) :
    p.Ends ok Q' s := by
  induction p generalizing s with
  | pure a => exact h _ _ hp
  | throw e => exact h _ _ hp
  | atomic en upd next ih => exact fun c hc => ⟨(hp c hc).1, ih c s (hp c hc).2⟩

/-- The rule of sequencing. -/
theorem Ends.seq {p : Prog σ χ ε α} {f : α → Prog σ χ ε β} {R : Except ε β → σ → Prop}
    (hp : p.Ends ok Q s) (hok : ∀ a s, Q (.ok a) s → (f a).Ends ok R s)
    (herr : ∀ e s, Q (.error e) s → R (.error e) s) : (p.bind f).Ends ok R s := by
  induction p generalizing s with
  | pure a => exact hok a s hp
  | throw e => exact herr e s hp
  | atomic en upd next ih => exact fun c hc => ⟨(hp c hc).1, ih c s (hp c hc).2⟩

/-- The rule of `try`, where `k` handles the result either way. -/
theorem Ends.catch {p : Prog σ χ ε α} {k : Except ε α → Prog σ χ ε β}
    {R : Except ε β → σ → Prop} (hp : p.Ends ok Q s) (hk : ∀ r s, Q r s → (k r).Ends ok R s) :
    (p.attempt.bind k).Ends ok R s := by
  induction p generalizing s with
  | pure a => exact hk _ _ hp
  | throw e => exact hk _ _ hp
  | atomic en upd next ih => exact fun c hc => ⟨(hp c hc).1, ih c s (hp c hc).2⟩

end Prog
end Lib
