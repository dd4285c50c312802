import Mathlib
import DebBuilder.Lib.Program

/-!
# Interleaved runs of a pool of threads

A pool is one shared state and the threads that work on it.  A new thread may
start any call of the system at any time; a started thread performs its atomic
sections in order, interleaved in any way with those of the others.  A thread name
is used for one call only, so the program found under a name is that call's.

A system may also stop and start again: every thread is lost and the shared state
keeps what its restart rule says.

## Main definitions

* `System` — the calls of a system and its restart rule.
* `Pool`, `System.step` — pools and their steps.
* `System.Reaches` — reachability along any interleaving.
* `System.IsRun` — a run, as the list of the pools it visits.
-/

namespace Lib

/-- The calls that threads may start, and what a restart keeps of the state. -/
structure System (κ σ χ ε α : Type) where
  code : κ → Prog σ χ ε α
  restart : σ → Option σ

/-- A shared state and the threads that work on it. -/
structure Pool (τ σ χ ε α : Type) where
  shared : σ
  threads : τ → Option (Prog σ χ ε α)

/-- What the scheduler can do next. -/
inductive Event (τ κ χ : Type) where
  | spawn (t : τ) (call : κ)
  | exec (t : τ) (c : χ)
  | restart

variable {τ κ σ χ ε α : Type}

/-- The pool in which no thread has started. -/
def Pool.start (s : σ) : Pool τ σ χ ε α := ⟨s, fun _ => none⟩

/-- Thread `t` has ended, and returned `a`. -/
def Pool.Returned (p : Pool τ σ χ ε α) (t : τ) (a : α) : Prop := p.threads t = some (.pure a)

/-- What a program that has returned has returned. -/
def Prog.result? : Prog σ χ ε α → Option α
  | .pure a => some a
  | .throw _ | .atomic .. => none

/-- What thread `t` has returned, if it has. -/
def Pool.result? (p : Pool τ σ χ ε α) (t : τ) : Option α := (p.threads t).bind Prog.result?

theorem Pool.returned_of_result? {p : Pool τ σ χ ε α} {t : τ} {a : α} (h : p.result? t = some a) :
    p.Returned t a := by
  simp only [Pool.result?, Option.bind_eq_some_iff] at h
  obtain ⟨q, hq, hr⟩ := h
  cases q with
  | pure b =>
      obtain rfl : b = a := by simpa [Prog.result?] using hr
      exact hq
  | throw e | atomic en upd next => simp [Prog.result?] at hr

namespace System
variable [DecidableEq τ] (S : System κ σ χ ε α)

/-- One step of a pool; `none` when the event is not possible. -/
def step (p : Pool τ σ χ ε α) : Event τ κ χ → Option (Pool τ σ χ ε α)
  | .spawn t call =>
      match p.threads t with
      | none => some { p with threads := Function.update p.threads t (some (S.code call)) }
      | some _ => none
  | .exec t c =>
      match p.threads t with
      | some (.atomic en upd next) =>
          if en c p.shared then
            some ⟨upd c p.shared, Function.update p.threads t (some (next c p.shared))⟩
          else none
      | _ => none
  | .restart => (S.restart p.shared).map Pool.start

/-- The pool after a list of events. -/
def run (p : Pool τ σ χ ε α) : List (Event τ κ χ) → Option (Pool τ σ χ ε α)
  | [] => some p
  | e :: es => (S.step p e).bind fun q => run q es

/-- One step of some thread. -/
def Next (p q : Pool τ σ χ ε α) : Prop := ∃ e, S.step p e = some q

/-- Reachability along any interleaving. -/
def Reaches : Pool τ σ χ ε α → Pool τ σ χ ε α → Prop := Relation.ReflTransGen S.Next

/-- A run, as the list of the pools it visits. -/
def IsRun (l : List (Pool τ σ χ ε α)) : Prop := l.IsChain S.Next

variable {S}

theorem reaches_of_run {p q : Pool τ σ χ ε α} {es : List (Event τ κ χ)}
    (h : S.run p es = some q) : S.Reaches p q := by
  induction es generalizing p with
  | nil =>
      obtain rfl : p = q := by simpa [run] using h
      exact .refl
  | cons e es ih =>
      simp only [run, Option.bind_eq_some_iff] at h
      obtain ⟨r, hr, hq⟩ := h
      exact .head ⟨e, hr⟩ (ih hq)

/-- A run that ends with the start of a call leaves its program in the pool. -/
theorem threads_of_run_spawn {p q : Pool τ σ χ ε α} {es : List (Event τ κ χ)} {t : τ} {call : κ}
    (h : S.run p (es ++ [.spawn t call]) = some q) : q.threads t = some (S.code call) := by
  induction es generalizing p with
  | nil =>
      cases ht : p.threads t with
      | none =>
          simp only [List.nil_append, run, step, ht, Option.bind_some, Option.some.injEq] at h
          simp [← h]
      | some r => simp [run, step, ht] at h
  | cons e es ih =>
      simp only [List.cons_append, run, Option.bind_eq_some_iff] at h
      obtain ⟨r, -, hr⟩ := h
      exact ih hr

/-- A test that a run passes at its end holds in some reachable pool. -/
theorem exists_of_run {p : Pool τ σ χ ε α} (es : List (Event τ κ χ))
    (check : Pool τ σ χ ε α → Bool) (h : (S.run p es).any check = true) :
    ∃ q, S.Reaches p q ∧ check q = true := by
  obtain ⟨q, hq, hc⟩ := (Option.any_eq_true ..).1 h
  exact ⟨q, reaches_of_run hq, hc⟩

/-- What one step does: a thread starts, a thread performs its next section, or the
system restarts. -/
theorem Next.cases {p q : Pool τ σ χ ε α} (h : S.Next p q) :
    (∃ t call, p.threads t = none ∧ q.shared = p.shared ∧
      q.threads = Function.update p.threads t (some (S.code call))) ∨
    (∃ t en upd next c, p.threads t = some (.atomic en upd next) ∧ en c p.shared = true ∧
      q.shared = upd c p.shared ∧
      q.threads = Function.update p.threads t (some (next c p.shared))) ∨
    ∃ s, S.restart p.shared = some s ∧ q = Pool.start s := by
  obtain ⟨e, he⟩ := h
  cases e with
  | spawn t call =>
      cases ht : p.threads t with
      | none =>
          simp only [step, ht, Option.some.injEq] at he
          exact .inl ⟨t, call, ht, by rw [← he], by rw [← he]⟩
      | some r => simp [step, ht] at he
  | exec t c =>
      match ht : p.threads t with
      | none | some (.pure _) | some (.throw _) => simp [step, ht] at he
      | some (.atomic en upd next) =>
          by_cases hc : en c p.shared = true
          · simp only [step, ht, hc, if_true, Option.some.injEq] at he
            exact .inr (.inl ⟨t, en, upd, next, c, ht, hc, by rw [← he], by rw [← he]⟩)
          · simp [step, ht, hc] at he
  | restart =>
      simp only [step, Option.map_eq_some_iff] at he
      obtain ⟨s, hs, hq⟩ := he
      exact .inr (.inr ⟨s, hs, hq.symm⟩)

end System
end Lib
