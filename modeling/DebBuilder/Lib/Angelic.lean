import Mathlib
import DebBuilder.Lib.Pool

/-!
# What a call can do, and what it cannot avoid

`Prog.Can Q p s`: with some choices `p` runs from `s`, alone, to an end that meets `Q`.
The rules follow the combinators, so a scenario with a parameter (the n-th refusal, the
n-th retry) is derived step by step instead of being run.

`Prog.Must ok Φ Q p s`: with any choices that meet `ok`, `p` comes to a state in `Φ`, or
ends in `Q` before it does.  Once it has come there the rest of it is of no interest.

## Main definitions

* `Prog.Can` — the angelic reading of a program.
* `Prog.Must` — the states that a program cannot avoid.

## Main results

* `Prog.can_bind`, `Prog.can_attempt`, `Prog.can_act` — the rules of the one.
* `Prog.Must.seq`, `Prog.Must.catch`, `Prog.must_act` — those of the other.
* `System.exists_of_can` — what a call can do, a pool can.
* `System.free_of_run` — the names that a run leaves free.
-/

namespace Lib
open Function

namespace Prog
variable {σ χ ε α β : Type}

/-- With some choices that open every guard on its way, the program ends in `Q`. -/
def Can (Q : Except ε α → σ → Prop) : Prog σ χ ε α → σ → Prop
  | pure a, s => Q (.ok a) s
  | throw e, s => Q (.error e) s
  | atomic en upd next, s => ∃ c, en c s = true ∧ (next c s).Can Q (upd c s)

variable {Q : Except ε α → σ → Prop} {s : σ}

@[simp] theorem can_pure {a : α} : (pure a : Prog σ χ ε α).Can Q s ↔ Q (.ok a) s := Iff.rfl

@[simp] theorem can_throw {e : ε} : (throw e : Prog σ χ ε α).Can Q s ↔ Q (.error e) s := Iff.rfl

@[simp] theorem can_ofExcept {r : Except ε α} :
    (ofExcept r : Prog σ χ ε α).Can Q s ↔ Q r s := by
  cases r <;> exact Iff.rfl

theorem can_act {f : χ → σ → Except ε α × σ} (c : χ) (h : Q (f c s).1 (f c s).2) :
    (act f).Can Q s :=
  ⟨c, rfl, can_ofExcept.2 h⟩

theorem can_act_of_eq {f : χ → σ → Except ε α × σ} (c : χ) {r : Except ε α} {s' : σ}
    (hf : f c s = (r, s')) (h : Q r s') : (act f).Can Q s :=
  can_act c (by rwa [hf])

theorem can_look {f : χ → σ → Except ε α} (c : χ) (h : Q (f c s) s) : (look f).Can Q s :=
  can_act c h

/-- The continuation runs when no exception skips it. -/
theorem can_bind {p : Prog σ χ ε α} {f : α → Prog σ χ ε β} {R : Except ε β → σ → Prop} :
    (p.bind f).Can R s ↔
      p.Can (fun r s => match r with
        | .ok a => (f a).Can R s
        | .error e => R (.error e) s) s := by
  induction p generalizing s with
  | pure a => exact Iff.rfl
  | throw e => exact Iff.rfl
  | atomic en upd next ih => exact exists_congr fun c => and_congr_right fun _ => ih c s

theorem can_attempt {p : Prog σ χ ε α} {R : Except ε (Except ε α) → σ → Prop} :
    p.attempt.Can R s ↔ p.Can (fun r s => R (.ok r) s) s := by
  induction p generalizing s with
  | pure a => exact Iff.rfl
  | throw e => exact Iff.rfl
  | atomic en upd next ih => exact exists_congr fun c => and_congr_right fun _ => ih c s

theorem can_handle {p : Prog σ χ ε α} {h : ε → Prog σ χ ε α} :
    (p.handle h).Can Q s ↔
      p.Can (fun r s => match r with
        | .ok a => Q (.ok a) s
        | .error e => (h e).Can Q s) s := by
  unfold handle
  rw [bind_eq, can_bind, can_attempt]
  refine iff_of_eq (congrArg (fun R => p.Can R s) (funext fun r => funext fun s' => ?_))
  cases r <;> rfl

theorem can_ensuring {p : Prog σ χ ε α} {fin : Prog σ χ ε Unit} :
    (p.ensuring fin).Can Q s ↔
      p.Can (fun r s => fin.Can (fun done s => match done with
        | .ok () => Q r s
        | .error e => Q (.error e) s) s) s := by
  unfold ensuring
  rw [bind_eq, can_bind, can_attempt]
  refine iff_of_eq (congrArg (fun R => p.Can R s) (funext fun r => funext fun s' => ?_))
  refine propext (can_bind.trans (iff_of_eq (congrArg (fun R => fin.Can R s')
    (funext fun done => funext fun s'' => ?_))))
  cases done with
  | ok u => exact propext can_ofExcept
  | error e => rfl

/-! ## What a program cannot avoid -/

/-- With any choices that meet `ok` every guard on its way is open, and the program comes to
a state in `Φ`, or ends in `Q` before. -/
def Must (ok : χ → Prop) (Φ : σ → Prop) (Q : Except ε α → σ → Prop) : Prog σ χ ε α → σ → Prop
  | pure a, s => Φ s ∨ Q (.ok a) s
  | throw e, s => Φ s ∨ Q (.error e) s
  | atomic en upd next, s => Φ s ∨ ∀ c, ok c → en c s = true ∧ (next c s).Must ok Φ Q (upd c s)

section
variable {ok : χ → Prop} {Φ : σ → Prop} {Q' : Except ε α → σ → Prop}

/-- It has come there. -/
theorem must_of {p : Prog σ χ ε α} (h : Φ s) : p.Must ok Φ Q s := by
  cases p <;> exact .inl h

theorem must_pure {a : α} (h : Q (.ok a) s) : (pure a : Prog σ χ ε α).Must ok Φ Q s := .inr h

theorem must_throw {e : ε} (h : Q (.error e) s) : (throw e : Prog σ χ ε α).Must ok Φ Q s := .inr h

theorem must_ofExcept {r : Except ε α} (h : Q r s) : (ofExcept r : Prog σ χ ε α).Must ok Φ Q s := by
  cases r <;> exact .inr h

/-- The rule of a section. -/
theorem must_act {f : χ → σ → Except ε α × σ} (h : ∀ c, ok c → Φ (f c s).2 ∨ Q (f c s).1 (f c s).2) :
    (act f).Must ok Φ Q s := by
  refine .inr fun c hc => ⟨rfl, ?_⟩
  rcases h c hc with hΦ | hQ
  · exact must_of hΦ
  · exact must_ofExcept hQ

/-- The rule of a section that reads only. -/
theorem must_look {f : χ → σ → Except ε α} (h : ∀ c, ok c → Q (f c s) s) : (look f).Must ok Φ Q s :=
  must_act fun c hc => .inr (h c hc)

/-- The rule of consequence. -/
theorem Must.mono {p : Prog σ χ ε α} (hp : p.Must ok Φ Q s) (hQ : ∀ r s, Q r s → Q' r s) : p.Must ok Φ Q' s := by
  induction p generalizing s with
  | pure a => exact hp.imp_right (hQ _ s)
  | throw e => exact hp.imp_right (hQ _ s)
  | atomic en upd next ih =>
      exact hp.imp_right fun hnext c hc => ⟨(hnext c hc).1, ih c s (hnext c hc).2⟩

/-- The rule of sequencing. -/
theorem Must.seq {p : Prog σ χ ε α} {f : α → Prog σ χ ε β} {R : Except ε β → σ → Prop}
    (hp : p.Must ok Φ Q s) (hok : ∀ a s, Q (.ok a) s → (f a).Must ok Φ R s)
    (herror : ∀ e s, Q (.error e) s → R (.error e) s) : (p.bind f).Must ok Φ R s := by
  induction p generalizing s with
  | pure a => exact hp.elim must_of (hok a s)
  | throw e => exact hp.imp_right (herror e s)
  | atomic en upd next ih =>
      exact hp.imp_right fun hnext c hc => ⟨(hnext c hc).1, ih c s (hnext c hc).2⟩

/-- The rule of a section that cannot fail. -/
theorem must_bind_act {f : χ → σ → Except ε α × σ} {g : α → Prog σ χ ε β} {R : Except ε β → σ → Prop}
    (h : ∀ c, ok c → ∃ a, (f c s).1 = .ok a ∧ (g a).Must ok Φ R (f c s).2) : ((act f).bind g).Must ok Φ R s := by
  refine .inr fun c hc => ⟨rfl, ?_⟩
  obtain ⟨a, ha, hg⟩ := h c hc
  show ((ofExcept (f c s).1).bind g).Must ok Φ R (f c s).2
  rw [ha]
  exact hg

/-- The rule of a read that cannot fail. -/
theorem must_bind_look {f : χ → σ → Except ε α} {g : α → Prog σ χ ε β} {R : Except ε β → σ → Prop}
    (h : ∀ c, ok c → ∃ a, f c s = .ok a ∧ (g a).Must ok Φ R s) : ((look f).bind g).Must ok Φ R s :=
  must_bind_act h

/-- The rule of `try`, where `k` handles the result either way. -/
theorem Must.catch {p : Prog σ χ ε α} {k : Except ε α → Prog σ χ ε β} {R : Except ε β → σ → Prop}
    (hp : p.Must ok Φ Q s) (hk : ∀ r s, Q r s → (k r).Must ok Φ R s) :
    (p.attempt.bind k).Must ok Φ R s := by
  induction p generalizing s with
  | pure a => exact hp.elim must_of (hk (.ok a) s)
  | throw e => exact hp.elim must_of (hk (.error e) s)
  | atomic en upd next ih =>
      exact hp.imp_right fun hnext c hc => ⟨(hnext c hc).1, ih c s (hnext c hc).2⟩

end

end Prog

/-! ## Pools -/

namespace System
variable {τ κ σ χ ε α : Type} [DecidableEq τ] {S : System κ σ χ ε α}

/-- A started thread can do what its program can. -/
theorem exists_of_can_started {Q : Except ε α → σ → Prop} {code : Prog σ χ ε α} {t : τ}
    {p : Pool τ σ χ ε α} (ht : p.threads t = some code) (h : code.Can Q p.shared) :
    ∃ q, S.Reaches p q ∧ (∃ r, Q r q.shared) ∧ ∀ u ≠ t, q.threads u = p.threads u := by
  induction code generalizing p with
  | pure a => exact ⟨p, .refl, ⟨.ok a, h⟩, fun _ _ => rfl⟩
  | throw e => exact ⟨p, .refl, ⟨.error e, h⟩, fun _ _ => rfl⟩
  | atomic en upd next ih =>
      obtain ⟨c, hen, hnext⟩ := h
      let p' : Pool τ σ χ ε α := ⟨upd c p.shared, update p.threads t (some (next c p.shared))⟩
      have hstep : S.Next p p' := ⟨.exec t c, by simp [step, ht, hen, p']⟩
      obtain ⟨q, hq, hend, hothers⟩ := ih c p.shared (p := p') (by simp [p']) hnext
      refine ⟨q, .head hstep hq, hend, fun u hu => ?_⟩
      rw [hothers u hu]
      exact update_of_ne hu _ _

/-- A new thread can do what its call can. -/
theorem exists_of_can {Q : Except ε α → σ → Prop} (call : κ) {t : τ} {p : Pool τ σ χ ε α}
    (ht : p.threads t = none) (h : (S.code call).Can Q p.shared) :
    ∃ q, S.Reaches p q ∧ (∃ r, Q r q.shared) ∧ ∀ u ≠ t, q.threads u = p.threads u := by
  let p' : Pool τ σ χ ε α := ⟨p.shared, update p.threads t (some (S.code call))⟩
  have hstep : S.Next p p' := ⟨.spawn t call, by simp [step, ht, p']⟩
  obtain ⟨q, hq, hend, hothers⟩ := exists_of_can_started (S := S) (p := p') (t := t)
    (by simp [p']) h
  refine ⟨q, .head hstep hq, hend, fun u hu => ?_⟩
  rw [hothers u hu]
  exact update_of_ne hu _ _

/-- A name under which no event starts a thread stays free. -/
theorem free_of_run {p q : Pool τ σ χ ε α} {es : List (Event τ κ χ)} {t : τ}
    (h : S.run p es = some q) (ht : p.threads t = none) (hes : ∀ call, .spawn t call ∉ es) :
    q.threads t = none := by
  induction es generalizing p with
  | nil =>
      obtain rfl : p = q := by simpa [run] using h
      exact ht
  | cons e es ih =>
      simp only [run, Option.bind_eq_some_iff] at h
      obtain ⟨r, hr, hq⟩ := h
      refine ih hq ?_ fun call hcall => hes call (List.mem_cons_of_mem e hcall)
      cases e with
      | spawn u call =>
          have hu : t ≠ u := by
            rintro rfl
            exact hes call List.mem_cons_self
          cases hp : p.threads u with
          | none =>
              simp only [step, hp, Option.some.injEq] at hr
              rw [← hr]
              exact (update_of_ne hu _ _).trans ht
          | some code => simp [step, hp] at hr
      | exec u c =>
          cases hp : p.threads u with
          | none => simp [step, hp] at hr
          | some code =>
              cases code with
              | pure _ | throw _ => simp [step, hp] at hr
              | atomic en upd next =>
                  have hu : t ≠ u := by
                    rintro rfl
                    simp [hp] at ht
                  simp only [step, hp] at hr
                  split at hr
                  · rw [← Option.some.inj hr]
                    exact (update_of_ne hu _ _).trans ht
                  · simp at hr
      | restart =>
          simp only [step, Option.map_eq_some_iff] at hr
          obtain ⟨s, -, rfl⟩ := hr
          rfl

end System
end Lib
