import Mathlib
import DebBuilder.Lib.Pool

/-!
# Invariants of pools, one thread at a time

An invariant of a pool is proved one program at a time.  A *protocol* gives the
invariant of the shared state and the order in which the state evolves, whoever
moves it.  A thread also has an auxiliary value of its own, which says how far it
is: the invariant ties these values to the state, no program reads them, and each
section may change only that of its own thread.

`wp P t Q p` says that thread `t` can run `p` to the end under the protocol, from
the current state and auxiliary values, and end in `Q`.  Its rules follow the shape
of the program; `Sound.reaches` turns the proofs for the single calls into an
invariant of every run.

## Main definitions

* `Protocol` — the invariant and the order of evolution.
* `wp` — the weakest precondition of a program of one thread.
* `Protocol.Sound`, `Sound.reaches` — the invariant of every reachable pool.
* `Sound.evolves` — how the state evolves along every run.
-/

namespace Lib
open Function

variable {τ κ σ χ ε α β ν : Type}

/-- The invariant of a pool, and the order in which its state evolves. -/
structure Protocol (τ σ ν : Type) where
  Inv : σ → (τ → ν) → Prop
  Evolves : σ → σ → Prop
  refl : ∀ s, Evolves s s
  trans : ∀ a b c, Evolves a b → Evolves b c → Evolves a c

namespace Protocol
variable (P : Protocol τ σ ν)

/-- What thread `t` may find when it runs again: a later state that meets the
invariant, and its own auxiliary value as it left it. -/
structure Between (t : τ) (s : σ) (g : τ → ν) (s' : σ) (g' : τ → ν) : Prop where
  evolves : P.Evolves s s'
  inv : P.Inv s' g'
  own : g' t = g t

variable {P} in
theorem Between.trans {t : τ} {s s' s'' : σ} {g g' g'' : τ → ν}
    (h : P.Between t s g s' g') (h' : P.Between t s' g' s'' g'') : P.Between t s g s'' g'' :=
  ⟨P.trans s s' s'' h.evolves h'.evolves, h'.inv, h'.own.trans h.own⟩

variable [DecidableEq τ]

/-- One section of thread `t` from `s` to `s'` that leaves its auxiliary value `v`. -/
structure Section (t : τ) (s : σ) (g : τ → ν) (s' : σ) (v : ν) : Prop where
  inv : P.Inv s' (update g t v)
  evolves : P.Evolves s s'

variable {P} in
/-- Two sections that no other thread can tell from one. -/
theorem Section.comp {t : τ} {s s' s'' : σ} {g : τ → ν} {v v' : ν} (h : P.Section t s g s' v)
    (h' : P.Section t s' (update g t v) s'' v') : P.Section t s g s'' v' :=
  ⟨by simpa using h'.inv, P.trans s s' s'' h.evolves h'.evolves⟩

/-- A postcondition that the other threads keep. -/
def Stable (t : τ) (Q : σ → (τ → ν) → Prop) : Prop :=
  ∀ s g s' g', Q s g → P.Between t s g s' g' → Q s' g'

end Protocol

variable [DecidableEq τ]

/-- Thread `t` can run the program to its end under the protocol `P`, whatever the
other threads do between its sections, and end in `Q`. -/
def wp (P : Protocol τ σ ν) (t : τ) (Q : Except ε α → σ → (τ → ν) → Prop) :
    Prog σ χ ε α → σ → (τ → ν) → Prop
  | .pure a, s, g => Q (.ok a) s g
  | .throw e, s, g => Q (.error e) s g
  | .atomic en upd next, s, g =>
      ∀ s' g', P.Between t s g s' g' → ∀ c, en c s' = true →
        ∃ v, P.Section t s' g' (upd c s') v ∧
          wp P t Q (next c s') (upd c s') (update g' t v)

variable {P : Protocol τ σ ν} {t : τ} {Q Q' : Except ε α → σ → (τ → ν) → Prop}

/-! ## Rules -/

@[simp] theorem wp_pure (a : α) (s : σ) (g : τ → ν) :
    wp P t Q (.pure a : Prog σ χ ε α) s g ↔ Q (.ok a) s g := Iff.rfl

@[simp] theorem wp_throw (e : ε) (s : σ) (g : τ → ν) :
    wp P t Q (.throw e : Prog σ χ ε α) s g ↔ Q (.error e) s g := Iff.rfl

@[simp] theorem wp_ofExcept (r : Except ε α) (s : σ) (g : τ → ν) :
    wp P t Q (.ofExcept r : Prog σ χ ε α) s g ↔ Q r s g := by
  cases r <;> exact Iff.rfl

/-- The rule of sequencing. -/
theorem wp_bind (p : Prog σ χ ε α) (f : α → Prog σ χ ε β)
    (R : Except ε β → σ → (τ → ν) → Prop) (s : σ) (g : τ → ν) :
    wp P t R (p.bind f) s g ↔
      wp P t (fun r s g => match r with
        | .ok a => wp P t R (f a) s g
        | .error e => R (.error e) s g) p s g := by
  induction p generalizing s g with
  | pure a => exact Iff.rfl
  | throw e => exact Iff.rfl
  | atomic en upd next ih => simp only [Prog.bind, wp, ih]

/-- The rule of reified exceptions. -/
theorem wp_attempt (p : Prog σ χ ε α)
    (R : Except ε (Except ε α) → σ → (τ → ν) → Prop) (s : σ) (g : τ → ν) :
    wp P t R p.attempt s g ↔ wp P t (fun r => R (.ok r)) p s g := by
  induction p generalizing s g with
  | pure a => exact Iff.rfl
  | throw e => exact Iff.rfl
  | atomic en upd next ih => simp only [Prog.attempt, wp, ih]

/-- The rule of consequence. -/
theorem wp_mono (h : ∀ r s g, Q r s g → Q' r s g) {p : Prog σ χ ε α} {s : σ} {g : τ → ν}
    (hp : wp P t Q p s g) : wp P t Q' p s g := by
  induction p generalizing s g with
  | pure a => exact h _ _ _ hp
  | throw e => exact h _ _ _ hp
  | atomic en upd next ih =>
      intro s' g' hb c hc
      obtain ⟨v, hv, hn⟩ := hp s' g' hb c hc
      exact ⟨v, hv, ih c s' hn⟩

/-- The frame rule: a fact that the evolution of the state keeps is kept by a program. -/
theorem wp_frame {F : σ → Prop} (hF : ∀ s s', F s → P.Evolves s s' → F s') {p : Prog σ χ ε α}
    {s : σ} {g : τ → ν} (hp : wp P t Q p s g) (hs : F s) : wp P t (fun r s g => Q r s g ∧ F s) p s g := by
  induction p generalizing s g with
  | pure a => exact ⟨hp, hs⟩
  | throw e => exact ⟨hp, hs⟩
  | atomic en upd next ih =>
      intro s' g' hb c hc
      obtain ⟨v, hv, hn⟩ := hp s' g' hb c hc
      exact ⟨v, hv, ih c s' hn (hF _ _ (hF _ _ hs hb.evolves) hv.evolves)⟩

/-- The rule of sequencing, with the assertion between the two parts given. -/
theorem wp_seq {p : Prog σ χ ε α} {f : α → Prog σ χ ε β}
    {R : Except ε β → σ → (τ → ν) → Prop} {s : σ} {g : τ → ν}
    (hp : wp P t Q p s g) (hok : ∀ a s g, Q (.ok a) s g → wp P t R (f a) s g)
    (herr : ∀ e s g, Q (.error e) s g → R (.error e) s g) : wp P t R (p.bind f) s g := by
  rw [wp_bind]
  refine wp_mono (fun r s g hq => ?_) hp
  cases r with
  | ok a => exact hok a s g hq
  | error e => exact herr e s g hq

/-- The rule of `try`, where `k` handles the result either way. -/
theorem wp_try {p : Prog σ χ ε α} {k : Except ε α → Prog σ χ ε β}
    {R : Except ε β → σ → (τ → ν) → Prop} {s : σ} {g : τ → ν} (hp : wp P t Q p s g)
    (hk : ∀ r s g, Q r s g → wp P t R (k r) s g) : wp P t R (p.attempt.bind k) s g := by
  rw [wp_bind, wp_attempt]
  exact wp_mono hk hp

/-- The rule of `try … finally`. -/
theorem wp_ensuring {p : Prog σ χ ε α} {fin : Prog σ χ ε Unit}
    {R : Except ε α → σ → (τ → ν) → Prop} {s : σ} {g : τ → ν} (hp : wp P t Q p s g)
    (hfin : ∀ r s g, Q r s g → wp P t (fun f s g => match f with
      | .ok () => R r s g
      | .error e => R (.error e) s g) fin s g) : wp P t R (p.ensuring fin) s g := by
  refine wp_try hp fun r s g hr => ?_
  refine wp_seq (hfin r s g hr) (fun _ s g h => ?_) fun _ s g h => h
  exact (wp_ofExcept r s g).2 h

/-- The rule of a guarded section. -/
theorem wp_actWhen {en : χ → σ → Bool} {f : χ → σ → Except ε α × σ} {s : σ} {g : τ → ν} :
    wp P t Q (.actWhen en f) s g ↔
      ∀ s' g', P.Between t s g s' g' → ∀ c, en c s' = true →
        ∃ v, P.Section t s' g' (f c s').2 v ∧ Q (f c s').1 (f c s').2 (update g' t v) := by
  simp only [Prog.actWhen, wp, wp_ofExcept]

/-- The rule of a section. -/
theorem wp_act {f : χ → σ → Except ε α × σ} {s : σ} {g : τ → ν} :
    wp P t Q (.act f) s g ↔
      ∀ s' g', P.Between t s g s' g' → ∀ c,
        ∃ v, P.Section t s' g' (f c s').2 v ∧ Q (f c s').1 (f c s').2 (update g' t v) := by
  simp [Prog.act, wp_actWhen]

/-- The rule of a section that keeps the auxiliary value of its thread. -/
theorem wp_act_same {f : χ → σ → Except ε α × σ} {s : σ} {g : τ → ν}
    (h : ∀ s' g', P.Between t s g s' g' → ∀ c,
      P.Section t s' g' (f c s').2 (g' t) ∧ Q (f c s').1 (f c s').2 g') :
    wp P t Q (.act f) s g :=
  wp_act.2 fun s' g' hb c => ⟨g' t, (h s' g' hb c).1, by
    rw [update_eq_self]; exact (h s' g' hb c).2⟩

/-- The rule of a section that reads only. -/
theorem wp_look {f : χ → σ → Except ε α} {s : σ} {g : τ → ν}
    (h : ∀ s' g', P.Between t s g s' g' → ∀ c, Q (f c s') s' g') : wp P t Q (.look f) s g :=
  wp_act_same fun s' g' hb c =>
    ⟨⟨by rw [update_eq_self]; exact hb.inv, P.refl s'⟩, h s' g' hb c⟩

/-- A halted thread meets every postcondition. -/
theorem wp_halt (e : ε) (s : σ) (g : τ → ν) : wp P t Q (.halt e : Prog σ χ ε α) s g := by
  intro s' g' _ c hc
  exact absurd hc Bool.false_ne_true

/-- The other threads keep a weakest precondition when they keep its postcondition. -/
theorem wp_stable (hQ : ∀ r, P.Stable t (Q r)) {p : Prog σ χ ε α} {s s' : σ} {g g' : τ → ν}
    (hp : wp P t Q p s g) (hb : P.Between t s g s' g') : wp P t Q p s' g' := by
  cases p with
  | pure a => exact hQ _ _ _ _ _ hp hb
  | throw e => exact hQ _ _ _ _ _ hp hb
  | atomic en upd next => exact fun s'' g'' hb' => hp s'' g'' (hb.trans hb')

/-! ## Runs of the pool -/

namespace Protocol

/-- What is to be proved of a system: its calls keep the protocol from the auxiliary
value `idle`, and a restart, which loses every thread, keeps the invariant. -/
structure Sound (P : Protocol τ σ ν) (S : System κ σ χ ε α) (idle : ν)
    (Q : τ → Except ε α → σ → (τ → ν) → Prop) : Prop where
  stable : ∀ t r, P.Stable t (Q t r)
  call : ∀ t k s g, P.Inv s g → g t = idle → wp P t (Q t) (S.code k) s g
  restart : ∀ s s' g, P.Inv s g → S.restart s = some s' →
    P.Inv s' (fun _ => idle) ∧ P.Evolves s s'

/-- The invariant of a pool: some auxiliary values meet the invariant of the protocol
and every thread can run on under it. -/
def Keeps (P : Protocol τ σ ν) (idle : ν) (Q : τ → Except ε α → σ → (τ → ν) → Prop)
    (p : Pool τ σ χ ε α) : Prop :=
  ∃ g, P.Inv p.shared g ∧ ∀ t, match p.threads t with
    | none => g t = idle
    | some q => wp P t (Q t) q p.shared g

variable {P : Protocol τ σ ν} {S : System κ σ χ ε α} {idle : ν}
  {Q : τ → Except ε α → σ → (τ → ν) → Prop}

theorem keeps_start {s : σ} (h : P.Inv s fun _ => idle) :
    P.Keeps idle Q (Pool.start s : Pool τ σ χ ε α) :=
  ⟨fun _ => idle, h, fun _ => rfl⟩

/-- A section of one thread is seen by the others as a move between their own. -/
private theorem between_of_section {t u : τ} {s s' : σ} {g : τ → ν} {v : ν} (hu : u ≠ t)
    (h : P.Section t s g s' v) : P.Between u s g s' (update g t v) :=
  ⟨h.evolves, h.inv, update_of_ne hu v g⟩

/-- The step lemma: every step of the pool keeps its invariant and moves its state
forward. -/
theorem Sound.next (H : P.Sound S idle Q) {p q : Pool τ σ χ ε α} (hp : P.Keeps idle Q p)
    (h : S.Next p q) : P.Keeps idle Q q ∧ P.Evolves p.shared q.shared := by
  obtain ⟨g, hinv, hthreads⟩ := hp
  rcases h.cases with ⟨t, k, ht, hs, hq⟩ | ⟨t, en, upd, next, c, ht, hc, hs, hq⟩ | ⟨s, hs, rfl⟩
  · refine ⟨⟨g, hs ▸ hinv, fun u => ?_⟩, hs ▸ P.refl _⟩
    have hidle := hthreads t
    rw [ht] at hidle
    rw [hq, hs]
    by_cases hu : u = t
    · subst hu
      simpa using H.call u k p.shared g hinv hidle
    · simpa [update_of_ne hu] using hthreads u
  · have hwp := hthreads t
    rw [ht] at hwp
    obtain ⟨v, hv, hnext⟩ := hwp p.shared g ⟨P.refl _, hinv, rfl⟩ c hc
    refine ⟨⟨update g t v, hs ▸ hv.inv, fun u => ?_⟩, hs ▸ hv.evolves⟩
    rw [hq, hs]
    by_cases hu : u = t
    · subst hu
      simpa using hnext
    · rw [update_of_ne hu]
      have hb := between_of_section hu hv
      have hold := hthreads u
      cases hpu : p.threads u with
      | none => simpa [hpu, update_of_ne hu] using hold
      | some r => exact wp_stable (H.stable u) (by simpa [hpu] using hold) hb
  · obtain ⟨hinv', hev⟩ := H.restart p.shared s g hinv hs
    exact ⟨keeps_start hinv', hev⟩

/-- The run lemma: the invariant holds in every pool that a run reaches. -/
theorem Sound.reaches (H : P.Sound S idle Q) {p q : Pool τ σ χ ε α} (hp : P.Keeps idle Q p)
    (h : S.Reaches p q) : P.Keeps idle Q q := by
  induction h with
  | refl => exact hp
  | tail _ hn ih => exact (H.next ih hn).1

/-- Along every run the state moves forward. -/
theorem Sound.evolves (H : P.Sound S idle Q) {p q : Pool τ σ χ ε α} (hp : P.Keeps idle Q p)
    (h : S.Reaches p q) : P.Evolves p.shared q.shared := by
  induction h with
  | refl => exact P.refl _
  | tail hr hn ih => exact P.trans _ _ _ ih (H.next (H.reaches hp hr) hn).2

/-- A thread that has returned is in its postcondition. -/
theorem Keeps.returned {p : Pool τ σ χ ε α} (h : P.Keeps idle Q p) {t : τ} {a : α}
    (ht : p.Returned t a) : ∃ g, P.Inv p.shared g ∧ Q t (.ok a) p.shared g := by
  obtain ⟨g, hinv, hthreads⟩ := h
  have hr := hthreads t
  rw [ht] at hr
  exact ⟨g, hinv, hr⟩

end Protocol
end Lib
