import Mathlib
import DebBuilder.Lib.Protocol

/-!
# Threads that own a part of the state

A common shape of concurrent code: one thread works alone on a part of the state, and
the other threads touch only the rest.  Under the protocol of this file the owner's
assertions speak of its part only, so no other thread can disturb them, and its program
is proved with the triples of sequential code.

## Main definitions

* `Ownership` — the owned part, the invariant of the state, and when the part is taken.
* `Ownership.protocol` — the protocol: the auxiliary value of the owner is its part.
* `Ownership.Triple` — a triple of the owner, with the rules of sequential code.
-/

namespace Lib
open Function

/-- A part of the state for one owner at a time. -/
structure Ownership (σ ο : Type) where
  own : σ → ο
  Taken : σ → Prop
  Inv : σ → Prop
  Evolves : σ → σ → Prop
  refl : ∀ s, Evolves s s
  trans : ∀ a b c, Evolves a b → Evolves b c → Evolves a c

namespace Ownership
variable {τ σ χ ε ο α β : Type} (O : Ownership σ ο)

/-- At most one thread owns the part, and its auxiliary value is the part. -/
def protocol (τ : Type) : Protocol τ σ (Option ο) where
  Inv s g := O.Inv s ∧ (∀ t o, g t = some o → O.own s = o ∧ O.Taken s) ∧
    ∀ t u, g t ≠ none → g u ≠ none → t = u
  Evolves := O.Evolves
  refl := O.refl
  trans := O.trans

variable [DecidableEq τ] {O} {t : τ}

/-- What the owner knows between its sections: the invariant, and its assertion. -/
structure Knows (O : Ownership σ ο) (t : τ) (P : ο → Prop) (s : σ) (g : τ → Option ο) : Prop where
  inv : (O.protocol τ).Inv s g
  own : g t = some (O.own s)
  holds : P (O.own s)

omit [DecidableEq τ] in
theorem Knows.between {P : ο → Prop} {s s' : σ} {g g' : τ → Option ο} (h : Knows O t P s g)
    (hb : (O.protocol τ).Between t s g s' g') : Knows O t P s' g' ∧ O.own s' = O.own s := by
  have hown : g' t = some (O.own s) := hb.own.trans h.own
  have heq := (hb.inv.2.1 t _ hown).1
  exact ⟨⟨hb.inv, by rw [hown, heq], by rw [heq]; exact h.holds⟩, heq⟩

omit [DecidableEq τ] in
theorem Knows.taken {P : ο → Prop} {s : σ} {g : τ → Option ο} (h : Knows O t P s g) : O.Taken s :=
  (h.inv.2.1 t _ h.own).2

/-- A state in which only `t` owns the part. -/
theorem inv_owner {s : σ} {g : τ → Option ο} (hothers : ∀ u, u ≠ t → g u = none)
    (hinv : O.Inv s) (htaken : O.Taken s) :
    (O.protocol τ).Inv s (update g t (some (O.own s))) := by
  have hself : ∀ u, update g t (some (O.own s)) u ≠ none → u = t := by
    intro u hu
    by_contra hne
    exact hu (by rw [update_of_ne hne, hothers u hne])
  refine ⟨hinv, fun u o hu => ?_, fun u v hu hv => (hself u hu).trans (hself v hv).symm⟩
  obtain rfl := hself u (by simp [hu])
  exact ⟨Option.some.inj (by rw [← hu, update_self]), htaken⟩

/-- A section of the owner. -/
theorem Knows.section {P : ο → Prop} (P' : ο → Prop) {s s' : σ} {g : τ → Option ο} (h : Knows O t P s g)
    (hinv : O.Inv s') (hev : O.Evolves s s') (htaken : O.Taken s') (hP : P' (O.own s')) :
    (O.protocol τ).Section t s g s' (some (O.own s')) ∧
      Knows O t P' s' (update g t (some (O.own s'))) := by
  have hothers : ∀ u, u ≠ t → g u = none := fun u hne => by
    by_contra hu
    exact hne (h.inv.2.2 u t hu (by simp [h.own]))
  have hinv' := inv_owner hothers hinv htaken
  exact ⟨⟨hinv', hev⟩, hinv', update_self .., hP⟩

/-- The owner can run the program from `P` and ends it in `Q`. -/
def Triple (O : Ownership σ ο) (t : τ) (P : ο → Prop) (p : Prog σ χ ε α)
    (Q : Except ε α → ο → Prop) : Prop :=
  ∀ s g, Knows O t P s g → wp (O.protocol τ) t (fun r => Knows O t (Q r)) p s g

variable {P P' : ο → Prop} {Q Q' : Except ε α → ο → Prop}

/-! ## Rules -/

theorem Triple.pure {a : α} (h : ∀ o, P o → Q (.ok a) o) :
    Triple O t P (.pure a : Prog σ χ ε α) Q :=
  fun _ _ hk => ⟨hk.inv, hk.own, h _ hk.holds⟩

theorem Triple.throw {e : ε} (h : ∀ o, P o → Q (.error e) o) :
    Triple O t P (.throw e : Prog σ χ ε α) Q :=
  fun _ _ hk => ⟨hk.inv, hk.own, h _ hk.holds⟩

/-- The rule of consequence. -/
theorem Triple.mono {p : Prog σ χ ε α} (h : Triple O t P p Q) (hP : ∀ o, P' o → P o)
    (hQ : ∀ r o, Q r o → Q' r o) : Triple O t P' p Q' :=
  fun s g hk => wp_mono (fun _ _ _ hq => ⟨hq.inv, hq.own, hQ _ _ hq.holds⟩)
    (h s g ⟨hk.inv, hk.own, hP _ hk.holds⟩)

theorem Triple.pre {p : Prog σ χ ε α} (h : Triple O t P p Q) (hP : ∀ o, P' o → P o) :
    Triple O t P' p Q := h.mono hP fun _ _ hq => hq

/-- A value that only the assertions name. -/
theorem Triple.exists_pre {ι : Type} {P : ι → ο → Prop} {p : Prog σ χ ε α}
    (h : ∀ i, Triple O t (P i) p Q) : Triple O t (fun o => ∃ i, P i o) p Q := by
  intro s g hk
  obtain ⟨i, hi⟩ := hk.holds
  exact h i s g ⟨hk.inv, hk.own, hi⟩

/-- What is never reached. -/
theorem Triple.absurd {p : Prog σ χ ε α} (h : ∀ o, ¬ P o) : Triple O t P p Q :=
  fun _ _ hk => (h _ hk.holds).elim

/-- The cases of a precondition. -/
theorem Triple.or_pre {p : Prog σ χ ε α} (h : Triple O t P p Q) (h' : Triple O t P' p Q) :
    Triple O t (fun o => P o ∨ P' o) p Q := by
  intro s g hk
  rcases hk.holds with hP | hP
  · exact h s g ⟨hk.inv, hk.own, hP⟩
  · exact h' s g ⟨hk.inv, hk.own, hP⟩

/-- The rule of sequencing. -/
theorem Triple.seq {p : Prog σ χ ε α} {f : α → Prog σ χ ε β} {R : Except ε β → ο → Prop}
    (hp : Triple O t P p Q) (hok : ∀ a, Triple O t (Q (.ok a)) (f a) R)
    (herr : ∀ e o, Q (.error e) o → R (.error e) o) : Triple O t P (p.bind f) R :=
  fun s g hk => wp_seq (hp s g hk) (fun a s g hq => hok a s g hq)
    fun e _ _ hq => ⟨hq.inv, hq.own, herr e _ hq.holds⟩

/-- The rule of `try`, where `k` handles the result either way. -/
theorem Triple.catch {p : Prog σ χ ε α} {k : Except ε α → Prog σ χ ε β}
    {R : Except ε β → ο → Prop} (hp : Triple O t P p Q) (hk : ∀ r, Triple O t (Q r) (k r) R) :
    Triple O t P (p.attempt.bind k) R :=
  fun s g h => wp_try (hp s g h) fun r s g hq => hk r s g hq

/-- The rule of a section. -/
theorem Triple.act {f : χ → σ → Except ε α × σ}
    (h : ∀ c s, O.Inv s → O.Taken s → P (O.own s) →
      O.Inv (f c s).2 ∧ O.Evolves s (f c s).2 ∧ O.Taken (f c s).2 ∧
        Q (f c s).1 (O.own (f c s).2)) : Triple O t P (.act f) Q := by
  intro s g hk
  refine wp_act.2 fun s' g' hb c => ?_
  obtain ⟨hk', -⟩ := hk.between hb
  obtain ⟨hinv, hev, htaken, hQ⟩ := h c s' hk'.inv.1 hk'.taken hk'.holds
  obtain ⟨hsec, hknows⟩ := hk'.section (Q (f c s').1) hinv hev htaken hQ
  exact ⟨_, hsec, hknows⟩

/-- The rule of a section that reads only. -/
theorem Triple.look {f : χ → σ → Except ε α}
    (h : ∀ c s, O.Inv s → P (O.own s) → Q (f c s) (O.own s)) : Triple O t P (.look f) Q :=
  .act fun c s hinv htaken hP => ⟨hinv, O.refl s, htaken, h c s hinv hP⟩

theorem Triple.halt {e : ε} : Triple O t P (.halt e : Prog σ χ ε α) Q :=
  fun s g _ => wp_halt e s g

omit [DecidableEq τ] in
/-- The others keep what the owner knows. -/
theorem stable_knows (Q : Except ε α → ο → Prop) (r : Except ε α) :
    (O.protocol τ).Stable t (fun s g => Knows O t (Q r) s g) :=
  fun _ _ _ _ hk hb => (hk.between hb).1

/-- A section of a thread that is not the owner, and leaves the owner's part alone. -/
theorem section_other {s s' : σ} {g : τ → Option ο} (hinv : (O.protocol τ).Inv s g)
    (ht : g t = none) (hinv' : O.Inv s') (hev : O.Evolves s s') (hown : O.own s' = O.own s)
    (htaken : O.Taken s → O.Taken s') : (O.protocol τ).Section t s g s' none := by
  have hg : update g t none = g := by rw [← ht, update_eq_self]
  refine ⟨?_, hev⟩
  rw [hg]
  exact ⟨hinv', fun u o hu => ⟨by rw [hown]; exact (hinv.2.1 u o hu).1,
    htaken (hinv.2.1 u o hu).2⟩, hinv.2.2⟩

/-- A thread that takes the part becomes its owner. -/
theorem section_take {s : σ} (s' : σ) {g : τ → Option ο} (hinv : (O.protocol τ).Inv s g)
    (hfree : ¬ O.Taken s) (hinv' : O.Inv s') (hev : O.Evolves s s') (htaken : O.Taken s')
    (hP : P (O.own s')) : (O.protocol τ).Section t s g s' (some (O.own s')) ∧
      Knows O t P s' (update g t (some (O.own s'))) := by
  have hnone : ∀ u, g u = none := fun u => by
    cases hu : g u with
    | none => rfl
    | some o => exact absurd (hinv.2.1 u o hu).2 hfree
  have hinv'' := inv_owner (t := t) (fun u _ => hnone u) hinv' htaken
  exact ⟨⟨hinv'', hev⟩, hinv'', update_self .., hP⟩

end Ownership
end Lib
