import Mathlib
import DebBuilder.Lib.Protocol

/-!
# Threads that lease one part of the state each

The state has parts, named by an index, and each part has a lock.  A thread that holds a
lock is the only one that changes the part; the others may still add a part that was not
there, and change everything that is no part.  Under the protocol of this file a holder
first gets the lock and then looks at the part.  From then on its assertions speak of the
part as it is, and of the rest as it was at some earlier moment: the others cannot disturb
either, so its program is proved with the triples of sequential code.

## Main definitions

* `Lease` — the parts, the invariant of the state, and when a part is locked.
* `Lease.protocol` — the protocol: the auxiliary value of a holder is its part.
* `Lease.Triple` — a triple of a holder, with the rules of sequential code.
-/

namespace Lib
open Function

/-- Parts of the state for one holder each at a time. -/
structure Lease (σ ι ο : Type) where
  own : σ → ι → Option ο
  Taken : σ → ι → Prop
  Inv : σ → Prop
  Evolves : σ → σ → Prop
  refl : ∀ s, Evolves s s
  trans : ∀ a b c, Evolves a b → Evolves b c → Evolves a c

namespace Lease
variable {τ σ χ ε ι ο α β : Type} (L : Lease σ ι ο)

/-- A locked part has one holder; the auxiliary value of the holder is the index of its
part, and the part once it has looked at it. -/
def protocol (τ : Type) : Protocol τ σ (Option (ι × Option ο)) where
  Inv s g := L.Inv s ∧
    (∀ t i v, g t = some (i, v) → L.Taken s i ∧ ∀ o, v = some o → L.own s i = some o) ∧
    ∀ t u i v w, g t = some (i, v) → g u = some (i, w) → t = u
  Evolves := L.Evolves
  refl := L.refl
  trans := L.trans

/-- The parts that others hold stay locked and as they are. -/
def Leaves (others : ι → Prop) (s s' : σ) : Prop :=
  ∀ j, others j → L.Taken s j → L.Taken s' j ∧ ∀ o, L.own s j = some o → L.own s' j = some o

variable {L} [DecidableEq τ] {t : τ} {i : ι}

/-- What a holder knows between its sections. -/
structure Knows (L : Lease σ ι ο) (t : τ) (i : ι) (P : σ → ο → Prop) (s : σ)
    (g : τ → Option (ι × Option ο)) : Prop where
  inv : (L.protocol τ).Inv s g
  held : ∃ o s₀, g t = some (i, some o) ∧ L.Evolves s₀ s ∧ P s₀ o

/-- What a holder knows before it has looked at its part. -/
structure Holds (L : Lease σ ι ο) (t : τ) (i : ι) (s : σ) (g : τ → Option (ι × Option ο)) : Prop where
  inv : (L.protocol τ).Inv s g
  held : g t = some (i, none)

omit [DecidableEq τ] in
/-- The others keep what a holder knows. -/
theorem Knows.between {P : σ → ο → Prop} {s s' : σ} {g g' : τ → Option (ι × Option ο)}
    (h : Knows L t i P s g) (hb : (L.protocol τ).Between t s g s' g') : Knows L t i P s' g' := by
  obtain ⟨o, s₀, hg, hev, hP⟩ := h.held
  exact ⟨hb.inv, o, s₀, hb.own.trans hg, L.trans _ _ _ hev hb.evolves, hP⟩

omit [DecidableEq τ] in
theorem Holds.between {s s' : σ} {g g' : τ → Option (ι × Option ο)}
    (h : Holds L t i s g) (hb : (L.protocol τ).Between t s g s' g') : Holds L t i s' g' :=
  ⟨hb.inv, hb.own.trans h.held⟩

/-- The invariant after a section of a holder of part `i`, or of one that takes it. -/
theorem inv_holder {s s' : σ} {g : τ → Option (ι × Option ο)} {v : Option ο}
    (hinv : (L.protocol τ).Inv s g) (hself : ∀ j w, g t = some (j, w) → j = i)
    (hothers : ∀ u w, u ≠ t → g u ≠ some (i, w)) (hinv' : L.Inv s')
    (hleaves : L.Leaves (· ≠ i) s s') (htaken : L.Taken s' i)
    (hown : ∀ o, v = some o → L.own s' i = some o) :
    (L.protocol τ).Inv s' (update g t (some (i, v))) := by
  have hne : ∀ u j w, u ≠ t → g u = some (j, w) → j ≠ i := by
    rintro u j w hu hg rfl
    exact hothers u w hu hg
  refine ⟨hinv', fun u j w hu => ?_, fun u u' j w w' hu hu' => ?_⟩
  · by_cases hut : u = t
    · subst hut
      simp only [update_self, Option.some.injEq, Prod.mk.injEq] at hu
      obtain ⟨rfl, rfl⟩ := hu
      exact ⟨htaken, hown⟩
    · rw [update_of_ne hut] at hu
      obtain ⟨hu₁, hu₂⟩ := hinv.2.1 u j w hu
      obtain ⟨h₁, h₂⟩ := hleaves j (hne u j w hut hu) hu₁
      exact ⟨h₁, fun o ho => h₂ o (hu₂ o ho)⟩
  · by_cases hut : u = t <;> by_cases hut' : u' = t
    · rw [hut, hut']
    · subst hut
      rw [update_of_ne hut'] at hu'
      simp only [update_self, Option.some.injEq, Prod.mk.injEq] at hu
      exact absurd hu.1.symm (hne u' j w' hut' hu')
    · subst hut'
      rw [update_of_ne hut] at hu
      simp only [update_self, Option.some.injEq, Prod.mk.injEq] at hu'
      exact absurd hu'.1.symm (hne u j w hut hu)
    · rw [update_of_ne hut] at hu
      rw [update_of_ne hut'] at hu'
      exact hinv.2.2 u u' j w w' hu hu'

/-- A holder's program can run from `P`, and ends in `Q`. -/
def Triple (L : Lease σ ι ο) (t : τ) (i : ι) (P : σ → ο → Prop) (p : Prog σ χ ε α)
    (Q : Except ε α → σ → ο → Prop) : Prop :=
  ∀ s g, Knows L t i P s g → wp (L.protocol τ) t (fun r => Knows L t i (Q r)) p s g

/-- What a section of a holder of part `i` does to the state. -/
structure Step (L : Lease σ ι ο) (i : ι) (s s' : σ) : Prop where
  inv : L.Inv s'
  evolves : L.Evolves s s'
  taken : L.Taken s' i
  leaves : L.Leaves (· ≠ i) s s'

theorem Step.refl {s : σ} (hinv : L.Inv s) (htaken : L.Taken s i) : L.Step i s s :=
  ⟨hinv, L.refl s, htaken, fun _ _ h => ⟨h, fun _ ho => ho⟩⟩

variable {P P' : σ → ο → Prop} {Q Q' : Except ε α → σ → ο → Prop}

/-! ## Rules -/

theorem Triple.pure {a : α} (h : ∀ s o, P s o → Q (.ok a) s o) :
    Triple L t i P (.pure a : Prog σ χ ε α) Q := fun _ _ hk =>
  let ⟨o, s₀, hg, hev, hP⟩ := hk.held
  ⟨hk.inv, o, s₀, hg, hev, h s₀ o hP⟩

theorem Triple.throw {e : ε} (h : ∀ s o, P s o → Q (.error e) s o) :
    Triple L t i P (.throw e : Prog σ χ ε α) Q := fun _ _ hk =>
  let ⟨o, s₀, hg, hev, hP⟩ := hk.held
  ⟨hk.inv, o, s₀, hg, hev, h s₀ o hP⟩

omit [DecidableEq τ] in
theorem Knows.mono {s : σ} {g : τ → Option (ι × Option ο)} (h : Knows L t i P s g)
    (hP : ∀ s o, P s o → P' s o) : Knows L t i P' s g :=
  let ⟨o, s₀, hg, hev, hp⟩ := h.held
  ⟨h.inv, o, s₀, hg, hev, hP s₀ o hp⟩

/-- The rule of consequence. -/
theorem Triple.mono {p : Prog σ χ ε α} (h : Triple L t i P p Q) (hP : ∀ s o, P' s o → P s o)
    (hQ : ∀ r s o, Q r s o → Q' r s o) : Triple L t i P' p Q' :=
  fun s g hk => wp_mono (fun r _ _ hq => hq.mono (hQ r)) (h s g (hk.mono hP))

theorem Triple.pre {p : Prog σ χ ε α} (h : Triple L t i P p Q) (hP : ∀ s o, P' s o → P s o) :
    Triple L t i P' p Q := h.mono hP fun _ _ _ hq => hq

/-- What is never reached. -/
theorem Triple.absurd {p : Prog σ χ ε α} (h : ∀ s o, ¬ P s o) : Triple L t i P p Q :=
  fun _ _ hk => let ⟨o, s₀, _, _, hP⟩ := hk.held; (h s₀ o hP).elim

/-- A fact that does not depend on the state. -/
theorem Triple.assume {p : Prog σ χ ε α} {φ : Prop} (hφ : ∀ s o, P s o → φ)
    (h : φ → Triple L t i P p Q) : Triple L t i P p Q := fun s g hk =>
  let ⟨o, s₀, _, _, hP⟩ := hk.held
  h (hφ s₀ o hP) s g hk

/-- The rule of sequencing. -/
theorem Triple.seq {p : Prog σ χ ε α} {f : α → Prog σ χ ε β} {R : Except ε β → σ → ο → Prop}
    (hp : Triple L t i P p Q) (hok : ∀ a, Triple L t i (Q (.ok a)) (f a) R)
    (herr : ∀ e s o, Q (.error e) s o → R (.error e) s o) : Triple L t i P (p.bind f) R :=
  fun s g hk => wp_seq (hp s g hk) (fun a s g hq => hok a s g hq)
    fun e _ _ hq => hq.mono (herr e)

/-- The rule of `try`, where `k` handles the result either way. -/
theorem Triple.catch {p : Prog σ χ ε α} {k : Except ε α → Prog σ χ ε β}
    {R : Except ε β → σ → ο → Prop} (hp : Triple L t i P p Q) (hk : ∀ r, Triple L t i (Q r) (k r) R) :
    Triple L t i P (p.attempt.bind k) R :=
  fun s g h => wp_try (hp s g h) fun r s g hq => hk r s g hq

/-- The rule of a section. -/
theorem Triple.act {f : χ → σ → Except ε α × σ}
    (h : ∀ c s s₀ o, L.Inv s → L.Taken s i → L.own s i = some o → L.Evolves s₀ s → P s₀ o →
      L.Step i s (f c s).2 ∧ ∃ o', L.own (f c s).2 i = some o' ∧ Q (f c s).1 (f c s).2 o') :
    Triple L t i P (.act f) Q := by
  intro s g hk
  refine wp_act.2 fun s' g' hb c => ?_
  have hk' := hk.between hb
  obtain ⟨o, s₀, hg, hev, hP⟩ := hk'.held
  obtain ⟨htaken, hown⟩ := hk'.inv.2.1 t i (some o) hg
  obtain ⟨hstep, o', hown', hQ⟩ := h c s' s₀ o hk'.inv.1 htaken (hown o rfl) hev hP
  have hinv := inv_holder hk'.inv (t := t) (i := i) (v := some o')
    (fun j w hj => by simpa using congrArg (Option.map Prod.fst) (hj.symm.trans hg))
    (fun u w hu hw => hu (hk'.inv.2.2 u t i w _ hw hg)) hstep.inv hstep.leaves hstep.taken
    (by rintro _ ⟨⟩; exact hown')
  exact ⟨some (i, some o'), ⟨hinv, hstep.evolves⟩, hinv, o', _, update_self .., L.refl _, hQ⟩

/-- The rule of a section that reads only. -/
theorem Triple.look {f : χ → σ → Except ε α}
    (h : ∀ c s s₀ o, L.Inv s → L.own s i = some o → L.Evolves s₀ s → P s₀ o → Q (f c s) s o) :
    Triple L t i P (.look f) Q :=
  .act fun c s s₀ o hinv htaken hown hev hP =>
    ⟨.refl hinv htaken, o, hown, h c s s₀ o hinv hown hev hP⟩

/-- The rule of a section that leaves the part of its thread alone: the assertion stays,
of the same earlier moment. -/
theorem Triple.keep {f : χ → σ → Except ε α × σ}
    (h : ∀ c s s₀ o, L.Inv s → L.Taken s i → L.own s i = some o → L.Evolves s₀ s → P s₀ o →
      L.Step i s (f c s).2 ∧ L.own (f c s).2 i = some o) :
    Triple L t i P (.act f) (fun _ => P) := by
  intro s g hk
  refine wp_act.2 fun s' g' hb c => ?_
  have hk' := hk.between hb
  obtain ⟨o, s₀, hg, hev, hP⟩ := hk'.held
  obtain ⟨htaken, hown⟩ := hk'.inv.2.1 t i (some o) hg
  obtain ⟨hstep, hown'⟩ := h c s' s₀ o hk'.inv.1 htaken (hown o rfl) hev hP
  have hinv := inv_holder hk'.inv (t := t) (i := i) (v := some o)
    (fun j w hj => by simpa using congrArg (Option.map Prod.fst) (hj.symm.trans hg))
    (fun u w hu hw => hu (hk'.inv.2.2 u t i w _ hw hg)) hstep.inv hstep.leaves hstep.taken
    (by rintro _ ⟨⟩; exact hown')
  exact ⟨some (i, some o), ⟨hinv, hstep.evolves⟩, hinv, o, s₀, update_self ..,
    L.trans _ _ _ hev hstep.evolves, hP⟩

/-- The rule of a section that reads what the assertion does not need. -/
theorem Triple.read {f : χ → σ → Except ε α} : Triple L t i P (.look f) (fun _ => P) :=
  .keep fun _ _ _ _ hinv htaken hown _ _ => ⟨.refl hinv htaken, hown⟩

omit [DecidableEq τ] in
theorem stable_knows (Q : σ → ο → Prop) :
    (L.protocol τ).Stable t (fun s g => Knows L t i Q s g) :=
  fun _ _ _ _ hk hb => hk.between hb

/-! ## Getting and giving back a lease -/

/-- A section of a thread that holds nothing, and leaves the locked parts alone. -/
theorem section_idle {s s' : σ} {g : τ → Option (ι × Option ο)} (hinv : (L.protocol τ).Inv s g)
    (ht : g t = none) (hinv' : L.Inv s') (hev : L.Evolves s s')
    (hleaves : L.Leaves (fun _ => True) s s') : (L.protocol τ).Section t s g s' none := by
  have hg : update g t none = g := by rw [← ht, update_eq_self]
  refine ⟨?_, hev⟩
  rw [hg]
  refine ⟨hinv', fun u j w hu => ?_, hinv.2.2⟩
  obtain ⟨h₁, h₂⟩ := hinv.2.1 u j w hu
  obtain ⟨h₃, h₄⟩ := hleaves j trivial h₁
  exact ⟨h₃, fun o ho => h₄ o (h₂ o ho)⟩

/-- A thread that gets the lock of a part. -/
theorem section_take {s s' : σ} {g : τ → Option (ι × Option ο)} (hinv : (L.protocol τ).Inv s g)
    (ht : g t = none) (hfree : ¬ L.Taken s i) (hinv' : L.Inv s') (hev : L.Evolves s s')
    (htaken : L.Taken s' i) (hleaves : L.Leaves (· ≠ i) s s') :
    (L.protocol τ).Section t s g s' (some (i, none)) ∧
      Holds L t i s' (update g t (some (i, none))) := by
  have hinv'' := inv_holder hinv (t := t) (i := i) (v := none) (fun j w hj => by simp [ht] at hj)
    (fun u w _ hw => hfree (hinv.2.1 u i w hw).1) hinv' hleaves htaken (by rintro _ ⟨⟩)
  exact ⟨⟨hinv'', hev⟩, hinv'', update_self ..⟩

/-- A holder that looks at its part. -/
theorem section_view {s : σ} {g : τ → Option (ι × Option ο)} {o : ο} (h : Holds L t i s g)
    (hown : L.own s i = some o) (hP : P s o) :
    (L.protocol τ).Section t s g s (some (i, some o)) ∧
      Knows L t i P s (update g t (some (i, some o))) := by
  have hinv := inv_holder h.inv (t := t) (i := i) (v := some o)
    (fun j w hj => by simpa using congrArg (Option.map Prod.fst) (hj.symm.trans h.held))
    (fun u w hu hw => hu (h.inv.2.2 u t i w _ hw h.held)) h.inv.1
    (fun _ _ hj => ⟨hj, fun _ ho => ho⟩) (h.inv.2.1 t i none h.held).1
    (by rintro _ ⟨⟩; exact hown)
  exact ⟨⟨hinv, L.refl s⟩, hinv, o, s, update_self .., L.refl s, hP⟩

/-- A holder that gives the lock back. -/
theorem section_release {s s' : σ} {g : τ → Option (ι × Option ο)} {v : Option ο}
    (hinv : (L.protocol τ).Inv s g) (ht : g t = some (i, v)) (hinv' : L.Inv s')
    (hev : L.Evolves s s') (hleaves : L.Leaves (· ≠ i) s s') :
    (L.protocol τ).Section t s g s' none := by
  refine ⟨⟨hinv', fun u j w hu => ?_, fun u u' j w w' hu hu' => ?_⟩, hev⟩
  · have hut : u ≠ t := by rintro rfl; simp at hu
    rw [update_of_ne hut] at hu
    obtain ⟨h₁, h₂⟩ := hinv.2.1 u j w hu
    have hj : j ≠ i := by rintro rfl; exact hut (hinv.2.2 u t j w v hu ht)
    obtain ⟨h₃, h₄⟩ := hleaves j hj h₁
    exact ⟨h₃, fun o ho => h₄ o (h₂ o ho)⟩
  · have hut : u ≠ t := by rintro rfl; simp at hu
    have hut' : u' ≠ t := by rintro rfl; simp at hu'
    rw [update_of_ne hut] at hu
    rw [update_of_ne hut'] at hu'
    exact hinv.2.2 u u' j w w' hu hu'

end Lease
end Lib
