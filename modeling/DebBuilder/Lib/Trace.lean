import Mathlib
import DebBuilder.Lib.Pool

/-!
# What one call has seen

A call that has returned performed its sections in order, each on the state that it
then found.  Its *trace* lists the choice and the state of every section.  The rules
read the traces of a program off its shape; `Life.trace` finds the trace of a call in
any run of the pool, with its states in the order of the run.

## Main definitions

* `Prog.Returns` — a trace with which a program returns a value.
* `System.Life` — a run from the start of a call to its return.
* `Life.trace` — the trace of a call in its run.
-/

namespace Lib

variable {τ κ σ χ ε α β : Type}

namespace Prog

/-- The program returns `b` when its sections find the choices and the states of the
list, in this order. -/
def Returns : Prog σ χ ε α → List (χ × σ) → α → Prop
  | pure a, tr, b => tr = [] ∧ a = b
  | throw _, _, _ => False
  | atomic en _ next, tr, b =>
      ∃ c s rest, tr = (c, s) :: rest ∧ en c s = true ∧ (next c s).Returns rest b

variable {tr : List (χ × σ)} {b : β}

@[simp] theorem returns_pure {a a' : α} :
    (pure a : Prog σ χ ε α).Returns tr a' ↔ tr = [] ∧ a = a' := Iff.rfl

@[simp] theorem returns_ofExcept {r : Except ε α} {a : α} :
    (ofExcept r : Prog σ χ ε α).Returns tr a ↔ tr = [] ∧ r = .ok a := by
  cases r <;> simp [ofExcept, Returns]

/-- The sections of a sequence are those of its parts. -/
theorem returns_bind {p : Prog σ χ ε α} {f : α → Prog σ χ ε β} :
    (p.bind f).Returns tr b ↔
      ∃ a tr₁ tr₂, tr = tr₁ ++ tr₂ ∧ p.Returns tr₁ a ∧ (f a).Returns tr₂ b := by
  induction p generalizing tr with
  | pure a => simp [Prog.bind]
  | throw e => simp [Prog.bind, Returns]
  | atomic en upd next ih =>
      simp only [Prog.bind, Returns, ih]
      constructor
      · rintro ⟨c, s, _, rfl, hc, a, tr₁, tr₂, rfl, h₁, h₂⟩
        exact ⟨a, (c, s) :: tr₁, tr₂, rfl, ⟨c, s, tr₁, rfl, hc, h₁⟩, h₂⟩
      · rintro ⟨a, _, tr₂, rfl, ⟨c, s, tr₁, rfl, hc, h₁⟩, h₂⟩
        exact ⟨c, s, tr₁ ++ tr₂, rfl, hc, a, tr₁, tr₂, rfl, h₁, h₂⟩

/-- A section is found in one state. -/
@[simp] theorem returns_act {f : χ → σ → Except ε α × σ} {a : α} :
    (act f).Returns tr a ↔ ∃ c s, tr = [(c, s)] ∧ (f c s).1 = .ok a := by
  simp only [act, actWhen, Returns, returns_ofExcept, true_and]
  constructor
  · rintro ⟨c, s, _, rfl, rfl, h⟩
    exact ⟨c, s, rfl, h⟩
  · rintro ⟨c, s, rfl, h⟩
    exact ⟨c, s, [], rfl, rfl, h⟩

@[simp] theorem returns_look {f : χ → σ → Except ε α} {a : α} :
    (look f).Returns tr a ↔ ∃ c s, tr = [(c, s)] ∧ f c s = .ok a := returns_act

end Prog

variable [DecidableEq τ] {S : System κ σ χ ε α}

/-- The list of pools is a run from the start of a call to its return. -/
structure System.Life (S : System κ σ χ ε α) (t : τ) (call : κ)
    (l : List (Pool τ σ χ ε α)) (a : α) : Prop where
  run : S.IsRun l
  called : ∃ p ∈ l.head?, p.threads t = some (S.code call)
  returned : ∃ p ∈ l.getLast?, p.Returned t a

/-- A step of the pool performs the next section of a thread, or leaves its program
alone. -/
theorem System.Next.thread (hS : ∀ s, S.restart s = none) {p q : Pool τ σ χ ε α}
    (h : S.Next p q) {t : τ} {prog : Prog σ χ ε α} (ht : p.threads t = some prog) :
    q.threads t = some prog ∨ ∃ en upd next c, prog = .atomic en upd next ∧
      en c p.shared = true ∧ q.threads t = some (next c p.shared) := by
  rcases h.cases with ⟨u, call, hu, -, hq⟩ | ⟨u, en, upd, next, c, hu, hc, -, hq⟩ | ⟨s, hs, -⟩
  · left
    rw [hq, Function.update_of_ne (by rintro rfl; simp [ht] at hu), ht]
  · rcases eq_or_ne t u with rfl | hne
    · right
      exact ⟨en, upd, next, c, Option.some.inj (ht.symm.trans hu), hc, by simp [hq]⟩
    · left
      rw [hq, Function.update_of_ne hne, ht]
  · simp [hS] at hs

/-- What a thread has returned stays. -/
theorem System.Reaches.returned (hS : ∀ s, S.restart s = none) {p q : Pool τ σ χ ε α}
    (h : S.Reaches p q) {t : τ} {a : α} (ht : p.Returned t a) : q.Returned t a := by
  induction h with
  | refl => exact ht
  | tail _ hn ih =>
      rcases hn.thread hS ih with hq | ⟨en, upd, next, c, hp, -, -⟩
      · exact hq
      · simp at hp

/-- The trace of what is left of a thread's program, in the rest of a run. -/
theorem System.exists_trace (hS : ∀ s, S.restart s = none) {t : τ} {a : α}
    {l : List (Pool τ σ χ ε α)} {p : Pool τ σ χ ε α} {prog : Prog σ χ ε α}
    (hl : S.IsRun (p :: l)) (ht : p.threads t = some prog)
    (ha : ∃ q ∈ (p :: l).getLast?, q.Returned t a) :
    ∃ tr, prog.Returns tr a ∧ (tr.map Prod.snd).Sublist ((p :: l).map (·.shared)) := by
  induction l generalizing p prog with
  | nil =>
      obtain ⟨q, hq, hr⟩ := ha
      obtain rfl : p = q := by simpa using hq
      obtain rfl : prog = .pure a := Option.some.inj (ht.symm.trans hr)
      exact ⟨[], ⟨rfl, rfl⟩, List.nil_sublist _⟩
  | cons q l ih =>
      obtain ⟨hnext, hrest⟩ := List.isChain_cons_cons.1 hl
      have ha' : ∃ r ∈ (q :: l).getLast?, r.Returned t a := by simpa using ha
      rcases hnext.thread hS ht with hq | ⟨en, upd, next, c, rfl, hc, hq⟩
      · obtain ⟨tr, htr, hsub⟩ := ih hrest hq ha'
        exact ⟨tr, htr, hsub.cons _⟩
      · obtain ⟨tr, htr, hsub⟩ := ih hrest hq ha'
        exact ⟨(c, p.shared) :: tr, ⟨c, p.shared, tr, rfl, hc, htr⟩, hsub.cons_cons _⟩

/-- A call that has returned has a trace in its run. -/
theorem System.Life.trace (hS : ∀ s, S.restart s = none) {t : τ} {call : κ} {a : α}
    {l : List (Pool τ σ χ ε α)} (h : S.Life t call l a) :
    ∃ tr, (S.code call).Returns tr a ∧ (tr.map Prod.snd).Sublist (l.map (·.shared)) := by
  obtain ⟨p, hp, ht⟩ := h.called
  cases l with
  | nil => simp at hp
  | cons q l =>
      obtain rfl : q = p := by simpa using hp
      exact S.exists_trace hS h.run ht h.returned

/-! ## Runs that are given by their events -/

/-- The pools that a list of events visits. -/
def System.trail (S : System κ σ χ ε α) (p : Pool τ σ χ ε α) :
    List (Event τ κ χ) → Option (List (Pool τ σ χ ε α))
  | [] => some [p]
  | e :: es => (S.step p e).bind fun q => (S.trail q es).map (p :: ·)

theorem System.isRun_of_trail {p : Pool τ σ χ ε α} {es : List (Event τ κ χ)}
    {l : List (Pool τ σ χ ε α)} (h : S.trail p es = some l) : S.IsRun l ∧ l.head? = some p := by
  induction es generalizing p l with
  | nil =>
      obtain rfl : [p] = l := by simpa [trail] using h
      exact ⟨.singleton p, rfl⟩
  | cons e es ih =>
      simp only [trail, Option.bind_eq_some_iff, Option.map_eq_some_iff] at h
      obtain ⟨q, hq, l, hl, rfl⟩ := h
      obtain ⟨hrun, hhead⟩ := ih hl
      refine ⟨List.isChain_cons.2 ⟨fun r hr => ?_, hrun⟩, rfl⟩
      obtain rfl : q = r := by simpa [hhead] using hr
      exact ⟨e, hq⟩

/-- A test that a call passes when it returns holds of some life of it. -/
theorem System.exists_life {p : Pool τ σ χ ε α} (es es' : List (Event τ κ χ)) (t : τ) (call : κ)
    (check : List (Pool τ σ χ ε α) → α → Bool)
    (h : ((S.run p (es ++ [.spawn t call])).any fun q => (S.trail q es').any fun l =>
      l.getLast?.any fun z => (z.result? t).any (check l)) = true) :
    ∃ q l a, S.Reaches p q ∧ l.head? = some q ∧ S.Life t call l a ∧ check l a = true := by
  simp only [Option.any_eq_true] at h
  obtain ⟨q, hq, l, hl, z, hz, a, ha, hc⟩ := h
  obtain ⟨hrun, hhead⟩ := isRun_of_trail hl
  refine ⟨q, l, a, reaches_of_run hq, hhead, ⟨hrun, ⟨q, hhead, ?_⟩, z, hz,
    Pool.returned_of_result? ha⟩, hc⟩
  exact S.threads_of_run_spawn hq

end Lib
