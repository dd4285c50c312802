import Mathlib
import DebBuilder.Automation.Admission
import DebBuilder.Automation.Growth

/-!
# Automation is sound

Every call keeps the lease, so the invariant holds in every state that a run of threads,
workers, operators and restarts reaches, and the state only moves forward along the run.

## Main results

* `automation_sound` — every call keeps the lease.
* `Reachable.inv`, `Reachable.evolves` — the invariant of every run.
-/

namespace DebBuilder.Automation
open Function Lib

variable {cfg : Config} {τ : Type} [DecidableEq τ] {t : τ} {slot : Slot}
  {s : State cfg} {g : τ → Option (Slot × Option (Attempt × Row))}

/-! ## Advancing a generation -/

/-- The row that a thread has read is its turn. -/
theorem Inv.first (h : Inv s) {a : Attempt} {row : Row} (hrow : s.row? slot = some (a, row))
    (hturn : isRecipeTurn s.ledger.attempts row a = true) : First s slot a.recipeId row.createdAt := by
  refine ⟨(h.births slot row.createdAt).2 ⟨a, row, hrow, rfl⟩, fun slot' t' hbirth hlt => ?_⟩
  obtain ⟨a', row', hrow', rfl⟩ := (h.births slot' t').1 hbirth
  refine ⟨a', row', hrow', fun hrecipe => ?_⟩
  by_contra hlive
  obtain ⟨entry, hentry, rfl, hget⟩ := findRow_eq_some.1 hrow'
  -- the other row would be one of the turns, before this one
  have hmem : (row'.createdAt, entry.key, row'.generation) ∈
      (s.ledger.attempts.filter (·.recipeId = a.recipeId)).flatMap fun entry =>
        (entry.generations.filter Row.live).map fun r => (r.createdAt, entry.key, r.generation) := by
    refine List.mem_flatMap.2 ⟨entry, List.mem_filter.2 ⟨(mem_of_findEntry hentry).1, by simpa⟩,
      List.mem_map.2 ⟨row', List.mem_filter.2 ⟨List.mem_of_getElem? hget, ?_⟩, rfl⟩⟩
    simpa [Row.live] using hlive
  simp only [isRecipeTurn, Bool.or_eq_true, decide_eq_true_eq, Bool.not_eq_true',
    List.any_eq_false] at hturn
  rcases hturn with hnone | hbefore
  · rw [hnone] at hmem
    simp at hmem
  · exact hbefore _ hmem (by simp [turnBefore, hlt])

/-- What a thread that has read the ledger knows of its row. -/
def Viewed (slot : Slot) (attempts : List Entry) (s : State cfg) (o : Attempt × Row) : Prop :=
  Inv s ∧ s.ledger.attempts = attempts ∧ s.row? slot = some o

theorem Viewed.current {attempts : List Entry} {entry : Entry} {row : Row} {o : Attempt × Row}
    (h : Viewed slot attempts s o) (hentry : findEntry attempts slot.1 = some entry)
    (hrow : findRow attempts slot = some (entry.toAttempt, row)) (hlive : row.state.stopped = false)
    (hturn : isRecipeTurn attempts row entry.toAttempt = true) :
    Current slot entry row (fun s row => row.stage.downstream = true → Behind s row) s o := by
  obtain ⟨hinv, rfl, hown⟩ := h
  obtain rfl := Option.some.inj (hrow.symm.trans hown)
  have hvalid := hinv.valid hown
  exact ⟨⟨(mem_of_findEntry hentry).2, hvalid.generation, rfl, by simp [Row.live, hlive], .refl row,
    hvalid, s, .refl s, hinv.first hown hturn⟩, rfl,
    fun hstage => (hinv.rows slot _ row hown).built (.inl hstage)⟩

/-- The thread holds the lock of the generation. -/
def Locked (t : τ) (slot : Slot) (s : State cfg) (g : τ → Option (Slot × Option (Attempt × Row))) :
    Prop :=
  ((lease cfg).protocol τ).Inv s g ∧ ∃ v, g t = some (slot, v)

omit [DecidableEq τ] in
theorem locked_of_knows {P : State cfg → Attempt × Row → Prop}
    (h : Lease.Knows (lease cfg) t slot P s g) : Locked t slot s g := by
  obtain ⟨o, s₀, hg, -⟩ := h.held
  exact ⟨h.inv, some o, hg⟩

/-- Under the lock the thread looks at its row, and handles it. -/
theorem wp_advanceLocked (depth : Nat) (h : Lease.Holds (lease cfg) t slot s g) :
    wp ((lease cfg).protocol τ) t (fun _ => Locked t slot) (advanceLocked depth slot) s g := by
  unfold advanceLocked
  refine wp_seq (Q := fun r s g => match r with
      | .error _ => Locked t slot s g
      | .ok attempts => Locked t slot s g ∧ (findRow attempts slot ≠ none →
          Lease.Knows (lease cfg) t slot (Viewed slot attempts) s g)) ?_ (fun attempts s g hq => ?_)
    fun _ _ _ h => h
  · refine wp_act.2 fun s' g' hb c => ?_
    have h' := h.between hb
    have hstay : ((lease cfg).protocol τ).Section t s' g' s' (g' t) :=
      ⟨by rw [update_eq_self]; exact h'.inv, .refl s'⟩
    cases hf : c.fault with
    | some f =>
        refine ⟨g' t, by simpa [Choice.read, hf] using hstay, ?_⟩
        simp only [Choice.read, hf, update_eq_self]
        exact ⟨h'.inv, none, h'.held⟩
    | none =>
        simp only [Choice.read, hf]
        cases hrow : s'.row? slot with
        | none =>
            refine ⟨g' t, hstay, ?_⟩
            rw [update_eq_self]
            exact ⟨⟨h'.inv, none, h'.held⟩, fun hne => absurd hrow hne⟩
        | some o =>
            obtain ⟨hsection, hknows⟩ := Lease.section_view h' hrow (P := Viewed slot s'.ledger.attempts)
              ⟨h'.inv.1, rfl, hrow⟩
            exact ⟨_, hsection, locked_of_knows hknows, fun _ => hknows⟩
  · obtain ⟨hlocked, hknows⟩ := hq
    cases hentry : findEntry attempts slot.1 with
    | none => simpa using hlocked
    | some entry =>
        cases hrow : findRow attempts slot with
        | none => simpa using hlocked
        | some found =>
            obtain ⟨a, row⟩ := found
            obtain rfl : entry.toAttempt = a := by
              obtain ⟨e, he, ha, -⟩ := findRow_eq_some.1 hrow
              rw [hentry] at he
              rw [Option.some.inj he, ha]
            refine wp_mono (fun _ _ _ hk => locked_of_knows hk) (Q := fun r =>
              Lease.Knows (lease cfg) t slot ((fun _ _ _ => True : Except Fault Unit → _) r)) ?_
            refine Lease.Triple.seq (P := Viewed slot attempts) .read (fun clock => ?_)
              (fun _ _ _ _ => trivial) s g (hknows (by simp [hrow]))
            split
            · exact .pure fun _ _ _ => trivial
            · rename_i hgo
              simp only [Bool.or_eq_true, Bool.not_eq_true', not_or, Bool.not_eq_true,
                Bool.not_eq_false] at hgo
              exact (triple_dispatch depth).pre fun s o hv =>
                hv.current hentry hrow hgo.1.1 hgo.2

omit [DecidableEq τ] in
/-- The state when the lock of a generation changes. -/
theorem quiet_locks (h : Inv s) (locks : Slot → Bool) :
    Inv { s with locks } ∧ Evolves s { s with locks } :=
  ⟨⟨h.keys, h.rows, h.runs, h.created, h.owners, h.issued, h.generations, h.births, h.turns, h.claimed⟩,
    fun _ _ row h => ⟨row, h, .refl row⟩, fun _ doc hd => ⟨doc, hd, .refl doc⟩,
    fun _ _ x hx => ⟨x, hx, fun _ => rfl⟩, List.suffix_rfl, List.suffix_rfl, List.suffix_rfl⟩

/-- A thread that holds no lock gives back to none. -/
def Free (t : τ) (s : State cfg) (g : τ → Option (Slot × Option (Attempt × Row))) : Prop :=
  ((lease cfg).protocol τ).Inv s g ∧ g t = none

theorem wp_release (h : Locked t slot s g) :
    wp ((lease cfg).protocol τ) t (fun r s g => r = .ok () ∧ Free t s g) (release slot) s g := by
  refine wp_act.2 fun s' g' hb c => ?_
  obtain ⟨-, v, hv⟩ := h
  have hg : g' t = some (slot, v) := hb.own.trans hv
  obtain ⟨hinv, hev⟩ := quiet_locks hb.inv.1 (update s'.locks slot false)
  have hsection := Lease.section_release hb.inv hg hinv hev fun j hj htaken =>
    ⟨show update s'.locks slot false j = true by rw [update_of_ne hj]; exact htaken, fun o ho => ho⟩
  exact ⟨none, hsection, rfl, hsection.inv, update_self ..⟩

/-- One call of `advance` keeps the protocol. -/
theorem wp_advance (depth : Nat) (ht : g t = none) :
    wp ((lease cfg).protocol τ) t (fun _ => Free t) (advance depth slot) s g := by
  unfold advance
  refine wp_seq (Q := fun r s g => Except.casesOn r (fun _ => Free t s g) fun taken =>
      Bool.casesOn taken (Free t s g) (Lease.Holds (lease cfg) t slot s g)) ?_ (fun b s g hq => ?_) fun _ _ _ h => h
  · refine wp_act.2 fun s' g' hb c => ?_
    have hnone : g' t = none := hb.own.trans ht
    obtain ⟨hinv', hev⟩ := quiet_locks hb.inv.1 (update s'.locks slot true)
    cases hlock : s'.locks slot with
    | true =>
        -- the lock is held by another thread
        have hsame : update s'.locks slot true = s'.locks := by rw [← hlock, update_eq_self]
        refine ⟨none, Lease.section_idle hb.inv hnone hinv' hev fun j _ htaken => ⟨?_, fun o ho => ho⟩, ?_⟩
        · show update s'.locks slot true j = true
          rw [hsame]
          exact htaken
        · have hg : update g' t none = g' := by rw [← hnone, update_eq_self]
          simp only [Bool.not_true, hg]
          exact ⟨⟨hinv', fun u j w hu => ⟨by
            show update s'.locks slot true j = true
            rw [hsame]
            exact (hb.inv.2.1 u j w hu).1, (hb.inv.2.1 u j w hu).2⟩, hb.inv.2.2⟩, hnone⟩
    | false =>
        obtain ⟨hsection, hholds⟩ := Lease.section_take (i := slot) hb.inv hnone
          (show ¬ s'.locks slot = true by simp [hlock]) hinv' hev (update_self ..) fun j hj htaken =>
            ⟨show update s'.locks slot true j = true by rw [update_of_ne hj]; exact htaken,
              fun o ho => ho⟩
        refine ⟨_, hsection, ?_⟩
        simp only [Bool.not_false]
        exact hholds
  · cases b with
    | false => exact hq
    | true =>
        refine wp_ensuring (Q := fun _ => Locked t slot) ?_ fun r s g h => ?_
        · refine wp_try (wp_advanceLocked depth hq) fun r s g h => ?_
          cases r with
          | ok u => exact h
          | error f => cases f <;> exact h
        · refine wp_mono (fun f s g hf => ?_) (wp_release h)
          rw [hf.1]
          exact hf.2

/-! ## The system -/

/-- A call of one section that holds no lock. -/
theorem wp_idle {f : Choice → State cfg → Except Fault Unit × State cfg}
    (hf : ∀ c s, Inv s → Idle s (f c s).2) (ht : g t = none) :
    wp ((lease cfg).protocol τ) t (fun _ => Free t) (.act f) s g := by
  refine wp_act.2 fun s' g' hb c => ?_
  have hnone : g' t = none := hb.own.trans ht
  have h := hf c s' hb.inv.1
  have hsection := Lease.section_idle hb.inv hnone h.inv h.evolves h.leaves
  exact ⟨none, hsection, hsection.inv, update_self ..⟩

/-- Automation keeps the lease. -/
theorem automation_sound :
    ((lease cfg).protocol τ).Sound (automation cfg) none (fun t _ => Free t) where
  stable _ _ _ _ _ _ h hb := ⟨hb.inv, hb.own.trans h.2⟩
  restart s s' g hinv hs := by
    obtain rfl := Option.some.inj hs
    obtain ⟨hinv', hev⟩ := quiet_locks hinv.1 fun _ => false
    exact ⟨⟨hinv', fun u j w hu => by simp at hu, fun u u' j w w' hu => by simp at hu⟩, hev⟩
  call t call s g _ ht := by
    cases call with
    | advance depth slot => exact wp_advance depth ht
    | claim recipeId identity sha256 policy detectedAt baselineOnFirst =>
        exact wp_idle (fun c s h => idle_claim h ..) ht
    | explicitRetry recipeId key expectedGeneration expectedUpdatedAt =>
        exact wp_idle (fun c s h => idle_retry h ..) ht
    | editRecipe id recipe =>
        refine wp_idle (fun c s h => ?_) ht
        have hquiet : Quiet s { s with recipes := update s.recipes id recipe } :=
          .of_same h ⟨rfl, rfl, rfl, rfl, rfl, rfl, rfl⟩ rfl rfl rfl
        exact hquiet.idle
    | createRun r =>
        refine wp_idle (fun c s h => ?_) ht
        split
        · split
          · rename_i run hrun hnew
            exact (quiet_createOwnRun h (by simpa using hnew.1) hnew.2.1 hnew.2.2.1).idle
          · exact (Quiet.refl h).idle
        · exact (Quiet.refl h).idle
    | moveRun r =>
        refine wp_idle (fun c s h => ?_) ht
        split
        · rename_i old new hold hnew
          split
          · rename_i hmay
            exact (quiet_moveRun h hold hmay).idle
          · exact (Quiet.refl h).idle
        · exact (Quiet.refl h).idle
    | moveAttempts r =>
        refine wp_idle (fun c s h => ?_) ht
        split
        · rename_i hmay
          exact (quiet_moveAttempts h hmay).idle
        · exact (Quiet.refl h).idle

/-! ## Reachable states -/

/-- The pool is reached from the empty stores, along some interleaving. -/
abbrev Reachable (p : Pool τ (State cfg) Choice Fault Unit) : Prop :=
  (automation cfg).Reaches (Pool.start (State.start cfg)) p

theorem inv_start : Inv (State.start cfg) where
  keys := by simp [State.start, Ledger.empty]
  rows _ _ _ h := by simp [State.start, State.row?, findRow, findEntry, Ledger.empty] at h
  runs _ _ h := by simp [State.start] at h
  created := ⟨by simp [State.start], fun _ _ h => by simp [State.start] at h⟩
  owners _ _ _ h := by simp [State.start] at h
  issued _ h := by simp [State.start] at h
  generations := ⟨by simp [State.start], fun _ h => by simp [State.start] at h,
    fun _ _ h => by simp [State.start, findRow, findEntry, Ledger.empty] at h⟩
  births _ _ := by simp [State.start, findRow, findEntry, Ledger.empty]
  turns _ _ _ _ h := by simp [State.start, findRow, findEntry, Ledger.empty] at h
  claimed := ⟨by simp [State.start], fun _ h => by simp [State.start] at h,
    fun _ _ _ h => by simp [State.start, findRow, findEntry, Ledger.empty] at h,
    fun _ h => by simp [State.start] at h, fun _ _ h => by simp [State.start] at h⟩

variable {p q : Pool τ (State cfg) Choice Fault Unit}

theorem Reachable.keeps (h : Reachable p) :
    ((lease cfg).protocol τ).Keeps none (fun t _ => Free t) p :=
  automation_sound.reaches (Protocol.keeps_start
    ⟨inv_start, fun _ _ _ hu => by simp at hu, fun _ _ _ _ _ hu => by simp at hu⟩) h

/-- The invariant holds in every reachable state. -/
theorem Reachable.inv (h : Reachable p) : Inv p.shared := by
  obtain ⟨g, hinv, -⟩ := h.keeps
  exact hinv.1

/-- Along every run the state moves forward. -/
theorem Reachable.evolves (h : Reachable p) (hq : (automation cfg).Reaches p q) :
    Evolves p.shared q.shared :=
  automation_sound.evolves h.keeps hq

end DebBuilder.Automation
