import Mathlib
import DebBuilder.Execution.Invariant

/-!
# Every section keeps the ownership invariant

One lemma for each section of the manager: from the invariant and the role of its
thread, the invariant and the role that it leaves.

## Main results

* `section_store` — the sections that only move the store forward.
* `section_submit`, `section_enqueue`, `section_settle`, … — the other sections.
-/

namespace DebBuilder
namespace Execution
open Function Lib

variable {τ : Type} [DecidableEq τ] {s s' : World} {g : τ → Role} {t : τ}

/-! ## Changing one role -/

theorem forall_update {p : Role → Prop} {v : Role} (h : ∀ u, u ≠ t → p (g u)) (hv : p v) (u : τ) :
    p (update g t v u) := by
  rcases eq_or_ne u t with rfl | hne
  · rwa [update_self]
  · rw [update_of_ne hne]
    exact h u hne

section
variable {β : Type} (π : Role → Option β) {v : Role}

omit [DecidableEq τ] in
/-- Only thread `t` has what no two threads have. -/
theorem unique_of_ne {π : Role → Option β}
    (h : ∀ t u b, π (g t) = some b → π (g u) = some b → t = u) {b : β} (ht : π (g t) = some b)
    {u : τ} (hu : u ≠ t) : π (g u) ≠ some b :=
  fun hu' => hu (h u t b hu' ht)

theorem unique_update (h : ∀ t u b, π (g t) = some b → π (g u) = some b → t = u)
    (hv : ∀ b, π v = some b → ∀ u, u ≠ t → π (g u) ≠ some b) (x y : τ) (b : β)
    (hx : π (update g t v x) = some b) (hy : π (update g t v y) = some b) : x = y := by
  rcases eq_or_ne x t with rfl | hxt <;> rcases eq_or_ne y x with rfl | hyx
  · rfl
  · rw [update_self] at hx
    rw [update_of_ne hyx] at hy
    exact absurd hy (hv b hx y hyx)
  · rfl
  · rw [update_of_ne hxt] at hx
    rcases eq_or_ne y t with rfl | hyt
    · rw [update_self] at hy
      exact absurd hx (hv b hy x hxt)
    · rw [update_of_ne hyt] at hy
      exact h x y b hx hy

/-- What no two threads have, when thread `t` keeps it or gives it up. -/
theorem unique_keep (h : ∀ t u b, π (g t) = some b → π (g u) = some b → t = u)
    (hv : π v = π (g t) ∨ π v = none) :
    ∀ x y b, π (update g t v x) = some b → π (update g t v y) = some b → x = y :=
  unique_update π h fun b hb u hu => by
    rcases hv with hv | hv
    · exact unique_of_ne h (hv ▸ hb) hu
    · simp [hv] at hb

theorem exists_update {b : β} (h : ∃ u, π (g u) = some b) (hv : π (g t) = some b → π v = some b) :
    ∃ u, π (update g t v u) = some b := by
  obtain ⟨u, hu⟩ := h
  rcases eq_or_ne u t with rfl | hne
  · exact ⟨u, by rw [update_self]; exact hv hu⟩
  · exact ⟨u, by rwa [update_of_ne hne]⟩

end

/-- A section that leaves the role of its thread. -/
theorem section_same (h : Inv s' g) (he : Evolves s s') :
    (ownership τ).Section t s g s' (g t) :=
  ⟨by rw [update_eq_self]; exact h, he⟩

/-! ## Store sections -/

/-- A section that only moves the store forward. -/
theorem section_store (h : Inv s g) {store : Store} (ha : s.store.Advances store)
    (hs : ∀ r, s.store.Settled r → r ∈ s.handed ∨ store.Settled r) :
    (ownership τ).Section t s g { s with store } (g t) := by
  refine section_same { h with
    committed := fun r hr => ?_
    owned := fun r hr => ?_
    queued := fun r hr => ?_
    creation := fun r f hf hc => ha.present r (h.creation r f hf hc)
    roles := fun u => { h.roles u with
      owes := fun ho => ?_ } } ?_
  · obtain ⟨doc, hdoc, hne⟩ := h.committed r hr
    exact ha.left r doc hdoc hne
  · rcases h.owned r hr with ht | ho
    · exact .inl (ha.terminal_keeps ht)
    · exact .inr ho
  · refine (hs r (h.queued r hr)).resolve_left fun hh => ?_
    have hn := h.handed_not_waiting hh
    exact hr.elim hn.1 hn.2
  · obtain ⟨r, hf, hc, hn, hst⟩ := (h.roles u).owes ho
    refine ⟨r, hf, hc, hn, (hs r hst).resolve_left fun hh => hn ?_⟩
    exact List.mem_append_left _ (List.mem_append_left _ hh)
  · exact { Evolves.refl s with
      terminal := ha.terminal, present := ha.present, gone := ha.gone
      closes := fun hc => ⟨{ hc with }, rfl⟩ }

/-! ## Admission -/

/-- The admission of a submission, with or without a reservation. -/
theorem section_admit (h : Inv s g) {r : RunId} {R : Finset Token} (hR : R ⊆ s.reservations)
    (hroom : s.places ≤ s.queueCapacity → s.queue.length + R.card + s.submittingRunIds.card < s.queueCapacity)
    (hr : r ∉ s.submittingRunIds) (hs : ¬ s.Sealed) (hidle : (g t).inFlight = none)
    (howes : (g t).owes = false) (hclaim : ∀ q, (g t).claim = some q → q = r)
    {b : Option RunId} (hb : ∀ q, b = some q → ∃ k, (g t).token = some k ∧
      k ∈ s.admissionLeases ∧ s.reservationRunIds k = some q) :
    (ownership τ).Section t s g
      { s with reservations := R, submittingRunIds := insert r s.submittingRunIds }
      { g t with inFlight := some r, claim := some r, bound := b } where
  inv := { h with
    owned := fun q hq => (h.owned q hq).imp_right fun ho => ho.imp_right fun hc =>
      exists_update Role.claim hc fun hq => by rw [hclaim q hq]
    submitting := fun q hq => by
      rcases Finset.mem_insert.1 hq with rfl | hq
      · exact ⟨t, by rw [update_self]⟩
      · exact exists_update Role.inFlight (h.submitting q hq) fun hf => by simp [hidle] at hf
    working := fun q hq => exists_update Role.working (h.working q hq) id
    leases := hR.trans h.leases
    roles := forall_update
      (fun u _ => { h.roles u with
        flight := fun q hq => Finset.mem_insert_of_mem ((h.roles u).flight q hq) })
      { token_lt := (h.roles t).token_lt
        flight := fun q hq => by
          obtain rfl : r = q := by simpa using hq
          exact Finset.mem_insert_self ..
        fresh := fun q hq => .inl hq
        owes := fun ho => by simp [howes] at ho
        bound := hb
        claim := fun q hq => .inl hq
        working := (h.roles t).working }
    flight_unique := unique_update Role.inFlight h.flight_unique fun q hq u _ hu => by
      obtain rfl : r = q := by simpa using hq
      exact hr ((h.roles u).flight r hu)
    token_unique := unique_keep Role.token h.token_unique (.inl rfl)
    worker_unique := unique_keep Role.worker h.worker_unique (.inl rfl) }
  evolves := { Evolves.refl s with
    closes := fun hc => absurd hc hs
    places := fun hp => by
      have hlt := hroom hp
      simp only [World.places, Finset.card_insert_of_notMem hr]
      omega }

/-- The commit of a submission's transition. -/
theorem section_commit (h : Inv s g) {r : RunId} {run doc : Run} (hrun : s.store r = .run run)
    (hpending : run.status = .pending) (hdoc : doc.status = .queued)
    (hf : (g t).inFlight = some r) (hc : (g t).claim = some r) (o : Bool) :
    (ownership τ).Section t s g
      { s with store := update s.store r (.run doc), committed := insert r s.committed }
      { g t with owes := o } := by
  have hfresh : r ∉ s.committed := h.not_committed_of_pending (by
    simp [Store.status?, hrun, hpending])
  have hterm : run.status.terminal = false := by rw [hpending]; rfl
  have ha : s.store.Advances (update s.store r (.run doc)) :=
    Store.advances_save hrun hterm (by rw [hdoc]; decide)
  have hself : Store.Settled (update s.store r (.run doc)) r := .inl (by
    simp [Store.status?, hdoc])
  have hsettled : ∀ q, s.store.Settled q → Store.Settled (update s.store r (.run doc)) q := by
    intro q hq
    rcases eq_or_ne q r with rfl | hne
    · exact hself
    · simpa [Store.Settled, Store.status?, Store.Terminal, update_of_ne hne] using hq
  refine ⟨{ h with
    committed := fun q hq => ?_
    owned := fun q hq => ?_
    enqueued_committed := fun q hq => Finset.mem_insert_of_mem (h.enqueued_committed q hq)
    queued := fun q hq => hsettled q (h.queued q hq)
    creation := fun q f hq hcr => ha.present q (h.creation q f hq hcr)
    submitting := fun q hq => exists_update Role.inFlight (h.submitting q hq) id
    working := fun q hq => exists_update Role.working (h.working q hq) id
    roles := forall_update (fun u hu => ?_) ?_
    flight_unique := unique_keep Role.inFlight h.flight_unique (.inl rfl)
    token_unique := unique_keep Role.token h.token_unique (.inl rfl)
    worker_unique := unique_keep Role.worker h.worker_unique (.inl rfl) }, ?_⟩
  · rcases Finset.mem_insert.1 hq with rfl | hq
    · exact ⟨doc, update_self .., by rw [hdoc]; decide⟩
    · obtain ⟨d, hd, hne⟩ := h.committed q hq
      exact ha.left q d hd hne
  · rcases Finset.mem_insert.1 hq with rfl | hq
    · exact .inr (.inr ⟨t, by rw [update_self]; exact hc⟩)
    · rcases h.owned q hq with ht | ho
      · exact .inl (ha.terminal_keeps ht)
      · exact .inr (ho.imp_right fun hc => exists_update Role.claim hc id)
  · have hu' := h.roles u
    exact { hu' with
      fresh := fun q hq => (hu'.fresh q hq).imp_right fun hn hm => by
        rcases Finset.mem_insert.1 hm with rfl | hm
        · exact hu (h.flight_unique u t q hq hf)
        · exact hn hm
      owes := fun ho => by
        obtain ⟨q, hq, hm, hn, hst⟩ := hu'.owes ho
        exact ⟨q, hq, Finset.mem_insert_of_mem hm, hn, hsettled q hst⟩ }
  · have ht := h.roles t
    exact { ht with
      fresh := fun q hq => .inl (by
        obtain rfl : r = q := by simpa [hf] using hq
        exact hc)
      owes := fun _ => ⟨r, hf, Finset.mem_insert_self .., fun he => hfresh (h.enqueued_committed r he),
        hself⟩ }
  · exact { Evolves.refl s with
      terminal := ha.terminal, present := ha.present, gone := ha.gone
      closes := fun hs => by
        have hm := (h.roles t).flight r hf
        simp [hs.submitting] at hm }

/-- The queue transition raises and changes nothing, or is committed. -/
theorem markQueued_cases (s : World) (c : Choice) (r : RunId) :
    (∃ e, s.markQueued c r = (.error e, s)) ∨
    ∃ run, s.store r = .run run ∧ run.status = .pending ∧
      (s.markQueued c r).2 = { s with
        store := update s.store r (.run { run with status := .queued })
        committed := insert r s.committed } := by
  have hkeep : ¬ (s.store.status? r = some .pending ∧ s.store.status? r = some .queued) := by
    rintro ⟨hp, hq⟩
    simp [hp] at hq
  rcases Store.transitionStatus_cases (s := s.store) (r := r) c.read c.write .pending .queued with
    ⟨e, he⟩ | ⟨run, hrun, hp, he⟩
  · exact .inl ⟨World.queueError r e, by simp [World.markQueued, he, hkeep, Except.mapError]⟩
  · refine .inr ⟨run, hrun, hp, ?_⟩
    simp [World.markQueued, he, Store.status?, hrun, hp]

/-- The queue transition of a submission. -/
theorem section_markQueued (h : Inv s g) {r : RunId} (hf : (g t).inFlight = some r)
    (hc : (g t).claim = some r) (ho : (g t).owes = false) (c : Choice) :
    ∃ o, (ownership τ).Section t s g (s.markQueued c r).2 { g t with owes := o } ∧
      (o = true ↔ ∃ run, (s.markQueued c r).1 = .ok run) := by
  rcases markQueued_cases s c r with ⟨e, he⟩ | ⟨run, hrun, hp, he⟩
  · refine ⟨false, ?_, by simp [he]⟩
    rw [he, ← ho]
    exact section_same h (.refl s)
  · refine ⟨(s.markQueued c r).1.isOk, ?_, ?_⟩
    · rw [he]
      exact section_commit h hrun hp rfl hf hc _
    · cases (s.markQueued c r).1 <;> simp [Except.isOk, Except.toBool]

/-- The insertion of a committed Run into the queue, or among the Runs of a shutdown. -/
theorem section_insert (h : Inv s g) {r : RunId} (hf : (g t).inFlight = some r)
    (ho : (g t).owes = true) :
    (ownership τ).Section t s g (s.enqueue r none)
      { g t with inFlight := none, owes := false, claim := none } := by
  obtain ⟨q, hq, hc, hn, hst⟩ := (h.roles t).owes ho
  obtain rfl : q = r := by simpa [hf] using hq.symm
  have hn' : q ∉ s.handed ∧ q ∉ s.queue ∧ q ∉ s.shutdownPending := by
    simpa [World.enqueued, not_or, and_assoc] using hn
  obtain ⟨Q, P, X, he, hperm, hmem, hclosed, hlength⟩ : ∃ Q P X,
      s.enqueue q none = { s with
        submittingRunIds := s.submittingRunIds.erase q, queue := Q, shutdownPending := P
        shutdownRunIds := X } ∧
      (s.handed ++ Q ++ P).Perm (q :: s.enqueued) ∧
      (∀ p, p ∈ Q ∨ p ∈ P ↔ p = q ∨ p ∈ s.queue ∨ p ∈ s.shutdownPending) ∧
      (s.shutdownStarted = true → Q = []) ∧ Q.length ≤ s.queue.length + 1 := by
    cases hst : s.shutdownStarted with
    | false =>
        refine ⟨s.queue ++ [q], s.shutdownPending, s.shutdownRunIds, by simp [World.enqueue, hst],
          ?_, fun p => ?_, by simp, by simp⟩
        · have hp : (s.handed ++ (s.queue ++ [q]) ++ s.shutdownPending).Perm
              ((s.handed ++ s.queue) ++ q :: s.shutdownPending) := .of_eq (by simp)
          exact hp.trans List.perm_middle
        · simp only [List.mem_append, List.mem_singleton]
          tauto
    | true =>
        refine ⟨s.queue, s.shutdownPending ++ [q], _, by
          simp [World.enqueue, World.captureShutdownRun, hst, hn'.2.2]; rfl, ?_, fun p => ?_,
          fun _ => (h.closed hst).1, by simp⟩
        · simp only [World.enqueued, ← List.append_assoc]
          exact List.perm_append_singleton _ _
        · simp only [List.mem_append, List.mem_singleton]
          tauto
  rw [he]
  exact {
    inv := { h with
      owned := fun p hp => by
        have hin : p = q ∨ p ∈ s.queue ∨ p ∈ s.shutdownPending → World.Held { s with
            submittingRunIds := s.submittingRunIds.erase q, queue := Q, shutdownPending := P
            shutdownRunIds := X } p := fun hm =>
          ((hmem p).2 hm).elim .inl fun hm => .inr (.inr (.inl hm))
        rcases h.owned p hp with ht | (hm | ha | hm | hu) | hcl
        · exact .inl ht
        · exact .inr (.inl (hin (.inr (.inl hm))))
        · exact .inr (.inl (.inr (.inl ha)))
        · exact .inr (.inl (hin (.inr (.inr hm))))
        · exact .inr (.inl (.inr (.inr (.inr hu))))
        · rcases eq_or_ne p q with rfl | hne
          · exact .inr (.inl (hin (.inl rfl)))
          · refine .inr (.inr (exists_update Role.claim hcl fun hcp => ?_))
            have hcq := ((h.roles t).fresh q hf).resolve_right (not_not_intro hc)
            simp [hcq, hne.symm] at hcp
      enqueued_committed := fun p hp => by
        rcases List.mem_cons.1 (hperm.subset hp) with rfl | hp
        · exact hc
        · exact h.enqueued_committed p hp
      enqueued_nodup := hperm.nodup_iff.2 (List.nodup_cons.2 ⟨hn, h.enqueued_nodup⟩)
      queued := fun p hp => by
        rcases (hmem p).1 hp with rfl | hp
        · exact hst
        · exact h.queued p hp
      closed := fun hs => ⟨hclosed hs, (h.closed hs).2⟩
      submitting := fun p hp => by
        obtain ⟨hne, hp⟩ := Finset.mem_erase.1 hp
        exact exists_update Role.inFlight (h.submitting p hp) fun hf' => by
          simp [hf, hne.symm] at hf'
      working := fun p hp => exists_update Role.working (h.working p hp) id
      roles := forall_update
        (fun u hu => { h.roles u with
          flight := fun p hp => Finset.mem_erase.2
            ⟨fun e => hu (h.flight_unique u t q (e ▸ hp) hf), (h.roles u).flight p hp⟩
          owes := fun ho' => by
            obtain ⟨p, hp, hpc, hpn, hps⟩ := (h.roles u).owes ho'
            refine ⟨p, hp, hpc, fun hm => ?_, hps⟩
            rcases List.mem_cons.1 (hperm.subset hm) with rfl | hm
            · exact hu (h.flight_unique u t p hp hf)
            · exact hpn hm })
        { h.roles t with
          flight := fun p hp => by simp at hp
          fresh := fun p hp => by simp at hp
          owes := fun ho' => by simp at ho'
          claim := fun p hp => by simp at hp }
      flight_unique := unique_keep Role.inFlight h.flight_unique (.inr rfl)
      token_unique := unique_keep Role.token h.token_unique (.inl rfl)
      worker_unique := unique_keep Role.worker h.worker_unique (.inl rfl) }
    evolves := { Evolves.refl s with
      closes := fun hs => by
        have hm := (h.roles t).flight q hf
        simp [hs.submitting] at hm
      places := fun hp => by
        have hm := Finset.card_erase_add_one ((h.roles t).flight q hf)
        simp only [World.places] at hp ⊢
        omega } }

/-- The settlement of a lease whose Run is accounted for elsewhere. -/
theorem section_settle (h : Inv s g) {k : Token} (hk : (g t).token = some k)
    (hf : (g t).inFlight = none) (ho : (g t).owes = false)
    (hc : ∀ r ∈ s.committed, (g t).claim = some r →
      s.store.Terminal r ∨ s.Held r ∨ ∃ u, u ≠ t ∧ (g u).claim = some r) :
    (ownership τ).Section t s g (s.settle k) { g t with bound := none, claim := none } where
  inv := { h with
    owned := fun r hr => by
      rcases h.owned r hr with ht | hh | ⟨u, hu⟩
      · exact .inl ht
      · exact .inr (.inl hh)
      · rcases eq_or_ne u t with rfl | hne
        · rcases hc r hr hu with ht | hh | ⟨w, hw, hcw⟩
          · exact .inl ht
          · exact .inr (.inl hh)
          · exact .inr (.inr ⟨w, by rwa [update_of_ne hw]⟩)
        · exact .inr (.inr ⟨u, by rwa [update_of_ne hne]⟩)
    submitting := fun r hr => exists_update Role.inFlight (h.submitting r hr) id
    working := fun r hr => exists_update Role.working (h.working r hr) id
    leases := fun j hj => by
      obtain ⟨hne, hj⟩ := Finset.mem_erase.1 hj
      exact Finset.mem_erase.2 ⟨hne, h.leases hj⟩
    roles := forall_update
      (fun u hu => { h.roles u with
        bound := fun r hr => by
          obtain ⟨j, hj, hm, hrun⟩ := (h.roles u).bound r hr
          have hne : j ≠ k := fun e => unique_of_ne h.token_unique hk hu (e ▸ hj)
          exact ⟨j, hj, Finset.mem_erase.2 ⟨hne, hm⟩, (update_of_ne hne ..).trans hrun⟩ })
      { h.roles t with
        fresh := fun r hr => by simp [hf] at hr
        owes := fun h => by simp [ho] at h
        bound := fun r hr => by simp at hr
        claim := fun r hr => by simp at hr }
    flight_unique := unique_keep Role.inFlight h.flight_unique (.inl rfl)
    token_unique := unique_keep Role.token h.token_unique (.inl rfl)
    worker_unique := unique_keep Role.worker h.worker_unique (.inl rfl) }
  evolves := { Evolves.refl s with
    closes := fun hs => ⟨{ hs with leases := by simp [World.settle, hs.leases] }, rfl⟩
    places := fun hp => by
      have hle : (s.reservations.erase k).card ≤ s.reservations.card := Finset.card_erase_le
      simp only [World.places, World.settle] at hp ⊢
      omega }

/-- A thread gives up its claim on a Run that has not been committed. -/
theorem section_unclaim (h : Inv s g) (hc : ∀ r, (g t).claim = some r → r ∉ s.committed) :
    (ownership τ).Section t s g s { g t with claim := none } where
  inv := { h with
    owned := fun r hr => (h.owned r hr).imp_right fun ho => ho.imp_right fun hcl =>
      exists_update Role.claim hcl fun ht => absurd hr (hc r ht)
    submitting := fun r hr => exists_update Role.inFlight (h.submitting r hr) id
    working := fun r hr => exists_update Role.working (h.working r hr) id
    roles := forall_update (fun u _ => h.roles u)
      { h.roles t with
        fresh := fun r hr => .inr (((h.roles t).fresh r hr).elim (hc r) id)
        claim := fun r hr => by simp at hr }
    flight_unique := unique_keep Role.inFlight h.flight_unique (.inl rfl)
    token_unique := unique_keep Role.token h.token_unique (.inl rfl)
    worker_unique := unique_keep Role.worker h.worker_unique (.inl rfl) }
  evolves := .refl s

/-- The record of an unresolved admission. -/
theorem section_record (h : Inv s g) {r : RunId} {f : AdmissionFailure}
    (hf : f.inCreation = true → s.store r ≠ .absent) (hs : ¬ s.Sealed)
    (F : Dict RunId ShutdownFailure) :
    (ownership τ).Section t s g
      { s with
        unresolvedAdmissionRuns := s.unresolvedAdmissionRuns.setDefault r f
        shutdownFailures := F } (g t) := by
  refine section_same { h with
    owned := fun q hq => (h.owned q hq).imp_right fun ho => ho.imp_left fun hh => ?_
    creation := fun q f' hq hc => ?_
    roles := fun u => { h.roles u with } }
    { Evolves.refl s with closes := fun hc => absurd hc hs }
  · rcases Dict.lookup_setDefault hq with hq | ⟨rfl, rfl⟩
    · exact h.creation q f' hq hc
    · exact hf hc
  · rcases hh with hq | ha | hp | hu | hu
    · exact .inl hq
    · exact .inr (.inl ha)
    · exact .inr (.inr (.inl hp))
    · exact .inr (.inr (.inr (.inl (Dict.mem_setDefault.2 (.inr hu)))))
    · exact .inr (.inr (.inr (.inr hu)))

/-- The end of a submission that failed: its lease keeps the claim, or the Run is
accounted for elsewhere. -/
theorem section_withdraw (h : Inv s g) {r : RunId} (hf : (g t).inFlight = some r)
    (ho : (g t).owes = false) {claim : Option RunId}
    (hc : claim = (g t).claim ∧ (g t).bound = some r ∨
      claim = none ∧ ∀ q ∈ s.committed, (g t).claim = some q → s.store.Terminal q ∨ s.Held q) :
    (ownership τ).Section t s g { s with submittingRunIds := s.submittingRunIds.erase r }
      { g t with inFlight := none, claim } where
  inv := { h with
    owned := fun q hq => by
      rcases h.owned q hq with ht | hh | hcl
      · exact .inl ht
      · exact .inr (.inl hh)
      · rcases hc with ⟨rfl, _⟩ | ⟨rfl, hc⟩
        · exact .inr (.inr (exists_update Role.claim hcl id))
        · by_cases hq' : (g t).claim = some q
          · exact (hc q hq hq').imp_right .inl
          · exact .inr (.inr (exists_update Role.claim hcl fun e => absurd e hq'))
    submitting := fun q hq => by
      obtain ⟨hne, hq⟩ := Finset.mem_erase.1 hq
      exact exists_update Role.inFlight (h.submitting q hq) fun e => by simp [hf, hne.symm] at e
    working := fun q hq => exists_update Role.working (h.working q hq) id
    roles := forall_update
      (fun u hu => { h.roles u with
        flight := fun q hq => Finset.mem_erase.2
          ⟨fun e => hu (h.flight_unique u t r (e ▸ hq) hf), (h.roles u).flight q hq⟩ })
      { h.roles t with
        flight := fun q hq => by simp at hq
        fresh := fun q hq => by simp at hq
        owes := fun e => by simp [ho] at e
        claim := fun q hq => by
          rcases hc with ⟨rfl, hb⟩ | ⟨rfl, _⟩
          · rcases (h.roles t).claim q hq with e | e
            · obtain rfl : r = q := by simpa [hf] using e
              exact .inr hb
            · exact .inr e
          · simp at hq }
    flight_unique := unique_keep Role.inFlight h.flight_unique (.inr rfl)
    token_unique := unique_keep Role.token h.token_unique (.inl rfl)
    worker_unique := unique_keep Role.worker h.worker_unique (.inl rfl) }
  evolves := { Evolves.refl s with
    closes := fun hs => by
      have hm := (h.roles t).flight r hf
      simp [hs.submitting] at hm
    places := fun hp => by
      have hle : (s.submittingRunIds.erase r).card ≤ s.submittingRunIds.card := Finset.card_erase_le
      simp only [World.places] at hp ⊢
      omega }

/-- `_track_reservation` ties a free lease to a Run. -/
theorem section_track (h : Inv s g) {k : Token} (hk : (g t).token = some k)
    (hfree : s.reservationRunIds k = none) (r : RunId) :
    (ownership τ).Section t s g
      { s with reservationRunIds := update s.reservationRunIds k (some r) } (g t) := by
  refine section_same { h with roles := fun u => { h.roles u with bound := fun q hq => ?_ } }
    { Evolves.refl s with closes := fun hs => ⟨{ hs with }, rfl⟩ }
  obtain ⟨j, hj, hm, hrun⟩ := (h.roles u).bound q hq
  have hne : j ≠ k := by
    rintro rfl
    rw [hfree] at hrun
    simp at hrun
  exact ⟨j, hj, hm, (update_of_ne hne ..).trans hrun⟩

/-- The admission of `reserve` gives its thread a fresh lease. -/
theorem section_reserve (h : Inv s g) (ht : g t = {}) (ha : s.accepting = true) (hroom : s.places < s.queueCapacity) :
    (ownership τ).Section t s g
      { s with
        reservations := insert s.nextToken s.reservations
        admissionLeases := insert s.nextToken s.admissionLeases
        reservationRunIds := update s.reservationRunIds s.nextToken none
        nextToken := s.nextToken + 1 }
      { token := some s.nextToken } where
  inv := { h with
    owned := fun q hq => (h.owned q hq).imp_right fun ho => ho.imp_right fun hcl =>
      exists_update Role.claim hcl fun e => by simp [ht] at e
    submitting := fun q hq => exists_update Role.inFlight (h.submitting q hq) fun e => by
      simp [ht] at e
    working := fun q hq => exists_update Role.working (h.working q hq) fun e => by simp [ht] at e
    leases := Finset.insert_subset_insert _ h.leases
    roles := forall_update
      (fun u _ => { h.roles u with
        token_lt := fun k hk => Nat.lt_succ_of_lt ((h.roles u).token_lt k hk)
        bound := fun q hq => by
          obtain ⟨j, hj, hm, hrun⟩ := (h.roles u).bound q hq
          have hne : j ≠ s.nextToken := ((h.roles u).token_lt j hj).ne
          exact ⟨j, hj, Finset.mem_insert_of_mem hm, (update_of_ne hne ..).trans hrun⟩ })
      { token_lt := fun k hk => by
          obtain rfl : s.nextToken = k := by simpa using hk
          exact Nat.lt_succ_self _
        flight := by simp
        fresh := by simp
        owes := by simp
        bound := by simp
        claim := by simp
        working := by simp }
    flight_unique := unique_keep Role.inFlight h.flight_unique (.inr rfl)
    token_unique := unique_update Role.token h.token_unique fun k hk u _ hu => by
      obtain rfl : s.nextToken = k := by simpa using hk
      exact absurd ((h.roles u).token_lt _ hu) (Nat.lt_irrefl _)
    worker_unique := unique_keep Role.worker h.worker_unique (.inr rfl) }
  evolves := { Evolves.refl s with
    closes := fun hs => by
      have := (h.closed hs.started).2
      simp [ha] at this
    places := fun _ => by
      have hle := Finset.card_insert_le s.nextToken s.reservations
      simp only [World.places] at hroom ⊢
      omega }

/-! ## Cancellation, stop and shutdown -/

/-- A Run that is terminal leaves the queue. -/
theorem section_dequeue (h : Inv s g) {r : RunId} (hr : s.store.Terminal r) :
    (ownership τ).Section t s g { s with queue := s.queue.erase r } (g t) := by
  have hsub : (s.handed ++ s.queue.erase r ++ s.shutdownPending).Sublist s.enqueued :=
    ((List.Sublist.refl _).append (List.erase_sublist ..)).append (.refl _)
  refine section_same { h with
    owned := fun q hq => ?_
    enqueued_committed := fun q hq => h.enqueued_committed q (hsub.subset hq)
    enqueued_nodup := h.enqueued_nodup.sublist hsub
    queued := fun q hq => h.queued q (hq.imp_left List.mem_of_mem_erase)
    closed := fun hs => ⟨by simp [(h.closed hs).1], (h.closed hs).2⟩
    roles := fun u => { h.roles u with
      owes := fun ho => by
        obtain ⟨q, hq, hc, hn, hst⟩ := (h.roles u).owes ho
        exact ⟨q, hq, hc, fun hm => hn (hsub.subset hm), hst⟩ } }
    { Evolves.refl s with
      closes := fun hs => ⟨{ hs with }, rfl⟩
      places := fun hp => by
        have hle : (s.queue.erase r).length ≤ s.queue.length := List.length_erase_le
        simp only [World.places] at hp ⊢
        omega }
  rcases eq_or_ne q r with rfl | hne
  · exact .inl hr
  · exact (h.owned q hq).imp_right fun ho => ho.imp_left fun hh =>
      hh.imp_left fun hm => (List.mem_erase_of_ne hne).2 hm

/-- `stop` revokes the leases that track no Run. -/
theorem section_stop (h : Inv s g) : (ownership τ).Section t s g s.stop (g t) := by
  refine section_same { h with
    closed := fun hs => ⟨(h.closed hs).1, rfl⟩
    leases := fun k hk => ?_
    roles := fun u => { h.roles u with bound := fun q hq => ?_ } }
    { Evolves.refl s with
      closes := fun hs => ⟨{ hs with leases := by simp [World.stop, hs.leases] }, rfl⟩
      places := fun hp => by
        have hle : s.stop.reservations.card ≤ s.reservations.card := Finset.card_filter_le ..
        simp only [World.places] at hp ⊢
        exact (Nat.add_le_add_right (Nat.add_le_add_left hle _) _).trans hp }
  · obtain ⟨hk, hor⟩ := Finset.mem_filter.1 hk
    have hl := h.leases hk
    exact Finset.mem_filter.2 ⟨hl, hor.resolve_left (not_not_intro hl)⟩
  · obtain ⟨j, hj, hm, hrun⟩ := (h.roles u).bound q hq
    exact ⟨j, hj, Finset.mem_filter.2 ⟨hm, by simp [hrun]⟩, hrun⟩

/-- Runs that are in no list yet are captured in order. -/
theorem foldl_capture (l : List RunId) (s : World) (hn : (s.shutdownPending ++ l).Nodup) :
    ∃ X, l.foldl World.captureShutdownRun s =
      { s with shutdownPending := s.shutdownPending ++ l, shutdownRunIds := X } := by
  induction l generalizing s with
  | nil => exact ⟨s.shutdownRunIds, by simp⟩
  | cons r l ih =>
      have hr : r ∉ s.shutdownPending := fun hm =>
        (List.nodup_append.1 hn).2.2 r hm r (List.mem_cons_self ..) rfl
      have hcap : s.captureShutdownRun r = { s with
          shutdownPending := s.shutdownPending ++ [r]
          shutdownRunIds :=
            if r ∈ s.shutdownRunIds then s.shutdownRunIds else s.shutdownRunIds ++ [r] } := by
        simp [World.captureShutdownRun, hr]
      obtain ⟨X, hX⟩ := ih (s.captureShutdownRun r) (by simpa [hcap] using hn)
      exact ⟨X, by rw [List.foldl_cons, hX, hcap]; simp⟩

/-- The start of a shutdown moves the queue to the Runs of the shutdown. -/
theorem section_close (h : Inv s g) (hs : s.shutdownStarted = false) (X : List RunId)
    (a : Option RunId) :
    (ownership τ).Section t s g
      { s with
        shutdownStarted := true, accepting := false, stopping := true, queue := []
        shutdownPending := s.shutdownPending ++ s.queue, shutdownRunIds := X
        shutdownActiveRunId := a } (g t) := by
  have hperm : (s.handed ++ [] ++ (s.shutdownPending ++ s.queue)).Perm s.enqueued := by
    simpa [World.enqueued] using
      (@List.perm_append_comm _ s.shutdownPending s.queue).append_left s.handed
  refine section_same { h with
    owned := fun q hq => (h.owned q hq).imp_right fun ho => ho.imp_left fun hh => ?_
    enqueued_committed := fun q hq => h.enqueued_committed q (hperm.subset hq)
    enqueued_nodup := hperm.nodup_iff.2 h.enqueued_nodup
    queued := fun q hq => h.queued q ?_
    closed := fun _ => ⟨rfl, rfl⟩
    roles := fun u => { h.roles u with
      owes := fun ho => ?_ } }
    { Evolves.refl s with
      closed := fun hc => by simp [hs] at hc
      closes := fun hc => absurd hc.started (by simp [hs])
      places := fun hp => by
        simp only [World.places, List.length_nil] at hp ⊢
        omega }
  · rcases hq with hq | hq
    · simp at hq
    · exact (List.mem_append.1 hq).symm
  · obtain ⟨q, hq, hc, hn, hst⟩ := (h.roles u).owes ho
    exact ⟨q, hq, hc, fun hm => hn (hperm.subset hm), hst⟩
  · rcases hh with hm | ha | hm | hu
    · exact .inr (.inr (.inl (List.mem_append_right _ hm)))
    · exact .inr (.inl ha)
    · exact .inr (.inr (.inl (List.mem_append_left _ hm)))
    · exact .inr (.inr (.inr hu))

/-- A section that changes only what the invariant does not speak of. -/
theorem section_quiet (h : Inv s g) (k : Option Control) (a : Option CancelAnswer) (b lock : Bool)
    (F : Dict RunId ShutdownFailure) :
    (ownership τ).Section t s g
      { s with
        activeCancellationControl := k, shutdownActiveCancellation := a
        shutdownActiveRequested := b, shutdownLock := lock, shutdownFailures := F } (g t) :=
  section_same { h with roles := fun u => { h.roles u with } }
    { Evolves.refl s with closes := fun hs => ⟨{ hs with }, rfl⟩ }

theorem section_closeAdmission (h : Inv s g) :
    (ownership τ).Section t s g s.closeAdmission (g t) := by
  unfold World.closeAdmission
  cases hs : s.shutdownStarted with
  | true => exact section_same h (.refl s)
  | false =>
      have hn : (s.shutdownPending ++ s.queue).Nodup := by
        have hn := h.enqueued_nodup
        rw [World.enqueued, List.append_assoc, List.nodup_append] at hn
        exact (List.perm_append_comm.nodup_iff).1 hn.2.1
      obtain ⟨X, hX⟩ := foldl_capture s.queue { s with
        shutdownStarted := true, accepting := false, stopping := true, queue := []
        shutdownActiveRunId := s.activeRunId } hn
      rw [if_neg (by simp), hX]
      exact section_close h hs X _

theorem section_cancelActive (h : Inv s g) (c : Choice) :
    (ownership τ).Section t s g (s.cancelActive c) (g t) := by
  unfold World.cancelActive
  split
  · exact section_same h (.refl s)
  · dsimp only
    split
    · exact section_quiet h _ _ _ _ _
    · exact section_quiet h _ _ _ _ _

/-- `_begin_shutdown_locked` -/
theorem section_beginShutdown (h : Inv s g) (c : Choice) (active : Bool) :
    (ownership τ).Section t s g (s.beginShutdown c active) (g t) := by
  have hclose : (ownership τ).Section t s g s.closeAdmission (g t) := section_closeAdmission h
  cases active with
  | false => exact hclose
  | true =>
      refine hclose.comp ?_
      have hinv := hclose.inv
      rw [update_eq_self] at hinv ⊢
      exact section_cancelActive hinv c

/-- A shutdown task that has been resolved is taken off its list. -/
theorem section_resolved (h : Inv s g) {kind : Kind} {r : RunId}
    (hr : s.store.Terminal r ∨ kind = .admission ∧ s.store r = .gone) :
    (ownership τ).Section t s g (s.recordShutdownTask kind r (.ok true)) (g t) := by
  have hgone : r ∈ s.committed → s.store.Terminal r := fun hc => hr.elim id fun hg => by
    obtain ⟨doc, hdoc, _⟩ := h.committed r hc
    simp [hdoc] at hg
  -- Only Run `r` loses a place, and it is terminal if it was committed.
  have howned : ∀ s' : World, s'.store = s.store → s'.committed = s.committed →
      (∀ q, q ≠ r → s.Held q → s'.Held q) →
      ∀ q ∈ s'.committed, s'.store.Terminal q ∨ s'.Held q ∨ ∃ u, (g u).claim = some q := by
    intro s' hs hc hh q hq
    rw [hc] at hq
    rw [hs]
    rcases eq_or_ne q r with rfl | hne
    · exact .inl (hgone hq)
    · exact (h.owned q hq).imp_right fun ho => ho.imp_left (hh q hne)
  cases kind with
  | queued =>
      have hsub : (s.handed ++ s.queue ++ s.shutdownPending.erase r).Sublist s.enqueued :=
        (List.Sublist.refl _).append (List.erase_sublist ..)
      exact section_same { h with
        owned := howned _ rfl rfl fun q hne hq =>
          hq.imp_right fun hq => hq.imp_right fun hq => hq.imp_left fun hm =>
            (List.mem_erase_of_ne hne).2 hm
        enqueued_committed := fun q hq => h.enqueued_committed q (hsub.subset hq)
        enqueued_nodup := h.enqueued_nodup.sublist hsub
        queued := fun q hq => h.queued q (hq.imp_right List.mem_of_mem_erase)
        roles := fun u => { h.roles u with
          owes := fun ho => by
            obtain ⟨q, hq, hc, hn, hst⟩ := (h.roles u).owes ho
            exact ⟨q, hq, hc, fun hm => hn (hsub.subset hm), hst⟩ } }
        { Evolves.refl s with
          closes := fun hs => ⟨{ hs with
            queued := by simp [World.recordShutdownTask, hs.queued] }, rfl⟩ }
  | admission =>
      exact section_same { h with
        owned := howned _ rfl rfl fun q hne hq =>
          hq.imp_right fun hq => hq.imp_right fun hq => hq.imp_right fun hq =>
            hq.imp_left fun hm => AList.mem_erase.2 ⟨hne, hm⟩
        creation := fun q f hq hc => by
          have hq' : (s.unresolvedAdmissionRuns.erase r).lookup q = some f := hq
          rcases eq_or_ne q r with rfl | hne
          · simp at hq'
          · exact h.creation q f (by rwa [AList.lookup_erase_ne hne] at hq') hc
        roles := fun u => { h.roles u with } }
        { Evolves.refl s with
          closes := fun hs => ⟨{ hs with
            admission := fun q hq => hs.admission q (AList.mem_erase.1 hq).2 }, rfl⟩ }
  | active =>
      exact section_same { h with
        owned := howned _ rfl rfl fun q hne hq =>
          hq.imp_right fun hq => hq.imp_right fun hq => hq.imp_right fun hq =>
            hq.imp_right fun hm => AList.mem_erase.2 ⟨hne, hm⟩
        unresolved_handed := fun q hq => h.unresolved_handed q (AList.mem_erase.1 hq).2
        roles := fun u => { h.roles u with } }
        { Evolves.refl s with
          closes := fun hs => ⟨{ hs with
            active := fun q hq => hs.active q (AList.mem_erase.1 hq).2 }, rfl⟩ }

/-! ## The worker -/

/-- The worker takes the first Run of the queue. -/
theorem section_take (h : Inv s g) {r : RunId} {queue : List RunId}
    (hw : (g t).working = some none) (hs : s.shutdownStarted = false) (hq : s.queue = r :: queue)
    (k : Option Control) :
    (ownership τ).Section t s g
      { s with
        queue, activeRunId := some r, activeCancellationControl := k, handed := s.handed ++ [r] }
      { g t with working := some (some r) } := by
  have hperm : (s.handed ++ [r] ++ queue ++ s.shutdownPending).Perm s.enqueued :=
    .of_eq (by simp [World.enqueued, hq])
  have hidle := ((h.roles t).working none hw).1
  have hworker : (g t).worker = some () := by simp [Role.worker, hw]
  refine ⟨{ h with
    owned := fun q hq' => ?_
    enqueued_committed := fun q hq' => h.enqueued_committed q (hperm.subset hq')
    enqueued_nodup := hperm.nodup_iff.2 h.enqueued_nodup
    queued := fun q hq' => h.queued q (hq'.imp_left fun hm => hq ▸ List.mem_cons_of_mem r hm)
    active_handed := fun q hq' => ?_
    unresolved_handed := fun q hq' => List.mem_append_left _ (h.unresolved_handed q hq')
    closed := fun hc => by simp [hs] at hc
    submitting := fun q hq' => exists_update Role.inFlight (h.submitting q hq') id
    working := fun q hq' => ⟨t, by rw [update_self]; exact congrArg some hq'⟩
    roles := forall_update (fun u hu => ?_) ?_
    flight_unique := unique_keep Role.inFlight h.flight_unique (.inl rfl)
    token_unique := unique_keep Role.token h.token_unique (.inl rfl)
    worker_unique := unique_keep Role.worker h.worker_unique (.inl hworker.symm) },
    { Evolves.refl s with
      closed := fun hc => by simp [hs] at hc
      closes := fun hc => absurd hc.started (by simp [hs])
      places := fun hp => by
        simp only [World.places, hq, List.length_cons] at hp ⊢
        omega }⟩
  · rcases h.owned q hq' with ht | (hm | ha | hu) | hc
    · exact .inl ht
    · rw [hq] at hm
      rcases List.mem_cons.1 hm with rfl | hm
      · exact .inr (.inl (.inr (.inl rfl)))
      · exact .inr (.inl (.inl hm))
    · simp [hidle] at ha
    · exact .inr (.inl (.inr (.inr hu)))
    · exact .inr (.inr (exists_update Role.claim hc id))
  · obtain rfl : r = q := by simpa using hq'
    exact List.mem_append_right _ (List.mem_singleton_self r)
  · exact { h.roles u with
      owes := fun ho => by
        obtain ⟨q, hf, hc, hn, hst⟩ := (h.roles u).owes ho
        exact ⟨q, hf, hc, fun hm => hn (hperm.subset hm), hst⟩
      working := fun x hx => absurd (by simp [Role.worker, hx])
        (unique_of_ne h.worker_unique hworker hu) }
  · exact { h.roles t with
      owes := fun ho => by
        obtain ⟨q, hf, hc, hn, hst⟩ := (h.roles t).owes ho
        exact ⟨q, hf, hc, fun hm => hn (hperm.subset hm), hst⟩
      working := fun x hx => by
        obtain rfl : some r = x := by simpa using hx
        exact ⟨rfl, ((h.roles t).working none hw).2⟩ }

/-- The worker gives up the Run that it has executed. -/
theorem section_retire (h : Inv s g) {r : RunId} (hw : (g t).working = some (some r))
    {resolved : Bool} (hr : resolved = true → s.store.Terminal r) (failure : RunError)
    (fatal : Option Exc) :
    (ownership τ).Section t s g (s.retire r resolved failure fatal)
      { g t with working := some none } := by
  have hactive := ((h.roles t).working _ hw).1
  have hworker : (g t).worker = some () := by simp [Role.worker, hw]
  obtain ⟨U, F, e, a, b, hU, hs'⟩ : ∃ U F e a b,
      (U = s.unresolvedActiveRuns ∧ resolved = true ∨ ∃ f, U = s.unresolvedActiveRuns.setDefault r f) ∧
      s.retire r resolved failure fatal = { s with
        unresolvedActiveRuns := U, shutdownFailures := F, workerFatalError := e
        accepting := s.accepting && a, stopping := b
        activeRunId := none, activeCancellationControl := none } := by
    cases resolved <;> cases fatal
    · exact ⟨_, _, _, false, _, .inr ⟨failure, rfl⟩, by
        simp only [World.retire, Bool.and_false]; rfl⟩
    · exact ⟨_, _, _, false, _, .inr ⟨failure, rfl⟩, by
        simp only [World.retire, Bool.and_false]; rfl⟩
    · exact ⟨_, _, _, true, _, .inl ⟨rfl, rfl⟩, by
        simp only [World.retire, Bool.and_true]; rfl⟩
    · exact ⟨_, _, _, false, _, .inl ⟨rfl, rfl⟩, by
        simp only [World.retire, Bool.and_false]; rfl⟩
  have hmem : ∀ q, q ∈ U → q ∈ s.unresolvedActiveRuns ∨ q = r := by
    rcases hU with ⟨rfl, _⟩ | ⟨f, rfl⟩
    · exact fun q hq => .inl hq
    · exact fun q hq => (Dict.mem_setDefault.1 hq).symm
  have hkeep : ∀ q, q ∈ s.unresolvedActiveRuns → q ∈ U := by
    rcases hU with ⟨rfl, _⟩ | ⟨f, rfl⟩
    · exact fun q hq => hq
    · exact fun q hq => Dict.mem_setDefault.2 (.inr hq)
  rw [hs']
  refine ⟨{ h with
    owned := fun q hq => ?_
    active_handed := fun q hq => by simp at hq
    unresolved_handed := fun q hq => (hmem q hq).elim (h.unresolved_handed q) fun e =>
      e ▸ h.active_handed r hactive
    closed := fun hc => ⟨(h.closed hc).1, by simp [(h.closed hc).2]⟩
    submitting := fun q hq => exists_update Role.inFlight (h.submitting q hq) id
    working := fun q hq => by simp at hq
    roles := forall_update
      (fun u hu => { h.roles u with
        working := fun x hx => absurd (by simp [Role.worker, hx])
          (unique_of_ne h.worker_unique hworker hu) })
      { h.roles t with
        working := fun x hx => by
          obtain rfl : none = x := by simpa using hx
          exact ⟨rfl, ((h.roles t).working _ hw).2⟩ }
    flight_unique := unique_keep Role.inFlight h.flight_unique (.inl rfl)
    token_unique := unique_keep Role.token h.token_unique (.inl rfl)
    worker_unique := unique_keep Role.worker h.worker_unique (.inl hworker.symm) },
    { Evolves.refl s with closes := fun hc => ?_ }⟩
  · rcases h.owned q hq with ht | (hm | ha | hm | hm | hm) | hc
    · exact .inl ht
    · exact .inr (.inl (.inl hm))
    · obtain rfl : r = q := by simpa [hactive] using ha
      rcases hU with ⟨_, hres⟩ | ⟨f, rfl⟩
      · exact .inl (hr hres)
      · exact .inr (.inl (.inr (.inr (.inr (.inr (Dict.mem_setDefault.2 (.inl rfl)))))))
    · exact .inr (.inl (.inr (.inr (.inl hm))))
    · exact .inr (.inl (.inr (.inr (.inr (.inl hm)))))
    · exact .inr (.inl (.inr (.inr (.inr (.inr (hkeep q hm))))))
    · exact .inr (.inr (exists_update Role.claim hc id))
  · have := hc.idle
    simp [hactive] at this

/-- The worker thread starts. -/
theorem section_begin (h : Inv s g) (ht : g t = {}) (hw : s.worker = .starting) :
    (ownership τ).Section t s g { s with worker := .alive } { working := some none } := by
  have hnone : ∀ u x, (g u).working ≠ some x := fun u x hx => by
    have := ((h.roles u).working x hx).2
    simp [hw] at this
  have hidle : s.activeRunId = none := by
    cases ha : s.activeRunId with
    | none => rfl
    | some r =>
        obtain ⟨u, hu⟩ := h.working r ha
        exact absurd hu (hnone u _)
  exact ⟨{ h with
    owned := fun q hq => (h.owned q hq).imp_right fun ho => ho.imp_right fun hc =>
      exists_update Role.claim hc fun e => by simp [ht] at e
    submitting := fun q hq => exists_update Role.inFlight (h.submitting q hq) fun e => by
      simp [ht] at e
    working := fun q hq => by simp [hidle] at hq
    roles := forall_update
      (fun u _ => { h.roles u with working := fun x hx => absurd hx (hnone u x) })
      { token_lt := by simp
        flight := by simp
        fresh := by simp
        owes := by simp
        bound := by simp
        claim := by simp
        working := fun x hx => by
          obtain rfl : none = x := by simpa using hx
          exact ⟨hidle, rfl⟩ }
    flight_unique := unique_keep Role.inFlight h.flight_unique (.inr rfl)
    token_unique := unique_keep Role.token h.token_unique (.inr rfl)
    worker_unique := unique_update Role.worker h.worker_unique fun x _ u _ hu => by
      cases hx : (g u).working with
      | none => simp [Role.worker, hx] at hu
      | some y => exact hnone u y hx },
    { Evolves.refl s with closes := fun hc => ⟨{ hc with }, rfl⟩ }⟩

/-- The worker thread ends. -/
theorem section_end (h : Inv s g) (hw : (g t).working = some none) :
    (ownership τ).Section t s g { s with worker := .stopped } { g t with working := none } := by
  have hidle := ((h.roles t).working _ hw).1
  have hworker : (g t).worker = some () := by simp [Role.worker, hw]
  exact ⟨{ h with
    owned := fun q hq => (h.owned q hq).imp_right fun ho => ho.imp_right fun hc =>
      exists_update Role.claim hc id
    submitting := fun q hq => exists_update Role.inFlight (h.submitting q hq) id
    working := fun q hq => by simp [hidle] at hq
    roles := forall_update
      (fun u hu => { h.roles u with
        working := fun x hx => absurd (by simp [Role.worker, hx])
          (unique_of_ne h.worker_unique hworker hu) })
      { h.roles t with working := by simp }
    flight_unique := unique_keep Role.inFlight h.flight_unique (.inl rfl)
    token_unique := unique_keep Role.token h.token_unique (.inl rfl)
    worker_unique := unique_keep Role.worker h.worker_unique (.inr rfl) },
    { Evolves.refl s with closes := fun hc => ⟨{ hc with }, rfl⟩ }⟩

/-- `start` -/
theorem section_start (h : Inv s g) (blocker : Option AdmissionBlocker) :
    (ownership τ).Section t s g (s.start blocker).2 (g t) := by
  unfold World.start
  split
  · exact section_same h (.refl s)
  · rename_i hs
    split
    · exact section_same h (.refl s)
    · exact section_same h (.refl s)
    · exact section_same h (.refl s)
    · rename_i hw
      refine section_same { h with
        closed := fun hc => absurd hc hs
        roles := fun u => { h.roles u with
          working := fun x hx => ?_ } }
        { Evolves.refl s with closes := fun hc => absurd hc.started hs }
      have := ((h.roles u).working x hx).2
      simp [hw] at this

/-- One section of the executor. -/
theorem section_execute (h : Inv s g) {r : RunId} (hw : (g t).working = some (some r))
    (c : Choice) : (ownership τ).Section t s g (s.executeStep c r).2 (g t) := by
  have hh := h.active_handed r ((h.roles t).working _ hw).1
  unfold World.executeStep
  split
  · rename_i doc _
    split
    · rename_i old hold
      split
      · exact section_same h (.refl s)
      · rename_i hsafe
        rw [not_or] at hsafe
        cases hc : c.write.committed with
        | false => simpa [Store.save, hc] using section_same h (.refl s)
        | true =>
            simp only [Store.save, hc, if_true]
            refine section_store h (Store.advances_save hold (by simpa using hsafe.1) hsafe.2)
              fun q hq => ?_
            rcases eq_or_ne q r with rfl | hne
            · exact .inl hh
            · exact .inr (by
                simpa [Store.Settled, Store.status?, Store.Terminal, update_of_ne hne] using hq)
    · exact section_same h (.refl s)
  · exact section_quiet h _ _ _ _ _
  · exact section_same h (.refl s)
  · exact section_same h (.refl s)

/-- The creation of a Run. -/
theorem section_create (h : Inv s g) {r : RunId} (hr : s.store r ≠ .gone) (c : Choice)
    (mode : RunMode) : (ownership τ).Section t s g (s.create c r mode).2 (g t) := by
  unfold World.create
  split
  · exact section_same h (.refl s)
  · exact section_same h (.refl s)
  · rename_i habsent
    have hmade : ∀ w, w ≠ .absent →
        (ownership τ).Section t s g { s with store := update s.store r w } (g t) := fun w hw =>
      section_store h (Store.advances_create habsent hw) fun q hq => .inr (by
        rcases eq_or_ne q r with rfl | hne
        · simp [Store.Settled, Store.status?, Store.Terminal, habsent, Workspace.doc?] at hq
        · simpa [Store.Settled, Store.status?, Store.Terminal, update_of_ne hne] using hq)
    split <;> exact hmade _ (by simp)
  · rename_i hgone
    exact absurd hgone hr

end Execution
end DebBuilder
