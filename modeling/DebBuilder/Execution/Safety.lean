import Mathlib
import DebBuilder.Execution.Ownership

/-!
# Every method keeps the ownership protocol

One rule for each method of the manager, from its sections: under the protocol it can
run to its end whatever the other threads do, from the role and to the role that the
rule names.  Together they make the ownership invariant one of every run.

## Main results

* `wp_persistAndEnqueue`, `wp_drain`, `wp_workerLoop`, … — the methods.
* `ownership_sound` — the ownership invariant of every run.
-/

namespace DebBuilder
namespace Execution
open Function Lib

variable {τ : Type} [DecidableEq τ] {s s' : World} {g : τ → Role} {t : τ} {ρ : Role}
  {r : RunId} {k : Token}

/-- Thread `t` has role `ρ`, and its result says what `Q` says. -/
def Ended {α : Type} (t : τ) (ρ : Role) (Q : Except Exc α → World → Prop)
    (result : Except Exc α) (s : World) (g : τ → Role) : Prop :=
  g t = ρ ∧ Q result s

/-! ## Reads and terminalizations -/

theorem wp_durablyTerminal (hρ : g t = ρ) :
    wp (ownership τ) t (Ended t ρ fun a s => ∃ b, a = .ok b ∧ (b = true → s.store.Terminal r))
      (durablyTerminal r) s g := by
  refine wp_look fun s' g' hb c => ⟨hb.own.trans hρ, _, rfl, fun hok => ?_⟩
  split at hok
  · rename_i run hl
    exact Store.terminal_of_load hl hok
  · simp at hok
  · simp at hok

theorem wp_appendLogLine (hρ : g t = ρ) {Q : World → Prop}
    (hQ : ∀ s', Evolves s s' → Q s') :
    wp (ownership τ) t (Ended t ρ fun _ s => Q s) appendLogLine s g :=
  wp_look fun s' _ hb _ => ⟨hb.own.trans hρ, hQ s' hb.evolves⟩

/-- What an answer of a terminalization proves. -/
theorem wp_provenTerminal (hρ : g t = ρ) (e : Exc) :
    wp (ownership τ) t (Ended t ρ fun a s => a = .ok true → s.store.Terminal r)
      (provenTerminal r e) s g := by
  unfold provenTerminal
  split
  · refine wp_mono (fun a s g h => ⟨h.1, ?_⟩) (wp_durablyTerminal hρ)
    obtain ⟨b, rfl, hb⟩ := h.2
    simpa using hb
  · exact ⟨hρ, by simp⟩

theorem wp_terminalizeUnresolvedAdmission (hρ : g t = ρ) (f : AdmissionFailure) :
    wp (ownership τ) t
      (Ended t ρ fun a s => a = .ok true → s.store.Terminal r ∨ s.store r = .gone)
      (terminalizeUnresolvedAdmission r f) s g := by
  unfold terminalizeUnresolvedAdmission
  refine wp_try (Q := Ended t ρ fun a s => ∀ b, a = .ok b → b ≠ .answer false →
    s.store.Terminal r ∨ s.store r = .gone) ?_ ?_
  · refine wp_act_same fun s' g' hb c => ⟨?_, hb.own.trans hρ, ?_⟩
    · exact section_store hb.inv (terminalizeAdmission_terminalizes f).toAdvances fun q hq =>
        .inr ((terminalizeAdmission_terminalizes f).settled q hq)
    · exact fun b hb' hne => terminalizeAdmission_ok hb' hne
  · rintro (e | a) s g ⟨hρ, h⟩
    · exact wp_mono (fun a s g h => ⟨h.1, fun ha => .inl (h.2 ha)⟩) (wp_provenTerminal hρ e)
    · cases a with
      | answer b =>
          refine ⟨hρ, fun hb => h _ rfl ?_⟩
          simpa using hb
      | saved =>
          have hdone := h _ rfl (by simp)
          refine wp_try (wp_appendLogLine hρ (Q := fun s => s.store.Terminal r ∨ s.store r = .gone)
            fun s' he => hdone.imp he.terminal_keeps (he.gone r)) ?_
          rintro (e | _) s g ⟨hρ, h⟩
          · show wp _ _ _ (if _ then _ else _) s g
            split
            · exact ⟨hρ, fun _ => h⟩
            · exact ⟨hρ, fun _ => h⟩
          · exact ⟨hρ, fun _ => h⟩

theorem wp_finalizeWorkerError (hρ : g t = ρ) (failure : RunError) :
    wp (ownership τ) t (Ended t ρ fun a s => a = .ok true → s.store.Terminal r)
      (finalizeWorkerError r failure) s g := by
  unfold finalizeWorkerError
  refine wp_try (Q := Ended t ρ fun a s => ∀ b, a = .ok b → b ≠ .answer false →
    s.store.Terminal r) ?_ ?_
  · refine wp_act_same fun s' g' hb c => ⟨?_, hb.own.trans hρ, ?_⟩
    · have hst := Store.rewrite_terminalizes (s := s'.store) (r := r)
        (failWorker_terminal c failure) c.read c.write
      exact section_store hb.inv hst.toAdvances fun q hq => .inr (hst.settled q hq)
    · exact fun b hb' hne => finalizeWorker_ok hb' hne
  · rintro (e | a) s g ⟨hρ, h⟩
    · exact wp_provenTerminal hρ e
    · cases a with
      | answer b =>
          refine ⟨hρ, fun hb => h _ rfl ?_⟩
          simpa using hb
      | saved =>
          have hdone := h _ rfl (by simp)
          refine wp_try (wp_appendLogLine hρ (Q := fun s => s.store.Terminal r)
            fun s' he => he.terminal_keeps hdone) ?_
          rintro (e | _) s g ⟨hρ, h⟩
          · show wp _ _ _ (if _ then _ else _) s g
            split
            · exact ⟨hρ, fun _ => h⟩
            · exact ⟨hρ, fun _ => h⟩
          · exact ⟨hρ, fun _ => h⟩

/-! ## Submission -/

/-- The thread submits `r`, with the reservation `token` or without one. -/
structure Submitting (ρ : Role) (r : RunId) (token : Option Token) : Prop where
  flight : ρ.inFlight = some r
  claim : ρ.claim = some r
  owes : ρ.owes = false
  working : ρ.working = none
  bound : ρ.bound = token.map fun _ => r
  token : ∀ k, token = some k → ρ.token = some k

/-- The thread is in the body of its `with` block, or in no block. -/
structure Resting (ρ : Role) (token : Option Token) : Prop where
  token : ρ.token = token
  flight : ρ.inFlight = none
  owes : ρ.owes = false
  working : ρ.working = none

/-- A read that sees no workspace ends the claim on an uncommitted Run. -/
theorem wp_onDisk (hρ : g t = ρ) :
    wp (ownership τ) t (fun a _ g =>
      a = .ok false ∧ (g t = { ρ with claim := none } ∨ g t = ρ ∧ ρ.claim ≠ some r) ∨
        a ≠ .ok false ∧ g t = ρ) (onDisk r) s g := by
  refine wp_act.2 fun s' g' hb c => ?_
  have hown : g' t = ρ := hb.own.trans hρ
  have hread : (ownership τ).Section t s' g' s' (g' t) := section_same hb.inv (.refl s')
  dsimp only
  split
  · exact ⟨g' t, hread, .inr ⟨by simp, by simp [hown]⟩⟩
  · cases hd : (s'.store r).onDisk with
    | true => exact ⟨g' t, hread, .inr ⟨by simp, by simp [hown]⟩⟩
    | false =>
        by_cases hc : ρ.claim = some r
        · refine ⟨{ g' t with claim := none }, section_unclaim hb.inv fun q hq hm => ?_,
            .inl ⟨rfl, .inl (by simp [hown])⟩⟩
          obtain rfl : r = q := by simpa [hown, hc] using hq
          simp [hb.inv.committed_present hm] at hd
        · exact ⟨g' t, hread, .inl ⟨rfl, .inr ⟨by simp [hown], hc⟩⟩⟩

theorem wp_unresolvedSubmission (hρ : g t = ρ) (hc : ρ.claim = some r) :
    wp (ownership τ) t (fun a s g =>
      (∃ c, g t = { ρ with claim := c }) ∧
        ∃ b, a = .ok b ∧ (b = false → (g t).claim = none ∨ s.store.Terminal r))
      (unresolvedSubmission r) s g := by
  unfold unresolvedSubmission
  refine wp_try (wp_onDisk hρ) ?_
  rintro a s' g' (⟨rfl, hg | ⟨_, hc'⟩⟩ | ⟨ha, hg⟩)
  · exact ⟨⟨none, hg⟩, false, rfl, fun _ => .inl (by rw [hg])⟩
  · exact absurd hc hc'
  · cases a with
    | error e => exact ⟨⟨ρ.claim, hg⟩, true, rfl, by simp⟩
    | ok b =>
        cases b with
        | false => exact absurd rfl ha
        | true =>
            refine wp_seq (wp_durablyTerminal hg) (fun b s g h => ?_) (fun e s g h => ?_)
            · obtain ⟨hρ, b', hb', ht⟩ := h
              obtain rfl : b = b' := by simpa using hb'
              exact ⟨⟨ρ.claim, hρ⟩, !b, rfl, fun hb => .inr (ht (by simpa using hb))⟩
            · obtain ⟨_, _, he, _⟩ := h
              simp at he

theorem section_enqueue (h : Inv s g) (hf : (g t).inFlight = some r) (ho : (g t).owes = true)
    (hw : (g t).working = none) (token : Option Token)
    (hk : ∀ k, token = some k → (g t).token = some k) :
    ∃ v, (ownership τ).Section t s g (s.enqueue r token) v ∧ Resting v (g t).token := by
  have hins : (ownership τ).Section t s g (s.enqueue r none) _ := section_insert h hf ho
  cases token with
  | none => exact ⟨_, hins, rfl, rfl, rfl, hw⟩
  | some k =>
      exact ⟨_, hins.comp (section_settle hins.inv (k := k) (by simp [hk k rfl]) (by simp) (by simp)
        (by simp)), by simp, by simp, by simp, by simpa using hw⟩

omit [DecidableEq τ] in
theorem not_sealed_of_flight (h : Inv s g) (hf : (g t).inFlight = some r) : ¬ s.Sealed :=
  fun hs => by
    have hm := (h.roles t).flight r hf
    simp [hs.submitting] at hm

/-- A direct submission that failed: its Run is recorded unless it is known to need no
owner. -/
theorem section_submissionFailed (h : Inv s g) (hf : (g t).inFlight = some r)
    (ho : (g t).owes = false) (hw : (g t).working = none) (hb : (g t).bound = none)
    (unresolved : Bool) (hu : unresolved = false → (g t).claim = none ∨ s.store.Terminal r)
    (e : Exc) :
    ∃ v, (ownership τ).Section t s g (s.submissionFailed r unresolved e) v ∧
      Resting v (g t).token := by
  have hclaim : ∀ q, (g t).claim = some q → q = r := fun q hq => by
    rcases (h.roles t).claim q hq with hq | hq
    · simpa [hf] using hq.symm
    · simp [hb] at hq
  cases unresolved with
  | false =>
      refine ⟨{ g t with inFlight := none, claim := none },
        section_withdraw h hf ho (.inr ⟨rfl, fun q _ hq => ?_⟩), rfl, rfl, ho, hw⟩
      obtain rfl := hclaim q hq
      rcases hu rfl with hn | ht
      · simp [hn] at hq
      · exact .inl ht
  | true =>
      have hrec := section_record (t := t) h (r := r) (f :=
        { code := "execution_enqueue_persistence_unresolved"
          message :=
            "Direct Build Run submission failed before durable ownership could be confirmed"
          runId := r, exceptionType := some e.typeName }) (by simp [AdmissionFailure.inCreation])
        (not_sealed_of_flight h hf) (s.shutdownFailures.setDefault r
          { message := "Direct-submission Run remains durably non-terminal"
            runId := r, ownership := .admission, exceptionType := e.typeName })
      have hinv := hrec.inv
      rw [update_eq_self] at hinv
      refine ⟨{ g t with inFlight := none, claim := none },
        hrec.comp ?_, rfl, rfl, ho, hw⟩
      rw [update_eq_self]
      refine section_withdraw hinv hf ho (.inr ⟨rfl, fun q _ hq => .inr ?_⟩)
      obtain rfl := hclaim q hq
      exact .inr (.inr (.inr (.inl (Dict.mem_setDefault.2 (.inl rfl)))))

/-- A reserved submission that failed: its lease keeps the Run. -/
theorem section_reservedFailed (h : Inv s g) (hf : (g t).inFlight = some r)
    (ho : (g t).owes = false) (hw : (g t).working = none) (hb : (g t).bound = some r) (e : Exc) :
    ∃ v, (ownership τ).Section t s g (s.submissionFailed r false e) v ∧ Resting v (g t).token :=
  ⟨{ g t with inFlight := none, claim := (g t).claim },
    section_withdraw h hf ho (.inl ⟨rfl, hb⟩), rfl, rfl, ho, hw⟩

theorem wp_persistAndEnqueue {token : Option Token} (hs : Submitting (g t) r token) :
    wp (ownership τ) t (fun _ _ g' => Resting (g' t) (g t).token) (persistAndEnqueue r token) s g := by
  unfold persistAndEnqueue
  refine wp_try (Q := fun a _ g' => ∃ o, g' t = { g t with owes := o } ∧
    (o = true ↔ ∃ run, a = .ok run)) ?_ ?_
  · refine wp_act.2 fun s' g' hb c => ?_
    have hown := hb.own
    obtain ⟨o, hsec, ho⟩ := section_markQueued hb.inv (hown ▸ hs.flight) (hown ▸ hs.claim)
      (hown ▸ hs.owes) c
    exact ⟨_, hsec, o, by simp [hown], ho⟩
  · rintro (e | run) s' g' ⟨o, hg, ho⟩
    · obtain rfl : o = false := by simpa using ho
      have hs' : Submitting (g' t) r token := by
        have he : g' t = g t := by rw [hg, ← hs.owes]
        exact he ▸ hs
      have htok : (g' t).token = (g t).token := by rw [hg]
      cases token with
      | none =>
          refine wp_seq (wp_unresolvedSubmission rfl hs'.claim) (fun b s g₁ h => ?_)
            fun e s g₁ h => ?_
          · obtain ⟨⟨c, hg₁⟩, b', hb', ht⟩ := h
            obtain rfl : b = b' := by simpa using hb'
            refine wp_seq (Q := fun _ _ g' => Resting (g' t) (g t).token) ?_ (fun _ _ _ h => h)
              fun _ _ _ h => h
            refine wp_act.2 fun s₂ g₂ hb _ => ?_
            have hown := hb.own.trans hg₁
            obtain ⟨v, hsec, hv⟩ := section_submissionFailed hb.inv (r := r)
              (by simp [hown, hs'.flight]) (by simp [hown, hs'.owes]) (by simp [hown, hs'.working])
              (by simp [hown, hs'.bound]) b
              (fun hb' => (ht hb').imp (fun hn => hb.own ▸ hn) hb.evolves.terminal_keeps) e
            exact ⟨v, hsec, by simpa [hown, htok] using hv⟩
          · obtain ⟨_, b, hb, _⟩ := h
            simp at hb
      | some k =>
          refine wp_seq (Q := fun a _ g₁ => g₁ t = g' t ∧ a = .ok false) ⟨rfl, rfl⟩
            (fun b s g₁ h => ?_) fun e s g₁ h => by simp at h
          obtain rfl : b = false := by simpa using h.2
          refine wp_seq (Q := fun _ _ g' => Resting (g' t) (g t).token) ?_ (fun _ _ _ h => h)
            fun _ _ _ h => h
          refine wp_act.2 fun s₂ g₂ hb c => ?_
          have hown := hb.own.trans h.1
          obtain ⟨v, hsec, hv⟩ := section_reservedFailed hb.inv (hown ▸ hs'.flight)
            (hown ▸ hs'.owes) (hown ▸ hs'.working) (hown ▸ hs'.bound) e
          exact ⟨v, hsec, by simpa [hown, htok] using hv⟩
    · obtain rfl : o = true := ho.2 ⟨run, rfl⟩
      refine wp_seq (Q := fun _ _ g' => Resting (g' t) (g t).token) ?_ (fun _ _ _ h => h) fun _ _ _ h => h
      refine wp_act.2 fun s'' g'' hb c => ?_
      have hown := hb.own.trans hg
      obtain ⟨v, hsec, hv⟩ := section_enqueue hb.inv (r := r)
        (by rw [hown]; exact hs.flight) (by rw [hown]) (by rw [hown]; exact hs.working) token
        (fun k hk => by rw [hown]; exact hs.token k hk)
      exact ⟨v, hsec, by simpa [hown] using hv⟩

/-- `requireNotSubmitted` has passed. -/
theorem notSubmitted_of_ok (h : s.requireNotSubmitted r = .ok ()) : r ∉ s.submittingRunIds := by
  unfold World.requireNotSubmitted at h
  split at h
  · simp at h
  · rename_i hn
    exact fun hm => hn (.inr (.inr hm))

/-- `requireCapacity` has passed. -/
theorem places_lt_of_ok (h : s.requireCapacity = .ok ()) : s.places < s.queueCapacity := by
  rw [World.requireCapacity] at h
  split at h
  · exact nomatch h
  · rename_i hroom
    exact not_le.1 hroom

theorem accepting_of_ok (h : s.requireAccepting = .ok ()) : s.accepting = true := by
  unfold World.requireAccepting at h
  split at h
  · assumption
  · split at h <;> simp at h

omit [DecidableEq τ] in
theorem Inv.not_sealed_of_accepting (h : Inv s g) (ha : s.accepting = true) : ¬ s.Sealed :=
  fun hs => by simp [(h.closed hs.started).2] at ha

theorem wp_submit (ht : g t = {}) :
    wp (ownership τ) t (fun _ _ _ => True) (submit r) s g := by
  unfold submit
  refine wp_seq (Q := fun a _ g' => a = .ok () → Submitting (g' t) r none) ?_
    (fun _ s g' h => ?_) fun _ _ _ _ => trivial
  · refine wp_act.2 fun s' g' hb _ => ?_
    have hown := hb.own.trans ht
    unfold World.submit
    split
    · rename_i ha hn hfull
      refine ⟨_, section_admit hb.inv (subset_refl _) (fun _ => places_lt_of_ok hfull) (notSubmitted_of_ok hn)
        (hb.inv.not_sealed_of_accepting (accepting_of_ok ha)) (by simp [hown]) (by simp [hown])
        (by simp [hown]) (b := none) (by simp), fun _ => ?_⟩
      rw [update_self]
      exact ⟨rfl, rfl, by simp [hown], by simp [hown], rfl, by simp⟩
    all_goals exact ⟨g' t, section_same hb.inv (.refl s'), by simp⟩
  · exact wp_mono (fun _ _ _ _ => trivial) (wp_persistAndEnqueue (h rfl))

/-! ## Reservations -/

/-- The settlement of a lease by its thread, with evidence about the Run it tracks. -/
theorem section_confirmSettled (h : Inv s g) (hρ : Resting (g t) (some k))
    (hc : (g t).claim = some r → s.store.Terminal r) :
    ∃ v, (ownership τ).Section t s g (s.confirmSettled k r).2 v ∧ Resting v (some k) := by
  unfold World.confirmSettled
  split
  · exact ⟨g t, section_same h (.refl s), hρ⟩
  · rename_i hr
    refine ⟨_, section_settle h hρ.token hρ.flight hρ.owes fun q _ hq => .inl ?_, hρ.token,
      hρ.flight, hρ.owes, hρ.working⟩
    rcases (h.roles t).claim q hq with hf | hb
    · simp [hρ.flight] at hf
    · obtain ⟨j, hj, _, hjq⟩ := (h.roles t).bound q hb
      obtain rfl : k = j := by simpa [hρ.token] using hj
      obtain rfl : q = r := by simpa [not_not.1 hr] using hjq.symm
      exact hc hq

theorem wp_confirmTerminal (hρ : Resting (g t) (some k)) :
    wp (ownership τ) t (fun a _ g => Resting (g t) (some k) ∧ ∃ b, a = .ok b)
      (confirmTerminal k r) s g := by
  unfold confirmTerminal
  refine wp_seq (wp_durablyTerminal rfl) (fun b s' g' h => ?_) fun e s' g' h => ?_
  · obtain ⟨hg, b', hb', hterm⟩ := h
    obtain rfl : b = b' := by simpa using hb'
    cases b with
    | false => exact ⟨hg ▸ hρ, false, rfl⟩
    | true =>
        refine wp_act.2 fun s₁ g₁ hb _ => ?_
        obtain ⟨v, hv, hrest⟩ := section_confirmSettled hb.inv (r := r)
          (by rw [hb.own, hg]; exact hρ) fun _ => hb.evolves.terminal_keeps (hterm rfl)
        exact ⟨v, hv, by simpa using hrest, _, rfl⟩
  · obtain ⟨_, b, hb, _⟩ := h
    simp at hb

theorem wp_confirmAbsent (hρ : Resting (g t) (some k)) :
    wp (ownership τ) t (fun _ _ g => Resting (g t) (some k)) (confirmAbsent k r) s g := by
  unfold confirmAbsent
  refine wp_try (wp_onDisk rfl) fun a s' g' h => ?_
  have hrest : Resting (g' t) (some k) := by
    rcases h with ⟨_, hg | ⟨hg, _⟩⟩ | ⟨_, hg⟩ <;> rw [hg]
    exacts [⟨hρ.token, hρ.flight, hρ.owes, hρ.working⟩, hρ, hρ]
  rcases h with ⟨rfl, hg⟩ | ⟨ha, hg⟩
  · refine wp_act.2 fun s₁ g₁ hb _ => ?_
    obtain ⟨v, hv, hrest⟩ := section_confirmSettled hb.inv (r := r) (hb.own ▸ hrest) fun hc => by
      rw [hb.own] at hc
      rcases hg with hg | ⟨hg, hne⟩
      · simp [hg] at hc
      · exact absurd (hg ▸ hc) hne
    exact ⟨v, hv, by simpa using hrest⟩
  · cases a with
    | error e => exact hrest
    | ok b =>
        cases b with
        | false => exact absurd rfl ha
        | true => exact hrest

theorem wp_resolveFailedCreation (hρ : Resting (g t) (some k)) (f : AdmissionFailure) :
    wp (ownership τ) t (fun _ _ g => Resting (g t) (some k)) (resolveFailedCreation k r f) s g := by
  unfold resolveFailedCreation
  refine wp_try (wp_terminalizeUnresolvedAdmission rfl f) ?_
  have hconfirm : ∀ s' g', Resting (g' t) (some k) →
      wp (ownership τ) t (fun _ _ g => Resting (g t) (some k))
        (do if ← confirmTerminal k r then pure true else confirmAbsent k r) s' g' := by
    intro s' g' hρ'
    refine wp_seq (wp_confirmTerminal hρ') (fun b s₁ g₁ h => ?_) fun e s₁ g₁ h => h.1
    cases b with
    | true => exact h.1
    | false => exact wp_confirmAbsent h.1
  rintro (e | b) s' g' ⟨hg, _⟩
  · exact hconfirm s' g' (hg ▸ hρ)
  · have hρ' : Resting (g' t) (some k) := hg ▸ hρ
    cases b with
    | false => exact hρ'
    | true => exact hconfirm s' g' hρ'

theorem section_transferUnresolved (h : Inv s g) (hρ : Resting (g t) (some k))
    {f : AdmissionFailure} (hf : f.inCreation = true → s.store r ≠ .absent) :
    ∃ v, (ownership τ).Section t s g (s.transferUnresolved k r f).2 v ∧ Resting v (some k) := by
  unfold World.transferUnresolved
  split
  · exact ⟨g t, section_same h (.refl s), hρ⟩
  · rename_i hk
    split
    · exact ⟨g t, section_same h (.refl s), hρ⟩
    · rename_i hr
      have hrec := section_record (t := t) h (r := r) hf
        (fun hs => hk (by simp [hs.leases])) (s.shutdownFailures.setDefault r
        { message := "Admission-failed Run remains durably non-terminal"
          runId := r, ownership := .admission
          exceptionType :=
            textOr f.terminalizationExceptionType
              (textOr f.exceptionType "DurableStateUnresolved") })
      have hinv := hrec.inv
      rw [update_eq_self] at hinv
      refine ⟨{ g t with bound := none, claim := none }, hrec.comp ?_, hρ.token, hρ.flight,
        hρ.owes, hρ.working⟩
      rw [update_eq_self]
      refine section_settle hinv hρ.token hρ.flight hρ.owes fun q _ hq => .inr (.inl ?_)
      rcases (h.roles t).claim q hq with hfl | hb
      · simp [hρ.flight] at hfl
      · obtain ⟨j, hj, _, hjq⟩ := (h.roles t).bound q hb
        obtain rfl : k = j := by simpa [hρ.token] using hj
        obtain rfl : q = r := by simpa [not_not.1 hr] using hjq.symm
        exact .inr (.inr (.inr (.inl (Dict.mem_setDefault.2 (.inl rfl)))))

/-- The first section of a release: a Run that the manager owns needs the lease no more. -/
theorem section_releaseReservation (h : Inv s g) (hρ : Resting (g t) (some k)) :
    ∃ v, (ownership τ).Section t s g (s.releaseReservation k).2 v ∧ Resting v (some k) := by
  have hsettled : Resting { g t with bound := none, claim := none } (some k) :=
    ⟨hρ.token, hρ.flight, hρ.owes, hρ.working⟩
  have htracked : ∀ q, (g t).claim = some q → s.reservationRunIds k = some q := fun q hq => by
    rcases (h.roles t).claim q hq with hf | hb
    · simp [hρ.flight] at hf
    · obtain ⟨j, hj, _, hjq⟩ := (h.roles t).bound q hb
      obtain rfl : k = j := by simpa [hρ.token] using hj
      exact hjq
  unfold World.releaseReservation
  split
  · exact ⟨g t, section_same h (.refl s), hρ⟩
  · split
    · rename_i hnone
      refine ⟨_, section_settle h hρ.token hρ.flight hρ.owes fun q _ hq => ?_, hsettled⟩
      have := htracked q hq
      simp [hnone] at this
    · rename_i r hr
      split
      · rename_i howned
        refine ⟨_, section_settle h hρ.token hρ.flight hρ.owes fun q hm hq => ?_, hsettled⟩
        obtain rfl : r = q := by simpa [hr] using htracked q hq
        rcases howned with ha | hq' | hs | hp
        · exact .inr (.inl (.inr (.inl ha)))
        · exact .inr (.inl (.inl hq'))
        · -- Another thread submits the Run, and accounts for it from now on.
          obtain ⟨u, hu⟩ := h.submitting r hs
          have hne : u ≠ t := by
            rintro rfl
            simp [hρ.flight] at hu
          exact .inr (.inr ⟨u, hne, ((h.roles u).fresh r hu).resolve_right (not_not_intro hm)⟩)
        · exact .inr (.inl (.inr (.inr (.inl hp))))
      · exact ⟨g t, section_same h (.refl s), hρ⟩

theorem wp_transferUnresolved (hρ : Resting (g t) (some k)) {f : AdmissionFailure}
    (hf : f.inCreation = true → s.store r ≠ .absent) :
    wp (ownership τ) t (fun _ _ g => Resting (g t) (some k))
      (.act fun _ s => s.transferUnresolved k r f : Code Unit) s g := by
  refine wp_act.2 fun s' g' hb _ => ?_
  obtain ⟨v, hv, hrest⟩ := section_transferUnresolved hb.inv (r := r) (f := f) (hb.own ▸ hρ)
    fun hc => hb.evolves.present r (hf hc)
  exact ⟨v, hv, by simpa using hrest⟩

theorem wp_release (hρ : Resting (g t) (some k)) :
    wp (ownership τ) t (fun _ _ _ => True) (release k) s g := by
  unfold release
  refine wp_seq (Q := fun a _ g => Resting (g t) (some k) ∧ ∃ r, a = .ok r) ?_
    (fun r s' g' h => ?_) fun _ _ _ _ => trivial
  · refine wp_act.2 fun s' g' hb _ => ?_
    obtain ⟨v, hv, hrest⟩ := section_releaseReservation hb.inv (hb.own ▸ hρ)
    exact ⟨v, hv, by simpa using hrest, _, rfl⟩
  · cases r with
    | none => trivial
    | some r =>
        refine wp_seq (wp_confirmTerminal h.1) (fun b s' g' h => ?_) fun _ _ _ _ => trivial
        cases b with
        | true => trivial
        | false => exact wp_mono (fun _ _ _ _ => trivial) (wp_transferUnresolved h.1 (by
            simp [unknownAdmissionFailure, AdmissionFailure.inCreation]))

theorem section_trackReservation (h : Inv s g) (hk : (g t).token = some k) :
    (ownership τ).Section t s g (s.trackReservation k r).2 (g t) := by
  unfold World.trackReservation
  split
  · exact section_same h (.refl s)
  · split
    · split <;> exact section_same h (.refl s)
    · rename_i hfree
      exact section_track h hk hfree r

theorem wp_reservationSubmit (hρ : Resting (g t) (some k)) :
    wp (ownership τ) t (fun _ _ g => Resting (g t) (some k)) (reservationSubmit k r) s g := by
  unfold reservationSubmit
  refine wp_seq (Q := fun _ _ g => Resting (g t) (some k)) ?_ (fun _ s' g' hρ => ?_)
    fun _ _ _ h => h
  · refine wp_act_same fun s' g' hb _ => ⟨section_trackReservation hb.inv ?_, ?_⟩
    · rw [hb.own, hρ.token]
    · exact hb.own ▸ hρ
  · refine wp_seq (Q := fun a _ g => match a with
      | .ok _ => (g t).token = some k ∧ Submitting (g t) r (some k)
      | .error _ => Resting (g t) (some k)) ?_ (fun _ s' g' h => ?_) fun e s g h => h
    · refine wp_act.2 fun s' g' hb _ => ?_
      have hρ' : Resting (g' t) (some k) := hb.own ▸ hρ
      have hkeep : (ownership τ).Section t s' g' s' (g' t) := section_same hb.inv (.refl s')
      have hrest : Resting (update g' t (g' t) t) (some k) := by simpa using hρ'
      unfold World.submitReserved
      split
      · exact ⟨_, hkeep, hrest⟩
      · rename_i hres
        split
        · exact ⟨_, hkeep, hrest⟩
        · rename_i hr
          split
          · exact ⟨_, hkeep, hrest⟩
          · rename_i hn
            have hlease := hb.inv.leases (not_not.1 hres)
            have hroom := Finset.card_erase_add_one (not_not.1 hres)
            refine ⟨_, section_admit hb.inv (Finset.erase_subset ..)
              (fun hp => by simp only [World.places] at hp; omega) (notSubmitted_of_ok hn)
              (fun hs => by simp [hs.leases] at hlease) hρ'.flight hρ'.owes (fun q hq => ?_)
              (b := some r) (fun q hq => ?_), by simpa using hρ'.token, ?_⟩
            · rcases (hb.inv.roles t).claim q hq with hf | hbd
              · simp [hρ'.flight] at hf
              · obtain ⟨j, hj, _, hjq⟩ := (hb.inv.roles t).bound q hbd
                obtain rfl : k = j := by simpa [hρ'.token] using hj
                simpa [not_not.1 hr] using hjq.symm
            · obtain rfl : r = q := by simpa using hq
              exact ⟨k, hρ'.token, hlease, not_not.1 hr⟩
            · rw [update_self]
              refine ⟨rfl, rfl, hρ'.owes, hρ'.working, rfl, fun j hj => ?_⟩
              exact hρ'.token.trans hj
    · refine wp_seq (wp_persistAndEnqueue h.2) (fun _ _ _ hrest => ?_) fun _ _ _ hrest => ?_
      · exact h.1 ▸ hrest
      · exact h.1 ▸ hrest

theorem wp_creationAttempted (hρ : g t = ρ) (f : AdmissionFailure) :
    wp (ownership τ) t (Ended t ρ fun _ s => f.inCreation = true → s.store r ≠ .absent)
      (creationAttempted r f) s g := by
  refine wp_actWhen.2 fun s' g' hb c hc => ⟨g' t, section_same hb.inv (.refl s'), ?_⟩
  rw [update_eq_self]
  exact ⟨hb.own.trans hρ, fun hf => by simpa [hf] using hc⟩

theorem wp_reservationCall (hρ : Resting (g t) (some k)) (call : ReservationCall) :
    wp (ownership τ) t (fun _ _ g => Resting (g t) (some k)) (reservationCall k call) s g := by
  cases call with
  | track r =>
      refine wp_act_same fun s' g' hb _ => ⟨section_trackReservation hb.inv ?_, hb.own ▸ hρ⟩
      rw [hb.own, hρ.token]
  | submit r => exact wp_reservationSubmit hρ
  | confirmTerminal r =>
      exact wp_seq (wp_confirmTerminal hρ) (fun _ _ _ h => h.1) fun _ _ _ h => h.1
  | confirmAbsent r =>
      exact wp_seq (wp_confirmAbsent hρ) (fun _ _ _ h => h) fun _ _ _ h => h
  | resolveFailedCreation r f =>
      refine wp_seq (wp_creationAttempted rfl f (r := r)) (fun _ s' g' h => ?_) fun _ _ _ h => h.1 ▸ hρ
      exact wp_seq (wp_resolveFailedCreation (h.1 ▸ hρ) f) (fun _ _ _ h => h) fun _ _ _ h => h
  | transferUnresolved r f =>
      refine wp_seq (wp_creationAttempted rfl f (r := r)) (fun _ s' g' h => ?_) fun _ _ _ h => h.1 ▸ hρ
      exact wp_transferUnresolved (h.1 ▸ hρ) h.2

theorem wp_reservationCalls (hρ : Resting (g t) (some k)) (calls : List ReservationCall) :
    wp (ownership τ) t (fun _ _ g => Resting (g t) (some k)) (reservationCalls k calls) s g := by
  induction calls generalizing s g with
  | nil => exact hρ
  | cons call calls ih =>
      exact wp_try (wp_reservationCall hρ call) fun _ _ _ h => ih h

theorem wp_withReserve (ht : g t = {}) (calls : List ReservationCall) :
    wp (ownership τ) t (fun _ _ _ => True) (withReserve calls) s g := by
  unfold withReserve
  refine wp_seq (Q := fun a _ g => ∀ k, a = .ok k → Resting (g t) (some k)) ?_
    (fun k s' g' h => ?_) fun _ _ _ _ => trivial
  · refine wp_act.2 fun s' g' hb _ => ?_
    unfold World.reserve
    split
    · rename_i ha hfull
      refine ⟨_, section_reserve hb.inv (hb.own.trans ht) (accepting_of_ok ha) (places_lt_of_ok hfull), fun k hk => ?_⟩
      rw [update_self]
      exact ⟨by simpa using hk, rfl, rfl, rfl⟩
    all_goals exact ⟨g' t, section_same hb.inv (.refl s'), by simp⟩
  · refine wp_seq (wp_reservationCalls (h k rfl) calls) (fun _ s' g' h => wp_release h)
      fun _ _ _ _ => trivial

/-! ## Cancellation and stop -/

theorem section_persistCancellation (h : Inv s g) (c : Choice) (reason : String) :
    (ownership τ).Section t s g
      { s with store := (persistQueuedCancellation c reason r s.store).2 } (g t) := by
  have hst := Store.rewrite_terminalizes (s := s.store) (r := r)
    (cancelQueued_terminal c reason r) c.read c.write
  exact section_store h hst.toAdvances fun q hq => .inr (hst.settled q hq)

theorem section_requestActive (h : Inv s g) (c : Choice) :
    (ownership τ).Section t s g (s.requestActive c r).2 (g t) := by
  unfold World.requestActive
  split
  · exact section_same h (.refl s)
  · exact section_quiet h _ _ _ _ _

theorem section_cancelOwned (h : Inv s g) (c : Choice) :
    (ownership τ).Section t s g (s.cancelOwned c r).2 (g t) := by
  unfold World.cancelOwned
  split
  · have hper := section_persistCancellation (t := t) (r := r) h c userRequested
    have hinv := hper.inv
    rw [update_eq_self] at hinv
    dsimp only
    split
    · exact hper
    · rename_i hok
      refine hper.comp ?_
      rw [update_eq_self]
      exact section_dequeue hinv (persistQueuedCancellation_ok hok)
  · split
    · exact section_requestActive h c
    · exact section_same h (.refl s)

theorem wp_load (hρ : g t = ρ) :
    wp (ownership τ) t (Ended t ρ fun _ _ => True) (load r) s g :=
  wp_look fun _ _ hb _ => ⟨hb.own.trans hρ, trivial⟩

theorem wp_cancel : wp (ownership τ) t (fun _ _ _ => True) (cancel r) s g := by
  unfold cancel
  refine wp_seq (Q := fun _ _ _ => True) (wp_act_same fun s' g' hb c =>
    ⟨section_cancelOwned hb.inv c, trivial⟩) (fun look s' g' _ => ?_) fun _ _ _ _ => trivial
  match look with
  | .done reply => trivial
  | .active reply true => trivial
  | .active reply false =>
      exact wp_seq (wp_load rfl) (fun _ _ _ _ => trivial) fun _ _ _ _ => trivial
  | .unowned =>
      refine wp_seq (wp_load rfl) (fun run s₁ g₁ _ => ?_) fun _ _ _ _ => trivial
      refine wp_act_same fun s₂ g₂ hb c => ⟨?_, trivial⟩
      unfold World.cancelUnowned
      split
      · exact section_requestActive hb.inv c
      · exact section_same hb.inv (.refl s₂)

theorem wp_join (hρ : g t = ρ) (deadline : Bool) :
    wp (ownership τ) t (Ended t ρ fun _ _ => True) (join deadline) s g := by
  refine wp_actWhen.2 fun s' g' hb c _ => ⟨g' t, section_same hb.inv (.refl s'), ?_⟩
  rw [update_eq_self]
  exact ⟨hb.own.trans hρ, trivial⟩

theorem wp_stop (deadline : Bool) : wp (ownership τ) t (fun _ _ _ => True) (stop deadline) s g := by
  unfold stop
  refine wp_seq (Q := fun _ _ _ => True) (wp_act_same fun s' g' hb _ =>
    ⟨section_stop hb.inv, trivial⟩) (fun started s' g' _ => ?_) fun _ _ _ _ => trivial
  cases started with
  | false => trivial
  | true =>
      refine wp_seq (wp_join rfl deadline) (fun stopped s₁ g₁ _ => ?_) fun _ _ _ _ => trivial
      cases stopped <;> trivial

/-! ## Shutdown -/

theorem wp_performTask (hρ : g t = ρ) (task : Task) :
    wp (ownership τ) t (Ended t ρ fun a s => a = .ok true →
      s.store.Terminal task.run ∨ task.kind = .admission ∧ s.store task.run = .gone)
      (performTask task) s g := by
  cases task with
  | queued r =>
      refine wp_seq (Q := Ended t ρ fun a s => (∃ b, a = .ok b) → s.store.Terminal r) ?_
        (fun _ s' g' h => ⟨h.1, fun _ => .inl (h.2 ⟨_, rfl⟩)⟩) fun _ s' g' h => ⟨h.1, by simp⟩
      refine wp_act_same fun s' g' hb c =>
        ⟨section_persistCancellation hb.inv c _, hb.own.trans hρ, ?_⟩
      rintro ⟨b, hb⟩
      exact persistQueuedCancellation_ok hb
  | admission r f =>
      exact wp_mono (fun _ _ _ h => ⟨h.1, fun ha => (h.2 ha).imp_right fun hg => ⟨rfl, hg⟩⟩)
        (wp_terminalizeUnresolvedAdmission hρ f)
  | active r e =>
      exact wp_mono (fun _ _ _ h => ⟨h.1, fun ha => .inl (h.2 ha)⟩) (wp_finalizeWorkerError hρ e)

theorem wp_runTask (hρ : g t = ρ) (task : Task) :
    wp (ownership τ) t (fun _ _ g => g t = ρ) (runTask task) s g := by
  refine wp_try (wp_performTask hρ task) fun result s' g' h => ?_
  refine wp_act_same fun s₁ g₁ hb _ => ⟨?_, hb.own.trans h.1⟩
  match result with
  | .ok true =>
      refine section_resolved hb.inv ?_
      exact (h.2 rfl).imp hb.evolves.terminal_keeps fun hg => ⟨hg.1, hb.evolves.gone _ hg.2⟩
  | .ok false => exact section_quiet hb.inv _ _ _ _ _
  | .error e => exact section_quiet hb.inv _ _ _ _ _

theorem wp_drainPass (hρ : g t = ρ) (deadline : Bool) (kinds : List Kind) (n : Nat)
    (attempted : List (Kind × RunId)) :
    wp (ownership τ) t (fun _ _ g => g t = ρ) (drainPass deadline kinds n attempted) s g := by
  induction n generalizing s g attempted with
  | zero => exact wp_halt _ _ _
  | succ n ih =>
      refine wp_seq (Q := fun _ _ g => g t = ρ) (wp_act_same fun s' g' hb c =>
        ⟨section_same hb.inv (.refl s'), hb.own.trans hρ⟩) (fun next s' g' hρ' => ?_)
        fun _ _ _ h => h
      cases next with
      | task task => exact wp_seq (wp_runTask hρ' task) (fun _ _ _ h => ih h _) fun _ _ _ h => h
      | wait | again | stop => exact hρ'

theorem wp_drain (hρ : g t = ρ) (deadline : Bool) (kinds : List Kind) (n : Nat)
    (attempted : List (Kind × RunId)) :
    wp (ownership τ) t (fun _ _ g => g t = ρ) (drain deadline kinds n attempted) s g := by
  induction n generalizing s g attempted with
  | zero => exact wp_halt _ _ _
  | succ n ih =>
      refine wp_seq (wp_drainPass hρ deadline kinds n attempted) (fun r s' g' hρ' => ?_)
        fun _ _ _ h => h
      match r with
      | (attempted, .wait) => exact ih hρ' _
      | (_, .again) => exact ih hρ' _
      | (_, .stop) | (_, .task _) => exact hρ'

/-- A complete result describes a sealed state. -/
theorem sealed_of_complete {joined timedOut : Bool}
    (h : (s.shutdownResult joined timedOut).complete = true) : s.Sealed := by
  simp only [World.shutdownResult, decide_eq_true_eq] at h
  obtain ⟨hst, _, hun, hact, hlease, hsub, _⟩ := h
  have hnone : ∀ q, q ∉ s.shutdownPending ++ s.unresolvedAdmissionRuns.items.map Prod.fst ++
      s.unresolvedActiveRuns.items.map Prod.fst := fun q hq => by
    have hq' := List.mem_eraseDups.2 hq
    rw [hun] at hq'
    simp at hq'
  refine ⟨hst, hact, hlease, hsub, List.eq_nil_iff_forall_not_mem.2 fun q hq => ?_,
    fun q hq => ?_, fun q hq => ?_⟩
  · exact hnone q (List.mem_append_left _ (List.mem_append_left _ hq))
  · obtain ⟨v, hv⟩ := Dict.exists_mem_items hq
    exact hnone q (List.mem_append_left _ (List.mem_append_right _
      (List.mem_map.2 ⟨_, hv, rfl⟩)))
  · obtain ⟨v, hv⟩ := Dict.exists_mem_items hq
    exact hnone q (List.mem_append_right _ (List.mem_map.2 ⟨_, hv, rfl⟩))

/-- What a shutdown that has returned proves. -/
def ShutdownOk (a : Except Exc ShutdownResult) (s : World) : Prop :=
  ∀ result, a = .ok result → result.complete = true → s.Sealed

theorem wp_shutdownResult (hρ : g t = ρ) (joined timedOut : Bool) :
    wp (ownership τ) t (Ended t ρ ShutdownOk)
      (step fun _ s => (s.shutdownResult joined timedOut, s)) s g := by
  refine wp_act_same fun s' g' hb c => ⟨section_same hb.inv (.refl s'), hb.own.trans hρ, ?_⟩
  rintro result hok hcomplete
  simp only [Except.ok.injEq] at hok
  exact sealed_of_complete (hok ▸ hcomplete)

theorem shutdownOk_error (e : Exc) : ShutdownOk (.error e) s := by
  simp [ShutdownOk]

theorem wp_shutdownLocked (hρ : g t = ρ) (deadline : Bool) (n : Nat) :
    wp (ownership τ) t (Ended t ρ ShutdownOk) (shutdownLocked deadline n) s g := by
  have hstopped : ∀ joined s g, g t = ρ →
      wp (ownership τ) t (fun _ _ g => g t = ρ) (drainStopped joined deadline n) s g := by
    intro joined s g hρ
    cases joined with
    | true => exact wp_drain hρ deadline _ n _
    | false => exact hρ
  unfold shutdownLocked
  refine wp_seq (Q := fun _ _ g => g t = ρ) (wp_act_same fun s' g' hb c =>
    ⟨section_beginShutdown hb.inv c true, hb.own.trans hρ⟩) (fun _ s₁ g₁ hρ => ?_)
    fun e _ _ h => ⟨h, shutdownOk_error e⟩
  refine wp_seq (wp_drain hρ deadline _ n _) (fun _ s₂ g₂ hρ => ?_)
    fun e _ _ h => ⟨h, shutdownOk_error e⟩
  refine wp_seq (wp_join hρ deadline) (fun joined s₃ g₃ h => ?_)
    fun e _ _ h => ⟨h.1, shutdownOk_error e⟩
  refine wp_seq (hstopped joined s₃ g₃ h.1) (fun _ s₄ g₄ hρ => ?_)
    fun e _ _ h => ⟨h, shutdownOk_error e⟩
  refine wp_seq (Q := fun _ _ g => g t = ρ) (wp_act_same fun s' g' hb c =>
    ⟨section_same hb.inv (.refl s'), hb.own.trans hρ⟩) (fun timedOut s₅ g₅ hρ => ?_)
    fun e _ _ h => ⟨h, shutdownOk_error e⟩
  exact wp_shutdownResult hρ joined timedOut

theorem wp_shutdown (deadline : Bool) (n : Nat) :
    wp (ownership τ) t (fun a s _ => ShutdownOk a s) (shutdown deadline n) s g := by
  unfold shutdown
  refine wp_seq (Q := fun _ _ _ => True) ?_ (fun acquired s₁ g₁ _ => ?_)
    fun e _ _ _ => shutdownOk_error e
  · refine wp_actWhen.2 fun s' g' hb c _ => ⟨g' t, ?_, trivial⟩
    split
    · exact section_same hb.inv (.refl s')
    · exact section_quiet hb.inv _ _ _ _ _
  · cases acquired with
    | true =>
        refine wp_ensuring (wp_shutdownLocked rfl deadline n) fun r s₂ g₂ h => ?_
        refine wp_act_same fun s' g' hb c => ⟨section_quiet hb.inv _ _ _ _ _, ?_⟩
        intro result hok hcomplete
        have hsealed := (hb.evolves.closes (h.2 result hok hcomplete)).1
        exact { hsealed with }
    | false =>
        refine wp_seq (Q := fun _ _ _ => True) (wp_act_same fun s' g' hb c =>
          ⟨section_same hb.inv (.refl s'), trivial⟩) (fun joined s₂ g₂ _ => ?_)
          fun e _ _ _ => shutdownOk_error e
        exact wp_mono (fun _ _ _ h => h.2) (wp_shutdownResult rfl joined true)

/-! ## The worker -/

theorem wp_execute (hρ : g t = ρ) (hw : ρ.working = some (some r)) (n : Nat) :
    wp (ownership τ) t (fun _ _ g => g t = ρ) (execute r n) s g := by
  induction n generalizing s g with
  | zero => exact wp_halt _ _ _
  | succ n ih =>
      refine wp_seq (Q := fun _ _ g => g t = ρ) (wp_act_same fun s' g' hb c => ⟨?_, ?_⟩)
        (fun more s' g' hρ' => ?_) fun _ _ _ h => h
      · exact section_execute hb.inv (by rw [hb.own, hρ, hw]) c
      · exact hb.own.trans hρ
      · cases more with
        | true => exact ih hρ'
        | false => exact hρ'

theorem wp_executionFailure (hρ : g t = ρ) (ended : Except Exc Unit) :
    wp (ownership τ) t (fun a _ g => g t = ρ ∧ ∃ f, a = .ok f) (executionFailure r ended) s g := by
  cases ended with
  | error e => exact ⟨hρ, _, rfl⟩
  | ok u =>
      refine wp_seq (wp_durablyTerminal hρ (r := r)) (fun b s' g' h => ?_) fun e s' g' h => ?_
      · cases b <;> exact ⟨h.1, _, rfl⟩
      · obtain ⟨_, b, hb, _⟩ := h
        simp at hb

theorem wp_finalizeExecution (hρ : g t = ρ) (failure : Option RunError) (fatal : Option Exc) :
    wp (ownership τ) t (fun a _ g => g t = ρ ∧ ∃ f, a = .ok f)
      (finalizeExecution r failure fatal) s g := by
  cases failure with
  | none => exact ⟨hρ, _, rfl⟩
  | some f => exact wp_try (wp_finalizeWorkerError hρ f) fun _ _ _ h => ⟨h.1, _, rfl⟩

theorem wp_workRun (hw : (g t).working = some (some r)) (n : Nat) :
    wp (ownership τ) t (fun _ _ g => (g t).working = some none) (workRun r n) s g := by
  unfold workRun
  refine wp_try (wp_execute rfl hw n) fun ended s₁ g₁ hρ => ?_
  refine wp_seq (wp_executionFailure hρ ended) (fun failure s₂ g₂ h => ?_) fun e s₂ g₂ h => ?_
  · refine wp_seq (wp_finalizeExecution h.1 failure _) (fun fatal s₃ g₃ h => ?_)
      fun e s₃ g₃ h => ?_
    · have hρ₃ := h.1
      clear h
      refine wp_seq (wp_durablyTerminal hρ₃ (r := r)) (fun resolved s₄ g₄ h => ?_)
        fun e s₄ g₄ h => ?_
      · obtain ⟨hρ, b, hb, hterm⟩ := h
        obtain rfl : resolved = b := by simpa using hb
        refine wp_seq (Q := fun _ _ g => (g t).working = some none) ?_ (fun _ s₅ g₅ h => ?_)
          fun _ _ _ h => h
        · refine wp_act.2 fun s' g' hb c => ⟨_, section_retire hb.inv (r := r) ?_ (fun hres => ?_) _ _, ?_⟩
          · rw [hb.own, hρ, hw]
          · exact hb.evolves.terminal_keeps (hterm hres)
          · rw [update_self]
        · cases fatal with
          | some e => exact h
          | none => exact h
      · obtain ⟨_, b, hb, _⟩ := h
        simp at hb
    · obtain ⟨_, f, hf⟩ := h
      simp at hf
  · obtain ⟨_, f, hf⟩ := h
    simp at hf

/-- The worker takes a Run only from an open queue. -/
theorem workerNext_cases (s : World) :
    ((s.workerNext.1 = .stop ∨ s.workerNext.1 = .again) ∧ s.workerNext.2 = s) ∨
    ∃ r queue, s.shutdownStarted = false ∧ s.queue = r :: queue ∧
      s.workerNext = (.run r, { s with
        queue, activeRunId := some r, activeCancellationControl := some {}
        handed := s.handed ++ [r] }) := by
  unfold World.workerNext
  split
  · left
    split <;> simp
  · rename_i hst
    split
    · left
      split <;> simp
    · rename_i r queue hq
      exact .inr ⟨r, queue, by simpa using hst, hq, rfl⟩

theorem wp_workerLoop (hw : (g t).working = some none) (n : Nat) :
    wp (ownership τ) t (fun _ _ g => (g t).working = some none) (workerLoop n) s g := by
  induction n generalizing s g with
  | zero => exact wp_halt _ _ _
  | succ n ih =>
      refine wp_seq (Q := fun (a : Except Exc WorkerStep) _ g => Except.casesOn a
        (fun _ => (g t).working = some none) fun next => WorkerStep.casesOn next
          (fun r => (g t).working = some (some r)) ((g t).working = some none) ((g t).working = some none)) ?_ (fun next s₁ g₁ h => ?_) fun e _ _ h => h
      · refine wp_actWhen.2 fun s' g' hb c _ => ?_
        have hw' : (g' t).working = some none := by rw [hb.own, hw]
        rcases workerNext_cases s' with ⟨hnext, hs⟩ | ⟨r, queue, hst, hq, hs⟩
        · refine ⟨g' t, by rw [hs]; exact section_same hb.inv (.refl s'), ?_⟩
          rcases hnext with hn | hn <;> simpa [hn] using hw'
        · exact ⟨_, by rw [hs]; exact section_take hb.inv hw' hst hq _, by simp [hs]⟩
      · cases next with
        | stop => exact h
        | again => exact ih h
        | run r =>
            refine wp_seq (wp_workRun h n) (fun more s₂ g₂ h => ?_) fun _ _ _ h => h
            cases more with
            | true => exact ih h
            | false => exact h

theorem wp_workerMain (ht : g t = {}) (n : Nat) :
    wp (ownership τ) t (fun _ _ _ => True) (workerMain n) s g := by
  unfold workerMain
  refine wp_seq (Q := fun _ _ g => (g t).working = some none) ?_ (fun _ s₁ g₁ h => ?_)
    fun _ _ _ _ => trivial
  · refine wp_actWhen.2 fun s' g' hb c hc => ⟨_, section_begin hb.inv (hb.own.trans ht)
      (by simpa using hc), ?_⟩
    rw [update_self]
  · refine wp_ensuring (wp_workerLoop h n) fun r s₂ g₂ h => ?_
    refine wp_act.2 fun s' g' hb c => ⟨_, section_end hb.inv (by rw [hb.own, h]), trivial⟩

/-! ## The environment -/

theorem wp_create (mode : RunMode) :
    wp (ownership τ) t (fun _ _ _ => True) (create r mode) s g :=
  wp_actWhen.2 fun _ g' hb c hc => ⟨g' t, section_create hb.inv (by simpa using hc) c mode, trivial⟩

theorem wp_enqueueFailed (e : Exc) :
    wp (ownership τ) t (fun _ _ _ => True) (enqueueFailed r e) s g := by
  unfold enqueueFailed
  refine wp_seq (Q := fun _ _ _ => True) ?_ (fun done s₁ g₁ _ => ?_) fun _ _ _ _ => trivial
  · refine wp_act_same fun s' g' hb c => ⟨?_, trivial⟩
    have hst := Store.rewrite_terminalizes (s := s'.store) (r := r)
      (failEnqueue_terminal c r e) c.read c.write
    exact section_store hb.inv hst.toAdvances fun q hq => .inr (hst.settled q hq)
  · cases done with
    | answer b => trivial
    | saved =>
        refine wp_try (wp_appendLogLine rfl (Q := fun _ => True) fun _ _ => trivial) ?_
        rintro (e | _) s₂ g₂ _
        · show wp _ _ _ (if _ then _ else _) s₂ g₂
          split <;> trivial
        · trivial

/-! ## Every run -/

/-- What a thread proves when it ends: a complete shutdown left nothing behind. -/
def callPost (a : Except Exc Reply) (s : World) (_ : τ → Role) : Prop :=
  ∀ result, a = .ok (.shutdown result) → result.complete = true → s.Sealed

/-- Every call keeps the ownership protocol. -/
theorem ownership_sound :
    (ownership τ).Sound manager {} (fun _ => callPost) where
  stable _ _ _ _ _ _ hq hb := fun result ha hc => (hb.evolves.closes (hq result ha hc)).1
  restart _ _ _ _ h := by simp [manager] at h
  call t call s g hinv ht := by
    have hend : ∀ {α : Type} {Q : Except Exc α → World → (τ → Role) → Prop} {p : Code α}
        {f : α → Reply}, (∀ a result, f a ≠ .shutdown result) → wp (ownership τ) t Q p s g →
        wp (ownership τ) t callPost (p.bind fun a => .pure (f a)) s g := by
      intro α Q p f hf hp
      refine wp_seq hp (fun a _ _ _ => ?_) fun e _ _ _ => ?_
      · intro result ha
        exact absurd (Except.ok.inj ha) (hf a result)
      · intro result ha
        simp at ha
    cases call with
    | start blocker =>
        exact hend (Q := fun _ _ _ => True) (by simp) (wp_act_same fun s' g' hb _ =>
          ⟨section_start hb.inv blocker, trivial⟩)
    | worker n => exact hend (by simp) (wp_workerMain ht n)
    | submit r => exact hend (by simp) (wp_submit ht)
    | withReserve calls => exact hend (by simp) (wp_withReserve ht calls)
    | cancel r => exact hend (by simp) wp_cancel
    | stop deadline => exact hend (by simp) (wp_stop deadline)
    | beginShutdown =>
        exact hend (Q := fun _ _ _ => True) (by simp) (wp_act_same fun s' g' hb c =>
          ⟨section_beginShutdown hb.inv c false, trivial⟩)
    | shutdown deadline n =>
        refine wp_seq (wp_shutdown deadline n) (fun result s' g' h => ?_) fun e s' g' h => ?_
        · intro result' ha hc
          obtain rfl : result = result' := by simpa using ha
          exact h result rfl hc
        · intro result ha
          simp at ha
    | create r mode => exact hend (by simp) (wp_create mode)
    | enqueueFailed r e => exact hend (by simp) (wp_enqueueFailed e)

/-- The pools that a manager over `store` can reach. -/
def Reachable (store : Store) (queueCapacity : Nat) (p : Pool τ World Choice Exc Reply) : Prop :=
  manager.Reaches (Pool.start (newManager store queueCapacity)) p

omit [DecidableEq τ] in
theorem inv_newManager (store : Store) (queueCapacity : Nat) :
    Inv (newManager store queueCapacity) fun _ : τ => {} where
  committed := by simp [newManager]
  owned := by simp [newManager]
  enqueued_committed := by simp [newManager, World.enqueued]
  enqueued_nodup := by simp [newManager, World.enqueued]
  queued := by simp [newManager]
  active_handed := by simp [newManager]
  unresolved_handed := fun r hr => absurd hr (AList.notMem_empty r)
  creation := by simp [newManager]
  closed := by simp [newManager]
  submitting := by simp [newManager]
  working := by simp [newManager]
  leases := by simp [newManager]
  roles _ := by constructor <;> simp
  flight_unique := by simp
  token_unique := by simp
  worker_unique := by simp [Role.worker]

/-- The invariant of every reachable pool. -/
theorem Reachable.keeps {store : Store} {queueCapacity : Nat} {p : Pool τ World Choice Exc Reply}
    (h : Reachable store queueCapacity p) : (ownership τ).Keeps {} (fun _ => callPost) p :=
  ownership_sound.reaches (Protocol.keeps_start (inv_newManager store queueCapacity)) h

/-- A container of the manager, a tracked lease or the submitting set holds the Run. -/
def Owned (s : World) (r : RunId) : Prop :=
  r ∈ s.queue ∨ s.activeRunId = some r ∨ r ∈ s.submittingRunIds ∨
    (∃ k ∈ s.admissionLeases, s.reservationRunIds k = some r) ∨ r ∈ s.shutdownPending ∨
    r ∈ s.unresolvedAdmissionRuns ∨ r ∈ s.unresolvedActiveRuns

omit [DecidableEq τ] in
theorem Inv.owned_or_terminal (h : Inv s g) {r : RunId} (hr : r ∈ s.committed) :
    s.store.Terminal r ∨ Owned s r := by
  rcases h.owned r hr with ht | (hq | ha | hp | hu | hu) | ⟨t, hc⟩
  · exact .inl ht
  · exact .inr (.inl hq)
  · exact .inr (.inr (.inl ha))
  · exact .inr (.inr (.inr (.inr (.inr (.inl hp)))))
  · exact .inr (.inr (.inr (.inr (.inr (.inr (.inl hu))))))
  · exact .inr (.inr (.inr (.inr (.inr (.inr (.inr hu))))))
  · rcases h.claim_tracked hc with hs | hl
    · exact .inr (.inr (.inr (.inl hs)))
    · exact .inr (.inr (.inr (.inr (.inl hl))))

variable {store : Store} {queueCapacity : Nat} {p q : Pool τ World Choice Exc Reply}

/-- Ownership is conserved: in every reachable pool each Run whose queueing was committed
is terminal or owned, no Run is twice in the queue or both queued and active, and none
was handed to the executor twice. -/
theorem ownership_conserved (h : Reachable store queueCapacity p) :
    (∀ r ∈ p.shared.committed, ¬ p.shared.store.Terminal r → Owned p.shared r) ∧
    p.shared.queue.Nodup ∧ (∀ r ∈ p.shared.queue, p.shared.activeRunId ≠ some r) ∧
    p.shared.handed.Nodup := by
  obtain ⟨g, hinv, _⟩ := h.keeps
  have hn := hinv.enqueued_nodup
  rw [World.enqueued, List.append_assoc, List.nodup_append, List.nodup_append] at hn
  refine ⟨fun r hr ht => (hinv.owned_or_terminal hr).resolve_left ht, hn.2.1.1, fun r hr ha => ?_,
    hn.1⟩
  exact (hinv.handed_not_waiting (hinv.active_handed r ha)).1 hr

/-- After one submission the conserved Run is the queued one. -/
theorem ownership_conserved_queued : ∃ p : Pool Nat World Choice Exc Reply,
    p.shared.queue = ["a"] ∧ "a" ∈ p.shared.committed ∧ Owned p.shared "a" ∧
      p.shared.handed.Nodup := by
  obtain ⟨p, hp, hc⟩ := System.exists_of_run (τ := Nat) (S := manager)
    (p := Pool.start (newManager (fun _ => .absent) 8))
    ([.spawn 0 (.create "a" .build), .exec 0 {}, .spawn 1 (.start none), .exec 1 {},
      .spawn 2 (.submit "a"), .exec 2 {}, .exec 2 {}, .exec 2 {}])
    (fun p => decide (p.shared.queue = ["a"] ∧ "a" ∈ p.shared.committed ∧
      ¬ p.shared.store.Terminal "a")) (by rfl)
  obtain ⟨hq, hm, ht⟩ := of_decide_eq_true hc
  have h := ownership_conserved (show Reachable (fun _ => .absent) 8 p from hp)
  exact ⟨p, hq, hm, h.1 "a" hm ht, h.2.2.2⟩

/-- A complete shutdown is sound: once it has been returned, every Run whose queueing was
committed is terminal, admission is closed, nothing is queued, and nothing more is handed
to the executor. -/
theorem shutdown_complete_sound (h : Reachable store queueCapacity p) {t : τ}
    {result : ShutdownResult} (ht : p.Returned t (.shutdown result))
    (hc : result.complete = true) (hq : manager.Reaches p q) :
    (∀ r ∈ q.shared.committed, q.shared.store.Terminal r) ∧
    q.shared.accepting = false ∧ q.shared.queue = [] ∧ q.shared.handed = p.shared.handed := by
  obtain ⟨_, _, hpost⟩ := h.keeps.returned ht
  have hsealed := hpost result rfl hc
  have hev : Evolves p.shared q.shared := ownership_sound.evolves h.keeps hq
  obtain ⟨g, hinv, _⟩ := ownership_sound.reaches h.keeps hq
  have hsealed' := (hev.closes hsealed).1
  have hclosed := hinv.closed hsealed'.started
  exact ⟨fun r hr => hinv.sealed_terminal hsealed' hr, hclosed.2, hclosed.1,
    (hev.closed hsealed.started).2⟩


/-- A shutdown that finds a queued Run cancels it, and is complete. -/
theorem shutdown_complete_sound_queued : ∃ p : Pool Nat World Choice Exc Reply,
    "a" ∈ p.shared.committed ∧ p.shared.store.Terminal "a" ∧ p.shared.handed = [] := by
  obtain ⟨p, hp, hc⟩ := System.exists_of_run (τ := Nat) (S := manager)
    (p := Pool.start (newManager (fun _ => .absent) 8))
    (List.flatten [[.spawn 0 (.create "a" .build), .exec 0 {}, .spawn 1 (.start none), .exec 1 {},
        .spawn 2 (.worker 5), .exec 2 {}, .spawn 3 (.submit "a"), .exec 3 {}, .exec 3 {}, .exec 3 {},
        .spawn 4 (.shutdown false 5)], List.replicate 6 (.exec 4 {}), List.replicate 2 (.exec 2 {}),
      List.replicate 5 (.exec 4 {})])
    (fun p => decide ("a" ∈ p.shared.committed ∧ p.shared.handed = []) &&
      (p.result? 4).any fun
        | .shutdown result => result.complete
        | _ => false) (by rfl)
  rw [Bool.and_eq_true, decide_eq_true_eq] at hc
  obtain ⟨reply, hr, hcomplete⟩ := (Option.any_eq_true ..).1 hc.2
  cases reply with
  | shutdown result =>
      have h := shutdown_complete_sound (show Reachable (fun _ => .absent) 8 p from hp)
        (Pool.returned_of_result? hr) hcomplete .refl
      exact ⟨p, hc.1.1, h.1 "a" hc.1.1, hc.1.2⟩
  | unit | run doc | cancel reply => simp at hcomplete

/-! ## Capacity -/

/-- A reservation that tracks a Run is submitted unless the Run is under way already. -/
theorem submitReserved_eq {s : World} {k : Token} {r : RunId} (hk : k ∈ s.reservations)
    (hr : s.reservationRunIds k = some r) :
    (s.submitReserved k r).1 = .ok () ∨ (s.submitReserved k r).1 = .error (.manager (.alreadySubmitted r)) := by
  rw [World.submitReserved, if_neg (not_not.2 hk), if_neg (not_not.2 hr), World.requireNotSubmitted]
  by_cases hsubmitted : s.activeRunId = some r ∨ r ∈ s.queue ∨ r ∈ s.submittingRunIds
  · rw [if_pos hsubmitted]
    exact .inr rfl
  · rw [if_neg hsubmitted]
    exact .inl rfl

/-- The Runs that are queued, reserved and being submitted never exceed the capacity, and a reservation that tracks a
Run needs no further place. -/
theorem places_le_capacity (h : Reachable store queueCapacity p) :
    p.shared.queue.length + p.shared.reservations.card + p.shared.submittingRunIds.card ≤ p.shared.queueCapacity ∧
    p.shared.queueCapacity = queueCapacity ∧
    ∀ k ∈ p.shared.reservations, ∀ r, p.shared.reservationRunIds k = some r →
      (p.shared.submitReserved k r).1 = .ok () ∨
        (p.shared.submitReserved k r).1 = .error (.manager (.alreadySubmitted r)) := by
  have hev : Evolves (newManager store queueCapacity) p.shared := 
    ownership_sound.evolves (Protocol.keeps_start (inv_newManager store queueCapacity)) h
  have hplaces := hev.places (Nat.zero_le _)
  rw [← hev.capacity] at hplaces
  exact ⟨hplaces, hev.capacity, fun k hk r hr => submitReserved_eq hk hr⟩

/-- A manager with one place is full after one submission. -/
theorem places_le_capacity_full : ∃ p : Pool Nat World Choice Exc Reply, p.shared.queue = ["a"] ∧
    p.shared.queue.length + p.shared.reservations.card + p.shared.submittingRunIds.card ≤ 1 := by
  obtain ⟨p, hp, hc⟩ := System.exists_of_run (τ := Nat) (S := manager)
    (p := Pool.start (newManager (fun _ => .absent) 1))
    ([.spawn 0 (.create "a" .build), .exec 0 {}, .spawn 1 (.start none), .exec 1 {},
      .spawn 2 (.submit "a"), .exec 2 {}, .exec 2 {}, .exec 2 {}])
    (fun p => decide (p.shared.queue = ["a"])) (by rfl)
  obtain ⟨hplaces, hcapacity, -⟩ := places_le_capacity (show Reachable (fun _ => .absent) 1 p from hp)
  exact ⟨p, of_decide_eq_true hc, hcapacity ▸ hplaces⟩

end Execution
end DebBuilder
