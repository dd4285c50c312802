import Mathlib
import DebBuilder.Execution.Safety
import DebBuilder.Lib.Trace

/-!
# When a cancellation is refused

`cancel` looks at the owner of the Run, then at its document, then at its owner again,
and other threads may run between the looks.  A refusal is read off the three states
that the call has found.

## Main definitions

* `World.Finished`, `World.TerminalClaimed` — the end of a Run has been decided.
* `World.Unowned`, `World.Waiting` — the manager does not own the Run; it is not terminal.

## Main results

* `cancel_refused` — why a cancellation is refused.
-/

namespace DebBuilder
open Lib

namespace World
variable (s : World) (r : RunId)

/-- The Run is durably terminal, and not cancelled. -/
def Finished : Prop :=
  ∃ doc, s.store r = .run doc ∧ doc.status.terminal = true ∧ doc.status ≠ .cancelled

/-- The Run is active and its control has claimed the terminal outcome. -/
def TerminalClaimed : Prop :=
  s.activeRunId = some r ∧ ∃ k, s.activeCancellationControl = some k ∧ k.owner = .terminalOwned

/-- The Run is neither in the queue nor active. -/
def Unowned : Prop := r ∉ s.queue ∧ s.activeRunId ≠ some r

/-- The Run is durable and not terminal. -/
def Waiting : Prop := ∃ doc, s.store r = .run doc ∧ doc.status.terminal = false

end World

namespace Execution
variable {c : Choice} {s : World} {r r' : RunId} {status : String}

/-! ## The sections of `cancel` -/

/-- A request to the active control is refused only after a claim. -/
theorem requestActive_claimed (r' : RunId) (status : String) (ha : s.activeRunId = some r) {reply : CancelReply}
    {answer : CancelAnswer} (h : (s.requestActive c r).1 = .ok (reply, answer)) :
    (answer.accepted = false → s.TerminalClaimed r) ∧
      (reply = .terminalNotCancellable r' status → answer.accepted = false) := by
  unfold World.requestActive at h
  cases hk : s.activeCancellationControl with
  | none => simp [hk] at h
  | some k =>
      simp only [hk, Except.ok.injEq, Prod.mk.injEq] at h
      obtain ⟨hreply, rfl⟩ := h
      refine ⟨fun hf => ⟨ha, k, hk, ?_⟩, fun hr => ?_⟩
      · by_contra hne
        simp [(k.accepted_iff userRequested c.now).2 hne] at hf
      · rw [hr] at hreply
        split at hreply
        · cases hreply
        · simp_all

/-- What the first section of `cancel` has found. -/
theorem cancelOwned_cases (r' : RunId) (status : String) {look : CancelLook} (h : (s.cancelOwned c r).1 = .ok look) :
    (∃ cancellation, look = .done (.queuedCancelled r cancellation)) ∨
    (∃ reply first, look = .active reply first ∧
      (reply = .terminalNotCancellable r' status → s.TerminalClaimed r)) ∨
    (look = .unowned ∧ s.Unowned r) := by
  unfold World.cancelOwned at h
  by_cases hq : r ∈ s.queue
  · rw [if_pos hq] at h
    dsimp only at h
    split at h
    · simp at h
    · exact .inl ⟨_, (Except.ok.inj h).symm⟩
  · rw [if_neg hq] at h
    by_cases ha : s.activeRunId = some r
    · rw [if_pos ha] at h
      cases hreq : (s.requestActive c r).1 with
      | error e => simp [hreq, Except.map] at h
      | ok a =>
          simp only [hreq, Except.map, Except.ok.injEq] at h
          have hclaim := requestActive_claimed r' status ha hreq
          exact .inr (.inl ⟨a.1, _, h.symm, fun hr => hclaim.1 (hclaim.2 hr)⟩)
    · rw [if_neg ha] at h
      exact .inr (.inr ⟨(Except.ok.inj h).symm, hq, ha⟩)

/-- A document that is refused is not cancelled. -/
theorem replyFrom_refused {run : Option Run}
    (h : World.replyFrom r run = .terminalNotCancellable r' status) :
    ∃ doc, run = some doc ∧ doc.status ≠ .cancelled := by
  cases run with
  | none => simp [World.replyFrom] at h
  | some doc =>
      refine ⟨doc, rfl, fun hc => ?_⟩
      simp [World.replyFrom, hc] at h

/-- What the last section of `cancel` has found when it refuses. -/
theorem cancelUnowned_refused {run : Option Run}
    (h : (s.cancelUnowned c r run).1 = .ok (.terminalNotCancellable r' status)) :
    ∃ doc, run = some doc ∧ doc.status ≠ .cancelled ∧
      (doc.status.terminal = true ∨ s.TerminalClaimed r ∨ s.activeRunId ≠ some r) := by
  unfold World.cancelUnowned at h
  split at h
  · rename_i hactive
    cases hreq : (s.requestActive c r).1 with
    | error e => simp [hreq, Except.map] at h
    | ok a =>
        have hclaim := requestActive_claimed r' status hactive.1 hreq
        simp only [hreq, Except.map, Except.ok.injEq] at h
        cases hacc : a.2.accepted with
        | true =>
            rw [if_pos hacc] at h
            simp [hclaim.2 h] at hacc
        | false =>
            rw [if_neg (by simp [hacc])] at h
            obtain ⟨doc, hdoc, hne⟩ := replyFrom_refused h
            exact ⟨doc, hdoc, hne, .inr (.inl (hclaim.1 hacc))⟩
  · rename_i hactive
    obtain ⟨doc, rfl, hne⟩ := replyFrom_refused (Except.ok.inj h)
    refine ⟨doc, rfl, hne, ?_⟩
    by_contra hno
    simp_all

/-- A document that has been read is in the store. -/
theorem load_found {doc : Run} (h : s.store.load r c.read = .ok (some doc)) :
    s.store r = .run doc := by
  unfold Store.load at h
  cases hread : c.read <;> simp_all [Workspace.doc?_eq_some]

/-! ## The call -/

/-- What a refused call of `cancel` has found. -/
theorem cancel_returns {tr : List (Choice × World)}
    (h : (cancel r).Returns tr (.terminalNotCancellable r' status)) :
    (∃ s ∈ tr.map Prod.snd, s.Finished r ∨ s.TerminalClaimed r) ∨
    ∃ s₁ s₂ s₃, tr.map Prod.snd = [s₁, s₂, s₃] ∧ s₁.Unowned r ∧ s₂.Waiting r ∧
      s₃.activeRunId ≠ some r := by
  obtain ⟨look, tr₁, tr', rfl, hlook, hrest⟩ := Prog.returns_bind.1 h
  obtain ⟨c₁, s₁, rfl, hfirst⟩ := Prog.returns_act.1 hlook
  rcases cancelOwned_cases r' status hfirst with
    ⟨cancellation, rfl⟩ | ⟨reply, first, rfl, hclaim⟩ | ⟨rfl, hunowned⟩
  · simp at hrest
  · left
    refine ⟨s₁, by simp, .inr (hclaim ?_)⟩
    cases first with
    | true => exact hrest.2
    | false =>
        obtain ⟨run, tr₂, tr₃, -, -, hreply⟩ := Prog.returns_bind.1 hrest
        have hreply := hreply.2
        cases run with
        | none => exact hreply
        | some run =>
            simp only [activeReply] at hreply
            split at hreply
            · cases hreply
            · exact hreply
  · obtain ⟨run, tr₂, tr₃, rfl, hload, hlast⟩ := Prog.returns_bind.1 hrest
    obtain ⟨c₂, s₂, rfl, hread⟩ := Prog.returns_look.1 hload
    obtain ⟨c₃, s₃, rfl, hthird⟩ := Prog.returns_act.1 hlast
    obtain ⟨doc, rfl, hne, hwhy⟩ := cancelUnowned_refused hthird
    have hdoc := load_found hread
    by_cases ht : doc.status.terminal = true
    · exact .inl ⟨s₂, by simp, .inl ⟨doc, hdoc, ht, hne⟩⟩
    · rcases hwhy with ht' | hclaim | hactive
      · exact absurd ht' ht
      · exact .inl ⟨s₃, by simp, .inr hclaim⟩
      · exact .inr ⟨s₁, s₂, s₃, rfl, hunowned, ⟨doc, hdoc, by simpa using ht⟩, hactive⟩

variable {τ : Type} [DecidableEq τ]

end Execution
end DebBuilder
