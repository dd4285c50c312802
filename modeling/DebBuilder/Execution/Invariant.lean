import Mathlib
import DebBuilder.Execution.Programs

/-!
# The ownership invariant

What holds of the manager and its store between any two sections of any threads.
Each thread has a *role*: the lease of its `with` block, the Run it is submitting,
the Run that is lost unless this thread passes it on, and what it executes.

A Run is accounted for by the containers of the manager, or by a thread that *claims*
it: a claim starts with the admission of a submission and ends when the Run has been
enqueued, recorded as unresolved, or seen not to be there.

## Main definitions

* `Role` — what a thread is responsible for.
* `World.Held`, `World.Sealed` — a Run is in a container of the manager; nothing is.
* `RoleOk`, `Inv` — the invariant.
* `Evolves` — how the state moves forward.
* `ownership` — the protocol of both.
-/

namespace DebBuilder
open Function Lib

namespace World
variable (s : World)

/-- The Runs that have been enqueued and are not resolved by a shutdown. -/
def enqueued : List RunId := s.handed ++ s.queue ++ s.shutdownPending

/-- The places that are taken: by Runs in the queue, by reservations, and by Runs on their way into the queue. -/
def places : Nat := s.queue.length + s.reservations.card + s.submittingRunIds.card

/-- A container of the manager holds the Run. -/
def Held (r : RunId) : Prop :=
  r ∈ s.queue ∨ s.activeRunId = some r ∨ r ∈ s.shutdownPending ∨
    r ∈ s.unresolvedAdmissionRuns ∨ r ∈ s.unresolvedActiveRuns

/-- After the start of a shutdown, nothing is owned or on its way any more. -/
structure Sealed : Prop where
  started : s.shutdownStarted = true
  idle : s.activeRunId = none
  leases : s.admissionLeases = ∅
  submitting : s.submittingRunIds = ∅
  queued : s.shutdownPending = []
  admission : ∀ r, r ∉ s.unresolvedAdmissionRuns
  active : ∀ r, r ∉ s.unresolvedActiveRuns

end World

namespace Execution

/-- What a thread is responsible for. -/
structure Role where
  /-- the lease of its `with` block -/
  token : Option Token := none
  /-- the Run it has put into the submitting set -/
  inFlight : Option RunId := none
  /-- the transition of that Run has been committed, and it is not enqueued -/
  owes : Bool := false
  /-- the Run of its reserved submission, which its lease tracks -/
  bound : Option RunId := none
  /-- the Run it accounts for -/
  claim : Option RunId := none
  /-- for the worker, the Run it executes -/
  working : Option (Option RunId) := none

/-- The role is that of the worker. -/
def Role.worker (ρ : Role) : Option Unit := ρ.working.map fun _ => ()

/-- What the state says of a thread in a role. -/
structure RoleOk (s : World) (ρ : Role) : Prop where
  token_lt : ∀ k, ρ.token = some k → k < s.nextToken
  flight : ∀ r, ρ.inFlight = some r → r ∈ s.submittingRunIds
  fresh : ∀ r, ρ.inFlight = some r → ρ.claim = some r ∨ r ∉ s.committed
  owes : ρ.owes = true → ∃ r, ρ.inFlight = some r ∧ r ∈ s.committed ∧ r ∉ s.enqueued ∧
    s.store.Settled r
  bound : ∀ r, ρ.bound = some r → ∃ k, ρ.token = some k ∧ k ∈ s.admissionLeases ∧
    s.reservationRunIds k = some r
  claim : ∀ r, ρ.claim = some r → ρ.inFlight = some r ∨ ρ.bound = some r
  working : ∀ x, ρ.working = some x → s.activeRunId = x ∧ s.worker = .alive

variable {τ : Type}

/-- The invariant of the manager, its store and the roles of its threads. -/
structure Inv (s : World) (g : τ → Role) : Prop where
  committed : ∀ r ∈ s.committed, ∃ doc, s.store r = .run doc ∧ doc.status ≠ .pending
  owned : ∀ r ∈ s.committed, s.store.Terminal r ∨ s.Held r ∨ ∃ t, (g t).claim = some r
  enqueued_committed : ∀ r ∈ s.enqueued, r ∈ s.committed
  enqueued_nodup : s.enqueued.Nodup
  queued : ∀ r, r ∈ s.queue ∨ r ∈ s.shutdownPending → s.store.Settled r
  active_handed : ∀ r, s.activeRunId = some r → r ∈ s.handed
  unresolved_handed : ∀ r ∈ s.unresolvedActiveRuns, r ∈ s.handed
  creation : ∀ r f, s.unresolvedAdmissionRuns.lookup r = some f → f.inCreation = true →
    s.store r ≠ .absent
  closed : s.shutdownStarted = true → s.queue = [] ∧ s.accepting = false
  submitting : ∀ r ∈ s.submittingRunIds, ∃ t, (g t).inFlight = some r
  working : ∀ r, s.activeRunId = some r → ∃ t, (g t).working = some (some r)
  leases : s.reservations ⊆ s.admissionLeases
  roles : ∀ t, RoleOk s (g t)
  flight_unique : ∀ t u r, (g t).inFlight = some r → (g u).inFlight = some r → t = u
  token_unique : ∀ t u k, (g t).token = some k → (g u).token = some k → t = u
  worker_unique : ∀ t u x, (g t).worker = some x → (g u).worker = some x → t = u

/-- How the state moves forward, whichever thread moves it. -/
structure Evolves (s s' : World) : Prop where
  terminal : ∀ r doc, s.store r = .run doc → doc.status.terminal = true → s'.store r = .run doc
  present : ∀ r, s.store r ≠ .absent → s'.store r ≠ .absent
  gone : ∀ r, s.store r = .gone → s'.store r = .gone
  closed : s.shutdownStarted = true → s'.shutdownStarted = true ∧ s'.handed = s.handed
  closes : s.Sealed → s'.Sealed ∧ s'.committed = s.committed
  capacity : s'.queueCapacity = s.queueCapacity
  places : s.places ≤ s.queueCapacity → s'.places ≤ s.queueCapacity

theorem Evolves.refl (s : World) : Evolves s s where
  terminal _ _ h _ := h
  present _ h := h
  gone _ h := h
  closed h := ⟨h, rfl⟩
  closes h := ⟨h, rfl⟩
  capacity := rfl
  places h := h

theorem Evolves.trans {a b c : World} (h : Evolves a b) (h' : Evolves b c) : Evolves a c where
  terminal r doc hr ht := h'.terminal r doc (h.terminal r doc hr ht) ht
  present r hr := h'.present r (h.present r hr)
  gone r hr := h'.gone r (h.gone r hr)
  closed hs := ⟨(h'.closed (h.closed hs).1).1, (h'.closed (h.closed hs).1).2.trans (h.closed hs).2⟩
  closes hs := ⟨(h'.closes (h.closes hs).1).1, (h'.closes (h.closes hs).1).2.trans (h.closes hs).2⟩
  capacity := h'.capacity.trans h.capacity
  places hp := by
    have hmiddle := h'.places
    rw [h.capacity] at hmiddle
    exact hmiddle (h.places hp)

theorem Evolves.terminal_keeps {s s' : World} (h : Evolves s s') {r : RunId}
    (ht : s.store.Terminal r) : s'.store.Terminal r := by
  obtain ⟨doc, hdoc, hterm⟩ := ht
  exact ⟨doc, h.terminal r doc hdoc hterm, hterm⟩

/-- The ownership protocol of the execution manager. -/
def ownership (τ : Type) : Protocol τ World Role where
  Inv := Inv
  Evolves := Evolves
  refl := Evolves.refl
  trans _ _ _ := Evolves.trans

/-! ## Consequences -/

section
variable {s : World} {g : τ → Role}

theorem Inv.committed_present (h : Inv s g) {r : RunId} (hr : r ∈ s.committed) :
    (s.store r).onDisk = true := by
  obtain ⟨doc, hdoc, _⟩ := h.committed r hr
  simp [hdoc, Workspace.onDisk]

theorem Inv.not_committed_of_pending (h : Inv s g) {r : RunId}
    (hr : s.store.status? r = some .pending) : r ∉ s.committed := by
  intro hc
  obtain ⟨doc, hdoc, hne⟩ := h.committed r hc
  simp [Store.status?, hdoc] at hr
  exact hne hr

theorem Inv.handed_not_waiting (h : Inv s g) {r : RunId} (hr : r ∈ s.handed) :
    r ∉ s.queue ∧ r ∉ s.shutdownPending := by
  have hn := h.enqueued_nodup
  rw [World.enqueued, List.append_assoc, List.nodup_append] at hn
  refine ⟨fun hq => ?_, fun hq => ?_⟩
  · exact hn.2.2 r hr r (List.mem_append_left _ hq) rfl
  · exact hn.2.2 r hr r (List.mem_append_right _ hq) rfl

/-- A thread that accounts for a Run of its `with` block still holds the lease. -/
theorem Inv.claim_tracked (h : Inv s g) {t : τ} {r : RunId} (hc : (g t).claim = some r) :
    r ∈ s.submittingRunIds ∨ ∃ k ∈ s.admissionLeases, s.reservationRunIds k = some r := by
  rcases (h.roles t).claim r hc with hf | hb
  · exact .inl ((h.roles t).flight r hf)
  · obtain ⟨k, _, hk, hr⟩ := (h.roles t).bound r hb
    exact .inr ⟨k, hk, hr⟩

/-- Nothing is enqueued after a shutdown has started. -/
theorem Inv.sealed_nothing (h : Inv s g) (hs : s.Sealed) {r : RunId} : ¬ s.Held r := by
  rintro (hq | ha | hp | hu | hu)
  · simp [(h.closed hs.started).1] at hq
  · simp [hs.idle] at ha
  · simp [hs.queued] at hp
  · exact hs.admission r hu
  · exact hs.active r hu

/-- In a sealed state every committed Run is terminal. -/
theorem Inv.sealed_terminal (h : Inv s g) (hs : s.Sealed) {r : RunId} (hr : r ∈ s.committed) :
    s.store.Terminal r := by
  rcases h.owned r hr with ht | hh | ⟨t, hc⟩
  · exact ht
  · exact absurd hh (h.sealed_nothing hs)
  · rcases h.claim_tracked hc with hm | ⟨k, hk, _⟩
    · simp [hs.submitting] at hm
    · simp [hs.leases] at hk

end
end Execution
end DebBuilder
