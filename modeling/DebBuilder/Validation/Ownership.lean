import Mathlib
import DebBuilder.Validation.Queue

/-!
# Who owns an attempt

Three invariants follow the attempts: how many places of the queue are taken, in which order
attempts leave it, and who is left to settle an attempt that is still active.

## Main definitions

* `Move` — the steps, by cases.
* `Counted`, `Ordered`, `Settled` — the invariants.

## Main results

* `validations_owned` — no attempt is executed twice or out of order, and none is forgotten.
-/

namespace DebBuilder.Validation.Queue
open Function Lib

variable {ι : Type} [DecidableEq ι] {boot : Boot ι} {capacity : Nat} {s s' : State ι} {a : Action ι} {h : History ι}
  {p : State ι × History ι} {id : ι}

/-! ## The steps by cases -/

/-- An admission that ends without having stored anything, or with its attempt. -/
def State.admitted (s : State ι) (id : ι) : State ι :=
  { s with reservations := s.reservations - 1, written := s.written.erase id }

inductive Move (capacity : Nat) (s : State ι) : Action ι → State ι → Prop
  | reserve : s.accepting = true → s.queue.length + s.reservations < capacity →
      Move capacity s .reserve { s with reservations := s.reservations + 1, reserved := s.reserved + 1 }
  | abandon : 0 < s.reserved → Move capacity s .abandon { s with reservations := s.reservations - 1, reserved := s.reserved - 1 }
  | write (id : ι) : 0 < s.reserved → s.durable id = none →
      Move capacity s (.write id)
        { s with reserved := s.reserved - 1, written := id :: s.written, durable := update s.durable id (some .queued) }
  | enqueue (n : Nat) (id : ι) : id ∈ s.written → s.accepting = true →
      Move capacity s (.enqueue n id) { s.admitted id with queue := s.queue ++ [id] }
  | refuse (n : Nat) (id : ι) : id ∈ s.written → s.accepting = false → s.left (.other n) = [] →
      Move capacity s (.enqueue n id) { s.admitted id with left := update s.left (.other n) [id] }
  | cancel (n : Nat) (id : ι) : s.left (.other n) = [] → s.durable id ≠ none →
      Move capacity s (.cancel n id)
        { s with
          queue := s.queue.erase id
          signalled := s.signalled || decide (s.active = some id)
          left := update s.left (.other n) [id] }
  | again (n : Nat) : s.stopping = true → Move capacity s (.shutdown n) s
  | shutdown (n : Nat) : s.stopping = false → s.left (.other n) = [] →
      Move capacity s (.shutdown n)
        { s.drain (.other n) s.active.toList with stopping := true, signalled := s.signalled || s.active.isSome }
  | missed (t : Thread) (written : Bool) (id : ι) (ids : List ι) : s.left t = id :: ids → s.durable id = none →
      Move capacity s (.settle t written) { s with left := update s.left t ids }
  | settle (t : Thread) (written : Bool) (id : ι) (ids : List ι) (status : Status) :
      s.left t = id :: ids → s.durable id = some status →
      Move capacity s (.settle t written) ({ s with left := update s.left t ids }.store id (cancelled status) written)
  | finish : s.worker = .idle → s.queue = [] → s.stopping = true → Move capacity s .take { s with worker := .ended }
  | take (id : ι) (queue : List ι) : s.worker = .idle → s.queue = id :: queue →
      Move capacity s .take { s with queue, active := some id, signalled := false, worker := .executing }
  | progress (id : ι) (old status : Status) : s.worker = .executing → s.active = some id → s.durable id = some old →
      old.active = true → status ≠ .queued → Move capacity s (.progress status) (s.store id status true)
  | leave (failed : Option Bool) : s.worker = .executing → Move capacity s (.leave failed) { s with worker := .executed }
  | fail (written : Bool) (id : ι) : s.worker = .executing → s.active = some id →
      Move capacity s (.leave (some written)) ({ s with worker := .executed }.store id .failed written)
  | inspect : s.worker = .executed → Move capacity s (.inspect false) { s with worker := .releasing }
  | block : s.worker = .executed →
      Move capacity s (.inspect true) { s.drain .worker [] with worker := .releasing, blocker := true }
  | release : s.worker = .releasing → s.left .worker = [] → Move capacity s .release { s with active := none, worker := .idle }

theorem move_of_act (hact : act capacity s a = some s') : Move capacity s a s' := by
  cases a with
  | reserve =>
      simp only [act, Option.ite_none_right_eq_some, Option.some.injEq] at hact
      obtain ⟨hif, rfl⟩ := hact
      exact .reserve hif.1 hif.2
  | abandon =>
      simp only [act, Option.ite_none_right_eq_some, Option.some.injEq] at hact
      obtain ⟨hif, rfl⟩ := hact
      exact .abandon hif
  | write id =>
      simp only [act, Option.ite_none_right_eq_some, Option.some.injEq] at hact
      obtain ⟨hif, rfl⟩ := hact
      exact .write id hif.1 hif.2
  | enqueue n id =>
      simp only [act, Option.ite_none_right_eq_some] at hact
      obtain ⟨hif, hact⟩ := hact
      split at hact <;> rename_i haccept <;> cases hact
      · exact .enqueue n id hif.1 haccept
      · exact .refuse n id hif.1 (Bool.eq_false_iff.2 haccept) hif.2
  | cancel n id =>
      simp only [act, Option.ite_none_right_eq_some, Option.some.injEq] at hact
      obtain ⟨hif, rfl⟩ := hact
      exact .cancel n id hif.1 hif.2
  | shutdown n =>
      simp only [act, Option.ite_none_right_eq_some] at hact
      obtain ⟨hif, hact⟩ := hact
      split at hact <;> rename_i hstop <;> cases hact
      · exact .again n hstop
      · exact .shutdown n (Bool.eq_false_iff.2 hstop) hif
  | settle t written =>
      simp only [act] at hact
      split at hact
      · cases hact
      · rename_i id ids hleft
        split at hact <;> rename_i hdurable <;> cases hact
        · exact .missed t written id ids hleft hdurable
        · exact .settle t written id ids _ hleft hdurable
  | take =>
      simp only [act] at hact
      split at hact
      · rename_i hworker hqueue
        simp only [Option.ite_none_right_eq_some, Option.some.injEq] at hact
        obtain ⟨hstop, rfl⟩ := hact
        exact .finish hworker hqueue hstop
      · rename_i id queue hworker hqueue
        cases hact
        exact .take id queue hworker hqueue
      · cases hact
  | progress status =>
      simp only [act] at hact
      split at hact
      · rename_i id hworker hactive
        simp only [Option.ite_none_right_eq_some, Option.some.injEq] at hact
        obtain ⟨hif, rfl⟩ := hact
        obtain ⟨old, hold, hyes⟩ := (Option.any_eq_true _ _).1 hif.1
        exact .progress id old status hworker hactive hold hyes hif.2
      · cases hact
  | leave failed =>
      simp only [act] at hact
      split at hact
      · rename_i id hworker hactive
        split at hact <;> cases hact
        · exact .fail _ id hworker hactive
        · exact .fail _ id hworker hactive
        · exact .leave _ hworker
      · cases hact
  | inspect unresolved =>
      simp only [act] at hact
      split at hact
      · rename_i hworker
        cases unresolved <;> cases hact
        · exact .inspect hworker
        · exact .block hworker
      · cases hact
  | release =>
      simp only [act] at hact
      split at hact
      · rename_i hworker hleft
        cases hact
        exact .release hworker hleft
      · cases hact

@[simp] theorem store_fields {status : Status} {written : Bool} :
    (s.store id status written).queue = s.queue ∧ (s.store id status written).reservations = s.reservations ∧
      (s.store id status written).active = s.active ∧ (s.store id status written).accepting = s.accepting ∧
      (s.store id status written).stopping = s.stopping ∧ (s.store id status written).worker = s.worker ∧
      (s.store id status written).reserved = s.reserved ∧ (s.store id status written).written = s.written ∧
      (s.store id status written).left = s.left := by
  unfold State.store
  split <;> exact ⟨rfl, rfl, rfl, rfl, rfl, rfl, rfl, rfl, rfl⟩

/-! ## Places -/

/-- The places of the queue that are taken, and when none is given any more. -/
structure Counted (boot : Boot ι) (capacity : Nat) (s : State ι) : Prop where
  reservations : s.reservations = s.reserved + s.written.length
  places : s.queue.length + s.reservations ≤ max capacity boot.listed.length
  closed : s.accepting = false → s.queue = []
  stopping : s.stopping = true → s.accepting = false
  active : s.active = none ↔ s.worker = .idle ∨ s.worker = .ended
  resting : s.worker ≠ .releasing → s.left .worker = []

omit [DecidableEq ι] in
theorem Counted.start : Counted boot capacity (.start boot) := by
  constructor
  · rfl
  · exact Nat.le_max_right capacity boot.listed.length
  · intro haccept
    exact boot.closed (by simpa [State.start] using haccept)
  · exact nofun
  · exact ⟨fun _ => .inl rfl, fun _ => rfl⟩
  · exact fun _ => rfl

theorem Counted.move (hc : Counted boot capacity s) (hmove : Move capacity s a s') : Counted boot capacity s' := by
  obtain ⟨hreservations, hplaces, hclosed, hstopping, hactive, hresting⟩ := hc
  have hother (n : Nat) (ids : List ι) : update s.left (.other n) ids .worker = s.left .worker :=
    update_of_ne (by simp) _ _
  cases hmove with
  | reserve haccept hroom =>
      have hmax : capacity ≤ max capacity boot.listed.length := Nat.le_max_left _ _
      exact ⟨by dsimp only; omega, by dsimp only; omega, hclosed, hstopping, hactive, hresting⟩
  | abandon hreserved => exact ⟨by dsimp only; omega, by dsimp only; omega, hclosed, hstopping, hactive, hresting⟩
  | write id hreserved hfresh =>
      exact ⟨by simp only [List.length_cons]; omega, hplaces, hclosed, hstopping, hactive, hresting⟩
  | enqueue n id hwritten haccept =>
      have hpos : 0 < s.written.length := List.length_pos_of_mem hwritten
      have hlength : (s.written.erase id).length = s.written.length - 1 := List.length_erase_of_mem hwritten
      constructor
      · simp only [State.admitted]
        omega
      · simp only [State.admitted, List.length_append, List.length_singleton]
        omega
      · exact fun hno => absurd (haccept.symm.trans hno) Bool.false_ne_true.symm
      · exact hstopping
      · exact hactive
      · exact hresting
  | refuse n id hwritten haccept hleft =>
      have hpos : 0 < s.written.length := List.length_pos_of_mem hwritten
      have hlength : (s.written.erase id).length = s.written.length - 1 := List.length_erase_of_mem hwritten
      constructor
      · simp only [State.admitted]
        omega
      · simp only [State.admitted]
        omega
      · exact hclosed
      · exact hstopping
      · exact hactive
      · exact fun hworker => (hother n [id]).trans (hresting hworker)
  | cancel n id hleft hknown =>
      have hlength : (s.queue.erase id).length ≤ s.queue.length := List.length_erase_le
      constructor
      · exact hreservations
      · dsimp only
        omega
      · intro hno
        simp [hclosed hno]
      · exact hstopping
      · exact hactive
      · exact fun hworker => (hother n [id]).trans (hresting hworker)
  | again n hstop => exact ⟨hreservations, hplaces, hclosed, hstopping, hactive, hresting⟩
  | shutdown n hstop hleft =>
      constructor
      · exact hreservations
      · simp only [State.drain, List.length_nil]
        omega
      · exact fun _ => rfl
      · exact fun _ => rfl
      · exact hactive
      · exact fun hworker => (hother n (s.queue ++ s.active.toList)).trans (hresting hworker)
  | missed t written id ids hleft hnone =>
      refine ⟨hreservations, hplaces, hclosed, hstopping, hactive, fun hworker => ?_⟩
      cases t with
      | worker => cases hleft.symm.trans (hresting hworker)
      | other n => exact (hother n ids).trans (hresting hworker)
  | settle t written id ids status hleft hstored =>
      constructor <;> simp only [store_fields] <;> try assumption
      intro hworker
      cases t with
      | worker => cases hleft.symm.trans (hresting hworker)
      | other n => exact (hother n ids).trans (hresting hworker)
  | finish hworker hqueue hstop =>
      refine ⟨hreservations, hplaces, hclosed, hstopping, ?_, fun _ => hresting (by simp [hworker])⟩
      exact ⟨fun _ => .inr rfl, fun _ => hactive.2 (.inl hworker)⟩
  | take id queue hworker hqueue =>
      refine ⟨hreservations, ?_, ?_, hstopping, by simp, fun _ => hresting (by simp [hworker])⟩
      · simp only [hqueue, List.length_cons] at hplaces
        dsimp only
        omega
      · intro hno
        have hnil := hclosed hno
        rw [hqueue] at hnil
        cases hnil
  | progress id old status hworker hid hold hyes hne =>
      constructor <;> simp only [store_fields] <;> assumption
  | leave failed hworker =>
      refine ⟨hreservations, hplaces, hclosed, hstopping, ?_, fun _ => hresting (by simp [hworker])⟩
      simpa [hworker] using hactive
  | fail written id hworker hid =>
      constructor <;> simp only [store_fields] <;> try assumption
      · simp [hid]
      · exact fun _ => hresting (by simp [hworker])
  | inspect hworker =>
      refine ⟨hreservations, hplaces, hclosed, hstopping, ?_, fun hne => absurd rfl hne⟩
      simpa [hworker] using hactive
  | block hworker =>
      constructor
      · exact hreservations
      · simp only [State.drain, List.length_nil]
        omega
      · exact fun _ => rfl
      · exact fun _ => rfl
      · simpa [hworker, State.drain] using hactive
      · exact fun hne => absurd rfl hne
  | release hworker hleft => exact ⟨hreservations, hplaces, hclosed, hstopping, by simp, fun _ => hleft⟩

/-! ## Order -/

/-- In which order the attempts leave the queue. -/
structure Ordered (p : State ι × History ι) : Prop where
  order : (p.2.started ++ p.1.queue).Sublist p.2.queued
  perm : p.2.queued.Perm (p.2.started ++ p.2.taken ++ p.1.queue)
  fresh : (p.2.queued ++ p.1.written).Nodup
  known : ∀ id ∈ p.2.queued ++ p.1.written, id ∈ p.2.known
  stored : ∀ id ∈ p.2.known, p.1.durable id ≠ none

omit [DecidableEq ι] in
theorem Ordered.start : Ordered (State.start boot, History.start boot) := by
  constructor
  · exact List.Sublist.refl _
  · exact List.Perm.refl _
  · simpa [History.start, State.start] using boot.nodup
  · intro id hid
    simpa [History.start, State.start] using hid
  · intro id hid
    have hqueued : boot.stored id = some .queued := boot.queued id hid
    simp [State.start, hqueued]

theorem update_ne_none {durable : ι → Option Status} {status : Status} {id' : ι} (hid : durable id ≠ none) :
    update durable id' (some status) id ≠ none := by
  by_cases heq : id = id'
  · rw [heq, update_self]
    exact nofun
  · rwa [update_of_ne heq]

theorem stored_of_update {known : List ι} {durable : ι → Option Status} {status : Status} {id' : ι}
    (hstored : ∀ id ∈ known, durable id ≠ none) : ∀ id ∈ known, update durable id' (some status) id ≠ none :=
  fun id hid => update_ne_none (hstored id hid)

theorem stored_store {known : List ι} {status : Status} {written : Bool} {id' : ι}
    (hstored : ∀ id ∈ known, s.durable id ≠ none) : ∀ id ∈ known, (s.store id' status written).durable id ≠ none := by
  cases written with
  | true => exact stored_of_update hstored
  | false => exact hstored

omit [DecidableEq ι] in
/-- The queue is given up: its attempts are taken. -/
theorem Ordered.drained (ho : Ordered (s, h)) :
    (h.started ++ []).Sublist h.queued ∧ h.queued.Perm (h.started ++ (h.taken ++ s.queue) ++ []) := by
  constructor
  · rw [List.append_nil]
    exact (List.sublist_append_left h.started s.queue).trans ho.order
  · simpa [List.append_assoc] using ho.perm

theorem Ordered.move (ho : Ordered (s, h)) (hmove : Move capacity s a s') : Ordered (s', h.next s a) := by
  obtain ⟨horder, hperm, hfresh, hknown, hstored⟩ := id ho
  dsimp only at horder hperm hfresh hknown hstored
  cases hmove with
  | reserve | abandon | inspect | leave => exact ⟨horder, hperm, hfresh, hknown, hstored⟩
  | write id hreserved hnone =>
      have hnew : id ∉ h.known := fun hid => hstored id hid hnone
      have hnotin : id ∉ h.queued ++ s.written := fun hid => hnew (hknown id hid)
      constructor
      · exact horder
      · exact hperm
      · exact List.nodup_middle.2 (List.nodup_cons.2 ⟨hnotin, hfresh⟩)
      · intro id' hid'
        have hmem : id' ∈ h.queued ++ id :: s.written := hid'
        have hcases : id' = id ∨ id' ∈ h.queued ++ s.written := by simpa [or_left_comm] using hmem
        rcases hcases with rfl | hid'
        · exact List.mem_cons_self
        · exact List.mem_cons_of_mem id (hknown id' hid')
      · intro id' hid'
        by_cases heq : id' = id
        · simp [heq]
        · have hold : id' ∈ h.known := (List.mem_cons.1 hid').resolve_left heq
          simpa [heq] using hstored id' hold
  | enqueue n id hwritten haccept =>
      have hnext : h.next s (.enqueue n id) = { h with queued := h.queued ++ [id] } := if_pos haccept
      have hsplit : (h.queued ++ s.written).Perm (h.queued ++ [id] ++ s.written.erase id) := by
        rw [List.append_assoc]
        exact (List.perm_cons_erase hwritten).append_left h.queued
      rw [hnext]
      constructor
      · show (h.started ++ (s.queue ++ [id])).Sublist (h.queued ++ [id])
        rw [← List.append_assoc]
        exact horder.append_right [id]
      · show (h.queued ++ [id]).Perm (h.started ++ h.taken ++ (s.queue ++ [id]))
        rw [← List.append_assoc]
        exact hperm.append_right [id]
      · exact hsplit.nodup_iff.1 hfresh
      · exact fun id' hid' => hknown id' (hsplit.mem_iff.2 hid')
      · exact hstored
  | refuse n id hwritten haccept hleft =>
      have hnext : h.next s (.enqueue n id) = h := if_neg (by simp [haccept])
      have hsub : (h.queued ++ s.written.erase id).Sublist (h.queued ++ s.written) :=
        List.erase_sublist.append_left h.queued
      rw [hnext]
      exact ⟨horder, hperm, hfresh.sublist hsub, fun id' hid' => hknown id' (hsub.subset hid'), hstored⟩
  | cancel n id hleft hstoredId =>
      by_cases hqueue : id ∈ s.queue
      · have hnext : h.next s (.cancel n id) = { h with taken := h.taken ++ [id] } := if_pos hqueue
        rw [hnext]
        constructor
        · exact (List.erase_sublist.append_left h.started).trans horder
        · show h.queued.Perm (h.started ++ (h.taken ++ [id]) ++ s.queue.erase id)
          apply hperm.trans
          simpa [List.append_assoc] using (List.perm_cons_erase hqueue).append_left (h.started ++ h.taken)
        · exact hfresh
        · exact hknown
        · exact hstored
      · have hnext : h.next s (.cancel n id) = h := if_neg hqueue
        have hsame : s.queue.erase id = s.queue := List.erase_of_not_mem hqueue
        rw [hnext, hsame]
        exact ⟨horder, hperm, hfresh, hknown, hstored⟩
  | again n hstop =>
      have hnext : h.next s (.shutdown n) = h := if_pos hstop
      rw [hnext]
      exact ho
  | shutdown n hstop hleft =>
      have hnext : h.next s (.shutdown n) = { h with taken := h.taken ++ s.queue } := if_neg (by simp [hstop])
      rw [hnext]
      exact ⟨ho.drained.1, ho.drained.2, hfresh, hknown, hstored⟩
  | missed t written id ids hleft hnone =>
      cases written <;> exact ⟨horder, hperm, hfresh, hknown, hstored⟩
  | settle t written id ids status hleft hstatus =>
      cases written with
      | true => exact ⟨horder, hperm, hfresh, hknown, stored_of_update hstored⟩
      | false => exact ⟨horder, hperm, hfresh, hknown, hstored⟩
  | finish hworker hqueue hstop =>
      have hnext : h.next s .take = { h with started := h.started ++ s.queue.take 1 } := rfl
      rw [hnext, hqueue]
      rw [hqueue] at horder hperm
      exact ⟨by simpa [hqueue] using horder, by simpa [hqueue] using hperm, hfresh, hknown, hstored⟩
  | take id queue hworker hqueue =>
      have hnext : h.next s .take = { h with started := h.started ++ s.queue.take 1 } := rfl
      rw [hnext, hqueue]
      rw [hqueue] at horder hperm
      constructor
      · simpa using horder
      · show h.queued.Perm (h.started ++ [id] ++ h.taken ++ queue)
        apply hperm.trans
        simpa [List.append_assoc] using (@List.perm_middle _ id h.taken queue).append_left h.started
      · exact hfresh
      · exact hknown
      · exact hstored
  | progress id old status hworker hid hold hyes hne => exact ⟨horder, hperm, hfresh, hknown, stored_of_update hstored⟩
  | fail written id hworker hid =>
      cases written with
      | true => exact ⟨horder, hperm, hfresh, hknown, stored_of_update hstored⟩
      | false => exact ⟨horder, hperm, hfresh, hknown, hstored⟩
  | block hworker =>
      have hnext : h.next s (.inspect true) = { h with taken := h.taken ++ s.queue } := rfl
      rw [hnext]
      exact ⟨ho.drained.1, ho.drained.2, hfresh, hknown, hstored⟩
  | release hworker hleft => exact ⟨horder, hperm, hfresh, hknown, hstored⟩

/-! ## Statuses -/

/-- Someone is left to settle the attempt, or a write was lost. -/
def Owned (p : State ι × History ι) (id : ι) : Prop :=
  id ∈ p.1.written ∨ id ∈ p.1.queue ∨ p.1.active = some id ∨ (∃ t, id ∈ p.1.left t) ∨ id ∈ p.2.lost ∨ id ∈ p.2.released

/-- Who is left to settle the attempts that are active. -/
structure Settled (p : State ι × History ι) : Prop where
  queued : ∀ id ∈ p.2.known, p.1.durable id = some .queued → Owned p id
  begun : ∀ id ∈ p.2.known, p.1.durable id = some .running ∨ p.1.durable id = some .cancelling →
    p.1.active = some id ∨ id ∈ p.2.released

omit [DecidableEq ι] in
theorem Settled.start : Settled (State.start boot, History.start boot) := by
  constructor
  · exact fun id hid _ => .inr (.inl hid)
  · intro id hid hbegun
    have hqueued : boot.stored id = some .queued := boot.queued id hid
    simp [State.start, hqueued] at hbegun

omit [DecidableEq ι] in
/-- A thread that has nothing to write takes attempts over. -/
theorem mem_left_of_update {t t' : Thread} {ids : List ι} (hfree : s.left t = []) (hid : id ∈ s.left t') :
    ∃ t', id ∈ update s.left t ids t' := by
  have hne : t' ≠ t := by
    rintro rfl
    simp [hfree] at hid
  exact ⟨t', by rwa [update_of_ne hne]⟩

omit [DecidableEq ι] in
/-- One cancellation less is left to be written. -/
theorem owned_of_settled {t : Thread} {ids : List ι} {id' : ι} {h' : History ι} (hleft : s.left t = id :: ids) (hne : id' ≠ id)
    (hlost : ∀ id' ∈ h.lost, id' ∈ h'.lost) (hreleased : h'.released = h.released) (howned : Owned (s, h) id') :
    Owned ({ s with left := update s.left t ids }, h') id' := by
  rcases howned with hw | hq | ha | ⟨t', ht⟩ | hl | hr
  · exact .inl hw
  · exact .inr (.inl hq)
  · exact .inr (.inr (.inl ha))
  · refine .inr (.inr (.inr (.inl ⟨t', ?_⟩)))
    by_cases heq : t' = t
    · rw [heq]
      rw [heq, hleft] at ht
      simpa using (List.mem_cons.1 ht).resolve_left hne
    · simpa [heq] using ht
  · exact .inr (.inr (.inr (.inr (.inl (hlost id' hl)))))
  · exact .inr (.inr (.inr (.inr (.inr (hreleased ▸ hr)))))

theorem Settled.move (hcount : Counted boot capacity s) (hs : Settled (s, h)) (hmove : Move capacity s a s') :
    Settled (s', h.next s a) := by
  obtain ⟨hqueued, hbegun⟩ := id hs
  dsimp only at hqueued hbegun
  cases hmove with
  | reserve | abandon | inspect | leave => exact ⟨hqueued, hbegun⟩
  | write id hreserved hnone =>
      constructor
      · intro id' hid' hstatus
        by_cases heq : id' = id
        · exact .inl (List.mem_cons.2 (.inl heq))
        · have hold : id' ∈ h.known := (List.mem_cons.1 hid').resolve_left heq
          have hstatus : s.durable id' = some .queued := by simpa [heq] using hstatus
          exact (hqueued id' hold hstatus).imp_left (List.mem_cons_of_mem id)
      · intro id' hid' hstatus
        by_cases heq : id' = id
        · simp [heq] at hstatus
        · have hold : id' ∈ h.known := (List.mem_cons.1 hid').resolve_left heq
          exact hbegun id' hold (by simpa [heq] using hstatus)
  | enqueue n id hwritten haccept =>
      have hnext : h.next s (.enqueue n id) = { h with queued := h.queued ++ [id] } := if_pos haccept
      rw [hnext]
      refine ⟨fun id' hid' hstatus => ?_, hbegun⟩
      by_cases heq : id' = id
      · exact .inr (.inl (List.mem_append.2 (.inr (List.mem_singleton.2 heq))))
      · rcases hqueued id' hid' hstatus with hw | hq | hrest
        · exact .inl ((List.mem_erase_of_ne heq).2 hw)
        · exact .inr (.inl (List.mem_append_left [id] hq))
        · exact .inr (.inr hrest)
  | refuse n id hwritten haccept hleft =>
      have hnext : h.next s (.enqueue n id) = h := if_neg (by simp [haccept])
      rw [hnext]
      refine ⟨fun id' hid' hstatus => ?_, hbegun⟩
      by_cases heq : id' = id
      · exact .inr (.inr (.inr (.inl ⟨.other n, by simp [heq]⟩)))
      · rcases hqueued id' hid' hstatus with hw | hq | ha | ⟨t, ht⟩ | hrest
        · exact .inl ((List.mem_erase_of_ne heq).2 hw)
        · exact .inr (.inl hq)
        · exact .inr (.inr (.inl ha))
        · exact .inr (.inr (.inr (.inl (mem_left_of_update hleft ht))))
        · exact .inr (.inr (.inr (.inr hrest)))
  | cancel n id hleft hstoredId =>
      have hsame : (h.next s (.cancel n id)).known = h.known ∧ (h.next s (.cancel n id)).lost = h.lost ∧
          (h.next s (.cancel n id)).released = h.released := by
        simp only [History.next]
        split <;> exact ⟨rfl, rfl, rfl⟩
      constructor
      · intro id' hid' hstatus
        unfold Owned
        simp only [hsame.2.1, hsame.2.2]
        by_cases heq : id' = id
        · exact .inr (.inr (.inr (.inl ⟨.other n, by simp [heq]⟩)))
        · rcases hqueued id' (hsame.1 ▸ hid') hstatus with hw | hq | ha | ⟨t, ht⟩ | hrest
          · exact .inl hw
          · exact .inr (.inl ((List.mem_erase_of_ne heq).2 hq))
          · exact .inr (.inr (.inl ha))
          · exact .inr (.inr (.inr (.inl (mem_left_of_update hleft ht))))
          · exact .inr (.inr (.inr (.inr hrest)))
      · intro id' hid' hstatus
        simp only [hsame.2.2]
        exact hbegun id' (hsame.1 ▸ hid') hstatus
  | again n hstop =>
      have hnext : h.next s (.shutdown n) = h := if_pos hstop
      rw [hnext]
      exact hs
  | shutdown n hstop hleft =>
      have hnext : h.next s (.shutdown n) = { h with taken := h.taken ++ s.queue } := if_neg (by simp [hstop])
      rw [hnext]
      refine ⟨fun id hid hstatus => ?_, hbegun⟩
      rcases hqueued id hid hstatus with hw | hq | ha | ⟨t, ht⟩ | hrest
      · exact .inl hw
      · exact .inr (.inr (.inr (.inl ⟨.other n, by simp [State.drain, hq]⟩)))
      · exact .inr (.inr (.inl ha))
      · exact .inr (.inr (.inr (.inl (mem_left_of_update hleft ht))))
      · exact .inr (.inr (.inr (.inr hrest)))
  | missed t written id ids hleft hnone =>
      have hlost : ∀ id' ∈ h.lost, id' ∈ (h.next s (.settle t written)).lost := by
        cases written <;> simp +contextual [History.next]
      have hsame : (h.next s (.settle t written)).known = h.known ∧ (h.next s (.settle t written)).released = h.released := by
        cases written <;> exact ⟨rfl, rfl⟩
      constructor
      · intro id' hid' hstatus
        have hne : id' ≠ id := by
          rintro rfl
          cases hnone.symm.trans hstatus
        exact owned_of_settled hleft hne hlost hsame.2 (hqueued id' (hsame.1 ▸ hid') hstatus)
      · intro id' hid' hstatus
        simp only [hsame.2]
        exact hbegun id' (hsame.1 ▸ hid') hstatus
  | settle t written id ids status hleft hstored =>
      cases written with
      | false =>
          have hlost : ∀ id' ∈ h.lost, id' ∈ (h.next s (.settle t false)).lost := fun id' hid' => List.mem_append_left _ hid'
          constructor
          · intro id' hid' hstatus
            by_cases heq : id' = id
            · exact .inr (.inr (.inr (.inr (.inl (by simp [History.next, hleft, heq])))))
            · exact owned_of_settled hleft heq hlost rfl (hqueued id' hid' hstatus)
          · exact hbegun
      | true =>
          constructor
          · intro id' hid' hstatus
            have hne : id' ≠ id := by
              rintro rfl
              cases status <;> simp [State.store, cancelled] at hstatus
            have hstatus : s.durable id' = some .queued := by simpa [State.store, hne] using hstatus
            exact owned_of_settled hleft hne (fun _ hold => hold) rfl (hqueued id' hid' hstatus)
          · intro id' hid' hstatus
            apply hbegun id' hid'
            by_cases heq : id' = id
            · rw [heq, hstored]
              rw [heq] at hstatus
              cases status <;> simp [State.store, cancelled] at hstatus ⊢
            · simpa [State.store, heq] using hstatus
  | finish hworker hqueue hstop => exact ⟨hqueued, hbegun⟩
  | take id queue hworker hqueue =>
      have hnone : s.active = none := hcount.active.2 (.inl hworker)
      constructor
      · intro id' hid' hstatus
        rcases hqueued id' hid' hstatus with hw | hq | ha | hrest
        · exact .inl hw
        · rw [hqueue] at hq
          rcases List.mem_cons.1 hq with rfl | hq
          · exact .inr (.inr (.inl rfl))
          · exact .inr (.inl hq)
        · cases hnone.symm.trans ha
        · exact .inr (.inr (.inr hrest))
      · intro id' hid' hstatus
        rcases hbegun id' hid' hstatus with ha | hreleased
        · cases hnone.symm.trans ha
        · exact .inr hreleased
  | progress id old status hworker hid hold hyes hne =>
      constructor
      · intro id' hid' hstatus
        have hother : id' ≠ id := by
          rintro rfl
          simp [State.store, hne] at hstatus
        exact hqueued id' hid' (by simpa [State.store, hother] using hstatus)
      · intro id' hid' hstatus
        by_cases heq : id' = id
        · exact .inl (heq ▸ hid)
        · exact hbegun id' hid' (by simpa [State.store, heq] using hstatus)
  | fail written id hworker hid =>
      have hnext : h.next s (.leave (some written)) = h := rfl
      rw [hnext]
      constructor
      · intro id' hid' hstatus
        by_cases heq : id' = id
        · exact .inr (.inr (.inl (by simpa [heq] using hid)))
        · have hstatus : s.durable id' = some .queued := by cases written <;> simpa [State.store, heq] using hstatus
          have howned := hqueued id' hid' hstatus
          unfold Owned at howned ⊢
          simpa using howned
      · intro id' hid' hstatus
        by_cases heq : id' = id
        · exact .inl (by simpa [heq] using hid)
        · have hstatus : s.durable id' = some .running ∨ s.durable id' = some .cancelling := by
            cases written <;> simpa [State.store, heq] using hstatus
          simpa using hbegun id' hid' hstatus
  | block hworker =>
      have hfree : s.left .worker = [] := hcount.resting (by simp [hworker])
      have hnext : h.next s (.inspect true) = { h with taken := h.taken ++ s.queue } := rfl
      rw [hnext]
      refine ⟨fun id hid hstatus => ?_, hbegun⟩
      rcases hqueued id hid hstatus with hw | hq | ha | ⟨t, ht⟩ | hrest
      · exact .inl hw
      · exact .inr (.inr (.inr (.inl ⟨.worker, by simp [State.drain, hq]⟩)))
      · exact .inr (.inr (.inl ha))
      · exact .inr (.inr (.inr (.inl (mem_left_of_update hfree ht))))
      · exact .inr (.inr (.inr (.inr hrest)))
  | release hworker hleft =>
      have hreleased : ∀ id status, s.active = some id → s.durable id = some status → status.active = true →
          id ∈ (h.next s .release).released := by
        intro id status ha hstatus hyes
        simp [History.next, ha, hstatus, hyes]
      constructor
      · intro id hid hstatus
        rcases hqueued id hid hstatus with hw | hq | ha | ht | hlost | hold
        · exact .inl hw
        · exact .inr (.inl hq)
        · exact .inr (.inr (.inr (.inr (.inr (hreleased id _ ha hstatus rfl)))))
        · exact .inr (.inr (.inr (.inl ht)))
        · exact .inr (.inr (.inr (.inr (.inl hlost))))
        · exact .inr (.inr (.inr (.inr (.inr (List.mem_append_left _ hold)))))
      · intro id hid hstatus
        rcases hbegun id hid hstatus with ha | hold
        · right
          rcases hstatus with hstatus | hstatus <;> exact hreleased id _ ha hstatus rfl
        · exact .inr (List.mem_append_left _ hold)

/-! ## Closing -/

/-- Nothing is started once the manager is closed, and it stays closed. -/
theorem closed_of_move (hcount : Counted boot capacity s) (hclosed : s.accepting = false) (hmove : Move capacity s a s') :
    s'.accepting = false ∧ (h.next s a).started = h.started := by
  cases hmove with
  | reserve haccept => exact absurd (hclosed.symm.trans haccept) Bool.false_ne_true
  | enqueue n id hwritten haccept => exact absurd (hclosed.symm.trans haccept) Bool.false_ne_true
  | abandon | write | again | inspect | leave | release => exact ⟨hclosed, by simp only [History.next]; try split <;> rfl⟩
  | refuse n id hwritten haccept hleft => exact ⟨hclosed, by simp [History.next, haccept]⟩
  | cancel n id hleft hstored => exact ⟨hclosed, by simp only [History.next]; split <;> rfl⟩
  | shutdown n hstop hleft => exact ⟨rfl, by simp [History.next, hstop]⟩
  | missed t written id ids hleft hnone => exact ⟨hclosed, by cases written <;> rfl⟩
  | settle t written id ids status hleft hstored => exact ⟨by simpa using hclosed, by cases written <;> rfl⟩
  | finish hworker hqueue hstop => exact ⟨hclosed, by simp [History.next, hqueue]⟩
  | take id queue hworker hqueue => cases hqueue.symm.trans (hcount.closed hclosed)
  | progress id old status hworker hid hold hyes hne => exact ⟨by simpa using hclosed, rfl⟩
  | fail written id hworker hid => exact ⟨by simpa using hclosed, rfl⟩
  | block hworker => exact ⟨rfl, rfl⟩

/-! ## The runs -/

theorem Reachable.invariants (hreach : Reachable boot capacity p) : Counted boot capacity p.1 ∧ Ordered p ∧ Settled p := by
  induction hreach with
  | start => exact ⟨Counted.start, Ordered.start, Settled.start⟩
  | @step p q a _ _ hstep ih =>
    obtain ⟨hcount, hordered, hsettled⟩ := ih
    obtain ⟨hact, hlog⟩ := Machine.recording_step.1 hstep
    have hmove : Move capacity p.1 a q.1 := move_of_act hact
    have hq : q = (q.1, p.2.next p.1 a) := by rw [← hlog]
    rw [hq]
    exact ⟨hcount.move hmove, hordered.move hmove, hsettled.move hcount hmove⟩

/-- What becomes of the attempts. -/
structure Conserved (boot : Boot ι) (capacity : Nat) (p : State ι × History ι) : Prop where
  /-- They are executed in the order of the queue, each once at most. -/
  order : p.2.started.Sublist p.2.queued
  once : p.2.queued.Nodup
  /-- Each leaves the queue to be executed, or to be cancelled by one thread. -/
  leaves : p.2.queued.Perm (p.2.started ++ p.2.taken ++ p.1.queue)
  places : p.1.queue.length + p.1.reservations ≤ max capacity boot.listed.length
  /-- An attempt that is still queued has an owner, unless its cancellation could not be written. -/
  queued : ∀ id ∈ p.2.known, p.1.durable id = some .queued → Owned p id
  begun : ∀ id ∈ p.2.known, p.1.durable id = some .running ∨ p.1.durable id = some .cancelling →
    p.1.active = some id ∨ id ∈ p.2.released
  /-- A closed manager has an empty queue and starts nothing more. -/
  closed : p.1.accepting = false → p.1.queue = [] ∧
    ∀ actions q, (recorded boot capacity).run (fun _ _ => true) p actions = some q → q.2.started = p.2.started

theorem validations_owned (hreach : Reachable boot capacity p) : Conserved boot capacity p := by
  obtain ⟨hcount, hordered, hsettled⟩ := hreach.invariants
  constructor
  · exact (List.sublist_append_left _ _).trans hordered.order
  · exact (List.nodup_append.1 hordered.fresh).1
  · exact hordered.perm
  · exact hcount.places
  · exact hsettled.queued
  · exact hsettled.begun
  · intro hclosed
    refine ⟨hcount.closed hclosed, fun actions q hrun => ?_⟩
    clear hordered hsettled
    induction actions generalizing p with
    | nil =>
        have heq : p = q := by simpa [Machine.run] using hrun
        rw [heq]
    | cons a actions ih =>
        simp only [Machine.run, if_true, Option.bind_eq_some_iff] at hrun
        obtain ⟨p₁, hstep, hrun⟩ := hrun
        obtain ⟨hact, hlog⟩ := Machine.recording_step.1 hstep
        have hreach₁ : Reachable boot capacity p₁ := .step a hreach trivial hstep
        obtain ⟨haccept, hstarted⟩ := closed_of_move (h := p.2) hcount hclosed (move_of_act hact)
        rw [ih hreach₁ hreach₁.invariants.1 haccept hrun, hlog, hstarted]

/-- An attempt is executed while the next one waits, and a cancellation of it is under way. -/
def sampleActions : List (Action String) :=
  [.reserve, .write "v1", .enqueue 0 "v1", .take, .progress .running, .reserve, .write "v2", .enqueue 0 "v2", .cancel 1 "v2"]

def sampleBoot : Boot String := ⟨fun _ => none, [], false, List.nodup_nil, nofun, nofun⟩

theorem validations_owned_sample :
    ∃ p, (recorded sampleBoot 8).run (fun _ _ => true) (recorded sampleBoot 8).start sampleActions = some p ∧
      Conserved sampleBoot 8 p := by
  have hrun : ((recorded sampleBoot 8).run (fun _ _ => true) (recorded sampleBoot 8).start sampleActions).isSome = true := by
    rfl
  obtain ⟨p, hp⟩ := Option.isSome_iff_exists.1 hrun
  exact ⟨p, hp, validations_owned (Machine.Reach.start.run (fun _ _ _ => trivial) hp)⟩

end DebBuilder.Validation.Queue
