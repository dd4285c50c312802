import Mathlib
import DebBuilder.Observation.Service

/-!
# Single flight

Four invariants carry the claim: the registered flights are those of the leaders under way, the
locks are held by the calls that say so, what is read from a flight is the answer of its leader,
and the rows come from what has happened.  Each step moves one call from one phase to the next.

## Main definitions

* `Registered`, `Locked`, `Shared`, `Told` — the invariants.
* `Clear` — no Recipe is removed while a call holds its lock.

## Main results

* `single_flight` — in the runs of such steps all that is claimed holds.
-/

namespace DebBuilder.Observation
open Lib

variable {ρ : Type} {maxInFlight c d flight : Nat} {s s' : State ρ} {history more : List (Event ρ)} {call next : Call ρ}
  {phase : Phase ρ} {answer : Answer ρ} {live : String → Option String} {p : Point ρ}

/-! ## Phases -/

/-- The leader of a flight that is registered. -/
def Phase.Leading : Phase ρ → Prop
  | waiting => False
  | finished _ => False
  | _ => True

/-- The lock of the Recipe is held. -/
def Phase.Locking : Phase ρ → Prop
  | holding _ => True
  | recorded .. => True
  | _ => False

def Phase.outcome? : Phase ρ → Option (Except Fault (Found ρ))
  | locking outcome => some outcome
  | holding outcome => some outcome
  | recorded outcome _ => some outcome
  | _ => none

/-- What is read from the flight of a leader in this phase. -/
def FlightOk (flight : Flight ρ) : Phase ρ → Prop
  | .ending answer => flight.done = false ∧ flight.answer = answer ∧ answer ≠ .empty
  | .signalled answer => flight.done = true ∧ flight.answer = answer ∧ answer ≠ .empty
  | .finished answer => flight.done = true ∧ flight.answer = answer ∧ answer ≠ .empty
  | .waiting => False
  | _ => flight.done = false

/-- The flight has been settled with the answer, and those who joined may read it. -/
def Phase.Told (phase : Phase ρ) (answer : Answer ρ) : Prop := phase = .signalled answer ∨ phase = .finished answer

theorem answerOf_ne_empty {recipeId digest : String} {outcome : Except Fault (Found ρ)} {stored : Except Fault Row} :
    answerOf recipeId digest outcome stored ≠ .empty := by
  cases outcome with
  | error fault => cases stored <;> exact nofun
  | ok found =>
      cases stored with
      | ok row => exact nofun
      | error fault =>
          cases fault with
          | coded code =>
              rw [answerOf]
              split <;> exact nofun
          | recipeStore | ordinary | foreign | interruption => exact nofun

theorem settled_spec (copyFault : Option Fault) (h : answer ≠ .empty) :
    (settled answer copyFault).1.done = false ∧ (settled answer copyFault).1.answer = (settled answer copyFault).2 ∧
      (settled answer copyFault).2 ≠ .empty := by
  cases answer with
  | returned result => cases copyFault <;> exact ⟨rfl, rfl, nofun⟩
  | raised fault => exact ⟨rfl, rfl, nofun⟩
  | empty => exact absurd rfl h

/-! ## The invariants -/

/-- The registered flights are those of the leaders under way. -/
structure Registered (maxInFlight : Nat) (s : State ρ) : Prop where
  leader : ∀ key c, s.inFlight.lookup key = some c →
    ∃ call, s.calls c = some call ∧ call.key = key ∧ call.role = .leader ∧ call.phase.Leading
  entered : ∀ c call, s.calls c = some call → call.phase.Leading → call.role = .leader ∧ s.inFlight.lookup call.key = some c
  size : s.inFlight.entries.length ≤ maxInFlight

/-- The locks are held by the calls that say so, and a digest that was compared is still there. -/
structure Locked (s : State ρ) : Prop where
  held : ∀ recipeId c, s.leases recipeId = some c → ∃ call, s.calls c = some call ∧ call.recipeId = recipeId ∧ call.phase.Locking
  holder : ∀ c call, s.calls c = some call → call.phase.Locking → s.leases call.recipeId = some c
  live : ∀ c call outcome, s.calls c = some call → call.phase = .holding outcome → s.live call.recipeId = some call.digest

/-- Who joined a flight reads the answer of its leader. -/
structure Shared (s : State ρ) : Prop where
  objects : ∀ c call, s.calls c = some call → call.role = .leader → FlightOk (s.flights c) call.phase
  joined : ∀ c call flight, s.calls c = some call → call.role = .joined flight →
    (call.phase = .waiting ∨ ∃ answer, call.phase = .finished answer ∧ answer ≠ .empty) ∧
      ∃ leader, s.calls flight = some leader ∧ leader.key = call.key ∧ leader.role = .leader ∧
        ∀ answer, call.phase = .finished answer → leader.phase.Told answer
  refused : ∀ c call, s.calls c = some call → call.role = .refused → ∃ answer, call.phase = .finished answer ∧ answer ≠ .empty

/-- What has happened accounts for the outcomes and the rows. -/
structure Told (p : Point ρ) : Prop where
  outcomes : ∀ c call found, p.1.calls c = some call → call.phase.outcome? = some (.ok found) →
    .resolved call.recipeId call.digest found ∈ p.2
  current : ∀ recipeId digest live, .written recipeId digest live ∈ p.2 → live = some digest
  observed : ∀ recipeId row success, p.1.rows recipeId = some row → row.lastSuccess = some success →
    ∃ found now, .resolved recipeId row.recipeSha256 found ∈ p.2 ∧ success = successOf found now

structure Consistent (maxInFlight : Nat) (p : Point ρ) : Prop where
  registered : Registered maxInFlight p.1
  locked : Locked p.1
  shared : Shared p.1
  told : Told p

/-- A Recipe is removed only while no call holds its lock. -/
def Clear (p : Point ρ) : Action ρ → Prop
  | .delete recipeId => p.1.leases recipeId = none
  | _ => True

/-! ## One call moves on -/

/-- One call moves to another phase; flights of other leaders stay. -/
structure Moved (s s' : State ρ) (c : Nat) (call : Call ρ) (phase : Phase ρ) : Prop where
  was : s.calls c = some call
  calls : s'.calls = Function.update s.calls c (some { call with phase })
  flights : ∀ d, d ≠ c → s'.flights d = s.flights d

theorem Moved.cases (h : Moved s s' c call phase) (hd : s'.calls d = some next) :
    (d = c ∧ next = { call with phase }) ∨ (d ≠ c ∧ s.calls d = some next) := by
  rw [h.calls] at hd
  by_cases hdc : d = c
  · subst hdc
    rw [Function.update_self, Option.some.injEq] at hd
    exact .inl ⟨rfl, hd.symm⟩
  · rw [Function.update_of_ne hdc] at hd
    exact .inr ⟨hdc, hd⟩

theorem Moved.self (h : Moved s s' c call phase) : s'.calls c = some { call with phase } := by
  rw [h.calls, Function.update_self]

theorem Moved.other (h : Moved s s' c call phase) (hd : d ≠ c) : s'.calls d = s.calls d := by
  rw [h.calls, Function.update_of_ne hd]

theorem Registered.move (h : Registered maxInFlight s) (hm : Moved s s' c call phase) (hflights : s'.inFlight = s.inFlight)
    (hleading : call.phase.Leading ↔ phase.Leading) : Registered maxInFlight s' := by
  constructor
  · intro key d hd
    rw [hflights] at hd
    obtain ⟨leader, hleader, hkey, hrole, hphase⟩ := h.leader key d hd
    by_cases hdc : d = c
    · subst hdc
      obtain rfl := Option.some.inj (hm.was.symm.trans hleader)
      exact ⟨_, hm.self, hkey, hrole, hleading.1 hphase⟩
    · exact ⟨leader, by rw [hm.other hdc, hleader], hkey, hrole, hphase⟩
  · intro d other hd hphase
    rw [hflights]
    rcases hm.cases hd with ⟨rfl, rfl⟩ | ⟨-, hd⟩
    · exact h.entered d call hm.was (hleading.2 hphase)
    · exact h.entered d other hd hphase
  · rw [hflights]
    exact h.size

/-- The lock is held before and after, or neither. -/
theorem Locked.move (h : Locked s) (hm : Moved s s' c call phase) (hleases : s'.leases = s.leases) (hlive : s'.live = s.live)
    (hlocking : call.phase.Locking ↔ phase.Locking)
    (hholding : ∀ outcome, phase = .holding outcome → s.live call.recipeId = some call.digest) : Locked s' := by
  constructor
  · intro recipeId d hd
    rw [hleases] at hd
    obtain ⟨holder, hholder, hrecipe, hphase⟩ := h.held recipeId d hd
    by_cases hdc : d = c
    · subst hdc
      obtain rfl := Option.some.inj (hm.was.symm.trans hholder)
      exact ⟨_, hm.self, hrecipe, hlocking.1 hphase⟩
    · exact ⟨holder, by rw [hm.other hdc, hholder], hrecipe, hphase⟩
  · intro d other hd hphase
    rw [hleases]
    rcases hm.cases hd with ⟨rfl, rfl⟩ | ⟨-, hd⟩
    · exact h.holder d call hm.was (hlocking.2 hphase)
    · exact h.holder d other hd hphase
  · intro d other outcome hd hphase
    rw [hlive]
    rcases hm.cases hd with ⟨rfl, rfl⟩ | ⟨-, hd⟩
    · exact hholding outcome hphase
    · exact h.live d other outcome hd hphase

theorem Shared.move (h : Shared s) (hm : Moved s s' c call phase) (hunfinished : ∀ answer, call.phase ≠ .finished answer)
    (hobject : call.role = .leader → FlightOk (s'.flights c) phase)
    (hjoined : ∀ flight, call.role = .joined flight → ∃ answer, phase = .finished answer ∧ answer ≠ .empty ∧
      ∀ leader, s.calls flight = some leader → leader.role = .leader → leader.phase.Told answer)
    (htold : ∀ answer, call.phase.Told answer → phase.Told answer) : Shared s' := by
  constructor
  · intro d other hd hrole
    rcases hm.cases hd with ⟨rfl, rfl⟩ | ⟨hdc, hd⟩
    · exact hobject hrole
    · rw [hm.flights d hdc]
      exact h.objects d other hd hrole
  · intro d other flight hd hrole
    rcases hm.cases hd with ⟨rfl, rfl⟩ | ⟨hdc, hd⟩
    · obtain ⟨answer, rfl, hne, htells⟩ := hjoined flight hrole
      obtain ⟨-, leader, hleader, hkey, hleads, -⟩ := h.joined d call flight hm.was hrole
      have hflight : flight ≠ d := by
        rintro rfl
        obtain rfl := Option.some.inj (hm.was.symm.trans hleader)
        rw [hrole] at hleads
        cases hleads
      refine ⟨.inr ⟨answer, rfl, hne⟩, leader, by rw [hm.other hflight, hleader], hkey, hleads, ?_⟩
      intro other hother
      obtain rfl := Phase.finished.inj hother
      exact htells leader hleader hleads
    · obtain ⟨hphase, leader, hleader, hkey, hleads, htells⟩ := h.joined d other flight hd hrole
      refine ⟨hphase, ?_⟩
      by_cases hflight : flight = c
      · subst hflight
        obtain rfl := Option.some.inj (hm.was.symm.trans hleader)
        exact ⟨_, hm.self, hkey, hleads, fun answer hanswer => htold answer (htells answer hanswer)⟩
      · exact ⟨leader, by rw [hm.other hflight, hleader], hkey, hleads, htells⟩
  · intro d other hd hrole
    rcases hm.cases hd with ⟨rfl, rfl⟩ | ⟨-, hd⟩
    · obtain ⟨answer, hfinished, -⟩ := h.refused d call hm.was hrole
      exact absurd hfinished (hunfinished answer)
    · exact h.refused d other hd hrole

theorem Told.move (h : Told (s, history)) (hm : Moved s s' c call phase) (hrows : s'.rows = s.rows)
    (hmore : ∀ recipeId digest live, .written recipeId digest live ∉ more)
    (houtcome : ∀ found, phase.outcome? = some (.ok found) → .resolved call.recipeId call.digest found ∈ history ++ more) :
    Told (s', history ++ more) := by
  constructor
  · intro d other found hd hfound
    rcases hm.cases hd with ⟨rfl, rfl⟩ | ⟨-, hd⟩
    · exact houtcome found hfound
    · exact List.mem_append_left _ (h.outcomes d other found hd hfound)
  · intro recipeId digest live hwritten
    exact h.current recipeId digest live ((List.mem_append.1 hwritten).resolve_right (hmore recipeId digest live))
  · intro recipeId row success hrow hsuccess
    obtain ⟨found, now, hresolved, heq⟩ := h.observed recipeId row success (hrows ▸ hrow) hsuccess
    exact ⟨found, now, List.mem_append_left _ hresolved, heq⟩

/-- A step that nothing is heard of. -/
theorem Told.keep (h : Told (s, history)) (hm : Moved s s' c call phase) (hrows : s'.rows = s.rows)
    (houtcome : ∀ found, phase.outcome? = some (.ok found) → .resolved call.recipeId call.digest found ∈ history) :
    Told (s', history) := by
  have htold : Told (s', history ++ []) := h.move hm hrows (by simp) (by simpa using houtcome)
  simpa using htold

/-! ## A call begins -/

/-- A call that was not there is there now; flights of other leaders stay. -/
structure Began (s s' : State ρ) (c : Nat) (call : Call ρ) : Prop where
  was : s.calls c = none
  calls : s'.calls = Function.update s.calls c (some call)
  flights : ∀ d, d ≠ c → s'.flights d = s.flights d

theorem Began.self (h : Began s s' c call) : s'.calls c = some call := by rw [h.calls, Function.update_self]

theorem Began.cases (h : Began s s' c call) (hd : s'.calls d = some next) :
    (d = c ∧ next = call) ∨ (d ≠ c ∧ s.calls d = some next) := by
  rw [h.calls] at hd
  by_cases hdc : d = c
  · subst hdc
    rw [Function.update_self, Option.some.injEq] at hd
    exact .inl ⟨rfl, hd.symm⟩
  · rw [Function.update_of_ne hdc] at hd
    exact .inr ⟨hdc, hd⟩

theorem Began.kept (h : Began s s' c call) (hd : s.calls d = some next) : d ≠ c ∧ s'.calls d = some next := by
  have hdc : d ≠ c := by
    rintro rfl
    rw [h.was] at hd
    cases hd
  exact ⟨hdc, by rw [h.calls, Function.update_of_ne hdc, hd]⟩

theorem Locked.begin (h : Locked s) (hb : Began s s' c call) (hleases : s'.leases = s.leases) (hlive : s'.live = s.live)
    (hphase : ¬ call.phase.Locking) : Locked s' := by
  constructor
  · intro recipeId d hd
    obtain ⟨holder, hholder, hheld⟩ := h.held recipeId d (hleases ▸ hd)
    exact ⟨holder, (hb.kept hholder).2, hheld⟩
  · intro d other hd hlocking
    rcases hb.cases hd with ⟨rfl, rfl⟩ | ⟨-, hd⟩
    · exact absurd hlocking hphase
    · rw [hleases]
      exact h.holder d other hd hlocking
  · intro d other outcome hd hholding
    rcases hb.cases hd with ⟨rfl, rfl⟩ | ⟨-, hd⟩
    · rw [hholding] at hphase
      exact absurd trivial hphase
    · rw [hlive]
      exact h.live d other outcome hd hholding

theorem Shared.begin (h : Shared s) (hb : Began s s' c call)
    (hobject : call.role = .leader → FlightOk (s'.flights c) call.phase)
    (hjoined : ∀ flight, call.role = .joined flight → call.phase = .waiting ∧
      ∃ leader, s.calls flight = some leader ∧ leader.key = call.key ∧ leader.role = .leader)
    (hrefused : call.role = .refused → ∃ answer, call.phase = .finished answer ∧ answer ≠ .empty) : Shared s' := by
  constructor
  · intro d other hd hrole
    rcases hb.cases hd with ⟨rfl, rfl⟩ | ⟨hdc, hd⟩
    · exact hobject hrole
    · rw [hb.flights d hdc]
      exact h.objects d other hd hrole
  · intro d other flight hd hrole
    rcases hb.cases hd with ⟨rfl, rfl⟩ | ⟨-, hd⟩
    · obtain ⟨hwaiting, leader, hleader, hkey, hleads⟩ := hjoined flight hrole
      refine ⟨.inl hwaiting, leader, (hb.kept hleader).2, hkey, hleads, ?_⟩
      intro answer hanswer
      rw [hwaiting] at hanswer
      cases hanswer
    · obtain ⟨hphase, leader, hleader, hrest⟩ := h.joined d other flight hd hrole
      exact ⟨hphase, leader, (hb.kept hleader).2, hrest⟩
  · intro d other hd hrole
    rcases hb.cases hd with ⟨rfl, rfl⟩ | ⟨-, hd⟩
    · exact hrefused hrole
    · exact h.refused d other hd hrole

theorem Told.begin (h : Told (s, history)) (hb : Began s s' c call) (hrows : s'.rows = s.rows)
    (hphase : call.phase.outcome? = none) : Told (s', history) := by
  constructor
  · intro d other found hd hfound
    rcases hb.cases hd with ⟨rfl, rfl⟩ | ⟨-, hd⟩
    · rw [hphase] at hfound
      cases hfound
    · exact h.outcomes d other found hd hfound
  · exact h.current
  · intro recipeId row success hrow hsuccess
    exact h.observed recipeId row success (hrows ▸ hrow) hsuccess

/-- A call that joins, or is refused, changes nothing that is registered. -/
theorem Registered.begin (h : Registered maxInFlight s) (hb : Began s s' c call) (hflights : s'.inFlight = s.inFlight)
    (hphase : ¬ call.phase.Leading) : Registered maxInFlight s' := by
  constructor
  · intro key d hd
    obtain ⟨leader, hleader, hrest⟩ := h.leader key d (hflights ▸ hd)
    exact ⟨leader, (hb.kept hleader).2, hrest⟩
  · intro d other hd hleading
    rcases hb.cases hd with ⟨rfl, rfl⟩ | ⟨-, hd⟩
    · exact absurd hleading hphase
    · rw [hflights]
      exact h.entered d other hd hleading
  · rw [hflights]
    exact h.size

theorem length_set {d : Dict (String × String) Nat} {key : String × String} (h : d.lookup key = none) :
    (Dict.set d key c).entries.length = d.entries.length + 1 := by
  have habsent : key ∉ d := AList.lookup_eq_none.1 h
  rw [Dict.set, if_neg habsent, AList.entries_insert_of_notMem habsent, List.length_cons]

/-- A leader is registered, where there is room. -/
theorem Registered.lead (h : Registered maxInFlight s) (hb : Began s s' c call)
    (hflights : s'.inFlight = Dict.set s.inFlight call.key c) (hnone : s.inFlight.lookup call.key = none)
    (hroom : s.inFlight.entries.length < maxInFlight) (hrole : call.role = .leader) (hphase : call.phase.Leading) :
    Registered maxInFlight s' := by
  constructor
  · intro key d hd
    rw [hflights, Dict.lookup_set] at hd
    split at hd
    · next hkey =>
      obtain rfl := Option.some.inj hd
      exact ⟨call, hb.self, hkey.symm, hrole, hphase⟩
    · obtain ⟨leader, hleader, hrest⟩ := h.leader key d hd
      exact ⟨leader, (hb.kept hleader).2, hrest⟩
  · intro d other hd hleading
    rw [hflights, Dict.lookup_set]
    rcases hb.cases hd with ⟨rfl, rfl⟩ | ⟨hdc, hd⟩
    · exact ⟨hrole, if_pos rfl⟩
    · obtain ⟨hleads, hlookup⟩ := h.entered d other hd hleading
      refine ⟨hleads, ?_⟩
      split
      · next hkey =>
        rw [hkey, hnone] at hlookup
        cases hlookup
      · exact hlookup
  · rw [hflights, length_set hnone]
    exact hroom

theorem Consistent.observe {recipeId digest : String} (h : Consistent maxInFlight (s, history)) (hfree : s.calls c = none) :
    Consistent maxInFlight (observe maxInFlight c recipeId digest s, history) := by
  rw [Observation.observe]
  cases hlookup : s.inFlight.lookup (recipeId, digest) with
  | some flight =>
      have hb : Began s (s.put c ⟨.joined flight, recipeId, digest, .waiting⟩) c ⟨.joined flight, recipeId, digest, .waiting⟩ :=
        ⟨hfree, rfl, fun _ _ => rfl⟩
      refine ⟨h.registered.begin hb rfl not_false, h.locked.begin hb rfl rfl not_false, ?_, h.told.begin hb rfl rfl⟩
      refine h.shared.begin hb nofun ?_ nofun
      intro other hother
      obtain rfl := Role.joined.inj hother
      obtain ⟨leader, hleader, hkey, hrole, -⟩ := h.registered.leader _ _ hlookup
      exact ⟨rfl, leader, hleader, hkey, hrole⟩
  | none =>
      simp only
      split
      · have hb : Began s (s.put c ⟨.refused, recipeId, digest,
            .finished (.raised (.coded "observation_capacity_exhausted"))⟩) c ⟨.refused, recipeId, digest,
            .finished (.raised (.coded "observation_capacity_exhausted"))⟩ := ⟨hfree, rfl, fun _ _ => rfl⟩
        refine ⟨h.registered.begin hb rfl not_false, h.locked.begin hb rfl rfl not_false, ?_, h.told.begin hb rfl rfl⟩
        exact h.shared.begin hb nofun nofun fun _ => ⟨_, rfl, nofun⟩
      · next hroom =>
        rw [not_le] at hroom
        have hb : Began s { s.put c ⟨.leader, recipeId, digest, .resolving⟩ with
            inFlight := Dict.set s.inFlight (recipeId, digest) c
            flights := Function.update s.flights c {} } c ⟨.leader, recipeId, digest, .resolving⟩ :=
          ⟨hfree, rfl, fun d hd => Function.update_of_ne hd _ _⟩
        refine ⟨h.registered.lead hb rfl hlookup hroom rfl trivial, h.locked.begin hb rfl rfl not_false, ?_,
          h.told.begin hb rfl rfl⟩
        refine h.shared.begin hb ?_ nofun nofun
        intro _
        simp only [Function.update_self]
        rfl

/-! ## The steps of a leader -/

/-- The leader settles its flight, with the lock of the Recipe left or never held. -/
theorem Shared.settle (copyFault : Option Fault) (h : Shared s) (hcall : s.calls c = some call) (hrole : call.role = .leader)
    (hphase : ∀ answer, call.phase ≠ .finished answer ∧ call.phase ≠ .signalled answer) (hne : answer ≠ .empty) :
    Shared (s.settle c call answer copyFault) := by
  have hm : Moved s (s.settle c call answer copyFault) c call (.ending (settled answer copyFault).2) :=
    ⟨hcall, rfl, fun d hd => Function.update_of_ne hd _ _⟩
  refine h.move hm (fun answer => (hphase answer).1) ?_ ?_ ?_
  · intro _
    obtain ⟨hdone, hanswer, hnonempty⟩ := settled_spec copyFault hne
    simp only [State.settle, Function.update_self]
    exact ⟨hdone, hanswer, hnonempty⟩
  · intro flight hjoined
    rw [hrole] at hjoined
    cases hjoined
  · rintro told (htold | htold)
    · exact absurd htold (hphase told).2
    · exact absurd htold (hphase told).1

theorem Consistent.settle {copyFault : Option Fault} (h : Consistent maxInFlight (s, history)) (hcall : s.calls c = some call)
    (hleading : call.phase.Leading) (hlocking : ¬ call.phase.Locking)
    (hphase : ∀ answer, call.phase ≠ .finished answer ∧ call.phase ≠ .signalled answer) (hne : answer ≠ .empty) :
    Consistent maxInFlight (s.settle c call answer copyFault, history) := by
  have hm : Moved s (s.settle c call answer copyFault) c call (.ending (settled answer copyFault).2) :=
    ⟨hcall, rfl, fun d hd => Function.update_of_ne hd _ _⟩
  refine ⟨h.registered.move hm rfl (iff_of_true hleading trivial), h.locked.move hm rfl rfl (iff_of_false hlocking not_false)
    nofun, h.shared.settle copyFault hcall (h.registered.entered c call hcall hleading).1 hphase hne, ?_⟩
  exact h.told.keep hm rfl nofun

/-- The leader moves on, and only its phase changes. -/
theorem Consistent.put (phase : Phase ρ) (h : Consistent maxInFlight (s, history)) (hcall : s.calls c = some call)
    (hleading : call.phase.Leading) (hphase : ∀ answer, ¬ call.phase.Told answer) (hleads : phase.Leading)
    (hlocking : call.phase.Locking ↔ phase.Locking)
    (hholding : ∀ outcome, phase = .holding outcome → s.live call.recipeId = some call.digest)
    (hobject : FlightOk (s.flights c) phase)
    (hmore : ∀ recipeId digest live, .written recipeId digest live ∉ more)
    (houtcome : ∀ found, phase.outcome? = some (.ok found) → .resolved call.recipeId call.digest found ∈ history ++ more) :
    Consistent maxInFlight (s.put c { call with phase }, history ++ more) := by
  have hm : Moved s (s.put c { call with phase }) c call phase := ⟨hcall, rfl, fun _ _ => rfl⟩
  have hrole := (h.registered.entered c call hcall hleading).1
  refine ⟨h.registered.move hm rfl (iff_of_true hleading hleads), h.locked.move hm rfl rfl hlocking hholding, ?_,
    h.told.move hm rfl hmore houtcome⟩
  apply h.shared.move hm
  · intro answer hfinished
    exact hphase answer (.inr hfinished)
  · intro _
    exact hobject
  · intro flight hjoined
    rw [hrole] at hjoined
    cases hjoined
  · intro answer htold
    exact absurd htold (hphase answer)

theorem Consistent.resolve {outcome : Except Fault (Found ρ)} (h : Consistent maxInFlight (s, history))
    (hcall : s.calls c = some call) (hphase : call.phase = .resolving) :
    Consistent maxInFlight ((resolve c call outcome s).1, history ++ (resolve c call outcome s).2) := by
  have hleading : call.phase.Leading := by rw [hphase]; trivial
  have hlocking : ¬ call.phase.Locking := by rw [hphase]; exact not_false
  have htold : ∀ answer, ¬ call.phase.Told answer := by
    intro answer hanswer
    rw [hphase] at hanswer
    rcases hanswer with hanswer | hanswer <;> cases hanswer
  have hdone : (s.flights c).done = false := by
    have hobject := h.shared.objects c call hcall (h.registered.entered c call hcall hleading).1
    rwa [hphase] at hobject
  cases outcome with
  | ok found =>
      simp only [Observation.resolve]
      apply h.put (.locking (.ok found)) hcall hleading htold trivial (iff_of_false hlocking not_false) nofun hdone
      · simp
      · intro other hother
        obtain rfl := Except.ok.inj (Option.some.inj hother)
        simp
  | error fault =>
      simp only [Observation.resolve]
      split
      · apply h.put (.locking (.error fault)) hcall hleading htold trivial (iff_of_false hlocking not_false) nofun hdone
        · simp
        · intro found hfound
          cases Option.some.inj hfound
      · rw [List.append_nil]
        apply h.settle hcall hleading hlocking
        · intro answer
          exact ⟨fun hanswer => htold answer (.inr hanswer), fun hanswer => htold answer (.inl hanswer)⟩
        · exact nofun

/-- The lock of a Recipe is taken where it is free. -/
theorem Locked.take {outcome : Except Fault (Found ρ)} (h : Locked s) (hm : Moved s s' c call (.holding outcome))
    (hfree : s.leases call.recipeId = none) (hleases : s'.leases = Function.update s.leases call.recipeId (some c))
    (hlive : s'.live = s.live) (hcurrent : s.live call.recipeId = some call.digest) (hphase : ¬ call.phase.Locking) :
    Locked s' := by
  constructor
  · intro recipeId d hd
    rw [hleases] at hd
    by_cases hrecipe : recipeId = call.recipeId
    · subst hrecipe
      rw [Function.update_self, Option.some.injEq] at hd
      subst hd
      exact ⟨_, hm.self, rfl, trivial⟩
    · rw [Function.update_of_ne hrecipe] at hd
      obtain ⟨holder, hholder, hheld, hlocking⟩ := h.held recipeId d hd
      have hdc : d ≠ c := by
        rintro rfl
        obtain rfl := Option.some.inj (hm.was.symm.trans hholder)
        exact hphase hlocking
      exact ⟨holder, by rw [hm.other hdc, hholder], hheld, hlocking⟩
  · intro d other hd hlocking
    rw [hleases]
    rcases hm.cases hd with ⟨rfl, rfl⟩ | ⟨-, hd⟩
    · exact Function.update_self _ _ _
    · have hother := h.holder d other hd hlocking
      have hrecipe : other.recipeId ≠ call.recipeId := by
        intro heq
        rw [heq, hfree] at hother
        cases hother
      rw [Function.update_of_ne hrecipe, hother]
  · intro d other outcome hd hholding
    rw [hlive]
    rcases hm.cases hd with ⟨rfl, rfl⟩ | ⟨-, hd⟩
    · exact hcurrent
    · exact h.live d other outcome hd hholding

/-- The lock of a Recipe is left. -/
theorem Locked.leave (h : Locked s) (hm : Moved s s' c call phase) (hwas : call.phase.Locking)
    (hleases : s'.leases = Function.update s.leases call.recipeId none) (hlive : s'.live = s.live)
    (hphase : ¬ phase.Locking) : Locked s' := by
  have hmine := h.holder c call hm.was hwas
  constructor
  · intro recipeId d hd
    rw [hleases] at hd
    by_cases hrecipe : recipeId = call.recipeId
    · subst hrecipe
      rw [Function.update_self] at hd
      cases hd
    · rw [Function.update_of_ne hrecipe] at hd
      obtain ⟨holder, hholder, hheld, hlocking⟩ := h.held recipeId d hd
      have hdc : d ≠ c := by
        rintro rfl
        obtain rfl := Option.some.inj (hm.was.symm.trans hholder)
        exact hrecipe hheld.symm
      exact ⟨holder, by rw [hm.other hdc, hholder], hheld, hlocking⟩
  · intro d other hd hlocking
    rcases hm.cases hd with ⟨rfl, rfl⟩ | ⟨hdc, hd⟩
    · exact absurd hlocking hphase
    · have hother := h.holder d other hd hlocking
      have hrecipe : other.recipeId ≠ call.recipeId := by
        intro heq
        rw [heq, hmine] at hother
        exact hdc (Option.some.inj hother).symm
      rw [hleases, Function.update_of_ne hrecipe, hother]
  · intro d other outcome hd hholding
    rw [hlive]
    rcases hm.cases hd with ⟨rfl, rfl⟩ | ⟨-, hd⟩
    · obtain rfl : phase = .holding outcome := hholding
      exact absurd trivial hphase
    · exact h.live d other outcome hd hholding

theorem Consistent.lock {outcome : Except Fault (Found ρ)} {fault copyFault : Option Fault}
    (h : Consistent maxInFlight (s, history)) (hcall : s.calls c = some call) (hphase : call.phase = .locking outcome)
    (hlock : lock c call outcome fault copyFault s = some s') : Consistent maxInFlight (s', history) := by
  have hleading : call.phase.Leading := by rw [hphase]; trivial
  have hlocking : ¬ call.phase.Locking := by rw [hphase]; exact not_false
  have hended : ∀ answer, call.phase ≠ .finished answer ∧ call.phase ≠ .signalled answer := by
    intro answer
    rw [hphase]
    exact ⟨nofun, nofun⟩
  have hfails : ∀ fault, Consistent maxInFlight
      (s.settle c call (answerOf call.recipeId call.digest outcome (.error fault)) copyFault, history) :=
    fun fault => h.settle hcall hleading hlocking hended answerOf_ne_empty
  unfold Observation.lock at hlock
  cases fault with
  | some fault =>
      obtain rfl := Option.some.inj hlock
      exact hfails fault
  | none =>
      simp only at hlock
      split at hlock
      · cases hlock
      · next hfree =>
        rw [Bool.not_eq_true, Option.isSome_eq_false_iff, Option.isNone_iff_eq_none] at hfree
        cases hlive : s.live call.recipeId with
        | none =>
            rw [hlive] at hlock
            obtain rfl := Option.some.inj hlock
            exact hfails .recipeStore
        | some current =>
            simp only [hlive] at hlock
            split at hlock
            · obtain rfl := Option.some.inj hlock
              exact hfails recipeChanged
            · next hcurrent =>
              rw [not_not] at hcurrent
              obtain rfl := Option.some.inj hlock
              have hm : Moved s { s.put c { call with phase := .holding outcome } with
                  leases := Function.update s.leases call.recipeId (some c) } c call (.holding outcome) :=
                ⟨hcall, rfl, fun _ _ => rfl⟩
              have hrole := (h.registered.entered c call hcall hleading).1
              refine ⟨h.registered.move hm rfl (iff_of_true hleading trivial),
                h.locked.take hm hfree rfl rfl (by rw [hlive, hcurrent]) hlocking, ?_, ?_⟩
              · apply h.shared.move hm (fun answer => (hended answer).1)
                · intro _
                  have hobject := h.shared.objects c call hcall hrole
                  rwa [hphase] at hobject
                · intro flight hjoined
                  rw [hrole] at hjoined
                  cases hjoined
                · rintro answer (htold | htold)
                  · exact absurd htold (hended answer).2
                  · exact absurd htold (hended answer).1
              · apply h.told.keep hm rfl
                intro found hfound
                apply h.told.outcomes c call found hcall
                rw [hphase]
                exact hfound

/-- Writing a row: it is current, and its success was observed. -/
theorem Told.record {row : Row} (h : Told (s, history)) (hm : Moved s s' c call phase)
    (hrows : s'.rows = Function.update s.rows call.recipeId (some row)) (hlive : live call.recipeId = some call.digest)
    (hdigest : row.recipeSha256 = call.digest)
    (hsuccess : ∀ success, row.lastSuccess = some success →
      ∃ found now, .resolved call.recipeId call.digest found ∈ history ∧ success = successOf found now)
    (houtcome : ∀ found, phase.outcome? = some (.ok found) → .resolved call.recipeId call.digest found ∈ history) :
    Told (s', history ++ [.written call.recipeId call.digest (live call.recipeId)]) := by
  constructor
  · intro d other found hd hfound
    apply List.mem_append_left
    rcases hm.cases hd with ⟨rfl, rfl⟩ | ⟨-, hd⟩
    · exact houtcome found hfound
    · exact h.outcomes d other found hd hfound
  · intro recipeId digest current hwritten
    rcases List.mem_append.1 hwritten with hwritten | hwritten
    · exact h.current recipeId digest current hwritten
    · rw [List.mem_singleton, Event.written.injEq] at hwritten
      obtain ⟨rfl, rfl, rfl⟩ := hwritten
      exact hlive
  · intro recipeId other success hother hfound
    rw [show s'.rows = _ from hrows] at hother
    by_cases hrecipe : recipeId = call.recipeId
    · subst hrecipe
      rw [Function.update_self, Option.some.injEq] at hother
      subst hother
      obtain ⟨found, now, hresolved, heq⟩ := hsuccess success hfound
      exact ⟨found, now, List.mem_append_left _ (hdigest ▸ hresolved), heq⟩
    · rw [Function.update_of_ne hrecipe] at hother
      obtain ⟨found, now, hresolved, heq⟩ := h.observed recipeId other success hother hfound
      exact ⟨found, now, List.mem_append_left _ hresolved, heq⟩

/-- The success that a failed attempt keeps is one of the same digest. -/
theorem Told.failureRow {recipeId digest now classification diagnostic : String} {success : Success}
    (h : Told (s, history))
    (hsuccess : (failureRow (s.rows recipeId) digest now classification diagnostic).lastSuccess = some success) :
    ∃ found now, .resolved recipeId digest found ∈ history ∧ success = successOf found now := by
  simp only [Observation.failureRow] at hsuccess
  cases hrow : s.rows recipeId with
  | none =>
      rw [hrow] at hsuccess
      cases hsuccess
  | some row =>
      rw [hrow, Option.bind_some] at hsuccess
      split at hsuccess
      · next hdigest => exact hdigest ▸ h.observed recipeId row success hrow hsuccess
      · cases hsuccess

theorem Consistent.record {outcome : Except Fault (Found ρ)} {now classification diagnostic : String} {stored : StoreOutcome}
    (h : Consistent maxInFlight (s, history)) (hcall : s.calls c = some call) (hphase : call.phase = .holding outcome) :
    Consistent maxInFlight ((record c call outcome now classification diagnostic stored s).1,
      history ++ (record c call outcome now classification diagnostic stored s).2) := by
  have hleading : call.phase.Leading := by rw [hphase]; trivial
  have hlocking : call.phase.Locking := by rw [hphase]; trivial
  have hrole := (h.registered.entered c call hcall hleading).1
  have htold : ∀ answer, ¬ call.phase.Told answer := by
    intro answer hanswer
    rw [hphase] at hanswer
    rcases hanswer with hanswer | hanswer <;> cases hanswer
  have hdone : (s.flights c).done = false := by
    have hobject := h.shared.objects c call hcall hrole
    rwa [hphase] at hobject
  have houtcome : ∀ found, outcome = .ok found → .resolved call.recipeId call.digest found ∈ history := by
    intro found hfound
    apply h.told.outcomes c call found hcall
    rw [hphase, hfound]
    rfl
  -- A row is written under the lock, so the digest that was compared is still that of the Recipe.
  have hwritten : ∀ result, Consistent maxInFlight
      ({ s.put c { call with phase := .recorded outcome result } with
          rows := Function.update s.rows call.recipeId (some (Except.casesOn outcome
            (fun _ => failureRow (s.rows call.recipeId) call.digest now classification diagnostic)
            fun found => successRow call.digest found now)) },
        history ++ [.written call.recipeId call.digest (s.live call.recipeId)]) := by
    intro result
    have hm : Moved s { s.put c { call with phase := .recorded outcome result } with
        rows := Function.update s.rows call.recipeId (some (Except.casesOn outcome
            (fun _ => failureRow (s.rows call.recipeId) call.digest now classification diagnostic)
            fun found => successRow call.digest found now)) }
        c call (.recorded outcome result) := ⟨hcall, rfl, fun _ _ => rfl⟩
    refine ⟨h.registered.move hm rfl (iff_of_true hleading trivial), h.locked.move hm rfl rfl (iff_of_true hlocking trivial)
      (by intros; contradiction), ?_, ?_⟩
    · apply h.shared.move hm
      · exact fun answer hfinished => htold answer (.inr hfinished)
      · exact fun _ => hdone
      · intro flight hjoined
        rw [hrole] at hjoined
        cases hjoined
      · exact fun answer hanswer => absurd hanswer (htold answer)
    · apply h.told.record hm rfl (h.locked.live c call outcome hcall hphase)
      · cases outcome <;> rfl
      · intro success hsuccess
        cases outcome with
        | ok found => exact ⟨found, now, houtcome found rfl, (Option.some.inj hsuccess).symm⟩
        | error fault => exact h.told.failureRow hsuccess
      · exact fun found hfound => houtcome found (Option.some.inj hfound)
  cases stored with
  | refuses fault =>
      apply h.put (.recorded outcome (.error fault)) hcall hleading htold trivial (iff_of_true hlocking trivial) (by intros; contradiction) hdone
      · simp [Observation.record]
      · intro found hfound
        exact List.mem_append_left _ (houtcome found (Option.some.inj hfound))
  | stores => cases outcome <;> exact hwritten _
  | storesAndFails fault => cases outcome <;> exact hwritten _

theorem Consistent.release {outcome : Except Fault (Found ρ)} {stored : Except Fault Row} {fault copyFault : Option Fault}
    (h : Consistent maxInFlight (s, history)) (hcall : s.calls c = some call) (hphase : call.phase = .recorded outcome stored) :
    Consistent maxInFlight (release c call outcome stored fault copyFault s, history) := by
  have hleading : call.phase.Leading := by rw [hphase]; trivial
  have hlocking : call.phase.Locking := by rw [hphase]; trivial
  have hended : ∀ answer, call.phase ≠ .finished answer ∧ call.phase ≠ .signalled answer := by
    intro answer
    rw [hphase]
    exact ⟨nofun, nofun⟩
  have hreleased : ∀ result, Consistent maxInFlight
      ({ s.settle c call (answerOf call.recipeId call.digest outcome result) copyFault with
          leases := Function.update s.leases call.recipeId none }, history) := by
    intro result
    have hne : answerOf call.recipeId call.digest outcome result ≠ .empty := answerOf_ne_empty
    generalize answerOf call.recipeId call.digest outcome result = answer at hne
    have hm : Moved s { s.settle c call answer copyFault with leases := Function.update s.leases call.recipeId none } c call
        (.ending (settled answer copyFault).2) := ⟨hcall, rfl, fun d hd => Function.update_of_ne hd _ _⟩
    have hshared := h.shared.settle copyFault hcall (h.registered.entered c call hcall hleading).1 hended hne
    refine ⟨h.registered.move hm rfl (iff_of_true hleading trivial), h.locked.leave hm hlocking rfl rfl not_false,
      ⟨hshared.objects, hshared.joined, hshared.refused⟩, ?_⟩
    exact h.told.keep hm rfl nofun
  cases fault with
  | none => exact hreleased stored
  | some fault => exact hreleased (.error fault)

theorem Consistent.signal (h : Consistent maxInFlight (s, history)) (hcall : s.calls c = some call)
    (hphase : call.phase = .ending answer) : Consistent maxInFlight (signal c call answer s, history) := by
  have hleading : call.phase.Leading := by rw [hphase]; trivial
  have hlocking : ¬ call.phase.Locking := by rw [hphase]; exact not_false
  have hrole := (h.registered.entered c call hcall hleading).1
  have hm : Moved s (Observation.signal c call answer s) c call (.signalled answer) :=
    ⟨hcall, rfl, fun d hd => Function.update_of_ne hd _ _⟩
  refine ⟨h.registered.move hm rfl (iff_of_true hleading trivial),
    h.locked.move hm rfl rfl (iff_of_false hlocking not_false) nofun, ?_, ?_⟩
  · apply h.shared.move hm
    · intro told
      rw [hphase]
      exact nofun
    · intro _
      have hobject := h.shared.objects c call hcall hrole
      rw [hphase] at hobject
      simp only [Observation.signal, Function.update_self]
      exact ⟨rfl, hobject.2⟩
    · intro flight hjoined
      rw [hrole] at hjoined
      cases hjoined
    · rintro told (htold | htold) <;> rw [hphase] at htold <;> cases htold
  · exact h.told.keep hm rfl nofun

/-- The leader takes its flight out. -/
theorem Registered.leave (h : Registered maxInFlight s) (hm : Moved s s' c call phase) (hleading : call.phase.Leading)
    (hflights : s'.inFlight = s.inFlight.erase call.key) (hphase : ¬ phase.Leading) : Registered maxInFlight s' := by
  have hmine := (h.entered c call hm.was hleading).2
  constructor
  · intro key d hd
    rw [hflights] at hd
    by_cases hkey : key = call.key
    · rw [hkey, AList.lookup_erase] at hd
      cases hd
    · rw [AList.lookup_erase_ne hkey] at hd
      obtain ⟨leader, hleader, hentry, hrest⟩ := h.leader key d hd
      have hdc : d ≠ c := by
        rintro rfl
        obtain rfl := Option.some.inj (hm.was.symm.trans hleader)
        exact hkey hentry.symm
      exact ⟨leader, by rw [hm.other hdc, hleader], hentry, hrest⟩
  · intro d other hd hleads
    rcases hm.cases hd with ⟨rfl, rfl⟩ | ⟨hdc, hd⟩
    · exact absurd hleads hphase
    · obtain ⟨hrole, hlookup⟩ := h.entered d other hd hleads
      refine ⟨hrole, ?_⟩
      have hkey : other.key ≠ call.key := by
        intro heq
        rw [heq, hmine] at hlookup
        exact hdc (Option.some.inj hlookup).symm
      rw [hflights, AList.lookup_erase_ne hkey, hlookup]
  · rw [hflights]
    apply le_trans _ h.size
    exact (List.kerase_sublist call.key s.inFlight.entries).length_le

theorem Consistent.pop (h : Consistent maxInFlight (s, history)) (hcall : s.calls c = some call)
    (hphase : call.phase = .signalled answer) : Consistent maxInFlight (pop c call answer s, history) := by
  have hleading : call.phase.Leading := by rw [hphase]; trivial
  have hlocking : ¬ call.phase.Locking := by rw [hphase]; exact not_false
  have hrole := (h.registered.entered c call hcall hleading).1
  have hm : Moved s (Observation.pop c call answer s) c call (.finished answer) := ⟨hcall, rfl, fun _ _ => rfl⟩
  refine ⟨h.registered.leave hm hleading rfl not_false, h.locked.move hm rfl rfl (iff_of_false hlocking not_false) nofun,
    ?_, ?_⟩
  · apply h.shared.move hm
    · intro told
      rw [hphase]
      exact nofun
    · intro _
      have hobject := h.shared.objects c call hcall hrole
      rwa [hphase] at hobject
    · intro flight hjoined
      rw [hrole] at hjoined
      cases hjoined
    · rintro told (htold | htold) <;> rw [hphase] at htold
      · exact .inr (by rw [Phase.signalled.inj htold])
      · cases htold
  · exact h.told.keep hm rfl nofun

/-! ## The other steps -/

/-- A leader that is done has an answer, and so those who joined. -/
theorem Shared.told {leader : Call ρ} (h : Shared s) (hleader : s.calls c = some leader) (hrole : leader.role = .leader)
    (hdone : (s.flights c).done = true) : leader.phase.Told (s.flights c).answer ∧ (s.flights c).answer ≠ .empty := by
  have hobject := h.objects c leader hleader hrole
  cases hphase : leader.phase with
  | signalled answer | finished answer =>
      rw [hphase] at hobject
      obtain ⟨-, hanswer, hne⟩ := hobject
      rw [hanswer]
      exact ⟨by simp [Phase.Told], hne⟩
  | resolving | locking | holding | recorded =>
      rw [hphase] at hobject
      have hrunning : (s.flights c).done = false := hobject
      rw [hdone] at hrunning
      cases hrunning
  | ending answer =>
      rw [hphase] at hobject
      rw [hobject.1] at hdone
      cases hdone
  | waiting =>
      rw [hphase] at hobject
      exact absurd hobject not_false

theorem Consistent.wake (h : Consistent maxInFlight (s, history)) (hcall : s.calls c = some call)
    (hphase : call.phase = .waiting) (hrole : call.role = .joined flight) (hdone : (s.flights flight).done = true) :
    Consistent maxInFlight (s.put c { call with phase := .finished (s.flights flight).answer }, history) := by
  have hm : Moved s (s.put c { call with phase := .finished (s.flights flight).answer }) c call
      (.finished (s.flights flight).answer) := ⟨hcall, rfl, fun _ _ => rfl⟩
  have hleading : ¬ call.phase.Leading := by rw [hphase]; exact not_false
  have hlocking : ¬ call.phase.Locking := by rw [hphase]; exact not_false
  refine ⟨h.registered.move hm rfl (iff_of_false hleading not_false),
    h.locked.move hm rfl rfl (iff_of_false hlocking not_false) nofun, ?_, ?_⟩
  · obtain ⟨-, leader, hleader, -, hleads, -⟩ := h.shared.joined c call flight hcall hrole
    obtain ⟨htold, hne⟩ := h.shared.told hleader hleads hdone
    apply h.shared.move hm
    · intro told
      rw [hphase]
      exact nofun
    · intro hleader
      rw [hrole] at hleader
      cases hleader
    · intro other hother
      obtain rfl := Role.joined.inj (hrole.symm.trans hother)
      refine ⟨_, rfl, hne, ?_⟩
      intro found hfound _
      rwa [← Option.some.inj (hleader.symm.trans hfound)]
    · rintro told (htold | htold) <;> rw [hphase] at htold <;> cases htold
  · exact h.told.keep hm rfl nofun

/-- The digest of a Recipe whose lock is free may change. -/
theorem Consistent.change {recipeId : String} {digest : Option String} (h : Consistent maxInFlight (s, history))
    (hfree : s.leases recipeId = none) :
    Consistent maxInFlight ({ s with live := Function.update s.live recipeId digest }, history) := by
  refine ⟨⟨h.registered.leader, h.registered.entered, h.registered.size⟩, ⟨h.locked.held, h.locked.holder, ?_⟩,
    ⟨h.shared.objects, h.shared.joined, h.shared.refused⟩, ⟨h.told.outcomes, h.told.current, h.told.observed⟩⟩
  intro d other outcome hd hholding
  have hlocking : other.phase.Locking := by
    rw [show other.phase = _ from hholding]
    trivial
  have hrecipe : other.recipeId ≠ recipeId := by
    intro heq
    have hheld := h.locked.holder d other hd hlocking
    rw [heq, hfree] at hheld
    cases hheld
  simp only [Function.update_of_ne hrecipe]
  exact h.locked.live d other outcome hd hholding

/-- Where no call is there, only what has been stored counts. -/
theorem Consistent.of_none (hflights : s.inFlight = ∅) (hcalls : s.calls = fun _ => none) (hleases : s.leases = fun _ => none)
    (hcurrent : ∀ recipeId digest live, .written recipeId digest live ∈ history → live = some digest)
    (hobserved : ∀ recipeId row success, s.rows recipeId = some row → row.lastSuccess = some success →
      ∃ found now, .resolved recipeId row.recipeSha256 found ∈ history ∧ success = successOf found now) :
    Consistent maxInFlight (s, history) := by
  have hnone : ∀ c call, s.calls c ≠ some call := by
    intro c call hcall
    rw [hcalls] at hcall
    cases hcall
  constructor
  · constructor
    · intro key c hc
      rw [hflights, AList.lookup_empty] at hc
      cases hc
    · intro c call hcall
      exact absurd hcall (hnone c call)
    · rw [hflights]
      exact Nat.zero_le _
  · constructor
    · intro recipeId c hc
      rw [hleases] at hc
      cases hc
    · intro c call hcall
      exact absurd hcall (hnone c call)
    · intro c call outcome hcall
      exact absurd hcall (hnone c call)
  · constructor
    · intro c call hcall
      exact absurd hcall (hnone c call)
    · intro c call flight hcall
      exact absurd hcall (hnone c call)
    · intro c call hcall
      exact absurd hcall (hnone c call)
  · constructor
    · intro c call found hcall
      exact absurd hcall (hnone c call)
    · exact hcurrent
    · exact hobserved

theorem Consistent.act {a : Action ρ} {r : State ρ × List (Event ρ)} (h : Consistent maxInFlight (s, history))
    (hclear : Clear (s, history) a) (hact : act maxInFlight s a = some r) : Consistent maxInFlight (r.1, history ++ r.2) := by
  cases a with
  | observe c recipeId digest =>
      rw [Observation.act] at hact
      split at hact
      · cases hact
      · next hfree =>
        rw [Bool.not_eq_true, Option.isSome_eq_false_iff, Option.isNone_iff_eq_none] at hfree
        obtain rfl := Option.some.inj hact
        rw [List.append_nil]
        exact h.observe hfree
  | resolve c outcome =>
      rw [Observation.act, Option.bind_eq_some_iff] at hact
      obtain ⟨call, hcall, hact⟩ := hact
      split at hact
      · next hphase =>
        obtain rfl := Option.some.inj hact
        exact h.resolve hcall hphase
      · cases hact
  | lock c fault copyFault =>
      rw [Observation.act, Option.bind_eq_some_iff] at hact
      obtain ⟨call, hcall, hact⟩ := hact
      split at hact
      · next outcome hphase =>
        obtain ⟨next, hlock, rfl⟩ := Option.map_eq_some_iff.1 hact
        rw [List.append_nil]
        exact h.lock hcall hphase hlock
      · cases hact
  | record c now classification diagnostic stored =>
      rw [Observation.act, Option.bind_eq_some_iff] at hact
      obtain ⟨call, hcall, hact⟩ := hact
      split at hact
      · next outcome hphase =>
        obtain rfl := Option.some.inj hact
        exact h.record hcall hphase
      · cases hact
  | release c fault copyFault =>
      rw [Observation.act, Option.bind_eq_some_iff] at hact
      obtain ⟨call, hcall, hact⟩ := hact
      split at hact
      · next outcome stored hphase =>
        obtain rfl := Option.some.inj hact
        rw [List.append_nil]
        exact h.release hcall hphase
      · cases hact
  | signal c =>
      rw [Observation.act, Option.bind_eq_some_iff] at hact
      obtain ⟨call, hcall, hact⟩ := hact
      split at hact
      · next answer hphase =>
        obtain rfl := Option.some.inj hact
        rw [List.append_nil]
        exact h.signal hcall hphase
      · cases hact
  | pop c =>
      rw [Observation.act, Option.bind_eq_some_iff] at hact
      obtain ⟨call, hcall, hact⟩ := hact
      split at hact
      · next answer hphase =>
        obtain rfl := Option.some.inj hact
        rw [List.append_nil]
        exact h.pop hcall hphase
      · cases hact
  | wake c =>
      rw [Observation.act, Option.bind_eq_some_iff] at hact
      obtain ⟨call, hcall, hact⟩ := hact
      split at hact
      · next flight hphase hrole =>
        split at hact
        · next hdone =>
          obtain rfl := Option.some.inj hact
          rw [List.append_nil]
          exact h.wake hcall hphase hrole hdone
        · cases hact
      · cases hact
  | save recipeId digest =>
      rw [Observation.act] at hact
      split at hact
      · cases hact
      · next hfree =>
        rw [Bool.not_eq_true, Option.isSome_eq_false_iff, Option.isNone_iff_eq_none] at hfree
        obtain rfl := Option.some.inj hact
        rw [List.append_nil]
        exact h.change hfree
  | delete recipeId =>
      obtain rfl := Option.some.inj hact
      rw [List.append_nil]
      exact h.change hclear
  | restart =>
      obtain rfl := Option.some.inj hact
      rw [List.append_nil]
      exact .of_none rfl rfl rfl h.told.current h.told.observed

theorem Consistent.start : Consistent maxInFlight (machine (ρ := ρ) maxInFlight live).start := by
  apply Consistent.of_none rfl rfl rfl
  · intro recipeId digest current hwritten
    cases hwritten
  · intro recipeId row success hrow
    cases hrow

theorem Consistent.of_reach (h : (machine maxInFlight live).Reach Clear p) : Consistent maxInFlight p := by
  apply Machine.Reach.inv Consistent.start _ h
  intro p a q hp hclear hstep
  obtain ⟨r, hact, rfl⟩ := Option.map_eq_some_iff.1 hstep
  exact hp.act hclear hact

/-! ## What holds -/

/-- The call whose phase holds a lock can go on. -/
theorem Locked.moves (h : Locked s) {recipeId : String} (hheld : s.leases recipeId = some c) :
    ∃ a : Action ρ, (Action.caller? a).isSome ∧ a.undisturbed ∧ (act maxInFlight s a).isSome := by
  obtain ⟨holder, hholder, -, hlocking⟩ := h.held recipeId c hheld
  cases hphase : holder.phase with
  | holding outcome => exact ⟨.record c "" "" "" .stores, rfl, rfl, by simp [act, hholder, hphase]⟩
  | recorded outcome stored => exact ⟨.release c none none, rfl, rfl, by simp [act, hholder, hphase]⟩
  | resolving | locking | ending | signalled | waiting | finished =>
      rw [hphase] at hlocking
      exact absurd hlocking not_false

/-- A leader goes on, or waits for the lock of a call that does. -/
theorem Locked.leader_moves (h : Locked s) (hcall : s.calls c = some call) (hleading : call.phase.Leading) :
    ∃ a : Action ρ, (Action.caller? a).isSome ∧ a.undisturbed ∧ (act maxInFlight s a).isSome := by
  cases hphase : call.phase with
  | resolving => exact ⟨.resolve c (.error .recipeStore), rfl, rfl, by simp [act, hcall, hphase]⟩
  | locking outcome =>
      cases hlease : s.leases call.recipeId with
      | some d => exact h.moves hlease
      | none =>
          refine ⟨.lock c none none, rfl, rfl, ?_⟩
          simp only [act, hcall, Option.bind_some, hphase, Option.isSome_map, lock, hlease]
          cases s.live call.recipeId with
          | none => rfl
          | some current =>
              simp only [Option.isSome_none, Bool.false_eq_true, if_false]
              split <;> rfl
  | holding outcome => exact ⟨.record c "" "" "" .stores, rfl, rfl, by simp [act, hcall, hphase]⟩
  | recorded outcome stored => exact ⟨.release c none none, rfl, rfl, by simp [act, hcall, hphase]⟩
  | ending answer => exact ⟨.signal c, rfl, rfl, by simp [act, hcall, hphase]⟩
  | signalled answer => exact ⟨.pop c, rfl, rfl, by simp [act, hcall, hphase]⟩
  | waiting | finished =>
      rw [hphase] at hleading
      exact absurd hleading not_false

theorem Consistent.progress (h : Consistent maxInFlight (s, history)) (hc : Unfinished s c) :
    ∃ a : Action ρ, (Action.caller? a).isSome ∧ a.undisturbed ∧ (Observation.act maxInFlight s a).isSome := by
  obtain ⟨call, hcall, hunfinished⟩ := hc
  by_cases hleading : call.phase.Leading
  · exact h.locked.leader_moves hcall hleading
  · have hphase : call.phase = .waiting := by
      cases hphase : call.phase with
      | waiting => rfl
      | finished answer => exact absurd hphase (hunfinished answer)
      | resolving | locking | holding | recorded | ending | signalled =>
          rw [hphase] at hleading
          exact absurd trivial hleading
    cases hrole : call.role with
    | leader =>
        have hobject := h.shared.objects c call hcall hrole
        rw [hphase] at hobject
        exact absurd hobject not_false
    | refused =>
        obtain ⟨answer, hfinished, -⟩ := h.shared.refused c call hcall hrole
        exact absurd hfinished (hunfinished answer)
    | joined flight =>
        obtain ⟨-, leader, hleader, -, hleads, -⟩ := h.shared.joined c call flight hcall hrole
        by_cases hdone : (s.flights flight).done = true
        · exact ⟨.wake c, rfl, rfl, by simp [Observation.act, hcall, hphase, hrole, hdone]⟩
        · apply h.locked.leader_moves hleader
          -- A leader that is not under way has signalled that it is done.
          have hobject := h.shared.objects flight leader hleader hleads
          cases hlead : leader.phase with
          | finished answer =>
              rw [hlead] at hobject
              exact absurd hobject.1 hdone
          | waiting =>
              rw [hlead] at hobject
              exact absurd hobject not_false
          | resolving | locking | holding | recorded | ending | signalled => exact trivial

theorem nearer_of_calls (hcall : s.calls c = some call)
    (hcalls : s'.calls = Function.update s.calls c (some { call with phase })) (hrank : phase.rank < call.phase.rank) :
    (∀ d, d ≠ c → s'.calls d = s.calls d) ∧
      ∃ call next, s.calls c = some call ∧ s'.calls c = some next ∧ next.phase.rank < call.phase.rank := by
  constructor
  · intro d hd
    rw [hcalls, Function.update_of_ne hd]
  · exact ⟨call, _, hcall, by rw [hcalls, Function.update_self], hrank⟩

theorem lock_calls {outcome : Except Fault (Found ρ)} {fault copyFault : Option Fault}
    (hlock : lock c call outcome fault copyFault s = some s') :
    ∃ phase : Phase ρ, s'.calls = Function.update s.calls c (some { call with phase }) ∧ phase.rank < 5 := by
  have hfails : ∀ answer : Answer ρ, ∃ phase : Phase ρ,
      (s.settle c call answer copyFault).calls = Function.update s.calls c (some { call with phase }) ∧ phase.rank < 5 :=
    fun answer => ⟨_, rfl, show 2 < 5 by omega⟩
  unfold lock at hlock
  cases fault with
  | some fault =>
      obtain rfl := Option.some.inj hlock
      exact hfails _
  | none =>
      simp only at hlock
      split at hlock
      · cases hlock
      · split at hlock
        · obtain rfl := Option.some.inj hlock
          exact hfails _
        · split at hlock
          · obtain rfl := Option.some.inj hlock
            exact hfails _
          · obtain rfl := Option.some.inj hlock
            exact ⟨.holding outcome, rfl, show 4 < 5 by omega⟩

/-- Each step of a call takes it to a later phase. -/
theorem act_nearer {a : Action ρ} {r : State ρ × List (Event ρ)} (hcaller : Action.caller? a = some c)
    (hact : act maxInFlight s a = some r) :
    (∀ d, d ≠ c → r.1.calls d = s.calls d) ∧
      ∃ call next, s.calls c = some call ∧ r.1.calls c = some next ∧ next.phase.rank < call.phase.rank := by
  cases a with
  | observe | save | delete | restart => cases hcaller
  | resolve d outcome =>
      obtain rfl := Option.some.inj hcaller
      rw [Observation.act, Option.bind_eq_some_iff] at hact
      obtain ⟨call, hcall, hact⟩ := hact
      split at hact
      · next hphase =>
        obtain rfl := Option.some.inj hact
        cases outcome with
        | ok found => exact nearer_of_calls hcall rfl (by rw [hphase]; exact show 5 < 6 by omega)
        | error fault =>
            simp only [resolve]
            split
            · exact nearer_of_calls hcall rfl (by rw [hphase]; exact show 5 < 6 by omega)
            · exact nearer_of_calls hcall rfl (by rw [hphase]; exact show 2 < 6 by omega)
      · cases hact
  | lock d fault copyFault =>
      obtain rfl := Option.some.inj hcaller
      rw [Observation.act, Option.bind_eq_some_iff] at hact
      obtain ⟨call, hcall, hact⟩ := hact
      split at hact
      · next outcome hphase =>
        obtain ⟨next, hlock, rfl⟩ := Option.map_eq_some_iff.1 hact
        obtain ⟨phase, hcalls, hrank⟩ := lock_calls hlock
        exact nearer_of_calls hcall hcalls (by rw [hphase]; exact hrank)
      · cases hact
  | record d now classification diagnostic stored =>
      obtain rfl := Option.some.inj hcaller
      rw [Observation.act, Option.bind_eq_some_iff] at hact
      obtain ⟨call, hcall, hact⟩ := hact
      split at hact
      · next outcome hphase =>
        obtain rfl := Option.some.inj hact
        cases stored <;> exact nearer_of_calls hcall rfl (by rw [hphase]; exact show 3 < 4 by omega)
      · cases hact
  | release d fault copyFault =>
      obtain rfl := Option.some.inj hcaller
      rw [Observation.act, Option.bind_eq_some_iff] at hact
      obtain ⟨call, hcall, hact⟩ := hact
      split at hact
      · next outcome stored hphase =>
        obtain rfl := Option.some.inj hact
        exact nearer_of_calls hcall rfl (by rw [hphase]; exact show 2 < 3 by omega)
      · cases hact
  | signal d =>
      obtain rfl := Option.some.inj hcaller
      rw [Observation.act, Option.bind_eq_some_iff] at hact
      obtain ⟨call, hcall, hact⟩ := hact
      split at hact
      · next answer hphase =>
        obtain rfl := Option.some.inj hact
        exact nearer_of_calls hcall rfl (by rw [hphase]; exact show 1 < 2 by omega)
      · cases hact
  | pop d =>
      obtain rfl := Option.some.inj hcaller
      rw [Observation.act, Option.bind_eq_some_iff] at hact
      obtain ⟨call, hcall, hact⟩ := hact
      split at hact
      · next answer hphase =>
        obtain rfl := Option.some.inj hact
        exact nearer_of_calls hcall rfl (by rw [hphase]; exact show 0 < 1 by omega)
      · cases hact
  | wake d =>
      obtain rfl := Option.some.inj hcaller
      rw [Observation.act, Option.bind_eq_some_iff] at hact
      obtain ⟨call, hcall, hact⟩ := hact
      split at hact
      · next flight hphase hrole =>
        split at hact
        · obtain rfl := Option.some.inj hact
          exact nearer_of_calls hcall rfl (by rw [hphase]; exact show 0 < 1 by omega)
        · cases hact
      · cases hact

/-- Each call that resolves has a flight of its own. -/
theorem Registered.bounded (h : Registered maxInFlight s) {cs : List Nat} (hnodup : cs.Nodup)
    (hcs : ∀ c ∈ cs, Resolving s c) : cs.length ≤ maxInFlight := by
  have hsubset : cs ⊆ s.inFlight.entries.map Sigma.snd := by
    intro c hc
    obtain ⟨call, hcall, hphase⟩ := hcs c hc
    have hlookup := (h.entered c call hcall (by rw [hphase]; trivial)).2
    exact List.mem_map.2 ⟨⟨call.key, c⟩, AList.mem_lookup_iff.1 hlookup, rfl⟩
  calc cs.length ≤ (s.inFlight.entries.map Sigma.snd).length := (List.subperm_of_subset hnodup hsubset).length_le
    _ = s.inFlight.entries.length := List.length_map _
    _ ≤ maxInFlight := h.size

theorem Shared.nonempty (h : Shared s) (hcall : s.calls c = some call) : call.phase ≠ .finished .empty := by
  intro hphase
  cases hrole : call.role with
  | leader =>
      have hobject := h.objects c call hcall hrole
      rw [hphase] at hobject
      exact hobject.2.2 rfl
  | joined flight =>
      rcases (h.joined c call flight hcall hrole).1 with hwaiting | ⟨answer, hfinished, hne⟩
      · rw [hphase] at hwaiting
        cases hwaiting
      · exact hne (Phase.finished.inj (hfinished.symm.trans hphase))
  | refused =>
      obtain ⟨answer, hfinished, hne⟩ := h.refused c call hcall hrole
      exact hne (Phase.finished.inj (hfinished.symm.trans hphase))

/-- The Recipe that is there. -/
def demo (recipeId : String) : Option String := if recipeId = "demo" then some "d" else none

/-- The call resolves and compares the digest; the Recipe is removed; then the row is written. -/
def removedRun : List (Action Unit) :=
  [.observe 0 "demo" "d", .resolve 0 (.ok ⟨"1.0", "v1.0", ()⟩), .lock 0 none none, .delete "demo",
    .record 0 "2026-01-01T00:00:00Z" "" "" .stores]

theorem exists_removed : ∃ p, (machine 16 demo).run (fun _ _ => true) (machine 16 demo).start removedRun = some p ∧
    .written "demo" "d" none ∈ p.2 := by
  refine ⟨_, rfl, ?_⟩
  exact List.mem_cons_of_mem _ (List.mem_singleton.2 rfl)

end DebBuilder.Observation
