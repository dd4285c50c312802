import Mathlib
import DebBuilder.Workspace.Retention

/-!
# Storage pressure

`apply_storage_pressure` overrides retention while the filesystem of the builds is below its
target.  It selects failed Runs that have data to retain, orders them by their age, and
cleans one after the other until a measurement says that it is enough.

## Main definitions

* `selectRun`, `Selected` — what the selection notes of a Run.
* `relieve`, `applyStoragePressure` — the loop and the pass, with a log of its events.
* `Relieves` — the logs of orderly passes.

## Main statements

* `relieves_relieve` — the loop writes an orderly log.
* `storage_pressure_orderly` — what a pass cleans, in which order, and where it stops.
-/

namespace DebBuilder.Workspace
open Lib Function

/-! ## The selection -/

/-- `capacity["builds"]`; a number is `none` when it is no integer. -/
structure Builds where
  pressureState : String := "measurement_error"
  measurementState : String := ""
  availableBytes : Option Int := none
  effectiveTargetBytes : Option Int := none
  deriving DecidableEq, Repr

/-- What the selection notes of a Run; its age is `none` when it cannot be ordered. -/
structure Selected (τ : Type) where
  id : String
  time : Option τ
  revision : Nat
  deriving DecidableEq

/-- How the selection of a Run ends. -/
inductive Selection (τ : Type)
  | passed
  | skipped
  | selected (run : Selected τ)

/-- The order of the selected Runs: a known age before an unknown one, then the id. -/
def Selected.key {τ : Type} (r : Selected τ) : WithTop τ ×ₗ String :=
  toLex (match r.time with | some time => (time : WithTop τ) | none => ⊤, r.id)

/-- `dict.fromkeys(ids)` -/
def fromKeys : List String → List String
  | [] => []
  | id :: ids => id :: (fromKeys ids).filter (· ≠ id)

variable {τ : Type}

section

variable [LinearOrder τ] (timeOf : String → Option τ)

/-- The selection of one Run. -/
def selectRun (id : String) (look : Look τ) (entries : List String) : Except Failure (Selection τ) :=
  match look.lock with
  | some failure => .error failure
  | none => do
    let run ← look.run
    if Holds entries retentionNames then
      let attempts ← look.attempts
      if retentionFailed run attempts then
        let revision ← look.revision
        return .selected ⟨id, completionTime timeOf run attempts, revision⟩
      else return .skipped
    else return .passed

end

/-! ## The pass -/

/-- The coming back to a Run with its outcome, and a measurement with what it gave; one that
raises gives nothing. -/
inductive Event
  | visited (id : String) (outcome : Outcome)
  | measured (builds : Option Builds)
  deriving DecidableEq

/-- The result of the pass. -/
structure Relief where
  initialState : String
  candidatesConsidered : Nat := 0
  cleaned : List Cleaned := []
  skipped : List String := []
  errors : List (String × Failure) := []
  targetReached : Bool := false
  finalState : String
  blocked : Option String := none

/-- A pass under way. -/
structure Relieving where
  entries : String → List String
  polls : Nat := 0
  measurements : Nat := 0
  log : List Event := []
  relief : Relief
  ended : Bool := false

/-- An error of the selection: an error that no handler names leaves the pass. -/
def Relieving.note (pass : Relieving) (id : String) : Failure → Relieving
  | .busy | .missing => { pass with relief.skipped := pass.relief.skipped ++ [id] }
  | .other => { pass with ended := true }
  | failure => { pass with relief.errors := pass.relief.errors ++ [(id, failure)] }

/-- One round of the selection. -/
def selectNext [LinearOrder τ] (timeOf : String → Option τ) (look : String → Look τ) (stop : Nat → Bool)
    (state : Relieving × List (Selected τ)) (id : String) : Relieving × List (Selected τ) :=
  let pass := state.1
  if pass.ended = true then state
  else if stop pass.polls = true then ({ pass with ended := true }, state.2)
  else
    let pass := { pass with polls := pass.polls + 1 }
    match selectRun timeOf id (look id) (pass.entries id) with
    | .error failure => (pass.note id failure, state.2)
    | .ok .passed => (pass, state.2)
    | .ok .skipped => ({ pass with relief.skipped := pass.relief.skipped ++ [id] }, state.2)
    | .ok (.selected chosen) => (pass, state.2 ++ [chosen])

/-- `available >= target`, when both are integers. -/
def Builds.reached (builds : Builds) : Bool :=
  match builds.effectiveTargetBytes, builds.availableBytes with
  | some target, some available => decide (target ≤ available)
  | _, _ => false

/-- The measurement after a removal, and whether the loop goes on. -/
def Relieving.measure (pass : Relieving) (capacity : Option Builds) : Relieving × Bool :=
  let pass := { pass with measurements := pass.measurements + 1, log := pass.log ++ [Event.measured capacity] }
  match capacity with
  | none => ({ pass with ended := true }, false)
  | some builds =>
    let pass := { pass with relief.finalState := builds.pressureState }
    if builds.reached = true then ({ pass with relief.targetReached := true }, false)
    else (pass, builds.pressureState = "pressure")

/-- The pass after the visit of a Run, and whether the loop goes on. -/
def Relieving.conclude (measure : Nat → Option Builds) (pass : Relieving) (id : String) : Outcome → Relieving × Bool
  | .stopped => (pass, false)
  | .changed | .raised .busy | .raised .missing => ({ pass with relief.skipped := pass.relief.skipped ++ [id] }, true)
  | .raised .os => ({ pass with relief.errors := pass.relief.errors ++ [(id, .os)] }, false)
  | .raised .value => ({ pass with relief.errors := pass.relief.errors ++ [(id, .value)] }, true)
  | .raised .other => ({ pass with ended := true }, false)
  | .done removed =>
    if removed = [] then (pass, true)
    else
      ({ pass with relief.cleaned := pass.relief.cleaned ++ [⟨id, removed, "storage_pressure"⟩] } : Relieving).measure
        (measure pass.measurements)

/-- The cleaning of the selected Runs. -/
def relieve (visits : String → Visit τ) (measure : Nat → Option Builds) (stop : Nat → Bool) :
    List (Selected τ) → Relieving → Relieving
  | [], pass => pass
  | r :: rest, pass =>
    if stop pass.polls = true then pass
    else
      let visit := visits r.id
      let found := revisit visit (stop (pass.polls + 1)) r.revision true retentionDirectories disposableFiles
        (pass.entries r.id)
      let next := ({ pass with
        polls := if visit.lock.isSome then pass.polls + 1 else pass.polls + 2
        entries := update pass.entries r.id found.2
        log := pass.log ++ [.visited r.id found.1]
        relief.candidatesConsidered := pass.relief.candidatesConsidered + 1 } : Relieving).conclude measure r.id found.1
      if next.2 = true then relieve visits measure stop rest next.1 else next.1

/-- The capacity at which the pass does anything. -/
def Builds.pressing (builds : Builds) : Bool :=
  builds.pressureState = "pressure" && builds.measurementState = "ready" && builds.availableBytes.isSome &&
    builds.effectiveTargetBytes.isSome

/-- `apply_storage_pressure` -/
def applyStoragePressure [LinearOrder τ] (timeOf : String → Option τ) (policy : Storage.Policy) (blocker : Option String)
    (candidateIds : List String) (initialCapacity : Builds) (look : String → Look τ) (visits : String → Visit τ)
    (measure : Nat → Option Builds) (stop : Nat → Bool) (entries : String → List String) : Relieving :=
  let pass : Relieving :=
    { entries, relief := { initialState := initialCapacity.pressureState, finalState := initialCapacity.pressureState } }
  if initialCapacity.pressing = false ∨ policy.enabled = false then pass
  else if stop 0 = true then pass
  else
    match blocker with
    | some reason => { pass with polls := 1, relief.blocked := some reason }
    | none =>
      let chosen := (fromKeys candidateIds).foldl (selectNext timeOf look stop) ({ pass with polls := 1 }, [])
      if chosen.1.ended = true then chosen.1
      else relieve visits measure stop (ascending Selected.key chosen.2) chosen.1

/-! ## The log of an orderly pass -/

def Event.run? : Event → Option String
  | .visited id _ => some id
  | .measured _ => none

/-- An event after which no Run is cleaned. -/
def Event.Last : Event → Prop
  | .visited _ outcome => outcome = .stopped ∨ outcome = .raised .os ∨ outcome = .raised .other
  | .measured none => True
  | .measured (some builds) => builds.reached = true ∨ builds.pressureState ≠ "pressure"

/-- The logs of orderly passes over a list of Runs. -/
inductive Relieves (visits : String → Visit τ) : List (Selected τ) → List Event → Prop
  | stop (runs : List (Selected τ)) : Relieves visits runs []
  | visit {r : Selected τ} {rest : List (Selected τ)} {outcome : Outcome} {log : List Event}
      (hnone : ∀ removed, outcome = .done removed → removed = [])
      (hlast : (Event.visited r.id outcome).Last → log = []) (hrest : Relieves visits rest log) :
      Relieves visits (r :: rest) (.visited r.id outcome :: log)
  | clean {r : Selected τ} {rest : List (Selected τ)} {removed : List String} {capacity : Option Builds} {log : List Event}
      (hcurrent : Current (visits r.id) r.revision true)
      (hlast : (Event.measured capacity).Last → log = []) (hrest : Relieves visits rest log) :
      Relieves visits (r :: rest) (.visited r.id (.done removed) :: .measured capacity :: log)

section

variable {visits : String → Visit τ} {runs : List (Selected τ)} {log : List Event}

/-- The Runs are taken in their order, each once. -/
theorem Relieves.order (h : Relieves visits runs log) : log.filterMap Event.run? <+: runs.map Selected.id := by
  induction h with
  | stop runs => exact List.nil_prefix
  | visit _ _ _ ih => exact List.prefix_cons_inj _ |>.2 ih
  | clean _ _ _ ih => exact List.prefix_cons_inj _ |>.2 ih

/-- What is removed is followed by a measurement. -/
theorem Relieves.measured (h : Relieves visits runs log) {before after : List Event} {id : String} {removed : List String}
    (hlog : log = before ++ .visited id (.done removed) :: after) (hne : removed ≠ []) :
    ∃ capacity rest, after = .measured capacity :: rest := by
  induction h generalizing before with
  | stop runs => exact absurd hlog (by simp)
  | visit hnone _ _ ih =>
      cases before with
      | nil =>
          rw [List.nil_append, List.cons.injEq, Event.visited.injEq] at hlog
          exact absurd (hnone removed hlog.1.2) hne
      | cons e before => exact ih (List.cons.inj hlog).2
  | clean _ _ _ ih =>
      cases before with
      | nil => exact ⟨_, _, ((List.cons.inj hlog).2).symm⟩
      | cons e before =>
          cases before with
          | nil => exact absurd (List.cons.inj (List.cons.inj hlog).2).1 nofun
          | cons e before => exact ih (List.cons.inj (List.cons.inj hlog).2).2

/-- What is removed is that of a Run that did not change. -/
theorem Relieves.current (h : Relieves visits runs log) {id : String} {removed : List String}
    (hmem : .visited id (.done removed) ∈ log) (hne : removed ≠ []) :
    ∃ r ∈ runs, r.id = id ∧ Current (visits id) r.revision true := by
  induction h with
  | stop runs => exact absurd hmem List.not_mem_nil
  | visit hnone _ _ ih =>
      rcases List.mem_cons.1 hmem with heq | hmem
      · exact absurd (hnone removed (Event.visited.inj heq).2.symm) hne
      · obtain ⟨r, hr, hcurrent⟩ := ih hmem
        exact ⟨r, List.mem_cons_of_mem _ hr, hcurrent⟩
  | clean hcurrent _ _ ih =>
      rcases List.mem_cons.1 hmem with heq | hmem
      · rw [(Event.visited.inj heq).1]
        exact ⟨_, List.mem_cons_self, rfl, hcurrent⟩
      · rcases List.mem_cons.1 hmem with heq | hmem
        · exact absurd heq nofun
        · obtain ⟨r, hr, hcurrent⟩ := ih hmem
          exact ⟨r, List.mem_cons_of_mem _ hr, hcurrent⟩

/-- Nothing follows a last event. -/
theorem Relieves.last (h : Relieves visits runs log) {before after : List Event} {e : Event}
    (hlog : log = before ++ e :: after) (hlast : e.Last) : after = [] := by
  induction h generalizing before with
  | stop runs => exact absurd hlog (by simp)
  | visit _ hend _ ih =>
      cases before with
      | nil =>
          obtain ⟨heq, hafter⟩ := List.cons.inj hlog
          rw [← hafter]
          exact hend (by rw [heq]; exact hlast)
      | cons _ before => exact ih (List.cons.inj hlog).2
  | clean _ hend _ ih =>
      cases before with
      | nil =>
          rw [← (List.cons.inj hlog).1] at hlast
          exact absurd hlast (by simp [Event.Last])
      | cons _ before =>
          cases before with
          | nil =>
              obtain ⟨heq, hafter⟩ := List.cons.inj (List.cons.inj hlog).2
              rw [← hafter]
              exact hend (by rw [heq]; exact hlast)
          | cons _ before => exact ih (List.cons.inj (List.cons.inj hlog).2).2

end

/-! ## The loop -/

section

variable {visits : String → Visit τ} {measure : Nat → Option Builds} {stop : Nat → Bool} {runs : List (Selected τ)}
  {pass : Relieving}

theorem conclude_spec (pass : Relieving) (id : String) (outcome : Outcome) :
    (pass.conclude measure id outcome).1.entries = pass.entries ∧
      ((∃ removed, removed ≠ [] ∧ outcome = .done removed ∧
          (pass.conclude measure id outcome).1.log = pass.log ++ [.measured (measure pass.measurements)] ∧
          ((pass.conclude measure id outcome).2 = true → ¬ (Event.measured (measure pass.measurements)).Last)) ∨
        (∀ removed, outcome = .done removed → removed = []) ∧ (pass.conclude measure id outcome).1.log = pass.log ∧
          ((pass.conclude measure id outcome).2 = true → ¬ (Event.visited id outcome).Last)) := by
  cases outcome with
  | stopped => exact ⟨rfl, .inr ⟨nofun, rfl, nofun⟩⟩
  | changed => exact ⟨rfl, .inr ⟨nofun, rfl, fun _ => by simp [Event.Last]⟩⟩
  | raised failure =>
      cases failure with
      | os | other => exact ⟨rfl, .inr ⟨nofun, rfl, nofun⟩⟩
      | busy | missing | value => exact ⟨rfl, .inr ⟨nofun, rfl, fun _ => by simp [Event.Last]⟩⟩
  | done removed =>
      simp only [Relieving.conclude]
      by_cases hnone : removed = []
      · rw [if_pos hnone]
        refine ⟨rfl, .inr ⟨fun removed' heq => ?_, rfl, fun _ => by simp [Event.Last]⟩⟩
        rw [← Outcome.done.inj heq, hnone]
      · rw [if_neg hnone]
        cases hcapacity : measure pass.measurements with
        | none => exact ⟨rfl, .inl ⟨removed, hnone, rfl, rfl, nofun⟩⟩
        | some builds =>
            simp only [Relieving.measure]
            by_cases hreached : builds.reached = true
            · rw [if_pos hreached]
              exact ⟨rfl, .inl ⟨removed, hnone, rfl, rfl, nofun⟩⟩
            · rw [if_neg hreached]
              refine ⟨rfl, .inl ⟨removed, hnone, rfl, rfl, fun hmore hlast => ?_⟩⟩
              rcases hlast with hlast | hlast
              · exact hreached hlast
              · exact hlast (of_decide_eq_true hmore)

/-- The loop writes the log of an orderly pass. -/
theorem relieves_relieve (runs : List (Selected τ)) (pass : Relieving) :
    ∃ log, (relieve visits measure stop runs pass).log = pass.log ++ log ∧ Relieves visits runs log := by
  induction runs generalizing pass with
  | nil => exact ⟨[], (List.append_nil _).symm, .stop _⟩
  | cons r rest ih =>
      simp only [relieve]
      by_cases hstop : stop pass.polls = true
      · rw [if_pos hstop]
        exact ⟨[], (List.append_nil _).symm, .stop _⟩
      · rw [if_neg hstop]
        have hcurrent : ∀ removed, (revisit (visits r.id) (stop (pass.polls + 1)) r.revision true retentionDirectories
            disposableFiles (pass.entries r.id)).1 = .done removed → Current (visits r.id) r.revision true :=
          fun removed hdone => current_of_revisit (.inr ⟨removed, hdone⟩)
        generalize revisit (visits r.id) (stop (pass.polls + 1)) r.revision true retentionDirectories disposableFiles
          (pass.entries r.id) = found at hcurrent ⊢
        generalize hvisited : ({ pass with
          polls := if (visits r.id).lock.isSome then pass.polls + 1 else pass.polls + 2
          entries := update pass.entries r.id found.2
          log := pass.log ++ [.visited r.id found.1]
          relief.candidatesConsidered := pass.relief.candidatesConsidered + 1 } : Relieving) = visited
        have hlog : visited.log = pass.log ++ [.visited r.id found.1] := by rw [← hvisited]
        have hspec := (@conclude_spec measure visited r.id found.1).2
        generalize visited.conclude measure r.id found.1 = next at hspec ⊢
        rcases hspec with ⟨removed, _, hdone, hnext, hmore⟩ | ⟨hnone, hnext, hmore⟩
        · have hown := hcurrent removed hdone
          rw [hlog, hdone] at hnext
          by_cases hgo : next.2 = true
          · rw [if_pos hgo]
            obtain ⟨log, hrest, hrelieves⟩ := ih next.1
            refine ⟨.visited r.id (.done removed) :: .measured (measure visited.measurements) :: log, ?_,
              .clean hown (fun hlast => absurd hlast (hmore hgo)) hrelieves⟩
            rw [hrest, hnext, List.append_assoc, List.append_assoc]
            rfl
          · rw [if_neg hgo]
            refine ⟨[.visited r.id (.done removed), .measured (measure visited.measurements)], ?_,
              .clean hown (fun _ => rfl) (.stop rest)⟩
            rw [hnext, List.append_assoc]
            rfl
        · rw [hlog] at hnext
          by_cases hgo : next.2 = true
          · rw [if_pos hgo]
            obtain ⟨log, hrest, hrelieves⟩ := ih next.1
            refine ⟨_, ?_, .visit hnone (fun hlast => absurd hlast (hmore hgo)) hrelieves⟩
            rw [hrest, hnext, List.append_assoc]
            rfl
          · rw [if_neg hgo]
            exact ⟨_, hnext, .visit hnone (fun _ => rfl) (.stop rest)⟩

/-- What the loop does to the workspaces. -/
theorem entries_relieve (hids : (runs.map Selected.id).Nodup) :
    (∀ id, (∀ r ∈ runs, r.id ≠ id) → (relieve visits measure stop runs pass).entries id = pass.entries id) ∧
      ∀ r ∈ runs, (relieve visits measure stop runs pass).entries r.id = pass.entries r.id ∨
        ∃ asked, (relieve visits measure stop runs pass).entries r.id =
          (revisit (visits r.id) asked r.revision true retentionDirectories disposableFiles (pass.entries r.id)).2 := by
  induction runs generalizing pass with
  | nil => exact ⟨fun _ _ => rfl, fun _ hr => absurd hr List.not_mem_nil⟩
  | cons r rest ih =>
      obtain ⟨hnew, hrest⟩ := List.nodup_cons.1 hids
      have hnew : ∀ r' ∈ rest, r'.id ≠ r.id := fun r' hr' heq => hnew (heq ▸ List.mem_map_of_mem hr')
      simp only [relieve]
      by_cases hstop : stop pass.polls = true
      · rw [if_pos hstop]
        exact ⟨fun _ _ => rfl, fun _ _ => .inl rfl⟩
      · rw [if_neg hstop]
        generalize hfound : revisit (visits r.id) (stop (pass.polls + 1)) r.revision true retentionDirectories
          disposableFiles (pass.entries r.id) = found
        generalize hvisited : ({ pass with
          polls := if (visits r.id).lock.isSome then pass.polls + 1 else pass.polls + 2
          entries := update pass.entries r.id found.2
          log := pass.log ++ [.visited r.id found.1]
          relief.candidatesConsidered := pass.relief.candidatesConsidered + 1 } : Relieving) = visited
        have hentries : (visited.conclude measure r.id found.1).1.entries = update pass.entries r.id found.2 := by
          rw [(conclude_spec visited r.id found.1).1, ← hvisited]
        generalize visited.conclude measure r.id found.1 = next at hentries ⊢
        have hown : next.1.entries r.id = pass.entries r.id ∨ ∃ asked, next.1.entries r.id =
            (revisit (visits r.id) asked r.revision true retentionDirectories disposableFiles (pass.entries r.id)).2 := by
          rw [hentries, update_self, ← hfound]
          exact .inr ⟨_, rfl⟩
        have hothers : ∀ id, id ≠ r.id → next.1.entries id = pass.entries id := by
          intro id hne
          rw [hentries, update_of_ne hne]
        by_cases hgo : next.2 = true
        · rw [if_pos hgo]
          obtain ⟨hsame, hrest⟩ := @ih next.1 hrest
          constructor
          · intro id hid
            rw [hsame id fun r' hr' => hid r' (List.mem_cons_of_mem _ hr'), hothers id fun heq => hid r List.mem_cons_self heq.symm]
          · intro r' hr'
            rcases List.mem_cons.1 hr' with rfl | hr'
            · rw [hsame r'.id hnew]
              exact hown
            · rw [← hothers r'.id (hnew r' hr')]
              exact hrest r' hr'
        · rw [if_neg hgo]
          constructor
          · intro id hid
            exact hothers id fun heq => hid r List.mem_cons_self heq.symm
          · intro r' hr'
            rcases List.mem_cons.1 hr' with rfl | hr'
            · exact hown
            · exact .inl (hothers r'.id (hnew r' hr'))

/-- What a pass does, when the Runs are selected in this order. -/
structure Orderly (start : String → List String) (visits : String → Visit τ) (selected : List (Selected τ))
    (pass : Relieving) : Prop where
  /-- The Runs are taken in their order, each once. -/
  order : pass.log.filterMap Event.run? <+: selected.map Selected.id
  /-- Capacity is measured after each cleaning that ends with something removed. -/
  measured : ∀ before id removed after, pass.log = before ++ .visited id (.done removed) :: after → removed ≠ [] →
    ∃ capacity rest, after = .measured capacity :: rest
  /-- No Run is taken after a measurement that is enough or an error of the operating system. -/
  last : ∀ before e after, pass.log = before ++ e :: after → e.Last → after = []
  /-- A workspace is touched only when its Run is failed and has not changed since. -/
  current : ∀ id, pass.entries id ≠ start id → ∃ r ∈ selected, r.id = id ∧ Current (visits id) r.revision true
  /-- Nothing goes but the data that retention is about. -/
  removed : ∀ id, ∀ name ∈ start id, name ∉ pass.entries id → name ∈ retentionNames
  /-- Nothing comes but the marker. -/
  added : ∀ id, ∀ name ∈ pass.entries id, name ∈ start id ∨ name = cleanupMarker

theorem orderly_idle {start : String → List String} {selected : List (Selected τ)} (hentries : pass.entries = start)
    (hlog : pass.log = []) : Orderly start visits selected pass := by
  constructor
  · rw [hlog]
    exact List.nil_prefix
  · intro before id removed after h
    rw [hlog] at h
    exact absurd h.symm (by simp)
  · intro before e after h
    rw [hlog] at h
    exact absurd h.symm (by simp)
  · exact fun id hne => absurd (congrFun hentries id) hne
  · intro id name hmem hgone
    rw [hentries] at hgone
    exact absurd hmem hgone
  · intro id name hmem
    rw [hentries] at hmem
    exact .inl hmem

theorem orderly_relieve {selected : List (Selected τ)} (hids : (selected.map Selected.id).Nodup) (hlog : pass.log = []) :
    Orderly pass.entries visits selected (relieve visits measure stop selected pass) := by
  obtain ⟨log, hnew, hrelieves⟩ : ∃ log, (relieve visits measure stop selected pass).log = pass.log ++ log ∧
      Relieves visits selected log := relieves_relieve selected pass
  obtain ⟨hothers, hown⟩ := @entries_relieve _ visits measure stop selected pass hids
  rw [hlog, List.nil_append] at hnew
  have hcases : ∀ id, (relieve visits measure stop selected pass).entries id = pass.entries id ∨
      ∃ r ∈ selected, r.id = id ∧ ∃ asked, (relieve visits measure stop selected pass).entries id =
        (revisit (visits id) asked r.revision true retentionDirectories disposableFiles (pass.entries id)).2 := by
    intro id
    by_cases hid : ∀ r ∈ selected, r.id ≠ id
    · exact .inl (hothers id hid)
    · obtain ⟨r, hr, rfl⟩ : ∃ r ∈ selected, r.id = id := by simpa using hid
      rcases hown r hr with hsame | htouched
      · exact .inl hsame
      · exact .inr ⟨r, hr, rfl, htouched⟩
  constructor
  · rw [hnew]
    exact hrelieves.order
  · intro before id removed after heq
    rw [hnew] at heq
    exact hrelieves.measured heq
  · intro before e after heq
    rw [hnew] at heq
    exact hrelieves.last heq
  · intro id hne
    rcases hcases id with hsame | ⟨r, hr, hid, asked, htouched⟩
    · exact absurd hsame hne
    · rw [htouched] at hne
      exact ⟨r, hr, hid, current_of_revisit (.inl hne)⟩
  · intro id name hmem hgone
    rcases hcases id with hsame | ⟨r, _, _, asked, htouched⟩
    · rw [hsame] at hgone
      exact absurd hmem hgone
    · by_contra hname
      rw [htouched] at hgone
      exact hgone (mem_revisit hname hmem)
  · intro id name hmem
    rcases hcases id with hsame | ⟨r, _, _, asked, htouched⟩
    · rw [hsame] at hmem
      exact .inl hmem
    · rw [htouched] at hmem
      exact mem_of_mem_revisit hmem

theorem nodup_keys {selected : List (Selected τ)} (hids : (selected.map Selected.id).Nodup) :
    (selected.map Selected.key).Nodup := by
  apply List.Nodup.of_map fun key => (ofLex key).2
  rw [List.map_map]
  exact hids

end

/-! ## The pass as a whole -/

section

variable [LinearOrder τ] {timeOf : String → Option τ} {look : String → Look τ} {visits : String → Visit τ}
  {measure : Nat → Option Builds} {stop : Nat → Bool} {pass : Relieving}

/-- A failed Run with its age, as the selection reads it. -/
structure Chosen (timeOf : String → Option τ) (look : Look τ) (r : Selected τ) : Prop where
  lock : look.lock = none
  reading : ∃ run attempts, look.run = .ok run ∧ look.attempts = .ok attempts ∧ retentionFailed run attempts = true ∧
    look.revision = .ok r.revision ∧ r.time = completionTime timeOf run attempts

theorem selectRun_eq_selected {id : String} {own : Look τ} {names : List String} {r : Selected τ}
    (h : selectRun timeOf id own names = .ok (.selected r)) : r.id = id ∧ Chosen timeOf own r := by
  rw [selectRun] at h
  cases hlock : own.lock with
  | some failure => rw [hlock] at h; exact absurd h nofun
  | none =>
      rw [hlock] at h
      obtain ⟨run, hrun, h⟩ := bind_eq_ok.1 h
      by_cases hholds : Holds names retentionNames
      · rw [if_pos hholds] at h
        obtain ⟨attempts, hattempts, h⟩ := bind_eq_ok.1 h
        by_cases hfailed : retentionFailed run attempts = true
        · rw [if_pos hfailed] at h
          obtain ⟨revision, hrevision, h⟩ := bind_eq_ok.1 h
          have hr := Selection.selected.inj (pure_eq_ok.1 h)
          rw [← hr]
          exact ⟨rfl, hlock, run, attempts, hrun, hattempts, hfailed, hrevision, rfl⟩
        · rw [if_neg hfailed] at h
          exact absurd (pure_eq_ok.1 h) nofun
      · rw [if_neg hholds] at h
        exact absurd (pure_eq_ok.1 h) nofun

theorem nodup_fromKeys (ids : List String) : (fromKeys ids).Nodup := by
  induction ids with
  | nil => exact List.nodup_nil
  | cons id ids ih => exact List.nodup_cons.2 ⟨by simp, ih.filter _⟩

theorem mem_of_mem_fromKeys {id : String} {ids : List String} (h : id ∈ fromKeys ids) : id ∈ ids := by
  induction ids with
  | nil => exact h
  | cons other ids ih =>
      rcases List.mem_cons.1 h with rfl | h
      · exact List.mem_cons_self
      · exact List.mem_cons_of_mem _ (ih (List.mem_of_mem_filter h))

/-- What a part of the selection has noted. -/
structure Noting (timeOf : String → Option τ) (look : String → Look τ) (start : String → List String) (seen : List String)
    (state : Relieving × List (Selected τ)) : Prop where
  entries : state.1.entries = start
  log : state.1.log = []
  ids : (state.2.map Selected.id).Sublist seen
  chosen : ∀ r ∈ state.2, Chosen timeOf (look r.id) r

theorem Noting.next {start : String → List String} {seen : List String} {state : Relieving × List (Selected τ)}
    (h : Noting timeOf look start seen state) (id : String) :
    Noting timeOf look start (seen ++ [id]) (selectNext timeOf look stop state id) := by
  have hids := h.ids.trans (List.sublist_append_left seen [id])
  simp only [selectNext]
  by_cases hended : state.1.ended = true
  · rw [if_pos hended]
    exact ⟨h.entries, h.log, hids, h.chosen⟩
  · rw [if_neg hended]
    by_cases hstop : stop state.1.polls = true
    · rw [if_pos hstop]
      exact ⟨h.entries, h.log, hids, h.chosen⟩
    · rw [if_neg hstop]
      cases hselect : selectRun timeOf id (look id) (state.1.entries id) with
      | error failure => cases failure <;> exact ⟨h.entries, h.log, hids, h.chosen⟩
      | ok selection =>
          cases selection with
          | passed | skipped => exact ⟨h.entries, h.log, hids, h.chosen⟩
          | selected r =>
              obtain ⟨rfl, hchosen⟩ := selectRun_eq_selected hselect
              refine ⟨h.entries, h.log, ?_, ?_⟩
              · rw [List.map_append]
                exact h.ids.append (List.Sublist.refl _)
              · intro r' hr'
                rcases List.mem_append.1 hr' with hr' | hr'
                · exact h.chosen r' hr'
                · rw [List.mem_singleton.1 hr']
                  exact hchosen

theorem noting_foldl {start : String → List String} {seen rest : List String} {state : Relieving × List (Selected τ)}
    (h : Noting timeOf look start seen state) :
    Noting timeOf look start (seen ++ rest) (rest.foldl (selectNext timeOf look stop) state) := by
  induction rest generalizing seen state with
  | nil => rwa [List.append_nil]
  | cons id rest ih =>
      have hnext : Noting timeOf look start (seen ++ [id]) (selectNext timeOf look stop state id) := h.next id
      have hrest := ih hnext
      rwa [List.append_assoc, List.singleton_append] at hrest

/-- The cleaning of the Runs that a selection finds. -/
theorem orderly_selected {entries : String → List String} {candidateIds : List String} (hentries : pass.entries = entries)
    (hlog : pass.log = []) :
    let chosen := (fromKeys candidateIds).foldl (selectNext timeOf look stop) (pass, [])
    ∃ selected : List (Selected τ), (selected.Pairwise fun a b => a.key < b.key) ∧ (selected.map Selected.id).Nodup ∧
      (∀ r ∈ selected, r.id ∈ candidateIds ∧ Chosen timeOf (look r.id) r) ∧
      Orderly entries visits selected (if chosen.1.ended = true then chosen.1 else
        relieve visits measure stop (ascending Selected.key chosen.2) chosen.1) := by
  have hnoting : Noting timeOf look entries ([] ++ fromKeys candidateIds)
      ((fromKeys candidateIds).foldl (selectNext timeOf look stop) (pass, [])) :=
    noting_foldl ⟨hentries, hlog, List.nil_sublist _, fun _ hr => absurd hr List.not_mem_nil⟩
  simp only
  generalize (fromKeys candidateIds).foldl (selectNext timeOf look stop) (pass, []) = chosen at hnoting ⊢
  have hids : (chosen.2.map Selected.id).Nodup := hnoting.ids.nodup (nodup_fromKeys candidateIds)
  have hperm := ascending_perm Selected.key chosen.2
  have hsorted : ((ascending Selected.key chosen.2).map Selected.id).Nodup := (hperm.map _).nodup_iff.2 hids
  refine ⟨ascending Selected.key chosen.2, pairwise_ascending Selected.key (nodup_keys hids), hsorted, ?_, ?_⟩
  · intro r hr
    have hmem := hperm.mem_iff.1 hr
    exact ⟨mem_of_mem_fromKeys (hnoting.ids.subset (List.mem_map_of_mem hmem)), hnoting.chosen r hmem⟩
  · by_cases hended : chosen.1.ended = true
    · rw [if_pos hended]
      exact orderly_idle hnoting.entries hnoting.log
    · have horderly : Orderly chosen.1.entries visits _ (relieve visits measure stop (ascending Selected.key chosen.2) chosen.1) :=
        orderly_relieve hsorted hnoting.log
      rw [if_neg hended]
      rwa [hnoting.entries] at horderly

/-- A pass over storage under pressure is orderly. -/
theorem storage_pressure_orderly (timeOf : String → Option τ) (policy : Storage.Policy) (blocker : Option String)
    (candidateIds : List String) (initialCapacity : Builds) (look : String → Look τ) (visits : String → Visit τ)
    (measure : Nat → Option Builds) (stop : Nat → Bool) (entries : String → List String) :
    ∃ selected : List (Selected τ), (selected.Pairwise fun a b => a.key < b.key) ∧ (selected.map Selected.id).Nodup ∧
      (∀ r ∈ selected, r.id ∈ candidateIds ∧ Chosen timeOf (look r.id) r) ∧
      Orderly entries visits selected
        (applyStoragePressure timeOf policy blocker candidateIds initialCapacity look visits measure stop entries) := by
  have hidle : ∀ pass : Relieving, pass.entries = entries → pass.log = [] →
      ∃ selected : List (Selected τ), (selected.Pairwise fun a b => a.key < b.key) ∧ (selected.map Selected.id).Nodup ∧
        (∀ r ∈ selected, r.id ∈ candidateIds ∧ Chosen timeOf (look r.id) r) ∧ Orderly entries visits selected pass :=
    fun pass hentries hlog => ⟨[], .nil, List.nodup_nil, fun _ hr => absurd hr List.not_mem_nil,
      orderly_idle hentries hlog⟩
  simp only [applyStoragePressure]
  by_cases hidling : initialCapacity.pressing = false ∨ policy.enabled = false
  · rw [if_pos hidling]
    exact hidle _ rfl rfl
  · rw [if_neg hidling]
    by_cases hstop : stop 0 = true
    · rw [if_pos hstop]
      exact hidle _ rfl rfl
    · rw [if_neg hstop]
      cases blocker with
      | some reason => exact hidle _ rfl rfl
      | none => exact orderly_selected rfl rfl

end

/-! ## A removal without a measurement -/

/-- The visit of a failed Run whose cleanup marker cannot be written. -/
def unwritable : Visit Nat where
  lock := none
  run := .ok ⟨"failed", none, [], some 1, none, false⟩
  attempts := .ok []
  marker := .ok false
  revision := .ok 0
  guard := none
  artifacts := []
  mounted := []
  foreign := []
  unremovable := fun _ => none
  unwritable := some .os

/-- The source of a Run goes, and no capacity is measured after it. -/
theorem removal_unmeasured : ¬ ∀ (policy : Storage.Policy) (candidateIds : List String) (initialCapacity : Builds)
    (visits : String → Visit Nat) (measure : Nat → Option Builds) (entries : String → List String) (id name : String),
    name ∈ entries id →
      name ∉ (applyStoragePressure (fun _ => none) policy none candidateIds initialCapacity (fun id => (visits id).toLook)
        visits measure (fun _ => false) entries).entries id →
      ∃ capacity, Event.measured capacity ∈ (applyStoragePressure (fun _ => none) policy none candidateIds initialCapacity
        (fun id => (visits id).toLook) visits measure (fun _ => false) entries).log := by
  intro h
  obtain ⟨capacity, hmem⟩ := h Storage.defaultPolicy ["run"] ⟨"pressure", "ready", some 1, some 2⟩ (fun _ => unwritable)
    (fun _ => none) (fun _ => ["source"]) "run" "source" (by decide) (by decide)
  have hlog : (applyStoragePressure (fun _ => none) Storage.defaultPolicy none ["run"] ⟨"pressure", "ready", some 1, some 2⟩
      (fun _ => unwritable.toLook) (fun _ => unwritable) (fun _ => none) (fun _ => false) fun _ => ["source"]).log =
        [.visited "run" (.raised .os)] := by
    rfl
  rw [hlog] at hmem
  exact absurd (List.mem_singleton.1 hmem) nofun

end DebBuilder.Workspace
