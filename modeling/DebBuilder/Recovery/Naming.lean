import Mathlib
import DebBuilder.Recovery.FailClosed

/-!
# Whom startup recovery names

Every blocker comes from somewhere: an entry of the Runs root, the recovery of the Run that
it names, or a loaded unit that is bound to that Run.

## Main definitions

* `BlockerOrigin` — where a blocker comes from.

## Main statements

* `recoverStartup_origin` — the origins of all blockers.
-/

namespace DebBuilder.Recovery
open Lib Function

/-! ## One Run -/

/-- The blockers of a session name its Run. -/
def NamesOnly (id : RunId) (s : Session) : Prop := ∀ blocker ∈ s.blockers, blocker.runId = id

theorem NamesOnly.concat {id : RunId} {s : Session} (h : NamesOnly id s) {blocker : Blocker}
    (hid : blocker.runId = id) : ∀ b ∈ s.blockers ++ [blocker], b.runId = id := by
  intro b hb
  rcases List.mem_append.1 hb with hb | hb
  · exact h b hb
  · rw [List.mem_singleton.1 hb]
    exact hid

section
variable {host : RunHost} {id : RunId} {boot : String} {doc : Persisted}

theorem save_names (site : SaveSite) : Script.Keeps (NamesOnly id) (save host site doc) := by
  unfold save
  split
  · exact Script.keeps_update fun _ h => h
  · exact Script.keeps_raise
  · exact Script.Keeps.bind (Script.keeps_update fun _ h => h) fun _ => Script.keeps_raise

theorem appendEvent_names (event : RunEvent) : Script.Keeps (NamesOnly id) (doc.appendEvent event) := by
  unfold Persisted.appendEvent
  cases doc.events with
  | list events => exact Script.keeps_pure
  | other truthy => exact Script.keeps_raise

theorem recordBlocker_names (hid : doc.run.id = id) (backend reason : String) :
    Script.Keeps (NamesOnly id) (recordBlocker host doc backend reason) := by
  unfold recordBlocker
  by_cases hsame : doc.recovery ≠ .record (blockerRecord host doc backend reason)
  · simp only [if_pos hsame]
    exact Script.Keeps.bind (save_names .blocker) fun _ => Script.keeps_update fun s h => NamesOnly.concat h hid
  · simp only [if_neg hsame]
    exact Script.keeps_update fun s h => NamesOnly.concat h hid

theorem terminalizeInterrupted_names (backend reason : String) (control : Option ResourceControl) :
    Script.Keeps (NamesOnly id) (terminalizeInterrupted host doc backend reason control) :=
  (appendEvent_names _).bind fun _ => save_names .lifecycle

theorem settleInterrupted_names (hid : doc.run.id = id) (backend reason : String)
    (control : Option ResourceControl) :
    Script.Keeps (NamesOnly id) (settleInterrupted host doc backend reason control) := by
  unfold settleInterrupted
  split
  · exact recordBlocker_names hid _ _
  · refine Script.Keeps.bind (terminalizeInterrupted_names _ _ _) fun _ => ?_
    exact Script.Keeps.bind (Script.keeps_update fun _ h => h) fun _ => Script.keeps_update fun _ h => h

theorem recoverInterrupted_names (hid : doc.run.id = id) (identity : Option CommandIdentity) :
    Script.Keeps (NamesOnly id) (recoverInterrupted host id boot doc identity) := by
  unfold recoverInterrupted
  refine Script.Keeps.bind (Script.keeps_update fun _ h => h) fun _ => ?_
  split
  · split_ifs
    · exact Script.Keeps.bind (terminalizeInterrupted_names _ _ _) fun _ => Script.keeps_update fun _ h => h
    · exact recordBlocker_names hid _ _
  · dsimp only
    split_ifs
    · exact settleInterrupted_names hid _ _ _
    · exact settleInterrupted_names hid _ _ _
    · exact recordBlocker_names hid _ _

theorem recordTerminalResolution_names (backend reason : String) :
    Script.Keeps (NamesOnly id) (recordTerminalResolution host doc backend reason) := by
  unfold recordTerminalResolution
  split
  · split_ifs
    · exact save_names .resolution
    · exact Script.keeps_pure
  · exact Script.keeps_pure

theorem recoverTerminal_names (hid : doc.run.id = id) (identity : Option CommandIdentity) :
    Script.Keeps (NamesOnly id) (recoverTerminal host id boot doc identity) := by
  have hclear : Script.Keeps (NamesOnly id) clearResolvedIdentity := Script.keeps_update fun _ h => h
  unfold recoverTerminal
  split_ifs
  · exact Script.keeps_raise
  · exact hclear
  · split
    · split_ifs
      · refine Script.Keeps.bind (Script.keeps_update fun _ h => h) fun _ => Script.keeps_update fun s h => ?_
        exact NamesOnly.concat h rfl
      · exact Script.keeps_pure
    · exact Script.keeps_pure
    · refine Script.Keeps.bind (Script.keeps_update fun _ h => h) fun _ => ?_
      dsimp only
      split_ifs
      · exact Script.Keeps.bind hclear fun _ => recordTerminalResolution_names _ _
      · exact Script.Keeps.bind hclear fun _ => recordTerminalResolution_names _ _
      · exact recordBlocker_names hid _ _

theorem recoverWorkload_names (hid : doc.run.id = id) :
    Script.Keeps (NamesOnly id) (recoverWorkload host id boot doc) := by
  unfold recoverWorkload
  split
  · refine Script.Keeps.bind (Script.keeps_update fun _ h => h) fun _ => ?_
    refine Script.Keeps.bind (recordBlocker_names hid _ _) fun _ => ?_
    exact Script.keeps_update fun _ h => h
  · refine Script.Keeps.bind (Script.keeps_update fun _ h => h) fun _ => ?_
    split_ifs
    · exact recoverTerminal_names hid _
    · exact recoverInterrupted_names hid _

/-- The recovery of the publications leaves the id of the document alone. -/
theorem recoverInterruptedPublications_names (hid : doc.run.id = id) {s : Session} (hs : NamesOnly id s) :
    (recoverInterruptedPublications host doc).Ends
      (fun r s' => NamesOnly id s' ∧ ∀ doc', r = .ok doc' → doc'.run.id = id) s := by
  unfold recoverInterruptedPublications
  split_ifs
  · rw [Script.ends_pure]
    refine ⟨hs, fun doc' hdoc => ?_⟩
    rw [← Except.ok.inj hdoc]
    exact hid
  · rw [Script.ends_bind, appendEvent_ends]
    cases (publicationsInterrupted doc).events with
    | other truthy => exact ⟨hs, by simp⟩
    | list events =>
        simp only [Script.goes_ok]
        refine (save_names .publications s hs).seq ?_ ?_
        · intro _ s' hs'
          rw [Script.ends_pure]
          refine ⟨hs', fun doc' hdoc => ?_⟩
          rw [← Except.ok.inj hdoc]
          exact hid
        · intro e s' hs'
          exact ⟨hs', by simp⟩

theorem recoverLocked_names : Script.Keeps (NamesOnly id) (recoverLocked host id boot) := by
  unfold recoverLocked
  refine Script.Keeps.bind Script.keeps_get fun session => ?_
  apply Script.keeps_bind_of (P := fun doc : Persisted => doc.run.id = id)
  · intro s hs
    exact ⟨hs, fun doc hread => (readRun_eq_ok hread).2⟩
  · intro doc hid
    apply Script.keeps_bind_of (P := fun doc : Persisted => doc.run.id = id)
    · intro s hs
      exact recoverInterruptedPublications_names hid hs
    · intro doc' hid'
      exact recoverWorkload_names hid'

theorem recoverRun_names (host : RunHost) (id : RunId) (boot : String) (file : RunFile) :
    NamesOnly id (recoverRun host id boot { file }).2 := by
  have hkeeps : Script.Keeps (NamesOnly id) (recoverRun host id boot) := by
    unfold recoverRun
    refine (Script.keeps_ofExcept.bind fun _ => recoverLocked_names).handle fun e => ?_
    cases e with
    | busy message => exact Script.keeps_update fun s h => NamesOnly.concat h rfl
    | caught message => exact Script.keeps_update fun s h => NamesOnly.concat h rfl
    | escaped => exact Script.keeps_raise
  exact hkeeps { file } nofun

end

/-! ## The Runs -/

/-- What the recovery of a Run answers from the documents that recovery started with. -/
abbrev session (host : Host) (files : RunId → RunFile) (id : RunId) : Session :=
  (recoverRun (host.runs id) id (knownBoot host) { file := files id }).2

/-- What the loop over the Runs adds comes from the session of some Run. -/
structure RunsAdd (host : Host) (ids : List RunId) (state state' : State) : Prop where
  blockers : ∀ blocker ∈ state'.result.blockers, blocker ∈ state.result.blockers ∨
    ∃ id ∈ ids, blocker ∈ (session host state.files id).blockers
  bindings : ∀ binding ∈ state'.unitBindings, binding ∈ state.unitBindings ∨
    binding.2 ∈ ids ∧ (session host state.files binding.2).binding = some binding.1

theorem recoverRuns_add (host : Host) (ids : List RunId) (state : State) (hids : ids.Nodup)
    (hok : (recoverRuns host (knownBoot host) ids state).1 = .ok ()) :
    RunsAdd host ids state (recoverRuns host (knownBoot host) ids state).2 := by
  induction ids generalizing state with
  | nil => exact ⟨fun _ h => .inl h, fun _ h => .inl h⟩
  | cons id ids ih =>
      obtain ⟨hnot, hrest⟩ := List.nodup_cons.1 hids
      unfold recoverRuns at hok ⊢
      rcases hrun : recoverRun (host.runs id) id (knownBoot host) { file := state.files id } with ⟨r, s⟩
      rw [hrun] at hok
      have hs : session host state.files id = s := by rw [session, hrun]
      cases r with
      | error e => cases hok
      | ok u =>
          have htail : ∀ id' ∈ ids, session host (state.absorb id s).files id' = session host state.files id' := by
            intro id' hid'
            have hne : id' ≠ id := fun heq => hnot (heq ▸ hid')
            show (recoverRun _ _ _ { file := update state.files id s.file id' }).2 = _
            rw [update_of_ne hne]
          have hloop := ih (state.absorb id s) hrest hok
          dsimp only
          constructor
          · intro blocker hblocker
            rcases hloop.blockers blocker hblocker with hblocker | ⟨id', hid', hblocker⟩
            · rcases List.mem_append.1 hblocker with hblocker | hblocker
              · exact .inl hblocker
              · exact .inr ⟨id, by simp, by rwa [hs]⟩
            · exact .inr ⟨id', by simp [hid'], by rwa [htail id' hid'] at hblocker⟩
          · intro binding hbinding
            rcases hloop.bindings binding hbinding with hbinding | ⟨hid', hbinding⟩
            · rcases List.mem_append.1 hbinding with hbinding | hbinding
              · simp only [Option.mem_toList, Option.map_eq_some_iff] at hbinding
                obtain ⟨unit, hunit, rfl⟩ := hbinding
                exact .inr ⟨by simp, by rw [hs, hunit]⟩
              · exact .inl hbinding
            · exact .inr ⟨by simp [hid'], by rwa [htail _ hid'] at hbinding⟩

/-! ## The units -/

theorem mem_of_lookup_eq_some {bindings : List (String × RunId)} {unit : String} {id : RunId}
    (h : bindings.lookup unit = some id) : (unit, id) ∈ bindings := by
  induction bindings with
  | nil => cases h
  | cons binding bindings ih =>
      rw [List.lookup_cons] at h
      by_cases hunit : (unit == binding.1) = true
      · simp only [hunit] at h
        have heq : unit = binding.1 := by simpa using hunit
        simp [← Option.some.inj h, heq]
      · simp only [hunit] at h
        exact List.mem_cons_of_mem _ (ih h)

/-- A blocker of a unit names no Run, or the Run that the unit is bound to. -/
def UnitsName (state state' : State) : Prop := ∀ blocker ∈ state'.result.blockers,
  blocker ∈ state.result.blockers ∨ blocker.runId = "" ∨ ∃ unit, (unit, blocker.runId) ∈ state.unitBindings

theorem recoverUnit_name (host : Host) (state : State) (unit : String) :
    UnitsName state (recoverUnit host state unit) := by
  have hconcat : ∀ added : Blocker, (added.runId = "" ∨ ∃ unit, (unit, added.runId) ∈ state.unitBindings) →
      ∀ blocker ∈ state.result.blockers ++ [added], blocker ∈ state.result.blockers ∨
        blocker.runId = "" ∨ ∃ unit, (unit, blocker.runId) ∈ state.unitBindings := by
    intro added hadded blocker hblocker
    rcases List.mem_append.1 hblocker with hblocker | hblocker
    · exact .inl hblocker
    · rw [List.mem_singleton.1 hblocker]
      exact .inr hadded
  unfold recoverUnit
  split
  · rename_i id hlookup
    dsimp only
    split_ifs
    · exact fun _ h => .inl h
    · exact hconcat _ (.inr ⟨unit, mem_of_lookup_eq_some hlookup⟩)
  · dsimp only
    split_ifs
    · exact hconcat _ (.inl rfl)
    · exact fun _ h => .inl h
    · exact hconcat _ (.inl rfl)

theorem foldl_recoverUnit_name (host : Host) (units : List String) (state : State) :
    UnitsName state (units.foldl (recoverUnit host) state) := by
  induction units generalizing state with
  | nil => exact fun _ h => .inl h
  | cons unit units ih =>
      intro blocker hblocker
      have hbindings : (recoverUnit host state unit).unitBindings = state.unitBindings := by
        have hstep := recoverUnit_step host state unit
        exact hstep.keep.bindings
      rcases ih (recoverUnit host state unit) blocker hblocker with hblocker | hnames
      · exact recoverUnit_name host state unit blocker hblocker
      · rw [hbindings] at hnames
        exact .inr hnames

theorem recoverUnits_name (host : Host) (state : State) : UnitsName state (recoverUnits host state) := by
  unfold recoverUnits
  split
  · intro blocker hblocker
    rcases List.mem_append.1 hblocker with hblocker | hblocker
    · exact .inl hblocker
    · rw [List.mem_singleton.1 hblocker]
      exact .inr (.inl rfl)
  · exact foldl_recoverUnit_name host _ state

/-! ## The whole -/

theorem foldl_inventoryError_name (errors : List (RunId × String)) (state : State) :
    let state' := errors.foldl State.inventoryError state
    state'.unitBindings = state.unitBindings ∧ ∀ blocker ∈ state'.result.blockers,
      blocker ∈ state.result.blockers ∨ (blocker.runId, blocker.reason) ∈ errors := by
  induction errors generalizing state with
  | nil => exact ⟨rfl, fun _ h => .inl h⟩
  | cons error errors ih =>
      obtain ⟨hbindings, hnames⟩ := ih (state.inventoryError error)
      refine ⟨hbindings, ?_⟩
      intro blocker hblocker
      rcases hnames blocker hblocker with hblocker | herror
      · rcases List.mem_append.1 hblocker with hblocker | hblocker
        · exact .inl hblocker
        · rw [List.mem_singleton.1 hblocker]
          exact .inr (by simp)
      · exact .inr (List.mem_cons_of_mem _ herror)

theorem openInventory_name (host : Host) (files : RunId → RunFile) :
    (openInventory host files).2.2.unitBindings = [] ∧
      ∀ blocker ∈ (openInventory host files).2.2.result.blockers,
        blocker.runId = "" ∨ (blocker.runId, blocker.reason) ∈ inventoryErrors host := by
  have hboot : (afterBoot host files).unitBindings = [] ∧
      ∀ blocker ∈ (afterBoot host files).result.blockers, blocker.runId = "" := by
    unfold afterBoot
    cases host.boot with
    | ok boot => exact ⟨rfl, by simp⟩
    | error message => exact ⟨rfl, by simp [State.distrust, State.block]⟩
  rw [(openInventory_eq host files).2.2]
  unfold inventoryErrors
  cases persistedRunIds host with
  | error message =>
      refine ⟨hboot.1, ?_⟩
      intro blocker hblocker
      rcases List.mem_append.1 hblocker with hblocker | hblocker
      · exact .inl (hboot.2 blocker hblocker)
      · rw [List.mem_singleton.1 hblocker]
        exact .inl rfl
  | ok inventory =>
      obtain ⟨hbindings, hnames⟩ := foldl_inventoryError_name inventory.2 (afterBoot host files)
      refine ⟨hbindings.trans hboot.1, ?_⟩
      intro blocker hblocker
      rcases hnames blocker hblocker with hblocker | herror
      · exact .inl (hboot.2 blocker hblocker)
      · exact .inr herror

/-- Where a blocker comes from. -/
inductive BlockerOrigin (host : Host) (files : RunId → RunFile) (blocker : Blocker) : Prop
  /-- It names no Run. -/
  | general (runId_eq : blocker.runId = "")
  /-- An entry of the Runs root. -/
  | entry (error : (blocker.runId, blocker.reason) ∈ inventoryErrors host)
  /-- The recovery of the Run. -/
  | run (candidate : blocker.runId ∈ candidates host)
      (session : blocker ∈ (session host files blocker.runId).blockers)
  /-- A unit that is bound to the Run. -/
  | unit (candidate : blocker.runId ∈ candidates host)
      (session : (session host files blocker.runId).binding.isSome)

/-- Every blocker has its origin. -/
theorem recoverStartup_origin {host : Host} {files : RunId → RunFile} {result : StartupRecoveryResult}
    {state : State} (h : recoverStartup host files = (.ok result, state)) {blocker : Blocker}
    (hblocker : blocker ∈ result.blockers) : BlockerOrigin host files blocker := by
  obtain ⟨after, hruns, rfl, rfl⟩ := recoverStartup_eq_ok h
  have hfiles := (openInventory_opened host files).files_eq
  obtain ⟨hnone, hopened⟩ := openInventory_name host files
  have hadd := recoverRuns_add host (candidates host) (openInventory host files).2.2 (candidates_nodup host)
    (by rw [hruns])
  rw [hruns] at hadd
  rcases recoverUnits_name host after blocker hblocker with hblocker | hgeneral | ⟨unit, hbound⟩
  · rcases hadd.blockers blocker hblocker with hblocker | ⟨id, hid, hsession⟩
    · rcases hopened blocker hblocker with hgeneral | herror
      · exact .general hgeneral
      · exact .entry herror
    · rw [hfiles] at hsession
      obtain rfl : blocker.runId = id := recoverRun_names (host.runs id) id _ (files id) blocker hsession
      exact .run hid hsession
  · exact .general hgeneral
  · rcases hadd.bindings (unit, blocker.runId) hbound with hbinding | ⟨hid, hbinding⟩
    · rw [hnone] at hbinding
      cases hbinding
    · rw [hfiles] at hbinding
      exact .unit hid (by rw [hbinding]; rfl)

end DebBuilder.Recovery
