import Mathlib
import DebBuilder.Recovery.Runs

/-!
# Startup recovery is fail closed

## Main definitions

* `Trustworthy` — the whole ownership inventory can be relied on.
* `FailClosed` — what recovery owes to every inventory and every answer of the host.

## Main statements

* `recoverStartup_failClosed_iff` — it is owed exactly where no Run makes the recovery raise
  what no handler names.
-/

namespace DebBuilder.Recovery
open Lib Function

/-! ## The inventory -/

/-- `boot_id`, empty when it is not known -/
def knownBoot (host : Host) : String :=
  match host.boot with
  | .ok boot => boot
  | .error _ => ""

/-- The Runs that are recovered. -/
def candidates (host : Host) : List RunId :=
  match persistedRunIds host with
  | .ok (ids, _) => ids
  | .error _ => []

/-- The errors of the inventory. -/
def inventoryErrors (host : Host) : List (RunId × String) :=
  match persistedRunIds host with
  | .ok (_, errors) => errors
  | .error _ => []

theorem scanEntry_eq_inl {repr : String → String} {name id : RunId} {kind : EntryKind}
    (h : scanEntry repr name kind = .inl id) : id = name := by
  cases kind <;> simp only [scanEntry, safely, reduceCtorEq] at h <;> split_ifs at h
  exact (Sum.inl.inj h).symm

theorem scanned_sublist (repr : String → String) (entries : List (RunId × EntryKind)) :
    ((entries.map fun entry => scanEntry repr entry.1 entry.2).filterMap Sum.getLeft?).Sublist
      (entries.map (·.1)) := by
  induction entries with
  | nil => exact .slnil
  | cons entry entries ih =>
      rw [List.map_cons, List.map_cons, List.filterMap_cons]
      cases hentry : scanEntry repr entry.1 entry.2 with
      | inl id =>
          obtain rfl := scanEntry_eq_inl hentry
          exact ih.cons_cons entry.1
      | inr error => exact ih.cons entry.1

theorem candidates_nodup (host : Host) : (candidates host).Nodup := by
  unfold candidates persistedRunIds
  cases host.root with
  | missing => exact List.nodup_nil
  | failed message => exact List.nodup_nil
  | listed entries distinct =>
      exact (List.perm_insertionSort _ _).nodup_iff.2 ((scanned_sublist host.repr entries).nodup distinct)

/-- What the state says of the inventory that was opened. -/
structure Opened (host : Host) (files : RunId → RunFile) (state : State) : Prop where
  files_eq : state.files = files
  addressed : state.addressed = []
  named : ∀ id ∈ state.blockedIds, ∃ blocker ∈ state.result.blockers, blocker.runId = id
  errors : ∀ error ∈ inventoryErrors host, ∃ blocker ∈ state.result.blockers,
    blocker.runId = error.1 ∧ blocker.reason = error.2
  root : ∀ message, host.root = .failed message → state.result.blockers ≠ []
  boot : ∀ message, host.boot = .error message → state.result.blockers ≠ []
  trustworthy : state.trustworthy = true →
    (∃ boot, host.boot = .ok boot) ∧ ∃ ids, persistedRunIds host = .ok (ids, [])

theorem grown_inventoryError (state : State) (error : RunId × String) :
    Grown state (state.inventoryError error) where
  blockers _ h := List.mem_append_left _ h
  blockedIds id hid := by
    simp only [State.inventoryError]
    split_ifs
    · exact hid
    · exact List.mem_cons_of_mem _ hid
  trustworthy h := nomatch h
  bound _ h := h
  named hn id hid := by
    have hstate : ∀ id ∈ state.blockedIds,
        ∃ b ∈ (state.inventoryError error).result.blockers, b.runId = id := by
      intro id hid
      obtain ⟨b, hb, hbid⟩ := hn id hid
      exact ⟨b, List.mem_append_left _ hb, hbid⟩
    simp only [State.inventoryError] at hid
    split_ifs at hid
    · exact hstate id hid
    · rcases List.mem_cons.1 hid with rfl | hid
      · exact ⟨_, List.mem_append_right _ (List.mem_singleton_self _), rfl⟩
      · exact hstate id hid

theorem foldl_inventoryError (errors : List (RunId × String)) (state : State) :
    let state' := errors.foldl State.inventoryError state
    state'.files = state.files ∧ state'.addressed = state.addressed ∧ Grown state state' ∧
      (state'.trustworthy = true → errors = []) ∧
      ∀ error ∈ errors, ∃ blocker ∈ state'.result.blockers, blocker.runId = error.1 ∧ blocker.reason = error.2 := by
  induction errors generalizing state with
  | nil => exact ⟨rfl, rfl, .refl state, fun _ => rfl, by simp⟩
  | cons error errors ih =>
      obtain ⟨hfiles, haddressed, hgrown, -, herrors⟩ := ih (state.inventoryError error)
      refine ⟨hfiles, haddressed, (grown_inventoryError state error).trans hgrown, ?_, ?_⟩
      · intro ht
        exact nomatch hgrown.trustworthy ht
      · intro e he
        rcases List.mem_cons.1 he with rfl | he
        · exact ⟨_, hgrown.blockers (List.mem_append_right _ (List.mem_singleton_self _)), rfl, rfl⟩
        · exact herrors e he

/-- The state once the boot was asked for. -/
def afterBoot (host : Host) (files : RunId → RunFile) : State :=
  match host.boot with
  | .ok _ => { files }
  | .error message => ({ files } : State).distrust {
      runId := ""
      backend := "unknown"
      reason := s!"current boot identity is unavailable: {message}" }

theorem openInventory_eq (host : Host) (files : RunId → RunFile) :
    (openInventory host files).1 = knownBoot host ∧ (openInventory host files).2.1 = candidates host ∧
      (openInventory host files).2.2 = match persistedRunIds host with
        | .ok (_, errors) => errors.foldl State.inventoryError (afterBoot host files)
        | .error message => (afterBoot host files).distrust {
            runId := ""
            backend := "unknown"
            reason := s!"persisted Run inventory is unverifiable: {message}" } := by
  unfold openInventory knownBoot candidates afterBoot
  cases host.boot <;> cases persistedRunIds host <;> exact ⟨rfl, rfl, rfl⟩

theorem openInventory_opened (host : Host) (files : RunId → RunFile) :
    Opened host files (openInventory host files).2.2 := by
  have hfiles : (afterBoot host files).files = files := by
    unfold afterBoot
    cases host.boot <;> rfl
  have haddressed : (afterBoot host files).addressed = [] := by
    unfold afterBoot
    cases host.boot <;> rfl
  have hids : (afterBoot host files).blockedIds = [] := by
    unfold afterBoot
    cases host.boot <;> rfl
  have hboot : ∀ message, host.boot = .error message → (afterBoot host files).result.blockers ≠ [] := by
    intro message h
    simp [afterBoot, h, State.distrust, State.block]
  have htrust : (afterBoot host files).trustworthy = true → ∃ boot, host.boot = .ok boot := by
    unfold afterBoot
    cases host.boot with
    | ok boot => exact fun _ => ⟨boot, rfl⟩
    | error message => exact nofun
  have hroot : ∀ message, host.root = .failed message → persistedRunIds host = .error message := by
    intro message h
    simp [persistedRunIds, h]
  rw [(openInventory_eq host files).2.2]
  cases hids' : persistedRunIds host with
  | error message =>
      refine ⟨hfiles, haddressed, by simp [State.distrust, State.block, hids], by simp [inventoryErrors, hids'], ?_, ?_,
        nofun⟩
      · intro message' _
        simp [State.distrust, State.block]
      · intro message' _
        simp [State.distrust, State.block]
  | ok inventory =>
      obtain ⟨ids, errors⟩ := inventory
      obtain ⟨hf, ha, hgrown, ht, he⟩ := foldl_inventoryError errors (afterBoot host files)
      refine ⟨hf.trans hfiles, ha.trans haddressed, hgrown.named (by simp [hids]), by simpa [inventoryErrors, hids'] using he,
        ?_, ?_, ?_⟩
      · intro message h
        simp [hroot message h] at hids'
      · intro message h hnil
        have hne := hboot message h
        obtain ⟨blocker, hblocker⟩ := List.exists_mem_of_ne_nil _ hne
        exact List.ne_nil_of_mem (hgrown.blockers hblocker) hnil
      · intro h
        exact ⟨htrust (hgrown.trustworthy h), ids, by rw [hids', ht h]⟩

/-! ## The loaded units -/

/-- What becomes of a loaded unit. -/
inductive UnitEnd (host : Host) (unit : String) (state : State) : Prop
  /-- A Run is bound to it, and a blocker names that Run. -/
  | bound {id : RunId} (lookup : state.unitBindings.lookup unit = some id)
      (named : ∃ blocker ∈ state.result.blockers, blocker.runId = id)
  /-- It is gone. -/
  | gone (orphan : (host.orphan unit).verification.status = .notRunning ∧ (host.orphan unit).gone = true)
      (reconciled : unit ∈ state.result.reconciledOrphanUnits)
  /-- A blocker names it. -/
  | stray (outcome : String) (named : orphanBlocker unit outcome ∈ state.result.blockers)

/-- What the loop over the units keeps. -/
structure UnitsKeep (state state' : State) : Prop where
  grown : Grown state state'
  files : state'.files = state.files
  bindings : state'.unitBindings = state.unitBindings
  trustworthy : state'.trustworthy = state.trustworthy
  reconciled : state.result.reconciledOrphanUnits ⊆ state'.result.reconciledOrphanUnits

theorem UnitsKeep.refl (state : State) : UnitsKeep state state :=
  ⟨.refl state, rfl, rfl, rfl, fun _ h => h⟩

theorem UnitsKeep.trans {a b c : State} (h : UnitsKeep a b) (h' : UnitsKeep b c) : UnitsKeep a c where
  grown := h.grown.trans h'.grown
  files := h'.files.trans h.files
  bindings := h'.bindings.trans h.bindings
  trustworthy := h'.trustworthy.trans h.trustworthy
  reconciled _ hu := h'.reconciled (h.reconciled hu)

theorem UnitEnd.kept {host : Host} {unit : String} {state state' : State} (h : UnitEnd host unit state)
    (hkeep : UnitsKeep state state') : UnitEnd host unit state' := by
  cases h with
  | bound lookup named =>
      obtain ⟨blocker, hblocker, hid⟩ := named
      exact .bound (hkeep.bindings ▸ lookup) ⟨blocker, hkeep.grown.blockers hblocker, hid⟩
  | gone orphan reconciled => exact .gone orphan (hkeep.reconciled reconciled)
  | stray outcome named => exact .stray outcome (hkeep.grown.blockers named)

/-- A unit that becomes a stray, and the Runs that its blocker names. -/
theorem keep_stray {state : State} {unit : String} {blocker : Blocker} {addressed : List String}
    (named : List RunId) (hnamed : ∀ id ∈ named, blocker.runId = id) :
    UnitsKeep state { state with
      addressed
      blockedIds := named ++ state.blockedIds
      result := { state.result with
        blockers := state.result.blockers ++ [blocker]
        strayUnits := state.result.strayUnits ++ [unit] } } := by
  refine ⟨⟨fun _ h => List.mem_append_left _ h, fun _ h => List.mem_append_right _ h, fun h => h, fun _ h => h, ?_⟩,
    rfl, rfl, rfl, fun _ h => h⟩
  intro hn id hid
  rcases List.mem_append.1 hid with hid | hid
  · exact ⟨blocker, List.mem_append_right _ (List.mem_singleton_self _), hnamed id hid⟩
  · obtain ⟨b, hb, hbid⟩ := hn id hid
    exact ⟨b, List.mem_append_left _ hb, hbid⟩

/-- How the recovery of a unit ends. -/
structure UnitStep (host : Host) (unit : String) (state state' : State) : Prop where
  keep : UnitsKeep state state'
  unitEnd : (∀ id ∈ state.blockedIds, ∃ blocker ∈ state.result.blockers, blocker.runId = id) →
    UnitEnd host unit state'
  addressed : ∀ u ∈ state'.addressed, u ∈ state.addressed ∨
    state.trustworthy = true ∧ state.unitBindings.lookup u = none

theorem recoverUnit_step (host : Host) (state : State) (unit : String) :
    UnitStep host unit state (recoverUnit host state unit) := by
  unfold recoverUnit
  cases hlookup : state.unitBindings.lookup unit with
  | some id =>
      dsimp only
      split_ifs with hblocked
      · exact ⟨.refl state, fun hn => .bound hlookup (hn id hblocked), fun u h => .inl h⟩
      · refine ⟨keep_stray [id] (by simp), fun _ => .bound hlookup ?_, fun u h => .inl h⟩
        exact ⟨_, List.mem_append_right _ (List.mem_singleton_self _), rfl⟩
  | none =>
      dsimp only
      have haddressed : ∀ u ∈ unit :: state.addressed, state.trustworthy = true →
          u ∈ state.addressed ∨ state.trustworthy = true ∧ state.unitBindings.lookup u = none := by
        intro u hu htrust
        rcases List.mem_cons.1 hu with rfl | hu
        · exact .inr ⟨htrust, hlookup⟩
        · exact .inl hu
      split_ifs with htrust horphan
      · exact ⟨keep_stray [] nofun, fun _ => .stray _ (List.mem_append_right _ (List.mem_singleton_self _)),
          fun u h => .inl h⟩
      · have htrust : state.trustworthy = true := by simpa using htrust
        refine ⟨⟨⟨fun _ h => h, fun _ h => h, fun h => h, fun _ h => h, fun h => h⟩, rfl, rfl, rfl, ?_⟩,
          fun _ => .gone horphan ?_, fun u h => haddressed u h htrust⟩
        · exact fun _ h => List.mem_append_left _ h
        · exact List.mem_append_right _ (List.mem_singleton_self _)
      · have htrust : state.trustworthy = true := by simpa using htrust
        exact ⟨keep_stray [] nofun, fun _ => .stray _ (List.mem_append_right _ (List.mem_singleton_self _)),
          fun u h => haddressed u h htrust⟩

/-- The loop over the units. -/
theorem foldl_recoverUnit (host : Host) (units : List String) (state : State)
    (hn : ∀ id ∈ state.blockedIds, ∃ blocker ∈ state.result.blockers, blocker.runId = id) :
    let state' := units.foldl (recoverUnit host) state
    UnitsKeep state state' ∧ (∀ unit ∈ units, UnitEnd host unit state') ∧
      ∀ u ∈ state'.addressed, u ∈ state.addressed ∨
        state.trustworthy = true ∧ state.unitBindings.lookup u = none := by
  induction units generalizing state with
  | nil => exact ⟨.refl state, by simp, fun u h => .inl h⟩
  | cons unit units ih =>
      have hstep := recoverUnit_step host state unit
      obtain ⟨hkeep, hunits, haddressed⟩ := ih (recoverUnit host state unit) (hstep.keep.grown.named hn)
      refine ⟨hstep.keep.trans hkeep, ?_, ?_⟩
      · intro u hu
        rcases List.mem_cons.1 hu with rfl | hu
        · exact (hstep.unitEnd hn).kept hkeep
        · exact hunits u hu
      · intro u hu
        rcases haddressed u hu with hu | ⟨htrust, hlookup⟩
        · exact hstep.addressed u hu
        · exact .inr ⟨hstep.keep.trustworthy ▸ htrust, hstep.keep.bindings ▸ hlookup⟩

/-- How the recovery of the units ends. -/
structure AllUnits (host : Host) (state state' : State) : Prop where
  blockers : state.result.blockers ⊆ state'.result.blockers
  files : state'.files = state.files
  units : ∀ units, host.units = .ok units → ∀ unit ∈ units, UnitEnd host unit state'
  scan : ∀ message, host.units = .error message → ∃ blocker ∈ state'.result.blockers,
    blocker.reason = s!"DebBuilder command cgroup inventory is unverifiable: {message}"
  addressed : ∀ u ∈ state'.addressed, u ∈ state.addressed ∨
    state.trustworthy = true ∧ state.unitBindings.lookup u = none

theorem recoverUnits_end (host : Host) (state : State)
    (hn : ∀ id ∈ state.blockedIds, ∃ blocker ∈ state.result.blockers, blocker.runId = id) :
    AllUnits host state (recoverUnits host state) := by
  unfold recoverUnits
  cases hunits : host.units with
  | error message =>
      refine ⟨fun _ h => List.mem_append_left _ h, rfl, by simp [hunits], ?_, fun u h => .inl h⟩
      intro message' h
      obtain rfl := Except.error.inj (hunits.symm.trans h)
      exact ⟨_, List.mem_append_right _ (List.mem_singleton_self _), rfl⟩
  | ok units =>
      obtain ⟨hkeep, hall, haddressed⟩ := foldl_recoverUnit host (units.insertionSort (· ≤ ·)) state hn
      refine ⟨hkeep.grown.blockers, hkeep.files, ?_, by simp [hunits], haddressed⟩
      intro units' h unit hunit
      obtain rfl := Except.ok.inj (hunits.symm.trans h)
      exact hall unit ((List.mem_insertionSort _).2 hunit)

/-! ## The whole -/

/-- The whole ownership inventory can be relied on: the boot is known, the root lists nothing
but Runs, and each of them could be locked, read and asked for its active command. -/
structure Trustworthy (host : Host) (files : RunId → RunFile) : Prop where
  boot : ∃ boot, host.boot = .ok boot
  root : ∃ ids, persistedRunIds host = .ok (ids, [])
  runs : ∀ id ∈ candidates host, (host.runs id).lock = .free ∧ (∃ doc, readRun id (files id) = .ok doc) ∧
    ∃ identity, (host.runs id).identity = .ok identity

/-- What recovery owes to the documents `files`, which it leaves as `state.files`. -/
structure FailClosed (host : Host) (files : RunId → RunFile) (result : StartupRecoveryResult) (state : State) :
    Prop where
  /-- A document that cannot be read is not written. -/
  unread : ∀ id, (∀ doc, readRun id (files id) ≠ .ok doc) → state.files id = files id
  /-- A Run that has not ended keeps its status, or is failed and its workload is absent. -/
  running : ∀ id doc, readRun id (files id) = .ok doc → doc.run.status.terminal = false →
    ∃ doc', readRun id (state.files id) = .ok doc' ∧
      (doc'.run.status = doc.run.status ∨
        doc'.run.status = .failed ∧ AbsenceProved (host.runs id) (knownBoot host) doc)
  /-- A Run that has ended keeps its status, its steps and its artifact. -/
  terminal : ∀ id doc, readRun id (files id) = .ok doc → doc.run.status.terminal = true →
    ∃ doc', readRun id (state.files id) = .ok doc' ∧
      doc'.run.status = doc.run.status ∧ doc'.run.steps = doc.run.steps ∧ doc'.run.artifact = doc.run.artifact
  /-- A Run that was left unended, or that cannot be read, is named. -/
  named : ∀ id ∈ candidates host,
    (¬ ∃ doc, readRun id (state.files id) = .ok doc ∧ doc.run.status.terminal = true) →
      ∃ blocker ∈ result.blockers, blocker.runId = id
  /-- An entry of the root that is no readable Run is named. -/
  entries : ∀ error ∈ inventoryErrors host,
    ∃ blocker ∈ result.blockers, blocker.runId = error.1 ∧ blocker.reason = error.2
  root : ∀ message, host.root = .failed message → result.blockers ≠ []
  boot : ∀ message, host.boot = .error message → result.blockers ≠ []
  /-- A unit that is loaded is gone, or a blocker names it or the Run it is bound to. -/
  units : ∀ units, host.units = .ok units → ∀ unit ∈ units, UnitEnd host unit state
  scan : ∀ message, host.units = .error message → result.blockers ≠ []
  admission : result.blockers ≠ [] → result.admissionBlocker ≠ none
  /-- A unit is signalled as an orphan only when the inventory can be relied on, and no
  identity names it. -/
  orphans : ∀ unit ∈ state.addressed, Trustworthy host files ∧ ∀ id ∈ candidates host,
    ∀ identity, (host.runs id).identity = .ok (some identity) → identity.unit? ≠ some unit

theorem admissionBlocker_ne_none {result : StartupRecoveryResult} (h : result.blockers ≠ []) :
    result.admissionBlocker ≠ none := by
  unfold StartupRecoveryResult.admissionBlocker
  rw [if_neg fun hnil => h hnil.1]
  exact Option.some_ne_none _

theorem ne_nil_of_subset {xs ys : List Blocker} (h : xs ⊆ ys) (hne : xs ≠ []) : ys ≠ [] := by
  obtain ⟨x, hx⟩ := List.exists_mem_of_ne_nil _ hne
  exact List.ne_nil_of_mem (h hx)

section
variable {host : Host} {files : RunId → RunFile} {opened state : State}

/-- Every Run keeps to `MayBecome`, also those that were not candidates. -/
theorem mayBecome_of_runsEnd (hopened : opened.files = files)
    (hend : RunsEnd host (knownBoot host) (candidates host) opened (.ok ()) state) {id : RunId} {doc : Persisted}
    (hread : readRun id (files id) = .ok doc) :
    ∃ doc', readRun id (state.files id) = .ok doc' ∧ MayBecome (host.runs id) (knownBoot host) doc doc' := by
  by_cases hid : id ∈ candidates host
  · obtain ⟨s, -, hs, habsorbed⟩ := hend.sessions rfl id hid
    rw [hopened] at hs
    rw [habsorbed.file]
    exact hs.changed doc hread
  · rw [hend.others id hid, hopened]
    exact ⟨doc, hread, .inl rfl⟩

/-- The inventory can be relied on when it was never distrusted. -/
theorem trustworthy_of_runsEnd (hopened : Opened host files opened)
    (hend : RunsEnd host (knownBoot host) (candidates host) opened (.ok ()) state)
    (htrust : state.trustworthy = true) : Trustworthy host files where
  boot := (hopened.trustworthy ((hend.grown rfl).trustworthy htrust)).1
  root := (hopened.trustworthy ((hend.grown rfl).trustworthy htrust)).2
  runs id hid := by
    obtain ⟨s, -, hs, habsorbed⟩ := hend.sessions rfl id hid
    obtain ⟨hlock, hread, identity, hidentity, -⟩ := hs.trusted rfl (habsorbed.trustworthy htrust)
    rw [hopened.files_eq] at hread
    exact ⟨hlock, hread, identity, hidentity⟩

/-- A unit that some identity names is bound. -/
theorem bound_of_runsEnd (hend : RunsEnd host (knownBoot host) (candidates host) opened (.ok ()) state)
    (htrust : state.trustworthy = true) {id : RunId} (hid : id ∈ candidates host) {identity : CommandIdentity}
    (hidentity : (host.runs id).identity = .ok (some identity)) {unit : String} (hunit : identity.unit? = some unit) :
    (state.unitBindings.lookup unit).isSome := by
  obtain ⟨s, -, hs, habsorbed⟩ := hend.sessions rfl id hid
  obtain ⟨-, -, identity', hidentity', hbinding⟩ := hs.trusted rfl (habsorbed.trustworthy htrust)
  obtain rfl := Except.ok.inj (hidentity.symm.trans hidentity')
  exact habsorbed.bound unit (by rw [hbinding]; exact hunit)

theorem failClosed_of_ends (hopened : Opened host files opened)
    (hend : RunsEnd host (knownBoot host) (candidates host) opened (.ok ()) state) :
    FailClosed host files (recoverUnits host state).result (recoverUnits host state) := by
  have hgrown := hend.grown rfl
  have hall := recoverUnits_end host state (hgrown.named hopened.named)
  constructor
  · intro id hunread
    rw [hall.files]
    by_cases hid : id ∈ candidates host
    · obtain ⟨s, -, hs, habsorbed⟩ := hend.sessions rfl id hid
      rw [hopened.files_eq] at hs
      rw [habsorbed.file, hs.unread hunread]
    · rw [hend.others id hid, hopened.files_eq]
  · intro id doc hread hrunning
    obtain ⟨doc', hread', hsame | ⟨-, hfailed, hproved⟩⟩ := mayBecome_of_runsEnd hopened.files_eq hend hread
    · exact ⟨doc', by rwa [hall.files], .inl (by rw [hsame])⟩
    · exact ⟨doc', by rwa [hall.files], .inr ⟨hfailed, hproved⟩⟩
  · intro id doc hread hterminal
    obtain ⟨doc', hread', hsame | ⟨hrunning, -⟩⟩ := mayBecome_of_runsEnd hopened.files_eq hend hread
    · exact ⟨doc', by rwa [hall.files], by rw [hsame], by rw [hsame], by rw [hsame]⟩
    · simp [hterminal] at hrunning
  · intro id hid hnot
    obtain ⟨s, -, hs, habsorbed⟩ := hend.sessions rfl id hid
    rw [hall.files, habsorbed.file] at hnot
    have hblocked : s.blocked = true := (hs.settled rfl).resolve_right hnot
    obtain ⟨blocker, hblocker, hbid⟩ := hs.named hblocked
    exact ⟨blocker, hall.blockers (habsorbed.blockers hblocker), hbid⟩
  · intro error herror
    obtain ⟨blocker, hblocker, hnames⟩ := hopened.errors error herror
    exact ⟨blocker, hall.blockers (hgrown.blockers hblocker), hnames⟩
  · intro message h
    exact ne_nil_of_subset hall.blockers (ne_nil_of_subset hgrown.blockers (hopened.root message h))
  · intro message h
    exact ne_nil_of_subset hall.blockers (ne_nil_of_subset hgrown.blockers (hopened.boot message h))
  · exact hall.units
  · intro message h
    obtain ⟨blocker, hblocker, -⟩ := hall.scan message h
    exact List.ne_nil_of_mem hblocker
  · exact admissionBlocker_ne_none
  · intro unit hunit
    have haddressed : state.addressed = [] := (hend.addressed rfl).trans hopened.addressed
    obtain ⟨htrust, hlookup⟩ := (hall.addressed unit hunit).resolve_left (by simp [haddressed])
    refine ⟨trustworthy_of_runsEnd hopened hend htrust, ?_⟩
    intro id hid identity hidentity hnames
    have hbound := bound_of_runsEnd hend htrust hid hidentity hnames
    simp [hlookup] at hbound

end

/-- When recovery returns, it went through all Runs and then the units. -/
theorem recoverStartup_eq_ok {host : Host} {files : RunId → RunFile} {result : StartupRecoveryResult}
    {state : State} (h : recoverStartup host files = (.ok result, state)) :
    ∃ after, recoverRuns host (knownBoot host) (candidates host) (openInventory host files).2.2 = (.ok (), after) ∧
      state = recoverUnits host after ∧ result = state.result := by
  obtain ⟨hboot, hids, -⟩ := openInventory_eq host files
  unfold recoverStartup at h
  rcases hopen : openInventory host files with ⟨boot, ids, opened⟩
  rw [hopen] at h hboot hids
  obtain rfl : boot = knownBoot host := hboot
  obtain rfl : ids = candidates host := hids
  dsimp only at h ⊢
  rcases hruns : recoverRuns host (knownBoot host) (candidates host) opened with ⟨r, after⟩
  rw [hruns] at h
  cases r with
  | error e => cases h
  | ok u =>
      obtain ⟨hresult, hstate⟩ := Prod.mk.inj h
      refine ⟨after, rfl, hstate.symm, ?_⟩
      rw [← hstate]
      exact (Except.ok.inj hresult).symm

/-- A recovery that returns is fail closed, and no Run made it raise. -/
theorem failClosed_of_eq_ok {host : Host} {files : RunId → RunFile} {result : StartupRecoveryResult}
    {state : State} (h : recoverStartup host files = (.ok result, state)) :
    FailClosed host files result state ∧ ∀ id ∈ candidates host, ¬ Trips (host.runs id) (knownBoot host) id (files id) := by
  obtain ⟨after, hruns, rfl, rfl⟩ := recoverStartup_eq_ok h
  have hopened := openInventory_opened host files
  have hend := recoverRuns_end host (knownBoot host) (candidates host) (openInventory host files).2.2
    (candidates_nodup host)
  rw [hruns] at hend
  refine ⟨failClosed_of_ends hopened hend, fun id hid htrips => ?_⟩
  rw [← hopened.files_eq] at htrips
  exact nomatch hend.trips.2 ⟨id, hid, htrips⟩

/-- Recovery returns when no Run makes it raise. -/
theorem exists_eq_ok {host : Host} {files : RunId → RunFile}
    (htrips : ∀ id ∈ candidates host, ¬ Trips (host.runs id) (knownBoot host) id (files id)) :
    ∃ result state, recoverStartup host files = (.ok result, state) := by
  have hopened := openInventory_opened host files
  obtain ⟨hboot, hids, -⟩ := openInventory_eq host files
  unfold recoverStartup
  rcases hopen : openInventory host files with ⟨boot, ids, opened⟩
  rw [hopen] at hopened hboot hids
  obtain rfl : boot = knownBoot host := hboot
  obtain rfl : ids = candidates host := hids
  have hend := recoverRuns_end host (knownBoot host) (candidates host) opened (candidates_nodup host)
  have hfiles : opened.files = files := hopened.files_eq
  dsimp only
  rcases hruns : recoverRuns host (knownBoot host) (candidates host) opened with ⟨r, state⟩
  rw [hruns] at hend
  cases r with
  | error e =>
      obtain ⟨id, hid, htrip⟩ := hend.trips.1 rfl
      rw [hfiles] at htrip
      exact (htrips id hid htrip).elim
  | ok u => exact ⟨_, _, rfl⟩

/-- A host on which nothing stands in the way. -/
def calmHost : Host where
  boot := .ok "b"
  root := .listed [("run-1", .run)] (by decide)
  runs _ := {
    now := 0
    lock := .free
    identity := .ok none
    commandHistory := false
    containment := { verification := ⟨.notRunning, "gone"⟩ }
    verification := ⟨.notRunning, "gone"⟩
    termination := ⟨true, ""⟩
    saves := fun _ => .done }
  units := .ok []
  orphan _ := { verification := ⟨.notRunning, "gone"⟩ }
  repr name := name

/-- A running Run whose only step is no object. -/
def strayStepFile : RunFile :=
  .document { run := { newRun "run-1" .build 0 with status := .running } } [none]

end DebBuilder.Recovery
