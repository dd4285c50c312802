import Mathlib
import DebBuilder.Automation.Invariant
import DebBuilder.Lib.Lease

/-!
# Every section keeps the invariant

The lease of automation: a thread that holds the lock of a generation owns its row.  For
each section of the orchestrator, of the detector, of the operators and of the workers,
what it does to the state and to the row that its thread holds.

## Main definitions

* `lease` — the rows as the parts of a lease.
* `Turn` — the row was first in its Recipe when its holder looked.
* `State.ask_spec` — a call of the ledger for the row that the thread holds.
-/

namespace DebBuilder.Automation
open Function Lib

variable {cfg : Config} {s s' : State cfg} {slot : Slot} {a : Attempt} {row row' : Row} {c : Choice}
  {r : RunId}

/-- A thread that holds the lock of a generation owns its row. -/
def lease (cfg : Config) : Lease (State cfg) Slot (Attempt × Row) where
  own s slot := s.row? slot
  Taken s slot := s.locks slot = true
  Inv := Inv
  Evolves := Evolves
  refl := Evolves.refl
  trans := Evolves.trans

/-! ## Changes that leave the ledger alone -/

/-- The ledger and the records of the past are the same. -/
structure Untouched (s s' : State cfg) : Prop where
  ledger : s'.ledger = s.ledger
  created : s'.created = s.created
  owners : s'.owners = s.owners
  issued : s'.issued = s.issued
  claims : s'.claims = s.claims
  retries : s'.retries = s.retries
  births : s'.births = s.births

theorem Untouched.evolves (h : Untouched s s')
    (hruns : ∀ r doc, s.store r = .run doc → ∃ doc', s'.store r = .run doc' ∧ RunLater doc doc')
    (hattempts : ∀ r id a, s.attempt? r id = some a →
      ∃ a', s'.attempt? r id = some a' ∧ (a.status.active = false → a'.status = a.status)) :
    Evolves s s' where
  rows slot a row hrow := ⟨row, by rw [State.row?, h.ledger]; exact hrow, .refl row⟩
  runs := hruns
  attempts := hattempts
  births := h.births ▸ List.suffix_rfl
  created := h.created ▸ List.suffix_rfl
  owners := h.owners ▸ List.suffix_rfl

theorem RunInv.later {attempts : List Entry} {created : List (Slot × RunId)} {old new : Run}
    (h : RunInv attempts created r old) (hlater : RunLater old new) : RunInv attempts created r new where
  id := hlater.id.trans h.id
  automated m hm := by
    obtain ⟨hcreated, b, rb, hb, hbelongs, hpending⟩ := h.automated m (hlater.automation ▸ hm)
    exact ⟨hcreated, b, rb, hb, hbelongs, fun hp => hpending (hlater.pending hp)⟩

theorem CreatedInv.evolve (h : CreatedInv s.store s.created) (hev : Evolves s s') :
    CreatedInv s'.store s.created where
  once := h.once
  there slot r hmem := by
    obtain ⟨doc, m, hdoc, hm, hslot⟩ := h.there slot r hmem
    obtain ⟨doc', hdoc', hlater⟩ := hev.runs r doc hdoc
    exact ⟨doc', m, hdoc', hlater.automation.trans hm, hslot⟩

theorem OwnersInv.evolve (h : OwnersInv s.ledger.attempts s.store s.owners) (hev : Evolves s s') :
    OwnersInv s.ledger.attempts s'.store s.owners := by
  intro slot r status hmem
  obtain ⟨hstatus, b, rb, doc, hb, hdoc, hshare⟩ := h slot r status hmem
  obtain ⟨doc', hdoc', hlater⟩ := hev.runs r doc hdoc
  exact ⟨hstatus, b, rb, doc', hb, hdoc', by rw [hlater.sharesIdentity, hshare]⟩

/-- The invariant after a change of the Runs and of the Validation attempts. -/
theorem Inv.untouched (h : Inv s) (hu : Untouched s s') (hev : Evolves s s')
    (hruns : ∀ r doc, s'.store r = .run doc → RunInv s.ledger.attempts s.created r doc) : Inv s' where
  keys := by rw [hu.ledger]; exact h.keys
  rows slot a row hrow := by
    rw [State.row?, hu.ledger] at hrow
    exact (h.rows slot a row hrow).mono hev
  runs r doc hdoc := by
    rw [hu.ledger, hu.created]
    exact hruns r doc hdoc
  created := by rw [hu.created]; exact h.created.evolve hev
  owners := by rw [hu.ledger, hu.owners]; exact h.owners.evolve hev
  issued := by rw [hu.issued]; exact h.issued
  generations := by rw [hu.ledger, hu.retries]; exact h.generations
  births := by rw [hu.ledger, hu.births]; exact h.births
  turns := by rw [hu.ledger, hu.births]; exact h.turns
  claimed := by rw [hu.ledger, hu.claims]; exact h.claimed

theorem leaves_of_ledger {others : Slot → Prop} (hledger : s'.ledger = s.ledger)
    (hlocks : s'.locks = s.locks) : (lease cfg).Leaves others s s' := fun j _ hj =>
  ⟨show s'.locks j = true by rw [hlocks]; exact hj, fun o ho =>
    show s'.row? j = some o by rw [State.row?, hledger]; exact ho⟩

/-- What a section that leaves the ledger and the locks alone does. -/
structure Quiet (s s' : State cfg) : Prop where
  inv : Inv s'
  evolves : Evolves s s'
  ledger : s'.ledger = s.ledger
  locks : s'.locks = s.locks

theorem Quiet.step (h : Quiet s s') (hlock : s.locks slot = true) : (lease cfg).Step slot s s' where
  inv := h.inv
  evolves := h.evolves
  taken := show s'.locks slot = true by rw [h.locks]; exact hlock
  leaves := leaves_of_ledger h.ledger h.locks

theorem Quiet.own (h : Quiet s s') : s'.row? slot = s.row? slot := by rw [State.row?, h.ledger]; rfl

theorem Quiet.refl (h : Inv s) : Quiet s s := ⟨h, .refl s, rfl, rfl⟩

/-- A change that touches neither the Runs nor the Validation attempts. -/
theorem Quiet.of_same (h : Inv s) (hu : Untouched s s') (hstore : s'.store = s.store)
    (hvalidations : s'.validations = s.validations) (hlocks : s'.locks = s.locks) : Quiet s s' := by
  have hev : Evolves s s' := hu.evolves
    (fun r doc hd => ⟨doc, by rw [hstore, hd], .refl doc⟩)
    (fun r id a ha => ⟨a, by rw [State.attempt?, hvalidations]; exact ha, fun _ => rfl⟩)
  exact ⟨h.untouched hu hev fun r doc hd => h.runs r doc (by rw [← hstore, hd]), hev, hu.ledger, hlocks⟩

/-- The workspace of one id changes. -/
theorem Quiet.store (h : Inv s) {w : Workspace} (hu : Untouched s s')
    (hstore : s'.store = update s.store r w) (hvalidations : s'.validations = s.validations)
    (hlocks : s'.locks = s.locks)
    (hlater : ∀ doc, s.store r = .run doc → ∃ doc', w = .run doc' ∧ RunLater doc doc')
    (hw : ∀ doc, w = .run doc → RunInv s.ledger.attempts s.created r doc) : Quiet s s' := by
  have hev := hu.evolves (fun q doc hd => ?_)
    fun q id a ha => ⟨a, by rw [State.attempt?, hvalidations]; exact ha, fun _ => rfl⟩
  · refine ⟨h.untouched hu hev fun q doc hd => ?_, hev, hu.ledger, hlocks⟩
    rw [hstore] at hd
    rcases eq_or_ne q r with rfl | hne
    · exact hw doc (by rw [← hd, update_self])
    · rw [update_of_ne hne] at hd
      exact h.runs q doc hd
  · rcases eq_or_ne q r with rfl | hne
    · obtain ⟨doc', hdoc', hl⟩ := hlater doc hd
      exact ⟨doc', by rw [hstore, update_self, hdoc'], hl⟩
    · exact ⟨doc, by rw [hstore, update_of_ne hne, hd], .refl doc⟩

/-- A Run moves on. -/
theorem Quiet.run (h : Inv s) {old new : Run} (hold : s.store r = .run old)
    (hlater : RunLater old new) : Quiet s { s with store := update s.store r (.run new) } := by
  refine .store h ⟨rfl, rfl, rfl, rfl, rfl, rfl, rfl⟩ rfl rfl rfl (fun doc hd => ?_) fun doc hd => ?_
  · rw [hold, Workspace.run.injEq] at hd
    exact ⟨new, rfl, hd ▸ hlater⟩
  · obtain rfl := Workspace.run.inj hd
    exact (h.runs r old hold).later hlater

/-- An id without a Run gets a workspace without automation metadata, or none. -/
theorem Quiet.workspace (h : Inv s) {w : Workspace} (hold : (s.store r).doc? = none)
    (hw : ∀ doc, w = .run doc → doc.id = r ∧ doc.automation = none)
    (hu : Untouched s s') (hstore : s'.store = update s.store r w)
    (hvalidations : s'.validations = s.validations) (hlocks : s'.locks = s.locks) : Quiet s s' :=
  .store h hu hstore hvalidations hlocks (fun doc hd => by simp [hd] at hold) fun doc hd =>
    ⟨(hw doc hd).1, fun m hm => by simp [(hw doc hd).2] at hm⟩

/-- The Validation attempts of a Run move on. -/
theorem Quiet.attempts (h : Inv s) {attempts : List ValidationAttempt}
    (hattempts : ∀ id a, s.attempt? r id = some a → ∃ a', attempts.find? (·.id = id) = some a' ∧
      (a.status.active = false → a'.status = a.status)) :
    Quiet s { s with validations := update s.validations r attempts } := by
  have hu : Untouched s { s with validations := update s.validations r attempts } :=
    ⟨rfl, rfl, rfl, rfl, rfl, rfl, rfl⟩
  have hev := hu.evolves (fun _ doc hd => ⟨doc, hd, .refl doc⟩) fun q id a ha => ?_
  · exact ⟨h.untouched hu hev h.runs, hev, rfl, rfl⟩
  · rcases eq_or_ne q r with rfl | hne
    · simpa [State.attempt?] using hattempts id a ha
    · exact ⟨a, by simpa [State.attempt?, update_of_ne hne] using ha, fun _ => rfl⟩

/-! ## The sections of the managers -/

theorem quiet_discard (h : Inv s) : Quiet s (s.discard c r).2 := by
  have hres : (s.discard c r).2 = { s with store := (s.store.discardIncompleteCreation r c.remove).2 } :=
    rfl
  rw [hres]
  have hsame : Quiet s { s with store := s.store } := .refl h
  unfold Store.discardIncompleteCreation
  cases hw : s.store r with
  | absent | gone | run doc => exact hsame
  | incomplete =>
      simp only
      split
      · exact .workspace h (r := r) (w := .gone) (by simp [hw, Workspace.doc?]) (by simp)
          ⟨rfl, rfl, rfl, rfl, rfl, rfl, rfl⟩ rfl rfl rfl
      · exact hsame

theorem quiet_submit (h : Inv s) : Quiet s (s.submit c r).2 := by
  unfold State.submit
  split
  · exact .refl h
  · exact .refl h
  · rename_i run hf hd
    split
    · exact .refl h
    · rename_i hp
      simp only
      split
      · refine .run h (Workspace.doc?_eq_some.1 hd) ?_
        have hp : run.status = .pending := by simpa using hp
        simp [runLater_iff, statusMayBecome, hp, RunStatus.terminal, publicationsMayBecome_refl]
      · exact .refl h

theorem find?_map_of_id {attempts : List ValidationAttempt} {f : ValidationAttempt → ValidationAttempt}
    (hf : ∀ a, (f a).id = a.id) (id : String) :
    (attempts.map f).find? (·.id = id) = (attempts.find? (·.id = id)).map f := by
  rw [List.find?_map]
  simp [Function.comp_def, hf]

theorem quiet_admitAttempt (h : Inv s) (automation : ValidationAutomation) :
    Quiet s (s.admitAttempt c r automation).2 := by
  have hadd (attempt : ValidationAttempt) : Quiet s
      { s with validations := update s.validations r (s.validations r ++ [attempt]) } :=
    .attempts h fun id a ha => ⟨a, by simp [List.find?_append, State.attempt?] at ha ⊢; simp [ha],
      fun _ => rfl⟩
  unfold State.admitAttempt
  split
  · exact .refl h
  · rename_i active hactive
    split
    · refine .attempts h fun id a ha => ?_
      rw [find?_map_of_id (by intro a; split <;> rfl), show (s.validations r).find? (·.id = id) = some a
        from ha]
      exact ⟨_, rfl, fun _ => by simp only; split <;> rfl⟩
    · exact .refl h
  · split
    · exact .refl h
    · split
      · exact .refl h
      · split
        · exact .refl h
        · simp only
          split
          · exact hadd _
          · exact hadd _

theorem publicationsMayBecome_map {ps : List Publication} {f : Publication → Publication}
    (hf : ∀ p, f p = p ∨ p.status = .running ∧ p.id = (f p).id) :
    publicationsMayBecome ps (ps.map f) = true := by
  induction ps with
  | nil => rfl
  | cons p ps ih =>
      simp only [List.map_cons, publicationsMayBecome, ih, Bool.and_true, Bool.or_eq_true,
        decide_eq_true_eq, Bool.and_eq_true]
      exact (hf p).imp Eq.symm fun h => h

theorem quiet_beginPublication (h : Inv s) : Quiet s (s.beginPublication c r).2 := by
  unfold State.beginPublication
  split
  · exact .refl h
  · rename_i run attempt hf hd hp
    refine .run h (Workspace.doc?_eq_some.1 hd) ?_
    simp [runLater_iff, statusMayBecome, publicationsMayBecome_append]
  · exact .refl h

theorem quiet_endPublication (h : Inv s) (id : String) : Quiet s (s.endPublication c r id).2 := by
  unfold State.endPublication
  split
  · exact .refl h
  · rename_i run attempt hf hd hp
    simp only
    split
    · refine .run h (Workspace.doc?_eq_some.1 hd) ?_
      simp only [runLater_iff, statusMayBecome, decide_true, Bool.true_or, implies_true, true_and]
      refine publicationsMayBecome_map fun p => ?_
      split
      · rename_i hrun
        exact .inr ⟨hrun.2, hrun.1⟩
      · exact .inl rfl
    · exact .refl h
  · exact .refl h

/-- An automated Run is created for the generation that its id was preallocated for. -/
theorem quiet_createRun (c : Choice) (recipe : Recipe) (mode : RunMode) (origin : Origin)
    {m : RunAutomation} (h : Inv s) (hrow : s.row? slot = some (a, row)) (hlive : row.live = true)
    (hslot : runSlot m = slot)
    (hbelongs : Belongs m r a row) : Quiet s (s.createRun c r recipe mode origin m).2 := by
  unfold State.createRun
  split
  · exact .refl h
  · split
    · exact .refl h
    · rename_i hdisk
      have hnone : (s.store r).doc? = none := Workspace.doc?_of_not_onDisk hdisk
      have hmade : ∀ w, (∀ doc, w ≠ .run doc) → Quiet s
          { s with
            store := update s.store r w, runIds := r :: s.runIds
            snapshots := update s.snapshots r (some recipe) } := fun w hw =>
        .workspace h hnone (fun doc hd => absurd hd (hw doc)) ⟨rfl, rfl, rfl, rfl, rfl, rfl, rfl⟩
          rfl rfl rfl
      -- the Run of the generation has the preallocated id, so there is none yet
      have hfirst : ∀ r', (slot, r') ∉ s.created := by
        intro r' hmem
        obtain ⟨doc, m', hdoc, hm', hslot'⟩ := h.created.there slot r' hmem
        obtain ⟨-, b, rb, hb, hbel, -⟩ := (h.runs r' doc hdoc).automated m' hm'
        rw [hslot', show findRow s.ledger.attempts slot = some (a, row) from hrow, Option.some.injEq,
          Prod.mk.injEq] at hb
        obtain ⟨rfl, rfl⟩ := hb
        obtain rfl := Option.some.inj (hbelongs.preallocated.symm.trans hbel.preallocated)
        simp [hdoc] at hnone
      have hcommitted : Quiet s
          { s with
            store := update s.store r (.run (State.automatedRun r recipe mode origin m c.now))
            runIds := r :: s.runIds, snapshots := update s.snapshots r (some recipe)
            created := ((m.attemptKey, m.generation), r) :: s.created } := by
        have hstore : ∀ q doc, s.store q = .run doc → q ≠ r := by
          rintro q doc hd rfl
          simp [hd] at hnone
        have hev : Evolves s
            { s with
              store := update s.store r (.run (State.automatedRun r recipe mode origin m c.now))
              runIds := r :: s.runIds, snapshots := update s.snapshots r (some recipe)
              created := ((m.attemptKey, m.generation), r) :: s.created } :=
          ⟨fun _ _ row h => ⟨row, h, .refl row⟩,
            fun q doc hd => ⟨doc, by simp [update_of_ne (hstore q doc hd), hd], .refl doc⟩,
            fun _ _ x hx => ⟨x, hx, fun _ => rfl⟩, List.suffix_rfl, List.suffix_cons .., List.suffix_rfl⟩
        refine ⟨⟨h.keys, fun slot' b rb hb => (h.rows slot' b rb hb).mono hev,
          fun q doc hd => ?_, ⟨?_, ?_⟩, h.owners.evolve hev, h.issued, h.generations, h.births,
          h.turns, h.claimed⟩, hev, rfl, rfl⟩
        · rcases eq_or_ne q r with rfl | hne
          · obtain rfl : State.automatedRun q recipe mode origin m c.now = doc := by
              simpa using hd
            refine ⟨rfl, fun m' hm' => ?_⟩
            obtain rfl : m = m' := by simpa [State.automatedRun] using hm'
            exact ⟨List.mem_cons_self, a, row, hslot ▸ hrow, hbelongs, fun _ => .inl hlive⟩
          · have hd : s.store q = .run doc := by simpa [update_of_ne hne] using hd
            obtain ⟨hid, hauto⟩ := h.runs q doc hd
            refine ⟨hid, fun m' hm' => ?_⟩
            obtain ⟨hcreated, hrest⟩ := hauto m' hm'
            exact ⟨List.mem_cons_of_mem _ hcreated, hrest⟩
        · simp only [List.map_cons, List.nodup_cons, List.mem_map]
          refine ⟨?_, h.created.once⟩
          rintro ⟨⟨slot', r'⟩, hmem, heq⟩
          exact hfirst r' (by rw [← hslot, runSlot, ← heq]; exact hmem)
        · intro slot' r' hmem
          rcases List.mem_cons.1 hmem with heq | hmem
          · obtain ⟨rfl, rfl⟩ := Prod.mk.inj heq
            exact ⟨_, m, update_self .., rfl, rfl⟩
          · exact (h.created.evolve hev).there slot' r' hmem
      cases c.create with
      | done | leftRun e => exact hcommitted
      | leftNothing e => exact hmade .gone (by simp)
      | leftDirectory e => exact hmade .incomplete (by simp)

/-- A Run that owns the identity of the row is recorded. -/
theorem quiet_owner (h : Inv s) (hrow : s.row? slot = some (a, row)) {run : Run}
    (hrun : run ∈ s.runs) (howns : ownsIdentity a row run = true) :
    Quiet s { s with owners := (slot, run.id, run.status) :: s.owners } := by
  have hev : Evolves s { s with owners := (slot, run.id, run.status) :: s.owners } :=
    ⟨fun _ _ row h => ⟨row, h, .refl row⟩, fun _ doc hd => ⟨doc, hd, .refl doc⟩,
      fun _ _ x hx => ⟨x, hx, fun _ => rfl⟩, List.suffix_rfl, List.suffix_rfl, List.suffix_cons ..⟩
  refine ⟨⟨h.keys, fun slot' b rb hb => (h.rows slot' b rb hb).mono hev,
    h.runs, h.created, ?_, h.issued, h.generations, h.births, h.turns, h.claimed⟩, hev, rfl, rfl⟩
  intro slot' r' status hmem
  rcases List.mem_cons.1 hmem with heq | hmem
  · simp only [Prod.mk.injEq] at heq
    obtain ⟨rfl, rfl, rfl⟩ := heq
    simp only [ownsIdentity, Bool.and_eq_true, decide_eq_true_eq] at howns
    simp only [State.runs, List.mem_filterMap] at hrun
    obtain ⟨q, -, hq⟩ := hrun
    have hq := Workspace.doc?_eq_some.1 hq
    exact ⟨howns.2, a, row, run, hrow, by rw [(h.runs q run hq).id]; exact hq, howns.1⟩
  · exact h.owners slot' r' status hmem

/-- An operator admits a Run of its own. -/
theorem quiet_createOwnRun (h : Inv s) {run : Run} (hdisk : (s.store r).onDisk ≠ true)
    (hid : run.id = r) (hauto : run.automation = none) :
    Quiet s { s with store := update s.store r (.run run), runIds := r :: s.runIds } :=
  .workspace h (Workspace.doc?_of_not_onDisk hdisk)
    (fun doc hd => by rw [← Workspace.run.inj hd]; exact ⟨hid, hauto⟩)
    ⟨rfl, rfl, rfl, rfl, rfl, rfl, rfl⟩ rfl rfl rfl

theorem quiet_moveRun (h : Inv s) {old new : Run} (hold : (s.store r).doc? = some old)
    (hnew : runMayBecome old new = true) : Quiet s { s with store := update s.store r (.run new) } :=
  .run h (Workspace.doc?_eq_some.1 hold) hnew

theorem find?_of_attemptsMayBecome {as bs : List ValidationAttempt}
    (h : attemptsMayBecome as bs = true) {id : String} {x : ValidationAttempt}
    (hx : as.find? (·.id = id) = some x) :
    ∃ y, bs.find? (·.id = id) = some y ∧ (x.status.active = false → y.status = x.status) := by
  induction as generalizing bs with
  | nil => simp at hx
  | cons b as ih =>
      cases bs with
      | nil => simp [attemptsMayBecome] at h
      | cons b' bs =>
          simp only [attemptsMayBecome, attemptMayBecome, Bool.and_eq_true, decide_eq_true_eq,
            Bool.or_eq_true] at h
          obtain ⟨⟨⟨⟨hid, -⟩, -⟩, hstatus⟩, hrest⟩ := h
          simp only [List.find?_cons, hid] at hx ⊢
          split at hx
          · obtain rfl := Option.some.inj hx
            refine ⟨b', rfl, fun hactive => ?_⟩
            rcases hstatus with hs | rfl
            · simp [hactive] at hs
            · rfl
          · exact ih hrest hx

theorem quiet_moveAttempts (h : Inv s) {attempts : List ValidationAttempt}
    (hattempts : attemptsMayBecome (s.validations r) attempts = true) :
    Quiet s { s with validations := update s.validations r attempts } :=
  .attempts h fun _ _ ha => find?_of_attemptsMayBecome hattempts ha

/-! ## Writing a row -/

/-- What the holder of a row may have written. -/
structure Allowed (s : State cfg) (slot : Slot) (a : Attempt) (row row' : Row) : Prop where
  later : row.Later row'
  inv : RowInv s.store s.validations s.owners slot a row'
  stop : ∀ r doc, s.store r = .run doc → doc.automation.map runSlot = some slot →
    doc.status = .pending → row.live = true ∨ row.Abandons → row'.live = true ∨ row'.Abandons
  link : row'.runId ≠ none → row.runId ≠ none ∨ (Clocked s.births → Leads s.ledger.attempts a row)

theorem evolves_put {ledger : Ledger cfg} {issued : List Issued}
    (hset : Sets s.ledger.attempts slot a row' ledger.attempts) (hrow : s.row? slot = some (a, row))
    (hlater : row.Later row') : Evolves s { s with ledger, issued } where
  rows slot' b rb hb := by
    by_cases heq : slot' = slot
    · rw [heq, hrow, Option.some.injEq, Prod.mk.injEq] at hb
      obtain ⟨rfl, rfl⟩ := hb
      exact ⟨row', heq ▸ hset.self, hlater⟩
    · exact ⟨rb, (hset.other heq).trans hb, .refl rb⟩
  runs _ doc hd := ⟨doc, hd, .refl doc⟩
  attempts _ _ x hx := ⟨x, hx, fun _ => rfl⟩
  births := List.suffix_rfl
  created := List.suffix_rfl
  owners := List.suffix_rfl

theorem keys_updateEntry {attempts : List Entry} {key : AttemptKey} {change : List Row → List Row} :
    (updateEntry attempts key change).map (·.key) = attempts.map (·.key) := by
  rw [updateEntry, List.map_map]
  refine List.map_congr_left fun entry _ => ?_
  simp only [Function.comp]
  split <;> rfl

/-- The invariant after the write of a row. -/
theorem Inv.put (h : Inv s) (hrow : s.row? slot = some (a, row)) {ledger : Ledger cfg}
    (hledger : ledger.attempts = putRow s.ledger.attempts slot row') (hallowed : Allowed s slot a row row')
    {i : Issued} (hi : i.accepted = true ↔ i.Benign cfg) :
    Inv { s with ledger, issued := i :: s.issued } := by
  have hset : Sets s.ledger.attempts slot a row' ledger.attempts := hledger ▸ sets_putRow hrow
  have hev : Evolves s { s with ledger, issued := i :: s.issued } :=
    evolves_put hset hrow hallowed.later
  refine ⟨?_, fun slot' b rb hb => ?_, fun r doc hd => ?_, h.created, h.owners.put hset hrow hallowed.later,
    ?_, h.generations.put hset hrow hallowed.later, h.births.put hset hrow hallowed.later,
    h.turns.put hset hrow hallowed.later hallowed.link, h.claimed.put hset hrow hallowed.later⟩
  · show (ledger.attempts.map (·.key)).Nodup
    rw [hledger, putRow, keys_updateEntry]
    exact h.keys
  · rcases hset.cases hb with ⟨rfl, rfl, rfl⟩ | ⟨-, hb⟩
    · exact hallowed.inv.mono hev
    · exact (h.rows slot' b rb hb).mono hev
  · exact (h.runs r doc hd).put hset hrow hallowed.later (hallowed.stop r doc hd)
  · intro j hj
    rcases List.mem_cons.1 hj with rfl | hj
    · exact hi
    · exact h.issued j hj

theorem Inv.note (h : Inv s) {i : Issued} (hi : i.accepted = true ↔ i.Benign cfg) :
    Inv { s with issued := i :: s.issued } :=
  ⟨h.keys, h.rows, h.runs, h.created, h.owners, fun j hj => by
    rcases List.mem_cons.1 hj with rfl | hj
    · exact hi
    · exact h.issued j hj, h.generations, h.births, h.turns, h.claimed⟩

theorem evolves_note {issued : List Issued} : Evolves s { s with issued } :=
  ⟨fun _ _ row h => ⟨row, h, .refl row⟩, fun _ doc hd => ⟨doc, hd, .refl doc⟩,
    fun _ _ x hx => ⟨x, hx, fun _ => rfl⟩, List.suffix_rfl, List.suffix_rfl, List.suffix_rfl⟩

theorem quiet_note (h : Inv s) {i : Issued} (hi : i.accepted = true ↔ i.Benign cfg) :
    Quiet s { s with issued := i :: s.issued } := ⟨h.note hi, evolves_note, rfl, rfl⟩

/-- What `link_run` reads of a Run. -/
def State.reading (s : State cfg) (c : Choice) (r : RunId) : Option (Option Run) :=
  if c.unreadable then none else some (s.store r).doc?

/-- What the answer of the ledger says of the row from then on. -/
inductive Answered (answer : Except LedgerError Answer) (n : Nat) (row : Row) :
    Except Fault Row → Row → Prop
  | failed (f : Fault) : Answered answer n row (.error f) row
  | kept : answer = .ok (.keep row) → Answered answer n row (.ok row) row
  | written (row' : Row) : answer = .ok (.write row') → row'.Valid n →
      Answered answer n row (.ok row') row'
  | late (row' : Row) (f : Fault) : answer = .ok (.write row') → row'.Valid n →
      Answered answer n row (.error f) row'

theorem Request.eq_of_keep {now : Time} {load : RunId → Option (Option Run)} {request : Request}
    {row'' : Row} (h : request.answer now load a row = .ok (.keep row'')) : row'' = row := by
  cases request with
  | finish => simp [answer] at h
  | linkRun r =>
      simp only [answer] at h
      split at h
      · split at h
        · simp at h
        · simpa [eq_comm] using h
      · split at h
        · simp at h
        · split at h
          · simp at h
          · rename_i doc _
            cases hv : verifyRunBinding a row doc <;> simp [hv, Except.map] at h
  | preallocateRun candidate =>
      simp only [answer] at h
      split at h
      · simpa [eq_comm] using h
      · split at h
        · simp at h
        · split at h <;> simp at h
  | advanceLifecycle stage v p =>
      simp only [answer] at h
      split at h
      · simp at h
      · split at h
        · simpa [eq_comm] using h
        · split at h
          · simp at h
          · split at h <;> simp at h
  | markCompletionNotified =>
      simp only [answer] at h
      split at h
      · simp at h
      · split at h
        · simpa [eq_comm] using h
        · simp at h

/-- A call of the ledger for the row that its thread holds. -/
theorem State.ask_spec (h : Inv s) (hlock : s.locks slot = true) (hrow : s.row? slot = some (a, row))
    {held : Row} {request : Request}
    (herror : ∀ e, request.answer c.now (s.reading c) a row = .error e →
      (∃ r, request = .preallocateRun r) ∨ ∃ r, request = .linkRun r)
    (hwrite : ∀ row', request.answer c.now (s.reading c) a row = .ok (.write row') →
      Allowed s slot a row row' ∧ (row'.Valid slot.2 ↔ request.Benign held)) :
    (lease cfg).Step slot s (s.ask c slot held request).2 ∧
      ∃ row'', (s.ask c slot held request).2.row? slot = some (a, row'') ∧
        Answered (request.answer c.now (s.reading c) a row) slot.2 row
          (s.ask c slot held request).1 row'' := by
  have hsame : (lease cfg).Step slot s s := (Quiet.refl h).step hlock
  unfold State.ask
  rw [hrow]
  cases hf : c.fault with
  | some f => exact ⟨hsame, row, hrow, .failed f⟩
  | none =>
      simp only
      generalize hanswer : request.answer c.now
        (fun r => if c.unreadable = true then none else some (s.store r).doc?) a row = answer at *
      have hanswer' : request.answer c.now (s.reading c) a row = answer := hanswer
      rw [hanswer'] at herror hwrite ⊢
      match answer with
      | .error e =>
          rcases herror e rfl with ⟨r, rfl⟩ | ⟨r, rfl⟩
          · exact ⟨hsame, row, hrow, .failed _⟩
          · exact ⟨hsame, row, hrow, .failed _⟩
      | .ok (.keep row'') =>
          obtain rfl := Request.eq_of_keep hanswer
          exact ⟨hsame, row'', hrow, .kept rfl⟩
      | .ok (.write row') =>
          obtain ⟨hallowed, hbenign⟩ := hwrite row' rfl
          have hok := s.ledger.save_putRow row' hrow
          match hsave : Ledger.save cfg (putRow s.ledger.attempts slot row') with
          | .error e =>
              simp only [hsave]
              rw [hsave, hbenign] at hok
              have hi : Issued.accepted ⟨slot, held, request, putRow s.ledger.attempts slot row', false⟩ =
                  true ↔ Issued.Benign cfg
                    ⟨slot, held, request, putRow s.ledger.attempts slot row', false⟩ := by
                simpa [Except.isOk, Except.toBool, Issued.Benign] using hok
              exact ⟨(quiet_note h hi).step hlock, row, hrow, .failed _⟩
          | .ok ledger =>
              simp only [hsave]
              rw [hsave] at hok
              obtain ⟨hvalid, hbytes⟩ := hok.1 rfl
              have hi : Issued.accepted ⟨slot, held, request, putRow s.ledger.attempts slot row', true⟩ =
                  true ↔ Issued.Benign cfg
                    ⟨slot, held, request, putRow s.ledger.attempts slot row', true⟩ := by
                simpa [Issued.Benign] using ⟨hbenign.1 hvalid, hbytes⟩
              have hledger := (Ledger.save_eq_ok.1 hsave).1
              have hset : Sets s.ledger.attempts slot a row' ledger.attempts :=
                hledger ▸ sets_putRow hrow
              have hput : (lease cfg).Step slot s { s with
                  ledger
                  issued := ⟨slot, held, request, putRow s.ledger.attempts slot row', true⟩ :: s.issued } :=
                ⟨h.put hrow hledger hallowed hi, evolves_put hset hrow hallowed.later, hlock,
                  fun j hj ht => ⟨ht, fun o ho => (hset.other hj).trans ho⟩⟩
              cases hw : c.write with
              | done => exact ⟨by simpa [WriteOutcome.committed] using hput, row', hset.self,
                  .written row' rfl hvalid⟩
              | late e => exact ⟨by simpa [WriteOutcome.committed] using hput, row', hset.self,
                  .late row' _ rfl hvalid⟩
              | lost e => exact ⟨by simpa [WriteOutcome.committed] using (quiet_note h hi).step hlock,
                  row, hrow, .failed _⟩

end DebBuilder.Automation
