import Mathlib
import DebBuilder.Automation.Sections

/-!
# Claims and retries keep the invariant

A claim of the detector and a retry of an operator add at most one generation, next to
the generations that other threads hold.

## Main results

* `claimEntry_eq_ok`, `explicitRetry_eq_ok` — what the two operations answer.
* `idle_claim`, `idle_retry` — both keep the invariant and leave the other rows alone.
-/

namespace DebBuilder.Automation
open Function Lib

variable {cfg : Config} {s s' : State cfg} {slot : Slot} {a : Attempt} {row row' : Row} {c : Choice}

/-! ## Adding a generation -/

/-- `s'` differs from `s` by the records of claims and retries only. -/
structure Recorded (s s' : State cfg) : Prop where
  ledger : s'.ledger = s.ledger
  store : s'.store = s.store
  validations : s'.validations = s.validations
  created : s'.created = s.created
  owners : s'.owners = s.owners
  issued : s'.issued = s.issued
  births : s'.births = s.births
  locks : s'.locks = s.locks

theorem Recorded.evolves (h : Recorded s s') : Evolves s s' where
  rows slot a row hrow := ⟨row, by rw [State.row?, h.ledger]; exact hrow, .refl row⟩
  runs r doc hd := ⟨doc, by rw [h.store, hd], .refl doc⟩
  attempts r id x hx := ⟨x, by rw [State.attempt?, h.validations]; exact hx, fun _ => rfl⟩
  births := h.births ▸ List.suffix_rfl
  created := h.created ▸ List.suffix_rfl
  owners := h.owners ▸ List.suffix_rfl

/-- The invariant when only the records change. -/
theorem Inv.recorded (h : Inv s) (hr : Recorded s s')
    (hgenerations : Generations s.ledger.attempts s'.retries)
    (hclaimed : Claimed s.ledger.attempts s'.claims) : Inv s' where
  keys := by rw [hr.ledger]; exact h.keys
  rows slot a row hrow := by
    rw [State.row?, hr.ledger] at hrow
    exact (h.rows slot a row hrow).mono hr.evolves
  runs r doc hd := by
    rw [hr.ledger, hr.created]
    exact h.runs r doc (by rw [← hr.store, hd])
  created := by rw [hr.created]; exact h.created.evolve hr.evolves
  owners := by rw [hr.ledger, hr.owners]; exact h.owners.evolve hr.evolves
  issued := by rw [hr.issued]; exact h.issued
  generations := by rw [hr.ledger]; exact hgenerations
  births := by rw [hr.ledger, hr.births]; exact h.births
  turns := by rw [hr.ledger, hr.births]; exact h.turns
  claimed := by rw [hr.ledger]; exact hclaimed

/-- A row that has just been added. -/
structure Row.Fresh (row : Row) : Prop where
  run : row.runId = none
  preallocated : row.preallocatedRunId = none
  validation : row.validationAttemptId = none
  stage : row.stage.downstream = false
  earned : row.terminalClassification = some .success → row.Unbuilt

theorem Row.Fresh.inv {store : Store} {validations : RunId → List ValidationAttempt}
    {owners : List (Slot × RunId × RunStatus)} (h : row.Fresh) :
    RowInv store validations owners slot a row where
  linked r hr := by simp [h.run] at hr
  built hb := by simp [h.stage, h.validation] at hb
  earned hc := .inl (h.earned hc)

/-- The state of which a generation is added. -/
def State.grown (s : State cfg) (ledger : Ledger cfg) (slot : Slot) (now : Time) : State cfg :=
  { s with ledger, births := (slot, now) :: s.births }

theorem evolves_grown {ledger : Ledger cfg} {now : Time}
    (hset : Sets s.ledger.attempts slot a row' ledger.attempts) (hnew : s.row? slot = none) :
    Evolves s (s.grown ledger slot now) where
  rows slot' b rb hb := by
    have hne : slot' ≠ slot := by
      rintro rfl
      simp [hnew] at hb
    exact ⟨rb, (hset.other hne).trans hb, .refl rb⟩
  runs _ doc hd := ⟨doc, hd, .refl doc⟩
  attempts _ _ x hx := ⟨x, hx, fun _ => rfl⟩
  births := List.suffix_cons ..
  created := List.suffix_rfl
  owners := List.suffix_rfl

/-- The invariant after a generation is added, and recorded. -/
theorem Inv.add (h : Inv s) {ledger : Ledger cfg}
    (hset : Sets s.ledger.attempts slot a row' ledger.attempts) (hnew : s.row? slot = none)
    (hkeys : (ledger.attempts.map (·.key)).Nodup) (hfresh : row'.Fresh)
    (hr : Recorded (s.grown ledger slot row'.createdAt) s')
    (hgenerations : Generations ledger.attempts s'.retries)
    (hclaimed : Claimed ledger.attempts s'.claims) : Inv s' where
  keys := by rw [hr.ledger]; exact hkeys
  rows slot' b rb hb := by
    rw [State.row?, hr.ledger] at hb
    rcases hset.cases hb with ⟨rfl, rfl, rfl⟩ | ⟨-, hb⟩
    · exact hfresh.inv
    · exact (h.rows slot' b rb hb).mono ((evolves_grown hset hnew).trans _ _ _ hr.evolves)
  runs r doc hd := by
    rw [hr.ledger, hr.created]
    exact (h.runs r doc (by rw [← hd, hr.store]; rfl)).add hset hnew
  created := by
    rw [hr.created]
    exact h.created.evolve ((evolves_grown hset hnew).trans _ _ _ hr.evolves)
  owners := by
    rw [hr.ledger, hr.owners, hr.store]
    exact h.owners.add hset hnew
  issued := by rw [hr.issued]; exact h.issued
  generations := by rw [hr.ledger]; exact hgenerations
  births := by rw [hr.ledger, hr.births]; exact h.births.add hset hnew
  turns := by rw [hr.ledger, hr.births]; exact h.turns.add hset h.births hfresh.run
  claimed := by rw [hr.ledger]; exact hclaimed

/-- What a thread that holds no lock does. -/
structure Idle (s s' : State cfg) : Prop where
  inv : Inv s'
  evolves : Evolves s s'
  leaves : (lease cfg).Leaves (fun _ => True) s s'

theorem Quiet.idle (h : Quiet s s') : Idle s s' := ⟨h.inv, h.evolves, leaves_of_ledger h.ledger h.locks⟩

theorem Inv.idle_recorded (h : Inv s) (hr : Recorded s s')
    (hgenerations : Generations s.ledger.attempts s'.retries)
    (hclaimed : Claimed s.ledger.attempts s'.claims) : Idle s s' :=
  ⟨h.recorded hr hgenerations hclaimed, hr.evolves, leaves_of_ledger hr.ledger hr.locks⟩

theorem Inv.idle_add (h : Inv s) {ledger : Ledger cfg}
    (hset : Sets s.ledger.attempts slot a row' ledger.attempts) (hnew : s.row? slot = none)
    (hkeys : (ledger.attempts.map (·.key)).Nodup) (hfresh : row'.Fresh)
    (hr : Recorded (s.grown ledger slot row'.createdAt) s')
    (hgenerations : Generations ledger.attempts s'.retries)
    (hclaimed : Claimed ledger.attempts s'.claims) : Idle s s' := by
  refine ⟨h.add hset hnew hkeys hfresh hr hgenerations hclaimed,
    (evolves_grown hset hnew).trans _ _ _ hr.evolves, fun j _ hj => ⟨?_, fun o ho => ?_⟩⟩
  · show s'.locks j = true
    rw [hr.locks]
    exact hj
  · have hne : j ≠ slot := by
      rintro rfl
      exact absurd (ho.symm.trans hnew) (by simp)
    show s'.row? j = some o
    rw [State.row?, hr.ledger]
    exact (hset.other hne).trans ho

/-! ## Claims and retries -/

theorem elim_bind_eq_ok {α β : Type} {o : Option α} {e : LedgerError} {f : α → Except LedgerError β}
    {b : β} : (o.elim (.error e : Except LedgerError α) .ok >>= f) = .ok b ↔
      ∃ a, o = some a ∧ f a = .ok b := by
  cases o <;> simp [bind, Except.bind]

theorem bind_eq_ok {α β : Type} {x : Except LedgerError α} {f : α → Except LedgerError β} {b : β} :
    (x >>= f) = .ok b ↔ ∃ a, x = .ok a ∧ f a = .ok b := by
  cases x <;> simp [bind, Except.bind]

/-- The first generation that a claim creates. -/
def firstRow (policy : Policy) (detectedAt now : Time) (baseline : Bool) : Row :=
  let first := newGeneration policy detectedAt 0 now
  if policy = .detect || baseline then
    { first with
      state := .terminal, terminalClassification := some .success
      diagnostic := some (if baseline then "initial_baseline" else "detect_only_handled")
      stage := .terminal }
  else first

theorem firstRow_fresh (policy : Policy) (detectedAt now : Time) (baseline : Bool) :
    (firstRow policy detectedAt now baseline).Fresh := by
  unfold firstRow
  split
  · refine ⟨rfl, rfl, rfl, rfl, fun _ => ⟨?_, rfl⟩⟩
    cases baseline
    · exact .inr rfl
    · exact .inl rfl
  · exact ⟨rfl, rfl, rfl, rfl, fun h => by simp [newGeneration] at h⟩

theorem firstRow_createdAt (policy : Policy) (detectedAt now : Time) (baseline : Bool) :
    (firstRow policy detectedAt now baseline).createdAt = now := by
  unfold firstRow
  split <;> rfl

theorem firstRow_state (policy : Policy) (detectedAt now : Time) (baseline : Bool) :
    (firstRow policy detectedAt now baseline).state =
      if policy = .detect ∨ baseline = true then .terminal else .claimed := by
  unfold firstRow
  by_cases h : policy = .detect <;> cases baseline <;> simp [h, newGeneration]

theorem newGeneration_fresh (policy : Policy) (detectedAt now : Time) (n : Nat) :
    (newGeneration policy detectedAt n now).Fresh :=
  ⟨rfl, rfl, rfl, rfl, fun h => by simp [newGeneration] at h⟩

variable {attempts : List Entry} {recipe : Option Recipe} {recipeId : RecipeId}
  {identity : Identity} {sha256 : String} {policy : Policy} {detectedAt now : Time}
  {baselineOnFirst : Bool} {result : ClaimResult}

/-- A claim finds its attempt, or creates it. -/
theorem claimEntry_eq_ok (h : claimEntry cfg attempts recipe recipeId identity sha256 policy
    detectedAt baselineOnFirst now = .ok result) :
    let key := cfg.attemptKey recipeId identity sha256.toLower
    (∃ entry latest, findEntry attempts key = some entry ∧
      entry.generations.getLast? = some latest ∧ result = ⟨false, latest.generation, attempts⟩) ∨
    findEntry attempts key = none ∧ ∃ baseline,
      (baseline = true ↔ baselineOnFirst = true ∧ ∀ e ∈ attempts,
        e.recipeId ≠ recipeId ∨ e.recipeSha256 ≠ sha256.toLower) ∧
      result = ⟨true, 0, insertEntry ⟨⟨key, recipeId, sha256.toLower, identity⟩,
        [firstRow policy detectedAt now baseline]⟩ attempts⟩ := by
  simp only [claimEntry, require_bind_eq_ok, elim_bind_eq_ok,
    bind_eq_ok (x := checkAttemptInputs ..)] at h
  obtain ⟨-, -, -, current, -, -, h⟩ := h
  split at h
  · rename_i existing hexisting
    split at h
    · simp at h
    · rename_i latest hlatest
      simp only [require_bind_eq_ok, Except.ok.injEq] at h
      exact .inl ⟨existing, latest, hexisting, hlatest, h.2.symm⟩
  · rename_i hnone
    simp only [require_bind_eq_ok, Except.ok.injEq] at h
    exact .inr ⟨hnone, _, by simp, h.2.2.symm⟩

/-- A retry finds the generation after the one that was observed, or creates it. -/
theorem explicitRetry_eq_ok {key : AttemptKey} {expected : Int} {expectedUpdatedAt : Option Time}
    (h : explicitRetry attempts recipe recipeId key expected expectedUpdatedAt now = .ok result) :
    ∃ entry latest, findEntry attempts key = some entry ∧
      entry.generations.getLast? = some latest ∧
      ((latest.generation = expected.toNat + 1 ∧ result = ⟨false, latest.generation, attempts⟩) ∨
        latest.generation = expected.toNat ∧
          (latest.state.stopped = true ∨ latest.state = .retryDelayed) ∧
          result = ⟨true, entry.generations.length, updateEntry attempts key fun rows =>
            rows ++ [newGeneration latest.desiredPolicy latest.detectedAt
              entry.generations.length now]⟩) := by
  simp only [explicitRetry] at h
  split at h
  · simp at h
  · rename_i entry hentry
    obtain ⟨hentry, -⟩ := Option.filter_eq_some_iff.1 hentry
    split at h
    · simp at h
    · rename_i latest hlatest
      refine ⟨entry, latest, hentry, hlatest, ?_⟩
      simp only [require_bind_eq_ok, elim_bind_eq_ok, decide_eq_true_eq] at h
      obtain ⟨-, -, hgen, -, hstate, -, current, -, -, -, h⟩ := h
      split at h
      · rename_i hdup
        exact .inl ⟨hdup, (Except.ok.inj h).symm⟩
      · rename_i hdup
        refine .inr ⟨hgen.resolve_left hdup, ?_, (Except.ok.inj h).symm⟩
        rcases hstate.resolve_left hdup with hs | hs | hs <;> simp [hs, RowState.stopped]

/-- The latest generation of an entry is the last of its rows. -/
theorem latest_spec (l : Ledger cfg) {key : AttemptKey} {entry : Entry} {latest : Row}
    (hentry : findEntry l.attempts key = some entry)
    (hlatest : entry.generations.getLast? = some latest) :
    latest.generation + 1 = entry.generations.length ∧
      findRow l.attempts (key, latest.generation) = some (entry.toAttempt, latest) := by
  have hlast : entry.generations[entry.generations.length - 1]? = some latest := by
    rw [← List.getLast?_eq_getElem?, hlatest]
  have hrows := l.validRows hentry
  have hgen := (hrows.2 _ _ hlast).generation
  have hlen := hrows.1.1
  refine ⟨by omega, findRow_eq_some.2 ⟨entry, hentry, rfl, ?_⟩⟩
  rw [hgen]
  exact hlast

theorem findRow_eq_none_of_findEntry {attempts : List Entry} {key : AttemptKey} {n : Nat}
    (h : findEntry attempts key = none) : findRow attempts (key, n) = none := by
  simp [findRow, h]

theorem latestState_eq {key : AttemptKey} {entry : Entry} {latest : Row}
    (hentry : findEntry attempts key = some entry)
    (hlatest : entry.generations.getLast? = some latest) : latestState attempts key = latest.state := by
  simp [latestState, hentry, hlatest]

theorem keys_insertEntry {entry : Entry} (hnew : findEntry attempts entry.key = none)
    (h : (attempts.map (·.key)).Nodup) : ((insertEntry entry attempts).map (·.key)).Nodup := by
  have hperm : (insertEntry entry attempts).Perm (entry :: attempts) := by
    clear hnew h
    induction attempts with
    | nil => exact .refl _
    | cons e es ih =>
        simp only [insertEntry]
        split
        · exact .refl _
        · exact (ih.cons e).trans (.swap entry e es)
  refine (hperm.map _).nodup_iff.2 (List.nodup_cons.2 ⟨?_, h⟩)
  rw [List.mem_map]
  rintro ⟨e, he, hkey⟩
  simp only [findEntry, List.find?_eq_none, decide_eq_true_eq] at hnew
  exact hnew e he hkey

theorem findEntry_of_mem {attempts : List Entry} {entry : Entry} (h : (attempts.map (·.key)).Nodup)
    (hmem : entry ∈ attempts) : findEntry attempts entry.key = some entry := by
  induction attempts with
  | nil => simp at hmem
  | cons e es ih =>
      simp only [List.map_cons, List.nodup_cons, List.mem_map, not_exists, not_and] at h
      rcases List.mem_cons.1 hmem with rfl | hmem
      · simp [findEntry]
      · have hne : e.key ≠ entry.key := fun heq => h.1 entry hmem heq.symm
        simpa [findEntry, hne] using ih h.2 hmem

/-- The ledger has no attempt of a revision exactly when no claim created one. -/
theorem Inv.first_iff (h : Inv s) {claim : Claim} :
    claim.First s.claims ↔ ∀ e ∈ s.ledger.attempts, e.recipeId ≠ claim.attempt.recipeId ∨
      e.recipeSha256 ≠ claim.attempt.recipeSha256 := by
  constructor
  · intro hfirst e he
    have hentry := findEntry_of_mem h.keys he
    have hlen := (s.ledger.validRows hentry).1.1
    have hget : e.generations[0]? = some e.generations[0] := List.getElem?_eq_getElem (by omega)
    obtain ⟨d, hd, hcreated, hattempt⟩ :=
      h.claimed.entries e.key _ _ (findRow_eq_some.2 ⟨e, hentry, rfl, hget⟩)
    have hne := hfirst d hd hcreated
    rw [hattempt] at hne
    exact not_and_or.1 hne
  · intro hall d hd hcreated
    obtain ⟨row, hrow, -⟩ := h.claimed.kept d hd hcreated
    obtain ⟨e, hentry, hattempt, -⟩ := findRow_eq_some.1 hrow
    have hne := hall e (mem_of_findEntry hentry).1
    rw [← hattempt]
    exact not_and_or.2 hne

/-- A claim of the detector. -/
theorem idle_claim (h : Inv s) (recipeId : RecipeId) (identity : Identity) (sha256 : String)
    (policy : Policy) (detectedAt : Time) (baselineOnFirst : Bool) (recipe : Option Recipe) :
    let key := cfg.attemptKey recipeId identity sha256.toLower
    Idle s (s.add c key (claimEntry cfg s.ledger.attempts recipe recipeId identity sha256 policy
      detectedAt baselineOnFirst c.now) fun result answered s' =>
        { s' with claims := ⟨⟨key, recipeId, sha256.toLower, identity⟩, policy, baselineOnFirst,
            result.created, latestState s'.ledger.attempts key, answered⟩ :: s'.claims }).2 := by
  intro key
  have hsame : Idle s s := (Quiet.refl h).idle
  unfold State.add
  split
  · exact hsame
  · exact hsame
  · rename_i result hf hresult
    rcases claimEntry_eq_ok hresult with
      ⟨entry, latest, hentry, hlatest, rfl⟩ | ⟨hnone, baseline, hbaseline, rfl⟩
    · -- the attempt is there
      refine h.idle_recorded ⟨rfl, rfl, rfl, rfl, rfl, rfl, rfl, rfl⟩ h.generations
        (h.claimed.again rfl ?_)
      exact isSome_findRow_of_le (Nat.zero_le _)
        (by rw [(latest_spec s.ledger hentry hlatest).2]; rfl)
    · simp only [if_true]
      cases hsave : Ledger.save cfg _ with
      | error e => exact hsame
      | ok ledger =>
          have hledger := (Ledger.save_eq_ok.1 hsave).1
          have hset := sets_insertEntry (firstRow policy detectedAt c.now baseline)
            (a := ⟨key, recipeId, sha256.toLower, identity⟩) hnone
          rw [← hledger] at hset
          have hnew : s.row? (key, 0) = none := findRow_eq_none_of_findEntry hnone
          have hkeys : (ledger.attempts.map (·.key)).Nodup := by
            rw [hledger]
            exact keys_insertEntry hnone h.keys
          have hstate : latestState ledger.attempts key =
              (firstRow policy detectedAt c.now baseline).state := by
            rw [hledger]
            exact latestState_eq (findEntry_insertEntry hnone key |>.trans (if_pos rfl)) rfl
          have hfresh := firstRow_fresh policy detectedAt c.now baseline
          have hrecorded (answered : Bool) : Idle s { s with
              ledger, births := ((key, 0), c.now) :: s.births
              claims := ⟨⟨key, recipeId, sha256.toLower, identity⟩, policy, baselineOnFirst, true,
                latestState ledger.attempts key, answered⟩ :: s.claims } := by
            refine h.idle_add hset hnew hkeys hfresh ?_ (h.generations.claim hset hnew)
              (h.claimed.add hset hnew rfl ?_ ?_)
            · rw [firstRow_createdAt]
              exact ⟨rfl, rfl, rfl, rfl, rfl, rfl, rfl, rfl⟩
            · intro ht
              have ht : (firstRow policy detectedAt c.now baseline).state = .terminal :=
                hstate.symm.trans ht
              exact ⟨by rw [ht]; rfl, hfresh.run, hfresh.preallocated⟩
            · rw [h.first_iff]
              show latestState ledger.attempts key = .terminal ↔ _
              rw [hstate, firstRow_state, ← hbaseline]
              split
              · rename_i hstop
                exact iff_of_true rfl hstop
              · rename_i hstop
                exact iff_of_false (by simp) hstop
          cases hw : c.write with
          | done => exact hrecorded true
          | late e => exact hrecorded false
          | lost e => exact hsame

/-- An operator's retry. -/
theorem idle_retry (h : Inv s) (recipeId : RecipeId) (key : AttemptKey) (expected : Int)
    (expectedUpdatedAt : Option Time) (recipe : Option Recipe) :
    Idle s (s.add c key (explicitRetry s.ledger.attempts recipe recipeId key expected
      expectedUpdatedAt c.now) fun result _ s' =>
        { s' with retries := ⟨key, expected.toNat, latestState s.ledger.attempts key,
            result.generation, result.created⟩ :: s'.retries }).2 := by
  have hsame : Idle s s := (Quiet.refl h).idle
  unfold State.add
  split
  · exact hsame
  · exact hsame
  · rename_i result hf hresult
    obtain ⟨entry, latest, hentry, hlatest, hcases⟩ := explicitRetry_eq_ok hresult
    obtain ⟨hlen, hrow⟩ := latest_spec s.ledger hentry hlatest
    rcases hcases with ⟨hgen, rfl⟩ | ⟨hgen, hstate, rfl⟩
    · -- the generation is there
      refine h.idle_recorded ⟨rfl, rfl, rfl, rfl, rfl, rfl, rfl, rfl⟩ ?_ h.claimed
      rw [hgen] at hrow ⊢
      exact h.generations.duplicate (by rw [hrow]; rfl)
    · simp only [if_true]
      cases hsave : Ledger.save cfg _ with
      | error e => exact hsame
      | ok ledger =>
          have hledger := (Ledger.save_eq_ok.1 hsave).1
          have hset := sets_append (newGeneration latest.desiredPolicy latest.detectedAt
            entry.generations.length c.now) hentry
          rw [← hledger] at hset
          have hkeys : (ledger.attempts.map (·.key)).Nodup := by
            rw [hledger, keys_updateEntry]
            exact h.keys
          rw [hgen] at hlen hrow
          rw [← hlen] at hset ⊢
          have hnew : s.row? (key, expected.toNat + 1) = none := by
            rw [State.row?, findRow, hentry, Option.bind_some, hlen]
            simp
          have hadded : Idle s { s with
              ledger, births := ((key, expected.toNat + 1), c.now) :: s.births
              retries := ⟨key, expected.toNat, latestState s.ledger.attempts key,
                expected.toNat + 1, true⟩ :: s.retries } := by
            rw [latestState_eq hentry hlatest]
            refine h.idle_add hset hnew hkeys (newGeneration_fresh ..) ⟨rfl, rfl, rfl, rfl, rfl, rfl,
              rfl, rfl⟩ (h.generations.retry hset hnew hrow fun hlive => ?_) (h.claimed.retry hset)
            refine hstate.resolve_left fun hs => ?_
            simp [Row.live, hs] at hlive
          cases hw : c.write with
          | done | late e => exact hadded
          | lost e => exact hsame

end DebBuilder.Automation
