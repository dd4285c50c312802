import Mathlib
import DebBuilder.Automation.Ledger

/-!
# Valid ledgers

What the validator accepts, rule by rule, and what an update of one row does to a valid
document: the other entries keep their checks, so the new document is valid exactly when
the new row is.

## Main definitions

* `Row.Valid` — the rules of `_validate_generation`.
* `Ledger.row_valid` — every row of a ledger meets them.
* `Ledger.save_putRow` — when the write of a row is accepted.
-/

namespace DebBuilder.Automation

theorem require_eq_ok {holds : Bool} {error : LedgerError} :
    require holds error = .ok () ↔ holds = true := by
  cases holds <;> simp [require]

theorem require_bind_eq_ok {α : Type} {holds : Bool} {error : LedgerError}
    {f : Unit → Except LedgerError α} {a : α} :
    (require holds error >>= f) = .ok a ↔ holds = true ∧ f () = .ok a := by
  cases holds <;> simp [require, bind, Except.bind]

/-! ## Rows -/

/-- A row that waits for its Run or has it. -/
def RowState.owned (state : RowState) : Prop := state = .runPreallocated ∨ state = .admitted

/-- What `validateGeneration` accepts, in its order. -/
@[mk_iff]
structure Row.Valid (expected : Nat) (row : Row) : Prop where
  generation : row.generation = expected
  policy : row.desiredPolicy ≠ .manual
  retryCount : row.retryCount ≤ maxRetryCount
  runRetryCount : row.runRetryCount ≤ maxRetryCount
  validationRetryCount : row.validationRetryCount ≤ maxRetryCount
  publicationRetryCount : row.publicationRetryCount ≤ maxRetryCount
  runIdText : optional (isText 128) row.runId = true
  preallocatedText : optional (isText 128) row.preallocatedRunId = true
  validationText : optional (isText 128) row.validationAttemptId = true
  publicationText : optional (isText 128) row.publicationAttemptId = true
  runIdSafe : optional (·.toList.all isIdChar) row.runId = true
  preallocatedSafe : optional (·.toList.all isIdChar) row.preallocatedRunId = true
  linked : row.runId = none ∨ row.runId = row.preallocatedRunId
  owned : row.state.owned → row.preallocatedRunId ≠ none
  detect : row.desiredPolicy = .detect →
    row.preallocatedRunId = none ∧ row.runId = none ∧ ¬ row.state.owned
  admitted : row.state = .admitted → row.runId ≠ none
  classified : ¬ (row.state.owned ∨ row.state = .claimed) → row.terminalClassification ≠ none
  delayed : row.state = .retryDelayed → row.terminalClassification = some .transientRetryable
  blocked : row.state = .blocked → row.terminalClassification = some .blockedManual
  blockedRetry : row.state = .blocked → row.retryClass = .operator
  terminal : row.state = .terminal → row.terminalClassification ≠ some .transientRetryable ∧
    row.terminalClassification ≠ some .blockedManual
  terminalRetry : row.state = .terminal → row.retryClass = .none
  unclassified : row.state.owned ∨ row.state = .claimed → row.terminalClassification = none
  activeRetry : row.state.owned ∨ row.state = .claimed → row.retryClass = .none
  delayedRetry : row.state = .retryDelayed → row.retryClass = .transient ∧ row.notBefore ≠ none
  notBefore : row.state ≠ .retryDelayed → row.notBefore = none
  stoppedStage : row.state.stopped = true → row.stage = .terminal
  liveStage : row.state.stopped = false → row.stage ≠ .terminal
  validationSafe : optional (·.toList.all isAttemptIdChar) row.validationAttemptId = true
  publicationSafe : optional (·.toList.all isAttemptIdChar) row.publicationAttemptId = true
  publicationLink : row.publicationAttemptId ≠ none → row.validationAttemptId ≠ none
  detectionLinks : row.stage = .detection → row.preallocatedRunId = none ∧ row.runId = none ∧
    row.validationAttemptId = none ∧ row.publicationAttemptId = none
  runAdmissionLinks : row.stage = .runAdmission → row.preallocatedRunId ≠ none ∧
    row.runId = none ∧ row.validationAttemptId = none ∧ row.publicationAttemptId = none
  runLinks : row.stage = .run → row.runId ≠ none ∧
    row.validationAttemptId = none ∧ row.publicationAttemptId = none
  validationAdmissionLinks : row.stage = .validationAdmission →
    row.runId ≠ none ∧ row.publicationAttemptId = none
  validationLinks : row.stage = .validation →
    row.runId ≠ none ∧ row.validationAttemptId ≠ none ∧ row.publicationAttemptId = none
  publicationLinks : row.stage = .publication → row.runId ≠ none ∧ row.validationAttemptId ≠ none
  notified : row.completionNotified = true → row.state.stopped = true
  codeText : optional (isText 80) row.lastErrorCode = true
  codeSafe : optional (·.toList.all isCodeChar) row.lastErrorCode = true
  diagnosticText : optional (isText 80) row.diagnostic = true
  diagnosticSafe : optional (·.toList.all isCodeChar) row.diagnostic = true

theorem validateGeneration_eq_ok {n : Nat} {row : Row} :
    validateGeneration n row = .ok () ↔ row.Valid n := by
  simp only [validateGeneration, require_bind_eq_ok, require_eq_ok, decide_eq_true_eq,
    Row.valid_iff, RowState.owned]

theorem validateRows_eq_ok {n : Nat} {rows : List Row} :
    Config.validateRows n rows = .ok () ↔ ∀ (i : Nat) (row : Row), rows[i]? = some row → row.Valid (n + i) := by
  induction rows generalizing n with
  | nil => simp [Config.validateRows]
  | cons row rows ih =>
      have hsplit : Config.validateRows n (row :: rows) = .ok () ↔
          row.Valid n ∧ Config.validateRows (n + 1) rows = .ok () := by
        rw [← validateGeneration_eq_ok]
        simp only [Config.validateRows]
        cases validateGeneration n row with
        | error e => simp [bind, Except.bind]
        | ok u => simp [bind, Except.bind]
      rw [hsplit, ih]
      constructor
      · rintro ⟨hrow, hrows⟩ (_ | i) r hr
        · simpa [← Option.some.inj hr] using hrow
        · simpa [Nat.add_right_comm, Nat.add_assoc] using hrows i r hr
      · intro h
        refine ⟨h 0 row rfl, fun i r hr => ?_⟩
        simpa [Nat.add_right_comm, Nat.add_assoc] using h (i + 1) r hr

/-! ## Entries -/

/-- What the checks of an entry say of its generations. -/
def ValidRows (rows : List Row) : Prop :=
  (1 ≤ rows.length ∧ rows.length ≤ maxGenerations) ∧
    ∀ (i : Nat) (row : Row), rows[i]? = some row → row.Valid i

variable {cfg : Config} {attempts : List Entry} {seen out : List RecipeId} {key : AttemptKey}
  {change : List Row → List Row} {entry : Entry} {slot : Slot} {a : Attempt}
  {row row' : Row}

theorem validRows_of_entry (h : cfg.validateEntry seen entry = .ok ()) :
    ValidRows entry.generations := by
  simp only [Config.validateEntry, require_bind_eq_ok, decide_eq_true_eq, validateRows_eq_ok,
    Nat.zero_add] at h
  exact ⟨h.2.2.2.2.1, h.2.2.2.2.2.2⟩

/-- An entry keeps its checks when its generations are replaced by valid ones. -/
theorem validateEntry_change (h : cfg.validateEntry seen entry = .ok ()) {rows : List Row}
    (hrows : ValidRows rows) : cfg.validateEntry seen { entry with generations := rows } = .ok () := by
  simp only [Config.validateEntry, require_bind_eq_ok, decide_eq_true_eq, validateRows_eq_ok,
    Nat.zero_add] at h ⊢
  exact ⟨h.1, h.2.1, h.2.2.1, h.2.2.2.1, hrows.1, h.2.2.2.2.2.1, hrows.2⟩

theorem validateEntries_cons {entries : List Entry} :
    cfg.validateEntries seen (entry :: entries) = .ok out ↔
      cfg.validateEntry seen entry = .ok () ∧
        cfg.validateEntries (entry.recipeId :: seen) entries = .ok out := by
  simp only [Config.validateEntries]
  cases cfg.validateEntry seen entry with
  | error e => simp [bind, Except.bind]
  | ok u => simp [bind, Except.bind]

theorem validRows_of_validateEntries (h : cfg.validateEntries seen attempts = .ok out) :
    ∀ entry ∈ attempts, ValidRows entry.generations := by
  induction attempts generalizing seen with
  | nil => simp
  | cons e es ih =>
      obtain ⟨he, hes⟩ := validateEntries_cons.1 h
      rintro entry (_ | ⟨_, hmem⟩)
      · exact validRows_of_entry he
      · exact ih hes entry hmem

theorem validateEntries_update (h : cfg.validateEntries seen attempts = .ok out)
    (hchange : ∀ entry ∈ attempts, entry.key = key → ValidRows (change entry.generations)) :
    cfg.validateEntries seen (updateEntry attempts key change) = .ok out := by
  induction attempts generalizing seen with
  | nil => exact h
  | cons e es ih =>
      obtain ⟨he, hes⟩ := validateEntries_cons.1 h
      have hrest := ih hes fun entry hmem => hchange entry (List.mem_cons_of_mem e hmem)
      simp only [updateEntry, List.map_cons]
      by_cases hk : e.key = key
      · rw [if_pos hk]
        exact validateEntries_cons.2 ⟨validateEntry_change he (hchange e List.mem_cons_self hk), hrest⟩
      · rw [if_neg hk]
        exact validateEntries_cons.2 ⟨he, hrest⟩

theorem validate_eq_ok : cfg.validate attempts = .ok () ↔ attempts.length ≤ cfg.maxAttempts ∧
    ∃ seen, cfg.validateEntries [] attempts = .ok seen ∧ seen.dedup.length ≤ maxRecipes := by
  simp only [Config.validate, require_bind_eq_ok, decide_eq_true_eq]
  refine and_congr_right fun _ => ?_
  cases cfg.validateEntries [] attempts with
  | error e => simp [bind, Except.bind]
  | ok seen => simp [bind, Except.bind, require_eq_ok]

/-- A valid document stays valid when valid generations replace those of an entry. -/
theorem validate_update (h : cfg.validate attempts = .ok ())
    (hchange : ∀ entry ∈ attempts, entry.key = key → ValidRows (change entry.generations)) :
    cfg.validate (updateEntry attempts key change) = .ok () := by
  obtain ⟨hlen, seen, hseen, hrecipes⟩ := validate_eq_ok.1 h
  exact validate_eq_ok.2 ⟨by simpa [updateEntry] using hlen, seen,
    validateEntries_update hseen hchange, hrecipes⟩

/-! ## Looking up rows -/

theorem mem_of_findEntry (h : findEntry attempts key = some entry) :
    entry ∈ attempts ∧ entry.key = key :=
  ⟨List.mem_of_find?_eq_some h, by simpa using List.find?_some h⟩

theorem findEntry_updateEntry (key' : AttemptKey) :
    findEntry (updateEntry attempts key change) key' =
      (findEntry attempts key').map fun entry =>
        if key' = key then { entry with generations := change entry.generations } else entry := by
  induction attempts with
  | nil => rfl
  | cons e es ih =>
      simp only [findEntry, updateEntry, List.map_cons] at ih ⊢
      by_cases hk : e.key = key' <;> by_cases hk' : e.key = key <;> grind -ring -linarith

/-- The rows after one row was replaced. -/
theorem findRow_putRow (slot' : Slot) :
    findRow (putRow attempts slot row) slot' =
      if slot' = slot then (findRow attempts slot).map fun found => (found.1, row)
      else findRow attempts slot' := by
  obtain ⟨key, n⟩ := slot
  obtain ⟨key', n'⟩ := slot'
  simp only [findRow, putRow, findEntry_updateEntry, Prod.mk.injEq]
  by_cases hk : key' = key
  · subst hk
    cases findEntry attempts key' with
    | none => simp
    | some entry =>
        by_cases hn : n' = n
        · subst hn
          by_cases hlen : n' < entry.generations.length
          · simp [hlen]
          · simp [hlen]
        · simp [hn, Ne.symm hn]
  · cases findEntry attempts key' <;> simp [hk]

theorem findRow_putRow_self (h : findRow attempts slot = some (a, row')) :
    findRow (putRow attempts slot row) slot = some (a, row) := by
  rw [findRow_putRow, if_pos rfl, h]
  rfl

theorem findRow_eq_some : findRow attempts slot = some (a, row) ↔
    ∃ entry, findEntry attempts slot.1 = some entry ∧ entry.toAttempt = a ∧
      entry.generations[slot.2]? = some row := by
  simp only [findRow, Option.bind_eq_some_iff, Option.map_eq_some_iff, Prod.mk.injEq]
  constructor
  · rintro ⟨entry, hentry, r, hr, rfl, rfl⟩
    exact ⟨entry, hentry, rfl, hr⟩
  · rintro ⟨entry, hentry, rfl, hr⟩
    exact ⟨entry, hentry, row, hr, rfl, rfl⟩

theorem key_of_findRow (h : findRow attempts slot = some (a, row)) : a.key = slot.1 := by
  obtain ⟨entry, hentry, rfl, -⟩ := findRow_eq_some.1 h
  exact (mem_of_findEntry hentry).2

/-- The generations of an entry are numbered without gaps. -/
theorem isSome_findRow_of_le {m n : Nat} (hle : m ≤ n)
    (h : (findRow attempts (key, n)).isSome = true) : (findRow attempts (key, m)).isSome = true := by
  simp only [findRow, Option.isSome_bind, Option.isSome_map, Option.any_eq_true] at h ⊢
  obtain ⟨entry, hentry, hn⟩ := h
  refine ⟨entry, hentry, ?_⟩
  rw [isSome_getElem?] at hn ⊢
  exact Nat.lt_of_le_of_lt hle hn

/-! ## Changing one row -/

/-- The document `attempts'` has this row, and the other rows of `attempts`. -/
def Sets (attempts : List Entry) (slot : Slot) (a : Attempt) (row : Row)
    (attempts' : List Entry) : Prop :=
  ∀ slot', findRow attempts' slot' = if slot' = slot then some (a, row) else findRow attempts slot'

theorem Sets.self {attempts' : List Entry} (h : Sets attempts slot a row attempts') :
    findRow attempts' slot = some (a, row) := by
  rw [h slot, if_pos rfl]

theorem Sets.other {attempts' : List Entry} (h : Sets attempts slot a row attempts') {slot' : Slot}
    (hne : slot' ≠ slot) : findRow attempts' slot' = findRow attempts slot' := by
  rw [h slot', if_neg hne]

/-- A row of the new document is the new row or an old one. -/
theorem Sets.cases {attempts' : List Entry} (h : Sets attempts slot a row attempts') {slot' : Slot}
    {a' : Attempt} (hrow : findRow attempts' slot' = some (a', row')) :
    slot' = slot ∧ a' = a ∧ row' = row ∨ slot' ≠ slot ∧ findRow attempts slot' = some (a', row') := by
  rw [h slot'] at hrow
  split at hrow
  · rename_i heq
    simp only [Option.some.injEq, Prod.mk.injEq] at hrow
    exact .inl ⟨heq, hrow.1.symm, hrow.2.symm⟩
  · rename_i hne
    exact .inr ⟨hne, hrow⟩

theorem sets_putRow (h : findRow attempts slot = some (a, row')) :
    Sets attempts slot a row (putRow attempts slot row) := by
  intro slot'
  rw [findRow_putRow, h]
  rfl

/-- A generation that is added to an entry. -/
theorem sets_append (row : Row) (h : findEntry attempts key = some entry) :
    Sets attempts (key, entry.generations.length) entry.toAttempt row
      (updateEntry attempts key (· ++ [row])) := by
  rintro ⟨key', n⟩
  simp only [findRow, findEntry_updateEntry, Prod.mk.injEq]
  by_cases hk : key' = key
  · subst hk
    rw [h]
    by_cases hn : n = entry.generations.length
    · subst hn
      simp
    · simp only [Option.map_some, if_true, Option.bind_some, true_and, if_neg hn]
      rcases Nat.lt_or_gt_of_ne hn with hlt | hgt
      · rw [List.getElem?_append_left hlt]
      · rw [List.getElem?_eq_none (by simp; omega), List.getElem?_eq_none (by omega)]
  · cases findEntry attempts key' <;> simp [hk]

theorem findEntry_insertEntry (h : findEntry attempts entry.key = none) (key' : AttemptKey) :
    findEntry (insertEntry entry attempts) key' =
      if key' = entry.key then some entry else findEntry attempts key' := by
  induction attempts with
  | nil => simp only [insertEntry, findEntry, List.find?]; grind -ring -linarith
  | cons e es ih =>
      have hne : e.key ≠ entry.key := by
        rintro he
        simp [findEntry, he] at h
      have hrest : findEntry es entry.key = none := by simpa [findEntry, hne] using h
      simp only [insertEntry]
      split
      · simp only [findEntry, List.find?_cons]
        grind -ring -linarith
      · have := ih hrest
        simp only [findEntry, List.find?_cons] at this ⊢
        grind -ring -linarith

/-- An entry that is added with its first generation. -/
theorem sets_insertEntry (row : Row) (h : findEntry attempts a.key = none) :
    Sets attempts (a.key, 0) a row (insertEntry ⟨a, [row]⟩ attempts) := by
  rintro ⟨key', n⟩
  simp only [findRow, findEntry_insertEntry (show findEntry attempts (Entry.mk a [row]).key = none from h), Prod.mk.injEq]
  by_cases hk : key' = a.key
  · subst hk
    rw [h]
    cases n <;> simp
  · simp [hk]

/-! ## Ledgers -/

theorem Ledger.validRows (l : Ledger cfg) (h : findEntry l.attempts key = some entry) :
    ValidRows entry.generations := by
  obtain ⟨-, seen, hseen, -⟩ := validate_eq_ok.1 l.valid
  exact validRows_of_validateEntries hseen entry (mem_of_findEntry h).1

/-- Every row of a ledger is valid. -/
theorem Ledger.row_valid (l : Ledger cfg) (h : findRow l.attempts slot = some (a, row)) :
    row.Valid slot.2 := by
  obtain ⟨entry, hentry, -, hrow⟩ := findRow_eq_some.1 h
  exact (l.validRows hentry).2 _ _ hrow

theorem Ledger.save_eq_ok {l : Ledger cfg} :
    Ledger.save cfg attempts = .ok l ↔ l.attempts = attempts ∧ cfg.encodedBytes attempts ≤ maxLedgerBytes := by
  unfold Ledger.save
  split
  · rename_i e he
    refine ⟨fun h => by simp at h, ?_⟩
    rintro ⟨rfl, -⟩
    simp [l.valid] at he
  · rename_i hv
    obtain ⟨attempts', hvalid⟩ := l
    split <;> rename_i hb <;> simp [hb, eq_comm]

/-- A document can be saved when it is valid and small enough. -/
theorem Ledger.save_isOk : (Ledger.save cfg attempts).isOk = true ↔
    cfg.validate attempts = .ok () ∧ cfg.encodedBytes attempts ≤ maxLedgerBytes := by
  unfold Ledger.save
  split
  · rename_i e he
    simp [he, Except.isOk, Except.toBool]
  · rename_i hv
    split <;> rename_i hb <;> simp [hv, hb, Except.isOk, Except.toBool]

/-- The write of a row is accepted when the row is valid and the document small enough. -/
theorem Ledger.save_putRow (l : Ledger cfg) (row : Row) (h : findRow l.attempts slot = some (a, row')) :
    (Ledger.save cfg (putRow l.attempts slot row)).isOk = true ↔
      row.Valid slot.2 ∧ cfg.encodedBytes (putRow l.attempts slot row) ≤ maxLedgerBytes := by
  rw [Ledger.save_isOk]
  refine and_congr_left fun _ => ⟨fun hvalid => ?_, fun hrow => ?_⟩
  · exact (⟨_, hvalid⟩ : Ledger cfg).row_valid (findRow_putRow_self h)
  · refine validate_update l.valid fun entry hmem hk => ?_
    obtain ⟨-, seen, hseen, -⟩ := validate_eq_ok.1 l.valid
    obtain ⟨hlen, hrows⟩ := validRows_of_validateEntries hseen entry hmem
    refine ⟨by simpa using hlen, fun i r hr => ?_⟩
    rw [List.getElem?_set] at hr
    split at hr
    · subst_vars
      split at hr
      · obtain rfl := Option.some.inj hr
        exact hrow
      · simp at hr
    · exact hrows i r hr

end DebBuilder.Automation
