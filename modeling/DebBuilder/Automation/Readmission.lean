import Mathlib
import DebBuilder.Automation.Safety
import DebBuilder.Lib.Angelic

/-!
# A generation whose Run id is preallocated is admitted again

An orchestrator that meets no failure cannot advance such a generation, once it is due and
it is its turn, without linking it to its Run or finishing it: the Run that is there is
linked or refused, and where there is none it is created under the same id.

## Main definitions

* `Smooth` — nothing fails, and the generation is due.
* `Waiting` — the generation has an id for its Run, and no Run.
* `Owned` — the generation is linked to the Run of this id, or finished.

## Main statements

* `Waiting.advance` — an advance cannot avoid `Owned`.
-/

namespace DebBuilder.Automation
open Function Lib

variable {cfg : Config}

/-- Nothing fails, and the row is due. -/
structure Smooth (row : Row) (c : Choice) : Prop where
  fault : c.fault = none
  unreadable : c.unreadable = false
  write : c.write = .done
  create : c.create = .done
  remove : c.remove = .done
  admissionOpen : c.admissionOpen = true
  due : retryDue row c.clock = true

/-- The generation is linked to the Run, or finished. -/
def Owned (slot : Slot) (r : RunId) (s : State cfg) : Prop :=
  ∃ a row, s.row? slot = some (a, row) ∧ (row.runId = some r ∨ row.state.stopped = true)

/-- The generation waits for its Run, and the ledger has room for its row. -/
structure Waiting (slot : Slot) (a : Attempt) (row : Row) (r : RunId) (s : State cfg) : Prop where
  row_eq : s.row? slot = some (a, row)
  live : row.live = true
  unlinked : row.runId = none
  preallocated : row.preallocatedRunId = some r
  room : ∀ row, cfg.encodedBytes (putRow s.ledger.attempts slot row) ≤ maxLedgerBytes

section
variable {slot : Slot} {a : Attempt} {row : Row} {r : RunId} {s s' : State cfg} {entry : Entry} {c : Choice}

theorem Waiting.of_ledger (h : Waiting slot a row r s) (hledger : s'.ledger = s.ledger) :
    Waiting slot a row r s' where
  row_eq := by rw [State.row?, hledger]; exact h.row_eq
  live := h.live
  unlinked := h.unlinked
  preallocated := h.preallocated
  room := by rw [hledger]; exact h.room

theorem Waiting.valid (h : Waiting slot a row r s) : row.Valid slot.2 := s.ledger.row_valid h.row_eq

/-- The entry of the generation that a handler holds. -/
structure Entry.Of (entry : Entry) (slot : Slot) (a : Attempt) (row : Row) : Prop where
  key : entry.key = slot.1
  attempt : entry.toAttempt = a
  generation : row.generation = slot.2

theorem Entry.Of.slot_eq (h : entry.Of slot a row) : (entry.key, row.generation) = slot := by
  rw [h.key, h.generation]

/-- A valid row that is asked for is written. -/
theorem Waiting.ask_write (h : Waiting slot a row r s) (hc : Smooth row c) {held row' : Row} {request : Request}
    (hanswer : request.answer c.now (fun r => some (s.store r).doc?) a row = .ok (.write row'))
    (hvalid : row'.Valid slot.2) : ((s.ask c slot held request).2).row? slot = some (a, row') := by
  have hload : (fun r => if c.unreadable = true then none else some (s.store r).doc?) =
      fun r => some (s.store r).doc? := by
    simp [hc.unreadable]
  obtain ⟨ledger, hsave⟩ : ∃ ledger, Ledger.save cfg (putRow s.ledger.attempts slot row') = .ok ledger := by
    have hisOk := (Ledger.save_putRow s.ledger row' h.row_eq).2 ⟨hvalid, h.room row'⟩
    cases hresult : Ledger.save cfg (putRow s.ledger.attempts slot row') with
    | ok ledger => exact ⟨ledger, rfl⟩
    | error e => simp [hresult, Except.isOk, Except.toBool] at hisOk
  have hattempts := (Ledger.save_eq_ok.1 hsave).1
  unfold State.ask
  simp only [hc.fault, h.row_eq, hload, hanswer, hsave, hc.write, WriteOutcome.committed, if_true]
  show findRow ledger.attempts slot = some (a, row')
  rw [hattempts]
  exact findRow_putRow_self h.row_eq

/-! ## Finishing -/

/-- A generation that is to be finished is finished. -/
theorem Waiting.finish (h : Waiting slot a row r s) (hentry : entry.Of slot a row) {classification : Classification}
    {code diagnostic : String} (hclass : classification ≠ .transientRetryable)
    (hcode : code = "" ∨ isCode code = true) (hdiagnostic : isCode diagnostic = true)
    {Q : Except Fault Unit → State cfg → Prop} :
    (finish entry row classification code diagnostic).Must (Smooth row) (Owned slot r) Q s := by
  have hvalid := h.valid
  refine Prog.Must.seq (Q := fun _ _ => False) (Prog.must_act fun c hc => .inl ?_) (fun _ _ h => h.elim)
    fun _ _ h => h.elim
  rw [hentry.slot_eq]
  refine ⟨a, _, h.ask_write hc rfl ?_, .inr ?_⟩
  · refine (hvalid.stop h.live hclass hvalid.retryCount hdiagnostic).2 ?_
    by_cases hempty : code = ""
    · simp [hempty, optional]
    · simpa [hempty, optional] using hcode
  · cases classification <;> first | exact absurd rfl hclass | rfl

/-- An exception that finishes the generation. -/
structure Fault.Refuses (f : Fault) : Prop where
  isException : f.isException = true
  code : isCode (f.code "execution_admission_failed") = true
  open_ : f.code "execution_admission_failed" ≠ "application_shutting_down"
  lasting : f.code "execution_admission_failed" ∉ runAdmissionTransientCodes

theorem Waiting.admissionRefused (h : Waiting slot a row r s) (hentry : entry.Of slot a row) {f : Fault}
    (hf : f.Refuses) {Q : Except Fault Unit → State cfg → Prop} :
    (admissionRefused entry row f).Must (Smooth row) (Owned slot r) Q s := by
  unfold Automation.admissionRefused
  dsimp only
  rw [if_neg (by simp [hf.isException]), if_neg hf.open_]
  refine Prog.must_bind_look fun c hc => ⟨true, by rw [hc.admissionOpen], ?_⟩
  simp only [if_true]
  rw [if_neg hf.lasting]
  exact h.finish hentry (by simp) (.inr hf.code) (by decide)

/-! ## The Run -/

/-- The reads of a smooth call. -/
theorem Smooth.read {α : Type} (hc : Smooth row c) (x : α) : c.read x = .ok x := by
  simp [Choice.read, hc.fault]

/-- What the ledger answers to a link that it refuses. -/
theorem refuses_linkRun {now : Time} {load : RunId → Option (Option Run)} {e : LedgerError} {r' : RunId}
    (h : (Request.linkRun r').answer now load a row = .error e) : (Fault.ledger e).Refuses := by
  have hcode : e.code = "automation_run_mismatch" ∨ e.code = "automation_run_binding_invalid" ∨
      e.code = "automation_run_not_found" := by
    simp only [Request.answer] at h
    split_ifs at h
    · simp [← Except.error.inj h]
    · simp [← Except.error.inj h]
    · split at h
      · simp [← Except.error.inj h]
      · rename_i doc _
        cases doc with
        | none => simp [← Except.error.inj h]
        | some doc =>
            cases hb : bound a row doc
            · simp only [verifyRunBinding, require, hb, Except.map] at h
              simp [← Except.error.inj h]
            · simp [verifyRunBinding, require, hb, Except.map] at h
  refine ⟨rfl, ?_, ?_, ?_⟩ <;> rcases hcode with h | h | h <;> simp only [Fault.code, Fault.code?, h] <;> decide

/-- The generation is linked to its Run, or the link is refused. -/
theorem Waiting.linkRun (h : Waiting slot a row r s) (hentry : entry.Of slot a row) :
    (ask entry row fun _ => .linkRun r : Code cfg Row).Must (Smooth row) (Owned slot r)
      (fun result s' => Waiting slot a row r s' ∧ ∃ f, result = .error f ∧ f.Refuses) s := by
  refine Prog.must_act fun c hc => ?_
  rw [hentry.slot_eq]
  cases hanswer : (Request.linkRun r).answer c.now (fun r => some (s.store r).doc?) a row with
  | error e =>
      have hask : s.ask c slot row (.linkRun r) = (.error (.ledger e), s) := by
        simp [State.ask, hc.fault, h.row_eq, hc.unreadable, hanswer]
      rw [hask]
      exact .inr ⟨h, _, rfl, refuses_linkRun hanswer⟩
  | ok answer =>
      left
      have hwrite : answer = .write (row.link r c.now) := by
        simp only [Request.answer, h.unlinked, h.preallocated] at hanswer
        simp only [ne_eq, not_true_eq_false, if_false] at hanswer
        cases hdoc : (s.store r).doc? with
        | none => simp [hdoc, verifyRunBinding, Except.map] at hanswer
        | some doc =>
            simp only [hdoc] at hanswer
            cases hb : bound a row doc
            · simp [verifyRunBinding, require, hb, Except.map] at hanswer
            · simpa [verifyRunBinding, require, hb, Except.map, eq_comm] using hanswer
      rw [hwrite] at hanswer
      exact ⟨a, _, h.ask_write hc hanswer (h.valid.link h.live h.unlinked h.preallocated), .inl rfl⟩

/-- How a part of the admission ends that does not link the generation. -/
def Refused? (slot : Slot) (a : Attempt) (row : Row) (r : RunId) {α : Type} (result : Except Fault α)
    (s : State cfg) : Prop :=
  Waiting slot a row r s ∧ ∃ f, result = .error f ∧ f.Refuses

theorem Refused?.error {α β : Type} {f : Fault} (h : Refused? slot a row r (.error f : Except Fault α) s) :
    Refused? slot a row r (.error f : Except Fault β) s := by
  obtain ⟨hw, f', hf, hrefuses⟩ := h
  exact ⟨hw, f', by rw [Except.error.inj hf], hrefuses⟩

theorem Waiting.linkAndSubmit (h : Waiting slot a row r s) (hentry : entry.Of slot a row) {recipe : Recipe}
    {mode : RunMode} {origin : Origin} {automation : RunAutomation} {createdNow : Bool} {run : Run} :
    (linkAndSubmit r recipe mode origin automation (fun r => ask entry row fun _ => .linkRun r) createdNow
      run : Code cfg Unit).Must (Smooth row) (Owned slot r) (Refused? slot a row r) s := by
  unfold Automation.linkAndSubmit
  split_ifs with hbinding hstatus
  · exact Prog.must_throw ⟨h, _, rfl, rfl, by decide, by decide, by decide⟩
  · obtain rfl : run.id = r := by
      by_contra hne
      exact hbinding (.inl hne)
    refine Prog.Must.seq (h.linkRun hentry) ?_ ?_
    · rintro _ s' ⟨-, f, hf, -⟩
      cases hf
    · exact fun f s' => Refused?.error
  · obtain rfl : run.id = r := by
      by_contra hne
      exact hbinding (.inl hne)
    have hlink : ∀ {rest : Row → Code cfg Unit}, ((ask entry row fun _ => .linkRun run.id : Code cfg Row).bind
        rest).Must (Smooth row) (Owned slot run.id) (Refused? slot a row run.id) s := by
      intro rest
      refine Prog.Must.seq (h.linkRun hentry) ?_ ?_
      · rintro _ s' ⟨-, f, hf, -⟩
        cases hf
      · exact fun f s' => Refused?.error
    cases createdNow with
    | true => exact hlink
    | false => exact Prog.must_bind_look fun c hc => ⟨(), hc.read (), hlink⟩

/-- The Run that is not there is created. -/
theorem Waiting.createRun (h : Waiting slot a row r s) (habsent : (s.store r).onDisk = false) {recipe : Recipe}
    {mode : RunMode} {origin : Origin} {automation : RunAutomation} {result : Except Fault Run × State cfg}
    (hc : Smooth row c) (hresult : s.createRun c r recipe mode origin automation = result) :
    Waiting slot a row r result.2 ∧ (result.1 = .error .value ∨ ∃ run, result.1 = .ok run) := by
  unfold State.createRun at hresult
  simp only [habsent, hc.create, Bool.false_eq_true, if_false] at hresult
  split_ifs at hresult
  · rw [← hresult]
    exact ⟨h, .inl rfl⟩
  · rw [← hresult]
    exact ⟨h.of_ledger rfl, .inr ⟨_, rfl⟩⟩

theorem Waiting.enqueueRun (h : Waiting slot a row r s) (hentry : entry.Of slot a row)
    (habsent : (s.store r).onDisk = false) {recipe : Recipe} {mode : RunMode} {origin : Origin}
    {automation : RunAutomation} :
    (enqueueRun r recipe mode origin automation fun r => ask entry row fun _ => .linkRun r : Code cfg Unit).Must
      (Smooth row) (Owned slot r) (Refused? slot a row r) s := by
  have hdoc : (s.store r).doc? = none := Workspace.doc?_of_not_onDisk (by simp [habsent])
  unfold Automation.enqueueRun
  refine Prog.must_bind_look fun c hc => ⟨(), hc.read (), ?_⟩
  refine Prog.must_bind_look fun c hc => ⟨none, by rw [hc.read, hdoc], ?_⟩
  refine Prog.must_bind_look fun c hc => ⟨(), hc.read (), ?_⟩
  refine Prog.Must.catch (Q := fun result s' => Waiting slot a row r s' ∧
    (result = .error .value ∨ ∃ run, result = .ok run)) (Prog.must_act fun c hc => .inr ?_) ?_
  · exact h.createRun habsent hc rfl
  · rintro _ s' ⟨hw, rfl | ⟨run, rfl⟩⟩
    · dsimp only
      rw [if_neg (by decide)]
      exact Prog.must_throw ⟨hw, _, rfl, rfl, by decide, by decide, by decide⟩
    · exact hw.linkAndSubmit hentry

/-- The claim of the id, which links the Run that is there. -/
theorem Waiting.claimRun (h : Waiting slot a row r s) (hentry : entry.Of slot a row)
    (hcomplete : s.store r ≠ .incomplete) :
    (claimRun entry row : Code cfg Row).Must (Smooth row) (Owned slot r) (fun result s' =>
      Refused? slot a row r result s' ∨
        result = .ok row ∧ Waiting slot a row r s' ∧ (s'.store r).onDisk = false) s := by
  unfold Automation.claimRun
  rw [if_neg (by simp [h.preallocated])]
  unfold reconcilePreallocatedRun readRow readLedger loadPreallocated loadRun
  refine Prog.Must.seq (Q := fun result s' => result = .ok row ∧ s = s') ?_ ?_ ?_
  · refine Prog.must_bind_look fun c hc => ⟨_, hc.read _, ?_⟩
    have hrow : findRow s.ledger.attempts slot = some (a, row) := h.row_eq
    rw [hentry.slot_eq, hrow]
    exact Prog.must_pure ⟨rfl, rfl⟩
  · rintro found s' ⟨hfound, rfl⟩
    obtain rfl := (Except.ok.inj hfound).symm
    simp only [h.unlinked, h.preallocated]
    refine Prog.Must.seq (Q := fun result s' => result = .ok (s.store r).doc? ∧ s = s') ?_ ?_ ?_
    · refine Prog.Must.catch (Q := fun result s' => result = .ok (s.store r).doc? ∧ s = s')
        (Prog.must_look fun c hc => ⟨hc.read _, rfl⟩) ?_
      rintro _ s' ⟨rfl, rfl⟩
      exact Prog.must_pure ⟨rfl, rfl⟩
    · rintro doc s' ⟨hdoc, rfl⟩
      obtain rfl := Except.ok.inj hdoc
      have hdiscard : ∀ {w : Workspace}, s.store r = w → w.onDisk = false →
          ∀ c, s.discard c r = (.ok true, s) := by
        intro w hstore hw c
        unfold State.discard Store.discardIncompleteCreation
        rw [hstore]
        cases w with
        | absent => rfl
        | gone => rfl
        | incomplete => cases hw
        | run doc => cases hw
      have hrest : ∀ {w : Workspace}, s.store r = w → w.onDisk = false →
          ((Prog.act fun c s => s.discard c r : Code cfg Bool).bind fun discarded =>
            if discarded then .pure row
            else .throw (bindingInvalid "Incomplete preallocated Run cannot be discarded")).Must (Smooth row)
              (Owned slot r) (fun result s' => Refused? slot a row r result s' ∨
                result = .ok row ∧ Waiting slot a row r s' ∧ (s'.store r).onDisk = false) s := by
        intro w hstore hw
        refine Prog.must_bind_act fun c hc => ⟨true, by rw [hdiscard hstore hw c], ?_⟩
        rw [hdiscard hstore hw c]
        exact Prog.must_pure (.inr ⟨rfl, h, by rw [hstore]; exact hw⟩)
      cases hstore : s.store r with
      | run doc => exact (h.linkRun hentry).mono fun _ _ hr => .inl hr
      | incomplete => exact (hcomplete hstore).elim
      | absent => exact hrest hstore rfl
      | gone => exact hrest hstore rfl
    · rintro e s' ⟨he, -⟩
      cases he
  · rintro e s' ⟨he, -⟩
    cases he

/-- The rest of the leased part of the admission. -/
theorem Waiting.enqueueClaimed (h : Waiting slot a row r s) (hentry : entry.Of slot a row)
    (habsent : (s.store r).onDisk = false) {recipe : Recipe} :
    (enqueueClaimed entry row recipe false : Code cfg Bool).Must (Smooth row) (Owned slot r) (fun result s' =>
      Refused? slot a row r result s' ∨ result = .ok false ∧ Waiting slot a row r s') s := by
  unfold Automation.enqueueClaimed loadRecipe readLedger
  refine Prog.must_bind_look fun c hc => ⟨(s.recipes entry.recipeId).filter (·.name = entry.recipeId),
    by simp [hc.fault], ?_⟩
  split
  · exact Prog.must_pure (.inr ⟨rfl, h⟩)
  · refine Prog.must_bind_look fun c hc => ⟨_, hc.read _, ?_⟩
    rw [show row.preallocatedRunId.getD "" = r by rw [h.preallocated]; rfl]
    refine Prog.Must.seq (h.enqueueRun hentry habsent) ?_ ?_
    · rintro _ s' ⟨-, f, hf, -⟩
      cases hf
    · exact fun f s' hr => .inl hr.error

/-- The leased part of the admission. -/
theorem Waiting.admitRecipe (h : Waiting slot a row r s) (hentry : entry.Of slot a row)
    (hcomplete : s.store r ≠ .incomplete) {handler : Entry → Row → Code cfg Unit} {recipe : Recipe} :
    (admitRecipe handler entry row recipe false).Must (Smooth row) (Owned slot r) (fun _ _ => False) s := by
  unfold Automation.admitRecipe findOwner
  refine Prog.Must.catch (Q := fun result s' => result = .ok false ∧ s' = s) (Prog.must_act fun c hc => .inr ?_) ?_
  · simp [hc.fault, h.preallocated]
  rintro _ s' ⟨rfl, rfl⟩
  refine Prog.Must.catch (h.claimRun hentry hcomplete) ?_
  rintro _ s' (⟨hw, f, rfl, hf⟩ | ⟨rfl, hw, habsent⟩)
  · exact hw.admissionRefused hentry hf
  · refine Prog.Must.catch (hw.enqueueClaimed hentry habsent) ?_
    rintro _ s'' (⟨hw', f, rfl, hf⟩ | ⟨rfl, hw'⟩)
    · exact hw'.admissionRefused hentry hf
    · exact hw'.finish hentry (by simp) (.inr (by decide)) (by decide)

theorem Waiting.admitRun (h : Waiting slot a row r s) (hentry : entry.Of slot a row)
    (hcomplete : s.store r ≠ .incomplete) {handler : Entry → Row → Code cfg Unit} {recipe : Option Recipe} :
    (admitRun handler entry row recipe false).Must (Smooth row) (Owned slot r) (fun _ _ => False) s := by
  unfold Automation.admitRun admissionOpen recipeToAdmit
  refine Prog.must_bind_look fun c hc => ⟨true, by rw [hc.admissionOpen], ?_⟩
  simp only [if_true, Bool.not_false, Bool.true_and, Bool.false_and, Bool.false_eq_true, if_false]
  split_ifs
  · exact h.finish hentry (by simp) (.inr (by decide)) (by decide)
  · cases recipe with
    | none => exact h.finish hentry (by simp) (.inr (by decide)) (by decide)
    | some recipe => exact h.admitRecipe hentry hcomplete

/-! ## The whole advance -/

theorem Waiting.dispatch (h : Waiting slot a row r s) (hentry : entry.Of slot a row)
    (hcomplete : s.store r ≠ .incomplete) (depth : Nat) :
    (dispatch depth entry row : Code cfg Unit).Must (Smooth row) (Owned slot r) (fun _ _ => False) s := by
  unfold Automation.dispatch loadRecipe
  rw [if_neg (by simp [h.unlinked])]
  refine Prog.must_bind_look fun c hc => ⟨(s.recipes entry.recipeId).filter (·.name = entry.recipeId),
    by simp [hc.fault], ?_⟩
  exact h.admitRun hentry hcomplete

theorem Waiting.advanceLocked (h : Waiting slot a row r s) (hcomplete : s.store r ≠ .incomplete)
    (hturn : isRecipeTurn s.ledger.attempts row a = true) (depth : Nat) :
    (advanceLocked depth slot : Code cfg Unit).Must (Smooth row) (Owned slot r) (fun _ _ => False) s := by
  obtain ⟨entry, hentry, hattempt, -⟩ := findRow_eq_some.1 h.row_eq
  have hof : entry.Of slot a row := ⟨(mem_of_findEntry hentry).2, hattempt, h.valid.generation⟩
  have hrow : findRow s.ledger.attempts slot = some (a, row) := h.row_eq
  have hlive : row.state.stopped = false := by simpa [Row.live] using h.live
  unfold Automation.advanceLocked readLedger
  refine Prog.must_bind_look fun c hc => ⟨_, hc.read _, ?_⟩
  simp only [hentry, hrow]
  refine Prog.must_bind_look fun c hc => ⟨_, rfl, ?_⟩
  rw [if_neg (by simp [hlive, hc.due, hattempt, hturn])]
  exact h.dispatch hof hcomplete depth

/-- An advance that meets no failure links the generation to its Run or finishes it. -/
theorem Waiting.advance (h : Waiting slot a row r s) (hlock : s.locks slot = false)
    (hcomplete : s.store r ≠ .incomplete) (hturn : isRecipeTurn s.ledger.attempts row a = true) (depth : Nat) :
    (advance depth slot : Code cfg Unit).Must (Smooth row) (Owned slot r) (fun _ _ => False) s := by
  unfold Automation.advance acquire
  refine Prog.must_bind_act fun c hc => ⟨true, by simp [hlock], ?_⟩
  have hlocked : Waiting slot a row r { s with locks := update s.locks slot true } := h.of_ledger rfl
  simp only [if_true]
  unfold Prog.ensuring logLedgerError Prog.handle
  refine Prog.Must.catch (Q := fun _ _ => False) ?_ fun _ _ h => h.elim
  exact Prog.Must.catch (hlocked.advanceLocked hcomplete hturn depth) fun _ _ h => h.elim

end

end DebBuilder.Automation
