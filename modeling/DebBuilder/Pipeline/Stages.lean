import Mathlib
import DebBuilder.Pipeline.Phases

/-!
# The stages of the pipeline

Each stage keeps the phase it starts in, or fails the Run, or raises before the claim.
After the claim only the claimed status is written, and only the store raises.

## Main definitions

* `Keeps` — the program keeps the pipeline at work.
* `StageEnd`, `ClaimingEnd`, `PipelineEnd`, `FinishEnd` — how the parts of the pipeline end.

## Main results

* `finish_runPipelineLocked` — how the pipeline ends.
-/

namespace DebBuilder
namespace Pipeline
open Lib Function

variable {τ : Type} [DecidableEq τ] {t : τ} {r : RunId} {first : Run} {α : Type}

/-! ## Parts that keep the pipeline at work -/

/-- The program keeps the pipeline at work, however it ends. -/
def Keeps (t : τ) (r : RunId) (first : Run) (p : Code α) : Prop :=
  (worker r first).Triple t (Active r) p fun _ => Active r

namespace Keeps

theorem pure (a : α) : Keeps t r first (.pure a) :=
  Ownership.Triple.pure fun _ => id

theorem throw (e : Raised) : Keeps t r first (.throw e : Code α) :=
  Ownership.Triple.throw fun _ => id

theorem seq {β : Type} {p : Code α} {f : α → Code β} (hp : Keeps t r first p)
    (hf : ∀ a, Keeps t r first (f a)) : Keeps t r first (p.bind f) :=
  Ownership.Triple.seq hp hf fun _ _ => id

theorem attempt {β : Type} {p : Code α} {k : Except Raised α → Code β} (hp : Keeps t r first p)
    (hk : ∀ res, Keeps t r first (k res)) : Keeps t r first (p.attempt.bind k) :=
  Ownership.Triple.catch hp hk

theorem look {f : JobChoice → Job → Except Raised α} : Keeps t r first (.look f) :=
  Ownership.Triple.look fun _ _ _ h => h

end Keeps

/-- An edit of the document in memory. -/
theorem triple_edit {f : Time → Run → Run} {P : Worked → Prop}
    {Q : Except Raised Time → Worked → Prop}
    (h : ∀ now o, P o → Q (.ok now) { o with run := f now o.run }) :
    (worker r first).Triple t P (edit f) Q :=
  triple_quiet fun c s hinv hP => ⟨⟨rfl, rfl, rfl, rfl⟩, hinv.outcome, h c.now s.toWorked hP⟩

theorem keeps_edit {f : Time → Run → Run}
    (h : ∀ now run, run.status.terminal = false → (f now run).status.terminal = false) :
    Keeps t r first (edit f) :=
  triple_edit fun now o ho => ⟨ho.1, h now o.run ho.2⟩

theorem keeps_appendEvent : Keeps t r first (appendEvent r) :=
  triple_quiet fun c s _ hP =>
    have hs := saves_appendEvent c s
    ⟨hs.quiet, (hs.active hP).1.outcome, hs.active hP⟩

theorem keeps_appendEvents (k : Nat) : Keeps t r first (appendEvents r k) := by
  induction k with
  | zero => exact .pure ()
  | succ k ih => exact .seq keeps_appendEvent fun _ => ih

theorem keeps_startStep (name : StepName) : Keeps t r first (startStep r name) :=
  .seq (keeps_edit fun _ _ => id) fun _ => .seq keeps_appendEvent fun _ => .look

theorem keeps_finishStep {name : StepName} {started : Time} {status : StepStatus}
    {summary : String} {error : Option RunError} :
    Keeps t r first (finishStep r name started status summary error) :=
  .seq (keeps_edit fun _ _ => id) fun _ => keeps_appendEvent

theorem keeps_recordRequest (request : CancelRequest) (stage : String) :
    Keeps t r first (recordRequest r request stage) := by
  refine .seq .look fun b => ?_
  cases b with
  | true => exact .seq (keeps_edit fun _ _ _ => rfl) fun _ => keeps_appendEvent
  | false => exact .pure ()

theorem keeps_observe (stage : String) : Keeps t r first (observe r stage) := by
  refine .seq .look fun request => .seq .look fun event => ?_
  split
  · exact .seq (keeps_recordRequest _ stage) fun _ => .look
  · exact .pure none

theorem keeps_checkpoint (stage : String) : Keeps t r first (checkpoint r stage) := by
  refine .seq (keeps_observe stage) fun note => ?_
  cases note with
  | some note => exact .throw _
  | none => exact .pure ()

theorem keeps_onCancel (stage : String) : Keeps t r first (onCancel r stage) :=
  .seq (keeps_observe stage) fun _ => .pure ()

/-- A stage keeps what its callbacks keep. -/
theorem keeps_runStage {callbacks : List (Code Unit)}
    (h : ∀ p ∈ callbacks, Keeps t r first p) (n : Nat) :
    Keeps t r first (runStage callbacks n) := by
  induction n with
  | zero => exact Ownership.Triple.halt
  | succ n ih =>
      refine .seq .look fun step => ?_
      cases step with
      | callback i =>
          refine .attempt ?_ fun _ => ih
          rw [List.getD_eq_getElem?_getD]
          cases hi : callbacks[i]? with
          | none => exact .pure ()
          | some p => exact h p (List.mem_of_getElem? hi)
      | returns facts => exact .pure facts
      | raises e => exact .throw e

theorem keeps_runStage_nil (n : Nat) : Keeps t r first (runStage [] n) :=
  keeps_runStage (by simp) n

theorem keeps_onlyIf {b : Bool} {p : Code Unit} (h : Keeps t r first p) :
    Keeps t r first (onlyIf b p) := by
  cases b with
  | true => exact h
  | false => exact .pure ()

/-! ## The stages -/

/-- How a stage ends: at work, or failed; or it raises before the claim. -/
def StageEnd (r : RunId) : Except Raised α → Worked → Prop
  | .ok _, o => Held r o
  | .error _, o => Unclaimed r o

/-- How the pipeline ends: failed, or with a claimed status in memory; or it raises,
after the claim only an exception of the store. -/
def PipelineEnd (r : RunId) : Except Raised α → Worked → Prop
  | .ok _, o => Doomed r o ∨ ∃ status, Concluded r status o
  | .error e, o => Unclaimed r o ∨ Broken r e o

theorem Keeps.stage {p : Code α} (h : Keeps t r first p) :
    (worker r first).Triple t (Active r) p (StageEnd r) :=
  h.mono (fun _ => id) fun res _ ho => match res with
    | .ok _ => .inl ho
    | .error _ => ho.1

/-- A stage after what keeps the pipeline at work. -/
theorem stage_seq {β : Type} {p : Code α} {f : α → Code β}
    {Q : Except Raised β → Worked → Prop} (hp : Keeps t r first p)
    (hf : ∀ a, (worker r first).Triple t (Active r) (f a) Q)
    (hQ : ∀ e o, Active r o → Q (.error e) o) :
    (worker r first).Triple t (Active r) (p.bind f) Q :=
  Ownership.Triple.seq hp hf fun e o ho => hQ e o ho

/-- The rule of a stage's `except` clause. -/
theorem triple_catching {kinds : List StageError} {body : Code Unit}
    {handler : StageFailure → Code Unit} {B Q : Except Raised Unit → Worked → Prop}
    {P : Worked → Prop} (hbody : (worker r first).Triple t P body B)
    (hhandler : ∀ failure, (worker r first).Triple t (B (.error (.stage failure))) (handler failure) Q)
    (hok : ∀ o, B (.ok ()) o → Q (.ok ()) o) (herr : ∀ e o, B (.error e) o → Q (.error e) o) :
    (worker r first).Triple t P (catching kinds body handler) Q := by
  refine .catch hbody fun res => ?_
  match res with
  | .ok () => exact .pure hok
  | .error (.stage failure) =>
      dsimp only
      split
      · exact hhandler failure
      · exact .throw fun o => herr _ o
  | .error (.cancelled ..) | .error (.pipeline ..) | .error (.other _) =>
      exact .throw fun o => herr _ o

/-- The end of a step with its exception fails the Run. -/
theorem triple_failStep {name : StepName} {started : Time} {failure : StageFailure} :
    (worker r first).Triple t (Active r) (failStep r name started failure)
      (fun res o => match res with | .ok _ => Doomed r o | .error _ => Unclaimed r o) := by
  refine stage_seq (keeps_finishStep) (fun _ => ?_) fun _ _ ho => ho.1
  refine .seq (triple_edit (Q := fun _ => Doomed r) fun _ o ho => ⟨ho.1, rfl⟩) (fun _ => ?_)
    fun _ _ ho => ho.1
  exact .pure fun _ => id

theorem stage_failStep {name : StepName} {started : Time} {failure : StageFailure} :
    (worker r first).Triple t (Active r) (failStep r name started failure) (StageEnd r) :=
  triple_failStep.mono (fun _ => id) fun res _ ho => match res with
    | .ok _ => .inr ho
    | .error _ => ho

/-- A stage whose body keeps the pipeline at work. -/
theorem stage_catching {kinds : List StageError} {body : Code Unit}
    {handler : StageFailure → Code Unit} (hbody : Keeps t r first body)
    (hhandler : ∀ failure, (worker r first).Triple t (Active r) (handler failure) (StageEnd r)) :
    (worker r first).Triple t (Active r) (catching kinds body handler) (StageEnd r) :=
  triple_catching hbody hhandler (fun _ => .inl) fun _ _ ho => ho.1

/-- What is done unless the Run has failed. -/
theorem triple_unlessFailed {body : Code Unit} {Q : Except Raised Unit → Worked → Prop}
    (hbody : (worker r first).Triple t (Active r) body Q) (hQ : ∀ o, Doomed r o → Q (.ok ()) o) :
    (worker r first).Triple t (Held r) (unlessFailed body) Q := by
  refine .seq (Q := fun res o => match res with
    | .ok failed => if failed then Doomed r o else Active r o
    | .error _ => False) ?_ (fun failed => ?_) (by simp)
  · refine .look fun c s _ ho => ?_
    by_cases hf : s.run.status = .failed
    · simp only [hf, decide_true, if_true]
      exact ho.resolve_left fun ha => ha.not_failed hf
    · simp only [hf, decide_false, Bool.false_eq_true, if_false]
      exact ho.resolve_right fun hd => hf hd.2
  · cases failed with
    | true => exact .pure hQ
    | false => exact hbody

theorem stage_sourceStage (n : Nat) :
    (worker r first).Triple t (Active r) (sourceStage r n) (StageEnd r) := by
  refine stage_seq (keeps_startStep .source) (fun started => ?_) fun _ _ ho => ho.1
  refine stage_catching ?_ fun _ => stage_failStep
  exact .seq (keeps_checkpoint _) fun _ => .seq (keeps_runStage_nil n) fun _ =>
    .seq (keeps_checkpoint _) fun _ => keeps_finishStep

theorem keeps_detect (plan : Plan) (n : Nat) : Keeps t r first (detect plan n) := by
  unfold detect
  split
  · exact .pure _
  · refine .seq (keeps_runStage_nil n) fun facts => ?_
    split
    · exact .throw _
    · exact .pure facts

theorem keeps_prepareToolchain (n : Nat) : Keeps t r first (prepareToolchain r n) := by
  have hcallbacks : ∀ p ∈ [checkpoint r "dependencies"], Keeps t r first p := by
    simp only [List.mem_singleton, forall_eq]
    exact keeps_checkpoint _
  exact .seq (keeps_runStage hcallbacks n) fun _ => .seq (keeps_checkpoint _) fun _ =>
    .seq (keeps_runStage hcallbacks n) fun _ => .seq (keeps_checkpoint _) fun _ =>
    .seq (keeps_runStage_nil n) fun _ => keeps_appendEvent

theorem keeps_runStage_onCancel (stage : String) (n : Nat) :
    Keeps t r first (runStage [onCancel r stage] n) := by
  refine keeps_runStage ?_ n
  simp only [List.mem_singleton, forall_eq]
  exact keeps_onCancel stage

theorem keeps_npmCi (n : Nat) : Keeps t r first (npmCi r n) := by
  refine .seq (keeps_runStage_onCancel _ n) fun facts => .seq keeps_appendEvent fun _ =>
    .seq (keeps_runStage_nil n) fun _ => ?_
  split
  · exact .pure ()
  · exact .throw _

theorem keeps_auxiliaryInstall (dryRun : Bool) (n : Nat) (prepared : Bool) :
    Keeps t r first (auxiliaryInstall r dryRun n prepared) := by
  unfold auxiliaryInstall
  split
  · refine .seq (keeps_runStage_nil n) fun _ => ?_
    split
    · exact keeps_appendEvent
    · exact keeps_npmCi n
  · exact .throw _

theorem keeps_checkDependencies {plan : Plan} {dryRun : Bool} {n : Nat} {facts : Facts}
    {started : Time} : Keeps t r first (checkDependencies r plan dryRun n facts started) :=
  .seq (keeps_onlyIf (keeps_prepareToolchain n)) fun _ =>
    .seq (keeps_runStage_onCancel _ n) fun _ => .seq (keeps_checkpoint _) fun _ =>
    .seq (keeps_onlyIf (keeps_auxiliaryInstall dryRun n _)) fun _ =>
    .seq (keeps_appendEvents 6) fun _ => keeps_finishStep

theorem stage_dependenciesStage (plan : Plan) (dryRun : Bool) (n : Nat) (facts : Facts) :
    (worker r first).Triple t (Active r) (dependenciesStage r plan dryRun n facts) (StageEnd r) := by
  refine stage_seq (keeps_startStep .dependencies) (fun started => ?_) fun _ _ ho => ho.1
  refine stage_seq (keeps_checkpoint _) (fun _ => ?_) fun _ _ ho => ho.1
  split
  · exact keeps_finishStep.stage
  · refine stage_catching keeps_checkDependencies fun failure => ?_
    exact stage_seq (keeps_appendEvents 6) (fun _ => stage_failStep) fun _ _ ho => ho.1

theorem stage_sourceChangesStage (plan : Plan) (n : Nat) :
    (worker r first).Triple t (Active r) (sourceChangesStage r plan n) (StageEnd r) := by
  refine stage_seq (keeps_startStep .sourceChanges) (fun started => ?_) fun _ _ ho => ho.1
  refine stage_seq (keeps_checkpoint _) (fun _ => ?_) fun _ _ ho => ho.1
  split
  · exact keeps_finishStep.stage
  · refine stage_catching ?_ fun _ => stage_failStep
    have hcallbacks : ∀ p ∈ [do appendEvent r; checkpoint r "source_changes"],
        Keeps t r first p := by
      simp only [List.mem_singleton, forall_eq]
      exact .seq keeps_appendEvent fun _ => keeps_checkpoint _
    exact .seq (keeps_runStage hcallbacks n) fun _ => .seq (keeps_checkpoint _) fun _ =>
      .seq (keeps_onlyIf (.seq (keeps_runStage_nil n) fun _ => .pure ())) fun _ =>
      keeps_finishStep

theorem stage_buildStage (plan : Plan) (dryRun : Bool) (n : Nat) :
    (worker r first).Triple t (Active r) (buildStage r plan dryRun n) (StageEnd r) := by
  refine stage_seq (keeps_startStep .build) (fun started => ?_) fun _ _ ho => ho.1
  refine stage_seq (keeps_checkpoint _) (fun _ => ?_) fun _ _ ho => ho.1
  split
  · exact keeps_finishStep.stage
  · refine stage_catching ?_ fun _ => stage_failStep
    have hcallbacks : ∀ p ∈ [appendEvent r, do appendEvent r; checkpoint r "build",
        onCancel r "build"], Keeps t r first p := by
      simp only [List.mem_cons, List.not_mem_nil, or_false]
      rintro p (rfl | rfl | rfl)
      · exact keeps_appendEvent
      · exact .seq keeps_appendEvent fun _ => keeps_checkpoint _
      · exact keeps_onCancel _
    exact .seq (keeps_runStage hcallbacks n) fun _ => .seq (keeps_checkpoint _) fun _ =>
      keeps_finishStep

theorem restart_status (name : StepName) (now : Time) (run : Run) :
    (restart name now run).status = run.status := by
  unfold restart
  split <;> rfl

theorem keeps_failStagingStep {started : Time} {name : StepName} {failure : StageFailure} :
    Keeps t r first (failStagingStep r started name failure) := by
  refine .seq .look fun b => ?_
  split
  · exact keeps_finishStep
  · exact .pure ()

theorem stage_failStaging (started : Time) (failure : StageFailure) :
    (worker r first).Triple t (Active r) (failStaging r started failure) (StageEnd r) := by
  refine stage_seq (keeps_edit fun now run h => by rwa [restart_status]) (fun now => ?_)
    fun _ _ ho => ho.1
  refine stage_seq keeps_finishStep (fun _ => ?_) fun _ _ ho => ho.1
  refine stage_seq keeps_failStagingStep (fun _ => ?_) fun _ _ ho => ho.1
  refine .seq (triple_edit (Q := fun _ => Doomed r) fun _ o ho => ⟨ho.1, rfl⟩) (fun _ => ?_)
    fun _ _ ho => ho.1
  exact .pure fun _ => .inr

theorem stage_stagingStage (n : Nat) :
    (worker r first).Triple t (Active r) (stagingStage r n) (StageEnd r) := by
  refine stage_seq (keeps_startStep .staging) (fun started => ?_) fun _ _ ho => ho.1
  refine stage_catching ?_ fun failure => stage_failStaging started failure
  have hcallbacks : ∀ p ∈ [checkpoint r "systemd", checkpoint r "debian_metadata"],
      Keeps t r first p := by
    simp only [List.mem_cons, List.not_mem_nil, or_false]
    rintro p (rfl | rfl)
    · exact keeps_checkpoint _
    · exact keeps_checkpoint _
  exact .seq (keeps_checkpoint _) fun _ => .seq (keeps_runStage hcallbacks n) fun facts =>
    .seq (keeps_checkpoint _) fun _ => .seq (keeps_runStage_nil n) fun _ =>
    .seq (keeps_checkpoint _) fun _ => .seq (keeps_runStage_nil n) fun _ =>
    .seq keeps_finishStep fun _ => .seq (keeps_startStep _) fun _ =>
    .seq (keeps_checkpoint _) fun _ => .seq keeps_finishStep fun _ =>
    .seq (keeps_startStep _) fun _ => .seq (keeps_checkpoint _) fun _ => keeps_finishStep

/-! ## The claim -/

/-- A failed Run is not observed to be cancelling. -/
theorem doomed_observe (stage : String) :
    (worker r first).Triple t (Doomed r) (observe r stage) fun _ => Doomed r := by
  refine .seq (Q := fun _ => Doomed r) (.look fun _ _ _ h => h) (fun request => ?_) fun _ _ h => h
  refine .seq (Q := fun _ => Doomed r) (.look fun _ _ _ h => h) (fun event => ?_) fun _ _ h => h
  split
  · refine .seq (Q := fun _ => Doomed r) ?_ (fun _ => .look fun _ _ _ h => h) fun _ _ h => h
    refine .seq (Q := fun res o => Doomed r o ∧ res = .ok false) ?_ (fun b => ?_) (by simp)
    · refine .look fun c s _ h => ⟨h, ?_⟩
      have hfailed : s.run.status = .failed := h.2
      simp [hfailed]
    · cases b with
      | true => exact .absurd fun o h => by simp at h
      | false => exact .pure fun _ h => h.1
  · exact .pure fun _ h => h

/-- A checkpoint of a failed Run. -/
theorem doomed_checkpoint (stage : String) :
    (worker r first).Triple t (Doomed r) (checkpoint r stage) fun _ => Doomed r := by
  refine .seq (doomed_observe stage) (fun note => ?_) fun _ _ h => h
  cases note with
  | some note => exact .throw fun _ h => h
  | none => exact .pure fun _ h => h

section
variable {P : Worked → Prop} {K : Run → Prop} {status : RunStatus}

/-- The section of a claim: it wins, or a cancellation has won. -/
theorem triple_claimSection (hP : ∀ o, P o → o.claimed = none ∧
      ∃ doc, o.store r = .run doc ∧ (doc = first ∨ doc.status.terminal = false)) :
    (worker r first).Triple t P
      (.act fun _ s => (.ok (s.claimTerminal status).1, (s.claimTerminal status).2) : Code Bool)
      (fun res o' => match res with
        | .ok true => ∃ o, P o ∧ o' = { o with claimed := some status }
        | .ok false => P o'
        | .error _ => False) := by
  refine .act fun c s hinv htaken h => ?_
  obtain ⟨hnone, doc, hdoc, ht⟩ := hP _ h
  by_cases howner : s.control.owner = .opened
  · have hwon : s.control.claimTerminal.1 = true := s.control.claimTerminal_iff.2 howner
    have hwon' : (s.claimTerminal status).2.toWorked = { s.toWorked with claimed := some status } := by
      simp [Job.claimTerminal, hwon]
    have hhanded : (s.claimTerminal status).2.handed = true := htaken
    refine ⟨⟨?_, fun ha => ?_, ?_, by simp [hhanded]⟩, ⟨id, ?_⟩, htaken, ?_⟩
    · simp [Job.claimTerminal, hwon, Control.claimTerminal_owner, howner]
    · exact absurd (hinv.accepted ha) (by simp [howner])
    · rw [hwon']
      exact ⟨doc, hdoc, ht.imp id Or.inl⟩
    · exact fun st hst => absurd (hnone.symm.trans hst) (by simp)
    · have hres : (s.claimTerminal status).1 = true := hwon
      simp only [hres]
      exact ⟨s.toWorked, h, hwon'⟩
  · have hlost : s.control.claimTerminal.1 = false := by
      simpa using mt s.control.claimTerminal_iff.1 howner
    have hcontrol : s.control.claimTerminal.2 = s.control := by
      cases ho : s.control.owner <;> simp_all [Control.claimTerminal]
    have hsame : (s.claimTerminal status).2 = s := by
      simp [Job.claimTerminal, hlost, hcontrol]
    have hres : (s.claimTerminal status).1 = false := hlost
    simp only [hsame, hres]
    exact ⟨hinv, ⟨id, fun _ => id⟩, htaken, h⟩

/-- The owner of the control is terminal exactly after the claim. -/
theorem triple_ownerLook (claimed : Bool) (h : ∀ o, P o → o.claimed.isSome = claimed) :
    (worker r first).Triple t P
      (.look fun _ s => .ok (decide (s.control.owner = .terminalOwned)) : Code Bool)
      (fun res o => P o ∧ res = .ok claimed) := by
  refine .look fun c s hinv hP => ⟨hP, ?_⟩
  have hclaimed := h s.toWorked hP
  cases claimed with
  | true => simp [hinv.claimed.2 hclaimed]
  | false =>
      have hne : s.control.owner ≠ .terminalOwned := fun ho => by
        have hsome := hinv.claimed.1 ho
        exact absurd (hclaimed.symm.trans hsome) (by simp)
      simp [hne]

/-- The claim before the end: it wins, or it raises. -/
theorem triple_claimTerminal {stage : String} (hterm : status.terminal = true)
    (hP : ∀ o, P o → Unclaimed r o ∧ K o.run)
    (hcheck : (worker r first).Triple t P (checkpoint r stage) fun _ => P) :
    (worker r first).Triple t P (claimTerminal r stage status)
      (fun res o => match res with | .ok _ => Won r status o ∧ K o.run | .error _ => P o) := by
  refine .seq (triple_ownerLook false fun o h => by simp [(hP o h).1.1])
    (fun claimed => ?_) (by simp)
  cases claimed with
  | true => exact .absurd fun o h => by simp at h
  | false =>
      refine .seq ((triple_claimSection fun o h => ?_).pre fun _ h => h.1) (fun won => ?_)
        fun _ _ => False.elim
      · obtain ⟨⟨hnone, doc, hdoc, ht⟩, -⟩ := hP o h
        exact ⟨hnone, doc, hdoc, .inr ht⟩
      cases won with
      | true =>
          refine .pure ?_
          rintro _ ⟨o, h, rfl⟩
          obtain ⟨⟨-, doc, hdoc, ht⟩, hK⟩ := hP o h
          exact ⟨⟨⟨rfl, hterm⟩, doc, hdoc, .inl ht⟩, hK⟩
      | false => exact .seq hcheck (fun _ => .throw fun _ h => h) fun _ _ h => h

end

theorem active_claimTerminal {stage : String} {status : RunStatus} (hterm : status.terminal = true) :
    (worker r first).Triple t (Active r) (claimTerminal r stage status)
      (fun res o => match res with | .ok _ => Won r status o | .error _ => Active r o) :=
  (triple_claimTerminal (K := fun _ => True) hterm (fun _ h => ⟨h.1, trivial⟩)
    (keeps_checkpoint stage)).mono (fun _ => id) fun res _ h => match res with
      | .ok _ => h.1
      | .error _ => h

/-- The claim of a failed Run. -/
theorem doomed_claimTerminal {stage : String} :
    (worker r first).Triple t (Doomed r) (claimTerminal r stage .failed)
      (fun res o => match res with | .ok _ => Concluded r .failed o | .error _ => Unclaimed r o) :=
  (triple_claimTerminal (K := fun run => run.status = .failed) rfl (fun _ h => h)
    (doomed_checkpoint stage)).mono (fun _ => id) fun res _ h => match res with
      | .ok _ => h
      | .error _ => h.1

/-- A second claim changes nothing. -/
theorem concluded_claimTerminal {stage : String} {status status' : RunStatus} :
    (worker r first).Triple t (Concluded r status) (claimTerminal r stage status')
      (fun res o => Concluded r status o ∧ res = .ok ()) := by
  refine .seq (triple_ownerLook true fun o h => by simp [h.1.1.1]) (fun claimed => ?_)
    (by simp)
  cases claimed with
  | true => exact .pure fun _ h => ⟨h.1, rfl⟩
  | false => exact .absurd fun o h => by simp at h

/-! ## After the claim -/

/-- How a part of the pipeline ends after the claim. -/
def ClaimedEnd (r : RunId) (status : RunStatus) : Except Raised α → Worked → Prop
  | .ok _, o => Concluded r status o
  | .error e, o => Broken r e o

/-- The end is set once it has been claimed. -/
theorem won_conclude {status : RunStatus} :
    (worker r first).Triple t (Won r status) (conclude status)
      (fun res o => match res with | .ok _ => Concluded r status o | .error _ => False) := by
  refine .seq (Q := fun res o => match res with | .ok _ => Concluded r status o | .error _ => False)
    (triple_edit fun _ o h => ⟨h, rfl⟩) (fun _ => ?_) fun _ _ h => h
  exact .pure fun _ h => h

/-- An edit that keeps the status. -/
theorem concluded_edit {f : Time → Run → Run} {status : RunStatus}
    (h : ∀ now run, (f now run).status = run.status) :
    (worker r first).Triple t (Concluded r status) (edit f)
      (fun res o => match res with | .ok _ => Concluded r status o | .error _ => False) :=
  triple_edit fun now o ho => ⟨ho.1, (h now o.run).trans ho.2⟩

/-- A save after the claim makes the claimed status durable, or raises. -/
def SavedEnd (r : RunId) (status : RunStatus) : Except Raised Unit → Worked → Prop
  | .ok _, o => Concluded r status o ∧ Durable r o
  | .error e, o => Broken r e o

theorem Saves.savedEnd {s : Job} {result : Except Raised Unit × Job} {status : RunStatus}
    (h : Saves r s result) (hc : Concluded r status s.toWorked) :
    Outcome r first result.2.toWorked ∧ SavedEnd r status result.1 result.2.toWorked := by
  obtain ⟨hconcluded, ⟨hok, hdurable⟩ | ⟨e, herr, hraised⟩⟩ := h.concluded hc
  · rw [hok]
    exact ⟨hconcluded.1.outcome, hconcluded, hdurable⟩
  · rw [herr]
    exact ⟨hconcluded.1.outcome, ⟨status, hconcluded.1⟩, hraised, e, rfl⟩

theorem concluded_save {status : RunStatus} :
    (worker r first).Triple t (Concluded r status) (.act fun c s => s.save c r)
      (SavedEnd r status) :=
  triple_quiet fun c s _ hP => ⟨(saves_save c s).quiet, (saves_save c s).savedEnd hP⟩

theorem concluded_appendEvent {status : RunStatus} :
    (worker r first).Triple t (Concluded r status) (appendEvent r) (SavedEnd r status) :=
  triple_quiet fun c s _ hP =>
    ⟨(saves_appendEvent c s).quiet, (saves_appendEvent c s).savedEnd hP⟩

theorem concluded_finishStep {status : RunStatus} {name : StepName} {started : Time}
    {stepStatus : StepStatus} {summary : String} {error : Option RunError} :
    (worker r first).Triple t (Concluded r status)
      (finishStep r name started stepStatus summary error) (SavedEnd r status) :=
  .seq (concluded_edit fun _ _ => rfl) (fun _ => concluded_appendEvent) fun _ _ => False.elim

/-- An exception after the claim is one of the store, or of a malformed result. -/
theorem broken_raising {s : Job} {status : RunStatus} {e : Exc} (h : Won r status s.toWorked) :
    Broken r (.other e) (s.raising (.other e) : Except Raised α × Job).2.toWorked :=
  ⟨⟨status, h⟩, by simp [Job.raising, h.1.1], e, rfl⟩

theorem concluded_subscript {status : RunStatus} {P : Worked → Prop}
    (h : ∀ o, P o → Won r status o) :
    (worker r first).Triple t P subscript
      (fun res o => match res with | .ok _ => P o | .error e => Broken r e o) := by
  refine triple_quiet fun c s hinv hP => ?_
  cases c.missing with
  | none => exact ⟨⟨rfl, rfl, rfl, rfl⟩, hinv.outcome, hP⟩
  | some e =>
      have hbroken := broken_raising (α := Unit) (e := e) (h _ hP)
      exact ⟨raising_quiet s _, hbroken.outcome, hbroken⟩

theorem durable_response {status : RunStatus} :
    (worker r first).Triple t (fun o => Concluded r status o ∧ Durable r o) response
      (fun res o => match res with | .ok _ => Durable r o | .error e => Broken r e o) := by
  refine triple_quiet fun c s hinv hP => ?_
  cases c.log with
  | none => exact ⟨⟨rfl, rfl, rfl, rfl⟩, hinv.outcome, hP.2⟩
  | some e =>
      have hbroken := broken_raising (α := Unit) (e := e) hP.1.1
      exact ⟨raising_quiet s _, hbroken.outcome, hbroken⟩

/-! ## The last stages -/

/-- How the body of a stage ends that makes the claim: an exception that is not of the
store comes before the claim. -/
def ClaimingEnd (r : RunId) : Except Raised Unit → Worked → Prop
  | .ok _, o => ∃ status, Concluded r status o
  | .error e, o => Active r o ∨ Broken r e o

theorem ClaimingEnd.pipelineEnd {res : Except Raised Unit} {o : Worked}
    (h : ClaimingEnd r res o) : PipelineEnd r res o :=
  match res with
  | .ok _ => .inr h
  | .error _ => h.imp And.left id

/-- The claim of a dry run. -/
theorem claiming_prepared :
    (worker r first).Triple t (Active r)
      ((claimTerminal r "prepared" .prepared).bind fun _ => conclude .prepared)
      (ClaimingEnd r) :=
  .seq (active_claimTerminal rfl)
    (fun _ => won_conclude.mono (fun _ => id) fun res _ h => match res with
      | .ok _ => ⟨_, h⟩
      | .error _ => h.elim)
    fun _ _ => .inl

theorem end_concludeDryRun :
    (worker r first).Triple t (Active r) (concludeDryRun r) (PipelineEnd r) := by
  refine stage_seq (keeps_startStep .artifact) (fun started => ?_) fun _ _ ho => .inl ho.1
  refine stage_seq (keeps_checkpoint _) (fun _ => ?_) fun _ _ ho => .inl ho.1
  refine stage_seq keeps_finishStep (fun _ => ?_) fun _ _ ho => .inl ho.1
  refine stage_seq (keeps_checkpoint _) (fun _ => ?_) fun _ _ ho => .inl ho.1
  exact claiming_prepared.mono (fun _ => id) fun _ _ => ClaimingEnd.pipelineEnd

/-- A stage whose body makes the claim. -/
theorem end_catching {kinds : List StageError} {body : Code Unit}
    {handler : StageFailure → Code Unit}
    (hbody : (worker r first).Triple t (Active r) body (ClaimingEnd r))
    (hhandler : ∀ failure, (worker r first).Triple t (Active r) (handler failure)
      (fun res o => match res with | .ok _ => Doomed r o | .error _ => Unclaimed r o)) :
    (worker r first).Triple t (Active r) (catching kinds body handler) (PipelineEnd r) := by
  refine triple_catching hbody (fun failure => ?_) (fun _ => .inr) fun _ _ => .imp And.left id
  refine (hhandler failure).mono (fun o h => h.resolve_right ?_) fun res _ h => match res with
    | .ok _ => .inl h
    | .error _ => .inl h
  rintro ⟨_, _, x, hx⟩
  simp at hx

/-- What follows the claim of a success. -/
theorem claiming_success {rest : Unit → Code Unit}
    (h : (worker r first).Triple t (Won r .success) (rest ()) (ClaimingEnd r)) :
    (worker r first).Triple t (Active r) ((claimTerminal r "artifact" .success).bind rest)
      (ClaimingEnd r) :=
  .seq (active_claimTerminal rfl) (fun _ => h) fun _ _ => .inl

theorem SavedEnd.claimingEnd {res : Except Raised Unit} {o : Worked} {status : RunStatus}
    (h : SavedEnd r status res o) : ClaimingEnd r res o :=
  match res with
  | .ok _ => ⟨status, h.1⟩
  | .error _ => .inr h

theorem doomed_failPackage (started : Time) (failure : StageFailure) :
    (worker r first).Triple t (Active r) (failPackage r started failure)
      (fun res o => match res with | .ok _ => Doomed r o | .error _ => Unclaimed r o) := by
  unfold failPackage
  split
  · refine stage_seq keeps_finishStep (fun _ => ?_) fun _ _ ho => ho.1
    exact stage_seq (keeps_startStep .artifact) (fun _ => triple_failStep) fun _ _ ho => ho.1
  · exact triple_failStep

theorem end_packageStage (dryRun : Bool) (n : Nat) :
    (worker r first).Triple t (Active r) (packageStage r dryRun n) (PipelineEnd r) := by
  refine stage_seq (keeps_startStep .package) (fun started => ?_) fun _ _ ho => .inl ho.1
  refine stage_seq (keeps_checkpoint _) (fun _ => ?_) fun _ _ ho => .inl ho.1
  split
  · exact stage_seq keeps_finishStep (fun _ => end_concludeDryRun) fun _ _ ho => .inl ho.1
  · refine end_catching ?_ (doomed_failPackage started)
    have hcallbacks : ∀ p ∈ [onCancel r "package", checkpoint r "artifact"],
        Keeps t r first p := by
      simp only [List.mem_cons, List.not_mem_nil, or_false]
      rintro p (rfl | rfl)
      · exact keeps_onCancel _
      · exact keeps_checkpoint _
    refine stage_seq (keeps_runStage hcallbacks n) (fun _ => ?_) fun _ _ => .inl
    refine stage_seq (keeps_checkpoint _) (fun _ => ?_) fun _ _ => .inl
    refine stage_seq (keeps_runStage_nil n) (fun _ => ?_) fun _ _ => .inl
    refine stage_seq keeps_finishStep (fun _ => ?_) fun _ _ => .inl
    refine stage_seq (keeps_startStep .artifact) (fun _ => ?_) fun _ _ => .inl
    refine stage_seq (keeps_checkpoint _) (fun _ => claiming_success ?_) fun _ _ => .inl
    refine .seq won_conclude (fun _ => ?_) fun _ _ => False.elim
    refine .seq (concluded_subscript fun _ h => h.1) (fun _ => ?_) fun _ _ => .inr
    exact concluded_finishStep.mono (fun _ => id) fun _ _ => SavedEnd.claimingEnd

/-! ## An upstream package -/

theorem keeps_skipStep (name : StepName) (summary : String) :
    Keeps t r first (skipStep r name summary) :=
  .seq (keeps_startStep name) fun _ => .seq (keeps_checkpoint _) fun _ => keeps_finishStep

theorem keeps_skipSteps (names : List StepName) : Keeps t r first (skipSteps r names) := by
  induction names with
  | nil => exact .pure ()
  | cons name names ih => exact .seq (keeps_skipStep name _) fun _ => ih

theorem claiming_acquireArtifact (n : Nat) (started : Time) :
    (worker r first).Triple t (Active r) (acquireArtifact r n started) (ClaimingEnd r) := by
  refine stage_seq (keeps_runStage_onCancel _ n) (fun _ => ?_) fun _ _ => .inl
  refine stage_seq (keeps_checkpoint _) (fun _ => ?_) fun _ _ => .inl
  refine stage_seq (keeps_runStage_nil n) (fun _ => ?_) fun _ _ => .inl
  refine stage_seq (keeps_checkpoint _) (fun _ => claiming_success ?_) fun _ _ => .inl
  refine .seq (concluded_subscript fun _ h => h) (fun _ => ?_) fun _ _ => .inr
  refine .seq won_conclude (fun _ => ?_) fun _ _ => False.elim
  exact concluded_finishStep.mono (fun _ => id) fun _ _ => SavedEnd.claimingEnd

theorem doomed_failUpstream (started : Time) (failure : StageFailure) :
    (worker r first).Triple t (Active r) (failUpstream r started failure)
      (fun res o => match res with | .ok _ => Doomed r o | .error _ => Unclaimed r o) :=
  stage_seq .look (fun _ => stage_seq .look (fun _ => triple_failStep) fun _ _ ho => ho.1)
    fun _ _ ho => ho.1

theorem end_upstreamStages (dryRun : Bool) (n : Nat) :
    (worker r first).Triple t (Active r) (upstreamStages r dryRun n) (PipelineEnd r) := by
  refine stage_seq (keeps_startStep .source) (fun started => ?_) fun _ _ ho => .inl ho.1
  refine end_catching ?_ (doomed_failUpstream started)
  refine stage_seq (keeps_checkpoint _) (fun _ => ?_) fun _ _ => .inl
  refine stage_seq (keeps_runStage_nil n) (fun _ => ?_) fun _ _ => .inl
  refine stage_seq (keeps_checkpoint _) (fun _ => ?_) fun _ _ => .inl
  refine stage_seq keeps_finishStep (fun _ => ?_) fun _ _ => .inl
  refine stage_seq (keeps_startStep .detection) (fun _ => ?_) fun _ _ => .inl
  refine stage_seq (keeps_checkpoint _) (fun _ => ?_) fun _ _ => .inl
  refine stage_seq (keeps_runStage_nil n) (fun _ => ?_) fun _ _ => .inl
  refine stage_seq (keeps_checkpoint _) (fun _ => ?_) fun _ _ => .inl
  refine stage_seq keeps_finishStep (fun _ => ?_) fun _ _ => .inl
  refine stage_seq (keeps_skipSteps _) (fun _ => ?_) fun _ _ => .inl
  refine stage_seq (keeps_startStep .artifact) (fun artifact => ?_) fun _ _ => .inl
  refine stage_seq (keeps_checkpoint _) (fun _ => ?_) fun _ _ => .inl
  split
  · refine stage_seq keeps_finishStep (fun _ => ?_) fun _ _ => .inl
    exact stage_seq (keeps_checkpoint _) (fun _ => claiming_prepared) fun _ _ => .inl
  · exact claiming_acquireArtifact n artifact

/-! ## The pipeline -/

theorem end_laterStages (plan : Plan) (dryRun : Bool) (n : Nat) (facts : Facts) :
    (worker r first).Triple t (Active r) (laterStages r plan dryRun n facts) (PipelineEnd r) := by
  refine .seq ((triple_unlessFailed (stage_dependenciesStage plan dryRun n facts) fun _ => .inr).pre
    fun _ => .inl) (fun _ => ?_) fun _ _ => .inl
  refine .seq (triple_unlessFailed (stage_sourceChangesStage plan n) fun _ => .inr) (fun _ => ?_)
    fun _ _ => .inl
  refine .seq (triple_unlessFailed (stage_buildStage plan dryRun n) fun _ => .inr) (fun _ => ?_)
    fun _ _ => .inl
  refine .seq (triple_unlessFailed (stage_stagingStage n) fun _ => .inr) (fun _ => ?_)
    fun _ _ => .inl
  exact triple_unlessFailed (end_packageStage dryRun n) fun _ => .inl

theorem end_detectionStage (plan : Plan) (n : Nat) {k : Facts → Code Unit}
    (hk : ∀ facts, (worker r first).Triple t (Active r) (k facts) (PipelineEnd r)) :
    (worker r first).Triple t (Active r) (detectionStage r plan n k) (PipelineEnd r) := by
  refine stage_seq (keeps_startStep .detection) (fun started => ?_) fun _ _ ho => .inl ho.1
  have hbody : Keeps t r first (do
      checkpoint r "detection"
      let facts ← detect plan n
      checkpoint r "detection"
      finishStep r .detection started .success "detection" none
      pure facts : Code Facts) :=
    .seq (keeps_checkpoint _) fun _ => .seq (keeps_detect plan n) fun facts =>
      .seq (keeps_checkpoint _) fun _ => .seq keeps_finishStep fun _ => .pure facts
  refine .catch hbody fun res => ?_
  match res with
  | .ok facts => exact hk facts
  | .error (.stage failure) =>
      dsimp only
      split
      · exact triple_failStep.mono (fun _ => id) fun res _ h => match res with
          | .ok _ => .inl h
          | .error _ => .inl h
      · exact .throw fun _ h => .inl h.1
  | .error (.cancelled ..) | .error (.pipeline ..) | .error (.other _) =>
      exact .throw fun _ h => .inl h.1

/-- How the pipeline ends with its terminal persistence. -/
def FinishEnd (r : RunId) : Except Raised Unit → Worked → Prop
  | .ok _, o => Durable r o
  | .error e, o => Unclaimed r o ∨ Broken r e o

/-- The persistence of a claimed status. -/
theorem finish_concluded {status : RunStatus} {started : Time} :
    (worker r first).Triple t (Concluded r status)
      ((edit fun now run =>
          { run with finishedAt := some now, duration := some (now - started) }).bind fun _ =>
        (Prog.act fun c s => s.save c r : Code Unit).bind fun _ => response) (FinishEnd r) := by
  refine .seq (concluded_edit fun _ _ => rfl) (fun _ => ?_) fun _ _ => False.elim
  refine .seq concluded_save (fun _ => ?_) fun _ _ => .inr
  exact durable_response.mono (fun _ => id) fun res _ h => match res with
    | .ok _ => h
    | .error _ => .inr h

theorem finish_finishTerminalRun (started : Time) :
    (worker r first).Triple t (fun o => Doomed r o ∨ ∃ status, Concluded r status o)
      (finishTerminalRun r started) (FinishEnd r) := by
  refine .or_pre ?_ (.exists_pre fun status => ?_)
  · refine .seq (Q := fun res o => Doomed r o ∧ res = .ok .failed) ?_ (fun status => ?_) (by simp)
    · refine .look fun c s _ h => ⟨h, ?_⟩
      have hfailed : s.run.status = .failed := h.2
      rw [hfailed]
    · by_cases hs : status = .failed
      · subst hs
        refine .seq (doomed_claimTerminal.pre fun _ h => h.1) (fun _ => finish_concluded)
          fun _ _ => .inl
      · exact .absurd fun o h => hs (Except.ok.inj h.2)
  · refine .seq (Q := fun res o => Concluded r status o ∧ res.isOk = true)
      (.look fun _ _ _ h => ⟨h, rfl⟩) (fun _ => ?_) (by simp [Except.isOk, Except.toBool])
    refine .seq (concluded_claimTerminal.pre fun _ h => h.1) (fun _ => ?_) (by simp)
    exact finish_concluded.pre fun _ h => h.1

theorem finish_of_end {p : Code Unit} {started : Time}
    (h : (worker r first).Triple t (Active r) p (PipelineEnd r)) :
    (worker r first).Triple t (Active r) (p.bind fun _ => finishTerminalRun r started)
      (FinishEnd r) :=
  .seq h (fun _ => finish_finishTerminalRun started) fun _ _ h => h

theorem finish_runBuild (plan : Plan) (dryRun : Bool) (n : Nat) (started : Time) :
    (worker r first).Triple t (Active r) (runBuild r plan dryRun n started) (FinishEnd r) := by
  refine .seq (stage_sourceStage n) (fun _ => ?_) fun _ _ => .inl
  refine .seq (triple_unlessFailed (end_detectionStage plan n fun facts =>
    end_laterStages plan dryRun n facts) fun _ => .inl) (fun _ => ?_) fun _ _ h => h
  exact finish_finishTerminalRun started

theorem finish_runPipelineLocked (plan : Plan) (dryRun : Bool) (n : Nat) :
    (worker r first).Triple t (Unclaimed r) (runPipelineLocked r plan dryRun n) (FinishEnd r) := by
  refine .seq (Q := fun res o => Unclaimed r o) (.look fun _ _ _ h => h) (fun started => ?_)
    fun _ _ => .inl
  refine .seq (Q := fun _ => Active r) (triple_edit fun _ o h => ⟨h, rfl⟩) (fun _ => ?_)
    fun _ _ h => .inl h.1
  refine stage_seq (triple_quiet fun c s _ hP => ?_) (fun _ => ?_) fun _ _ ho => .inl ho.1
  · have hs := saves_save (r := r) c s
    exact ⟨hs.quiet, (hs.active hP).1.outcome, hs.active hP⟩
  refine stage_seq (keeps_checkpoint _) (fun _ => ?_) fun _ _ ho => .inl ho.1
  refine stage_seq keeps_appendEvent (fun _ => ?_) fun _ _ ho => .inl ho.1
  split
  · exact stage_seq .look (fun _ => finish_of_end (end_upstreamStages dryRun n))
      fun _ _ ho => .inl ho.1
  · exact finish_runBuild plan dryRun n started

end Pipeline
end DebBuilder
