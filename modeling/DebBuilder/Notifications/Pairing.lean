import Mathlib
import DebBuilder.Lib.Journal
import DebBuilder.Notifications.Service

/-!
# Failures and their recoveries

A stage that failed and then succeeds is told as recovered.  What is owed is read off the
deliveries alone: a failure that was reported for the first time, and no success of its stage
since.  The service keeps one slot for each Recipe, so the two agree in every run that meets a
condition on the slots.

## Main definitions

* `Reported`, `Pending` — what a list of deliveries reported and left to recover.
* `Orderly` — a delivery that finds the slots as it needs them.

## Main results

* `nodup_notifications` — no key is sent twice, in any run.
* `notifications_pair_up` — recoveries are sent exactly when they are due.
-/

namespace DebBuilder
namespace Notifications

open Lib

variable {env : Environment} {s : State} {c : Call} {n m : Notification} {key key' : String}

/-! ## The updates of the state -/

/-- The slot of a Recipe. -/
def State.active (s : State) (key : String) : Option Failure := (s.row key).activeFailure

theorem emit_of_mem (hkey : n.key ≠ "") (h : n.key ∈ s.sent) : emit s n = (s, .skipped "duplicate") := by
  rw [emit, if_pos ⟨hkey, h⟩]

theorem emit_of_notMem (hkey : n.key ≠ "") (h : n.key ∉ s.sent) :
    emit s n = ({ s with sent := s.sent.set n.key n.title }, .sent n) := by
  rw [emit, if_neg fun hsent => h hsent.2, if_pos hkey]

@[simp] theorem recipes_emit : (emit s n).1.recipes = s.recipes := by
  simp only [emit]
  split
  · rfl
  · split <;> rfl

@[simp] theorem active_emit : (emit s n).1.active key = s.active key := by
  simp only [State.active, State.row, recipes_emit]

theorem mem_sent_emit (hkey : n.key ≠ "") : key ∈ (emit s n).1.sent ↔ key = n.key ∨ key ∈ s.sent := by
  by_cases h : n.key ∈ s.sent
  · rw [emit_of_mem hkey h]
    constructor
    · exact .inr
    · intro hor
      cases hor with
      | inl heq => exact heq ▸ h
      | inr hmem => exact hmem
  · rw [emit_of_notMem hkey h]
    exact Dict.mem_set

theorem reply_emit (hkey : n.key ≠ "") : (emit s n).2 = .sent m ↔ m = n ∧ n.key ∉ s.sent := by
  by_cases h : n.key ∈ s.sent
  · simp [emit_of_mem hkey h, h]
  · simp [emit_of_notMem hkey h, h, eq_comm]

theorem active_set {row : Row} :
    State.active { s with recipes := s.recipes.set key row } key' =
      if key' = key then row.activeFailure else s.active key' := by
  simp only [State.active, State.row, Dict.lookup_set]
  split <;> rfl

theorem active_setFailure {failure : Failure} :
    (setFailure s key failure).active key' = if key' = key then some failure else s.active key' := active_set

theorem recoveryFailure_of_active {failure : Failure} {stage rid : String} (h : s.active key = some failure)
    (hstage : failure.stage = stage) :
    recoveryFailure s key stage rid = ({ s with recipes := s.recipes.set key ⟨none, some rid⟩ }, some failure) := by
  simp only [State.active] at h
  simp [recoveryFailure, h, hstage]

theorem recoveryFailure_of_inactive {stage rid : String} (h : ∀ failure, s.active key = some failure → failure.stage ≠ stage) :
    recoveryFailure s key stage rid = (s, none) := by
  simp only [State.active] at h
  cases hactive : (s.row key).activeFailure with
  | none => simp [recoveryFailure, hactive]
  | some failure => simp [recoveryFailure, hactive, h failure hactive]

/-! ## Keys -/

/-- A key of a recovery notification. -/
def IsRecovery (key : String) : Prop := "recovered:".toList <+: key.toList

theorem isRecovery_append {rest : String} (h : IsRecovery key) : IsRecovery (key ++ rest) := by
  unfold IsRecovery
  rw [String.toList_append]
  exact List.IsPrefix.trans h (List.prefix_append _ _)

theorem isRecovery_recoveredKey : IsRecovery (c.recoveredKey env) := by
  unfold Call.recoveredKey
  iterate 5 apply isRecovery_append
  exact List.prefix_rfl

theorem head?_of_isRecovery (h : IsRecovery key) : key.toList.head? = some 'r' := by
  obtain ⟨rest, hrest⟩ := h
  rw [← hrest]
  rfl

theorem head?_append {text rest : String} {first : Char} (h : text.toList.head? = some first) :
    (text ++ rest).toList.head? = some first := by
  rw [String.toList_append, List.head?_append, h]
  rfl

theorem head?_failureKey : (c.failureKey env).toList.head? = some 'f' := by
  unfold Call.failureKey
  iterate 5 apply head?_append
  rfl

theorem key_completion {result : Completion} :
    (completionNotification env result).key =
      "automatic-complete:" ++ package env (env.loadRun result.rid) none result.published ++ ":" ++ result.rid := rfl

theorem head?_completion {result : Completion} :
    (completionNotification env result).key.toList.head? = some 'a' := by
  rw [key_completion]
  iterate 3 apply head?_append
  rfl

theorem head?_sendTest {now : String} : ("test:" ++ now).toList.head? = some 't' := by
  apply head?_append
  rfl

theorem ne_empty_of_head? {first : Char} (h : key.toList.head? = some first) : key ≠ "" := by
  rintro rfl
  cases h

theorem failureKey_ne_empty : c.failureKey env ≠ "" := ne_empty_of_head? head?_failureKey

theorem recoveredKey_ne_empty : c.recoveredKey env ≠ "" :=
  ne_empty_of_head? (head?_of_isRecovery isRecovery_recoveredKey)

/-! ## A failure and a success -/

theorem active_notifyFailure :
    (notifyFailure env s c).1.active key = if key = c.recipeKey env then some (c.failure env) else s.active key := by
  rw [notifyFailure, active_emit, active_setFailure]

theorem mem_sent_notifyFailure : key ∈ (notifyFailure env s c).1.sent ↔ key = c.failureKey env ∨ key ∈ s.sent :=
  mem_sent_emit failureKey_ne_empty

theorem reply_notifyFailure :
    (notifyFailure env s c).2 = .sent n ↔ n = failureNotification env c ∧ c.failureKey env ∉ s.sent :=
  reply_emit failureKey_ne_empty

/-- A success whose slot holds no failure of its stage changes nothing. -/
theorem notifyRecovery_of_inactive (h : ∀ failure, s.active (c.recipeKey env) = some failure → failure.stage ≠ c.stage) :
    notifyRecovery env s c = (s, .skipped "no active failure") := by
  rw [notifyRecovery, recoveryFailure_of_inactive h]

section
variable {failure : Failure} (h : s.active (c.recipeKey env) = some failure) (hstage : failure.stage = c.stage)
include h hstage

theorem active_notifyRecovery :
    (notifyRecovery env s c).1.active key = if key = c.recipeKey env then none else s.active key := by
  rw [notifyRecovery, recoveryFailure_of_active h hstage, active_emit, active_set]

theorem mem_sent_notifyRecovery :
    key ∈ (notifyRecovery env s c).1.sent ↔ key = c.recoveredKey env ∨ key ∈ s.sent := by
  rw [notifyRecovery, recoveryFailure_of_active h hstage]
  exact mem_sent_emit recoveredKey_ne_empty

theorem reply_notifyRecovery :
    (notifyRecovery env s c).2 = .sent n ↔
      n = recoveryNotification env c failure ∧ c.recoveredKey env ∉ s.sent := by
  rw [notifyRecovery, recoveryFailure_of_active h hstage]
  exact reply_emit recoveredKey_ne_empty

end

/-! ## Deliveries and what they report -/

/-- A delivery with what surrounds the service at that moment. -/
structure Event where
  env : Environment
  delivery : Delivery

/-- The call that a delivery of a failed stage leads to. -/
def Event.failure? (e : Event) : Option Call :=
  match e.delivery with
  | .build event run recipe => if event = "build_failed" then some { stage := "build", run, recipe } else none
  | .validation result => if result.status = "failed" then
      some { stage := "validation", run := e.env.loadRun result.buildRunId, payload := result } else none
  | .publication result => if result.status = "failed" then
      some { stage := "publication", run := e.env.loadRun result.buildRunId, payload := result } else none
  | .completion _ => none
  | .test _ => none

/-- The call that a delivery of a successful stage leads to. -/
def Event.success? (e : Event) : Option Call :=
  match e.delivery with
  | .build event run recipe => if event = "build_succeeded" then some { stage := "build", run, recipe } else none
  | .validation result => if result.status = "success" then
      some { stage := "validation", run := e.env.loadRun result.buildRunId, payload := result } else none
  | .publication result => if result.status = "success" then
      some { stage := "publication", run := e.env.loadRun result.buildRunId, payload := result } else none
  | .completion _ => none
  | .test _ => none

/-- The delivery of an event in a state. -/
def Event.deliver (e : Event) (s : State) : State × Reply := Notifications.deliver e.env s e.delivery

variable {e : Event} {events before after : List Event} {p stage : String}

theorem deliver_of_failure (h : e.failure? = some c) : e.deliver s = notifyFailure e.env s c := by
  obtain ⟨env, delivery⟩ := e
  cases delivery <;> simp [Event.failure?] at h <;> obtain ⟨heq, rfl⟩ := h <;>
    simp [Event.deliver, deliver, notifyBuildLifecycle, notifyResult, heq]

theorem deliver_of_success (h : e.success? = some c) : e.deliver s = notifyRecovery e.env s c := by
  obtain ⟨env, delivery⟩ := e
  cases delivery <;> simp [Event.success?] at h <;> obtain ⟨heq, rfl⟩ := h <;>
    simp [Event.deliver, deliver, notifyBuildLifecycle, notifyResult, heq]

theorem success?_of_failure (h : e.failure? = some c) : e.success? = none := by
  obtain ⟨env, delivery⟩ := e
  cases delivery <;> simp [Event.failure?] at h <;> obtain ⟨heq, rfl⟩ := h <;> simp [Event.success?, heq]

/-- What is no outcome of a stage may be sent under a key of its own, and leaves the rows. -/
theorem deliver_of_other (hfailure : e.failure? = none) (hsuccess : e.success? = none) :
    (∃ reason, e.deliver s = (s, .skipped reason)) ∨
      ∃ n first, n.key.toList.head? = some first ∧ first ∈ ['a', 't'] ∧ e.deliver s = emit s n := by
  obtain ⟨env, delivery⟩ := e
  cases delivery with
  | build event run recipe =>
      simp only [Event.failure?, Event.success?, ite_eq_right_iff, reduceCtorEq, imp_false] at hfailure hsuccess
      left
      exact ⟨"build start notifications suppressed", by simp only [Event.deliver, deliver, notifyBuildLifecycle, if_neg hfailure, if_neg hsuccess]⟩
  | validation result =>
      simp only [Event.failure?, Event.success?, ite_eq_right_iff, reduceCtorEq, imp_false] at hfailure hsuccess
      left
      exact ⟨"validation" ++ " not terminal", by simp only [Event.deliver, deliver, notifyResult, if_neg hfailure, if_neg hsuccess]⟩
  | publication result =>
      simp only [Event.failure?, Event.success?, ite_eq_right_iff, reduceCtorEq, imp_false] at hfailure hsuccess
      left
      exact ⟨"publication" ++ " not terminal", by simp only [Event.deliver, deliver, notifyResult, if_neg hfailure, if_neg hsuccess]⟩
  | completion result =>
      simp only [Event.deliver, deliver, notifyAutomaticCompletion]
      split
      · exact .inl ⟨_, rfl⟩
      · split
        · exact .inl ⟨_, rfl⟩
        · refine .inr ⟨_, 'a', ?_, by simp, rfl⟩
          exact head?_completion
  | test now =>
      refine .inr ⟨_, 't', ?_, by simp, rfl⟩
      exact head?_sendTest

/-- The state after a list of deliveries, and the answer to a further one. -/
def stateAfter (events : List Event) : State := events.foldl (fun s e => (e.deliver s).1) {}

def replyAfter (before : List Event) (e : Event) : Reply := (e.deliver (stateAfter before)).2

@[simp] theorem stateAfter_concat : stateAfter (events ++ [e]) = (e.deliver (stateAfter events)).1 := by
  simp [stateAfter]

/-- A failure with this key was reported. -/
def Reported (events : List Event) (key : String) : Prop :=
  ∃ e ∈ events, ∃ c, e.failure? = some c ∧ c.failureKey e.env = key

/-- A stage of a package is left to recover: its failure was reported, then for the first time,
and it has not succeeded since. -/
def Pending (events : List Event) (p stage : String) : Prop :=
  ∃ (before : List Event) (e : Event) (after : List Event), events = before ++ e :: after ∧
    (∃ c, e.failure? = some c ∧ c.package e.env = p ∧ c.stage = stage ∧ ¬ Reported before (c.failureKey e.env)) ∧
    ∀ e' ∈ after, ∀ c, e'.success? = some c → c.package e'.env = p → c.stage ≠ stage

theorem reported_concat :
    Reported (events ++ [e]) key ↔ Reported events key ∨ ∃ c, e.failure? = some c ∧ c.failureKey e.env = key := by
  simp only [Reported, List.mem_append, List.mem_singleton, or_and_right, exists_or, exists_eq_left]

theorem pending_concat :
    Pending (events ++ [e]) p stage ↔
      (∃ c, e.failure? = some c ∧ c.package e.env = p ∧ c.stage = stage ∧ ¬ Reported events (c.failureKey e.env)) ∨
        Pending events p stage ∧ ∀ c, e.success? = some c → c.package e.env = p → c.stage ≠ stage := by
  constructor
  · rintro ⟨before, e', after, hsplit, hfailed, hsince⟩
    rcases List.eq_nil_or_concat after with rfl | ⟨rest, last, rfl⟩
    · obtain ⟨rfl, heq⟩ := List.append_inj' hsplit rfl
      obtain rfl := List.singleton_inj.1 heq
      exact .inl hfailed
    · have hlast : events ++ [e] = (before ++ e' :: rest) ++ [last] := by simpa using hsplit
      obtain ⟨rfl, heq⟩ := List.append_inj' hlast rfl
      obtain rfl := List.singleton_inj.1 heq
      right
      constructor
      · exact ⟨before, e', rest, rfl, hfailed, fun e'' hmem => hsince e'' (by simp [hmem])⟩
      · exact hsince e (by simp)
  · intro h
    cases h with
    | inl hfailed => exact ⟨events, e, [], rfl, hfailed, by simp⟩
    | inr hkept =>
        obtain ⟨⟨before, e', rest, rfl, hfailed, hsince⟩, hnot⟩ := hkept
        refine ⟨before, e', rest ++ [e], by simp, hfailed, ?_⟩
        intro e'' hmem
        rcases List.mem_append.1 hmem with hrest | hlast
        · exact hsince e'' hrest
        · obtain rfl := List.mem_singleton.1 hlast
          exact hnot

/-! ## No key is sent twice -/

/-- What a reply hands to the sender. -/
def Reply.notification? : Reply → Option Notification
  | .skipped _ => none
  | .sent n => some n

theorem Reply.notification?_eq_some {reply : Reply} : reply.notification? = some n ↔ reply = .sent n := by
  cases reply <;> simp [Reply.notification?]

/-- The notifications of a list of deliveries, in order. -/
def notificationsFrom : State → List Event → List Notification
  | _, [] => []
  | s, e :: events => (e.deliver s).2.notification?.toList ++ notificationsFrom (e.deliver s).1 events

def notifications (events : List Event) : List Notification := notificationsFrom {} events

/-- A delivery keeps the keys that were sent; what it sends has a new one. -/
theorem sent_deliver :
    (∀ key ∈ s.sent, key ∈ (e.deliver s).1.sent) ∧
      ∀ n, (e.deliver s).2 = .sent n → n.key ∉ s.sent ∧ n.key ∈ (e.deliver s).1.sent := by
  cases hfailure : e.failure? with
  | some c =>
      rw [deliver_of_failure hfailure]
      constructor
      · intro key hkey
        exact mem_sent_notifyFailure.2 (.inr hkey)
      · intro n hn
        obtain ⟨rfl, hnew⟩ := reply_notifyFailure.1 hn
        exact ⟨hnew, mem_sent_notifyFailure.2 (.inl rfl)⟩
  | none =>
      cases hsuccess : e.success? with
      | some c =>
          rw [deliver_of_success hsuccess]
          by_cases hactive : ∃ failure, s.active (c.recipeKey e.env) = some failure ∧ failure.stage = c.stage
          · obtain ⟨failure, hslot, hstage⟩ := hactive
            constructor
            · intro key hkey
              exact (mem_sent_notifyRecovery hslot hstage).2 (.inr hkey)
            · intro n hn
              obtain ⟨rfl, hnew⟩ := (reply_notifyRecovery hslot hstage).1 hn
              exact ⟨hnew, (mem_sent_notifyRecovery hslot hstage).2 (.inl rfl)⟩
          · push Not at hactive
            rw [notifyRecovery_of_inactive hactive]
            simp
      | none =>
          rcases deliver_of_other (s := s) hfailure hsuccess with ⟨reason, heq⟩ | ⟨n, first, hfirst, -, heq⟩
          · simp [heq]
          · have hkey : n.key ≠ "" := ne_empty_of_head? hfirst
            rw [heq]
            constructor
            · intro key hmem
              exact (mem_sent_emit hkey).2 (.inr hmem)
            · intro m hm
              obtain ⟨rfl, hnew⟩ := (reply_emit hkey).1 hm
              exact ⟨hnew, (mem_sent_emit hkey).2 (.inl rfl)⟩

theorem notMem_of_mem_notificationsFrom (h : n ∈ notificationsFrom s events) : n.key ∉ s.sent := by
  induction events generalizing s with
  | nil => simp [notificationsFrom] at h
  | cons e events ih =>
      simp only [notificationsFrom, List.mem_append, Option.mem_toList, Reply.notification?_eq_some] at h
      cases h with
      | inl hnow => exact (sent_deliver.2 n hnow).1
      | inr hlater => exact fun hsent => ih hlater (sent_deliver.1 _ hsent)

theorem nodup_notificationsFrom : ((notificationsFrom s events).map (·.key)).Nodup := by
  induction events generalizing s with
  | nil => simp [notificationsFrom]
  | cons e events ih =>
      rw [notificationsFrom, List.map_append, List.nodup_append]
      refine ⟨?_, ih, ?_⟩
      · cases (e.deliver s).2.notification? <;> simp
      · intro key hnow key' hlater heq
        obtain ⟨n, hn, rfl⟩ := List.mem_map.1 hnow
        obtain ⟨m, hm, rfl⟩ := List.mem_map.1 hlater
        rw [Option.mem_toList, Reply.notification?_eq_some] at hn
        exact notMem_of_mem_notificationsFrom hm (heq ▸ (sent_deliver.2 n hn).2)

/-- No key is sent twice, whatever is delivered. -/
theorem nodup_notifications (events : List Event) : ((notifications events).map (·.key)).Nodup :=
  nodup_notificationsFrom

/-! ## Recoveries -/

/-- The slots as a delivery needs them.  A failure finds a slot of its own stage, or it finds the
slot empty and was not reported before.  A success finds no failure of its stage in the slot of
another Recipe of the package, and where its own slot has one, the failure is of the package and
the recovery by this Run was not sent before. -/
def Orderly (s : State) (e : Event) : Prop :=
  (∀ c, e.failure? = some c →
    match s.active (c.recipeKey e.env) with
    | none => c.failureKey e.env ∉ s.sent
    | some failure => failure.stage = c.stage ∧ failure.package = c.package e.env) ∧
  ∀ c, e.success? = some c →
    (∀ key failure, s.active key = some failure → failure.package = c.package e.env → failure.stage = c.stage →
      key = c.recipeKey e.env) ∧
    ∀ failure, s.active (c.recipeKey e.env) = some failure → failure.stage = c.stage →
      failure.package = c.package e.env ∧ c.recoveredKey e.env ∉ s.sent

/-- Every delivery of a run is orderly. -/
def OrderlyRun (events : List Event) : Prop :=
  Warranted (fun before e => Orderly (stateAfter before) e) events

theorem orderlyRun_concat : OrderlyRun (events ++ [e]) ↔ OrderlyRun events ∧ Orderly (stateAfter events) e :=
  warranted_concat

/-- The state file of a run: its failure keys are those that were reported, and its slots hold
what is left to recover. -/
structure Agrees (events : List Event) (s : State) : Prop where
  reported : ∀ (c : Call) (env : Environment), c.failureKey env ∈ s.sent ↔ Reported events (c.failureKey env)
  pending : ∀ p stage, Pending events p stage ↔
    ∃ key failure, s.active key = some failure ∧ failure.package = p ∧ failure.stage = stage

/-- The recovery with this key is sent. -/
def SendsRecovery (before : List Event) (e : Event) (key : String) : Prop :=
  IsRecovery key ∧ ∃ n, replyAfter before e = .sent n ∧ n.key = key

/-- Keys of failures are sent for failures only. -/
theorem mem_sent_deliver (hkey : key.toList.head? = some 'f') :
    key ∈ (e.deliver s).1.sent ↔ key ∈ s.sent ∨ ∃ c, e.failure? = some c ∧ c.failureKey e.env = key := by
  have hne : ∀ {other : String} {first : Char}, other.toList.head? = some first → first ≠ 'f' → key ≠ other := by
    rintro other first hother hfirst rfl
    exact hfirst (Option.some.inj (hother.symm.trans hkey))
  cases hfailure : e.failure? with
  | some c =>
      rw [deliver_of_failure hfailure, mem_sent_notifyFailure, or_comm]
      simp [eq_comm]
  | none =>
      simp only [reduceCtorEq, false_and, exists_false, or_false]
      cases hsuccess : e.success? with
      | some c =>
          rw [deliver_of_success hsuccess]
          by_cases hactive : ∃ failure, s.active (c.recipeKey e.env) = some failure ∧ failure.stage = c.stage
          · obtain ⟨failure, hslot, hstage⟩ := hactive
            rw [mem_sent_notifyRecovery hslot hstage]
            exact or_iff_right (hne (head?_of_isRecovery isRecovery_recoveredKey) (by decide))
          · push Not at hactive
            rw [notifyRecovery_of_inactive hactive]
      | none =>
          rcases deliver_of_other (s := s) hfailure hsuccess with ⟨reason, heq⟩ | ⟨n, first, hfirst, hmem, heq⟩
          · rw [heq]
          · rw [heq, mem_sent_emit (ne_empty_of_head? hfirst)]
            apply or_iff_right
            apply hne hfirst
            rintro rfl
            simp at hmem

section
variable (hagrees : Agrees events s) (hstep : Orderly s e)
include hagrees hstep

theorem pending_of_failure (hfailure : e.failure? = some c) :
    Pending (events ++ [e]) p stage ↔
      ∃ key failure, (e.deliver s).1.active key = some failure ∧ failure.package = p ∧ failure.stage = stage := by
  have hslot := hstep.1 c hfailure
  have hsuccess : e.success? = none := success?_of_failure hfailure
  simp only [pending_concat, hfailure, hsuccess, Option.some.injEq, exists_eq_left', reduceCtorEq, false_implies,
    implies_true, and_true, deliver_of_failure hfailure, active_notifyFailure, hagrees.pending]
  constructor
  · rintro (⟨rfl, rfl, -⟩ | ⟨key, failure, hactive, rfl, rfl⟩)
    · exact ⟨c.recipeKey e.env, c.failure e.env, if_pos rfl, rfl, rfl⟩
    · by_cases hkey : key = c.recipeKey e.env
      · subst hkey
        rw [hactive] at hslot
        exact ⟨c.recipeKey e.env, c.failure e.env, if_pos rfl, hslot.2.symm, hslot.1.symm⟩
      · exact ⟨key, failure, by rw [if_neg hkey, hactive], rfl, rfl⟩
  · rintro ⟨key, failure, hactive, rfl, rfl⟩
    by_cases hkey : key = c.recipeKey e.env
    · rw [if_pos hkey, Option.some.injEq] at hactive
      subst hactive
      cases hold : s.active (c.recipeKey e.env) with
      | none =>
          rw [hold] at hslot
          exact .inl ⟨rfl, rfl, fun hreported => hslot ((hagrees.reported c e.env).2 hreported)⟩
      | some failure =>
          rw [hold] at hslot
          exact .inr ⟨_, failure, hold, hslot.2, hslot.1⟩
    · rw [if_neg hkey] at hactive
      exact .inr ⟨key, failure, hactive, rfl, rfl⟩

theorem pending_of_success (hsuccess : e.success? = some c) :
    Pending (events ++ [e]) p stage ↔
      ∃ key failure, (e.deliver s).1.active key = some failure ∧ failure.package = p ∧ failure.stage = stage := by
  obtain ⟨hothers, hown⟩ := hstep.2 c hsuccess
  have hfailure : e.failure? = none := by
    cases h : e.failure? with
    | none => rfl
    | some c' => cases (success?_of_failure h).symm.trans hsuccess
  simp only [pending_concat, hfailure, hsuccess, reduceCtorEq, false_and, exists_false, false_or, Option.some.injEq,
    forall_eq', deliver_of_success hsuccess, hagrees.pending]
  by_cases hactive : ∃ failure, s.active (c.recipeKey e.env) = some failure ∧ failure.stage = c.stage
  · obtain ⟨failure, hslot, hstage⟩ := hactive
    obtain ⟨hpackage, -⟩ := hown failure hslot hstage
    simp only [active_notifyRecovery hslot hstage]
    constructor
    · rintro ⟨⟨key, failure', hactive', rfl, rfl⟩, hnot⟩
      have hkey : key ≠ c.recipeKey e.env := by
        rintro rfl
        rw [hslot, Option.some.injEq] at hactive'
        subst hactive'
        exact hnot hpackage.symm hstage.symm
      exact ⟨key, failure', by rw [if_neg hkey, hactive'], rfl, rfl⟩
    · rintro ⟨key, failure', hactive', rfl, rfl⟩
      have hkey : key ≠ c.recipeKey e.env := by
        rintro rfl
        simp at hactive'
      rw [if_neg hkey] at hactive'
      exact ⟨⟨key, failure', hactive', rfl, rfl⟩,
        fun hp hst => hkey (hothers key failure' hactive' hp.symm hst.symm)⟩
  · push Not at hactive
    rw [notifyRecovery_of_inactive hactive]
    constructor
    · exact And.left
    · rintro ⟨key, failure, hslot, rfl, rfl⟩
      refine ⟨⟨key, failure, hslot, rfl, rfl⟩, fun hp hst => ?_⟩
      have hkey : key = c.recipeKey e.env := hothers key failure hslot hp.symm hst.symm
      exact hactive failure (hkey ▸ hslot) hst.symm

/-- An orderly delivery keeps the agreement. -/
theorem Agrees.deliver : Agrees (events ++ [e]) (e.deliver s).1 where
  reported c env := by
    rw [mem_sent_deliver head?_failureKey, reported_concat, hagrees.reported]
  pending p stage := by
    cases hfailure : e.failure? with
    | some c => exact pending_of_failure hagrees hstep hfailure
    | none =>
        cases hsuccess : e.success? with
        | some c => exact pending_of_success hagrees hstep hsuccess
        | none =>
            have hactive : ∀ key, (e.deliver s).1.active key = s.active key := by
              intro key
              rcases deliver_of_other (s := s) hfailure hsuccess with ⟨reason, heq⟩ | ⟨n, first, -, -, heq⟩ <;>
                simp [heq]
            simp [pending_concat, hfailure, hsuccess, hactive, hagrees.pending]

end

/-- The state file agrees with the deliveries in every run of orderly ones. -/
theorem agrees_of_orderlyRun (h : OrderlyRun events) : Agrees events (stateAfter events) := by
  induction events using List.reverseRecOn with
  | nil =>
      constructor
      · intro c env
        simp [stateAfter, Reported]
      · intro p stage
        simp [stateAfter, Pending, State.active, State.row]
  | append_singleton events e ih =>
      obtain ⟨hbefore, hstep⟩ := orderlyRun_concat.1 h
      rw [stateAfter_concat]
      exact (ih hbefore).deliver hstep

/-- A recovery is sent by the success of a stage that is left to recover, and by nothing else. -/
theorem sendsRecovery_iff (hagrees : Agrees before (stateAfter before)) (hstep : Orderly (stateAfter before) e) :
    SendsRecovery before e key ↔
      ∃ c, e.success? = some c ∧ key = c.recoveredKey e.env ∧ Pending before (c.package e.env) c.stage := by
  simp only [hagrees.pending]
  constructor
  · rintro ⟨hrecovery, n, hreply, rfl⟩
    have hfirst : n.key.toList.head? = some 'r' := head?_of_isRecovery hrecovery
    cases hfailure : e.failure? with
    | some c =>
        rw [replyAfter, deliver_of_failure hfailure, reply_notifyFailure] at hreply
        have hkey : n.key = c.failureKey e.env := hreply.1 ▸ rfl
        rw [hkey, head?_failureKey] at hfirst
        simp at hfirst
    | none =>
        cases hsuccess : e.success? with
        | some c =>
            rw [replyAfter, deliver_of_success hsuccess] at hreply
            by_cases hactive : ∃ failure, (stateAfter before).active (c.recipeKey e.env) = some failure ∧
                failure.stage = c.stage
            · obtain ⟨failure, hslot, hstage⟩ := hactive
              obtain ⟨rfl, -⟩ := (reply_notifyRecovery hslot hstage).1 hreply
              obtain ⟨hpackage, -⟩ := (hstep.2 c hsuccess).2 failure hslot hstage
              exact ⟨c, rfl, rfl, _, failure, hslot, hpackage, hstage⟩
            · push Not at hactive
              rw [notifyRecovery_of_inactive hactive] at hreply
              cases hreply
        | none =>
            rcases deliver_of_other (s := stateAfter before) hfailure hsuccess with
              ⟨reason, heq⟩ | ⟨m, first, hm, hmem, heq⟩
            · rw [replyAfter, heq] at hreply
              cases hreply
            · rw [replyAfter, heq, reply_emit (ne_empty_of_head? hm)] at hreply
              rw [hreply.1, hm, Option.some.injEq] at hfirst
              simp [hfirst] at hmem
  · rintro ⟨c, hsuccess, rfl, key, failure, hactive, hpackage, hstage⟩
    obtain ⟨hothers, hown⟩ := hstep.2 c hsuccess
    obtain rfl := hothers key failure hactive hpackage hstage
    obtain ⟨-, hnew⟩ := hown failure hactive hstage
    refine ⟨isRecovery_recoveredKey, recoveryNotification e.env c failure, ?_, rfl⟩
    rw [replyAfter, deliver_of_success hsuccess, reply_notifyRecovery hactive hstage]
    exact ⟨rfl, hnew⟩

/-- In every run of orderly deliveries a recovery is sent exactly when a stage succeeds that is
left to recover, and the slots hold after each delivery exactly what is left; in every run no key
is sent twice. -/
theorem notifications_pair_up (events : List Event) :
    ((notifications events).map (·.key)).Nodup ∧
      (OrderlyRun events →
        (∀ before e after, events = before ++ e :: after → ∀ key, SendsRecovery before e key ↔
          ∃ c, e.success? = some c ∧ key = c.recoveredKey e.env ∧ Pending before (c.package e.env) c.stage) ∧
        ∀ before after, events = before ++ after → ∀ p stage, Pending before p stage ↔
          ∃ key failure, (stateAfter before).active key = some failure ∧ failure.package = p ∧
            failure.stage = stage) := by
  have hagrees : OrderlyRun events → ∀ before after, events = before ++ after → Agrees before (stateAfter before) := by
    rintro h before after rfl
    apply agrees_of_orderlyRun
    intro before' e rest hsplit
    exact h before' e (rest ++ after) (by simp [hsplit])
  refine ⟨nodup_notifications events, fun h => ⟨?_, ?_⟩⟩
  · intro before e after hsplit key
    exact sendsRecovery_iff (hagrees h before (e :: after) hsplit) (h before e after hsplit)
  · intro before after hsplit
    exact (hagrees h before after hsplit).pending

/-- The service of one package `p` without Recipes. -/
def sampleEnvironment : Environment where
  packageResolver _ _ := "p"
  loadRun id := { id }
  runUrl _ := ""

/-- A Run is built. -/
def built (event id : String) : Event := ⟨sampleEnvironment, .build event { id } none⟩

/-- A build is validated. -/
def validated (status id : String) : Event :=
  ⟨sampleEnvironment, .validation { status, buildRunId := id }⟩

theorem orderly_built_failed : Orderly {} (built "build_failed" "1") := by
  constructor
  · intro c hc
    show c.failureKey _ ∉ (∅ : Dict String String)
    exact AList.notMem_empty _
  · intro c hc
    cases hc

theorem stateAfter_built_failed :
    stateAfter [built "build_failed" "1"] =
      (notifyFailure sampleEnvironment {} { stage := "build", run := { id := "1" } }).1 := by
  have hdeliver := @deliver_of_failure {} { stage := "build", run := { id := "1" } } (built "build_failed" "1") rfl
  rw [← List.nil_append [built "build_failed" "1"], stateAfter_concat]
  exact congrArg Prod.fst hdeliver

theorem orderly_built_succeeded :
    Orderly (stateAfter [built "build_failed" "1"]) (built "build_succeeded" "2") := by
  constructor
  · intro c hc
    cases hc
  · intro c hc
    obtain rfl : { stage := "build", run := { id := "2" } } = c := Option.some.inj hc
    rw [stateAfter_built_failed]
    constructor
    · intro key failure hslot _ _
      rw [active_notifyFailure] at hslot
      by_contra hkey
      have hother : key ≠ Call.recipeKey sampleEnvironment { stage := "build", run := { id := "1" } } := hkey
      rw [if_neg hother] at hslot
      cases hslot
    · intro failure hslot _
      rw [active_notifyFailure, if_pos (by decide), Option.some.injEq] at hslot
      subst hslot
      exact ⟨rfl, by decide⟩

/-- The recovery of a build that failed once. -/
theorem notifications_pair_up_recovered :
    SendsRecovery [built "build_failed" "1"] (built "build_succeeded" "2") "recovered:p:build:2" := by
  have hrun : OrderlyRun ([built "build_failed" "1"] ++ [built "build_succeeded" "2"]) := by
    apply orderlyRun_concat.2
    refine ⟨?_, orderly_built_succeeded⟩
    rw [← List.nil_append [built "build_failed" "1"]]
    exact orderlyRun_concat.2 ⟨warranted_nil, orderly_built_failed⟩
  apply (((notifications_pair_up _).2 hrun).1 [built "build_failed" "1"] _ [] rfl _).2
  refine ⟨{ stage := "build", run := { id := "2" } }, rfl, by rfl, [], built "build_failed" "1", [], rfl, ?_,
    by simp⟩
  exact ⟨{ stage := "build", run := { id := "1" } }, rfl, rfl, rfl, by simp [Reported]⟩

/-- The validation of an older build fails before the failed build is recovered, and takes its
slot: the success of the next build is not told.  A failure that is delivered again after its
recovery is active again, and the next success is told as a second recovery. -/
theorem recoveries_differ :
    (∃ c, (built "build_succeeded" "2").success? = some c ∧
      Pending [built "build_failed" "1", validated "failed" "0"] (c.package sampleEnvironment) c.stage ∧
      ∀ key, ¬ SendsRecovery [built "build_failed" "1", validated "failed" "0"] (built "build_succeeded" "2") key) ∧
    SendsRecovery [built "build_failed" "1", built "build_succeeded" "2", built "build_failed" "1"]
      (built "build_succeeded" "3") "recovered:p:build:3" ∧
    ¬ Pending [built "build_failed" "1", built "build_succeeded" "2", built "build_failed" "1"] "p" "build" := by
  refine ⟨⟨{ stage := "build", run := { id := "2" } }, rfl, ?_, ?_⟩,
    ⟨⟨"p:build:3".toList, by decide⟩, ?_⟩, ?_⟩
  · refine ⟨[], built "build_failed" "1", [validated "failed" "0"], rfl, ⟨{ stage := "build", run := { id := "1" } }, rfl, rfl, rfl, ?_⟩, ?_⟩
    · simp [Reported]
    · simp [Event.success?, validated]
  · rintro key ⟨-, n, hreply, -⟩
    have hskipped : replyAfter [built "build_failed" "1", validated "failed" "0"] (built "build_succeeded" "2") =
        .skipped "no active failure" := by rfl
    rw [hskipped] at hreply
    cases hreply
  · have hsent : ((replyAfter [built "build_failed" "1", built "build_succeeded" "2", built "build_failed" "1"]
        (built "build_succeeded" "3")).notification?.map (·.key)) = some "recovered:p:build:3" := by rfl
    obtain ⟨n, hn, hkey⟩ := Option.map_eq_some_iff.1 hsent
    exact ⟨n, Reply.notification?_eq_some.1 hn, hkey⟩
  · intro hpending
    change Pending ([built "build_failed" "1", built "build_succeeded" "2"] ++ [built "build_failed" "1"]) "p" "build"
      at hpending
    rcases pending_concat.1 hpending with ⟨c, hc, -, -, hnew⟩ | ⟨hearlier, -⟩
    · exact hnew ⟨built "build_failed" "1", by simp, c, hc, rfl⟩
    · change Pending ([built "build_failed" "1"] ++ [built "build_succeeded" "2"]) "p" "build" at hearlier
      rcases pending_concat.1 hearlier with ⟨c, hc, -⟩ | ⟨-, hnot⟩
      · cases hc
      · exact hnot { stage := "build", run := { id := "2" } } rfl rfl rfl

end Notifications
end DebBuilder
