import Mathlib
import DebBuilder.Lib.History
import DebBuilder.Maintenance.Service

/-!
# What the maintenance worker owes

A request is kept by a flag, by the revision of the inventory, or by the pass that took it.  One
invariant for each says where it is, and the worker cannot go to sleep over either.

## Main definitions

* `Move` — the steps, by cases.
* `Consistent`, `Served`, `Bounded`, `Halting` — the invariants.

## Main results

* `requests_served` — what has been asked for is done or about to be.
* `shutdown_quiesces` — after a stop the worker ends, and begins at most one thing more.
-/

namespace DebBuilder.Maintenance
open Lib

variable {interval now : ℚ} {s s' : State} {a : Action} {p q : Point} {history : List Event}

/-! ## The steps by cases -/

inductive Move (interval : ℚ) (s : State) : Action → State → Prop
  | request (asked : Work) : Move interval s (.request asked) (s.request asked)
  | stop : Move interval s .stop s.stop
  | start (now : ℚ) : s.worker = .new → Move interval s (.start now) { s with nextPeriodic := now + interval, worker := .waiting }
  | wake (now : ℚ) : s.worker = .waiting → Move interval s (.wake now) (s.wake now)
  | clean (taken : Work) : s.worker = .cleaning taken → Move interval s .clean { s with worker := .checking taken }
  | check (taken : Work) : s.worker = .checking taken →
      Move interval s .check
        { s with worker := if !s.stopRequested && (taken.refresh || taken.cleanup) then .starting taken else .finishing taken }
  | collect (taken : Work) : s.worker = .starting taken → Move interval s .collect { s with worker := .collecting taken s.revision }
  | collected (taken : Work) (revision : Nat) : s.worker = .collecting taken revision →
      Move interval s .collected (s.complete taken revision)
  | finish (taken : Work) (now : ℚ) : s.worker = .finishing taken → Move interval s (.finish now) (s.finish interval taken now)

theorem work_eq_some {worker : Worker} (hworker : s.worker = worker) (h : work interval s worker a = some s') :
    Move interval s a s' := by
  unfold work at h
  split at h <;> simp only [Option.some.injEq, reduceCtorEq] at h <;> subst h
  · exact .start _ hworker
  · exact .wake _ hworker
  · exact .clean _ hworker
  · exact .check _ hworker
  · exact .collect _ hworker
  · exact .collected _ _ hworker
  · exact .finish _ _ hworker

theorem act_own (hown : a.own = true) : act interval s a = work interval s s.worker a := by
  cases a with
  | request => cases hown
  | stop => cases hown
  | start | wake | clean | check | collect | collected | finish => rfl

theorem move_of_act (h : act interval s a = some s') : Move interval s a s' := by
  cases a with
  | request asked => exact Option.some.inj h ▸ .request asked
  | stop => exact Option.some.inj h ▸ .stop
  | start | wake | clean | check | collect | collected | finish => exact work_eq_some rfl h

/-! ## What the blocks that hold the condition come to -/

section
variable {asked taken : Work}

theorem request_of_open (h : s.stopRequested = false) :
    s.request asked =
      { s with
        revision := if asked.refresh || asked.cleanup then s.revision + 1 else s.revision
        refreshRequested := s.refreshRequested || (s.keeps && asked.refresh)
        cleanupRequested := s.cleanupRequested || (s.keeps && asked.cleanup) } := by
  unfold State.request
  rw [if_neg (by simp [h])]
  cases hkeeps : s.keeps <;> cases asked.refresh <;> cases asked.cleanup <;> simp

/-- The work of a pass that begins. -/
def State.workAt (s : State) (now : ℚ) : Work :=
  if s.due now then ⟨true, true⟩ else ⟨s.refreshRequested, s.cleanupRequested⟩

/-- The requests are taken. -/
def State.begun (s : State) (followup : Bool) (taken : Work) : State :=
  { s with
    refreshRequested := false
    cleanupRequested := false
    acceptFollowup := followup
    worker := .cleaning taken }

/-- No pass is under way and nothing is asked for. -/
def State.rested (s : State) (worker : Worker) : State :=
  { s with
    refreshRequested := false
    cleanupRequested := false
    passActive := false
    acceptFollowup := false
    worker := worker }

theorem wake_cases (s : State) (now : ℚ) :
    (s.stopRequested = true ∧
      s.wake now = { s with refreshRequested := false, cleanupRequested := false, worker := .ended }) ∨
    (s.quiet = true ∧ s.due now = false ∧ s.wake now = s) ∨
    (s.stopRequested = false ∧ (s.quiet && !s.due now) = false ∧ s.wake now = { s with passActive := true }.begun true (s.workAt now)) := by
  unfold State.wake
  by_cases hstop : s.stopRequested = true
  · exact .inl ⟨hstop, by rw [if_pos hstop]⟩
  · rw [if_neg hstop]
    have hopen : s.stopRequested = false := by simpa using hstop
    by_cases hdue : s.due now = true
    · right; right
      have hquiet : s.quiet = true := (Bool.and_eq_true_iff.1 hdue).1
      have hflags : s.refreshRequested = false ∧ s.cleanupRequested = false := by
        simpa [State.quiet, hopen] using hquiet
      refine ⟨hopen, by simp [hdue], ?_⟩
      rw [if_pos hdue]
      simp [State.begun, State.workAt, hdue, hflags]
    · rw [if_neg hdue]
      have hdue : s.due now = false := by simpa using hdue
      by_cases hquiet : s.quiet = true
      · exact .inr (.inl ⟨hquiet, hdue, by rw [if_pos hquiet]⟩)
      · exact .inr (.inr ⟨hopen, by simp [hquiet], by rw [if_neg hquiet]; simp [State.begun, State.workAt, hdue]⟩)

/-- The next date, after a pass. -/
def State.dated (s : State) (interval : ℚ) (taken : Work) (now : ℚ) : State :=
  { s with nextPeriodic := if taken.cleanup then now + interval else s.nextPeriodic }

theorem finish_cases (s : State) (interval : ℚ) (taken : Work) (now : ℚ) :
    let dated := s.dated interval taken now
    (s.stopRequested = true ∧ s.finish interval taken now = dated.rested .ended) ∨
    (s.stopRequested = false ∧ s.acceptFollowup = true ∧
      s.finish interval taken now = dated.begun false ⟨s.refreshRequested, s.cleanupRequested⟩) ∨
    (s.stopRequested = false ∧ s.needsRefresh = true ∧
      (s.acceptFollowup = true → s.refreshRequested = false ∧ s.cleanupRequested = false) ∧
      s.finish interval taken now = { dated with acceptFollowup := false, worker := .cleaning ⟨true, false⟩ }) ∨
    (s.stopRequested = false ∧ s.needsRefresh = false ∧
      (s.acceptFollowup = true → s.refreshRequested = false ∧ s.cleanupRequested = false) ∧
      s.finish interval taken now = dated.rested .waiting) := by
  intro dated
  have hdated : (if taken.cleanup then { s with nextPeriodic := now + interval } else s) = dated := by
    cases hcleanup : taken.cleanup <;> simp [dated, State.dated, hcleanup]
  simp only [State.finish, hdated]
  by_cases h : dated.stopRequested = true
  · exact .inl ⟨h, by rw [if_pos h]; rfl⟩
  · rw [if_neg h]
    have hopen : dated.stopRequested = false := by simpa using h
    by_cases hfollow : (dated.acceptFollowup && (dated.refreshRequested || dated.cleanupRequested)) = true
    · have hboth := Bool.and_eq_true_iff.1 hfollow
      refine .inr (.inl ⟨hopen, hboth.1, ?_⟩)
      rw [if_pos hfollow]
      rfl
    · rw [if_neg hfollow]
      have hnone : dated.acceptFollowup = true → dated.refreshRequested = false ∧ dated.cleanupRequested = false := by
        intro hyes
        simpa [hyes] using hfollow
      by_cases hrefresh : dated.needsRefresh = true
      · exact .inr (.inr (.inl ⟨hopen, hrefresh, hnone, by rw [if_pos hrefresh]⟩))
      · exact .inr (.inr (.inr ⟨hopen, Bool.eq_false_iff.2 hrefresh, hnone, by rw [if_neg hrefresh]; rfl⟩))

end

/-! ## The flags -/

def Worker.inPass : Worker → Bool
  | .new => false
  | .waiting => false
  | .ended => false
  | _ => true

/-- How the flags, the revisions and the place of the worker go together. -/
structure Consistent (s : State) : Prop where
  stopped : s.stopRequested = true → s.refreshRequested = false ∧ s.cleanupRequested = false
  followup : s.passActive = true → s.acceptFollowup = false → s.refreshRequested = false ∧ s.cleanupRequested = false
  pass : s.passActive = s.worker.inPass
  accept : s.acceptFollowup = true → s.passActive = true
  revision : s.completedRevision ≤ s.revision
  read : ∀ taken revision, s.worker = .collecting taken revision → revision ≤ s.revision

theorem Consistent.request (h : Consistent s) (asked : Work) : Consistent (s.request asked) := by
  cases hstop : s.stopRequested with
  | true =>
      have hsame : s.request asked = s := if_pos hstop
      rw [hsame]
      exact h
  | false =>
      rw [request_of_open hstop]
      have hgrown : s.revision ≤ if asked.refresh || asked.cleanup then s.revision + 1 else s.revision := by
        split <;> omega
      constructor
      · exact fun habs => absurd (hstop.symm.trans habs) Bool.false_ne_true
      · intro hpass haccept
        have hkeeps : s.keeps = false := by simp_all [State.keeps]
        simpa [hkeeps] using h.followup hpass haccept
      · exact h.pass
      · exact h.accept
      · exact h.revision.trans hgrown
      · exact fun taken revision hworker => (h.read taken revision hworker).trans hgrown

theorem Consistent.begun (h : Consistent s) (hpass : s.passActive = true) (followup : Bool) (taken : Work) :
    Consistent (s.begun followup taken) := by
  constructor
  · exact fun _ => ⟨rfl, rfl⟩
  · exact fun _ _ => ⟨rfl, rfl⟩
  · exact hpass
  · exact fun _ => hpass
  · exact h.revision
  · exact nofun

theorem Consistent.rested (h : Consistent s) {worker : Worker} (hworker : worker.inPass = false) :
    Consistent (s.rested worker) := by
  constructor
  · exact fun _ => ⟨rfl, rfl⟩
  · exact fun _ _ => ⟨rfl, rfl⟩
  · exact hworker.symm
  · exact nofun
  · exact h.revision
  · intro taken revision heq
    have hsame : worker = .collecting taken revision := heq
    rw [hsame] at hworker
    cases hworker

/-- The worker goes on inside a pass. -/
theorem Consistent.within (h : Consistent s) {worker : Worker} (hin : s.worker.inPass = true) (hworker : worker.inPass = true)
    (hread : ∀ taken revision, worker = .collecting taken revision → revision ≤ s.revision) :
    Consistent { s with worker := worker } := by
  constructor
  · exact h.stopped
  · exact h.followup
  · exact h.pass.trans (hin.trans hworker.symm)
  · exact h.accept
  · exact h.revision
  · exact hread

theorem Consistent.dated (h : Consistent s) (taken : Work) : Consistent (s.dated interval taken now) :=
  ⟨h.stopped, h.followup, h.pass, h.accept, h.revision, h.read⟩

/-- No request is left when a pass has no follow-up. -/
theorem Consistent.unasked (h : Consistent s) (hpass : s.passActive = true)
    (hnone : s.acceptFollowup = true → s.refreshRequested = false ∧ s.cleanupRequested = false) :
    s.refreshRequested = false ∧ s.cleanupRequested = false := by
  cases haccept : s.acceptFollowup with
  | true => exact hnone haccept
  | false => exact h.followup hpass haccept

theorem Consistent.move (h : Consistent s) (hmove : Move interval s a s') : Consistent s' := by
  cases hmove with
  | request asked => exact h.request asked
  | stop => exact ⟨fun _ => ⟨rfl, rfl⟩, fun _ _ => ⟨rfl, rfl⟩, h.pass, h.accept, h.revision, h.read⟩
  | start now hworker =>
      have hpass : s.passActive = false := by rw [h.pass, hworker]; rfl
      exact ⟨h.stopped, h.followup, hpass, h.accept, h.revision, nofun⟩
  | wake now hworker =>
      rcases wake_cases s now with ⟨_, heq⟩ | ⟨_, _, heq⟩ | ⟨_, _, heq⟩ <;> rw [heq]
      · have hpass : s.passActive = false := by rw [h.pass, hworker]; rfl
        exact ⟨fun _ => ⟨rfl, rfl⟩, fun _ _ => ⟨rfl, rfl⟩, hpass, h.accept, h.revision, nofun⟩
      · exact h
      · exact ⟨fun _ => ⟨rfl, rfl⟩, fun _ _ => ⟨rfl, rfl⟩, rfl, fun _ => rfl, h.revision, nofun⟩
  | clean taken hworker => exact h.within (by rw [hworker]; rfl) rfl nofun
  | check taken hworker =>
      apply h.within (by rw [hworker]; rfl)
      · split <;> rfl
      · intro taken' revision heq
        split at heq <;> cases heq
  | collect taken hworker =>
      apply h.within (by rw [hworker]; rfl) rfl
      intro taken' revision heq
      cases heq
      exact le_rfl
  | collected taken revision hworker =>
      have hread := h.read taken revision hworker
      constructor
      · exact h.stopped
      · exact h.followup
      · exact h.pass.trans (by rw [hworker]; rfl)
      · exact h.accept
      · show (if revision = s.revision then revision else s.completedRevision) ≤ s.revision
        split
        · exact hread
        · exact h.revision
      · exact nofun
  | finish taken now hworker =>
      have hdated : Consistent (s.dated interval taken now) := h.dated taken
      have hpass : s.passActive = true := by rw [h.pass, hworker]; rfl
      rcases finish_cases s interval taken now with ⟨_, heq⟩ | ⟨_, _, heq⟩ | ⟨_, _, hnone, heq⟩ | ⟨_, _, _, heq⟩ <;> rw [heq]
      · exact hdated.rested rfl
      · exact hdated.begun hpass _ _
      · exact ⟨h.stopped, fun _ _ => h.unasked hpass hnone, hpass, nofun, h.revision, nofun⟩
      · exact hdated.rested rfl

/-! ## Requests -/

/-- A cleanup is asked for, in time for the next pass. -/
def Event.AsksCleanup : Event → Prop
  | .asked wanted kept => kept = true ∧ wanted.cleanup = true
  | _ => False

def Event.Asks : Event → Prop
  | .asked _ _ => True
  | _ => False

/-- A cleanup has been asked for since the last one began. -/
abbrev CleanupOwed (history : List Event) : Prop := Since (· = .cleaned) Event.AsksCleanup history

/-- Something has been asked for since the last collection began. -/
abbrev RefreshOwed (history : List Event) : Prop := Since (· = .collected) Event.Asks history

/-- The flags and the revisions tell what is owed. -/
structure Served (p : Point) : Prop where
  cleanup : CleanupOwed p.2 → p.1.stopRequested = true ∨ p.1.cleanupRequested = true ∨
    ∃ taken, p.1.worker = .cleaning taken ∧ taken.cleanup = true
  completed : RefreshOwed p.2 → p.1.completedRevision < p.1.revision
  read : ∀ taken revision, p.1.worker = .collecting taken revision → RefreshOwed p.2 → revision < p.1.revision
  waiting : p.1.worker = .new ∨ p.1.worker = .waiting →
    p.1.stopRequested = true ∨ p.1.refreshRequested = true ∨ p.1.cleanupRequested = true ∨ p.1.completedRevision = p.1.revision

/-- Outside the start of a pass a cleanup that is owed has its flag. -/
theorem Served.flagged (h : Served (s, history)) (hworker : ∀ taken, s.worker ≠ .cleaning taken) (howed : CleanupOwed history) :
    s.stopRequested = true ∨ s.cleanupRequested = true := by
  rcases h.cleanup howed with hstop | hflag | ⟨taken, hcleaning, _⟩
  · exact .inl hstop
  · exact .inr hflag
  · exact absurd hcleaning (hworker taken)

theorem Served.request (hcon : Consistent s) (h : Served (s, history)) (asked : Work) :
    Served (s.request asked, (eventOf s (.request asked)).toList ++ history) := by
  cases hstop : s.stopRequested with
  | true =>
      have hsame : s.request asked = s := if_pos hstop
      have hnone : eventOf s (.request asked) = none := by simp [eventOf, hstop]
      rw [hsame, hnone]
      exact h
  | false =>
      rw [request_of_open hstop]
      by_cases hany : (asked.refresh || asked.cleanup) = true
      · have hevent : eventOf s (.request asked) = some (.asked asked s.keeps) := by simp [eventOf, hstop, hany]
        rw [hevent]
        simp only [hany, if_true]
        have hcompleted := hcon.revision
        constructor
        · intro howed
          rcases howed with hdue | ⟨_, howed⟩
          · have hkept : s.keeps = true ∧ asked.cleanup = true := hdue
            exact .inr (.inl (by simp [hkept]))
          · rcases h.cleanup howed with hs | hflag | htaken
            · exact .inl hs
            · exact .inr (.inl (by simp [show s.cleanupRequested = true from hflag]))
            · exact .inr (.inr htaken)
        · intro _
          show s.completedRevision < s.revision + 1
          omega
        · intro taken revision hworker _
          have hread := hcon.read taken revision hworker
          show revision < s.revision + 1
          omega
        · intro hworker
          have hpass : s.passActive = false := by
            rw [hcon.pass]
            rcases hworker with hw | hw <;> rw [show s.worker = _ from hw] <;> rfl
          have hkeeps : s.keeps = true := by simp [State.keeps, hpass]
          right
          cases hrefresh : asked.refresh with
          | true => exact .inl (by simp [hkeeps])
          | false =>
              have hcleanup : asked.cleanup = true := by simpa [hrefresh] using hany
              exact .inr (.inl (by simp [hkeeps, hcleanup]))
      · have hevent : eventOf s (.request asked) = none := by simp [eventOf, hany]
        have hnone : asked.refresh = false ∧ asked.cleanup = false := by simpa using hany
        rw [hevent]
        simpa [hnone] using h

/-- An event that asks for nothing and settles nothing. -/
def Event.Silent (e : Event) : Prop := ¬ e.AsksCleanup ∧ ¬ e.Asks ∧ e ≠ .cleaned ∧ e ≠ .collected

theorem cleanupOwed_silent {e : Option Event} (h : ∀ x ∈ e, x.Silent) : CleanupOwed (e.toList ++ history) ↔ CleanupOwed history := by
  cases e with
  | none => exact Iff.rfl
  | some e => simp [CleanupOwed, (h e rfl).1, (h e rfl).2.2.1]

theorem refreshOwed_silent {e : Option Event} (h : ∀ x ∈ e, x.Silent) : RefreshOwed (e.toList ++ history) ↔ RefreshOwed history := by
  cases e with
  | none => exact Iff.rfl
  | some e => simp [RefreshOwed, (h e rfl).2.1, (h e rfl).2.2.2]

theorem eventOf_silent (hrequest : ∀ asked, a ≠ .request asked) (hclean : a ≠ .clean) (hcollect : a ≠ .collect) :
    ∀ x ∈ eventOf s a, x.Silent := by
  intro x hx
  suffices h : x = .stopped ∨ (∃ now, x = .rested now) ∨ x = .woke by
    rcases h with rfl | ⟨now, rfl⟩ | rfl <;> exact ⟨nofun, nofun, nofun, nofun⟩
  cases a with
  | request asked => exact absurd rfl (hrequest asked)
  | clean => exact absurd rfl hclean
  | collect => exact absurd rfl hcollect
  | check | collected => simp [eventOf] at hx
  | stop | start | wake | finish =>
      simp only [eventOf] at hx
      grind

theorem Served.move (hcon : Consistent s) (h : Served (s, history)) (hmove : Move interval s a s') :
    Served (s', (eventOf s a).toList ++ history) := by
  cases hmove with
  | request asked => exact h.request hcon asked
  | stop =>
      have hsilent := eventOf_silent (s := s) (a := .stop) nofun nofun nofun
      constructor
      · exact fun _ => .inl rfl
      · exact fun howed => h.completed ((refreshOwed_silent hsilent).1 howed)
      · exact fun taken revision hworker howed => h.read taken revision hworker ((refreshOwed_silent hsilent).1 howed)
      · exact fun _ => .inl rfl
  | start now hworker =>
      have hplace : ∀ taken, s.worker ≠ .cleaning taken := by simp [hworker]
      have hsilent := eventOf_silent (s := s) (a := .start now) nofun nofun nofun
      constructor
      · exact fun howed => (h.flagged hplace ((cleanupOwed_silent hsilent).1 howed)).imp_right .inl
      · exact fun howed => h.completed ((refreshOwed_silent hsilent).1 howed)
      · exact nofun
      · exact fun _ => h.waiting (.inl hworker)
  | wake now hworker =>
      have hplace : ∀ taken, s.worker ≠ .cleaning taken := by simp [hworker]
      have hsilent := eventOf_silent (s := s) (a := .wake now) nofun nofun nofun
      have hcompleted : RefreshOwed ((eventOf s (.wake now)).toList ++ history) → s.completedRevision < s.revision :=
        fun howed => h.completed ((refreshOwed_silent hsilent).1 howed)
      rcases wake_cases s now with ⟨hstop, heq⟩ | ⟨hquiet, hdue, heq⟩ | ⟨hopen, _, heq⟩ <;> rw [heq]
      · exact ⟨fun _ => .inl hstop, hcompleted, nofun, nofun⟩
      · have hnone : eventOf s (.wake now) = none := by simp [eventOf, hquiet, hdue]
        rw [hnone]
        exact h
      · constructor
        · intro howed
          rcases h.flagged hplace ((cleanupOwed_silent hsilent).1 howed) with hstop | hflag
          · exact .inl hstop
          · refine .inr (.inr ⟨_, rfl, ?_⟩)
            have hnotdue : s.due now = false := by simp [State.due, State.quiet, hflag]
            simp [State.workAt, hnotdue, hflag]
        · exact hcompleted
        · exact nofun
        · exact nofun
  | clean taken hworker =>
      constructor
      · intro howed
        simp only [eventOf, hworker] at howed
        cases hcleanup : taken.cleanup with
        | true => simp [CleanupOwed, hcleanup, Event.AsksCleanup] at howed
        | false =>
            have howed : CleanupOwed history := by simpa [hcleanup] using howed
            rcases h.cleanup howed with hstop | hflag | ⟨taken', hcleaning, htaken⟩
            · exact .inl hstop
            · exact .inr (.inl hflag)
            · cases hworker.symm.trans hcleaning
              exact absurd (hcleanup.symm.trans htaken) Bool.false_ne_true
      · intro howed
        apply h.completed
        simp only [eventOf, hworker] at howed
        cases hcleanup : taken.cleanup <;> simpa [RefreshOwed, hcleanup, Event.Asks] using howed
      · exact nofun
      · exact nofun
  | check taken hworker =>
      have hplace : ∀ taken, s.worker ≠ .cleaning taken := by simp [hworker]
      constructor
      · exact fun howed => (h.flagged hplace howed).imp_right .inl
      · exact h.completed
      · intro taken' revision hreading
        have habs : (if !s.stopRequested && (taken.refresh || taken.cleanup) then Worker.starting taken else .finishing taken) =
          .collecting taken' revision := hreading
        split at habs <;> cases habs
      · intro hwaiting
        have habs : ∀ worker, (if !s.stopRequested && (taken.refresh || taken.cleanup) then Worker.starting taken
          else .finishing taken) = worker → worker.inPass = true := by rintro _ rfl; split <;> rfl
        rcases hwaiting with hw | hw <;> cases habs _ hw
  | collect taken hworker =>
      have hplace : ∀ taken, s.worker ≠ .cleaning taken := by simp [hworker]
      have hnone : ¬ RefreshOwed ((eventOf s .collect).toList ++ history) := by simp [RefreshOwed, eventOf, Event.Asks]
      constructor
      · intro howed
        have howed : CleanupOwed history := by simpa [CleanupOwed, eventOf, Event.AsksCleanup] using howed
        exact (h.flagged hplace howed).imp_right .inl
      · exact fun howed => absurd howed hnone
      · exact fun _ _ _ howed => absurd howed hnone
      · exact nofun
  | collected taken revision hworker =>
      have hplace : ∀ taken, s.worker ≠ .cleaning taken := by simp [hworker]
      have hread := hcon.read taken revision hworker
      constructor
      · exact fun howed => (h.flagged hplace howed).imp_right .inl
      · intro howed
        show (if revision = s.revision then revision else s.completedRevision) < s.revision
        have hlt : revision < s.revision := h.read taken revision hworker howed
        rw [if_neg hlt.ne]
        exact h.completed howed
      · exact nofun
      · exact nofun
  | finish taken now hworker =>
      have hplace : ∀ taken, s.worker ≠ .cleaning taken := by simp [hworker]
      have hsilent := eventOf_silent (s := s) (a := .finish now) nofun nofun nofun
      have hpass : s.passActive = true := by rw [hcon.pass, hworker]; rfl
      have hcompleted : RefreshOwed ((eventOf s (.finish now)).toList ++ history) → s.completedRevision < s.revision :=
        fun howed => h.completed ((refreshOwed_silent hsilent).1 howed)
      have hflagged : CleanupOwed ((eventOf s (.finish now)).toList ++ history) →
          s.stopRequested = true ∨ s.cleanupRequested = true :=
        fun howed => h.flagged hplace ((cleanupOwed_silent hsilent).1 howed)
      rcases finish_cases s interval taken now with
        ⟨hstop, heq⟩ | ⟨_, _, heq⟩ | ⟨_, hneeds, hnone, heq⟩ | ⟨hopen, hneeds, hnone, heq⟩ <;> rw [heq]
      · exact ⟨fun _ => .inl hstop, hcompleted, nofun, nofun⟩
      · constructor
        · intro howed
          rcases hflagged howed with hstop | hflag
          · exact .inl hstop
          · exact .inr (.inr ⟨_, rfl, hflag⟩)
        · exact hcompleted
        · exact nofun
        · exact nofun
      · constructor
        · exact fun howed => (hflagged howed).imp_right .inl
        · exact hcompleted
        · exact nofun
        · exact nofun
      · have hflags := hcon.unasked hpass hnone
        have hequal : s.completedRevision = s.revision := by
          have h : s.revision = s.completedRevision := by simpa [State.needsRefresh] using hneeds
          exact h.symm
        constructor
        · intro howed
          rcases hflagged howed with hstop | hflag
          · exact .inl hstop
          · exact absurd (hflags.2.symm.trans hflag) Bool.false_ne_true
        · exact hcompleted
        · exact nofun
        · exact fun _ => .inr (.inr (.inr hequal))

/-! ## Bursts and dates -/

/-- The cleanups of the pass under way and of its follow-up. -/
def cleanings : List Event → Nat
  | [] => 0
  | .woke :: _ => 0
  | .cleaned :: history => cleanings history + 1
  | _ :: history => cleanings history

/-- The time of the last rest. -/
def lastRest : List Event → Option ℚ
  | [] => none
  | .rested now :: _ => some now
  | _ :: history => lastRest history

/-- The cleanup that the worker is about to begin. -/
def Worker.upcoming : Worker → Nat
  | .cleaning taken => if taken.cleanup then 1 else 0
  | _ => 0

structure Bounded (interval : ℚ) (p : Point) : Prop where
  first : p.1.acceptFollowup = true → cleanings p.2 + p.1.worker.upcoming ≤ 1
  total : cleanings p.2 + p.1.worker.upcoming ≤ 2
  dated : p.1.worker = .new ∨ ∃ t, lastRest p.2 = some t ∧ p.1.nextPeriodic = t + interval

theorem Worker.upcoming_le (worker : Worker) : worker.upcoming ≤ 1 := by
  cases worker with
  | cleaning taken => rw [Worker.upcoming]; split <;> decide
  | new | waiting | checking | starting | collecting | finishing | ended => exact Nat.zero_le 1

/-- A step that begins no pass, no cleanup and no rest. -/
theorem Bounded.within {e : Option Event} (h : Bounded interval (s, history))
    (hevent : ∀ x ∈ e, (∃ asked kept, x = .asked asked kept) ∨ x = .collected ∨ x = .stopped)
    (haccept : s'.acceptFollowup = s.acceptFollowup) (hupcoming : s'.worker.upcoming = s.worker.upcoming)
    (hnext : s'.nextPeriodic = s.nextPeriodic) (hnew : s.worker = .new → s'.worker = .new) :
    Bounded interval (s', e.toList ++ history) := by
  have hlog : cleanings (e.toList ++ history) = cleanings history ∧ lastRest (e.toList ++ history) = lastRest history := by
    cases e with
    | none => exact ⟨rfl, rfl⟩
    | some e => rcases hevent e rfl with ⟨asked, kept, rfl⟩ | rfl | rfl <;> exact ⟨rfl, rfl⟩
  obtain ⟨hcleanings, hrest⟩ := hlog
  constructor
  · intro hopen
    have hfirst := h.first (haccept ▸ hopen)
    simpa only [hcleanings, hupcoming] using hfirst
  · simpa only [hcleanings, hupcoming] using h.total
  · rcases h.dated with hw | ⟨t, hlast, hdate⟩
    · exact .inl (hnew hw)
    · exact .inr ⟨t, hrest.trans hlast, hnext.trans hdate⟩

theorem Bounded.request (h : Bounded interval (s, history)) (asked : Work) :
    Bounded interval (s.request asked, (eventOf s (.request asked)).toList ++ history) := by
  have hsame : (s.request asked).acceptFollowup = s.acceptFollowup ∧ (s.request asked).worker = s.worker ∧
      (s.request asked).nextPeriodic = s.nextPeriodic := by
    cases hstop : s.stopRequested with
    | true =>
        have heq : s.request asked = s := if_pos hstop
        rw [heq]
        exact ⟨rfl, rfl, rfl⟩
    | false =>
        rw [request_of_open hstop]
        exact ⟨rfl, rfl, rfl⟩
  apply h.within
  · intro x hx
    simp only [eventOf, Option.mem_def, Option.ite_none_left_eq_some, Option.some.injEq] at hx
    exact .inl ⟨asked, s.keeps, hx.2.symm⟩
  · exact hsame.1
  · rw [hsame.2.1]
  · exact hsame.2.2
  · exact fun hnew => hsame.2.1.trans hnew

theorem Bounded.move (h : Bounded interval (s, history)) (hmove : Move interval s a s') :
    Bounded interval (s', (eventOf s a).toList ++ history) := by
  cases hmove with
  | request asked => exact h.request asked
  | stop =>
      apply h.within
      · intro x hx
        simp only [eventOf, Option.mem_def, Option.ite_none_left_eq_some, Option.some.injEq] at hx
        exact .inr (.inr hx.2.symm)
      · rfl
      · rfl
      · rfl
      · exact id
  | start now hworker =>
      have hnone : s.worker.upcoming = 0 := by rw [hworker]; rfl
      have hfirst := h.first
      have htotal := h.total
      simp only [hnone] at hfirst htotal
      exact ⟨hfirst, htotal, .inr ⟨now, rfl, rfl⟩⟩
  | wake now hworker =>
      have hdate : ∃ t, lastRest history = some t ∧ s.nextPeriodic = t + interval := by
        rcases h.dated with hnew | hdate
        · cases hworker.symm.trans hnew
        · exact hdate
      have hupcoming : s.worker.upcoming = 0 := by rw [hworker]; rfl
      have hfirst := h.first
      have htotal := h.total
      simp only [hupcoming] at hfirst htotal
      rcases wake_cases s now with ⟨hstop, heq⟩ | ⟨hquiet, hdue, heq⟩ | ⟨hopen, hbusy, heq⟩ <;> rw [heq]
      · have hnone : eventOf s (.wake now) = none := by simp [eventOf, hstop]
        rw [hnone]
        exact ⟨hfirst, htotal, .inr hdate⟩
      · have hnone : eventOf s (.wake now) = none := by simp [eventOf, hquiet, hdue]
        rw [hnone]
        exact h
      · have hwoke : eventOf s (.wake now) = some .woke := by simp [eventOf, hopen, hbusy]
        rw [hwoke]
        have hle := Worker.upcoming_le (.cleaning (s.workAt now))
        constructor
        · intro _
          show 0 + (Worker.cleaning (s.workAt now)).upcoming ≤ 1
          omega
        · show 0 + (Worker.cleaning (s.workAt now)).upcoming ≤ 2
          omega
        · exact .inr hdate
  | clean taken hworker =>
      have hfirst := h.first
      have htotal := h.total
      simp only [hworker, Worker.upcoming] at hfirst htotal
      have hdate : ∃ t, lastRest history = some t ∧ s.nextPeriodic = t + interval := by
        rcases h.dated with hnew | hdate
        · cases hworker.symm.trans hnew
        · exact hdate
      cases hcleanup : taken.cleanup with
      | true =>
          have hevent : eventOf s .clean = some .cleaned := by simp [eventOf, hworker, hcleanup]
          rw [hevent]
          simp only [hcleanup, if_true] at hfirst htotal
          exact ⟨hfirst, htotal, .inr hdate⟩
      | false =>
          have hevent : eventOf s .clean = none := by simp [eventOf, hworker, hcleanup]
          rw [hevent]
          simp only [hcleanup, Bool.false_eq_true, if_false] at hfirst htotal
          exact ⟨hfirst, htotal, .inr hdate⟩
  | check taken hworker =>
      apply h.within
      · exact nofun
      · rfl
      · rw [hworker]
        show (if !s.stopRequested && (taken.refresh || taken.cleanup) then Worker.starting taken else .finishing taken).upcoming = 0
        split <;> rfl
      · rfl
      · intro hnew
        cases hworker.symm.trans hnew
  | collect taken hworker =>
      apply h.within
      · intro x hx
        exact .inr (.inl (Option.some.inj hx).symm)
      · rfl
      · rw [hworker]
        rfl
      · rfl
      · intro hnew
        cases hworker.symm.trans hnew
  | collected taken revision hworker =>
      apply h.within
      · exact nofun
      · rfl
      · rw [hworker]
        rfl
      · rfl
      · intro hnew
        cases hworker.symm.trans hnew
  | finish taken now hworker =>
      have hfirst := h.first
      have htotal := h.total
      have hupcoming : s.worker.upcoming = 0 := by rw [hworker]; rfl
      simp only [hupcoming, Nat.add_zero] at hfirst htotal
      have hlog : cleanings ((eventOf s (.finish now)).toList ++ history) = cleanings history ∧
          (∃ t, lastRest ((eventOf s (.finish now)).toList ++ history) = some t ∧
            (s.dated interval taken now).nextPeriodic = t + interval) := by
        simp only [eventOf, hworker, State.dated]
        cases taken.cleanup with
        | true => exact ⟨rfl, ⟨now, rfl, rfl⟩⟩
        | false =>
            refine ⟨rfl, ?_⟩
            rcases h.dated with hnew | hdate
            · cases hworker.symm.trans hnew
            · exact hdate
      obtain ⟨hcleanings, hdate⟩ := hlog
      rcases finish_cases s interval taken now with ⟨_, heq⟩ | ⟨_, haccept, heq⟩ | ⟨_, _, _, heq⟩ | ⟨_, _, _, heq⟩ <;> rw [heq]
      · exact ⟨nofun, hcleanings ▸ htotal, .inr hdate⟩
      · have hle := Worker.upcoming_le (.cleaning ⟨s.refreshRequested, s.cleanupRequested⟩)
        have hone := hfirst haccept
        refine ⟨nofun, ?_, .inr hdate⟩
        show cleanings _ + (Worker.cleaning ⟨s.refreshRequested, s.cleanupRequested⟩).upcoming ≤ 2
        rw [hcleanings]
        omega
      · exact ⟨nofun, hcleanings ▸ htotal, .inr hdate⟩
      · exact ⟨nofun, hcleanings ▸ htotal, .inr hdate⟩

/-! ## Stops -/

/-- What has happened since the stop. -/
def afterStop (history : List Event) : List Event := history.takeWhile (· ≠ .stopped)

/-- A request is accepted or a pass begins. -/
def Event.Opens : Event → Prop
  | .asked _ _ => True
  | .woke => True
  | _ => False

/-- A cleanup or a collection begins. -/
def Event.begins : Event → Bool
  | .cleaned => true
  | .collected => true
  | _ => false

/-- What the worker is about to begin. -/
def Worker.beginning : Worker → Nat
  | .cleaning taken => if taken.cleanup then 1 else 0
  | .starting _ => 1
  | _ => 0

theorem Worker.beginning_le (worker : Worker) : worker.beginning ≤ 1 := by
  cases worker with
  | cleaning taken => rw [Worker.beginning]; split <;> decide
  | starting => exact le_rfl
  | new | waiting | checking | collecting | finishing | ended => exact Nat.zero_le 1

structure Halting (p : Point) : Prop where
  stopped : p.1.stopRequested = true ↔ .stopped ∈ p.2
  begun : p.1.stopRequested = true → (afterStop p.2).countP Event.begins + p.1.worker.beginning ≤ 1
  closed : p.1.stopRequested = true → ∀ e ∈ afterStop p.2, ¬ e.Opens

/-- A step other than a stop. -/
theorem Halting.within {e : Option Event} (h : Halting (s, history)) (hstop : s'.stopRequested = s.stopRequested)
    (hevent : ∀ x ∈ e, x ≠ .stopped ∧ (s.stopRequested = true → ¬ x.Opens))
    (hbegin : s.stopRequested = true → e.toList.countP Event.begins + s'.worker.beginning ≤ s.worker.beginning) :
    Halting (s', e.toList ++ history) := by
  have hafter : afterStop (e.toList ++ history) = e.toList ++ afterStop history := by
    cases e with
    | none => rfl
    | some e => exact List.takeWhile_cons_of_pos (by simpa using (hevent e rfl).1)
  constructor
  · rw [hstop, h.stopped]
    cases e with
    | none => exact Iff.rfl
    | some e =>
        have hne : Event.stopped ≠ e := (hevent e rfl).1.symm
        exact ⟨List.mem_cons_of_mem e, fun hx => (List.mem_cons.1 hx).resolve_left hne⟩
  · intro hs
    rw [hstop] at hs
    have hold := h.begun hs
    have hnew := hbegin hs
    simp only [hafter, List.countP_append]
    dsimp only at hold ⊢
    omega
  · intro hs x hx
    rw [hstop] at hs
    simp only [hafter, List.mem_append, Option.mem_toList] at hx
    rcases hx with hx | hx
    · exact (hevent x hx).2 hs
    · exact h.closed hs x hx

theorem Halting.move (h : Halting (s, history)) (hmove : Move interval s a s') :
    Halting (s', (eventOf s a).toList ++ history) := by
  cases hmove with
  | request asked =>
      cases hstop : s.stopRequested with
      | true =>
          have hsame : s.request asked = s := if_pos hstop
          have hnone : eventOf s (.request asked) = none := by simp [eventOf, hstop]
          rw [hsame, hnone]
          exact h
      | false =>
          rw [request_of_open hstop]
          apply h.within
          · rfl
          · intro x hx
            simp only [eventOf, Option.mem_def, Option.ite_none_left_eq_some, Option.some.injEq] at hx
            refine ⟨?_, fun hs => absurd (hstop.symm.trans hs) Bool.false_ne_true⟩
            rw [← hx.2]
            exact nofun
          · exact fun hs => absurd (hstop.symm.trans hs) Bool.false_ne_true
  | stop =>
      cases hstop : s.stopRequested with
      | true =>
          have hnone : eventOf s .stop = none := by simp [eventOf, hstop]
          rw [hnone]
          apply h.within
          · exact hstop.symm
          · exact nofun
          · exact fun _ => (Nat.zero_add _).le
      | false =>
          have hevent : eventOf s .stop = some .stopped := by simp [eventOf, hstop]
          have hnone : afterStop (.stopped :: history) = [] := List.takeWhile_cons_of_neg (by simp)
          rw [hevent]
          constructor
          · simp [State.stop]
          · intro _
            have hle := s.worker.beginning_le
            show (afterStop (.stopped :: history)).countP Event.begins + s.worker.beginning ≤ 1
            simpa [hnone] using hle
          · intro _ x hx
            have hx : x ∈ afterStop (.stopped :: history) := hx
            simp [hnone] at hx
  | start now hworker =>
      apply h.within
      · rfl
      · intro x hx
        cases hx
        exact ⟨nofun, fun _ => id⟩
      · exact fun _ => Nat.zero_le _
  | wake now hworker =>
      rcases wake_cases s now with ⟨hstop, heq⟩ | ⟨hquiet, hdue, heq⟩ | ⟨hopen, hbusy, heq⟩ <;> rw [heq]
      · have hnone : eventOf s (.wake now) = none := by simp [eventOf, hstop]
        rw [hnone]
        apply h.within
        · rfl
        · exact nofun
        · exact fun _ => Nat.zero_le _
      · have hnone : eventOf s (.wake now) = none := by simp [eventOf, hquiet, hdue]
        rw [hnone]
        exact h
      · have hwoke : eventOf s (.wake now) = some .woke := by simp [eventOf, hopen, hbusy]
        rw [hwoke]
        apply h.within
        · rfl
        · intro x hx
          cases hx
          exact ⟨nofun, fun hs => absurd (hopen.symm.trans hs) Bool.false_ne_true⟩
        · exact fun hs => absurd (hopen.symm.trans hs) Bool.false_ne_true
  | clean taken hworker =>
      have hevent : eventOf s .clean = if taken.cleanup then some .cleaned else none := by simp [eventOf, hworker]
      rw [hevent]
      apply h.within
      · rfl
      · intro x hx
        cases hcleanup : taken.cleanup <;> simp only [hcleanup, Bool.false_eq_true, if_true, if_false] at hx <;> cases hx
        exact ⟨nofun, fun _ => id⟩
      · intro _
        rw [hworker]
        cases hcleanup : taken.cleanup <;> simp [Worker.beginning, hcleanup, Event.begins]
  | check taken hworker =>
      apply h.within
      · rfl
      · exact nofun
      · intro hs
        simp [hs, Worker.beginning, eventOf]
  | collect taken hworker =>
      apply h.within
      · rfl
      · intro x hx
        cases hx
        exact ⟨nofun, fun _ => id⟩
      · intro _
        rw [hworker]
        exact le_rfl
  | collected taken revision hworker =>
      apply h.within
      · rfl
      · exact nofun
      · exact fun _ => Nat.zero_le _
  | finish taken now hworker =>
      have hstop : (s.finish interval taken now).stopRequested = s.stopRequested := by
        rcases finish_cases s interval taken now with ⟨_, heq⟩ | ⟨_, _, heq⟩ | ⟨_, _, _, heq⟩ | ⟨_, _, _, heq⟩ <;> rw [heq] <;> rfl
      apply h.within hstop
      · intro x hx
        simp only [eventOf, hworker] at hx
        cases hcleanup : taken.cleanup <;> simp only [hcleanup, Bool.false_eq_true, if_true, if_false] at hx <;> cases hx
        exact ⟨nofun, fun _ => id⟩
      · intro hs
        rcases finish_cases s interval taken now with ⟨_, heq⟩ | ⟨hopen, _⟩ | ⟨hopen, _⟩ | ⟨hopen, _⟩
        · rw [heq]
          cases hcleanup : taken.cleanup <;> simp [eventOf, hworker, hcleanup, Event.begins, State.rested, Worker.beginning]
        · exact absurd (hopen.symm.trans hs) Bool.false_ne_true
        · exact absurd (hopen.symm.trans hs) Bool.false_ne_true
        · exact absurd (hopen.symm.trans hs) Bool.false_ne_true

/-! ## The steps that are left -/

/-- How many steps the worker has at most before it ends, once a stop has come. -/
def Worker.remaining : Worker → Nat
  | .ended => 0
  | .waiting => 1
  | .finishing _ => 1
  | .new => 2
  | .collecting _ _ => 2
  | .checking _ => 2
  | .starting _ => 3
  | .cleaning _ => 3

theorem stopRequested_of_move (hstop : s.stopRequested = true) (hmove : Move interval s a s') : s'.stopRequested = true := by
  cases hmove with
  | request asked =>
      have hsame : s.request asked = s := if_pos hstop
      rw [hsame]
      exact hstop
  | stop => rfl
  | start | clean | check | collect | collected => exact hstop
  | wake now hworker => rcases wake_cases s now with ⟨_, heq⟩ | ⟨_, _, heq⟩ | ⟨_, _, heq⟩ <;> rw [heq] <;> exact hstop
  | finish taken now hworker =>
      rcases finish_cases s interval taken now with ⟨_, heq⟩ | ⟨_, _, heq⟩ | ⟨_, _, _, heq⟩ | ⟨_, _, _, heq⟩ <;> rw [heq] <;> exact hstop

theorem worker_of_move (hmove : Move interval s a s') (hown : a.own = false) : s'.worker = s.worker := by
  cases hmove with
  | request asked =>
      cases hstop : s.stopRequested with
      | true => rw [show s.request asked = s from if_pos hstop]
      | false => rw [request_of_open hstop]
  | stop => rfl
  | start | wake | clean | check | collect | collected | finish => cases hown

theorem remaining_lt (hstop : s.stopRequested = true) (hmove : Move interval s a s') (hown : a.own = true) :
    s'.worker.remaining < s.worker.remaining := by
  cases hmove with
  | request => cases hown
  | stop => cases hown
  | start now hworker => rw [hworker]; simp [Worker.remaining]
  | wake now hworker =>
      rw [hworker]
      rcases wake_cases s now with ⟨_, heq⟩ | ⟨hquiet, _⟩ | ⟨hopen, _⟩
      · rw [heq]; simp [Worker.remaining]
      · simp [State.quiet, hstop] at hquiet
      · exact absurd (hopen.symm.trans hstop) Bool.false_ne_true
  | clean taken hworker => rw [hworker]; simp [Worker.remaining]
  | check taken hworker => rw [hworker]; simp [hstop, Worker.remaining]
  | collect taken hworker => rw [hworker]; simp [Worker.remaining]
  | collected taken revision hworker => rw [hworker]; simp [State.complete, Worker.remaining]
  | finish taken now hworker =>
      rw [hworker]
      rcases finish_cases s interval taken now with ⟨_, heq⟩ | ⟨hopen, _⟩ | ⟨hopen, _⟩ | ⟨hopen, _⟩
      · rw [heq]; simp [State.rested, Worker.remaining]
      · exact absurd (hopen.symm.trans hstop) Bool.false_ne_true
      · exact absurd (hopen.symm.trans hstop) Bool.false_ne_true
      · exact absurd (hopen.symm.trans hstop) Bool.false_ne_true

/-- The steps of the worker in a run, and those that it has left. -/
theorem own_le_remaining {actions : List Action} (hstop : s.stopRequested = true)
    (hrun : (service interval).run (fun _ _ => true) s actions = some s') :
    actions.countP Action.own + s'.worker.remaining ≤ s.worker.remaining := by
  induction actions generalizing s with
  | nil =>
      have heq : s = s' := by simpa [Machine.run] using hrun
      simp [heq]
  | cons a actions ih =>
      simp only [Machine.run, if_true, Option.bind_eq_some_iff] at hrun
      obtain ⟨s₁, hstep, hrun⟩ := hrun
      have hmove : Move interval s a s₁ := move_of_act hstep
      have hrest := ih (stopRequested_of_move hstop hmove) hrun
      cases hown : a.own with
      | true =>
          have hlt := remaining_lt hstop hmove hown
          simp only [List.countP_cons, hown, if_true]
          omega
      | false =>
          have hsame : s₁.worker = s.worker := worker_of_move hmove hown
          rw [hsame] at hrest
          simpa [hown] using hrest

/-! ## The runs -/

theorem Reachable.consistent (h : Reachable interval p) :
    Consistent p.1 ∧ Served p ∧ Bounded interval p ∧ Halting p := by
  induction h with
  | start =>
    refine ⟨⟨nofun, nofun, rfl, nofun, le_rfl, nofun⟩, ⟨nofun, nofun, nofun, fun _ => .inr (.inl rfl)⟩, ?_, ?_⟩
    · exact ⟨nofun, Nat.zero_le 2, .inl rfl⟩
    · exact ⟨⟨nofun, nofun⟩, nofun, nofun⟩
  | @step p q a _ _ hstep ih =>
    obtain ⟨hcon, hserved, hbounded, hhalting⟩ := ih
    obtain ⟨hact, hlog⟩ := Machine.recording_step.1 hstep
    have hmove : Move interval p.1 a q.1 := move_of_act hact
    have hq : q = (q.1, (eventOf p.1 a).toList ++ p.2) := by rw [← hlog]
    rw [hq]
    exact ⟨hcon.move hmove, hserved.move hcon hmove, hbounded.move hmove, hhalting.move hmove⟩

/-- What the requests have led to. -/
structure Serves (interval : ℚ) (p : Point) : Prop where
  /-- A cleanup that was asked for in time has begun, is flagged, or is the next thing done. -/
  cleanup : ∀ after asked before, p.2 = after ++ .asked asked true :: before → asked.cleanup = true → .cleaned ∉ after →
    p.1.stopRequested = true ∨ p.1.cleanupRequested = true ∨ ∃ taken, p.1.worker = .cleaning taken ∧ taken.cleanup = true
  /-- The worker does not wait unless a collection has begun after each request. -/
  refresh : p.1.worker = .waiting → p.1.quiet = true →
    ∀ after asked kept before, p.2 = after ++ .asked asked kept :: before → .collected ∈ after
  /-- A burst of requests leads to a pass and its follow-up. -/
  burst : cleanings p.2 ≤ 2
  /-- What comes too late for the follow-up is left to the sweep, an interval after the last rest. -/
  swept : p.1.worker = .waiting → p.1.quiet = true →
    ∃ t, lastRest p.2 = some t ∧ ∀ now, (p.1.wake now).worker = if t + interval ≤ now then .cleaning ⟨true, true⟩ else .waiting

theorem requests_served (h : Reachable interval p) : Serves interval p := by
  obtain ⟨_, hserved, hbounded, _⟩ := h.consistent
  constructor
  · intro after asked before hlog hcleanup hnone
    apply hserved.cleanup
    refine since_iff.2 ⟨after, _, before, hlog, ⟨rfl, hcleanup⟩, ?_⟩
    intro x hx hcleaned
    exact hnone (hcleaned ▸ hx)
  · intro hworker hquiet after asked kept before hlog
    by_contra hnone
    have howed : RefreshOwed p.2 := by
      refine since_iff.2 ⟨after, _, before, hlog, trivial, ?_⟩
      intro x hx hcollected
      exact hnone (hcollected ▸ hx)
    have hlt := hserved.completed howed
    rcases hserved.waiting (.inr hworker) with hstop | hrefresh | hcleanup | heq
    · simp [State.quiet, hstop] at hquiet
    · simp [State.quiet, hrefresh] at hquiet
    · simp [State.quiet, hcleanup] at hquiet
    · omega
  · have htotal := hbounded.total
    omega
  · intro hworker hquiet
    rcases hbounded.dated with hnew | ⟨t, hlast, hnext⟩
    · cases hworker.symm.trans hnew
    · refine ⟨t, hlast, fun now => ?_⟩
      have hopen : p.1.stopRequested = false := by
        have h := hquiet
        simp only [State.quiet, Bool.not_eq_true', Bool.or_eq_false_iff] at h
        exact h.2
      rw [← hnext]
      by_cases hdue : p.1.nextPeriodic ≤ now <;> simp [State.wake, State.due, hopen, hquiet, hdue, hworker]

/-- Two requests, the second during the first pass. -/
def sampleBurst : List Action := [.start 0, .request ⟨false, true⟩, .wake 1, .clean, .request ⟨true, true⟩]

def sampleBusy : Point :=
  ({ refreshRequested := true
     cleanupRequested := true
     passActive := true
     acceptFollowup := true
     revision := 2
     nextPeriodic := 0 + 300
     worker := .checking ⟨true, true⟩ },
    [.asked ⟨true, true⟩ true, .cleaned, .woke, .asked ⟨false, true⟩ true, .rested 0])

theorem sampleBusy_reachable : Reachable 300 sampleBusy := by
  have hrun : (recorded 300).run (fun _ _ => true) (recorded 300).start sampleBurst = some sampleBusy := rfl
  exact Machine.Reach.start.run (fun _ _ _ => trivial) hrun

theorem requests_served_sampleBusy : Serves maintenanceIntervalSeconds sampleBusy := requests_served sampleBusy_reachable

/-- What a stop leads to. -/
structure Quiesces (interval : ℚ) (p : Point) : Prop where
  /-- One thing more is begun at most. -/
  begun : (afterStop p.2).countP Event.begins ≤ 1
  /-- No request is accepted and no pass begins. -/
  closed : ∀ e ∈ afterStop p.2, ¬ e.Opens
  /-- The worker takes three more steps at most, -/
  ends : ∀ actions s', (service interval).run (fun _ _ => true) p.1 actions = some s' → actions.countP Action.own ≤ 3
  /-- and can go on until it has ended. -/
  goes : p.1.worker = .ended ∨ ∃ a s', a.own = true ∧ act interval p.1 a = some s'

theorem shutdown_quiesces (h : Reachable interval p) (hstop : p.1.stopRequested = true) : Quiesces interval p := by
  obtain ⟨_, _, _, hhalting⟩ := h.consistent
  constructor
  · have hbegun := hhalting.begun hstop
    omega
  · exact hhalting.closed hstop
  · intro actions s' hrun
    have hown := own_le_remaining hstop hrun
    have hle : p.1.worker.remaining ≤ 3 := by cases p.1.worker <;> simp [Worker.remaining]
    omega
  · cases hworker : p.1.worker with
    | ended => exact .inl rfl
    | new => exact .inr ⟨.start 0, _, rfl, (act_own rfl).trans (by rw [hworker]; rfl)⟩
    | waiting => exact .inr ⟨.wake 0, _, rfl, (act_own rfl).trans (by rw [hworker]; rfl)⟩
    | cleaning taken => exact .inr ⟨.clean, _, rfl, (act_own rfl).trans (by rw [hworker]; rfl)⟩
    | checking taken => exact .inr ⟨.check, _, rfl, (act_own rfl).trans (by rw [hworker]; rfl)⟩
    | starting taken => exact .inr ⟨.collect, _, rfl, (act_own rfl).trans (by rw [hworker]; rfl)⟩
    | collecting taken revision => exact .inr ⟨.collected, _, rfl, (act_own rfl).trans (by rw [hworker]; rfl)⟩
    | finishing taken => exact .inr ⟨.finish 0, _, rfl, (act_own rfl).trans (by rw [hworker]; rfl)⟩

/-- A stop during the first pass. -/
def sampleStopped : Point :=
  ({ refreshRequested := false
     stopRequested := true
     passActive := true
     acceptFollowup := true
     nextPeriodic := 0 + 300
     worker := .cleaning ⟨true, false⟩ },
    [.stopped, .woke, .rested 0])

theorem sampleStopped_reachable : Reachable 300 sampleStopped := by
  have hrun : (recorded 300).run (fun _ _ => true) (recorded 300).start [.start 0, .wake 0, .stop] = some sampleStopped := rfl
  exact Machine.Reach.start.run (fun _ _ _ => trivial) hrun

theorem shutdown_quiesces_sampleStopped : Quiesces maintenanceIntervalSeconds sampleStopped :=
  shutdown_quiesces sampleStopped_reachable rfl

end DebBuilder.Maintenance
