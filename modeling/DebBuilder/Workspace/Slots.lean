import Mathlib
import DebBuilder.Workspace.Newest

/-!
# Badly spent slots

A failed Run that has its toolchain left and nothing else takes a slot like any other.  Where
one does while another failed Run waits, retention misses what it is for: the Run that waits
loses its data although fewer Runs keep theirs than the policy says, or the slot is free again
in the next pass and that pass goes on cleaning.

## Main definitions

* `calm` — visits to which nothing happens.

## Main statements

* `retention_iff` — every pass does what it is meant to do if and only if the slots are well spent.
-/

namespace DebBuilder.Workspace
open Lib Function

variable {τ : Type}

/-- Visits that find each Run as the scan found it, with the given artifacts. -/
def calm (inventory : Inventory τ) (artifacts : String → List (List String)) (id : String) : Visit τ where
  toLook := inventory.look id
  guard := none
  artifacts := artifacts id
  mounted := []
  foreign := []
  unremovable := fun _ => none
  unwritable := none

section

variable {inventory : Inventory τ} {artifacts : String → List (List String)} {id : String} {keep : Bool}
  {names : List String}

theorem barrier_calm : barrier (calm inventory artifacts id) (targetDirectories keep) (targetFiles keep) names =
    if artifactInside (artifacts id) (targetDirectories keep) (targetFiles keep) = true then some .value else none := by
  simp [barrier, calm, unsafeTarget]

end

variable [LinearOrder τ] {timeOf : String → Option τ} {policy : Storage.Policy} {inventory : Inventory τ}
  {artifacts : String → List (List String)} {entries : String → List String} {id name : String} {c d : Candidate τ}
  {keep : Bool} {names : List String}

/-! ## Calm visits -/

theorem visited_calm (h : Noted timeOf (inventory.look c.id) c) : visited (calm inventory artifacts) keep c names =
    Outcome.ofClean (cleanLocked (calm inventory artifacts c.id) (targetDirectories keep) (targetFiles keep) names) := by
  obtain ⟨run, attempts, _, hrun, hattempts, _, hrevision, _, hfailed, _⟩ := h.reading
  simp only [visited, revisit, calm, h.lock, hrun, hattempts, hrevision, ← hfailed, ne_eq, not_true_eq_false, if_false,
    Bool.false_eq_true]

/-- An artifact among the targets holds back the cleaning. -/
theorem settle_calm_of_artifact (h : Noted timeOf (inventory.look c.id) c)
    (hartifact : artifactInside (artifacts c.id) (targetDirectories keep) (targetFiles keep) = true) :
    settle (calm inventory artifacts) keep c names = names := by
  rw [settle, visited_calm h, ofClean_snd, cleanLocked, barrier_calm, if_pos hartifact]
  exact ite_self _

/-- Otherwise all targets go. -/
theorem not_mem_settle_calm (h : Noted timeOf (inventory.look c.id) c)
    (hartifact : artifactInside (artifacts c.id) (targetDirectories keep) (targetFiles keep) = false)
    (hskip : (keep && !c.terminal) = false) (hname : name ∈ targetDirectories keep ++ targetFiles keep) :
    name ∉ settle (calm inventory artifacts) keep c names := by
  have hbarrier : barrier (calm inventory artifacts c.id) (targetDirectories keep) (targetFiles keep) names = none := by
    rw [barrier_calm, hartifact]
    rfl
  obtain ⟨_, _, _, hgone⟩ := cleanLocked_of_free hbarrier (fun _ => rfl) rfl
  rw [settle, hskip, visited_calm h, ofClean_snd]
  exact hgone name hname fun heq => cleanupMarker_not_mem keep (heq ▸ hname)

/-- Calm visits do not end a pass. -/
theorem visited_calm_fst (h : Noted timeOf (inventory.look c.id) c) :
    (visited (calm inventory artifacts) keep c names).1 = .raised .value ∨
      ∃ removed, (visited (calm inventory artifacts) keep c names).1 = .done removed := by
  rw [visited_calm h]
  cases hartifact : artifactInside (artifacts c.id) (targetDirectories keep) (targetFiles keep) with
  | true =>
      left
      rw [cleanLocked, barrier_calm, hartifact]
      rfl
  | false =>
      have hbarrier : barrier (calm inventory artifacts c.id) (targetDirectories keep) (targetFiles keep) names = none := by
        rw [barrier_calm, hartifact]
        rfl
      obtain ⟨removed, hremoved, _⟩ := cleanLocked_of_free hbarrier (fun _ => rfl) rfl
      right
      refine ⟨removed, ?_⟩
      generalize cleanLocked (calm inventory artifacts c.id) (targetDirectories keep) (targetFiles keep) names = found at hremoved ⊢
      obtain ⟨result, left⟩ := found
      simp only at hremoved
      rw [hremoved]
      rfl

theorem not_ended_cleanNext {retain : Int} {pass : Pass} (h : Noted timeOf (inventory.look c.id) c)
    (hended : pass.ended = false) :
    (cleanNext retain (calm inventory artifacts) (fun _ => false) pass c).ended = false := by
  simp only [cleanNext, hended, Bool.false_eq_true, if_false]
  generalize (c.kept && decide ((pass.report.retained.length : Int) < retain)) = keep
  by_cases hskip : (keep && !c.terminal) = true
  · rw [if_pos hskip]
  · rw [if_neg hskip]
    have hvisited := @visited_calm_fst _ _ timeOf inventory artifacts c keep (pass.entries c.id) h
    rw [visited] at hvisited
    rcases hvisited with hvalue | ⟨removed, hdone⟩
    · rw [hvalue]
      rfl
    · rw [hdone]
      rfl

theorem not_ended_foldl {retain : Int} {pass : Pass} {cs : List (Candidate τ)}
    (h : ∀ c ∈ cs, Noted timeOf (inventory.look c.id) c) (hended : pass.ended = false) :
    (cs.foldl (cleanNext retain (calm inventory artifacts) fun _ => false) pass).ended = false := by
  induction cs generalizing pass with
  | nil => exact hended
  | cons c cs ih =>
      exact ih (fun d hd => h d (List.mem_cons_of_mem _ hd)) (not_ended_cleanNext (h c List.mem_cons_self) hended)

theorem not_ended_calm (henabled : policy.enabled = true) (hblocker : inventory.blocker = none)
    (hbroken : ¬ Broken timeOf inventory entries) :
    (applyRetention timeOf policy inventory (calm inventory artifacts) (fun _ => false) entries).ended = false := by
  have hstart : Scanned timeOf inventory entries [] (({ entries, polls := 1 } : Pass), []) :=
    ⟨rfl, ⟨rfl, rfl, rfl⟩, fun _ => rfl⟩
  have hscanned : Scanned timeOf inventory entries ([] ++ inventory.ids)
      (inventory.ids.foldl (scanNext timeOf inventory fun _ => false) ({ entries, polls := 1 }, [])) :=
    scanned_foldl hstart
  have hended : (inventory.ids.foldl (scanNext timeOf inventory fun _ => false) ({ entries, polls := 1 }, [])).1.ended =
      false := not_ended_scan hstart rfl fun id hid herror => hbroken ⟨id, hid, herror⟩
  simp only [applyRetention, henabled, hblocker, Bool.true_eq_false, Bool.false_eq_true, if_false]
  rw [hscanned.found hended]
  have hnoted : ∀ c ∈ descending Candidate.key (candidates timeOf inventory entries),
      Noted timeOf (inventory.look c.id) c := by
    intro c hc
    exact (candidate_eq_some.1 (mem_candidates.1 ((descending_perm _ _).mem_iff.1 hc)).2).1
  exact not_ended_foldl hnoted hended

/-- A calm pass settles every candidate. -/
theorem entries_calm (henabled : policy.enabled = true) (hblocker : inventory.blocker = none)
    (hbroken : ¬ Broken timeOf inventory entries) (hc : c ∈ candidates timeOf inventory entries) :
    (applyRetention timeOf policy inventory (calm inventory artifacts) (fun _ => false) entries).entries c.id =
      settle (calm inventory artifacts) (keeps (slots policy) (candidates timeOf inventory entries) c) c (entries c.id) := by
  obtain ⟨seen, hswept, _, hall⟩ : ∃ seen, Swept (calm inventory artifacts) entries
      (keeps (slots policy) (candidates timeOf inventory entries)) seen _ ∧ _ :=
    swept_applyRetention henabled hblocker
  have hended : (applyRetention timeOf policy inventory (calm inventory artifacts) (fun _ => false) entries).ended = false :=
    not_ended_calm henabled hblocker hbroken
  exact (hswept.whole hended).1 c (hall hended c hc)

/-! ## Two ways to miss the purpose -/

/-- A Run that waits with data to retain loses it, and fewer others than the policy says keep theirs. -/
theorem not_newest (henabled : policy.enabled = true) (hblocker : inventory.blocker = none)
    (hbroken : ¬ Broken timeOf inventory entries) (hc : c ∈ candidates timeOf inventory entries) (hkept : c.kept = true)
    (hrank : rank Candidate.key Candidate.kept (candidates timeOf inventory entries) c = slots policy)
    (hd : d ∈ candidates timeOf inventory entries) (hdkept : d.kept = true)
    (hdrank : rank Candidate.key Candidate.kept (candidates timeOf inventory entries) d < slots policy)
    (hempty : ¬ Holds (entries d.id) retentionNames) (hholds : Holds (entries c.id) retentionNames) :
    ¬ Retains timeOf policy inventory (calm inventory fun _ => []) (fun _ => false) entries
      (applyRetention timeOf policy inventory (calm inventory fun _ => []) (fun _ => false) entries) := by
  intro hretains
  obtain ⟨name, hname, hmem⟩ := hholds
  have hnoted : ∀ e ∈ candidates timeOf inventory entries, Noted timeOf (inventory.look e.id) e :=
    fun e he => (candidate_eq_some.1 (mem_candidates.1 he).2).1
  have hgone : ∀ e ∈ candidates timeOf inventory entries, slots policy ≤
      rank Candidate.key Candidate.kept (candidates timeOf inventory entries) e → ∀ other ∈ retentionNames,
        other ∉ (applyRetention timeOf policy inventory (calm inventory fun _ => []) (fun _ => false) entries).entries e.id := by
    intro e he herank other hother
    have hkeep : keeps (slots policy) (candidates timeOf inventory entries) e = false := by
      rw [keeps, decide_eq_false (not_lt.2 herank), Bool.and_false]
    rw [entries_calm henabled hblocker hbroken he, hkeep]
    exact not_mem_settle_calm (hnoted e he) rfl rfl (retentionNames_subset other hother)
  obtain ⟨c', hid, hc', hmany⟩ := hretains.newest c.id name hname hmem (hgone c hc (le_of_eq hrank.symm) name hname)
  rw [(mem_candidates.1 hc).2, Option.some.injEq] at hc'
  subst hc'
  have hcount := countP_rank_lt Candidate.key Candidate.kept (slots policy)
    (@nodup_keys_candidates _ _ timeOf inventory entries)
  rw [countP_candidates] at hcount
  have hfewer : inventory.ids.countP (keepsInstead timeOf inventory entries
        (applyRetention timeOf policy inventory (calm inventory fun _ => []) (fun _ => false) entries).entries c) <
      inventory.ids.countP fun id => (candidate timeOf inventory entries id).any fun e =>
        e.kept && decide (rank Candidate.key Candidate.kept (candidates timeOf inventory entries) e < slots policy) := by
    apply countP_lt_countP _ (mem_candidates.1 hd).1
    · apply Bool.eq_false_of_not_eq_true
      intro hinstead
      obtain ⟨seen, hswept, _⟩ : ∃ seen, Swept (calm inventory fun _ => []) entries
          (keeps (slots policy) (candidates timeOf inventory entries)) seen _ ∧ _ :=
        swept_applyRetention henabled hblocker
      exact hempty (hswept.fewer (by decide) (keepsInstead_eq_true.1 hinstead).2.2)
    · rw [(mem_candidates.1 hd).2, Option.any_some, hdkept, decide_eq_true hdrank]
      rfl
    · intro id hid hinstead
      obtain ⟨_, ⟨e, he, hekept, _⟩, other, hother, hleft⟩ := keepsInstead_eq_true.1 hinstead
      have hsame : e.id = id := (candidate_eq_some.1 he).2.2.1
      subst hsame
      have hmem : e ∈ candidates timeOf inventory entries := mem_candidates.2 ⟨hid, he⟩
      have hlt : rank Candidate.key Candidate.kept (candidates timeOf inventory entries) e < slots policy := by
        by_contra hge
        exact hgone e hmem (not_lt.1 hge) other hother hleft
      rw [he, Option.any_some, hekept, decide_eq_true hlt]
      rfl
  have hslots := hmany hkept
  omega

/-- A scan that meets no error without a handler meets none when there is less data. -/
theorem broken_of_fewer {left : String → List String}
    (hfewer : ∀ id, Holds (left id) disposableNames → Holds (entries id) disposableNames)
    (h : Broken timeOf inventory left) : Broken timeOf inventory entries := by
  obtain ⟨id, hid, herror⟩ := h
  refine ⟨id, hid, ?_⟩
  rw [scanRun] at herror ⊢
  cases hlock : (inventory.look id).lock with
  | some failure =>
      rw [hlock] at herror
      exact herror
  | none =>
      rw [hlock] at herror
      rcases bind_eq_error.1 herror with hrun | ⟨run, hrun, herror⟩
      · exact bind_eq_error.2 (.inl hrun)
      · refine bind_eq_error.2 (.inr ⟨run, hrun, ?_⟩)
        by_cases hholds : Holds (left id) disposableNames
        · rw [if_pos hholds] at herror
          rw [if_pos (hfewer id hholds)]
          rcases bind_eq_error.1 herror with hfail | ⟨attempts, hattempts, herror⟩
          · exact bind_eq_error.2 (.inl hfail)
          refine bind_eq_error.2 (.inr ⟨attempts, hattempts, ?_⟩)
          rcases bind_eq_error.1 herror with hfail | ⟨marked, hmarked, herror⟩
          · exact bind_eq_error.2 (.inl hfail)
          refine bind_eq_error.2 (.inr ⟨marked, hmarked, ?_⟩)
          rcases bind_eq_error.1 herror with hfail | ⟨revision, hrevision, herror⟩
          · exact bind_eq_error.2 (.inl hfail)
          refine bind_eq_error.2 (.inr ⟨revision, hrevision, ?_⟩)
          rcases bind_eq_error.1 herror with hfail | ⟨time, htime, herror⟩
          · exact bind_eq_error.2 (.inl hfail)
          exact (pure_eq_error.1 herror).elim
        · rw [if_neg hholds] at herror
          exact (pure_eq_error.1 herror).elim

/-- The toolchain is what is left of a Run without data to retain. -/
theorem holds_terminal {names : List String} (h : Holds names disposableNames) (hempty : ¬ Holds names retentionNames) :
    Holds names terminalDirectories := by
  obtain ⟨name, hname, hmem⟩ := h
  have hcases : ∀ name ∈ disposableNames, name ∈ retentionNames ∨ name ∈ terminalDirectories := by decide
  rcases hcases name hname with hretained | hterminal
  · exact absurd ⟨name, hretained, hmem⟩ hempty
  · exact ⟨name, hterminal, hmem⟩

/-- A Run that waits with its toolchain only, and whose package holds back the cleaning of the
rest, is taken up by the next pass. -/
theorem not_again (henabled : policy.enabled = true) (hblocker : inventory.blocker = none)
    (hbroken : ¬ Broken timeOf inventory entries) (hc : c ∈ candidates timeOf inventory entries) (hkept : c.kept = true)
    (hrank : rank Candidate.key Candidate.kept (candidates timeOf inventory entries) c = slots policy)
    (hd : d ∈ candidates timeOf inventory entries) (hdkept : d.kept = true)
    (hdrank : rank Candidate.key Candidate.kept (candidates timeOf inventory entries) d < slots policy)
    (hempty : ¬ Holds (entries d.id) retentionNames) (hcempty : ¬ Holds (entries c.id) retentionNames)
    (hartifact : artifacts c.id = [["source", "package.deb"]]) (hnone : artifacts d.id = []) :
    ¬ Retains timeOf policy inventory (calm inventory artifacts) (fun _ => false) entries
      (applyRetention timeOf policy inventory (calm inventory artifacts) (fun _ => false) entries) := by
  intro hretains
  obtain ⟨hcnoted, hcholds, _, hcterminal⟩ := candidate_eq_some.1 (mem_candidates.1 hc).2
  obtain ⟨hdnoted, hdholds, _, hdterminal⟩ := candidate_eq_some.1 (mem_candidates.1 hd).2
  rw [decide_eq_true (holds_terminal hcholds hcempty)] at hcterminal
  rw [decide_eq_true (holds_terminal hdholds hempty)] at hdterminal
  obtain ⟨seen, hswept, _⟩ : ∃ seen, Swept (calm inventory artifacts) entries
      (keeps (slots policy) (candidates timeOf inventory entries)) seen _ ∧ _ :=
    swept_applyRetention henabled hblocker
  have hended : (applyRetention timeOf policy inventory (calm inventory artifacts) (fun _ => false) entries).ended = false :=
    not_ended_calm henabled hblocker hbroken
  have hagain := (hretains.again hended fun _ => false).1
  have hcleft := @entries_calm _ _ timeOf policy inventory artifacts entries c henabled hblocker hbroken hc
  have hdleft := @entries_calm _ _ timeOf policy inventory artifacts entries d henabled hblocker hbroken hd
  generalize (applyRetention timeOf policy inventory (calm inventory artifacts) (fun _ => false) entries) = pass
    at hswept hcleft hdleft hagain
  have hfewer : ∀ id, Holds (pass.entries id) disposableNames → Holds (entries id) disposableNames :=
    fun id => hswept.fewer (by decide)
  -- the Run that waits keeps everything
  have hcsame : pass.entries c.id = entries c.id := by
    rw [hcleft, keeps, decide_eq_false (by omega), Bool.and_false]
    exact settle_calm_of_artifact hcnoted (by rw [hartifact]; decide)
  -- the one with a slot has nothing left, so that its slot is free
  have hdnone : candidate timeOf inventory pass.entries d.id = none := by
    rw [Option.eq_none_iff_forall_ne_some]
    intro e he
    obtain ⟨name, hname, hmem⟩ := (candidate_eq_some.1 he).2.1
    rcases holds_terminal ⟨name, hname, hmem⟩ fun hholds => hempty (hswept.fewer (by decide) hholds) with ⟨tool, htool, hleft⟩
    rw [hdleft, keeps, hdkept, decide_eq_true hdrank] at hleft
    exact not_mem_settle_calm hdnoted (by rw [hnone]; rfl) (by rw [hdterminal]; rfl) htool hleft
  have hcagain : c ∈ candidates timeOf inventory pass.entries := by
    rw [mem_candidates, candidate, hcsame]
    exact mem_candidates.1 hc
  have hlt : rank Candidate.key Candidate.kept (candidates timeOf inventory pass.entries) c < slots policy := by
    rw [← hrank, rank, rank, countP_candidates, countP_candidates]
    apply countP_lt_countP _ (mem_candidates.1 hd).1
    · rw [hdnone]
      rfl
    · have hkey : c.key < d.key := lt_of_rank_lt Candidate.key Candidate.kept (by rw [hrank]; exact hdrank)
      rw [(mem_candidates.1 hd).2, Option.any_some, hdkept, decide_eq_true hkey]
      rfl
    · intro id _ hsome
      obtain ⟨e, he, hcount⟩ := (Option.any_eq_true _ _).1 hsome
      obtain ⟨e', he', hsame⟩ := candidate_of_candidate (hfewer id) he
      rw [he', Option.any_some]
      rwa [← hsame] at hcount
  have hcgone := @entries_calm _ _ timeOf policy inventory artifacts pass.entries c henabled hblocker
    (fun h => hbroken (broken_of_fewer hfewer h)) hcagain
  rw [hagain, keeps, hkept, decide_eq_true hlt] at hcgone
  obtain ⟨name, hname, hmem⟩ := holds_terminal hcholds hcempty
  rw [← hcsame, hcgone] at hmem
  exact not_mem_settle_calm hcnoted (by rw [hartifact]; decide) (by rw [hcterminal]; rfl) hname hmem

/-- A pass does what it is meant to do, whatever it meets, if and only if it does nothing at
all or spends its slots well. -/
theorem retention_iff (timeOf : String → Option τ) (policy : Storage.Policy) (inventory : Inventory τ)
    (entries : String → List String) :
    (∀ visits stop, Retains timeOf policy inventory visits stop entries
      (applyRetention timeOf policy inventory visits stop entries)) ↔
    policy.enabled = false ∨ inventory.blocker ≠ none ∨ Broken timeOf inventory entries ∨
      Slotted timeOf policy inventory entries := by
  constructor
  · intro h
    by_contra hcondition
    push Not at hcondition
    obtain ⟨henabled, hblocker, hbroken, hslotted⟩ := hcondition
    have henabled' := Bool.eq_true_of_not_eq_false henabled
    obtain ⟨x, hx, d, hd, hxkept, hdkept, hxrank, hdrank, hempty⟩ : ∃ x ∈ candidates timeOf inventory entries,
        ∃ d ∈ candidates timeOf inventory entries, x.kept = true ∧ d.kept = true ∧
          slots policy ≤ rank Candidate.key Candidate.kept (candidates timeOf inventory entries) x ∧
            rank Candidate.key Candidate.kept (candidates timeOf inventory entries) d < slots policy ∧
              ¬ Holds (entries d.id) retentionNames := by
      by_contra hnone
      apply hslotted
      intro x hx d hd hxkept hdkept hxrank hdrank
      by_contra hempty
      exact hnone ⟨x, hx, d, hd, hxkept, hdkept, hxrank, hdrank, hempty⟩
    -- the first Run that waits
    obtain ⟨c, hc, hckept, hcrank⟩ := exists_rank_eq Candidate.key Candidate.kept
      (@nodup_keys_candidates _ _ timeOf inventory entries)
      (lt_of_le_of_lt hxrank (rank_lt_countP Candidate.key Candidate.kept hx hxkept))
    by_cases hcempty : Holds (entries c.id) retentionNames
    · exact not_newest henabled' hblocker hbroken hc hckept hcrank hd hdkept hdrank hempty hcempty (h _ _)
    · have hne : d.id ≠ c.id := by
        intro heq
        rw [eq_of_mem_candidates hd hc heq] at hdrank
        omega
      exact not_again henabled' hblocker hbroken hc hckept hcrank hd hdkept hdrank hempty hcempty
        (if_pos rfl) (if_neg hne) (h (calm inventory fun id => if id = c.id then [["source", "package.deb"]] else []) _)
  · rintro (henabled | hblocker | hbroken | hslotted) visits stop
    · exact retains_of_disabled henabled
    · exact retains_of_blocked hblocker
    all_goals
      by_cases henabled : policy.enabled = true
      · by_cases hblocker : inventory.blocker = none
        · first
            | exact retains_of_broken henabled hblocker hbroken
            | exact retains_of_slotted henabled hblocker hslotted
        · exact retains_of_blocked hblocker
      · exact retains_of_disabled (Bool.eq_false_of_not_eq_true henabled)

/-! ## A slot spent on a toolchain -/

/-- A failed Run that was created at a time. -/
def failedAt (time : Nat) : Look Nat where
  lock := none
  run := .ok ⟨"failed", none, [], some time, none, false⟩
  attempts := .ok []
  marker := .ok false
  revision := .ok 0

/-- Two failed Runs; of the newer one the toolchain is left. -/
def twoRuns : Inventory Nat where
  ids := ["older", "newer"]
  nodup := by decide
  blocker := none
  look := fun id => if id = "newer" then failedAt 2 else failedAt 1

def twoWorkspaces (id : String) : List String :=
  if id = "newer" then ["run.json", "toolchain"] else ["run.json", "source"]

def oneSlot : Storage.Policy := { Storage.defaultPolicy with failedWorkspacesToRetain := 1 }

/-- The source of the older Run is removed although no other Run has data to retain. -/
theorem toolchain_takes_slot : ¬ ∀ (policy : Storage.Policy) (inventory : Inventory Nat) (entries : String → List String)
    (visits : String → Visit Nat) (stop : Nat → Bool), Retains (fun _ => none) policy inventory visits stop entries
      (applyRetention (fun _ => none) policy inventory visits stop entries) := by
  intro h
  obtain ⟨c, _, hc, hcount⟩ := (h oneSlot twoRuns twoWorkspaces (calm twoRuns fun _ => []) fun _ => false).newest "older"
    "source" (by decide) (by decide) (by decide)
  have hfound : candidate (fun _ => none) twoRuns twoWorkspaces "older" = some ⟨"older", 1, true, false, 0, false⟩ := by
    rfl
  rw [hfound, Option.some.injEq] at hc
  subst hc
  exact absurd (hcount rfl) (by decide)

end DebBuilder.Workspace
