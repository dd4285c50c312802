import Mathlib
import DebBuilder.Workspace.Retention

/-!
# The newest failed workspaces

Retention is meant to keep the data of the newest failed Runs.  A slot is given to a failed
Run by its age, and also to one whose source data is gone and whose toolchain alone is left:
the slot is then spent on nothing, and is free again in the next pass.

## Main definitions

* `Retains` — what a pass is meant to do.
* `Slotted` — no slot is spent on a Run that has nothing to keep while others wait.

## Main statements

* `newest_of_slotted`, `again_of_slotted` — what well spent slots are good for.
* `retains_of_slotted` — a pass does what it is meant to do when the slots are well spent.
-/

namespace DebBuilder.Workspace
open Lib Function

variable {τ : Type} {visits : String → Visit τ} {entries : String → List String} {id : String} {c : Candidate τ}

/-! ## What stays -/

theorem cleanupMarker_not_mem (keep : Bool) : cleanupMarker ∉ targetDirectories keep ++ targetFiles keep := by
  cases keep <;> decide

theorem targets_subset (keep : Bool) : ∀ name ∈ targetDirectories keep ++ targetFiles keep, name ∈ disposableNames := by
  cases keep <;> decide

theorem retentionNames_subset : ∀ name ∈ retentionNames, name ∈ disposableNames := by
  decide

theorem retentionNames_not_mem : ∀ name ∈ retentionNames, name ∉ targetDirectories true ++ targetFiles true := by
  decide

theorem mem_settle {keep : Bool} {name : String} {names : List String}
    (hname : name ∉ targetDirectories keep ++ targetFiles keep) (h : name ∈ names) :
    name ∈ settle visits keep c names := by
  rw [settle]
  by_cases hskip : (keep && !c.terminal) = true
  · rwa [if_pos hskip]
  · rw [if_neg hskip]
    exact mem_revisit hname h

theorem mem_of_mem_settle {keep : Bool} {name : String} {names : List String} (h : name ∈ settle visits keep c names) :
    name ∈ names ∨ name = cleanupMarker := by
  rw [settle] at h
  by_cases hskip : (keep && !c.terminal) = true
  · rw [if_pos hskip] at h
    exact .inl h
  · rw [if_neg hskip] at h
    exact mem_of_mem_revisit h

section

variable {keep : Candidate τ → Bool} {seen : List (Candidate τ)} {pass : Pass} {name : String}

/-- Where an entry went, the Run was settled. -/
theorem Swept.settled (h : Swept visits entries keep seen pass) (hmem : name ∈ entries id) (hgone : name ∉ pass.entries id) :
    ∃ c ∈ seen, c.id = id ∧ pass.entries id = settle visits (keep c) c (entries id) := by
  by_cases hseen : ∀ c ∈ seen, c.id ≠ id
  · rw [h.others id hseen] at hgone
    exact absurd hmem hgone
  · obtain ⟨c, hc, rfl⟩ : ∃ c ∈ seen, c.id = id := by simpa using hseen
    rcases h.own c hc with hsame | hsettled
    · rw [hsame] at hgone
      exact absurd hmem hgone
    · exact ⟨c, hc, rfl, hsettled⟩

theorem Swept.listed (h : Swept visits entries keep seen pass) (hmem : name ∈ entries id) (hgone : name ∉ pass.entries id) :
    name ∈ disposableNames := by
  obtain ⟨c, _, _, hsettled⟩ := h.settled hmem hgone
  by_contra hname
  rw [hsettled] at hgone
  exact hgone (mem_settle (fun htarget => hname (targets_subset _ name htarget)) hmem)

/-- A Run that is not kept is the only one to lose retained data. -/
theorem Swept.not_keep (h : Swept visits entries keep seen pass) (hname : name ∈ retentionNames) (hmem : name ∈ entries id)
    (hgone : name ∉ pass.entries id) : ∃ c ∈ seen, c.id = id ∧ keep c = false := by
  obtain ⟨c, hc, hid, hsettled⟩ := h.settled hmem hgone
  refine ⟨c, hc, hid, Bool.eq_false_of_not_eq_true fun hkeep => ?_⟩
  rw [hsettled, hkeep] at hgone
  exact hgone (mem_settle (retentionNames_not_mem name hname) hmem)

/-- Nothing comes but the marker. -/
theorem Swept.fewer (h : Swept visits entries keep seen pass) {names : List String} (hmarker : cleanupMarker ∉ names)
    (hholds : Holds (pass.entries id) names) : Holds (entries id) names := by
  obtain ⟨name, hname, hmem⟩ := hholds
  refine ⟨name, hname, ?_⟩
  by_cases hseen : ∀ c ∈ seen, c.id ≠ id
  · rwa [h.others id hseen] at hmem
  · obtain ⟨c, hc, rfl⟩ : ∃ c ∈ seen, c.id = id := by simpa using hseen
    rcases h.own c hc with hsame | hsettled
    · rwa [hsame] at hmem
    · rw [hsettled] at hmem
      exact (mem_of_mem_settle hmem).resolve_right fun heq => hmarker (heq ▸ hname)

end

/-- A Run is treated in the same way when it comes to its turn again. -/
theorem settle_settle (keep : Bool) (names : List String) (terminal : Bool)
    (hc : c.terminal = decide (Holds names terminalDirectories))
    (hterminal : terminal = decide (Holds (settle visits keep c names) terminalDirectories)) :
    settle visits keep { c with terminal } (settle visits keep c names) = settle visits keep c names ∧
      ((keep && !terminal) = false → ∀ removed,
        (visited visits keep { c with terminal } (settle visits keep c names)).1 = .done removed → removed = []) := by
  by_cases hskip : (keep && !c.terminal) = true
  · have hsame : settle visits keep c names = names := by rw [settle, if_pos hskip]
    rw [hsame, ← hc] at hterminal
    subst hterminal
    constructor
    · rw [hsame, settle, if_pos hskip]
    · intro hno
      rw [hno] at hskip
      cases hskip
  · have hsame : settle visits keep c names = (visited visits keep c names).2 := by rw [settle, if_neg hskip]
    obtain ⟨outcome, hagain, hnone⟩ : ∃ outcome, visited visits keep { c with terminal } (visited visits keep c names).2 =
        (outcome, (visited visits keep c names).2) ∧ ∀ removed, outcome = .done removed → removed = [] :=
      revisit_revisit (cleanupMarker_not_mem keep)
    constructor
    · rw [hsame, settle]
      by_cases hskip' : (keep && !terminal) = true
      · rw [if_pos hskip']
      · rw [if_neg hskip', hagain]
    · intro _ removed hdone
      rw [hsame, hagain] at hdone
      exact hnone removed hdone

/-! ## What retention is for -/

variable [LinearOrder τ] {timeOf : String → Option τ} {policy : Storage.Policy} {inventory : Inventory τ}
  {stop : Nat → Bool} {d : Candidate τ}

/-- Another failed Run, at least as recent as the candidate, that has data left to retain. -/
def keepsInstead (timeOf : String → Option τ) (inventory : Inventory τ) (entries left : String → List String)
    (c : Candidate τ) (id : String) : Bool :=
  id ≠ c.id && (candidate timeOf inventory entries id).any (fun d => d.kept && decide (c.time ≤ d.time)) &&
    decide (Holds (left id) retentionNames)

/-- What a pass is meant to do. -/
structure Retains (timeOf : String → Option τ) (policy : Storage.Policy) (inventory : Inventory τ)
    (visits : String → Visit τ) (stop : Nat → Bool) (entries : String → List String) (pass : Pass) : Prop where
  /-- Retained data goes only from a Run that as many newer ones outrank as the policy keeps. -/
  newest : ∀ id, ∀ name ∈ retentionNames, name ∈ entries id → name ∉ pass.entries id →
    ∃ c, c.id = id ∧ candidate timeOf inventory entries id = some c ∧ (c.kept = true →
      slots policy ≤ inventory.ids.countP (keepsInstead timeOf inventory entries pass.entries c))
  /-- Nothing but disposable data goes. -/
  listed : ∀ id name, name ∈ entries id → name ∉ pass.entries id → name ∈ disposableNames
  /-- The Runs left to storage pressure are retained ones. -/
  candidates : ∀ id ∈ pass.report.pressureCandidates, id ∈ pass.report.retained
  /-- After a pass that came to its end, another one cleans nothing more. -/
  again : pass.ended = false → ∀ stop', (applyRetention timeOf policy inventory visits stop' pass.entries).entries =
      pass.entries ∧ (applyRetention timeOf policy inventory visits stop' pass.entries).report.cleaned = []

/-- While a failed Run waits for a slot, those that have one have data to retain. -/
def Slotted (timeOf : String → Option τ) (policy : Storage.Policy) (inventory : Inventory τ)
    (entries : String → List String) : Prop :=
  ∀ c ∈ Workspace.candidates timeOf inventory entries, ∀ d ∈ Workspace.candidates timeOf inventory entries,
    c.kept = true → d.kept = true →
      slots policy ≤ rank Candidate.key Candidate.kept (Workspace.candidates timeOf inventory entries) c →
        rank Candidate.key Candidate.kept (Workspace.candidates timeOf inventory entries) d < slots policy →
          Holds (entries d.id) retentionNames

theorem keepsInstead_eq_true {left : String → List String} : keepsInstead timeOf inventory entries left c id = true ↔
    id ≠ c.id ∧ (∃ d, candidate timeOf inventory entries id = some d ∧ d.kept = true ∧ c.time ≤ d.time) ∧
      Holds (left id) retentionNames := by
  rw [keepsInstead, Bool.and_eq_true, Bool.and_eq_true, decide_eq_true_iff, decide_eq_true_iff, Option.any_eq_true,
    and_assoc]
  simp only [Bool.and_eq_true, decide_eq_true_iff]

/-! ## Passes that do what they are meant to do -/

/-- A pass that changes nothing, and comes to nothing else when it is repeated. -/
theorem retains_of_idle {pass : Pass} (hentries : pass.entries = entries) (hfresh : pass.report.Fresh)
    (hagain : pass.ended = false → ∀ stop', (applyRetention timeOf policy inventory visits stop' entries).entries = entries ∧
      (applyRetention timeOf policy inventory visits stop' entries).report.Fresh) :
    Retains timeOf policy inventory visits stop entries pass := by
  constructor
  · intro id name _ hmem hgone
    rw [hentries] at hgone
    exact absurd hmem hgone
  · intro id name hmem hgone
    rw [hentries] at hgone
    exact absurd hmem hgone
  · intro id hid
    rw [hfresh.2.1] at hid
    exact absurd hid List.not_mem_nil
  · intro hended stop'
    rw [hentries]
    exact ⟨(hagain hended stop').1, (hagain hended stop').2.2.2⟩

/-- At most as many Runs outrank one as there are slots, and these have data to retain. -/
theorem slots_le_countP (hslotted : Slotted timeOf policy inventory entries)
    (hc : c ∈ candidates timeOf inventory entries) (hkept : c.kept = true)
    (hrank : slots policy ≤ rank Candidate.key Candidate.kept (candidates timeOf inventory entries) c)
    {p : String → Bool} (hp : ∀ d ∈ candidates timeOf inventory entries, d.kept = true → c.key < d.key →
      rank Candidate.key Candidate.kept (candidates timeOf inventory entries) d < slots policy →
        Holds (entries d.id) retentionNames → p d.id = true) : slots policy ≤ inventory.ids.countP p := by
  have hcount := countP_rank_lt Candidate.key Candidate.kept (slots policy)
    (@nodup_keys_candidates _ _ timeOf inventory entries)
  have hmany : slots policy ≤ (candidates timeOf inventory entries).countP Candidate.kept :=
    le_trans hrank (rank_le_countP _ _ _ _)
  rw [min_eq_left hmany, countP_candidates] at hcount
  rw [← hcount]
  apply List.countP_mono_left
  intro id hid hsome
  obtain ⟨d, hd, hboth⟩ := (Option.any_eq_true _ _).1 hsome
  have hsame : d.id = id := (candidate_eq_some.1 hd).2.2.1
  subst hsame
  have hmem : d ∈ candidates timeOf inventory entries := mem_candidates.2 ⟨hid, hd⟩
  rw [Bool.and_eq_true, decide_eq_true_eq] at hboth
  have hlt := lt_of_rank_lt Candidate.key Candidate.kept (lt_of_lt_of_le hboth.2 hrank)
  exact hp d hmem hboth.1 hlt hboth.2 (hslotted c hc d hmem hkept hboth.1 hrank hboth.2)

/-- A kept Run has the data to retain that it had. -/
theorem holds_of_keeps {seen : List (Candidate τ)} {pass : Pass} {keep : Candidate τ → Bool}
    (hswept : Swept visits entries keep seen pass) (hseen : ∀ c ∈ seen, c ∈ candidates timeOf inventory entries)
    (hd : d ∈ candidates timeOf inventory entries) (hkeep : keep d = true) (hholds : Holds (entries d.id) retentionNames) :
    Holds (pass.entries d.id) retentionNames := by
  obtain ⟨name, hname, hmem⟩ := hholds
  refine ⟨name, hname, ?_⟩
  by_contra hlost
  obtain ⟨c, hc, hid, hno⟩ := hswept.not_keep hname hmem hlost
  rw [eq_of_mem_candidates (hseen c hc) hd hid, hkeep] at hno
  exact absurd hno nofun

theorem newest_of_slotted {seen : List (Candidate τ)} {pass : Pass} (hslotted : Slotted timeOf policy inventory entries)
    (hswept : Swept visits entries (keeps (slots policy) (candidates timeOf inventory entries)) seen pass)
    (hseen : ∀ c ∈ seen, c ∈ candidates timeOf inventory entries) {name : String} (hname : name ∈ retentionNames)
    (hmem : name ∈ entries id) (hgone : name ∉ pass.entries id) :
    ∃ c, c.id = id ∧ candidate timeOf inventory entries id = some c ∧ (c.kept = true →
      slots policy ≤ inventory.ids.countP (keepsInstead timeOf inventory entries pass.entries c)) := by
  obtain ⟨c, hc, hid, hkeep⟩ := hswept.not_keep hname hmem hgone
  have hcandidate := hseen c hc
  refine ⟨c, hid, by rw [← hid]; exact (mem_candidates.1 hcandidate).2, fun hkept => ?_⟩
  have hrank : slots policy ≤ rank Candidate.key Candidate.kept (candidates timeOf inventory entries) c := by
    rw [keeps, hkept, Bool.true_and, decide_eq_false_iff_not] at hkeep
    exact not_lt.1 hkeep
  apply slots_le_countP hslotted hcandidate hkept hrank
  intro d hd hdkept hlt hdrank hholds
  have hne : d.id ≠ c.id := by
    intro heq
    rw [eq_of_mem_candidates hd hcandidate heq] at hlt
    exact lt_irrefl _ hlt
  have htime : c.time ≤ d.time := by
    rcases Prod.Lex.toLex_lt_toLex.1 hlt with htime | htime
    · exact le_of_lt htime
    · exact le_of_eq htime.1
  have hleft : Holds (pass.entries d.id) retentionNames :=
    holds_of_keeps hswept hseen hd (by rw [keeps, hdkept, decide_eq_true hdrank]; rfl) hholds
  exact keepsInstead_eq_true.2 ⟨hne, ⟨d, (mem_candidates.1 hd).2, hdkept, htime⟩, hleft⟩

/-! ## Passes again -/

/-- The candidate of a Run after a pass that left some of its data. -/
theorem candidate_of_candidate {start left : String → List String} (hleft : Holds (left id) disposableNames →
    Holds (start id) disposableNames) (h : candidate timeOf inventory left id = some d) :
    ∃ c, candidate timeOf inventory start id = some c ∧ { c with terminal := d.terminal } = d := by
  obtain ⟨hnoted, hholds, hid, _⟩ := candidate_eq_some.1 h
  refine ⟨{ d with terminal := decide (Holds (start id) terminalDirectories) }, ?_, rfl⟩
  exact candidate_eq_some.2 ⟨⟨hnoted.lock, hnoted.reading⟩, hleft hholds, hid, rfl⟩

section

variable {start left : String → List String}

/-- A Run is outranked by no more Runs than before. -/
theorem rank_left_le (hfewer : ∀ id, Holds (left id) disposableNames → Holds (start id) disposableNames)
    (hkey : d.key = c.key) : rank Candidate.key Candidate.kept (candidates timeOf inventory left) d ≤
      rank Candidate.key Candidate.kept (candidates timeOf inventory start) c := by
  rw [rank, rank, countP_candidates, countP_candidates]
  apply List.countP_mono_left
  intro id _ hsome
  obtain ⟨e, he, hcount⟩ := (Option.any_eq_true _ _).1 hsome
  obtain ⟨e', he', hsame⟩ := candidate_of_candidate (hfewer id) he
  rw [he', Option.any_some, ← hkey]
  rw [← hsame] at hcount
  exact hcount

/-- The slots go to the same Runs when those that had one still have data to retain. -/
theorem keeps_again (hslotted : Slotted timeOf policy inventory start)
    (hfewer : ∀ id, Holds (left id) disposableNames → Holds (start id) disposableNames)
    (hretained : ∀ d ∈ candidates timeOf inventory start,
      keeps (slots policy) (candidates timeOf inventory start) d = true → Holds (start d.id) retentionNames →
        Holds (left d.id) retentionNames)
    (hc : c ∈ candidates timeOf inventory start) (hsame : { c with terminal := d.terminal } = d) :
    keeps (slots policy) (candidates timeOf inventory left) d = keeps (slots policy) (candidates timeOf inventory start) c := by
  have hkept : d.kept = c.kept := by rw [← hsame]; rfl
  have hkey : d.key = c.key := by rw [← hsame]; rfl
  rw [keeps, keeps, hkept]
  by_cases hcount : c.kept = true
  · rw [hcount, Bool.true_and, Bool.true_and, decide_eq_decide]
    constructor
    · intro hlt
      by_contra hge
      have hmany : slots policy ≤ inventory.ids.countP fun id =>
          (candidate timeOf inventory left id).any fun e => e.kept && decide (d.key < e.key) := by
        apply slots_le_countP hslotted hc hcount (not_lt.1 hge)
        intro e he hekept hlt herank hholds
        obtain ⟨name, hname, hmem⟩ := hretained e he (by rw [keeps, hekept, decide_eq_true herank]; rfl) hholds
        have hnoted := (candidate_eq_some.1 (mem_candidates.1 he).2).1
        have hleft : candidate timeOf inventory left e.id =
            some { e with terminal := decide (Holds (left e.id) terminalDirectories) } :=
          candidate_eq_some.2 ⟨⟨hnoted.lock, hnoted.reading⟩, ⟨name, retentionNames_subset name hname, hmem⟩, rfl, rfl⟩
        rw [hleft, Option.any_some, Bool.and_eq_true, decide_eq_true_eq, hkey]
        exact ⟨hekept, hlt⟩
      rw [← countP_candidates] at hmany
      exact absurd hlt (not_lt.2 hmany)
    · exact fun hlt => lt_of_le_of_lt (rank_left_le hfewer hkey) hlt
  · rw [Bool.eq_false_of_not_eq_true hcount, Bool.false_and, Bool.false_and]

end

/-- A pass that came to its end is not continued by another one. -/
theorem again_of_slotted {seen : List (Candidate τ)} {pass : Pass} (hslotted : Slotted timeOf policy inventory entries)
    (henabled : policy.enabled = true) (hblocker : inventory.blocker = none)
    (hswept : Swept visits entries (keeps (slots policy) (candidates timeOf inventory entries)) seen pass)
    (hseen : ∀ c ∈ seen, c ∈ candidates timeOf inventory entries)
    (hall : ∀ c ∈ candidates timeOf inventory entries, c ∈ seen) (hended : pass.ended = false) (stop' : Nat → Bool) :
    (applyRetention timeOf policy inventory visits stop' pass.entries).entries = pass.entries ∧
      (applyRetention timeOf policy inventory visits stop' pass.entries).report.cleaned = [] := by
  have hfewer : ∀ id, Holds (pass.entries id) disposableNames → Holds (entries id) disposableNames :=
    fun id => hswept.fewer (by decide)
  have hretained : ∀ d ∈ candidates timeOf inventory entries,
      keeps (slots policy) (candidates timeOf inventory entries) d = true → Holds (entries d.id) retentionNames →
        Holds (pass.entries d.id) retentionNames := fun d => holds_of_keeps hswept hseen
  obtain ⟨seen', hswept', hseen', _⟩ : ∃ seen', Swept visits pass.entries
      (keeps (slots policy) (candidates timeOf inventory pass.entries)) seen' _ ∧ _ :=
    swept_applyRetention henabled hblocker
  have hsettled : ∀ d ∈ seen', settle visits (keeps (slots policy) (candidates timeOf inventory pass.entries) d) d
        (pass.entries d.id) = pass.entries d.id ∧
      ((keeps (slots policy) (candidates timeOf inventory pass.entries) d && !d.terminal) = false → ∀ removed,
        (visited visits (keeps (slots policy) (candidates timeOf inventory pass.entries) d) d (pass.entries d.id)).1 =
          .done removed → removed = []) := by
    intro d hd
    have hleft := (mem_candidates.1 (hseen' d hd)).2
    obtain ⟨c, hstart, hsame⟩ := candidate_of_candidate (hfewer d.id) hleft
    obtain ⟨_, _, hid, hterminal⟩ := candidate_eq_some.1 hstart
    have hc : c ∈ candidates timeOf inventory entries :=
      mem_candidates.2 ⟨by rw [hid]; exact (mem_candidates.1 (hseen' d hd)).1, by rw [hid]; exact hstart⟩
    have hnow : pass.entries d.id = settle visits (keeps (slots policy) (candidates timeOf inventory entries) c) c
        (entries d.id) := by
      rw [← hid]
      exact (hswept.whole hended).1 c (hall c hc)
    have hagain := settle_settle (keeps (slots policy) (candidates timeOf inventory entries) c) (entries d.id) d.terminal
      hterminal (by rw [← hnow]; exact (candidate_eq_some.1 hleft).2.2.2)
    rwa [hsame, ← hnow, ← keeps_again hslotted hfewer hretained hc hsame] at hagain
  constructor
  · funext id
    by_cases hid : ∀ d ∈ seen', d.id ≠ id
    · exact hswept'.others id hid
    · obtain ⟨d, hd, rfl⟩ : ∃ d ∈ seen', d.id = id := by simpa using hid
      rcases hswept'.own d hd with hsame | hsame
      · exact hsame
      · rw [hsame, (hsettled d hd).1]
  · apply List.eq_nil_iff_forall_not_mem.2
    intro row hrow
    obtain ⟨d, hd, hskip, hne, hdone⟩ := hswept'.cleaned row hrow
    exact hne ((hsettled d hd).2 hskip row.removed hdone)

theorem retains_of_slotted (henabled : policy.enabled = true) (hblocker : inventory.blocker = none)
    (hslotted : Slotted timeOf policy inventory entries) : Retains timeOf policy inventory visits stop entries
      (applyRetention timeOf policy inventory visits stop entries) := by
  obtain ⟨seen, hswept, hseen, hall⟩ := @swept_applyRetention _ _ timeOf inventory entries visits stop policy henabled hblocker
  constructor
  · exact fun id name hname hmem hgone => newest_of_slotted hslotted hswept hseen hname hmem hgone
  · exact fun id name hmem hgone => hswept.listed hmem hgone
  · exact hswept.candidates
  · exact fun hended stop' => again_of_slotted hslotted henabled hblocker hswept hseen (hall hended) hended stop'

theorem retains_of_disabled (henabled : policy.enabled = false) : Retains timeOf policy inventory visits stop entries
    (applyRetention timeOf policy inventory visits stop entries) := by
  have hidle : ∀ stop', applyRetention timeOf policy inventory visits stop' entries = { entries } := by
    intro stop'
    rw [applyRetention, if_pos henabled]
  apply retains_of_idle
  · rw [hidle]
  · rw [hidle]
    exact ⟨rfl, rfl, rfl⟩
  · intro _ stop'
    rw [hidle]
    exact ⟨rfl, rfl, rfl, rfl⟩

theorem retains_of_blocked (hblocker : inventory.blocker ≠ none) : Retains timeOf policy inventory visits stop entries
    (applyRetention timeOf policy inventory visits stop entries) := by
  have hidle : ∀ stop', (applyRetention timeOf policy inventory visits stop' entries).entries = entries ∧
      (applyRetention timeOf policy inventory visits stop' entries).report.Fresh := by
    intro stop'
    obtain ⟨reason, hreason⟩ := Option.ne_none_iff_exists'.1 hblocker
    simp only [applyRetention, hreason]
    by_cases henabled : policy.enabled = false
    · rw [if_pos henabled]
      exact ⟨rfl, rfl, rfl, rfl⟩
    · rw [if_neg henabled]
      by_cases hstop : stop' 0 = true
      · rw [if_pos hstop]
        exact ⟨rfl, rfl, rfl, rfl⟩
      · rw [if_neg hstop]
        exact ⟨rfl, rfl, rfl, rfl⟩
  exact retains_of_idle (hidle stop).1 (hidle stop).2 fun _ => hidle

theorem retains_of_broken (henabled : policy.enabled = true) (hblocker : inventory.blocker = none)
    (hbroken : Broken timeOf inventory entries) : Retains timeOf policy inventory visits stop entries
      (applyRetention timeOf policy inventory visits stop entries) := by
  obtain ⟨hended, hentries, hfresh⟩ := @ended_of_broken _ _ timeOf inventory entries visits stop policy henabled hblocker hbroken
  refine retains_of_idle hentries hfresh fun hend => ?_
  rw [hended] at hend
  exact absurd hend nofun

end DebBuilder.Workspace
