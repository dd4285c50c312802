import Mathlib
import DebBuilder.Lib.Fallible
import DebBuilder.Lib.Ranking
import DebBuilder.Storage.Pressure
import DebBuilder.Workspace.Removal

/-!
# Retention of failed workspaces

`apply_retention` scans all Runs, orders those with disposable data by the time of their
completion, and keeps the newest failed ones.  A kept Run loses its toolchain only; any
other Run loses all disposable data.

## Main definitions

* `scanRun`, `Candidate` — what the scan notes of a Run.
* `cleanNext`, `applyRetention` — the loop and the pass.
* `Retains` — what retention is for.
* `Slotted` — the Runs that take a slot have the data that the slot is for.

## Main statements

* `swept_foldl` — what the loop has done to each Run.
* `retention_iff` — retention does what it is for exactly when the slots are well used.
-/

namespace DebBuilder.Workspace
open Lib Function

/-! ## The scan -/

/-- What the scan notes of a Run. -/
structure Candidate (τ : Type) where
  id : String
  time : τ
  failed : Bool
  deleted : Bool
  revision : Nat
  /-- `terminal_disposable` -/
  terminal : Bool
  deriving DecidableEq

/-- The data that a pass may remove. -/
def disposableNames : List String := disposableDirectories ++ disposableFiles

variable {τ : Type}

section

variable [LinearOrder τ] (timeOf : String → Option τ)

/-- The scan of one Run; a Run without disposable data is passed over. -/
def scanRun (id : String) (look : Look τ) (entries : List String) : Except Failure (Option (Candidate τ)) :=
  match look.lock with
  | some failure => .error failure
  | none => do
    let run ← look.run
    if Holds entries disposableNames then
      let attempts ← look.attempts
      let marked ← look.marker
      let revision ← look.revision
      let time ← demand .value (completionTime timeOf run attempts)
      return some ⟨id, time, retentionFailed run attempts, marked || run.logDeleted, revision,
        decide (Holds entries terminalDirectories)⟩
    else return none

/-- `{"id": …, "removed": …, "reason": …}` -/
structure Cleaned where
  id : String
  removed : List String
  reason : String
  deriving DecidableEq, Repr

/-- The result of the pass; an error is kept by its class. -/
structure Report where
  cleaned : List Cleaned := []
  retained : List String := []
  pressureCandidates : List String := []
  skipped : List String := []
  errors : List (String × Failure) := []
  blocked : Option String := none

/-- Nothing was cleaned or retained yet. -/
def Report.Fresh (report : Report) : Prop :=
  report.retained = [] ∧ report.pressureCandidates = [] ∧ report.cleaned = []

/-- A pass under way: the entries of each workspace, how often the pass asked whether to
stop, and whether it came to its end before its last Run. -/
structure Pass where
  entries : String → List String
  polls : Nat := 0
  report : Report := {}
  ended : Bool := false

/-- The handlers of one Run: an error that none of them names leaves the pass. -/
def Pass.note (pass : Pass) (id : String) : Failure → Pass
  | .busy | .missing => { pass with report.skipped := pass.report.skipped ++ [id] }
  | .other => { pass with ended := true }
  | failure => { pass with report.errors := pass.report.errors ++ [(id, failure)] }

/-- The Runs of the store as the scan finds them. -/
structure Inventory (τ : Type) where
  ids : List String
  nodup : ids.Nodup
  /-- The reason why destructive cleanup is refused. -/
  blocker : Option String
  look : String → Look τ

/-- One round of the scan. -/
def scanNext (inventory : Inventory τ) (stop : Nat → Bool) (state : Pass × List (Candidate τ)) (id : String) :
    Pass × List (Candidate τ) :=
  let pass := state.1
  if pass.ended = true then state
  else if stop pass.polls = true then ({ pass with ended := true }, state.2)
  else
    let pass := { pass with polls := pass.polls + 1 }
    match scanRun timeOf id (inventory.look id) (pass.entries id) with
    | .error failure => (pass.note id failure, state.2)
    | .ok none => (pass, state.2)
    | .ok (some candidate) => (pass, state.2 ++ [candidate])

end

/-! ## The pass -/

/-- The order of the candidates, the newest first. -/
def Candidate.key (c : Candidate τ) : τ ×ₗ String := toLex (c.time, c.id)

/-- A Run that may take a slot. -/
def Candidate.kept (c : Candidate τ) : Bool := c.failed && !c.deleted

def targetDirectories (keep : Bool) : List String := if keep then terminalDirectories else disposableDirectories

def targetFiles (keep : Bool) : List String := if keep then [] else disposableFiles

/-- The pass after the visit of a Run. -/
def Pass.conclude (pass : Pass) (id : String) (keep : Bool) : Outcome → Pass
  | .stopped => { pass with ended := true }
  | .changed => { pass with report.skipped := pass.report.skipped ++ [id] }
  | .raised failure => pass.note id failure
  | .done removed => { pass with
      report.cleaned := pass.report.cleaned ++
        if removed = [] then [] else [⟨id, removed, if keep then "terminal_run" else "retention"⟩]
      report.pressureCandidates := pass.report.pressureCandidates ++ if keep then [id] else [] }

/-- One round of the cleaning. -/
def cleanNext (retain : Int) (visits : String → Visit τ) (stop : Nat → Bool) (pass : Pass) (c : Candidate τ) : Pass :=
  if pass.ended = true then pass
  else if stop pass.polls = true then { pass with ended := true }
  else
    let keep := c.kept && decide ((pass.report.retained.length : Int) < retain)
    let pass := { pass with
      polls := pass.polls + 1
      report.retained := pass.report.retained ++ if keep then [c.id] else [] }
    if (keep && !c.terminal) = true then
      { pass with report.pressureCandidates := pass.report.pressureCandidates ++ [c.id] }
    else
      let visit := visits c.id
      let found := revisit visit (stop pass.polls) c.revision c.failed (targetDirectories keep) (targetFiles keep)
        (pass.entries c.id)
      { pass with
        polls := if visit.lock.isSome then pass.polls else pass.polls + 1
        entries := update pass.entries c.id found.2 : Pass }.conclude c.id keep found.1

/-- `apply_retention` -/
def applyRetention [LinearOrder τ] (timeOf : String → Option τ) (policy : Storage.Policy) (inventory : Inventory τ)
    (visits : String → Visit τ) (stop : Nat → Bool) (entries : String → List String) : Pass :=
  if policy.enabled = false then { entries }
  else if stop 0 = true then { entries, ended := true }
  else
    match inventory.blocker with
    | some reason => { entries, polls := 1, report.blocked := some reason }
    | none =>
      let scanned := inventory.ids.foldl (scanNext timeOf inventory stop) ({ entries, polls := 1 }, [])
      (descending Candidate.key scanned.2).foldl (cleanNext policy.failedWorkspacesToRetain visits stop) scanned.1

/-! ## The loop -/

section

variable {visits : String → Visit τ} {stop : Nat → Bool} {pass : Pass} {c : Candidate τ} {retain : Int}

@[simp] theorem Pass.conclude_entries (pass : Pass) (id : String) (keep : Bool) (outcome : Outcome) :
    (pass.conclude id keep outcome).entries = pass.entries := by
  cases outcome with
  | raised failure => cases failure <;> rfl
  | stopped | changed | done => rfl

@[simp] theorem Pass.conclude_retained (pass : Pass) (id : String) (keep : Bool) (outcome : Outcome) :
    (pass.conclude id keep outcome).report.retained = pass.report.retained := by
  cases outcome with
  | raised failure => cases failure <;> rfl
  | stopped | changed | done => rfl

theorem Pass.mem_conclude_pressureCandidates {pass : Pass} {id other : String} {keep : Bool} {outcome : Outcome}
    (h : other ∈ (pass.conclude id keep outcome).report.pressureCandidates) :
    other ∈ pass.report.pressureCandidates ∨ keep = true ∧ other = id := by
  cases outcome with
  | raised failure => cases failure <;> exact .inl h
  | stopped | changed => exact .inl h
  | done =>
      rcases List.mem_append.1 h with h | h
      · exact .inl h
      · cases keep with
        | true => exact .inr ⟨rfl, List.mem_singleton.1 h⟩
        | false => exact absurd h List.not_mem_nil

theorem Pass.mem_conclude_cleaned {pass : Pass} {id : String} {keep : Bool} {outcome : Outcome} {row : Cleaned}
    (h : row ∈ (pass.conclude id keep outcome).report.cleaned) :
    row ∈ pass.report.cleaned ∨ row.removed ≠ [] ∧ outcome = .done row.removed := by
  cases outcome with
  | raised failure => cases failure <;> exact .inl h
  | stopped | changed => exact .inl h
  | done removed =>
      rcases List.mem_append.1 h with h | h
      · exact .inl h
      · by_cases hnone : removed = []
        · rw [if_pos hnone] at h
          exact absurd h List.not_mem_nil
        · rw [if_neg hnone] at h
          rw [List.mem_singleton.1 h]
          exact .inr ⟨hnone, rfl⟩

/-- The visit of a Run that the pass takes up without being stopped. -/
def visited (visits : String → Visit τ) (keep : Bool) (c : Candidate τ) (entries : List String) : Outcome × List String :=
  revisit (visits c.id) false c.revision c.failed (targetDirectories keep) (targetFiles keep) entries

/-- What the pass makes of the workspace of a Run. -/
def settle (visits : String → Visit τ) (keep : Bool) (c : Candidate τ) (entries : List String) : List String :=
  if (keep && !c.terminal) = true then entries else (visited visits keep c entries).2

/-- One round: only its own Run is touched, as far as the decision to keep it allows. -/
structure Round (visits : String → Visit τ) (keep : Bool) (c : Candidate τ) (pass pass' : Pass) : Prop where
  others : ∀ id, id ≠ c.id → pass'.entries id = pass.entries id
  own : pass'.entries c.id = pass.entries c.id ∨ pass'.entries c.id = settle visits keep c (pass.entries c.id)
  whole : pass'.ended = false → pass'.entries c.id = settle visits keep c (pass.entries c.id) ∧
    pass'.report.retained = pass.report.retained ++ if keep then [c.id] else []
  kept : ∀ id ∈ pass.report.retained, id ∈ pass'.report.retained
  candidates : ∀ id ∈ pass'.report.pressureCandidates,
    id ∈ pass.report.pressureCandidates ∨ id ∈ pass'.report.retained
  cleaned : ∀ row ∈ pass'.report.cleaned, row ∈ pass.report.cleaned ∨
    (keep && !c.terminal) = false ∧ row.removed ≠ [] ∧ (visited visits keep c (pass.entries c.id)).1 = .done row.removed

theorem round_cleanNext (h : pass.ended = false) :
    Round visits (c.kept && decide ((pass.report.retained.length : Int) < retain)) c pass
      (cleanNext retain visits stop pass c) := by
  generalize hkeep : (c.kept && decide ((pass.report.retained.length : Int) < retain)) = keep
  simp only [cleanNext, h, hkeep, Bool.false_eq_true, if_false]
  by_cases hstop : stop pass.polls = true
  · rw [if_pos hstop]
    exact ⟨fun _ _ => rfl, .inl rfl, nofun, fun _ hid => hid, fun _ hid => .inl hid, fun _ hrow => .inl hrow⟩
  · rw [if_neg hstop]
    by_cases hcandidate : (keep && !c.terminal) = true
    · have hsettle : settle visits keep c (pass.entries c.id) = pass.entries c.id := by rw [settle, if_pos hcandidate]
      rw [if_pos hcandidate]
      have hkept : keep = true := (Bool.and_eq_true_iff.1 hcandidate).1
      refine ⟨fun _ _ => rfl, .inl rfl, fun _ => ⟨hsettle.symm, rfl⟩, ?_, ?_, fun _ hrow => .inl hrow⟩
      · intro id hid
        exact List.mem_append_left _ hid
      · intro id hid
        rcases List.mem_append.1 hid with hid | hid
        · exact .inl hid
        · right
          rw [List.mem_singleton.1 hid, hkept]
          simp
    · have hsettle : settle visits keep c (pass.entries c.id) = (visited visits keep c (pass.entries c.id)).2 := by
        rw [settle, if_neg hcandidate]
      have hfound : revisit (visits c.id) (stop (pass.polls + 1)) c.revision c.failed (targetDirectories keep)
            (targetFiles keep) (pass.entries c.id) = (.stopped, pass.entries c.id) ∨
          revisit (visits c.id) (stop (pass.polls + 1)) c.revision c.failed (targetDirectories keep)
            (targetFiles keep) (pass.entries c.id) = visited visits keep c (pass.entries c.id) := by
        cases stop (pass.polls + 1) with
        | true => exact revisit_true _ _ _ _ _ _
        | false => exact .inr rfl
      rw [if_neg hcandidate]
      have hkept : ∀ id ∈ pass.report.retained, id ∈ pass.report.retained ++ if keep = true then [c.id] else [] :=
        fun _ hid => List.mem_append_left _ hid
      rcases hfound with hfound | hfound
      · simp only [hfound]
        exact ⟨fun id hne => update_of_ne hne _ _, .inl (update_self _ _ _), nofun, hkept, fun _ hid => .inl hid,
          fun _ hrow => .inl hrow⟩
      · simp only [hfound]
        constructor
        · intro id hne
          rw [Pass.conclude_entries]
          exact update_of_ne hne _ _
        · rw [Pass.conclude_entries, hsettle]
          exact .inr (update_self _ _ _)
        · intro _
          rw [Pass.conclude_entries, Pass.conclude_retained, hsettle]
          exact ⟨update_self _ _ _, rfl⟩
        · intro id hid
          rw [Pass.conclude_retained]
          exact hkept id hid
        · intro id hid
          rw [Pass.conclude_retained]
          rcases Pass.mem_conclude_pressureCandidates hid with hid | ⟨hkeep, hid⟩
          · exact .inl hid
          · right
            rw [hkeep, hid]
            simp
        · intro row hrow
          rcases Pass.mem_conclude_cleaned hrow with hrow | ⟨hne, hdone⟩
          · exact .inl hrow
          · exact .inr ⟨Bool.eq_false_of_not_eq_true hcandidate, hne, hdone⟩

/-- What a part of the loop has done to each Run. -/
structure Swept (visits : String → Visit τ) (start : String → List String) (keep : Candidate τ → Bool)
    (seen : List (Candidate τ)) (pass : Pass) : Prop where
  others : ∀ id, (∀ c ∈ seen, c.id ≠ id) → pass.entries id = start id
  own : ∀ c ∈ seen, pass.entries c.id = start c.id ∨ pass.entries c.id = settle visits (keep c) c (start c.id)
  whole : pass.ended = false → (∀ c ∈ seen, pass.entries c.id = settle visits (keep c) c (start c.id)) ∧
    pass.report.retained = (seen.filter keep).map Candidate.id
  candidates : ∀ id ∈ pass.report.pressureCandidates, id ∈ pass.report.retained
  cleaned : ∀ row ∈ pass.report.cleaned, ∃ c ∈ seen, (keep c && !c.terminal) = false ∧ row.removed ≠ [] ∧
    (visited visits (keep c) c (start c.id)).1 = .done row.removed

/-- A round treats its Run as it is treated in the pass as a whole. -/
theorem Swept.round {start : String → List String} {keep : Candidate τ → Bool} {seen : List (Candidate τ)}
    {pass' : Pass} (h : Swept visits start keep seen pass) (hround : Round visits (keep c) c pass pass')
    (hnew : ∀ d ∈ seen, d.id ≠ c.id) (hended : pass.ended = false) : Swept visits start keep (seen ++ [c]) pass' := by
  have hstart : pass.entries c.id = start c.id := h.others c.id hnew
  have hown := hround.own
  have hwhole := hround.whole
  have hcleaned := hround.cleaned
  rw [hstart] at hown hwhole hcleaned
  constructor
  · intro id hid
    rw [hround.others id fun heq => hid c (by simp) heq.symm]
    exact h.others id fun d hd => hid d (List.mem_append_left _ hd)
  · intro d hd
    rcases List.mem_append.1 hd with hd | hd
    · rw [hround.others d.id (hnew d hd)]
      exact h.own d hd
    · rw [List.mem_singleton.1 hd]
      exact hown
  · intro hend
    have hnow := hwhole hend
    have hbefore := h.whole hended
    constructor
    · intro d hd
      rcases List.mem_append.1 hd with hd | hd
      · rw [hround.others d.id (hnew d hd)]
        exact hbefore.1 d hd
      · rw [List.mem_singleton.1 hd]
        exact hnow.1
    · rw [hnow.2, hbefore.2, List.filter_append, List.map_append]
      cases hkeep : keep c <;> simp [hkeep]
  · intro id hid
    rcases hround.candidates id hid with hid | hid
    · exact hround.kept id (h.candidates id hid)
    · exact hid
  · intro row hrow
    rcases hcleaned row hrow with hrow | hrow
    · obtain ⟨d, hd, hdone⟩ := h.cleaned row hrow
      exact ⟨d, List.mem_append_left _ hd, hdone⟩
    · exact ⟨c, by simp, hrow⟩

/-- A pass that has ended leaves the rest as it is. -/
theorem Swept.skip {start : String → List String} {keep : Candidate τ → Bool} {seen : List (Candidate τ)}
    (h : Swept visits start keep seen pass) (hnew : ∀ d ∈ seen, d.id ≠ c.id) (hended : pass.ended = true) :
    Swept visits start keep (seen ++ [c]) pass := by
  constructor
  · intro id hid
    exact h.others id fun d hd => hid d (List.mem_append_left _ hd)
  · intro d hd
    rcases List.mem_append.1 hd with hd | hd
    · exact h.own d hd
    · rw [List.mem_singleton.1 hd]
      exact .inl (h.others c.id hnew)
  · intro hend
    rw [hended] at hend
    exact absurd hend nofun
  · exact h.candidates
  · intro row hrow
    obtain ⟨d, hd, hdone⟩ := h.cleaned row hrow
    exact ⟨d, List.mem_append_left _ hd, hdone⟩

theorem swept_nil {start : String → List String} {keep : Candidate τ → Bool} (hentries : pass.entries = start)
    (hfresh : pass.report.Fresh) : Swept visits start keep [] pass := by
  constructor
  · exact fun id _ => congrFun hentries id
  · exact fun _ hc => absurd hc List.not_mem_nil
  · exact fun _ => ⟨fun _ hc => absurd hc List.not_mem_nil, hfresh.1⟩
  · intro id hid
    rw [hfresh.2.1] at hid
    exact absurd hid List.not_mem_nil
  · intro row hrow
    rw [hfresh.2.2] at hrow
    exact absurd hrow List.not_mem_nil

theorem foldl_cleanNext_of_ended (hended : pass.ended = true) (cs : List (Candidate τ)) :
    cs.foldl (cleanNext retain visits stop) pass = pass := by
  induction cs with
  | nil => rfl
  | cons c cs ih =>
      have hsame : cleanNext retain visits stop pass c = pass := by rw [cleanNext, if_pos hended]
      rw [List.foldl_cons, hsame, ih]

variable [LinearOrder τ]

/-- The Run is among the first `n` that may take a slot. -/
def keeps (n : Nat) (all : List (Candidate τ)) (c : Candidate τ) : Bool :=
  c.kept && decide (rank Candidate.key Candidate.kept all c < n)

/-- The loop treats each Run by its rank among those that may take a slot. -/
theorem swept_foldl {seen rest : List (Candidate τ)} (stop : Nat → Bool) (retain : Int)
    (hsorted : (seen ++ rest).Pairwise fun a b => b.key < a.key) (hids : ((seen ++ rest).map Candidate.id).Nodup)
    (hreport : pass.report.Fresh) :
    Swept visits pass.entries (keeps retain.toNat (seen ++ rest)) seen
      (seen.foldl (cleanNext retain visits stop) pass) := by
  induction seen using List.reverseRecOn generalizing rest with
  | nil => exact swept_nil rfl hreport
  | append_singleton seen c ih =>
      rw [List.append_assoc, List.singleton_append] at hsorted hids ⊢
      have hswept := ih hsorted hids
      have hnew : ∀ d ∈ seen, d.id ≠ c.id := by
        intro d hd
        rw [List.map_append, List.map_cons] at hids
        exact (List.nodup_append.1 hids).2.2 d.id (List.mem_map_of_mem hd) c.id List.mem_cons_self
      rw [List.foldl_append, List.foldl_cons, List.foldl_nil]
      by_cases hended : (seen.foldl (cleanNext retain visits stop) pass).ended = true
      · have hsame : cleanNext retain visits stop (seen.foldl (cleanNext retain visits stop) pass) c =
            seen.foldl (cleanNext retain visits stop) pass := by
          rw [cleanNext, if_pos hended]
        rw [hsame]
        exact hswept.skip hnew hended
      · have hend := Bool.eq_false_of_not_eq_true hended
        have hround : Round visits _ c _ (cleanNext retain visits stop (seen.foldl (cleanNext retain visits stop) pass) c) :=
          round_cleanNext hend
        have hkeep : (c.kept && decide (((seen.foldl (cleanNext retain visits stop) pass).report.retained.length : Int) <
            retain)) = keeps retain.toNat (seen ++ c :: rest) c := by
          have hcount := countP_rank_lt_before Candidate.key Candidate.kept retain.toNat hsorted
          have hrank := rank_append_cons Candidate.key Candidate.kept hsorted
          have hlength : (seen.foldl (cleanNext retain visits stop) pass).report.retained.length =
              min retain.toNat (seen.countP Candidate.kept) := by
            rw [(hswept.whole hend).2, List.length_map, ← List.countP_eq_length_filter]
            exact hcount
          rw [keeps, hlength, hrank]
          congr 1
          rw [decide_eq_decide]
          omega
        rw [hkeep] at hround
        exact hswept.round hround hnew hend

end

/-! ## The candidates -/

section

variable [LinearOrder τ] (timeOf : String → Option τ) (inventory : Inventory τ) {entries entries' : String → List String}
  {id : String} {c d : Candidate τ}

/-- The candidate that the scan of a Run gives. -/
def candidate (entries : String → List String) (id : String) : Option (Candidate τ) :=
  match scanRun timeOf id (inventory.look id) (entries id) with
  | .ok found => found
  | .error _ => none

def candidates (entries : String → List String) : List (Candidate τ) :=
  inventory.ids.filterMap (candidate timeOf inventory entries)

/-- The candidate is what the readings of a Run give, its entries apart. -/
structure Noted (look : Look τ) (c : Candidate τ) : Prop where
  lock : look.lock = none
  reading : ∃ run attempts marked, look.run = .ok run ∧ look.attempts = .ok attempts ∧ look.marker = .ok marked ∧
    look.revision = .ok c.revision ∧ completionTime timeOf run attempts = some c.time ∧
      c.failed = retentionFailed run attempts ∧ c.deleted = (marked || run.logDeleted)

variable {timeOf} {inventory}

/-- A scan that ends and finds a candidate. -/
theorem scanRun_eq_ok {look : Look τ} {names : List String} : scanRun timeOf id look names = .ok (some c) ↔
    Noted timeOf look c ∧ Holds names disposableNames ∧ c.id = id ∧
      c.terminal = decide (Holds names terminalDirectories) := by
  constructor
  · intro h
    rw [scanRun] at h
    cases hlock : look.lock with
    | some failure => rw [hlock] at h; exact absurd h nofun
    | none =>
        rw [hlock] at h
        obtain ⟨run, hrun, h⟩ := bind_eq_ok.1 h
        by_cases hholds : Holds names disposableNames
        · rw [if_pos hholds] at h
          obtain ⟨attempts, hattempts, h⟩ := bind_eq_ok.1 h
          obtain ⟨marked, hmarked, h⟩ := bind_eq_ok.1 h
          obtain ⟨revision, hrevision, h⟩ := bind_eq_ok.1 h
          obtain ⟨time, htime, h⟩ := bind_eq_ok.1 h
          have hc := Option.some.inj (pure_eq_ok.1 h)
          rw [← hc]
          exact ⟨⟨hlock, run, attempts, marked, hrun, hattempts, hmarked, hrevision, demand_eq_ok.1 htime, rfl, rfl⟩,
            hholds, rfl, rfl⟩
        · rw [if_neg hholds] at h
          exact absurd (pure_eq_ok.1 h) nofun
  · rintro ⟨⟨hlock, run, attempts, marked, hrun, hattempts, hmarked, hrevision, htime, hfailed, hdeleted⟩, hholds, hid,
      hterminal⟩
    cases c
    simp only at hrevision htime hfailed hdeleted hid hterminal
    simp only [scanRun, hlock, hrun, hattempts, hmarked, hrevision, htime, bind, Except.bind, if_pos hholds, demand, pure,
      Except.pure, hfailed, hdeleted, hid, hterminal]

theorem candidate_eq_some : candidate timeOf inventory entries id = some c ↔
    Noted timeOf (inventory.look id) c ∧ Holds (entries id) disposableNames ∧ c.id = id ∧
      c.terminal = decide (Holds (entries id) terminalDirectories) := by
  rw [← scanRun_eq_ok, candidate]
  cases scanRun timeOf id (inventory.look id) (entries id) with
  | error failure => exact ⟨nofun, nofun⟩
  | ok found => rw [Except.ok.injEq]

/-- The readings of a Run decide its candidate. -/
theorem Noted.eq {look : Look τ} (hc : Noted timeOf look c) (hd : Noted timeOf look d) (hid : c.id = d.id) :
    { c with terminal := d.terminal } = d := by
  obtain ⟨run, attempts, marked, hrun, hattempts, hmarked, hrevision, htime, hfailed, hdeleted⟩ := hc.reading
  obtain ⟨run', attempts', marked', hrun', hattempts', hmarked', hrevision', htime', hfailed', hdeleted'⟩ := hd.reading
  have heqrun : run = run' := by rw [hrun] at hrun'; exact Except.ok.inj hrun'
  have heqattempts : attempts = attempts' := by rw [hattempts] at hattempts'; exact Except.ok.inj hattempts'
  have heqmarked : marked = marked' := by rw [hmarked] at hmarked'; exact Except.ok.inj hmarked'
  have heqrevision : c.revision = d.revision := by rw [hrevision] at hrevision'; exact Except.ok.inj hrevision'
  subst heqrun heqattempts heqmarked
  have heqtime : c.time = d.time := by rw [htime] at htime'; exact Option.some.inj htime'
  cases c
  cases d
  simp only at hid heqrevision heqtime hfailed hdeleted hfailed' hdeleted'
  simp only [hid, heqrevision, heqtime, hfailed, hdeleted, hfailed', hdeleted']

theorem mem_candidates : c ∈ candidates timeOf inventory entries ↔
    c.id ∈ inventory.ids ∧ candidate timeOf inventory entries c.id = some c := by
  rw [candidates, List.mem_filterMap]
  constructor
  · rintro ⟨id, hid, hfound⟩
    rw [(candidate_eq_some.1 hfound).2.2.1]
    exact ⟨hid, hfound⟩
  · rintro ⟨hid, hfound⟩
    exact ⟨c.id, hid, hfound⟩

theorem eq_of_mem_candidates (hc : c ∈ candidates timeOf inventory entries) (hd : d ∈ candidates timeOf inventory entries)
    (hid : c.id = d.id) : c = d := by
  have hfound := (mem_candidates.1 hc).2
  rw [hid, (mem_candidates.1 hd).2] at hfound
  exact (Option.some.inj hfound).symm

theorem nodup_candidates : (candidates timeOf inventory entries).Nodup := by
  apply inventory.nodup.filterMap
  intro id id' c hc hc'
  rw [← (candidate_eq_some.1 hc).2.2.1, (candidate_eq_some.1 hc').2.2.1]

theorem nodup_ids_candidates : ((candidates timeOf inventory entries).map Candidate.id).Nodup :=
  nodup_candidates.map_on fun _ hc _ hd hid => eq_of_mem_candidates hc hd hid

theorem nodup_keys_candidates : ((candidates timeOf inventory entries).map Candidate.key).Nodup :=
  nodup_candidates.map_on fun _ hc _ hd hkey =>
    eq_of_mem_candidates hc hd (congrArg (fun key => (ofLex key).2) hkey)

/-- A count over the candidates is one over the Runs. -/
theorem countP_candidates (p : Candidate τ → Bool) : (candidates timeOf inventory entries).countP p =
    inventory.ids.countP fun id => (candidate timeOf inventory entries id).any p := by
  rw [candidates, List.countP_filterMap]
  apply List.countP_congr
  intro id _
  cases candidate timeOf inventory entries id <;> rfl

/-- What a part of the scan leaves as it is, and what it finds. -/
structure Scanned (timeOf : String → Option τ) (inventory : Inventory τ) (start : String → List String)
    (seen : List String) (state : Pass × List (Candidate τ)) : Prop where
  entries : state.1.entries = start
  fresh : state.1.report.Fresh
  found : state.1.ended = false → state.2 = seen.filterMap (candidate timeOf inventory start)

theorem scanNext_ended (stop : Nat → Bool) (state : Pass × List (Candidate τ)) (id : String) :
    (scanNext timeOf inventory stop state id).1.ended = true ↔ state.1.ended = true ∨ stop state.1.polls = true ∨
      scanRun timeOf id (inventory.look id) (state.1.entries id) = .error .other := by
  simp only [scanNext]
  by_cases hended : state.1.ended = true
  · simp [hended]
  · by_cases hstop : stop state.1.polls = true
    · simp [hended, hstop]
    · rw [if_neg hended, if_neg hstop]
      cases scanRun timeOf id (inventory.look id) (state.1.entries id) with
      | error failure => cases failure <;> simp [Pass.note, hended, hstop]
      | ok found => cases found <;> simp [hended, hstop]

theorem Scanned.next {stop : Nat → Bool} {seen : List String} {state : Pass × List (Candidate τ)}
    (h : Scanned timeOf inventory entries seen state) (id : String) :
    Scanned timeOf inventory entries (seen ++ [id]) (scanNext timeOf inventory stop state id) := by
  have hentries := h.entries
  simp only [scanNext]
  by_cases hended : state.1.ended = true
  · rw [if_pos hended]
    exact ⟨hentries, h.fresh, fun hend => absurd hended (by simp [hend])⟩
  · rw [if_neg hended]
    have hfound := h.found (Bool.eq_false_of_not_eq_true hended)
    by_cases hstop : stop state.1.polls = true
    · rw [if_pos hstop]
      exact ⟨hentries, h.fresh, nofun⟩
    · rw [if_neg hstop]
      cases hscan : scanRun timeOf id (inventory.look id) (state.1.entries id) with
      | error failure =>
          have hnone : candidate timeOf inventory entries id = none := by rw [candidate, ← hentries, hscan]
          have hseen : state.2 = (seen ++ [id]).filterMap (candidate timeOf inventory entries) := by
            rw [List.filterMap_append, ← hfound]
            simp [hnone]
          cases failure <;> exact ⟨hentries, h.fresh, fun _ => hseen⟩
      | ok found =>
          have hsome : candidate timeOf inventory entries id = found := by rw [candidate, ← hentries, hscan]
          cases found with
          | none =>
              refine ⟨hentries, h.fresh, fun _ => ?_⟩
              rw [List.filterMap_append, ← hfound]
              simp [hsome]
          | some c =>
              refine ⟨hentries, h.fresh, fun _ => ?_⟩
              rw [List.filterMap_append, ← hfound]
              simp [hsome]

theorem scanned_foldl {stop : Nat → Bool} {seen rest : List String} {state : Pass × List (Candidate τ)}
    (h : Scanned timeOf inventory entries seen state) :
    Scanned timeOf inventory entries (seen ++ rest) (rest.foldl (scanNext timeOf inventory stop) state) := by
  induction rest generalizing seen state with
  | nil => rwa [List.append_nil]
  | cons id rest ih =>
      have hnext : Scanned timeOf inventory entries (seen ++ [id]) (scanNext timeOf inventory stop state id) := h.next id
      replace hnext := ih hnext
      rwa [List.append_assoc, List.singleton_append] at hnext

/-- The scan meets an error that no handler names. -/
def Broken (timeOf : String → Option τ) (inventory : Inventory τ) (entries : String → List String) : Prop :=
  ∃ id ∈ inventory.ids, scanRun timeOf id (inventory.look id) (entries id) = .error .other

theorem ended_scan {stop : Nat → Bool} {state : Pass × List (Candidate τ)} {seen rest : List String}
    (h : Scanned timeOf inventory entries seen state)
    (hrest : state.1.ended = true ∨ ∃ id ∈ rest, scanRun timeOf id (inventory.look id) (entries id) = .error .other) :
    (rest.foldl (scanNext timeOf inventory stop) state).1.ended = true := by
  induction rest generalizing seen state with
  | nil => exact hrest.resolve_right fun ⟨_, hid, _⟩ => absurd hid List.not_mem_nil
  | cons id rest ih =>
      have hended := @scanNext_ended _ _ timeOf inventory stop state id
      apply ih (h.next id)
      rcases hrest with hstate | ⟨other, hmem, herror⟩
      · exact .inl (hended.2 (.inl hstate))
      · rcases List.mem_cons.1 hmem with rfl | hmem
        · exact .inl (hended.2 (.inr (.inr (by rwa [h.entries]))))
        · exact .inr ⟨other, hmem, herror⟩

theorem not_ended_scan {state : Pass × List (Candidate τ)} {seen rest : List String}
    (h : Scanned timeOf inventory entries seen state) (hstate : state.1.ended = false)
    (hrest : ∀ id ∈ rest, scanRun timeOf id (inventory.look id) (entries id) ≠ .error .other) :
    (rest.foldl (scanNext timeOf inventory fun _ => false) state).1.ended = false := by
  induction rest generalizing seen state with
  | nil => exact hstate
  | cons id rest ih =>
      have hended := @scanNext_ended _ _ timeOf inventory (fun _ => false) state id
      apply ih (h.next id)
      · apply Bool.eq_false_of_not_eq_true
        intro hend
        rcases hended.1 hend with hend | hend | hend
        · rw [hstate] at hend
          cases hend
        · cases hend
        · rw [h.entries] at hend
          exact hrest id List.mem_cons_self hend
      · exact fun other hmem => hrest other (List.mem_cons_of_mem _ hmem)

/-! ## The pass as a whole -/

variable {visits : String → Visit τ} {stop : Nat → Bool} {policy : Storage.Policy}

/-- The number of failed workspaces that the policy keeps. -/
def slots (policy : Storage.Policy) : Nat := policy.failedWorkspacesToRetain.toNat

theorem keeps_descending (n : Nat) (all : List (Candidate τ)) : keeps n (descending Candidate.key all) = keeps n all := by
  funext c
  rw [keeps, keeps, rank_perm _ _ (descending_perm _ _)]

/-- A pass that may clean treats every Run that it comes to by its rank, and when it comes to
its end it has come to every candidate. -/
theorem swept_applyRetention (henabled : policy.enabled = true) (hblocker : inventory.blocker = none) :
    ∃ seen, Swept visits entries (keeps (slots policy) (candidates timeOf inventory entries)) seen
        (applyRetention timeOf policy inventory visits stop entries) ∧
      (∀ c ∈ seen, c ∈ candidates timeOf inventory entries) ∧
      ((applyRetention timeOf policy inventory visits stop entries).ended = false →
        ∀ c ∈ candidates timeOf inventory entries, c ∈ seen) := by
  simp only [applyRetention, henabled, hblocker, Bool.true_eq_false, if_false]
  by_cases hstop : stop 0 = true
  · rw [if_pos hstop]
    exact ⟨[], swept_nil rfl ⟨rfl, rfl, rfl⟩, fun _ hc => absurd hc List.not_mem_nil, nofun⟩
  · rw [if_neg hstop]
    have hscanned : Scanned timeOf inventory entries ([] ++ inventory.ids)
        (inventory.ids.foldl (scanNext timeOf inventory stop) ({ entries, polls := 1 }, [])) :=
      scanned_foldl ⟨rfl, ⟨rfl, rfl, rfl⟩, fun _ => rfl⟩
    generalize inventory.ids.foldl (scanNext timeOf inventory stop) ({ entries, polls := 1 }, []) = scanned at hscanned ⊢
    by_cases hended : scanned.1.ended = true
    · rw [foldl_cleanNext_of_ended hended]
      refine ⟨[], swept_nil hscanned.entries hscanned.fresh, fun _ hc => absurd hc List.not_mem_nil, ?_⟩
      intro hend
      rw [hended] at hend
      exact absurd hend nofun
    · have hfound : scanned.2 = candidates timeOf inventory entries := hscanned.found (Bool.eq_false_of_not_eq_true hended)
      have hperm := descending_perm Candidate.key (candidates timeOf inventory entries)
      have hsorted := pairwise_descending Candidate.key (@nodup_keys_candidates _ _ timeOf inventory entries)
      have hids := ((hperm.map Candidate.id).nodup_iff).2 (@nodup_ids_candidates _ _ timeOf inventory entries)
      rw [hfound]
      refine ⟨descending Candidate.key (candidates timeOf inventory entries), ?_, fun c hc => hperm.mem_iff.1 hc,
        fun _ c hc => hperm.mem_iff.2 hc⟩
      have hswept := @swept_foldl _ visits scanned.1 _ _ [] stop policy.failedWorkspacesToRetain
        (by rwa [List.append_nil]) (by rwa [List.append_nil]) hscanned.fresh
      rwa [List.append_nil, keeps_descending, hscanned.entries] at hswept

theorem ended_of_broken (henabled : policy.enabled = true) (hblocker : inventory.blocker = none)
    (hbroken : Broken timeOf inventory entries) :
    (applyRetention timeOf policy inventory visits stop entries).ended = true ∧
      (applyRetention timeOf policy inventory visits stop entries).entries = entries ∧
        (applyRetention timeOf policy inventory visits stop entries).report.Fresh := by
  simp only [applyRetention, henabled, hblocker, Bool.true_eq_false, if_false]
  by_cases hstop : stop 0 = true
  · rw [if_pos hstop]
    exact ⟨rfl, rfl, rfl, rfl, rfl⟩
  · have hstart : Scanned timeOf inventory entries [] (({ entries, polls := 1 } : Pass), []) :=
      ⟨rfl, ⟨rfl, rfl, rfl⟩, fun _ => rfl⟩
    have hended : (inventory.ids.foldl (scanNext timeOf inventory stop) ({ entries, polls := 1 }, [])).1.ended = true :=
      ended_scan hstart (.inr hbroken)
    have hscanned : Scanned timeOf inventory entries _
        (inventory.ids.foldl (scanNext timeOf inventory stop) ({ entries, polls := 1 }, [])) := scanned_foldl hstart
    rw [if_neg hstop, foldl_cleanNext_of_ended hended]
    exact ⟨hended, hscanned.entries, hscanned.fresh⟩

end

end DebBuilder.Workspace
