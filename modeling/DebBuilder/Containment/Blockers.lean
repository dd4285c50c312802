import Mathlib
import DebBuilder.Containment.Cleanup
import DebBuilder.Lib.Protocol

/-!
# What removes a cleanup blocker

The journal of the gate decides what the registry holds: a key is in it when its last
publication that the capacity admitted came after its last removal. Generations grow, so a
pass whose entry is still current has not been overtaken by a publication since its proof
began.

## Main results

* `cleanup_guarded` — in every run a blocker stays, and admission reports it, until a
  proof of its absence that began after its last publication; once the capacity was
  exceeded nothing is admitted any more.
-/

namespace DebBuilder.Containment
open Lib Function

/-- The latch of one key: stored publications set it, removals clear it. -/
def stored (key : Key) : Latch Event where
  sets e := ∃ generation, e = .published key generation
  clears e := ∃ pass, e = .removed pass key
  exclusive := by
    rintro _ ⟨generation, rfl⟩ ⟨pass, h⟩
    exact nomatch h

/-- The pass proved the absence of the key, and its proof began after the last publication
of the key. -/
def Cleared (before : List Event) (pass : Nat) (key : Key) : Prop :=
  ∃ earlier since seen, before = earlier ++ .proofBegan pass key :: since ∧
    .proofEnded pass key seen .provenGone ∈ since ∧ ∀ generation, .published key generation ∉ since

/-- Nothing is left to be proved, and no publication was refused. -/
def Clear (before : List Event) : Prop :=
  (∀ key, ¬ (stored key).On before) ∧ ∀ key, .refused key ∉ before

/-- What must have happened before an event. -/
def Warrant (before : List Event) : Event → Prop
  | .proofEnded _ _ seen .provenGone => seen.Absent
  | .removed pass key => Cleared before pass key
  | .admitted => Clear before
  | _ => True

/-- The generations of the stored publications of a key. -/
def publications (key : Key) (events : List Event) : List Nat :=
  events.filterMap fun
    | .published key' generation => if key' = key then some generation else none
    | _ => none

theorem mem_publications {key : Key} {events : List Event} {generation : Nat} :
    generation ∈ publications key events ↔ .published key generation ∈ events := by
  simp only [publications, List.mem_filterMap]
  constructor
  · rintro ⟨e, he, h⟩
    cases e with
    | published key' g =>
        by_cases hkey : key' = key
        · simp only [hkey, if_true, Option.some.injEq] at h
          rw [← hkey, ← h] at *
          exact he
        · simp [hkey] at h
    | refused _ | proofBegan _ _ | proofEnded _ _ _ _ | removed _ _ | admitted => exact nomatch h
  · intro h
    exact ⟨_, h, by simp⟩

/-- What is in the registry, and why. -/
structure Gate.Sound (s : Gate) : Prop where
  stored : ∀ key, key ∈ s.blockers ↔ (stored key).On s.events
  latest : ∀ key ∈ s.blockers, s.generations.lookup key = (publications key s.events).getLast?
  revision : ∀ key generation, .published key generation ∈ s.events → generation ≤ s.revision
  saturated : s.saturated = true ↔ ∃ key, .refused key ∈ s.events
  warranted : Warranted Warrant s.events

/-- A publication that came after the state `s`. -/
def Gate.Later (s : Gate) (e : Event) : Prop := ∀ key generation, e = .published key generation → s.revision < generation

/-- The gate has moved on. -/
structure Gate.Grows (s s' : Gate) : Prop where
  events : Extends s.Later s.events s'.events
  revision : s.revision ≤ s'.revision

variable {s s' s'' : Gate} {key : Key} {pass : Nat}

theorem Gate.Grows.refl (s : Gate) : s.Grows s := ⟨.refl, Nat.le_refl _⟩

theorem Gate.Grows.trans (h : s.Grows s') (h' : s'.Grows s'') : s.Grows s'' := by
  refine ⟨h.events.trans (h'.events.mono ?_), Nat.le_trans h.revision h'.revision⟩
  intro e he key generation heq
  exact Nat.lt_of_le_of_lt h.revision (he key generation heq)

/-- The protocol of the gate. -/
def protocol (τ : Type) : Protocol τ Gate Unit where
  Inv s _ := s.Sound
  Evolves := Gate.Grows
  refl := Gate.Grows.refl
  trans _ _ _ := Gate.Grows.trans

/-! ## The summary -/

theorem items_eq_nil {κ ν : Type} [DecidableEq κ] {d : Dict κ ν} : d.items = [] ↔ ∀ k, k ∉ d := by
  constructor
  · intro h k hk
    obtain ⟨v, hv⟩ := Dict.exists_mem_items hk
    simp [h] at hv
  · intro h
    apply List.eq_nil_iff_forall_not_mem.2
    intro e he
    exact h e.1 (Dict.mem_of_mem_items he)

/-- The check reports nothing when the registry is empty and was never saturated. -/
theorem containmentCleanupBlocker_eq : s.containmentCleanupBlocker = "" ↔ s.saturated = false ∧ ∀ key, key ∉ s.blockers := by
  have hnil := items_eq_nil (d := s.blockers)
  unfold Gate.containmentCleanupBlocker Gate.cleanupBlockerSummary
  cases hsaturated : s.saturated with
  | true => simp
  | false =>
      simp only [Bool.false_eq_true, if_false, Option.all_none, List.filter_true, true_and]
      by_cases h : s.blockers.items = []
      · simp [h, hnil.1 h]
      · simp only [h, if_false]
        constructor
        · intro hempty
          have := congrArg String.length hempty
          simp at this
        · intro hnone
          exact absurd (hnil.2 hnone) h

theorem Gate.Sound.clear (h : s.Sound) (hclear : s.containmentCleanupBlocker = "") : Clear s.events := by
  obtain ⟨hsaturated, hnone⟩ := containmentCleanupBlocker_eq.1 hclear
  constructor
  · intro key hon
    exact hnone key ((h.stored key).2 hon)
  · intro key hrefused
    have := h.saturated.2 ⟨key, hrefused⟩
    simp [hsaturated] at this

/-! ## What one section does -/

theorem publications_concat (events : List Event) (e : Event) :
    publications key (events ++ [e]) = publications key events ++ publications key [e] :=
  List.filterMap_append

/-- An event that neither changes the registry nor refuses a publication. -/
structure Quiet (e : Event) : Prop where
  published : ∀ key generation, e ≠ .published key generation
  refused : ∀ key, e ≠ .refused key
  removed : ∀ pass key, e ≠ .removed pass key

theorem Quiet.publications {e : Event} (h : Quiet e) : publications key [e] = [] := by
  apply List.eq_nil_iff_forall_not_mem.2
  intro generation hgeneration
  have := mem_publications.1 hgeneration
  exact h.published key generation (List.mem_singleton.1 this).symm

theorem Gate.Grows.log {e : Event} (he : s.Later e) : s.Grows (s.log e) := ⟨.concat he, Nat.le_refl _⟩

theorem Gate.Sound.log_quiet (h : s.Sound) {e : Event} (hquiet : Quiet e) (hwarrant : Warrant s.events e) :
    (s.log e).Sound ∧ s.Grows (s.log e) := by
  refine ⟨⟨?_, ?_, ?_, ?_, warranted_concat.2 ⟨h.warranted, hwarrant⟩⟩, .log ?_⟩
  · intro key
    rw [Gate.log, Latch.on_concat, h.stored key]
    constructor
    · intro hon
      exact .inr ⟨hon, fun ⟨pass, hpass⟩ => hquiet.removed pass key hpass⟩
    · rintro (⟨generation, hgeneration⟩ | ⟨hon, -⟩)
      · exact absurd hgeneration (hquiet.published key generation)
      · exact hon
  · intro key hkey
    rw [Gate.log, publications_concat, hquiet.publications, List.append_nil]
    exact h.latest key hkey
  · intro key generation hmem
    rcases List.mem_append.1 hmem with hmem | hmem
    · exact h.revision key generation hmem
    · exact absurd (List.mem_singleton.1 hmem).symm (hquiet.published key generation)
  · constructor
    · intro hsaturated
      obtain ⟨key, hkey⟩ := h.saturated.1 hsaturated
      exact ⟨key, List.mem_append_left _ hkey⟩
    · rintro ⟨key, hkey⟩
      rcases List.mem_append.1 hkey with hkey | hkey
      · exact h.saturated.2 ⟨key, hkey⟩
      · exact absurd (List.mem_singleton.1 hkey).symm (hquiet.refused key)
  · intro key generation heq
    exact absurd heq (hquiet.published key generation)

/-- A publication beyond the capacity saturates the registry. -/
theorem Gate.Sound.refuse (h : s.Sound) (key : Key) :
    ({ s with saturated := true }.log (.refused key)).Sound ∧
      s.Grows ({ s with saturated := true }.log (.refused key)) := by
  refine ⟨⟨?_, ?_, ?_, ?_, warranted_concat.2 ⟨h.warranted, trivial⟩⟩, .concat nofun, Nat.le_refl _⟩
  · intro key'
    simp only [Gate.log, Latch.on_concat, h.stored key']
    constructor
    · intro hon
      exact .inr ⟨hon, nofun⟩
    · rintro (⟨generation, hgeneration⟩ | ⟨hon, -⟩)
      · exact nomatch hgeneration
      · exact hon
  · intro key' hkey
    simp only [Gate.log, publications_concat]
    simpa [publications] using h.latest key' hkey
  · intro key' generation hmem
    rcases List.mem_append.1 hmem with hmem | hmem
    · exact h.revision key' generation hmem
    · exact nomatch List.mem_singleton.1 hmem
  · simp only [Gate.log, true_iff]
    exact ⟨key, by simp⟩

/-- A publication that is stored or renewed. -/
theorem Gate.Sound.store (h : s.Sound) (blocker : CleanupBlocker) :
    let s' := { s with
      revision := s.revision + 1
      blockers := s.blockers.setDefault blocker.key blocker
      generations := s.generations.set blocker.key (s.revision + 1) }.log
        (.published blocker.key (s.revision + 1))
    s'.Sound ∧ s.Grows s' := by
  refine ⟨⟨?_, ?_, ?_, ?_, warranted_concat.2 ⟨h.warranted, trivial⟩⟩, .concat ?_, Nat.le_succ _⟩
  · intro key
    simp only [Gate.log, Dict.mem_setDefault, Latch.on_concat, h.stored key]
    constructor
    · rintro (rfl | hon)
      · exact .inl ⟨_, rfl⟩
      · exact .inr ⟨hon, (by rintro ⟨_, ⟨⟩⟩)⟩
    · rintro (⟨generation, hgeneration⟩ | ⟨hon, -⟩)
      · left
        cases hgeneration
        rfl
      · exact .inr hon
  · intro key hkey
    simp only [Gate.log, publications_concat]
    by_cases heq : blocker.key = key
    · subst heq
      simp [publications, Dict.lookup_set]
    · have hold : key ∈ s.blockers := by
        rcases Dict.mem_setDefault.1 hkey with hsame | hold
        · exact absurd hsame.symm heq
        · exact hold
      have hnone : publications key [.published blocker.key (s.revision + 1)] = [] := by simp [publications, heq]
      rw [hnone, List.append_nil, Dict.lookup_set, if_neg (Ne.symm heq)]
      exact h.latest key hold
  · intro key generation hmem
    simp only [Gate.log] at hmem ⊢
    rcases List.mem_append.1 hmem with hmem | hmem
    · exact Nat.le_succ_of_le (h.revision key generation hmem)
    · cases List.mem_singleton.1 hmem
      exact Nat.le_refl _
  · simp only [Gate.log, h.saturated]
    constructor
    · rintro ⟨key, hkey⟩
      exact ⟨key, List.mem_append_left _ hkey⟩
    · rintro ⟨key, hkey⟩
      rcases List.mem_append.1 hkey with hkey | hkey
      · exact ⟨key, hkey⟩
      · cases List.mem_singleton.1 hkey
  · intro key generation heq
    cases heq
    exact Nat.lt_succ_self _

theorem Gate.Sound.publish (h : s.Sound) (blocker : CleanupBlocker) :
    (s.publish blocker).Sound ∧ s.Grows (s.publish blocker) := by
  unfold Gate.publish
  split
  · exact h.refuse blocker.key
  · exact h.store blocker

/-! ## A pass -/

/-- What a pass knows of an entry: its proof began, ended with this status, and every
publication since then has a later generation. -/
def Evidence (pass : Nat) (outcome : Outcome) (s : Gate) : Prop :=
  ∃ earlier since seen, s.events = earlier ++ .proofBegan pass outcome.key :: since ∧
    .proofEnded pass outcome.key seen outcome.status ∈ since ∧ outcome.generation ≤ s.revision ∧
    ∀ generation, .published outcome.key generation ∈ since → outcome.generation < generation

/-- The first half of the evidence: the proof has begun. -/
def Begun (pass : Nat) (entry : Entry) (s : Gate) : Prop :=
  ∃ earlier since, s.events = earlier ++ .proofBegan pass entry.key :: since ∧
    entry.generation ≤ s.revision ∧
    ∀ generation, .published entry.key generation ∈ since → entry.generation < generation

variable {entry : Entry} {outcome : Outcome}

theorem Begun.mono (h : Begun pass entry s) (hg : s.Grows s') : Begun pass entry s' := by
  obtain ⟨earlier, since, hevents, hrevision, hlater⟩ := h
  obtain ⟨added, hadded, hnew⟩ := hg.events
  refine ⟨earlier, since ++ added, by rw [hadded, hevents]; simp, Nat.le_trans hrevision hg.revision, ?_⟩
  intro generation hmem
  rcases List.mem_append.1 hmem with hmem | hmem
  · exact hlater generation hmem
  · exact Nat.lt_of_le_of_lt hrevision (hnew _ hmem entry.key generation rfl)

theorem Evidence.mono (h : Evidence pass outcome s) (hg : s.Grows s') : Evidence pass outcome s' := by
  obtain ⟨earlier, since, seen, hevents, hended, hrevision, hlater⟩ := h
  obtain ⟨added, hadded, hnew⟩ := hg.events
  refine ⟨earlier, since ++ added, seen, by rw [hadded, hevents]; simp, List.mem_append_left _ hended,
    Nat.le_trans hrevision hg.revision, ?_⟩
  intro generation hmem
  rcases List.mem_append.1 hmem with hmem | hmem
  · exact hlater generation hmem
  · exact Nat.lt_of_le_of_lt hrevision (hnew _ hmem outcome.key generation rfl)

/-- An entry that is still current was not published again since its proof began. -/
theorem Evidence.cleared (h : Evidence pass outcome s) (hsound : s.Sound) (hcurrent : s.Current outcome.toEntry)
    (hgone : outcome.status = .provenGone) : Cleared s.events pass outcome.key := by
  obtain ⟨earlier, since, seen, hevents, hended, -, hlater⟩ := h
  refine ⟨earlier, since, seen, hevents, hgone ▸ hended, ?_⟩
  intro generation hpublished
  have hstored : outcome.key ∈ s.blockers := AList.lookup_isSome.1 (by rw [hcurrent.1]; rfl)
  have hlatest := hsound.latest outcome.key hstored
  have hmem : generation ∈ publications outcome.key since := mem_publications.2 hpublished
  have hsplit : publications outcome.key s.events =
      publications outcome.key earlier ++ publications outcome.key since := by
    rw [hevents, publications, List.filterMap_append]
    rfl
  have hne : publications outcome.key since ≠ [] := List.ne_nil_of_mem hmem
  rw [hsplit, List.getLast?_append_of_ne_nil _ hne] at hlatest
  obtain ⟨last, hlast⟩ := Option.ne_none_iff_exists'.1 (mt List.getLast?_eq_none_iff.1 hne)
  have hcurrent' := hcurrent.2
  rw [hlatest, hlast] at hcurrent'
  have hbefore : outcome.generation < last :=
    hlater last (mem_publications.1 (List.mem_of_getLast? hlast))
  simp only [Option.getD_some] at hcurrent'
  omega

theorem Gate.Sound.remove (h : s.Sound) (hcleared : Cleared s.events pass key) :
    (s.remove pass key).Sound ∧ s.Grows (s.remove pass key) := by
  refine ⟨⟨?_, ?_, ?_, ?_, warranted_concat.2 ⟨h.warranted, hcleared⟩⟩, .concat nofun, Nat.le_refl _⟩
  · intro key'
    simp only [Gate.remove, Gate.log, AList.mem_erase, Latch.on_concat, h.stored key']
    constructor
    · rintro ⟨hne, hon⟩
      refine .inr ⟨hon, ?_⟩
      rintro ⟨pass', heq⟩
      cases heq
      exact hne rfl
    · rintro (⟨generation, hgeneration⟩ | ⟨hon, hkept⟩)
      · exact nomatch hgeneration
      · refine ⟨?_, hon⟩
        rintro rfl
        exact hkept ⟨pass, rfl⟩
  · intro key' hkey
    simp only [Gate.remove, Gate.log, AList.mem_erase] at hkey ⊢
    rw [AList.lookup_erase_ne hkey.1, h.latest key' hkey.2, publications_concat]
    simp [publications]
  · intro key' generation hmem
    simp only [Gate.remove, Gate.log] at hmem ⊢
    rcases List.mem_append.1 hmem with hmem | hmem
    · exact h.revision key' generation hmem
    · exact nomatch List.mem_singleton.1 hmem
  · simp only [Gate.remove, Gate.log, h.saturated]
    constructor
    · rintro ⟨key', hkey⟩
      exact ⟨key', List.mem_append_left _ hkey⟩
    · rintro ⟨key', hkey⟩
      rcases List.mem_append.1 hkey with hkey | hkey
      · exact ⟨key', hkey⟩
      · exact nomatch List.mem_singleton.1 hkey

theorem Gate.Sound.applyOutcome {counts : Nat × Nat} (h : s.Sound) (he : Evidence pass outcome s) :
    (Gate.applyOutcome pass (s, counts) outcome).1.Sound ∧
      s.Grows (Gate.applyOutcome pass (s, counts) outcome).1 := by
  unfold Gate.applyOutcome
  split
  · exact ⟨h, .refl s⟩
  · next hgone =>
    split
    · next hcurrent => exact h.remove (he.cleared h hcurrent (not_not.1 hgone))
    · exact ⟨h, .refl s⟩

/-- A whole pass applies its outcomes one by one. -/
theorem Gate.Sound.applyAll {outcomes : List Outcome} {counts : Nat × Nat} (h : s.Sound)
    (he : ∀ outcome ∈ outcomes, Evidence pass outcome s) :
    (outcomes.foldl (Gate.applyOutcome pass) (s, counts)).1.Sound ∧
      s.Grows (outcomes.foldl (Gate.applyOutcome pass) (s, counts)).1 := by
  induction outcomes generalizing s counts with
  | nil => exact ⟨h, .refl s⟩
  | cons outcome outcomes ih =>
      have hfirst := he outcome (by simp)
      obtain ⟨hsound, hgrows⟩ : (Gate.applyOutcome pass (s, counts) outcome).1.Sound ∧
          s.Grows (Gate.applyOutcome pass (s, counts) outcome).1 := h.applyOutcome hfirst
      obtain ⟨hsound', hgrows'⟩ := ih hsound fun o ho => (he o (List.mem_cons_of_mem _ ho)).mono hgrows
      exact ⟨hsound', hgrows.trans hgrows'⟩

/-- The generations of a snapshot are not those of the future. -/
theorem Gate.Sound.snapshot_le (h : s.Sound) (hentry : entry ∈ s.snapshot) : entry.generation ≤ s.revision := by
  simp only [Gate.snapshot, List.mem_filterMap, Option.map_eq_some_iff] at hentry
  obtain ⟨key, -, blocker, hblocker, rfl⟩ := hentry
  have hstored : key ∈ s.blockers := AList.lookup_isSome.1 (by rw [hblocker]; rfl)
  rw [h.latest key hstored]
  cases hlast : (publications key s.events).getLast? with
  | none => exact Nat.zero_le _
  | some generation =>
      exact h.revision key generation (mem_publications.1 (List.mem_of_getLast? hlast))

/-! ## The programs of the threads -/

section
variable {τ : Type} [DecidableEq τ] {t : τ} {sha256 : String → String} {g : τ → Unit} {α : Type}

/-- Nothing is asked of how a program ends. -/
def Anyhow (_ : Except Raised α) (_ : Gate) (_ : τ → Unit) : Prop := True

/-- The rule of one section: it keeps the registry sound, and leaves a fact behind. -/
theorem wp_section {f : Choice → Gate → Except Raised α × Gate} {Q : Except Raised α → Gate → (τ → Unit) → Prop}
    (h : ∀ c s' g', (protocol τ).Between t s g s' g' → s'.Sound →
      ((f c s').2.Sound ∧ s'.Grows (f c s').2) ∧ Q (f c s').1 (f c s').2 g') :
    wp (protocol τ) t Q (.act f) s g := by
  apply wp_act_same
  intro s' g' hbetween c
  obtain ⟨⟨hsound, hgrows⟩, hQ⟩ := h c s' g' hbetween hbetween.inv
  exact ⟨⟨hsound, hgrows⟩, hQ⟩

theorem Gate.Sound.publication (h : s.Sound) (kind : Kind) (reason : String) (identity : RecordedIdentity) :
    (s.publication sha256 kind reason identity).2.Sound ∧
      s.Grows (s.publication sha256 kind reason identity).2 := by
  unfold Gate.publication
  split
  · exact ⟨h, .refl s⟩
  · exact h.publish _

theorem wp_publishCleanupBlocker {kind : Kind} {reason : String} {identity : RecordedIdentity} :
    wp (protocol τ) t Anyhow (publishCleanupBlocker sha256 kind reason identity) s g :=
  wp_section fun _ _ _ _ hsound => ⟨hsound.publication kind reason identity, trivial⟩

/-- Whatever a proof raises, only one that saw nothing twice counts as absence. -/
theorem absent_of_proofStatus {blocker : CleanupBlocker} {seen : Observation}
    (h : proofStatus sha256 blocker seen = .provenGone) : seen.Absent := by
  unfold proofStatus at h
  split at h
  · next proof hproof => exact absent_of_provenGone hproof h
  · exact nomatch h

theorem warrant_proofEnded {before : List Event} {blocker : CleanupBlocker} {seen : Observation} :
    Warrant before (.proofEnded pass key seen (proofStatus sha256 blocker seen)) := by
  cases hstatus : proofStatus sha256 blocker seen with
  | provenGone => exact absent_of_proofStatus hstatus
  | stillPresentAndOwned | presentButIdentityAmbiguous | proofUnavailable => trivial

theorem Begun.ended {seen : Observation} {status : AbsenceStatus} (h : Begun pass entry s) :
    Evidence pass ⟨entry, status⟩ (s.log (.proofEnded pass entry.key seen status)) := by
  obtain ⟨earlier, since, hevents, hrevision, hlater⟩ := h
  refine ⟨earlier, since ++ [.proofEnded pass entry.key seen status], seen, ?_, by simp, hrevision, ?_⟩
  · rw [Gate.log, hevents, List.append_assoc, List.cons_append]
  · intro generation hmem
    rcases List.mem_append.1 hmem with hmem | hmem
    · exact hlater generation hmem
    · exact nomatch List.mem_singleton.1 hmem

/-- What is known when some proofs of a pass have ended. -/
def Proved (pass : Nat) (r : Except Raised (List Outcome)) (s : Gate) : Prop :=
  ∀ outcomes, r = .ok outcomes → ∀ outcome ∈ outcomes, Evidence pass outcome s

/-- The proofs of a pass end with evidence for each of their outcomes. -/
theorem wp_proveAll {entries : List Entry} (h : ∀ entry ∈ entries, entry.generation ≤ s.revision) :
    wp (protocol τ) t (fun r s _ => Proved pass r s) (proveAll sha256 pass entries) s g := by
  induction entries generalizing s g with
  | nil =>
      rw [proveAll, wp_pure]
      intro outcomes houtcomes outcome ho
      cases houtcomes
      exact nomatch ho
  | cons entry rest ih =>
      rw [proveAll]
      -- The proof begins.
      refine wp_seq (Q := fun _ s' _ => s.Grows s' ∧ Begun pass entry s')
        (wp_section fun c s' g' hbetween hsound => ⟨?_, ?_⟩) ?_ fun e _ _ _ _ h => nomatch h
      · exact hsound.log_quiet ⟨nofun, nofun, nofun⟩ trivial
      · refine ⟨hbetween.evolves.trans (.log nofun), s'.events, [], rfl, ?_, nofun⟩
        exact Nat.le_trans (h entry (by simp)) hbetween.evolves.revision
      rintro ⟨⟩ s₁ g₁ ⟨hgrows₁, hbegun⟩
      -- It ends with a status; other publications may have come in between.
      refine wp_seq (Q := fun r s' _ => s.Grows s' ∧ ∀ status, r = .ok status → Evidence pass ⟨entry, status⟩ s')
        (wp_section fun c s' g' hbetween hsound => ⟨?_, ?_⟩) ?_ fun e _ _ _ _ h => nomatch h
      · exact hsound.log_quiet ⟨nofun, nofun, nofun⟩ warrant_proofEnded
      · refine ⟨(hgrows₁.trans hbetween.evolves).trans (.log nofun), ?_⟩
        intro status hstatus
        cases hstatus
        exact (hbegun.mono hbetween.evolves).ended
      rintro status s₂ g₂ ⟨hgrows₂, hevidence⟩
      -- The rest of the pass follows, and what is known of this entry stays.
      have hrest : ∀ e ∈ rest, e.generation ≤ s₂.revision :=
        fun e he => Nat.le_trans (h e (List.mem_cons_of_mem _ he)) hgrows₂.revision
      refine wp_seq (wp_frame (fun _ _ => Evidence.mono) (ih hrest) (hevidence status rfl)) ?_ fun e _ _ _ _ h => nomatch h
      rintro outcomes s₃ g₃ ⟨hproved, hfirst⟩ _ houtcomes outcome ho
      cases houtcomes
      rcases List.mem_cons.1 ho with rfl | ho
      · exact hfirst
      · exact hproved outcomes rfl outcome ho

theorem wp_reconcileCleanupBlockers :
    wp (protocol τ) t Anyhow (reconcileCleanupBlockers sha256) s g := by
  refine wp_seq (Q := fun r s' _ => ∀ snapshot, r = .ok snapshot → ∀ entry ∈ snapshot.2, entry.generation ≤ s'.revision)
    (wp_section fun c s' g' hbetween hsound => ⟨?_, ?_⟩) ?_ fun _ _ _ _ => trivial
  · exact ⟨⟨hsound.stored, hsound.latest, hsound.revision, hsound.saturated, hsound.warranted⟩,
      .refl, Nat.le_refl _⟩
  · intro _ hsnapshot entry hentry
    cases hsnapshot
    exact hsound.snapshot_le hentry
  rintro ⟨pass, snapshot⟩ s₁ g₁ hsnapshot
  refine wp_seq (wp_proveAll (hsnapshot _ rfl)) ?_ fun _ _ _ _ => trivial
  intro outcomes s₂ g₂ hproved
  apply wp_section
  intro c s' g' hbetween hsound
  exact ⟨hsound.applyAll fun outcome ho => (hproved outcomes rfl outcome ho).mono hbetween.evolves, trivial⟩

theorem wp_containmentCleanupBlocker : wp (protocol τ) t Anyhow containmentCleanupBlocker s g :=
  wp_look fun _ _ _ _ => trivial

theorem wp_refuseAdmission {blocker : String} {already : Bool} :
    wp (protocol τ) t Anyhow (refuseAdmission blocker already) s g :=
  (wp_ofExcept _ s g).2 trivial

theorem wp_reconcileCleanupForAdmission {already : Bool} :
    wp (protocol τ) t Anyhow (reconcileCleanupForAdmission sha256 already) s g := by
  refine wp_seq wp_containmentCleanupBlocker ?_ fun _ _ _ _ => trivial
  intro blocker s₁ g₁ _
  split
  · refine wp_try wp_reconcileCleanupBlockers fun _ s₂ g₂ _ => ?_
    exact wp_seq wp_containmentCleanupBlocker (fun _ _ _ _ => wp_refuseAdmission) fun _ _ _ _ => trivial
  · exact wp_refuseAdmission

theorem wp_resourceLimitCapability : wp (protocol τ) t Anyhow (resourceLimitCapability sha256) s g := by
  apply wp_section
  intro c s' g' hbetween hsound
  cases c.probe with
  | none => exact ⟨⟨hsound, .refl s'⟩, trivial⟩
  | some probe => exact ⟨hsound.publication .probe probe.1 probe.2, trivial⟩

theorem wp_prepareRunAdmission : wp (protocol τ) t Anyhow (prepareRunAdmission sha256) s g := by
  refine wp_seq wp_reconcileCleanupForAdmission ?_ fun _ _ _ _ => trivial
  intro reconciled s₁ g₁ _
  refine wp_seq wp_resourceLimitCapability ?_ fun _ _ _ _ => trivial
  intro _ s₂ g₂ _
  exact wp_seq wp_reconcileCleanupForAdmission (fun _ _ _ _ => trivial) fun _ _ _ _ => trivial

/-- The admission is decided and made under one hold of the gate. -/
theorem wp_requireCleanupAdmissionClear : wp (protocol τ) t Anyhow requireCleanupAdmissionClear s g := by
  apply wp_section
  intro c s' g' hbetween hsound
  refine ⟨?_, trivial⟩
  split
  · exact ⟨hsound, .refl s'⟩
  · next hclear => exact hsound.log_quiet ⟨nofun, nofun, nofun⟩ (hsound.clear (not_not.1 hclear))

theorem wp_code (call : Call) : wp (protocol τ) t Anyhow (code sha256 call) s g := by
  cases call with
  | latchRuntime reason identity =>
      exact wp_seq wp_publishCleanupBlocker (fun _ _ _ _ => trivial) fun _ _ _ _ => trivial
  | latchProbe reason identity =>
      exact wp_seq wp_publishCleanupBlocker (fun _ _ _ _ => trivial) fun _ _ _ _ => trivial
  | reconcile => exact wp_seq wp_reconcileCleanupBlockers (fun _ _ _ _ => trivial) fun _ _ _ _ => trivial
  | check => exact wp_seq wp_containmentCleanupBlocker (fun _ _ _ _ => trivial) fun _ _ _ _ => trivial
  | enqueue =>
      refine wp_seq wp_prepareRunAdmission ?_ fun _ _ _ _ => trivial
      intro _ s₁ g₁ _
      exact wp_seq wp_requireCleanupAdmissionClear (fun _ _ _ _ => trivial) fun _ _ _ _ => trivial

theorem cleanup_sound : (protocol τ).Sound (cleanup sha256) () fun _ => Anyhow where
  stable _ _ _ _ _ _ _ _ := trivial
  call _ call _ _ _ _ := wp_code call
  restart _ _ _ _ h := nomatch h

theorem sound_start : ({} : Gate).Sound where
  stored key := by simp
  latest key hkey := by simp at hkey
  revision _ _ h := nomatch h
  saturated := by simp
  warranted := warranted_nil

/-! ## Every run -/

/-- What the journal of a run says about its blockers. -/
structure Gate.Guarded (s : Gate) : Prop where
  stays : ∀ key, (Containment.stored key).On s.events → key ∈ s.blockers
  reported : (∃ key, (Containment.stored key).On s.events ∨ .refused key ∈ s.events) → s.containmentCleanupBlocker ≠ ""
  removed : ∀ earlier pass key later, s.events = earlier ++ .removed pass key :: later → Cleared earlier pass key
  proved : ∀ pass key seen, .proofEnded pass key seen .provenGone ∈ s.events → seen.Absent
  admitted : ∀ earlier later, s.events = earlier ++ .admitted :: later → Clear earlier

theorem Gate.Sound.guarded (h : s.Sound) : s.Guarded where
  stays key := (h.stored key).2
  reported := by
    rintro ⟨key, hkey⟩ hclear
    have hnothing := h.clear hclear
    rcases hkey with hon | hrefused
    · exact hnothing.1 key hon
    · exact hnothing.2 key hrefused
  removed earlier pass key later hevents := h.warranted earlier (.removed pass key) later hevents
  proved pass key seen hmem := by
    obtain ⟨earlier, later, hevents⟩ := List.append_of_mem hmem
    exact h.warranted earlier (.proofEnded pass key seen .provenGone) later hevents
  admitted earlier later hevents := h.warranted earlier .admitted later hevents

/-- A blocker that the capacity admitted stays in the registry, and admission reports it,
until a pass has proved its absence with a proof that began after its last publication. A
publication beyond the capacity is not stored, and blocks admission for ever. -/
theorem cleanup_guarded {p q : Pool τ Gate Choice Raised Answer}
    (hp : (cleanup sha256).Reaches (Pool.start {}) p) (hq : (cleanup sha256).Reaches p q) :
    p.shared.Guarded ∧ p.shared.events <+: q.shared.events ∧
      ((∃ key, .refused key ∈ p.shared.events) → q.shared.containmentCleanupBlocker ≠ "") := by
  have hkeeps := cleanup_sound.reaches (Protocol.keeps_start sound_start) hp
  have hgrows := cleanup_sound.evolves hkeeps hq
  obtain ⟨_, hsound', -⟩ := cleanup_sound.reaches hkeeps hq
  obtain ⟨_, hsound, -⟩ := hkeeps
  refine ⟨hsound.guarded, ?_, ?_⟩
  · obtain ⟨added, hadded, -⟩ := hgrows.events
    exact ⟨added, hadded.symm⟩
  · rintro ⟨key, hkey⟩
    exact hsound'.guarded.reported ⟨key, .inr (hgrows.events.mem hkey)⟩

end

/-! ## A run -/

section

/-- A digest for examples. -/
def someDigest (_ : String) : String := "0123456789abcdef"

def someUnit : String := "debbuilder-command-0123456789abcdef-00000000000000000000000000000000.service"

def numberedIdentity (n : Nat) : RecordedIdentity where
  runId := some "run"
  commandId := some "00000000000000000000000000000000"
  bootId := some "boot"
  unitName := some someUnit
  controlGroup := none
  invocationId := some (String.ofList (List.replicate n 'a'))

/-- A proof that finds nothing. -/
def nothingSeen : Observation where
  bootId := .ok "boot"
  lease := .ok ()
  connection := .ok ()
  first := ⟨.ok none, .ok false⟩
  second := ⟨.ok none, .ok false⟩
  releaseFault := none

/-- A blocker is published again while its absence is being proved, so that the pass is
stale; the next pass removes it and a Run is admitted. -/
theorem cleanup_guarded_renewed : ∃ p : Pool Nat Gate Choice Raised Answer,
    (cleanup someDigest).Reaches (Pool.start {}) p ∧ p.result? 4 = some .admitted ∧ p.shared.Guarded := by
  let c : Choice := ⟨nothingSeen, none⟩
  let publish (t : Nat) : List (Lib.Event Nat Call Choice) :=
    [.spawn t (.latchRuntime "left running" (numberedIdentity 1)), .exec t c]
  let first : List (Lib.Event Nat Call Choice) := [.spawn 1 .reconcile, .exec 1 c, .exec 1 c, .exec 1 c]
  let second : List (Lib.Event Nat Call Choice) := [.exec 1 c, .spawn 3 .reconcile, .exec 3 c, .exec 3 c, .exec 3 c, .exec 3 c]
  let admission : List (Lib.Event Nat Call Choice) := [.spawn 4 .enqueue, .exec 4 c, .exec 4 c, .exec 4 c, .exec 4 c]
  have hrun : (((cleanup someDigest).run (Pool.start {}) (publish 0 ++ first ++ publish 2 ++ second ++ admission)).any
      fun p => p.result? 4 == some .admitted) = true := by decide +kernel
  obtain ⟨p, hp, hadmitted⟩ := System.exists_of_run _ _ hrun
  exact ⟨p, hp, by simpa using hadmitted, (cleanup_guarded hp .refl).1⟩

end

/-! ## Beyond the capacity -/

section
variable {sha256 : String → String} {p : Pool Nat Gate Choice Raised Answer}

/-- A thread that publishes alone. -/
theorem reaches_publication {t : Nat} (ht : p.threads t = none) (c : Choice) (reason : String)
    (identity : RecordedIdentity) :
    ∃ q, (cleanup sha256).Reaches p q ∧
      q.shared = (p.shared.publication sha256 .runtime reason identity).2 ∧
        ∀ u, t < u → q.threads u = p.threads u := by
  let call : Call := .latchRuntime reason identity
  let next := Prog.ofExcept (σ := Gate) (χ := Choice) (p.shared.publication sha256 .runtime reason identity).1
  let rest := next.bind fun text => .pure (Answer.summary text)
  refine ⟨⟨(p.shared.publication sha256 .runtime reason identity).2, update (update p.threads t
    (some (code sha256 call))) t (some rest)⟩, ?_, rfl, ?_⟩
  · refine System.reaches_of_run (show (cleanup sha256).run p [.spawn t call, .exec t c] = some _ from ?_)
    simp [System.run, System.step, ht, cleanup, code, call, publishCleanupBlocker, Prog.act, Prog.actWhen, Prog.bind, rest, next]
  · intro u hu
    simp [update_of_ne (Nat.ne_of_gt hu)]

/-- The blocker of a numbered identity. -/
def numberedBlocker (n : Nat) : CleanupBlocker where
  kind := .runtime
  reason := "left running"
  bootId := "boot"
  runId := "run"
  commandId := "00000000000000000000000000000000"
  unitName := someUnit
  invocationId := String.ofList (List.replicate n 'a')
  controlGroup := "/system.slice/" ++ someUnit

theorem cleanupBlocker_numbered (n : Nat) :
    cleanupBlocker someDigest .runtime "left running" (numberedIdentity n) = .ok (numberedBlocker n) := by
  have hunit : commandUnitName someDigest "run" "00000000000000000000000000000000" = .ok someUnit := by
    rfl
  have hgroup : expectedControlGroup someUnit = .ok ("/system.slice/" ++ someUnit) := by rfl
  have hreason : ("left running".take 500).toString = "left running" := by rfl
  simpa [cleanupBlocker, numberedIdentity, numberedBlocker, demand, refuse, hunit, hgroup, bind, Except.bind,
    pure, Except.pure] using hreason

theorem numberedBlocker_injective {m n : Nat} (h : (numberedBlocker m).key = (numberedBlocker n).key) : m = n := by
  have hinvocation : List.replicate m 'a' = List.replicate n 'a' :=
    String.ofList_injective (congrArg Key.invocationId h)
  simpa using congrArg List.length hinvocation

theorem publication_numbered (s : Gate) (n : Nat) :
    (s.publication someDigest .runtime "left running" (numberedIdentity n)).2 = s.publish (numberedBlocker n) := by
  simp [Gate.publication, cleanupBlocker_numbered]

/-- The registry holds the first blockers, each of them once, and lost none. -/
structure Filled (n : Nat) (s : Gate) : Prop where
  length : s.blockers.keys.length = n
  numbered : ∀ key ∈ s.blockers, ∃ m < n, key = (numberedBlocker m).key
  kept : ∀ pass key, .removed pass key ∉ s.events

theorem Filled.fresh {n : Nat} {s : Gate} (h : Filled n s) : (numberedBlocker n).key ∉ s.blockers := by
  intro hmem
  obtain ⟨m, hm, hkey⟩ := h.numbered _ hmem
  exact Nat.ne_of_lt hm (numberedBlocker_injective hkey).symm

theorem Filled.publish {n : Nat} {s : Gate} (h : Filled n s) (hn : n < maxCleanupBlockers) :
    Filled (n + 1) (s.publish (numberedBlocker n)) := by
  have hroom : ¬ (((numberedBlocker n).key ∉ s.blockers) ∧ maxCleanupBlockers ≤ s.blockers.keys.length) := by
    rw [h.length]
    omega
  simp only [Gate.publish, if_neg hroom, Gate.log]
  constructor
  · simp [Dict.setDefault, if_neg h.fresh, AList.keys_insert, List.erase_of_not_mem (mt AList.mem_keys.2 h.fresh), h.length]
  · intro key hkey
    rcases Dict.mem_setDefault.1 hkey with rfl | hold
    · exact ⟨n, Nat.lt_succ_self n, rfl⟩
    · obtain ⟨m, hm, heq⟩ := h.numbered key hold
      exact ⟨m, Nat.lt_succ_of_lt hm, heq⟩
  · intro pass key hmem
    rcases List.mem_append.1 hmem with hmem | hmem
    · exact h.kept pass key hmem
    · cases List.mem_singleton.1 hmem

/-- The registry can be filled up to its capacity. -/
theorem exists_filled (c : Choice) (n : Nat) (hn : n ≤ maxCleanupBlockers) :
    ∃ p : Pool Nat Gate Choice Raised Answer, (cleanup someDigest).Reaches (Pool.start {}) p ∧
      Filled n p.shared ∧ ∀ u, n ≤ u → p.threads u = none := by
  induction n with
  | zero => exact ⟨Pool.start {}, .refl, ⟨rfl, nofun, nofun⟩, fun _ _ => rfl⟩
  | succ n ih =>
      obtain ⟨p, hp, hfilled, hidle⟩ := ih (Nat.le_of_succ_le hn)
      obtain ⟨q, hq, hshared, hthreads⟩ :=
        reaches_publication (hidle n (Nat.le_refl n)) c "left running" (numberedIdentity n)
      refine ⟨q, hp.trans hq, ?_, ?_⟩
      · rw [hshared, publication_numbered]
        exact hfilled.publish hn
      · intro u hu
        rw [hthreads u hu]
        exact hidle u (Nat.le_of_succ_le hu)

/-- One blocker more than the capacity is published, nothing is removed, and the registry
does not hold the last one. -/
theorem publication_not_stored : ∃ (p : Pool Nat Gate Choice Raised Answer) (key : Key),
    (cleanup someDigest).Reaches (Pool.start {}) p ∧ .refused key ∈ p.shared.events ∧
      (∀ pass, .removed pass key ∉ p.shared.events) ∧ key ∉ p.shared.blockers := by
  obtain ⟨p, hp, hfilled, hidle⟩ := exists_filled ⟨nothingSeen, none⟩ maxCleanupBlockers (Nat.le_refl _)
  obtain ⟨q, hq, hshared, -⟩ := reaches_publication (hidle _ (Nat.le_refl _))
    ⟨nothingSeen, none⟩ "left running" (numberedIdentity maxCleanupBlockers)
  have hfull : (numberedBlocker maxCleanupBlockers).key ∉ p.shared.blockers ∧
      maxCleanupBlockers ≤ p.shared.blockers.keys.length := ⟨hfilled.fresh, Nat.le_of_eq hfilled.length.symm⟩
  rw [publication_numbered, Gate.publish, if_pos hfull] at hshared
  refine ⟨q, (numberedBlocker maxCleanupBlockers).key, hp.trans hq, ?_, ?_, ?_⟩
  · simp [hshared, Gate.log]
  · intro pass hmem
    rw [hshared] at hmem
    rcases List.mem_append.1 hmem with hmem | hmem
    · exact hfilled.kept pass _ hmem
    · exact nomatch List.mem_singleton.1 hmem
  · rw [hshared]
    exact hfilled.fresh

end
end DebBuilder.Containment
