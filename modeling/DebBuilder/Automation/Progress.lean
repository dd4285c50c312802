import Mathlib
import DebBuilder.Automation.Orchestrator
import DebBuilder.Automation.Validity

/-!
# How the state of automation moves forward

Whoever moves the state, a generation keeps what fixes its Run, a stopped generation stays
as it is but for its notification, a Run keeps what it was admitted with, and what has
ended stays as it ended.  The facts that the orchestrator reads and later relies on are
kept along this order.

## Main definitions

* `Row.Later`, `RunLater`, `Evolves` — the order.
* `RunIn`, `ValidatedBy`, `Published` — evidence, which stays.
-/

namespace DebBuilder.Automation
open Function

/-! ## Rows -/

/-- A later version of a row. -/
structure Row.Later (row row' : Row) : Prop where
  generation : row'.generation = row.generation
  policy : row'.desiredPolicy = row.desiredPolicy
  createdAt : row'.createdAt = row.createdAt
  preallocated : ∀ r, row.preallocatedRunId = some r → row'.preallocatedRunId = some r
  runId : ∀ r, row.runId = some r → row'.runId = some r
  stopped : row.state.stopped = true → row' =
    { row with completionNotified := row'.completionNotified, updatedAt := row'.updatedAt }

theorem Row.Later.refl (row : Row) : row.Later row := ⟨rfl, rfl, rfl, fun _ => id, fun _ => id, fun _ => rfl⟩

theorem Row.Later.trans {a b c : Row} (h : a.Later b) (h' : b.Later c) : a.Later c where
  generation := h'.generation.trans h.generation
  policy := h'.policy.trans h.policy
  createdAt := h'.createdAt.trans h.createdAt
  preallocated r hr := h'.preallocated r (h.preallocated r hr)
  runId r hr := h'.runId r (h.runId r hr)
  stopped hs := by
    have hb := h.stopped hs
    have hc := h'.stopped (by rw [hb]; exact hs)
    rw [hc, hb]

/-- A generation that has stopped stays stopped. -/
theorem Row.Later.keeps_stopped {row row' : Row} (h : row.Later row')
    (hs : row.state.stopped = true) : row'.state.stopped = true := by
  rw [h.stopped hs]
  exact hs

theorem Row.Later.runId_of_stopped {row row' : Row} (h : row.Later row')
    (hs : row.state.stopped = true) : row'.runId = row.runId := by
  rw [h.stopped hs]

theorem Row.Later.run_eq {row row' : Row} (h : row.Later row') (hr : row.runId ≠ none) :
    row'.run = row.run := by
  obtain ⟨r, hr⟩ := Option.ne_none_iff_exists'.1 hr
  simp [Row.run, hr, h.runId r hr]

/-! ## Runs -/

theorem statusMayBecome_trans {a b c : RunStatus} (h : statusMayBecome a b = true)
    (h' : statusMayBecome b c = true) : statusMayBecome a c = true := by
  cases a <;> cases b <;> cases c <;> simp_all [statusMayBecome, RunStatus.terminal]

theorem publicationsMayBecome_refl (ps : List Publication) : publicationsMayBecome ps ps = true := by
  induction ps with
  | nil => rfl
  | cons p ps ih => simp [publicationsMayBecome, ih]

theorem publicationsMayBecome_trans {as bs cs : List Publication}
    (h : publicationsMayBecome as bs = true) (h' : publicationsMayBecome bs cs = true) :
    publicationsMayBecome as cs = true := by
  induction as generalizing bs cs with
  | nil => rfl
  | cons a as ih =>
      match bs, cs with
      | [], _ => simp [publicationsMayBecome] at h
      | _ :: _, [] => simp [publicationsMayBecome] at h'
      | b :: bs, c :: cs =>
          simp only [publicationsMayBecome, Bool.and_eq_true, Bool.or_eq_true,
            decide_eq_true_eq] at h h' ⊢
          refine ⟨?_, ih h.2 h'.2⟩
          rcases h.1 with rfl | ⟨hrun, hid⟩
          · exact h'.1
          · rcases h'.1 with rfl | ⟨-, hid'⟩
            · exact .inr ⟨hrun, hid⟩
            · exact .inr ⟨hrun, hid.trans hid'⟩

theorem publicationsMayBecome_append (ps qs : List Publication) :
    publicationsMayBecome ps (ps ++ qs) = true := by
  induction ps with
  | nil => rfl
  | cons p ps ih => simp [publicationsMayBecome, ih]

/-- A publication that has ended is still there. -/
theorem mem_of_publicationsMayBecome {ps qs : List Publication}
    (h : publicationsMayBecome ps qs = true) {p : Publication} (hp : p ∈ ps)
    (hend : p.status ≠ .running) : p ∈ qs := by
  induction ps generalizing qs with
  | nil => simp at hp
  | cons q ps ih =>
      cases qs with
      | nil => simp [publicationsMayBecome] at h
      | cons r qs =>
          simp only [publicationsMayBecome, Bool.and_eq_true, Bool.or_eq_true,
            decide_eq_true_eq] at h
          rcases List.mem_cons.1 hp with rfl | hp
          · rcases h.1 with rfl | ⟨hrun, -⟩
            · exact List.mem_cons_self
            · exact absurd hrun hend
          · exact List.mem_cons_of_mem r (ih h.2 hp)

/-- A later version of a Run document. -/
def RunLater (old new : Run) : Prop := runMayBecome old new = true

theorem runLater_iff {old new : Run} : RunLater old new ↔
    new.id = old.id ∧ new.mode = old.mode ∧ new.createdAt = old.createdAt ∧
    new.recipeId = old.recipeId ∧ new.recipeSha256 = old.recipeSha256 ∧
    new.origin = old.origin ∧ new.automation = old.automation ∧
    new.manualSourceProvenance = old.manualSourceProvenance ∧
    (old.status.terminal = true → new.artifact = old.artifact) ∧
    statusMayBecome old.status new.status = true ∧
    publicationsMayBecome old.publications new.publications = true := by
  simp only [RunLater, runMayBecome, Bool.and_eq_true, decide_eq_true_eq, Bool.or_eq_true,
    Bool.not_eq_eq_eq_not, Bool.not_true, ← Bool.not_eq_true, and_assoc, ← Decidable.imp_iff_not_or]

theorem RunLater.refl (run : Run) : RunLater run run := by
  simp [runLater_iff, publicationsMayBecome_refl, statusMayBecome]

theorem terminal_of_statusMayBecome {a b : RunStatus} (h : statusMayBecome a b = true)
    (ht : a.terminal = true) : b = a := by
  cases a <;> cases b <;> simp_all [statusMayBecome, RunStatus.terminal]

theorem RunLater.trans {a b c : Run} (h : RunLater a b) (h' : RunLater b c) : RunLater a c := by
  rw [runLater_iff] at h h' ⊢
  obtain ⟨h₁, h₂, h₃, h₄, h₅, h₆, h₇, h₈, h₉, h₁₀, h₁₁⟩ := h
  obtain ⟨h₁', h₂', h₃', h₄', h₅', h₆', h₇', h₈', h₉', h₁₀', h₁₁'⟩ := h'
  refine ⟨h₁'.trans h₁, h₂'.trans h₂, h₃'.trans h₃, h₄'.trans h₄, h₅'.trans h₅, h₆'.trans h₆,
    h₇'.trans h₇, h₈'.trans h₈, fun ht => ?_, statusMayBecome_trans h₁₀ h₁₀',
    publicationsMayBecome_trans h₁₁ h₁₁'⟩
  exact (h₉' (by rwa [terminal_of_statusMayBecome h₁₀ ht])).trans (h₉ ht)

theorem RunLater.status {old new : Run} (h : RunLater old new)
    (ht : old.status.terminal = true) : new.status = old.status :=
  terminal_of_statusMayBecome (runLater_iff.1 h).2.2.2.2.2.2.2.2.2.1 ht

/-- No Run goes back to `pending`. -/
theorem RunLater.pending {old new : Run} (h : RunLater old new) (hp : new.status = .pending) :
    old.status = .pending := by
  have hs := (runLater_iff.1 h).2.2.2.2.2.2.2.2.2.1
  cases ho : old.status <;> simp_all [statusMayBecome, RunStatus.terminal]

theorem RunLater.id {old new : Run} (h : RunLater old new) : new.id = old.id := (runLater_iff.1 h).1

theorem RunLater.automation {old new : Run} (h : RunLater old new) :
    new.automation = old.automation := (runLater_iff.1 h).2.2.2.2.2.2.1

/-- What a Run is admitted with decides its binding. -/
theorem RunLater.bound {old new : Run} (h : RunLater old new) (a : Attempt) (row : Row) :
    bound a row new = bound a row old := by
  obtain ⟨h₁, -, -, h₄, h₅, -, h₇, -⟩ := runLater_iff.1 h
  simp [Automation.bound, h₁, h₄, h₅, h₇]

/-- A published artifact stays published. -/
theorem RunLater.published {old new : Run} (h : RunLater old new)
    (ht : old.status.terminal = true) {p : Publication} (hp : p ∈ old.publications)
    (hproof : (successfulPublicationProof p old.id old.artifact).isSome = true) :
    p ∈ new.publications ∧ (successfulPublicationProof p new.id new.artifact).isSome = true := by
  obtain ⟨h₁, -, -, -, -, -, -, -, h₉, -, h₁₁⟩ := runLater_iff.1 h
  refine ⟨mem_of_publicationsMayBecome h₁₁ hp ?_, by rw [h₁, h₉ ht]; exact hproof⟩
  rintro hrun
  simp [successfulPublicationProof, hrun] at hproof

/-! ## The state -/

variable {cfg : Config}

/-- How the state moves forward. -/
structure Evolves (s s' : State cfg) : Prop where
  rows : ∀ slot a row, s.row? slot = some (a, row) →
    ∃ row', s'.row? slot = some (a, row') ∧ row.Later row'
  runs : ∀ r doc, s.store r = .run doc → ∃ doc', s'.store r = .run doc' ∧ RunLater doc doc'
  attempts : ∀ r id a, s.attempt? r id = some a →
    ∃ a', s'.attempt? r id = some a' ∧ (a.status.active = false → a'.status = a.status)
  births : s.births <:+ s'.births
  created : s.created <:+ s'.created
  owners : s.owners <:+ s'.owners

theorem Evolves.refl (s : State cfg) : Evolves s s where
  rows _ _ row h := ⟨row, h, .refl row⟩
  runs _ doc h := ⟨doc, h, .refl doc⟩
  attempts _ _ a h := ⟨a, h, fun _ => rfl⟩
  births := List.suffix_rfl
  created := List.suffix_rfl
  owners := List.suffix_rfl

theorem Evolves.trans (a b c : State cfg) (h : Evolves a b) (h' : Evolves b c) : Evolves a c where
  rows slot at? row hr := by
    obtain ⟨row', hr', hl⟩ := h.rows slot at? row hr
    obtain ⟨row'', hr'', hl'⟩ := h'.rows slot at? row' hr'
    exact ⟨row'', hr'', hl.trans hl'⟩
  runs r doc hd := by
    obtain ⟨doc', hd', hl⟩ := h.runs r doc hd
    obtain ⟨doc'', hd'', hl'⟩ := h'.runs r doc' hd'
    exact ⟨doc'', hd'', hl.trans hl'⟩
  attempts r id x hx := by
    obtain ⟨x', hx', hl⟩ := h.attempts r id x hx
    obtain ⟨x'', hx'', hl'⟩ := h'.attempts r id x' hx'
    exact ⟨x'', hx'', fun ha => (hl' (by rwa [hl ha])).trans (hl ha)⟩
  births := h.births.trans h'.births
  created := h.created.trans h'.created
  owners := h.owners.trans h'.owners

/-! ## Evidence -/

/-- The Run is there with this status. -/
def RunIn (store : Store) (r : RunId) (status : RunStatus) : Prop :=
  ∃ doc, store r = .run doc ∧ doc.status = status

/-- The Validation attempt succeeded. -/
def ValidatedBy (validations : RunId → List ValidationAttempt) (r : RunId) (id : String) : Prop :=
  ∃ a, (validations r).find? (·.id = id) = some a ∧ a.status = .success

/-- A publication attempt of the Run is accepted as proof. -/
def Published (store : Store) (r : RunId) : Prop :=
  ∃ doc, store r = .run doc ∧ doc.status.terminal = true ∧ ∃ p ∈ doc.publications,
    (successfulPublicationProof p doc.id doc.artifact).isSome = true

theorem Evolves.runIn {s s' : State cfg} (h : Evolves s s') {r : RunId} {status : RunStatus}
    (ht : status.terminal = true) (hr : RunIn s.store r status) : RunIn s'.store r status := by
  obtain ⟨doc, hd, rfl⟩ := hr
  obtain ⟨doc', hd', hl⟩ := h.runs r doc hd
  exact ⟨doc', hd', hl.status ht⟩

theorem Evolves.validatedBy {s s' : State cfg} (h : Evolves s s') {r : RunId} {id : String}
    (hv : ValidatedBy s.validations r id) : ValidatedBy s'.validations r id := by
  obtain ⟨a, ha, hs⟩ := hv
  obtain ⟨a', ha', hl⟩ := h.attempts r id a ha
  exact ⟨a', ha', (hl (by rw [hs]; rfl)).trans hs⟩

theorem Evolves.published {s s' : State cfg} (h : Evolves s s') {r : RunId}
    (hp : Published s.store r) : Published s'.store r := by
  obtain ⟨doc, hd, ht, p, hp, hproof⟩ := hp
  obtain ⟨doc', hd', hl⟩ := h.runs r doc hd
  obtain ⟨hp', hproof'⟩ := hl.published ht hp hproof
  exact ⟨doc', hd', by rwa [hl.status ht], p, hp', hproof'⟩

end DebBuilder.Automation
