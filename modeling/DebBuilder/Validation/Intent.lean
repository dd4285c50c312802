import Mathlib
import DebBuilder.Lib.Dict
import DebBuilder.Lib.Machine
import DebBuilder.Validation.Attempts

/-!
# The publication intent of an attempt

`automation.json` of an attempt says whether its success is to be published.  An admission
writes it, an admission that finds an active attempt merges its request into it, and the
publication consumes or cancels the intent.  Each of them reads and rewrites the file
while its path is locked.

## Main definitions

* `newAutomation`, `upgradeAutomation`, `settleIntent` — the documents that are written.
* `intents` — the machine of the intents of a Run, with the admissions that have returned.

## Main results

* `publication_intents` — over every run.
-/

namespace DebBuilder.Validation
open Lib

/-! ## The writers -/

/-- What an admission asks for. -/
structure Request where
  automatic : Bool
  publishAfterSuccess : Bool
  context : Option Coordination
  deriving DecidableEq, Repr

/-- `normalize_validation_automation` -/
def normalizeValidationAutomation (value : AutomationMetadata) : Except Fault AutomationMetadata := do
  refuse (automationValid value = false) (.value none)
  return value

/-- The metadata of `_admit_locked`. -/
def newAutomation (r : Request) : Except Fault AutomationMetadata :=
  normalizeValidationAutomation
    { automatic := r.automatic
      publishAfterSuccess := r.automatic && r.publishAfterSuccess
      publicationState :=
        if r.automatic && r.publishAfterSuccess then .pending else .notRequested
      coordination := r.context }

/-- The metadata that `_reuse_active` makes of those of an active attempt. -/
def upgradeAutomation (current : AutomationMetadata) (r : Request) :
    Except Fault AutomationMetadata := do
  refuse (r.context.any fun context => current.coordination.any (· ≠ context))
    (refused "validation_automation_conflict" 409)
  normalizeValidationAutomation
    { automatic := true
      publishAfterSuccess := current.publishAfterSuccess || r.publishAfterSuccess
      publicationState :=
        if current.publishAfterSuccess then current.publicationState
        else if r.publishAfterSuccess then .pending else .notRequested
      coordination := r.context <|> current.coordination }

/-- `complete_publication_intent` and `cancel_publication_intent`: what they write, if they
write. -/
def settleIntent (settled : PublicationState) (current : AutomationMetadata) :
    Except Fault (Option AutomationMetadata) := do
  let automation ← normalizeValidationAutomation current
  if automation.publicationState = .pending then
    return some { automation with publicationState := settled }
  else return none

/-- `complete_publication_intent` -/
def completePublicationIntent : AutomationMetadata → Except Fault (Option AutomationMetadata) :=
  settleIntent .complete

/-- `cancel_publication_intent` -/
def cancelPublicationIntent : AutomationMetadata → Except Fault (Option AutomationMetadata) :=
  settleIntent .cancelled

/-! ## The machine -/

/-- The intents of the attempts of a Run. -/
structure Intents where
  stored : Dict String AutomationMetadata
  /-- The identifiers that were allocated. -/
  allocated : List String
  /-- The admissions whose attempt is not written yet. -/
  opening : List (String × Request)
  /-- The attempts that can be found: their `attempt.json` is written. -/
  admitted : List String
  /-- The admissions that have an attempt, and have not returned yet. -/
  calls : List (String × Request)
  /-- The admissions that have returned normally, with their attempt. -/
  returned : List (String × Request)

inductive IntentAction
  /-- An admission writes the metadata of a new attempt. -/
  | begin (id : String) (r : Request)
  /-- It fails before it has written the attempt, and removes its directory. -/
  | fail (id : String) (r : Request)
  /-- It writes the attempt. -/
  | admitAttempt (id : String) (r : Request)
  /-- An admission reuses an active attempt. -/
  | reuse (id : String) (r : Request)
  | complete (id : String)
  | cancel (id : String)
  /-- An admission returns, or raises after all. -/
  | finish (id : String) (r : Request)
  | raise (id : String) (r : Request)
  /-- The process stops: what runs is lost. -/
  | stop

namespace Intents
variable (s : Intents)

/-- A rewriting of the metadata of an attempt, when they can be read. -/
def rewrite (id : String) (write : AutomationMetadata → Except Fault (Option AutomationMetadata)) :
    Intents :=
  match s.stored.lookup id with
  | none => s
  | some current =>
      match write current with
      | .ok (some metadata) => { s with stored := s.stored.insert id metadata }
      | .ok none | .error _ => s

/-- `_reuse_active` of an attempt that is found. -/
def reuse (id : String) (r : Request) : Option Intents :=
  if id ∈ s.admitted then
    if r.automatic then do
      let current ← s.stored.lookup id
      match upgradeAutomation current r with
      | .ok upgraded =>
          some { s with stored := s.stored.insert id upgraded, calls := (id, r) :: s.calls }
      | .error _ => none
    else some { s with calls := (id, r) :: s.calls }
  else none

/-- One step. -/
def step : IntentAction → Option Intents
  | .begin id r =>
      match newAutomation r with
      | .ok metadata =>
          if id ∈ s.allocated then none
          else some
            { s with
              stored := s.stored.insert id metadata, allocated := id :: s.allocated
              opening := (id, r) :: s.opening }
      | .error _ => none
  | .fail id r =>
      if (id, r) ∈ s.opening then
        some { s with stored := s.stored.erase id, opening := s.opening.erase (id, r) }
      else none
  | .admitAttempt id r =>
      if (id, r) ∈ s.opening then
        some
          { s with
            opening := s.opening.erase (id, r), admitted := id :: s.admitted
            calls := (id, r) :: s.calls }
      else none
  | .reuse id r => s.reuse id r
  | .complete id => some (s.rewrite id completePublicationIntent)
  | .cancel id => some (s.rewrite id cancelPublicationIntent)
  | .finish id r =>
      if (id, r) ∈ s.calls then
        some { s with calls := s.calls.erase (id, r), returned := (id, r) :: s.returned }
      else none
  | .raise id r => some { s with calls := s.calls.erase (id, r) }
  | .stop => some { s with opening := [], calls := [] }

end Intents

/-- The intents of one Run, over any number of processes. -/
def intents : Machine Intents IntentAction := ⟨⟨∅, [], [], [], [], []⟩, Intents.step⟩

/-- The machine, from a state that a run has reached. -/
def intentsFrom (s : Intents) : Machine Intents IntentAction := ⟨s, Intents.step⟩

/-! ## How a document evolves -/

/-- The moves of the publication state. -/
inductive PublicationState.Move : PublicationState → PublicationState → Prop
  | requested : Move .notRequested .pending
  | completed : Move .pending .complete
  | cancelled : Move .pending .cancelled

/-- Any number of moves. -/
def PublicationState.Leads : PublicationState → PublicationState → Prop :=
  Relation.ReflTransGen PublicationState.Move

/-- What is consumed stays consumed. -/
theorem PublicationState.Leads.eq_of_settled {st st' : PublicationState} (h : st.Leads st')
    (hst : st = .complete ∨ st = .cancelled) : st' = st := by
  induction h with
  | refl => rfl
  | tail _ hmove ih =>
      subst ih
      cases hmove with
      | requested | completed | cancelled => simp at hst

/-- A later version of the metadata of an attempt. -/
structure AutomationMetadata.Evolves (m m' : AutomationMetadata) : Prop where
  state : m.publicationState.Leads m'.publicationState
  coordination : ∀ c, m.coordination = some c → m'.coordination = some c

theorem AutomationMetadata.Evolves.refl (m : AutomationMetadata) : m.Evolves m :=
  ⟨.refl, fun _ h => h⟩

theorem AutomationMetadata.Evolves.trans {m m' m'' : AutomationMetadata} (h : m.Evolves m')
    (h' : m'.Evolves m'') : m.Evolves m'' :=
  ⟨h.state.trans h'.state, fun c hc => h'.coordination c (h.coordination c hc)⟩

/-- The metadata answer an automatic request for publication: it is pending, or settled. -/
def Request.Served (r : Request) (m : AutomationMetadata) : Prop :=
  r.automatic = true → r.publishAfterSuccess = true → m.publicationState ≠ .notRequested

theorem Request.Served.evolve {r : Request} {m m' : AutomationMetadata} (h : r.Served m)
    (hevolves : m.Evolves m') : r.Served m' := by
  intro hautomatic hpublish
  have hrequested := h hautomatic hpublish
  have hleads := hevolves.state
  generalize m.publicationState = st at hrequested hleads
  generalize m'.publicationState = st' at hleads
  induction hleads with
  | refl => exact hrequested
  | tail _ hmove ih => cases hmove <;> nofun

theorem normalizeValidationAutomation_eq_ok {value m : AutomationMetadata} :
    normalizeValidationAutomation value = .ok m ↔ automationValid value = true ∧ value = m := by
  simp [normalizeValidationAutomation, map_eq_ok, refuse_eq_ok]

/-- Valid metadata are requested exactly when their state says so. -/
theorem state_of_valid {m : AutomationMetadata} (h : automationValid m = true) :
    m.publishAfterSuccess = true ↔ m.publicationState ≠ .notRequested := by
  simp only [automationValid, Bool.and_eq_true, decide_eq_true_eq] at h
  rw [h.1.2]

theorem newAutomation_spec {r : Request} {m : AutomationMetadata} (h : newAutomation r = .ok m) :
    automationValid m = true ∧ r.Served m := by
  obtain ⟨hvalid, rfl⟩ := normalizeValidationAutomation_eq_ok.1 h
  refine ⟨hvalid, ?_⟩
  intro hautomatic hpublish
  simp [hautomatic, hpublish]

/-- A merged request: nothing that was set is changed, and nothing that is asked for is lost. -/
theorem upgradeAutomation_spec {r : Request} {current m : AutomationMetadata}
    (hcurrent : automationValid current = true) (h : upgradeAutomation current r = .ok m) :
    automationValid m = true ∧ current.Evolves m ∧ r.Served m := by
  simp only [upgradeAutomation, bind_eq_ok, refuse_eq_ok, normalizeValidationAutomation_eq_ok] at h
  obtain ⟨_, hsame, hvalid, rfl⟩ := h
  have hrequested := state_of_valid hcurrent
  refine ⟨hvalid, ⟨?_, ?_⟩, ?_⟩
  · by_cases hpublish : current.publishAfterSuccess = true
    · rw [if_pos hpublish]
      exact .refl
    · rw [if_neg hpublish]
      have hnone : current.publicationState = .notRequested := by
        by_contra hne
        exact hpublish (hrequested.2 hne)
      rw [hnone]
      split
      · exact .single .requested
      · exact .refl
  · intro c hc
    cases hcontext : r.context with
    | none => simpa using hc
    | some context =>
        have heq : c = context := by
          by_contra hne
          exact hsame (by simp [hcontext, hc, hne])
        simp [heq]
  · intro _ hpublish
    by_cases hcurrent : current.publishAfterSuccess = true
    · rw [if_pos hcurrent]
      exact hrequested.1 hcurrent
    · simp [hcurrent, hpublish]

/-- A settled intent. -/
theorem settleIntent_spec {settled : PublicationState} {current m : AutomationMetadata}
    (hsettled : settled = .complete ∨ settled = .cancelled)
    (h : settleIntent settled current = .ok (some m)) :
    automationValid m = true ∧ current.Evolves m := by
  simp only [settleIntent, bind_eq_ok, normalizeValidationAutomation_eq_ok] at h
  obtain ⟨_, ⟨hvalid, rfl⟩, h⟩ := h
  split at h
  next hpending =>
    obtain rfl := Option.some.inj (pure_eq_ok.1 h)
    refine ⟨?_, ?_, fun _ hc => hc⟩
    · rcases hsettled with rfl | rfl <;> simpa [automationValid, hpending] using hvalid
    · rw [hpending]
      rcases hsettled with rfl | rfl
      · exact .single .completed
      · exact .single .cancelled
  · simp [pure_eq_ok] at h

/-! ## The invariant -/

/-- The request of an admission is answered by what is stored. -/
@[grind =] def Answered (stored : Dict String AutomationMetadata) (call : String × Request) : Prop :=
  ∃ m, stored.lookup call.1 = some m ∧ call.2.Served m

structure Consistent (s : Intents) : Prop where
  valid : ∀ id m, s.stored.lookup id = some m → automationValid m = true
  known : ∀ id, id ∈ s.stored → id ∈ s.allocated
  opening : ∀ call ∈ s.opening, Answered s.stored call ∧ call.1 ∉ s.admitted
  distinct : (s.opening.map Prod.fst).Nodup
  admitted : ∀ id ∈ s.admitted, id ∈ s.stored
  calls : ∀ call ∈ s.calls, call.1 ∈ s.admitted ∧ Answered s.stored call
  returned : ∀ call ∈ s.returned, call.1 ∈ s.admitted ∧ Answered s.stored call

/-- What a step makes of the stored metadata. -/
def Evolved (s s' : Intents) : Prop :=
  ∀ id m', s'.stored.lookup id = some m' →
    id ∉ s.allocated ∨ ∃ m, s.stored.lookup id = some m ∧ m.Evolves m'

variable {s s' : Intents} {id : String} {r : Request} {m : AutomationMetadata}

/-- The metadata of an attempt are rewritten. -/
theorem Consistent.insert (h : Consistent s) (hstored : s.stored.lookup id = some m)
    {m' : AutomationMetadata} (hvalid : automationValid m' = true) (hevolves : m.Evolves m') :
    Consistent { s with stored := s.stored.insert id m' } ∧
      Evolved s { s with stored := s.stored.insert id m' } := by
  have hmem : id ∈ s.stored := AList.lookup_isSome.1 (by simp [hstored])
  have hanswered : ∀ call, Answered s.stored call → Answered (s.stored.insert id m') call := by
    rintro call ⟨n, hn, hserved⟩
    by_cases heq : call.1 = id
    · obtain rfl := Option.some.inj (hstored.symm.trans (heq ▸ hn))
      exact ⟨m', by rw [heq, AList.lookup_insert], hserved.evolve hevolves⟩
    · exact ⟨n, by rw [AList.lookup_insert_ne heq, hn], hserved⟩
  have hlookup : ∀ i n, (s.stored.insert id m').lookup i = some n →
      i = id ∧ n = m' ∨ s.stored.lookup i = some n := by
    intro i n hn
    by_cases heq : i = id
    · rw [heq, AList.lookup_insert] at hn
      exact .inl ⟨heq, (Option.some.inj hn).symm⟩
    · rw [AList.lookup_insert_ne heq] at hn
      exact .inr hn
  have hkeys : ∀ i, i ∈ s.stored.insert id m' ↔ i = id ∨ i ∈ s.stored := fun i => AList.mem_insert _
  refine ⟨?_, ?_⟩
  · cases h
    constructor <;> grind -ring -linarith
  · intro i n hn
    rcases hlookup i n hn with ⟨rfl, rfl⟩ | hold
    · exact .inr ⟨m, hstored, hevolves⟩
    · exact .inr ⟨n, hold, .refl n⟩

theorem Evolved.of_eq (h : s'.stored = s.stored) : Evolved s s' := by
  intro i n hn
  rw [h] at hn
  exact .inr ⟨n, hn, .refl n⟩

theorem Consistent.rewrite {write : AutomationMetadata → Except Fault (Option AutomationMetadata)}
    (h : Consistent s)
    (hwrite : ∀ m m', write m = .ok (some m') → automationValid m' = true ∧ m.Evolves m') :
    Consistent (s.rewrite id write) ∧ Evolved s (s.rewrite id write) := by
  unfold Intents.rewrite
  split
  · exact ⟨h, .of_eq rfl⟩
  next current hcurrent =>
    split
    next metadata hmetadata =>
      obtain ⟨hvalid, hevolves⟩ := hwrite current metadata hmetadata
      exact h.insert hcurrent hvalid hevolves
    all_goals exact ⟨h, .of_eq rfl⟩

theorem Consistent.reuse (h : Consistent s) (hs : s.reuse id r = some s') :
    Consistent s' ∧ Evolved s s' := by
  unfold Intents.reuse at hs
  split at hs
  next hadmitted =>
    split at hs
    next hautomatic =>
      obtain ⟨current, hcurrent, hs⟩ := Option.bind_eq_some_iff.1 hs
      split at hs
      next upgraded hupgraded =>
        obtain rfl := Option.some.inj hs
        obtain ⟨hvalid, hevolves, hserved⟩ :=
          upgradeAutomation_spec (h.valid id current hcurrent) hupgraded
        obtain ⟨hconsistent, hevolved⟩ := h.insert hcurrent hvalid hevolves
        refine ⟨{ hconsistent with calls := ?_ }, hevolved⟩
        intro call hcall
        rcases List.mem_cons.1 hcall with rfl | hcall
        · exact ⟨hadmitted, upgraded, AList.lookup_insert _, hserved⟩
        · exact hconsistent.calls call hcall
      · exact nomatch hs
    next hmanual =>
      obtain rfl := Option.some.inj hs
      refine ⟨{ h with calls := ?_ }, .of_eq rfl⟩
      intro call hcall
      rcases List.mem_cons.1 hcall with rfl | hcall
      · obtain ⟨m, hm⟩ := Option.isSome_iff_exists.1 (AList.lookup_isSome.2 (h.admitted id hadmitted))
        exact ⟨hadmitted, m, hm, fun hautomatic => absurd hautomatic hmanual⟩
      · exact h.calls call hcall
  · exact nomatch hs

theorem Consistent.begin (h : Consistent s) (hs : s.step (.begin id r) = some s') :
    Consistent s' ∧ Evolved s s' := by
  simp only [Intents.step] at hs
  split at hs
  next metadata hmetadata =>
    split at hs
    · exact nomatch hs
    next hfresh =>
      obtain rfl := Option.some.inj hs
      obtain ⟨hvalid, hserved⟩ := newAutomation_spec hmetadata
      have hnew : id ∉ s.stored := fun hmem => hfresh (h.known id hmem)
      have hanswered : ∀ call, Answered s.stored call →
          Answered (s.stored.insert id metadata) call := by
        rintro call ⟨n, hn, hcall⟩
        have hne : call.1 ≠ id := by
          rintro rfl
          exact hnew (AList.lookup_isSome.1 (by simp [hn]))
        exact ⟨n, by rw [AList.lookup_insert_ne hne, hn], hcall⟩
      have hown : Answered (s.stored.insert id metadata) (id, r) :=
        ⟨metadata, AList.lookup_insert _, hserved⟩
      have hlookup : ∀ i n, (s.stored.insert id metadata).lookup i = some n →
          i = id ∧ n = metadata ∨ s.stored.lookup i = some n := by
        intro i n hn
        by_cases heq : i = id
        · rw [heq, AList.lookup_insert] at hn
          exact .inl ⟨heq, (Option.some.inj hn).symm⟩
        · rw [AList.lookup_insert_ne heq] at hn
          exact .inr hn
      have hkeys : ∀ i, i ∈ s.stored.insert id metadata ↔ i = id ∨ i ∈ s.stored :=
        fun i => AList.mem_insert _
      have hadmitted : id ∉ s.admitted := fun hmem => hnew (h.admitted id hmem)
      have hdistinct : (((id, r) :: s.opening).map Prod.fst).Nodup := by
        refine List.nodup_cons.2 ⟨?_, h.distinct⟩
        intro hmem
        obtain ⟨call, hcall, rfl⟩ := List.mem_map.1 hmem
        obtain ⟨n, hn, -⟩ := (h.opening call hcall).1
        exact hnew (AList.lookup_isSome.1 (by simp [hn]))
      refine ⟨?_, ?_⟩
      · cases h
        constructor <;> grind -ring -linarith
      · intro i n hn
        rcases hlookup i n hn with ⟨rfl, -⟩ | hold
        · exact .inl hfresh
        · exact .inr ⟨n, hold, .refl n⟩
  · exact nomatch hs

/-- The other admissions that are under way are about other attempts. -/
theorem Consistent.opened (h : Consistent s) (hopening : (id, r) ∈ s.opening) :
    (∀ call ∈ s.opening.erase (id, r), call ∈ s.opening ∧ call.1 ≠ id) ∧
      ((s.opening.erase (id, r)).map Prod.fst).Nodup := by
  refine ⟨?_, h.distinct.sublist (List.erase_sublist.map _)⟩
  intro call hcall
  have hmem := List.mem_of_mem_erase hcall
  refine ⟨hmem, ?_⟩
  intro heq
  have hsame : call = (id, r) := List.inj_on_of_nodup_map h.distinct hmem hopening heq
  have hnodup : s.opening.Nodup := List.Nodup.of_map _ h.distinct
  exact hnodup.not_mem_erase (hsame ▸ hcall)

theorem Consistent.fail (h : Consistent s) (hs : s.step (.fail id r) = some s') :
    Consistent s' ∧ Evolved s s' := by
  simp only [Intents.step] at hs
  split at hs
  next hopening =>
    obtain rfl := Option.some.inj hs
    have hadmitted := (h.opening _ hopening).2
    have hlookup : ∀ i, i ≠ id → (s.stored.erase id).lookup i = s.stored.lookup i :=
      fun i hne => AList.lookup_erase_ne hne
    have hgone : ∀ n, (s.stored.erase id).lookup id ≠ some n := by simp [AList.lookup_erase]
    have hkeys : ∀ i, i ∈ s.stored.erase id ↔ i ≠ id ∧ i ∈ s.stored := fun i => AList.mem_erase
    have hanswered : ∀ call : String × Request, call.1 ≠ id → Answered s.stored call →
        Answered (s.stored.erase id) call := by
      rintro call hne ⟨n, hn, hcall⟩
      exact ⟨n, by rw [hlookup _ hne, hn], hcall⟩
    obtain ⟨hothers, hdistinct⟩ := h.opened hopening
    refine ⟨?_, ?_⟩
    · cases h
      constructor <;> grind -ring -linarith
    · intro i n hn
      by_cases heq : i = id
      · exact absurd (heq ▸ hn) (hgone n)
      · rw [hlookup i heq] at hn
        exact .inr ⟨n, hn, .refl n⟩
  · exact nomatch hs

theorem Consistent.admitAttempt (h : Consistent s) (hs : s.step (.admitAttempt id r) = some s') :
    Consistent s' ∧ Evolved s s' := by
  simp only [Intents.step] at hs
  split at hs
  next hopening =>
    obtain rfl := Option.some.inj hs
    have hanswered := (h.opening _ hopening).1
    have hmem : id ∈ s.stored := by
      obtain ⟨n, hn, -⟩ := hanswered
      exact AList.lookup_isSome.1 (by simp [hn])
    obtain ⟨hothers, hdistinct⟩ := h.opened hopening
    refine ⟨?_, .of_eq rfl⟩
    cases h
    constructor <;> grind -ring -linarith
  · exact nomatch hs

theorem Consistent.step {action : IntentAction} (h : Consistent s) (hs : s.step action = some s') :
    Consistent s' ∧ Evolved s s' := by
  cases action with
  | begin id r => exact h.begin hs
  | fail id r => exact h.fail hs
  | admitAttempt id r => exact h.admitAttempt hs
  | reuse id r => exact h.reuse hs
  | complete id =>
      obtain rfl := Option.some.inj hs
      exact h.rewrite fun _ _ => settleIntent_spec (.inl rfl)
  | cancel id =>
      obtain rfl := Option.some.inj hs
      exact h.rewrite fun _ _ => settleIntent_spec (.inr rfl)
  | finish id r =>
      simp only [Intents.step] at hs
      split at hs
      next hcall =>
        obtain rfl := Option.some.inj hs
        refine ⟨?_, .of_eq rfl⟩
        have herase : ∀ call ∈ s.calls.erase (id, r), call ∈ s.calls :=
          fun _ h => List.mem_of_mem_erase h
        cases h
        constructor <;> grind -ring -linarith
      · exact nomatch hs
  | raise id r =>
      obtain rfl := Option.some.inj hs
      refine ⟨?_, .of_eq rfl⟩
      have herase : ∀ call ∈ s.calls.erase (id, r), call ∈ s.calls :=
        fun _ h => List.mem_of_mem_erase h
      cases h
      constructor <;> grind -ring -linarith
  | stop =>
      obtain rfl := Option.some.inj hs
      refine ⟨?_, .of_eq rfl⟩
      cases h
      constructor <;> grind -ring -linarith

/-! ## Every run -/

theorem Consistent.start : Consistent intents.start := by
  have hlookup : ∀ i, intents.start.stored.lookup i = none := fun _ => rfl
  have hstored : ∀ i, i ∉ intents.start.stored := fun i => AList.notMem_empty i
  have hempty : intents.start.opening = [] ∧ intents.start.calls = [] ∧
      intents.start.admitted = [] ∧ intents.start.returned = [] := ⟨rfl, rfl, rfl, rfl⟩
  constructor <;> grind -ring -linarith

theorem consistent_of_reach {ok : Intents → IntentAction → Prop} (h : intents.Reach ok s) :
    Consistent s :=
  h.inv .start fun _ _ _ hs _ hstep => (hs.step hstep).1

/-- What has become of the metadata of an attempt. -/
structure IntentAfter (id : String) (m : AutomationMetadata) (s : Intents) : Prop where
  consistent : Consistent s
  allocated : id ∈ s.allocated
  evolved : ∀ m', s.stored.lookup id = some m' → m.Evolves m'

theorem allocated_step {action : IntentAction} (hs : s.step action = some s')
    (hmem : id ∈ s.allocated) : id ∈ s'.allocated := by
  cases action with
  | begin i r =>
      simp only [Intents.step] at hs
      split at hs
      · split at hs
        · exact nomatch hs
        · obtain rfl := Option.some.inj hs
          exact List.mem_cons_of_mem _ hmem
      · exact nomatch hs
  | reuse i r =>
      simp only [Intents.step, Intents.reuse] at hs
      split at hs
      · split at hs
        · obtain ⟨current, -, hs⟩ := Option.bind_eq_some_iff.1 hs
          split at hs
          · obtain rfl := Option.some.inj hs
            exact hmem
          · exact nomatch hs
        · obtain rfl := Option.some.inj hs
          exact hmem
      · exact nomatch hs
  | complete i | cancel i =>
      obtain rfl := Option.some.inj hs
      unfold Intents.rewrite
      split
      · exact hmem
      · split <;> exact hmem
  | fail i r | admitAttempt i r | finish i r =>
      simp only [Intents.step] at hs
      split at hs
      · obtain rfl := Option.some.inj hs
        exact hmem
      · exact nomatch hs
  | raise i r =>
      obtain rfl := Option.some.inj hs
      exact hmem
  | stop =>
      obtain rfl := Option.some.inj hs
      exact hmem

theorem IntentAfter.step {action : IntentAction} (h : IntentAfter id m s)
    (hs : s.step action = some s') : IntentAfter id m s' := by
  obtain ⟨hconsistent, hevolved⟩ := h.consistent.step hs
  refine ⟨hconsistent, allocated_step hs h.allocated, ?_⟩
  intro m' hm'
  rcases hevolved id m' hm' with hfresh | ⟨n, hn, hevolves⟩
  · exact absurd h.allocated hfresh
  · exact (h.evolved n hn).trans hevolves

/-- A manual attempt that an automatic request for publication reuses, and that is published. -/
def sampleIntents : List IntentAction :=
  [.begin "v1" ⟨false, false, none⟩, .admitAttempt "v1" ⟨false, false, none⟩,
    .reuse "v1" ⟨true, true, none⟩, .finish "v1" ⟨true, true, none⟩]

end DebBuilder.Validation
