import Mathlib
import DebBuilder.Automation.Requests

/-!
# The invariant of automation

What holds of the ledger, of the Run workspaces and of the records of the past in every
state, part by part, and what each kind of change keeps of each part.  A row is changed by
the thread that holds the lock of its generation; a generation is added by a claim or by
an explicit retry.

## Main definitions

* `RowInv` — what a row says of its Run and of the evidence for its success.
* `RunInv` — what an automated Run says of its row.
* `Generations` — at most one generation of an attempt is live, retries of delayed ones
  apart.
* `Turns` — while a generation has its Run, the earlier ones of the Recipe have stopped.
* `Claimed` — the claims and the entries.
* `Inv` — the invariant.
-/

namespace DebBuilder.Automation
open Function

variable {cfg : Config}

/-! ## Rows and their evidence -/

/-- The stages behind the Run. -/
def Stage.downstream : Stage → Bool
  | .validationAdmission | .validation | .publication => true
  | .detection | .runAdmission | .run | .terminal => false

/-- The linked Run is a successful build, and there is more to do. -/
def Built (store : Store) (row : Row) : Prop :=
  (row.desiredPolicy = .buildValidate ∨ row.desiredPolicy = .full) ∧
    ∃ r, row.runId = some r ∧ RunIn store r .success

/-- What the policy of a row asks for has been done. -/
def Evidence (store : Store) (validations : RunId → List ValidationAttempt) (row : Row) : Prop :=
  ∃ r, row.runId = some r ∧
    match row.desiredPolicy with
    | .test => RunIn store r .prepared
    | .build => RunIn store r .success
    | .buildValidate => RunIn store r .success ∧
        ∃ id, row.validationAttemptId = some id ∧ ValidatedBy validations r id
    | .full => RunIn store r .success ∧
        (∃ id, row.validationAttemptId = some id ∧ ValidatedBy validations r id) ∧
        Published store r
    | .manual | .detect => False

/-- The success of a claim that was made without a Run. -/
def Row.Unbuilt (row : Row) : Prop :=
  (row.diagnostic = some "initial_baseline" ∨ row.diagnostic = some "detect_only_handled") ∧
    row.preallocatedRunId = none

/-- Why a row is a success. -/
def Earned (store : Store) (validations : RunId → List ValidationAttempt)
    (owners : List (Slot × RunId × RunStatus)) (slot : Slot) (row : Row) : Prop :=
  row.Unbuilt ∨
    (row.diagnostic = some "existing_run_owns_identity" ∧ ∃ r status, (slot, r, status) ∈ owners) ∨
    Evidence store validations row

/-- What a row says of its Run and of its success. -/
structure RowInv (store : Store) (validations : RunId → List ValidationAttempt)
    (owners : List (Slot × RunId × RunStatus)) (slot : Slot) (a : Attempt) (row : Row) : Prop where
  linked : ∀ r, row.runId = some r → ∃ doc, store r = .run doc ∧ bound a row doc = true
  built : row.stage.downstream = true ∨ row.validationAttemptId ≠ none → Built store row
  earned : row.terminalClassification = some .success → Earned store validations owners slot row

theorem Evidence.evolve {s s' : State cfg} {row : Row} (h : Evidence s.store s.validations row)
    (hev : Evolves s s') : Evidence s'.store s'.validations row := by
  obtain ⟨r, hlink, h⟩ := h
  refine ⟨r, hlink, ?_⟩
  cases hp : row.desiredPolicy with
  | manual | detect => simp [hp] at h
  | test | build => simp only [hp] at h ⊢; exact hev.runIn rfl h
  | buildValidate =>
      simp only [hp] at h ⊢
      obtain ⟨hrun, id, hid, hv⟩ := h
      exact ⟨hev.runIn rfl hrun, id, hid, hev.validatedBy hv⟩
  | full =>
      simp only [hp] at h ⊢
      obtain ⟨hrun, ⟨id, hid, hv⟩, hpub⟩ := h
      exact ⟨hev.runIn rfl hrun, ⟨id, hid, hev.validatedBy hv⟩, hev.published hpub⟩

theorem RowInv.mono {s s' : State cfg} (h : Evolves s s') {slot : Slot} {a : Attempt} {row : Row}
    (hr : RowInv s.store s.validations s.owners slot a row) :
    RowInv s'.store s'.validations s'.owners slot a row where
  linked r hlink := by
    obtain ⟨doc, hd, hb⟩ := hr.linked r hlink
    obtain ⟨doc', hd', hl⟩ := h.runs r doc hd
    exact ⟨doc', hd', by rw [hl.bound, hb]⟩
  built hdown := by
    obtain ⟨hpolicy, r, hlink, hrun⟩ := hr.built hdown
    exact ⟨hpolicy, r, hlink, h.runIn rfl hrun⟩
  earned hclass := by
    rcases hr.earned hclass with hu | ⟨hd, r, status, hmem⟩ | hev
    · exact .inl hu
    · exact .inr (.inl ⟨hd, r, status, h.owners.subset hmem⟩)
    · exact .inr (.inr (hev.evolve h))

/-! ## Runs and their rows -/

/-- How a generation may stop while its Run is pending. -/
def abandons : List (Classification × String) :=
  [(.disabled, "pending_run_admission_disabled"), (.disabled, "stale_claim_suppressed"),
    (.terminalFailure, "run_admission_failed"), (.blockedManual, "run_state_unavailable")]

/-- The generation stopped in one of these ways. -/
def Row.Abandons (row : Row) : Prop :=
  ∃ classification diagnostic, row.terminalClassification = some classification ∧
    row.diagnostic = some diagnostic ∧ (classification, diagnostic) ∈ abandons

/-- The Run belongs to the row. -/
structure Belongs (m : RunAutomation) (r : RunId) (a : Attempt) (row : Row) : Prop where
  preallocated : row.preallocatedRunId = some r
  policy : m.policy = row.desiredPolicy
  identity : m.expectedUpstreamIdentity = a.upstreamIdentity

/-- The generation that the metadata of a Run names. -/
def runSlot (m : RunAutomation) : Slot := (m.attemptKey, m.generation)

/-- What a Run document says of itself and of the ledger. -/
structure RunInv (attempts : List Entry) (created : List (Slot × RunId)) (r : RunId)
    (doc : Run) : Prop where
  id : doc.id = r
  automated : ∀ m, doc.automation = some m → (runSlot m, r) ∈ created ∧
    ∃ a row, findRow attempts (runSlot m) = some (a, row) ∧ Belongs m r a row ∧
      (doc.status = .pending → row.live = true ∨ row.Abandons)

/-- The record of the Runs that were created. -/
structure CreatedInv (store : Store) (created : List (Slot × RunId)) : Prop where
  once : (created.map Prod.fst).Nodup
  there : ∀ slot r, (slot, r) ∈ created →
    ∃ doc m, store r = .run doc ∧ doc.automation = some m ∧ runSlot m = slot

/-- The record of the Runs that were found to own an identity. -/
def OwnersInv (attempts : List Entry) (store : Store)
    (owners : List (Slot × RunId × RunStatus)) : Prop :=
  ∀ slot r status, (slot, r, status) ∈ owners → status ∈ owningStatuses ∧
    ∃ a row doc, findRow attempts slot = some (a, row) ∧ store r = .run doc ∧
      sharesIdentity a row doc = true

theorem RunLater.sharesIdentity {old new : Run} (h : RunLater old new) (a : Attempt) (row : Row) :
    sharesIdentity a row new = sharesIdentity a row old := by
  obtain ⟨-, h₂, -, h₄, -, -, h₇, h₈, -⟩ := runLater_iff.1 h
  simp [Automation.sharesIdentity, h₂, h₄, h₇, h₈]

theorem Row.Later.sharesIdentity {row row' : Row} (h : row.Later row') (a : Attempt) (run : Run) :
    sharesIdentity a row' run = sharesIdentity a row run := by
  simp [Automation.sharesIdentity, h.policy]

section Rows
variable {attempts attempts' : List Entry} {slot : Slot} {a : Attempt} {row row' : Row}
  {store : Store} {created : List (Slot × RunId)} {owners : List (Slot × RunId × RunStatus)}

/-- The Runs when a row moves on.  A pending Run of a row that stops has to be one that it
may abandon. -/
theorem RunInv.put (hset : Sets attempts slot a row' attempts')
    (hrow : findRow attempts slot = some (a, row)) (hlater : row.Later row') {r : RunId} {doc : Run}
    (hstop : doc.automation.map runSlot = some slot → doc.status = .pending →
      row.live = true ∨ row.Abandons → row'.live = true ∨ row'.Abandons)
    (h : RunInv attempts created r doc) : RunInv attempts' created r doc where
  id := h.id
  automated m hm := by
    obtain ⟨hcreated, b, rb, hb, hbelongs, hpending⟩ := h.automated m hm
    refine ⟨hcreated, ?_⟩
    by_cases heq : runSlot m = slot
    · rw [heq, hrow, Option.some.injEq, Prod.mk.injEq] at hb
      obtain ⟨rfl, rfl⟩ := hb
      exact ⟨a, row', heq ▸ hset.self, ⟨hlater.preallocated r hbelongs.preallocated,
        hbelongs.policy.trans hlater.policy.symm, hbelongs.identity⟩,
        fun hp => hstop (by simp [hm, heq]) hp (hpending hp)⟩
    · exact ⟨b, rb, by rw [hset.other heq, hb], hbelongs, hpending⟩

/-- The Runs when a generation is added. -/
theorem RunInv.add (hset : Sets attempts slot a row' attempts')
    (hnew : findRow attempts slot = none) {r : RunId} {doc : Run}
    (h : RunInv attempts created r doc) : RunInv attempts' created r doc where
  id := h.id
  automated m hm := by
    obtain ⟨hcreated, b, rb, hb, hbelongs, hpending⟩ := h.automated m hm
    have hne : runSlot m ≠ slot := by
      rintro heq
      simp [heq, hnew] at hb
    exact ⟨hcreated, b, rb, by rw [hset.other hne, hb], hbelongs, hpending⟩

theorem OwnersInv.put (hset : Sets attempts slot a row' attempts')
    (hrow : findRow attempts slot = some (a, row)) (hlater : row.Later row')
    (h : OwnersInv attempts store owners) : OwnersInv attempts' store owners := by
  intro s r status hmem
  obtain ⟨hstatus, b, rb, doc, hb, hdoc, hshare⟩ := h s r status hmem
  refine ⟨hstatus, ?_⟩
  by_cases heq : s = slot
  · rw [heq, hrow, Option.some.injEq, Prod.mk.injEq] at hb
    obtain ⟨rfl, rfl⟩ := hb
    exact ⟨a, row', doc, heq ▸ hset.self, hdoc, by rw [hlater.sharesIdentity, hshare]⟩
  · exact ⟨b, rb, doc, by rw [hset.other heq, hb], hdoc, hshare⟩

theorem OwnersInv.add (hset : Sets attempts slot a row' attempts')
    (hnew : findRow attempts slot = none) (h : OwnersInv attempts store owners) :
    OwnersInv attempts' store owners := by
  intro s r status hmem
  obtain ⟨hstatus, b, rb, doc, hb, hdoc, hshare⟩ := h s r status hmem
  have hne : s ≠ slot := by
    rintro heq
    simp [heq, hnew] at hb
  exact ⟨hstatus, b, rb, doc, by rw [hset.other hne, hb], hdoc, hshare⟩

theorem isSome_findRow (hset : Sets attempts slot a row' attempts') {slot' : Slot}
    (h : (findRow attempts slot').isSome = true) : (findRow attempts' slot').isSome = true := by
  rw [hset slot']
  split
  · rfl
  · exact h

/-! ## The generations of one attempt -/

/-- The retries and the generations: a retry answers with the generation after the one
that was observed, and only one retry creates it; what it leaves behind is live only when
it waited for a retry of its own. -/
structure Generations (attempts : List Entry) (retries : List Retry) : Prop where
  once : ((retries.filter (·.created)).map fun r => (r.key, r.observed)).Nodup
  next : ∀ r ∈ retries, r.generation = r.observed + 1 ∧
    (findRow attempts (r.key, r.generation)).isSome = true
  superseded : ∀ key n, (findRow attempts (key, n + 1)).isSome = true →
    ∃ r ∈ retries, r.created = true ∧ r.key = key ∧ r.observed = n ∧
      ∀ a row, findRow attempts (key, n) = some (a, row) → row.live = true →
        r.latest = .retryDelayed

theorem Row.Later.live {row row' : Row} (h : row.Later row') (hl : row'.live = true) :
    row.live = true := by
  by_contra hs
  simp only [Row.live, Bool.not_eq_true', Bool.not_eq_false] at hl hs
  exact absurd (h.keeps_stopped hs) (by simp [hl])

variable {retries : List Retry}

theorem Generations.put (hset : Sets attempts slot a row' attempts')
    (hrow : findRow attempts slot = some (a, row)) (hlater : row.Later row')
    (h : Generations attempts retries) : Generations attempts' retries where
  once := h.once
  next r hr := ⟨(h.next r hr).1, isSome_findRow hset (h.next r hr).2⟩
  superseded key n hn := by
    have hold : (findRow attempts (key, n + 1)).isSome = true := by
      rw [hset] at hn
      split at hn
      · rename_i heq
        rw [heq, hrow]
        rfl
      · exact hn
    obtain ⟨r, hr, hc, hkey, hobs, hlive⟩ := h.superseded key n hold
    refine ⟨r, hr, hc, hkey, hobs, fun b rb hb hl => ?_⟩
    rcases hset.cases hb with ⟨heq, rfl, rfl⟩ | ⟨-, hb⟩
    · exact hlive b row (heq ▸ hrow) (hlater.live hl)
    · exact hlive b rb hb hl

/-- A claim adds the first generation of an attempt. -/
theorem Generations.claim {key : AttemptKey} (hset : Sets attempts (key, 0) a row' attempts')
    (hnew : findRow attempts (key, 0) = none) (h : Generations attempts retries) :
    Generations attempts' retries where
  once := h.once
  next r hr := ⟨(h.next r hr).1, isSome_findRow hset (h.next r hr).2⟩
  superseded key' n hn := by
    rw [hset.other (by simp)] at hn
    obtain ⟨r, hr, hc, hkey, hobs, hlive⟩ := h.superseded key' n hn
    refine ⟨r, hr, hc, hkey, hobs, fun b rb hb hl => ?_⟩
    rcases hset.cases hb with ⟨heq, -, -⟩ | ⟨-, hb⟩
    · obtain ⟨rfl, rfl⟩ := Prod.mk.inj heq
      simpa [hnew] using isSome_findRow_of_le (Nat.zero_le _) hn
    · exact hlive b rb hb hl

/-- A retry adds a generation after the latest one, which has stopped or is delayed. -/
theorem Generations.retry {key : AttemptKey} {n : Nat} {b : Attempt} {latest : Row}
    (hset : Sets attempts (key, n + 1) a row' attempts')
    (hnew : findRow attempts (key, n + 1) = none)
    (hlatest : findRow attempts (key, n) = some (b, latest))
    (hdelayed : latest.live = true → latest.state = .retryDelayed)
    (h : Generations attempts retries) :
    Generations attempts' (⟨key, n, latest.state, n + 1, true⟩ :: retries) where
  once := by
    simp only [List.filter_cons_of_pos, List.map_cons, List.nodup_cons, List.mem_map]
    refine ⟨?_, h.once⟩
    rintro ⟨r, hr, heq⟩
    obtain ⟨hkey, hobs⟩ := Prod.mk.inj heq
    obtain ⟨hgen, hsome⟩ := h.next r (List.mem_of_mem_filter hr)
    rw [hgen, hkey, hobs, hnew] at hsome
    simp at hsome
  next r hr := by
    rcases List.mem_cons.1 hr with rfl | hr
    · exact ⟨rfl, by rw [hset.self]; rfl⟩
    · exact ⟨(h.next r hr).1, isSome_findRow hset (h.next r hr).2⟩
  superseded key' m hm := by
    by_cases heq : (key', m + 1) = (key, n + 1)
    · obtain ⟨rfl, hmn⟩ := Prod.mk.inj heq
      obtain rfl : m = n := by omega
      refine ⟨_, List.mem_cons_self, rfl, rfl, rfl, fun c rc hc hl => ?_⟩
      rw [hset.other (by simp), hlatest, Option.some.injEq, Prod.mk.injEq] at hc
      obtain ⟨-, rfl⟩ := hc
      exact hdelayed hl
    · rw [hset.other heq] at hm
      obtain ⟨r, hr, hc, hkey, hobs, hlive⟩ := h.superseded key' m hm
      refine ⟨r, List.mem_cons_of_mem _ hr, hc, hkey, hobs, fun c rc hrc hl => ?_⟩
      rcases hset.cases hrc with ⟨heq', -, -⟩ | ⟨-, hrc⟩
      · obtain ⟨rfl, rfl⟩ := Prod.mk.inj heq'
        simpa [hnew] using isSome_findRow_of_le (Nat.le_succ _) hm
      · exact hlive c rc hrc hl

/-- A duplicate retry is answered with the generation that is there. -/
theorem Generations.duplicate {key : AttemptKey} {n : Nat} {state : RowState}
    (hsome : (findRow attempts (key, n + 1)).isSome = true) (h : Generations attempts retries) :
    Generations attempts (⟨key, n, state, n + 1, false⟩ :: retries) where
  once := by simpa using h.once
  next r hr := by
    rcases List.mem_cons.1 hr with rfl | hr
    · exact ⟨rfl, hsome⟩
    · exact h.next r hr
  superseded key' m hm := by
    obtain ⟨r, hr, hrest⟩ := h.superseded key' m hm
    exact ⟨r, List.mem_cons_of_mem _ hr, hrest⟩

/-! ## The order of a Recipe -/

/-- The record of the instants at which the generations were created. -/
def Births (attempts : List Entry) (births : List (Slot × Time)) : Prop :=
  ∀ slot t, (slot, t) ∈ births ↔ ∃ a row, findRow attempts slot = some (a, row) ∧ row.createdAt = t

/-- Each generation got a later instant than the ones before it. -/
def Clocked (births : List (Slot × Time)) : Prop := births.Pairwise fun new old => old.2 < new.2

/-- The generations of the Recipe that were created before this row have stopped. -/
def Leads (attempts : List Entry) (a : Attempt) (row : Row) : Prop :=
  ∀ slot' a' row', findRow attempts slot' = some (a', row') → a'.recipeId = a.recipeId →
    row'.createdAt < row.createdAt → row'.state.stopped = true

/-- A generation that has its Run leads its Recipe. -/
def Turns (attempts : List Entry) (births : List (Slot × Time)) : Prop :=
  Clocked births → ∀ slot a row, findRow attempts slot = some (a, row) → row.runId ≠ none →
    Leads attempts a row

variable {births : List (Slot × Time)}

theorem Births.put (hset : Sets attempts slot a row' attempts')
    (hrow : findRow attempts slot = some (a, row)) (hlater : row.Later row')
    (h : Births attempts births) : Births attempts' births := by
  intro slot' t
  rw [h slot' t, hset slot']
  split
  · rename_i heq
    simp [heq, hrow, hlater.createdAt]
  · rfl

theorem Births.add (hset : Sets attempts slot a row' attempts')
    (hnew : findRow attempts slot = none) (h : Births attempts births) :
    Births attempts' ((slot, row'.createdAt) :: births) := by
  intro slot' t
  rw [List.mem_cons, h slot' t, hset slot', Prod.mk.injEq]
  split
  · rename_i heq
    simp [heq, hnew, eq_comm]
  · rename_i hne
    simp [hne]

theorem Leads.put (hset : Sets attempts slot a row' attempts')
    (hrow : findRow attempts slot = some (a, row)) (hlater : row.Later row') {b : Attempt} {rb : Row}
    (h : Leads attempts b rb) : Leads attempts' b rb := by
  intro slot' c rc hc hrecipe hlt
  rcases hset.cases hc with ⟨-, rfl, rfl⟩ | ⟨-, hc⟩
  · exact hlater.keeps_stopped (h slot c row hrow hrecipe (by rwa [← hlater.createdAt]))
  · exact h slot' c rc hc hrecipe hlt

theorem Turns.put (hset : Sets attempts slot a row' attempts')
    (hrow : findRow attempts slot = some (a, row)) (hlater : row.Later row')
    (hlink : row'.runId ≠ none → row.runId ≠ none ∨ (Clocked births → Leads attempts a row))
    (h : Turns attempts births) : Turns attempts' births := by
  intro hclock slot' b rb hb hlinked
  rcases hset.cases hb with ⟨-, rfl, rfl⟩ | ⟨-, hb⟩
  · have hleads : Leads attempts b row :=
      (hlink hlinked).elim (h hclock slot b row hrow) fun h => h hclock
    intro slot'' c rc hc hrecipe hlt
    exact hleads.put hset hrow hlater slot'' c rc hc hrecipe (by rwa [← hlater.createdAt])
  · exact (h hclock slot' b rb hb hlinked).put hset hrow hlater

theorem Turns.add (hset : Sets attempts slot a row' attempts')
    (hbirths : Births attempts births) (hlink : row'.runId = none) (h : Turns attempts births) :
    Turns attempts' ((slot, row'.createdAt) :: births) := by
  intro hclock slot' b rb hb hlinked
  obtain ⟨hlatest, hclock⟩ := List.pairwise_cons.1 hclock
  rcases hset.cases hb with ⟨-, rfl, rfl⟩ | ⟨-, hb⟩
  · exact absurd hlink hlinked
  · intro slot'' c rc hc hrecipe hlt
    rcases hset.cases hc with ⟨-, rfl, rfl⟩ | ⟨-, hc⟩
    · have := hlatest _ ((hbirths slot' rb.createdAt).2 ⟨b, rb, hb, rfl⟩)
      exact absurd hlt (Nat.lt_asymm this)
    · exact h hclock slot' b rb hb hlinked slot'' c rc hc hrecipe hlt

/-! ## Claims -/

/-- A generation that never gets a Run. -/
structure Row.Unadmitted (row : Row) : Prop where
  stopped : row.state.stopped = true
  run : row.runId = none
  preallocated : row.preallocatedRunId = none

/-- No attempt of the same revision was created before this claim. -/
def Claim.First (c : Claim) (earlier : List Claim) : Prop :=
  ∀ d ∈ earlier, d.created = true →
    ¬ (d.attempt.recipeId = c.attempt.recipeId ∧ d.attempt.recipeSha256 = c.attempt.recipeSha256)

/-- The claims and the attempts that they created. -/
structure Claimed (attempts : List Entry) (claims : List Claim) : Prop where
  once : ((claims.filter (·.created)).map (·.attempt.key)).Nodup
  known : ∀ c ∈ claims, (findRow attempts (c.attempt.key, 0)).isSome = true
  entries : ∀ key a row, findRow attempts (key, 0) = some (a, row) →
    ∃ c ∈ claims, c.created = true ∧ c.attempt = a
  kept : ∀ c ∈ claims, c.created = true →
    ∃ row, findRow attempts (c.attempt.key, 0) = some (c.attempt, row) ∧
      (c.state = .terminal → row.Unadmitted)
  baseline : ∀ c earlier, c :: earlier <:+ claims → c.created = true →
    (c.state = .terminal ↔ c.policy = .detect ∨ c.baselineOnFirst = true ∧ c.First earlier)

theorem Row.Unadmitted.later {row row' : Row} (h : row.Unadmitted) (hlater : row.Later row') :
    row'.Unadmitted := by
  have heq := hlater.stopped h.stopped
  exact ⟨hlater.keeps_stopped h.stopped, by rw [heq]; exact h.run, by rw [heq]; exact h.preallocated⟩

variable {claims : List Claim}

theorem Claimed.put (hset : Sets attempts slot a row' attempts')
    (hrow : findRow attempts slot = some (a, row)) (hlater : row.Later row')
    (h : Claimed attempts claims) : Claimed attempts' claims where
  once := h.once
  known c hc := isSome_findRow hset (h.known c hc)
  entries key b rb hb := by
    rcases hset.cases hb with ⟨heq, rfl, -⟩ | ⟨-, hb⟩
    · exact h.entries key b row (heq ▸ hrow)
    · exact h.entries key b rb hb
  kept c hc hcreated := by
    obtain ⟨rc, hrc, hun⟩ := h.kept c hc hcreated
    by_cases heq : (c.attempt.key, 0) = slot
    · rw [heq, hrow, Option.some.injEq, Prod.mk.injEq] at hrc
      obtain ⟨rfl, rfl⟩ := hrc
      exact ⟨row', by rw [heq, hset.self], fun hs => (hun hs).later hlater⟩
    · exact ⟨rc, by rw [hset.other heq, hrc], hun⟩
  baseline := h.baseline

/-- A retry adds no attempt. -/
theorem Claimed.retry {key : AttemptKey} {n : Nat} (hset : Sets attempts (key, n + 1) a row' attempts')
    (h : Claimed attempts claims) : Claimed attempts' claims where
  once := h.once
  known c hc := isSome_findRow hset (h.known c hc)
  entries key' b rb hb := by
    rw [hset.other (by simp)] at hb
    exact h.entries key' b rb hb
  kept c hc hcreated := by
    obtain ⟨rc, hrc, hun⟩ := h.kept c hc hcreated
    exact ⟨rc, by rw [hset.other (by simp), hrc], hun⟩
  baseline := h.baseline

/-- A claim of an attempt that is there already. -/
theorem Claimed.again {c : Claim} (hcreated : c.created = false)
    (hsome : (findRow attempts (c.attempt.key, 0)).isSome = true) (h : Claimed attempts claims) :
    Claimed attempts (c :: claims) where
  once := by simpa [hcreated] using h.once
  known d hd := by
    rcases List.mem_cons.1 hd with rfl | hd
    · exact hsome
    · exact h.known d hd
  entries key b rb hb := by
    obtain ⟨d, hd, hrest⟩ := h.entries key b rb hb
    exact ⟨d, List.mem_cons_of_mem c hd, hrest⟩
  kept d hd hd' := by
    rcases List.mem_cons.1 hd with rfl | hd
    · simp [hcreated] at hd'
    · exact h.kept d hd hd'
  baseline d earlier hsuffix hd' := by
    rcases List.suffix_cons_iff.1 hsuffix with heq | hsuffix
    · obtain ⟨rfl, -⟩ := List.cons.inj heq
      simp [hcreated] at hd'
    · exact h.baseline d earlier hsuffix hd'

/-- A claim that creates its attempt. -/
theorem Claimed.add {c : Claim} (hset : Sets attempts (c.attempt.key, 0) c.attempt row' attempts')
    (hnew : findRow attempts (c.attempt.key, 0) = none) (hcreated : c.created = true)
    (hrow : c.state = .terminal → row'.Unadmitted)
    (hstate : c.state = .terminal ↔
      c.policy = .detect ∨ c.baselineOnFirst = true ∧ c.First claims)
    (h : Claimed attempts claims) : Claimed attempts' (c :: claims) where
  once := by
    simp only [hcreated, List.filter_cons_of_pos, List.map_cons, List.nodup_cons, List.mem_map]
    refine ⟨?_, h.once⟩
    rintro ⟨d, hd, hkey⟩
    have := h.known d (List.mem_of_mem_filter hd)
    simp [hkey, hnew] at this
  known d hd := by
    rcases List.mem_cons.1 hd with rfl | hd
    · rw [hset.self]; rfl
    · exact isSome_findRow hset (h.known d hd)
  entries key b rb hb := by
    rcases hset.cases hb with ⟨-, rfl, -⟩ | ⟨-, hb⟩
    · exact ⟨c, List.mem_cons_self, hcreated, rfl⟩
    · obtain ⟨d, hd, hrest⟩ := h.entries key b rb hb
      exact ⟨d, List.mem_cons_of_mem c hd, hrest⟩
  kept d hd hd' := by
    rcases List.mem_cons.1 hd with rfl | hd
    · exact ⟨row', hset.self, hrow⟩
    · obtain ⟨rd, hrd, hun⟩ := h.kept d hd hd'
      have hne : (d.attempt.key, 0) ≠ (c.attempt.key, 0) := by
        intro heq
        simp [heq, hnew] at hrd
      exact ⟨rd, by rw [hset.other hne, hrd], hun⟩
  baseline d earlier hsuffix hd' := by
    rcases List.suffix_cons_iff.1 hsuffix with heq | hsuffix
    · obtain ⟨rfl, rfl⟩ := List.cons.inj heq
      exact hstate
    · exact h.baseline d earlier hsuffix hd'

end Rows

/-! ## The invariant -/

/-- The invariant of every reachable state. -/
structure Inv (s : State cfg) : Prop where
  keys : (s.ledger.attempts.map (·.key)).Nodup
  rows : ∀ slot a row, s.row? slot = some (a, row) →
    RowInv s.store s.validations s.owners slot a row
  runs : ∀ r doc, s.store r = .run doc → RunInv s.ledger.attempts s.created r doc
  created : CreatedInv s.store s.created
  owners : OwnersInv s.ledger.attempts s.store s.owners
  issued : ∀ i ∈ s.issued, i.accepted = true ↔ i.Benign cfg
  generations : Generations s.ledger.attempts s.retries
  births : Births s.ledger.attempts s.births
  turns : Turns s.ledger.attempts s.births
  claimed : Claimed s.ledger.attempts s.claims

end DebBuilder.Automation
