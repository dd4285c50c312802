import Mathlib
import DebBuilder.Auth.Sessions

/-!
# Sessions over whole runs

Each row of the dictionary was put there by one step of the run: a pending state by the redirect
that issued it, a session by the callback that consumed its state.  The invariant says which, and
that the sessions that are gone have been logged out or are a day old.

## Main definitions

* `Clear`, `Fine` — the steps and headers at which the code does what is claimed.
* `Consistent` — the invariant.

## Main results

* `sessions_safe` — in runs of such steps all that is claimed holds.
-/

namespace DebBuilder.Auth
open Lib

-- Texts are decided along their characters, not over all characters there are.
attribute [local instance (2000)] List.decidableBAll List.decidableBEx

/-! ## Where the code does what is claimed -/

/-- A return path that is taken over has no second slash of either kind in the browser. -/
def PlainReturn (returnTo : String) : Prop :=
  ['/'] <+: returnTo.toList → ['/', '/'] <+: returnTo.toList ∨ ((browserText returnTo.toList).drop 1).head?.any slash = false

/-- No state is consumed at the very moment of its expiry, and return paths are plain. -/
def Clear (p : Point) : Action → Prop
  | .authorize returnTo _ _ _ => PlainReturn returnTo
  | .consume state _ => ∀ row, p.1.sessions.lookup (stateKey state) = some row → row.expires ≠ p.1.now
  | _ => True

/-- The signature of the cookie is in ASCII, and its session does not expire at this very moment. -/
def Fine (mac : Mac) (s : State) (headers : Headers) : Prop :=
  Comparable (sessionCookie headers) ∧
    ∀ sid row, sessionCookie headers = signValue mac sid → s.sessions.lookup sid = some row → row.expires ≠ s.now

variable {mac : Mac} {p q : Point} {s : State} {history more : List Event} {headers : Headers}
  {sid state nonce codeVerifier returnTo key : String} {moment : Time} {row : Row}

/-! ## Redirects -/

theorem browserText_slash (rest : List Char) : ∃ later, browserText ('/' :: rest) = '/' :: later := by
  rw [browserText, List.dropWhile_cons_of_neg (by simp)]
  obtain ⟨after, hafter⟩ := List.rdropWhile_prefix (fun c : Char => decide (c.toNat ≤ 32)) ('/' :: rest)
  cases htext : ('/' :: rest).rdropWhile fun c : Char => decide (c.toNat ≤ 32) with
  | nil =>
      rw [List.rdropWhile_eq_nil_iff] at htext
      exact absurd (htext '/' List.mem_cons_self) (by decide)
  | cons c cs =>
      rw [htext, List.cons_append] at hafter
      obtain rfl : c = '/' := (List.cons.inj hafter).1
      exact ⟨_, List.filter_cons_of_pos (by decide)⟩

/-- A location that begins with one slash stays on the origin. -/
theorem staysOnOrigin_slash {location : String} (hslash : ['/'] <+: location.toList)
    (hnext : ((browserText location.toList).drop 1).head?.any slash = false) : staysOnOrigin location = true := by
  obtain ⟨rest, hrest⟩ := hslash
  obtain ⟨later, hlater⟩ := browserText_slash rest
  rw [List.singleton_append] at hrest
  rw [← hrest, hlater, List.drop_one, List.tail_cons] at hnext
  have hscheme : hasScheme ('/' :: later) = false := by
    rw [hasScheme]
    exact Bool.and_eq_false_imp.2 fun hhead => absurd hhead (by simp [show Char.isAlpha '/' = false by decide])
  have htwo : (decide (('/' :: later).length ≥ 2) && (('/' :: later).take 2).all slash) = false := by
    cases later with
    | nil => rfl
    | cons d ds =>
        have hd : slash d = false := by simpa using hnext
        simp [hd]
  simp only [staysOnOrigin, ← hrest, hlater, hscheme, htwo]
  rfl

theorem staysOnOrigin_safeReturn (h : PlainReturn returnTo) :
    staysOnOrigin (safeReturn returnTo) = true ∧ safeReturn returnTo ≠ "" := by
  rw [safeReturn]
  by_cases hsafe : (['/'].isPrefixOf returnTo.toList && !(['/', '/'].isPrefixOf returnTo.toList)) = true
  · rw [if_pos hsafe]
    rw [Bool.and_eq_true, List.isPrefixOf_iff_prefix, Bool.not_eq_true', ← Bool.not_eq_true,
      List.isPrefixOf_iff_prefix] at hsafe
    refine ⟨staysOnOrigin_slash hsafe.1 ((h hsafe.1).resolve_left hsafe.2), ?_⟩
    rintro rfl
    exact absurd hsafe.1 (by decide)
  · rw [if_neg hsafe]
    decide +kernel

/-! ## The invariant -/

/-- The row that was put in when the state was issued. -/
def IssuedRow (history : List Event) (state : String) (row : Row) : Prop :=
  ∃ returnTo nonce codeVerifier issue, row = .pending returnTo nonce codeVerifier (issue + 600) ∧
    .issued state nonce codeVerifier issue ∈ history ∧ staysOnOrigin returnTo = true ∧ returnTo ≠ ""

/-- The row that was put in when the session was created. -/
def SessionRow (history : List Event) (sid : String) (row : Row) : Prop :=
  ∃ user state nonce codeVerifier moment, row = .session user (moment + 86400) ∧ user.truthy = true ∧
    .created sid state nonce codeVerifier moment ∈ history ∧ .loggedOut sid ∉ history

/-- What a history may go on with. -/
def EventFits (history : List Event) : Event → Prop
  | .issued .. => True
  | .consumed state _ => state ∉ history.filterMap consumedState ∧
      ∃ nonce codeVerifier issue, .issued state nonce codeVerifier issue ∈ history
  | .created sid state nonce codeVerifier _ => IsToken sid ∧ state ∉ history.filterMap createdState ∧
      ∃ issue consumption, .issued state nonce codeVerifier issue ∈ history ∧ .consumed state consumption ∈ history ∧
        consumption < issue + 600
  | .redirected location => staysOnOrigin location = true
  | .loggedOut sid => ∃ state nonce codeVerifier moment, .created sid state nonce codeVerifier moment ∈ history

/-- What is true of the events of every run. -/
structure Recorded (history : List Event) : Prop where
  issued : ∀ state ∈ history.filterMap consumedState, ∃ nonce codeVerifier issue, .issued state nonce codeVerifier issue ∈ history
  tokens : ∀ sid state nonce codeVerifier moment, .created sid state nonce codeVerifier moment ∈ history → IsToken sid
  /-- Who was logged out had a session. -/
  loggedOut : ∀ sid, .loggedOut sid ∈ history →
    ∃ state nonce codeVerifier moment, .created sid state nonce codeVerifier moment ∈ history
  earned : ∀ sid state nonce codeVerifier moment, .created sid state nonce codeVerifier moment ∈ history →
    ∃ issue consumption, .issued state nonce codeVerifier issue ∈ history ∧ .consumed state consumption ∈ history ∧
      consumption < issue + 600
  once : (history.filterMap consumedState).Nodup ∧ (history.filterMap createdState).Nodup
  redirects : ∀ location, .redirected location ∈ history → staysOnOrigin location = true

structure Consistent (p : Point) : Prop where
  recorded : Recorded p.2
  rows : ∀ key row, p.1.sessions.lookup key = some row →
    (∃ state, key = stateKey state ∧ IssuedRow p.2 state row ∧ state ∉ p.2.filterMap consumedState) ∨ SessionRow p.2 key row
  exchanges : ∀ state row, p.1.exchanging.lookup state = some row → IssuedRow p.2 state row ∧
    (∃ consumption, .consumed state consumption ∈ p.2 ∧ consumption < row.expires) ∧ state ∉ p.2.filterMap createdState
  /-- A session that is not there has been logged out or is a day old. -/
  kept : ∀ sid state nonce codeVerifier moment, .created sid state nonce codeVerifier moment ∈ p.2 →
    .loggedOut sid ∈ p.2 ∨ moment + 86400 < p.1.now ∨
      ∃ user, p.1.sessions.lookup sid = some (.session user (moment + 86400)) ∧ user.truthy = true

theorem Recorded.concat {e : Event} (h : Recorded history) (hfits : EventFits history e) : Recorded (history ++ [e]) := by
  constructor
  · intro state hstate
    rw [List.filterMap_append, List.mem_append] at hstate
    rcases hstate with hold | hnew
    · obtain ⟨nonce, codeVerifier, issue, hissued⟩ := h.issued state hold
      exact ⟨nonce, codeVerifier, issue, List.mem_append_left _ hissued⟩
    · cases e with
      | consumed state' moment =>
          obtain rfl : state = state' := by simpa [consumedState] using hnew
          obtain ⟨nonce, codeVerifier, issue, hissued⟩ := hfits.2
          exact ⟨nonce, codeVerifier, issue, List.mem_append_left _ hissued⟩
      | issued | created | redirected | loggedOut => simp [consumedState] at hnew
  · intro sid state nonce codeVerifier moment hcreated
    rcases List.mem_append.1 hcreated with hold | hnew
    · exact h.tokens sid state nonce codeVerifier moment hold
    · obtain rfl := List.mem_singleton.1 hnew
      exact hfits.1
  · intro sid hlogged
    rcases List.mem_append.1 hlogged with hold | hnew
    · obtain ⟨state, nonce, codeVerifier, moment, hcreated⟩ := h.loggedOut sid hold
      exact ⟨state, nonce, codeVerifier, moment, List.mem_append_left _ hcreated⟩
    · obtain rfl := List.mem_singleton.1 hnew
      obtain ⟨state, nonce, codeVerifier, moment, hcreated⟩ := hfits
      exact ⟨state, nonce, codeVerifier, moment, List.mem_append_left _ hcreated⟩
  · intro sid state nonce codeVerifier moment hcreated
    have hearned : ∃ issue consumption, .issued state nonce codeVerifier issue ∈ history ∧
        .consumed state consumption ∈ history ∧ consumption < issue + 600 := by
      rcases List.mem_append.1 hcreated with hold | hnew
      · exact h.earned sid state nonce codeVerifier moment hold
      · obtain rfl := List.mem_singleton.1 hnew
        exact hfits.2.2
    obtain ⟨issue, consumption, hissue, hconsumption, hlt⟩ := hearned
    exact ⟨issue, consumption, List.mem_append_left _ hissue, List.mem_append_left _ hconsumption, hlt⟩
  · rw [List.filterMap_append, List.filterMap_append, List.nodup_append, List.nodup_append]
    cases e with
    | consumed state moment =>
        refine ⟨⟨h.once.1, List.nodup_singleton _, ?_⟩, h.once.2, List.nodup_nil, by simp [createdState]⟩
        rintro state' hmem _ hnew rfl
        obtain rfl : state' = state := by simpa [consumedState] using hnew
        exact hfits.1 hmem
    | created sid state nonce codeVerifier moment =>
        refine ⟨⟨h.once.1, List.nodup_nil, by simp [consumedState]⟩, h.once.2, List.nodup_singleton _, ?_⟩
        rintro state' hmem _ hnew rfl
        obtain rfl : state' = state := by simpa [createdState] using hnew
        exact hfits.2.1 hmem
    | issued | redirected | loggedOut =>
        exact ⟨⟨h.once.1, List.nodup_nil, by simp [consumedState]⟩, h.once.2, List.nodup_nil, by simp [createdState]⟩
  · intro location hlocation
    rcases List.mem_append.1 hlocation with hold | hnew
    · exact h.redirects location hold
    · obtain rfl := List.mem_singleton.1 hnew
      exact hfits

theorem Recorded.consumed_of_created (h : Recorded history) (hstate : state ∈ history.filterMap createdState) :
    state ∈ history.filterMap consumedState := by
  obtain ⟨e, he, hcreated⟩ := List.mem_filterMap.1 hstate
  cases e with
  | created sid state' nonce codeVerifier moment =>
      obtain rfl : state' = state := by simpa [createdState] using hcreated
      obtain ⟨issue, consumption, -, hconsumption, -⟩ := h.earned sid state' nonce codeVerifier moment he
      exact List.mem_filterMap.2 ⟨_, hconsumption, rfl⟩
  | issued | consumed | redirected | loggedOut => simp [createdState] at hcreated

theorem stateKey_injective {state state' : String} (h : stateKey state = stateKey state') : state = state' := by
  rw [stateKey, stateKey, ← String.toList_inj, String.toList_append, String.toList_append, List.append_cancel_left_eq,
    String.toList_inj] at h
  exact h

theorem IsToken.ne_stateKey (h : IsToken sid) : sid ≠ stateKey state := by
  rintro rfl
  apply h.2
  rw [stateKey, String.toList_append, List.mem_append]
  exact .inl (by decide)

theorem truthy_userOf (userinfo : Json.Fields) : (userOf userinfo).truthy = true := by
  rw [userOf]
  cases hfound : (["preferred_username", "email", "sub"].map fun key => (userinfo.lookup key).getD .null).find?
    Json.truthy with
  | none => decide
  | some user => exact List.find?_some hfound

theorem IssuedRow.mono (h : IssuedRow history state row) : IssuedRow (history ++ more) state row := by
  obtain ⟨returnTo, nonce, codeVerifier, issue, hrow, hissued, hreturn⟩ := h
  exact ⟨returnTo, nonce, codeVerifier, issue, hrow, List.mem_append_left _ hissued, hreturn⟩

theorem SessionRow.mono (h : SessionRow history sid row) (hmore : .loggedOut sid ∉ more) :
    SessionRow (history ++ more) sid row := by
  obtain ⟨user, state, nonce, codeVerifier, moment, hrow, huser, hcreated, hlogged⟩ := h
  refine ⟨user, state, nonce, codeVerifier, moment, hrow, huser, List.mem_append_left _ hcreated, ?_⟩
  rw [List.mem_append, not_or]
  exact ⟨hlogged, hmore⟩

theorem lookup_erase (d : Dict String Row) (key key' : String) :
    (d.erase key).lookup key' = if key' = key then none else d.lookup key' := by
  by_cases hkey : key' = key
  · rw [if_pos hkey, hkey, AList.lookup_erase]
  · rw [if_neg hkey, AList.lookup_erase_ne hkey]

theorem lookup_erase_of_none {d : Dict String Row} (h : d.lookup key = none) (key' : String) :
    (d.erase key).lookup key' = d.lookup key' := by
  rw [lookup_erase]
  split
  · next hkey => rw [hkey, h]
  · rfl

/-! ## The steps -/

/-- Only what can be looked up counts. -/
theorem Consistent.congr {sessions : Dict String Row} (h : Consistent (s, history))
    (hsame : ∀ key, sessions.lookup key = s.sessions.lookup key) : Consistent ({ s with sessions }, history) := by
  refine ⟨h.recorded, ?_, h.exchanges, ?_⟩
  · intro key row hrow
    exact h.rows key row (hsame key ▸ hrow)
  · intro sid state nonce codeVerifier moment hcreated
    simp only [hsame]
    exact h.kept sid state nonce codeVerifier moment hcreated

theorem Consistent.wait (h : Consistent (s, history)) (hle : s.now ≤ moment) :
    Consistent ({ s with now := moment }, history) := by
  refine ⟨h.recorded, h.rows, h.exchanges, ?_⟩
  intro sid state nonce codeVerifier created hcreated
  rcases h.kept sid state nonce codeVerifier created hcreated with hlogged | hold | hlive
  · exact .inl hlogged
  · exact .inr (.inl (hold.trans_le hle))
  · exact .inr (.inr hlive)

theorem Consistent.authorize (h : Consistent (s, history)) (hplain : PlainReturn returnTo)
    (hfresh : ∀ nonce codeVerifier moment, .issued state nonce codeVerifier moment ∉ history) :
    Consistent ((oidcAuthorizeUrl returnTo state nonce codeVerifier s).1,
      history ++ (oidcAuthorizeUrl returnTo state nonce codeVerifier s).2) := by
  obtain ⟨hstays, hne⟩ := staysOnOrigin_safeReturn hplain
  have hunconsumed : state ∉ history.filterMap consumedState := by
    intro hmem
    obtain ⟨nonce, codeVerifier, issue, hissued⟩ := h.recorded.issued state hmem
    exact hfresh nonce codeVerifier issue hissued
  have hconsumed : (history ++ [Event.issued state nonce codeVerifier s.now]).filterMap consumedState =
      history.filterMap consumedState := by simp [consumedState]
  have hcreated : (history ++ [Event.issued state nonce codeVerifier s.now]).filterMap createdState =
      history.filterMap createdState := by simp [createdState]
  refine ⟨h.recorded.concat trivial, ?_, ?_, ?_⟩
  · intro key row hrow
    simp only [oidcAuthorizeUrl, Dict.lookup_set] at hrow ⊢
    rw [hconsumed]
    split at hrow
    · next hkey =>
      left
      refine ⟨state, hkey, ⟨safeReturn returnTo, nonce, codeVerifier, s.now, (Option.some.inj hrow).symm, ?_, hstays, hne⟩,
        hunconsumed⟩
      simp
    · rcases h.rows key row hrow with ⟨pending, hkey, hissued, hpending⟩ | hsession
      · exact .inl ⟨pending, hkey, hissued.mono, hpending⟩
      · exact .inr (hsession.mono (by simp))
  · intro flight row hrow
    obtain ⟨hissued, ⟨consumption, hconsumption, hlt⟩, hnew⟩ := h.exchanges flight row hrow
    refine ⟨hissued.mono, ⟨consumption, List.mem_append_left _ hconsumption, hlt⟩, ?_⟩
    rwa [oidcAuthorizeUrl, hcreated]
  · intro sid other nonce codeVerifier moment hmem
    have hold : Event.created sid other nonce codeVerifier moment ∈ history := by simpa [oidcAuthorizeUrl] using hmem
    rcases h.kept sid other nonce codeVerifier moment hold with hlogged | hgone | hlive
    · exact .inl (List.mem_append_left _ hlogged)
    · exact .inr (.inl hgone)
    · right
      right
      rwa [oidcAuthorizeUrl, Dict.lookup_set,
        if_neg (h.recorded.tokens sid other nonce codeVerifier moment hold).ne_stateKey]

/-- A state is taken out of the dictionary, and consumed. -/
theorem Consistent.popState (h : Consistent (s, history)) (hrow : s.sessions.lookup (stateKey state) = some row) :
    Consistent ({ s with sessions := s.sessions.erase (stateKey state) }, history ++ [.consumed state s.now]) ∧
      IssuedRow history state row ∧ state ∉ history.filterMap consumedState := by
  obtain ⟨hissued, hpending⟩ : IssuedRow history state row ∧ state ∉ history.filterMap consumedState := by
    rcases h.rows _ row hrow with ⟨pending, hkey, hissued, hpending⟩ | hsession
    · obtain rfl := stateKey_injective hkey
      exact ⟨hissued, hpending⟩
    · obtain ⟨user, other, nonce, codeVerifier, moment, -, -, hcreated, -⟩ := hsession
      exact absurd rfl (h.recorded.tokens _ other nonce codeVerifier moment hcreated).ne_stateKey
  have hcreated : (history ++ [Event.consumed state s.now]).filterMap createdState = history.filterMap createdState := by
    simp [createdState]
  refine ⟨⟨h.recorded.concat ⟨hpending, ?_⟩, ?_, ?_, ?_⟩, hissued, hpending⟩
  · obtain ⟨returnTo, nonce, codeVerifier, issue, -, hmem, -⟩ := hissued
    exact ⟨nonce, codeVerifier, issue, hmem⟩
  · intro key other hother
    rw [lookup_erase] at hother
    split at hother
    · cases hother
    · next hkey =>
      rcases h.rows key other hother with ⟨pending, rfl, hissued, hold⟩ | hsession
      · refine .inl ⟨pending, rfl, hissued.mono, ?_⟩
        have hne : pending ≠ state := fun heq => hkey (congrArg stateKey heq)
        simpa [consumedState, hne] using hold
      · exact .inr (hsession.mono (by simp))
  · intro flight other hother
    obtain ⟨hissued, ⟨consumption, hconsumption, hlt⟩, hnew⟩ := h.exchanges flight other hother
    refine ⟨hissued.mono, ⟨consumption, List.mem_append_left _ hconsumption, hlt⟩, ?_⟩
    rwa [hcreated]
  · intro sid other nonce codeVerifier moment hmem
    have hold : Event.created sid other nonce codeVerifier moment ∈ history := by simpa using hmem
    rcases h.kept sid other nonce codeVerifier moment hold with hlogged | hgone | hlive
    · exact .inl (List.mem_append_left _ hlogged)
    · exact .inr (.inl hgone)
    · right
      right
      rwa [lookup_erase, if_neg (h.recorded.tokens sid other nonce codeVerifier moment hold).ne_stateKey]

theorem Consistent.consume {hasCode : Bool} (h : Consistent (s, history))
    (hclear : ∀ row, s.sessions.lookup (stateKey state) = some row → row.expires ≠ s.now) :
    Consistent ((consume state hasCode s).1, history ++ (consume state hasCode s).2) := by
  rw [Auth.consume]
  cases hrow : s.sessions.lookup (stateKey state) with
  | none =>
      simp only [List.append_nil]
      exact h.congr (lookup_erase_of_none hrow)
  | some row =>
      obtain ⟨hpopped, hissued, hpending⟩ := h.popState hrow
      by_cases hlate : (!hasCode || decide (row.expires < s.now)) = true
      · simp only [hlate, if_true]
        exact hpopped
      · simp only [hlate]
        rw [Bool.or_eq_true, not_or, decide_eq_true_eq, not_lt] at hlate
        have hearly : s.now < row.expires := lt_of_le_of_ne hlate.2 (hclear row hrow).symm
        refine ⟨hpopped.recorded, hpopped.rows, ?_, hpopped.kept⟩
        intro flight other hother
        simp only [Bool.false_eq_true, if_false, Dict.lookup_set] at hother ⊢
        split at hother
        · next hflight =>
          obtain rfl := Option.some.inj hother
          rw [hflight]
          refine ⟨hissued.mono, ⟨s.now, by simp, hearly⟩, ?_⟩
          intro hcreated
          apply hpending
          apply h.recorded.consumed_of_created
          simpa [createdState] using hcreated
        · exact hpopped.exchanges flight other hother

/-- The callback ends. -/
theorem Consistent.endExchange (h : Consistent (s, history)) :
    Consistent ({ s with exchanging := s.exchanging.erase state }, history) := by
  refine ⟨h.recorded, h.rows, ?_, h.kept⟩
  intro flight row hrow
  rw [lookup_erase] at hrow
  split at hrow
  · cases hrow
  · exact h.exchanges flight row hrow

theorem Consistent.finish {answer : Option Json.Fields} {signs : Bool} {r : State × List Event}
    (h : Consistent (s, history)) (htoken : IsToken sid)
    (hfresh : ∀ state nonce codeVerifier moment, .created sid state nonce codeVerifier moment ∉ history)
    (hfinish : finish state answer sid signs s = some r) : Consistent (r.1, history ++ r.2) := by
  obtain ⟨row, hrow, rfl⟩ := Option.map_eq_some_iff.1 hfinish
  obtain ⟨⟨returnTo, nonce, codeVerifier, issue, rfl, hissued, hstays, hne⟩, ⟨consumption, hconsumption, hlt⟩, hnew⟩ :=
    h.exchanges state row hrow
  cases answer with
  | none =>
      simp only [List.append_nil]
      exact h.endExchange
  | some userinfo =>
      have hcreated : Consistent ({ s with
          exchanging := s.exchanging.erase state
          sessions := Dict.set s.sessions sid (.session (userOf userinfo) (s.now + 86400)) },
          history ++ [.created sid state nonce codeVerifier s.now]) := by
        have hconsumed : (history ++ [Event.created sid state nonce codeVerifier s.now]).filterMap consumedState =
            history.filterMap consumedState := by simp [consumedState]
        refine ⟨h.recorded.concat ⟨htoken, hnew, issue, consumption, hissued, hconsumption, hlt⟩, ?_, ?_, ?_⟩
        · intro key row hrow
          rw [hconsumed]
          simp only [Dict.lookup_set] at hrow
          split at hrow
          · next hkey =>
            right
            refine ⟨userOf userinfo, state, nonce, codeVerifier, s.now, (Option.some.inj hrow).symm, truthy_userOf userinfo,
              by simp [hkey], ?_⟩
            intro hlogged
            obtain ⟨state', nonce', codeVerifier', moment', hold⟩ := h.recorded.loggedOut sid (by simpa [hkey] using hlogged)
            exact hfresh state' nonce' codeVerifier' moment' hold
          · rcases h.rows key row hrow with ⟨pending, hkey, hissued, hpending⟩ | hsession
            · exact .inl ⟨pending, hkey, hissued.mono, hpending⟩
            · exact .inr (hsession.mono (by simp))
        · intro flight row hflight
          simp only [lookup_erase] at hflight
          split at hflight
          · cases hflight
          · next hother =>
            obtain ⟨hissued, ⟨consumption, hconsumption, hlt⟩, hold⟩ := h.exchanges flight row hflight
            refine ⟨hissued.mono, ⟨consumption, List.mem_append_left _ hconsumption, hlt⟩, ?_⟩
            simpa [createdState, hother] using hold
        · intro other otherState otherNonce otherVerifier moment hmem
          simp only [Dict.lookup_set]
          by_cases hother : other = sid
          · rcases List.mem_append.1 hmem with hold | hlast
            · exact absurd (hother ▸ hold) (hfresh otherState otherNonce otherVerifier moment)
            · obtain ⟨-, -, -, -, rfl⟩ := Event.created.inj (List.mem_singleton.1 hlast)
              rw [if_pos hother]
              exact .inr (.inr ⟨userOf userinfo, rfl, truthy_userOf userinfo⟩)
          · have hold : Event.created other otherState otherNonce otherVerifier moment ∈ history := by
              simpa [hother] using hmem
            rw [if_neg hother]
            exact (h.kept other otherState otherNonce otherVerifier moment hold).imp_left (List.mem_append_left _)
      cases signs with
      | false => exact hcreated
      | true =>
          have hlocation : (Row.pending returnTo nonce codeVerifier (issue + 600)).location = returnTo := if_neg hne
          have hredirected := hcreated.recorded.concat (e := .redirected returnTo) hstays
          simp only [if_true, hlocation]
          rw [List.append_cons]
          refine ⟨hredirected, ?_, ?_, ?_⟩
          · intro key row hrow
            rcases hcreated.rows key row hrow with ⟨pending, hkey, hissued, hpending⟩ | hsession
            · refine .inl ⟨pending, hkey, hissued.mono, ?_⟩
              simpa [consumedState] using hpending
            · exact .inr (hsession.mono (by simp))
          · intro flight row hflight
            obtain ⟨hissued, ⟨consumption, hconsumption, hlt⟩, hold⟩ := hcreated.exchanges flight row hflight
            refine ⟨hissued.mono, ⟨consumption, List.mem_append_left _ hconsumption, hlt⟩, ?_⟩
            simpa [createdState] using hold
          · intro other otherState otherNonce otherVerifier moment hmem
            have hold := hcreated.kept other otherState otherNonce otherVerifier moment
              (by simpa [Row.nonce, Row.codeVerifier] using hmem)
            exact hold.imp_left (List.mem_append_left _)

theorem Consistent.dropSession (h : Consistent (s, history))
    (hcreated : ∃ state nonce codeVerifier moment, .created sid state nonce codeVerifier moment ∈ history) :
    Consistent ({ s with sessions := s.sessions.erase sid }, history ++ [.loggedOut sid]) := by
  refine ⟨h.recorded.concat hcreated, ?_, ?_, ?_⟩
  · intro key row hrow
    rw [lookup_erase] at hrow
    split at hrow
    · cases hrow
    · next hkey =>
      rcases h.rows key row hrow with ⟨pending, rfl, hissued, hpending⟩ | hsession
      · refine .inl ⟨pending, rfl, hissued.mono, ?_⟩
        simpa [consumedState] using hpending
      · exact .inr (hsession.mono (by simpa using hkey))
  · intro flight row hflight
    obtain ⟨hissued, ⟨consumption, hconsumption, hlt⟩, hold⟩ := h.exchanges flight row hflight
    refine ⟨hissued.mono, ⟨consumption, List.mem_append_left _ hconsumption, hlt⟩, ?_⟩
    simpa [createdState] using hold
  · intro other state nonce codeVerifier moment hmem
    have hold : Event.created other state nonce codeVerifier moment ∈ history := by simpa using hmem
    by_cases hother : other = sid
    · left
      simp [hother]
    · rw [lookup_erase, if_neg hother]
      exact (h.kept other state nonce codeVerifier moment hold).imp_left (List.mem_append_left _)

theorem Consistent.logout (h : Consistent (s, history)) (hunforged : Unforged mac history headers) :
    Consistent ((logout mac headers s).1, history ++ (logout mac headers s).2) := by
  rw [Auth.logout]
  split
  · next sid hsid =>
    split
    · simpa using h
    · exact h.dropSession (hunforged sid (unsignValue_eq_ok.1 hsid))
  · simpa using h

/-- A row that is not there, or has expired, is taken out. -/
theorem Consistent.expire (h : Consistent (s, history))
    (hexpired : ∀ row, s.sessions.lookup sid = some row → row.expires < s.now) :
    Consistent ({ s with sessions := s.sessions.erase sid }, history) := by
  refine ⟨h.recorded, ?_, h.exchanges, ?_⟩
  · intro key row hrow
    rw [lookup_erase] at hrow
    split at hrow
    · cases hrow
    · exact h.rows key row hrow
  · intro other state nonce codeVerifier moment hmem
    rcases h.kept other state nonce codeVerifier moment hmem with hlogged | hgone | ⟨user, hlookup, huser⟩
    · exact .inl hlogged
    · exact .inr (.inl hgone)
    · right
      by_cases hother : other = sid
      · have hlate := hexpired _ (hother ▸ hlookup)
        exact .inl hlate
      · right
        refine ⟨user, ?_, huser⟩
        rw [lookup_erase, if_neg hother]
        exact hlookup

theorem Consistent.sessionUser {user : Json} {s' : State} (h : Consistent (s, history))
    (hresult : sessionUser mac headers s = .ok (user, s')) : Consistent (s', history) := by
  obtain ⟨found, -, hresult⟩ := bind_eq_ok.1 hresult
  cases found with
  | none =>
      obtain ⟨-, rfl⟩ := Prod.mk.inj (pure_eq_ok.1 hresult)
      exact h
  | some sid =>
      simp only at hresult
      split at hresult
      · obtain ⟨-, rfl⟩ := Prod.mk.inj (pure_eq_ok.1 hresult)
        exact h
      · split at hresult
        · next hnone =>
          obtain ⟨-, rfl⟩ := Prod.mk.inj (pure_eq_ok.1 hresult)
          exact h.expire (by simp [hnone])
        · next row hrow =>
          split at hresult
          · next hlate =>
            obtain ⟨-, rfl⟩ := Prod.mk.inj (pure_eq_ok.1 hresult)
            apply h.expire
            intro other hother
            obtain rfl := Option.some.inj (hrow.symm.trans hother)
            exact hlate
          · obtain ⟨-, rfl⟩ := Prod.mk.inj (pure_eq_ok.1 hresult)
            exact h

theorem Consistent.request {authMode authHeader : String} {answer : Bool × State} (h : Consistent (s, history))
    (hresult : isRequestAuthorized mac authMode authHeader headers s = .ok answer) : Consistent (answer.2, history) := by
  simp only [isRequestAuthorized] at hresult
  generalize String.ofList (Text.lower (if authMode = "" then "none" else authMode).toList) = mode at hresult
  split at hresult
  · rw [← Except.ok.inj hresult]
    exact h
  split at hresult
  · rw [← Except.ok.inj hresult]
    exact h
  split at hresult
  · obtain ⟨⟨user, s'⟩, huser, hanswer⟩ := bind_eq_ok.1 hresult
    rw [← pure_eq_ok.1 hanswer]
    exact h.sessionUser huser
  · rw [← Except.ok.inj hresult]
    exact h

theorem Consistent.act {a : Action} (h : Consistent p) (hassumed : Assumed mac p a) (hclear : Clear p a)
    (hstep : (machine mac).step p a = some q) : Consistent q := by
  obtain ⟨s, history⟩ := p
  obtain ⟨r, hact, rfl⟩ := Option.map_eq_some_iff.1 hstep
  cases a with
  | wait moment =>
      simp only [Auth.act] at hact
      split at hact
      · next hle =>
        rw [← Option.some.inj hact]
        simpa using h.wait hle
      · cases hact
  | authorize returnTo state nonce codeVerifier =>
      rw [← Option.some.inj hact]
      exact h.authorize hclear hassumed
  | consume state hasCode =>
      rw [← Option.some.inj hact]
      exact h.consume hclear
  | finish state answer sid signs => exact h.finish hassumed.1 hassumed.2 hact
  | logout headers =>
      rw [← Option.some.inj hact]
      exact h.logout hassumed
  | request authMode authHeader headers =>
      simp only [Auth.act] at hact
      split at hact
      · next answer s' hresult =>
        rw [← Option.some.inj hact]
        simpa using h.request hresult
      · rw [← Option.some.inj hact]
        simpa using h

theorem consistent_start : Consistent (machine mac).start := by
  refine ⟨⟨nofun, nofun, nofun, nofun, ⟨List.nodup_nil, List.nodup_nil⟩, nofun⟩, ?_, ?_, nofun⟩
  · intro key row hrow
    cases hrow
  · intro state row hrow
    cases hrow

/-! ## What is claimed -/

theorem Consistent.users (h : Consistent p) (hunforged : Unforged mac p.2 headers) (hfine : Fine mac p.1 headers) :
    ∃ user s, Auth.sessionUser mac headers p.1 = .ok (user, s) ∧
      (user.truthy = true ↔ ∃ sid, sessionCookie headers = signValue mac sid ∧ Live p sid) := by
  obtain ⟨found, hfound⟩ := unsignValue_ok_iff.2 hfine.1
  rw [Auth.sessionUser, hfound]
  have hempty : (Json.str "").truthy = false := by decide
  cases found with
  | none =>
      refine ⟨.str "", p.1, rfl, ?_⟩
      rw [hempty]
      refine iff_of_false nofun ?_
      rintro ⟨sid, hcookie, -⟩
      rw [unsignValue_eq_ok.2 hcookie] at hfound
      cases hfound
  | some sid =>
      have hcookie := unsignValue_eq_ok.1 hfound
      have hsame : ∀ other, sessionCookie headers = signValue mac other → other = sid := by
        intro other hother
        rw [unsignValue_eq_ok.2 hother] at hfound
        exact Option.some.inj (Except.ok.inj hfound)
      obtain ⟨state, nonce, codeVerifier, moment, hcreated⟩ := hunforged sid hcookie
      have htoken := h.recorded.tokens sid state nonce codeVerifier moment hcreated
      -- a session that is live is in the dictionary
      have hlive : Live p sid → ∃ user expires, p.1.sessions.lookup sid = some (.session user expires) ∧
          p.1.now < expires ∧ user.truthy = true := by
        rintro ⟨state, nonce, codeVerifier, moment, hmem, hlt, hlogged⟩
        rcases h.kept sid state nonce codeVerifier moment hmem with hout | hgone | ⟨user, hlookup, huser⟩
        · exact absurd hout hlogged
        · exact absurd hgone (not_lt.2 hlt.le)
        · exact ⟨user, moment + 86400, hlookup, hlt, huser⟩
      simp only [bind, Except.bind, if_neg htoken.1]
      cases hlookup : p.1.sessions.lookup sid with
      | none =>
          refine ⟨_, _, rfl, ?_⟩
          rw [hempty]
          refine iff_of_false nofun ?_
          rintro ⟨other, hother, hother'⟩
          obtain ⟨user, expires, hsome, -⟩ := hlive (hsame other hother ▸ hother')
          rw [hlookup] at hsome
          cases hsome
      | some row =>
          by_cases hlate : row.expires < p.1.now
          · simp only [if_pos hlate]
            refine ⟨_, _, rfl, ?_⟩
            rw [hempty]
            refine iff_of_false nofun ?_
            rintro ⟨other, hother, hother'⟩
            obtain ⟨user, expires, hsome, hlt, -⟩ := hlive (hsame other hother ▸ hother')
            rw [hlookup] at hsome
            obtain rfl := Option.some.inj hsome
            exact absurd hlate (not_lt.2 hlt.le)
          · simp only [if_neg hlate]
            refine ⟨_, _, rfl, ?_⟩
            rcases h.rows sid row hlookup with ⟨pending, hkey, -⟩ | hsession
            · exact absurd hkey htoken.ne_stateKey
            · obtain ⟨user, state, nonce, codeVerifier, moment, rfl, huser, hcreated, hlogged⟩ := hsession
              refine iff_of_true huser ⟨sid, hcookie, state, nonce, codeVerifier, moment, hcreated, ?_, hlogged⟩
              exact lt_of_le_of_ne (not_lt.1 hlate) (hfine.2 sid _ hcookie hlookup).symm

theorem checks_of_comparable {authMode authHeader : String} (h : Comparable (sessionCookie headers)) (s : State) :
    ∃ answer, isRequestAuthorized mac authMode authHeader headers s = .ok answer := by
  obtain ⟨found, hfound⟩ := unsignValue_ok_iff.2 h
  have huser : ∃ result, sessionUser mac headers s = .ok result := by
    rw [sessionUser, hfound]
    cases found with
    | none => exact ⟨_, rfl⟩
    | some sid =>
        simp only [bind, Except.bind]
        split
        · exact ⟨_, rfl⟩
        · split
          · exact ⟨_, rfl⟩
          · split
            · exact ⟨_, rfl⟩
            · exact ⟨_, rfl⟩
  obtain ⟨result, hresult⟩ := huser
  simp only [isRequestAuthorized]
  generalize String.ofList (Text.lower (if authMode = "" then "none" else authMode).toList) = mode
  split
  · exact ⟨_, rfl⟩
  split
  · exact ⟨_, rfl⟩
  split
  · rw [hresult]
    exact ⟨_, rfl⟩
  · exact ⟨_, rfl⟩

/-- In the runs in which no state is consumed at the moment of its expiry and return paths are
plain, sessions are safe for every header with a signature in ASCII whose session does not expire at
this very moment. -/
theorem sessions_safe (h : (machine mac).Reach (fun p a => Assumed mac p a ∧ Clear p a) p) :
    SessionsSafe mac (Fine mac) p := by
  have hconsistent : Consistent p :=
    h.inv consistent_start fun p a q hp hok hstep => hp.act hok.1 hok.2 hstep
  constructor
  · exact hconsistent.recorded.earned
  · exact hconsistent.recorded.once
  · exact fun headers hunforged hfine => hconsistent.users hunforged hfine
  · exact fun authMode authHeader headers _ hfine => checks_of_comparable hfine.1 p.1
  · exact hconsistent.recorded.redirects

/-! ## One login, and a header that is not compared -/

/-- A digest for runs on fixed inputs. -/
def sampleMac : Mac where
  digest value := if value.length % 2 = 0 then "0a" else "1b"
  hex value := by
    intro c hc
    split at hc
    · revert c
      decide +kernel
    · revert c
      decide +kernel

/-- A login of ten seconds creates a session. -/
theorem sessions_safe_login : ∃ p, .created "s" "x" "n" "v" 10 ∈ p.2 ∧ SessionsSafe sampleMac (Fine sampleMac) p := by
  let p₁ : Point := (⟨0, Dict.set ∅ (stateKey "x") (.pending (safeReturn "/a") "n" "v" (0 + 600)), ∅⟩, [.issued "x" "n" "v" 0])
  let p₂ : Point := ({ p₁.1 with now := 10 }, p₁.2)
  let p₃ : Point := (⟨10, ∅, Dict.set ∅ "x" (.pending (safeReturn "/a") "n" "v" (0 + 600))⟩, p₂.2 ++ [.consumed "x" 10])
  let p₄ : Point := (⟨10, Dict.set ∅ "s" (.session (.str "me") (10 + 86400)), ∅⟩,
    p₃.2 ++ [.created "s" "x" "n" "v" 10, .redirected (safeReturn "/a")])
  have hplain : PlainReturn "/a" := fun _ => .inr (by decide +kernel)
  have hlookup : p₂.1.sessions.lookup (stateKey "x") = some (.pending (safeReturn "/a") "n" "v" (0 + 600)) := by rfl
  have hconsume : consume "x" true p₂.1 = (p₃.1, [.consumed "x" 10]) := by
    rw [consume, hlookup]
    have hearly : ¬ (!true || decide ((Row.pending (safeReturn "/a") "n" "v" (0 + 600)).expires < p₂.1.now)) = true := by
      norm_num [Row.expires, p₂]
    exact if_neg hearly
  have htoken : IsToken "s" := by unfold IsToken; decide +kernel
  have hissue : (machine sampleMac).Reach (fun p a => Assumed sampleMac p a ∧ Clear p a) p₁ :=
    .step (.authorize "/a" "x" "n" "v") .start ⟨by simp [Assumed, machine], hplain⟩ rfl
  have hwait : (machine sampleMac).Reach (fun p a => Assumed sampleMac p a ∧ Clear p a) p₂ :=
    .step (.wait 10) hissue ⟨trivial, trivial⟩ rfl
  have hconsumed : (machine sampleMac).Reach (fun p a => Assumed sampleMac p a ∧ Clear p a) p₃ := by
    refine .step (.consume "x" true) hwait ⟨trivial, ?_⟩ (by simp only [machine, act, hconsume]; rfl)
    intro row hrow
    rw [← Option.some.inj (hlookup.symm.trans hrow)]
    decide +kernel
  have hcreated : (machine sampleMac).Reach (fun p a => Assumed sampleMac p a ∧ Clear p a) p₄ := by
    refine .step (.finish "x" (some [("sub", .str "me")]) "s" true) hconsumed ⟨⟨htoken, ?_⟩, trivial⟩ rfl
    simp [p₃, p₂, p₁]
  exact ⟨p₄, by simp [p₄], sessions_safe hcreated⟩

/-- A cookie whose signature is decoded to a character outside of ASCII makes the check raise, and
a return path with a backslash leads off the origin. -/
theorem sessions_unsafe :
    isRequestAuthorized sampleMac "oidc" "" [("Cookie", "debbuilder_session=s.%C3%A9")] (machine sampleMac).start.1 =
        .error .nonAscii ∧
      (∃ p, (machine sampleMac).Reach (Assumed sampleMac) p ∧ ¬ SessionsSafe sampleMac (fun _ _ => True) p) ∧
      staysOnOrigin (safeReturn "/\\e") = false := by
  have hcookie : sessionCookie [("Cookie", "debbuilder_session=s.%C3%A9")] = "s.é" := by decide +kernel
  have hunsign : unsignValue sampleMac "s.é" = .error .nonAscii := by decide +kernel
  have hraises : isRequestAuthorized sampleMac "oidc" "" [("Cookie", "debbuilder_session=s.%C3%A9")]
      (machine sampleMac).start.1 = .error .nonAscii := by
    have hmode : String.ofList (Text.lower (if "oidc" = "" then "none" else "oidc").toList) = "oidc" := by decide +kernel
    rw [isRequestAuthorized, hmode, sessionUser, hcookie, hunsign]
    rfl
  refine ⟨hraises, ⟨_, .start, fun hsafe => ?_⟩, by decide +kernel⟩
  have hunforged : Unforged sampleMac (machine sampleMac).start.2 [("Cookie", "debbuilder_session=s.%C3%A9")] := by
    intro sid hsid
    rw [hcookie] at hsid
    rw [unsignValue_eq_ok.2 hsid] at hunsign
    cases hunsign
  obtain ⟨answer, hanswer⟩ := hsafe.checks "oidc" "" _ hunforged trivial
  rw [hraises] at hanswer
  cases hanswer

end DebBuilder.Auth
