import Mathlib
import DebBuilder.Auth.Cookies
import DebBuilder.Lib.Dict
import DebBuilder.Lib.Json
import DebBuilder.Lib.Machine

/-!
# Pending states and sessions

One dictionary holds the states of logins that are under way and the sessions.  A redirect to the
provider issues a state, the callback consumes it, and when the provider has answered it creates
a session; requests and logouts look sessions up.  Each look at the dictionary is one step, so
that the steps of any number of clients may come in any order.

## Main definitions

* `oidcAuthorizeUrl`, `consume`, `finish`, `logout`, `sessionUser` — what happens to the dictionary.
* `machine` — the runs, with a history of what has happened.
* `staysOnOrigin` — how a browser reads the target of a redirect.
-/

namespace DebBuilder.Auth
open Lib

/-- A reading of the clock, in seconds. -/
abbrev Time := ℚ

/-- A row of `SESSIONS`. -/
inductive Row where
  | pending (returnTo nonce codeVerifier : String) (expires : Time)
  | session (user : Json) (expires : Time)

/-! A member that a row does not have is read with its default. -/

def Row.expires : Row → Time
  | pending _ _ _ expires => expires
  | session _ expires => expires

def Row.user : Row → Json
  | pending .. => .str ""
  | session user _ => user

def Row.nonce : Row → String
  | pending _ nonce _ _ => nonce
  | session .. => ""

def Row.codeVerifier : Row → String
  | pending _ _ codeVerifier _ => codeVerifier
  | session .. => ""

/-- `pending.get("return_to") or "/"` -/
def Row.location : Row → String
  | pending returnTo _ _ _ => if returnTo = "" then "/" else returnTo
  | session .. => "/"

/-- The clock, the dictionary, and the rows of the callbacks that wait for the provider. -/
structure State where
  now : Time
  sessions : Dict String Row
  exchanging : Dict String Row

/-- What has happened. -/
inductive Event where
  | issued (state nonce codeVerifier : String) (moment : Time)
  | consumed (state : String) (moment : Time)
  | created (sid state nonce codeVerifier : String) (moment : Time)
  | redirected (location : String)
  | loggedOut (sid : String)

abbrev Headers := List (String × String)

/-! ## The operations -/

def stateKey (state : String) : String := "state:" ++ state

/-- `return_to if return_to.startswith("/") and not return_to.startswith("//") else "/"` -/
def safeReturn (returnTo : String) : String :=
  if ['/'].isPrefixOf returnTo.toList && !(['/', '/'].isPrefixOf returnTo.toList) then returnTo else "/"

/-- `oidc_authorize_url(return_to)`, with the tokens that it draws. -/
def oidcAuthorizeUrl (returnTo state nonce codeVerifier : String) (s : State) : State × List Event :=
  let row := Row.pending (safeReturn returnTo) nonce codeVerifier (s.now + 600)
  ({ s with sessions := Dict.set s.sessions (stateKey state) row }, [.issued state nonce codeVerifier s.now])

/-- `_oidc_callback`, up to the exchange of the code. -/
def consume (state : String) (hasCode : Bool) (s : State) : State × List Event :=
  let popped := { s with sessions := s.sessions.erase (stateKey state) }
  match s.sessions.lookup (stateKey state) with
  | none => (popped, [])
  | some row =>
      if !hasCode || row.expires < s.now then (popped, [.consumed state s.now])
      else ({ popped with exchanging := Dict.set s.exchanging state row }, [.consumed state s.now])

/-- `userinfo.get("preferred_username") or userinfo.get("email") or userinfo.get("sub") or "user"` -/
def userOf (userinfo : Json.Fields) : Json :=
  (["preferred_username", "email", "sub"].map fun key => (userinfo.lookup key).getD .null).find? Json.truthy |>.getD (.str "user")

/-- The rest of `_oidc_callback`, with the answer of the provider and the identifier that
`create_session` draws; without the secret of the signatures the session is created and the
client is not redirected. -/
def finish (state : String) (answer : Option Json.Fields) (sid : String) (signs : Bool) (s : State) :
    Option (State × List Event) :=
  (s.exchanging.lookup state).map fun row =>
    let ended := { s with exchanging := s.exchanging.erase state }
    match answer with
    | none => (ended, [])
    | some userinfo =>
        ({ ended with sessions := Dict.set s.sessions sid (.session (userOf userinfo) (s.now + 86400)) },
          .created sid state row.nonce row.codeVerifier s.now :: if signs then [.redirected row.location] else [])

/-- `_logout` -/
def logout (mac : Mac) (headers : Headers) (s : State) : State × List Event :=
  match unsignValue mac (sessionCookie headers) with
  | .ok (some sid) => if sid = "" then (s, []) else ({ s with sessions := s.sessions.erase sid }, [.loggedOut sid])
  | _ => (s, [])

/-- `oidc_session_user(headers)`; the row of a session never changes, so that one look at the
dictionary decides. -/
def sessionUser (mac : Mac) (headers : Headers) (s : State) : Except TypeError (Json × State) := do
  match ← unsignValue mac (sessionCookie headers) with
  | none => return (.str "", s)
  | some sid =>
      if sid = "" then return (.str "", s)
      else
        let popped := { s with sessions := s.sessions.erase sid }
        match s.sessions.lookup sid with
        | none => return (.str "", popped)
        | some row => if row.expires < s.now then return (.str "", popped) else return (row.user, s)

/-- `is_request_authorized(headers)` -/
def isRequestAuthorized (mac : Mac) (authMode authHeader : String) (headers : Headers) (s : State) :
    Except TypeError (Bool × State) :=
  let mode := String.ofList (Text.lower (if authMode = "" then "none" else authMode).toList)
  if mode ∈ ["", "none", "off"] then .ok (true, s)
  else if mode = "header" then .ok (headerValue headers authHeader ≠ [], s)
  else if mode = "oidc" then do
    let (user, s) ← sessionUser mac headers s
    return (user.truthy, s)
  else .ok (false, s)

/-! ## Runs -/

inductive Action where
  | wait (moment : Time)
  | authorize (returnTo state nonce codeVerifier : String)
  | consume (state : String) (hasCode : Bool)
  | finish (state : String) (answer : Option Json.Fields) (sid : String) (signs : Bool)
  | logout (headers : Headers)
  | request (authMode authHeader : String) (headers : Headers)

def act (mac : Mac) (s : State) : Action → Option (State × List Event)
  | .wait moment => if s.now ≤ moment then some ({ s with now := moment }, []) else none
  | .authorize returnTo state nonce codeVerifier => some (oidcAuthorizeUrl returnTo state nonce codeVerifier s)
  | .consume state hasCode => some (consume state hasCode s)
  | .finish state answer sid signs => finish state answer sid signs s
  | .logout headers => some (logout mac headers s)
  | .request authMode authHeader headers =>
      match isRequestAuthorized mac authMode authHeader headers s with
      | .ok (_, s) => some (s, [])
      | .error _ => some (s, [])

/-- A state and what has happened up to it. -/
abbrev Point := State × List Event

/-- The runs from the start of the service. -/
def machine (mac : Mac) : Machine Point Action where
  start := (⟨0, ∅, ∅⟩, [])
  step p a := (act mac p.1 a).map fun r => (r.1, p.2 ++ r.2)

/-! ## Redirects in the browser -/

def slash (c : Char) : Bool := c == '/' || c == '\\'

/-- What a browser leaves out of a reference: tabs and line ends, and the control characters and
spaces around it. -/
def browserText (location : List Char) : List Char :=
  let control (c : Char) : Bool := c.toNat ≤ 32
  ((location.dropWhile control).rdropWhile control).filter fun c => !(c == '\t' || c == '\n' || c == '\r')

/-- A reference that begins with a scheme. -/
def hasScheme (location : List Char) : Bool :=
  location.head?.any Char.isAlpha &&
    (location.dropWhile fun c => c.isAlphanum || c == '+' || c == '-' || c == '.').head?.any (· == ':')

/-- The reference names neither a scheme nor, behind two slashes of either kind, a host: the
browser stays on the origin of the page. -/
def staysOnOrigin (location : String) : Bool :=
  let text := browserText location.toList
  !hasScheme text && !(text.length ≥ 2 && (text.take 2).all slash)

/-! ## What is assumed and what is claimed -/

/-- A token over the alphabet of `secrets.token_urlsafe`. -/
def IsToken (token : String) : Prop := token ≠ "" ∧ ':' ∉ token.toList

/-- A signature that is accepted was made for a session. -/
def Unforged (mac : Mac) (history : List Event) (headers : Headers) : Prop :=
  ∀ sid, sessionCookie headers = signValue mac sid →
    ∃ state nonce codeVerifier moment, .created sid state nonce codeVerifier moment ∈ history

/-- Tokens are distinct and signatures are not forged. -/
def Assumed (mac : Mac) (p : Point) : Action → Prop
  | .authorize _ state _ _ => ∀ nonce codeVerifier moment, .issued state nonce codeVerifier moment ∉ p.2
  | .finish _ _ sid _ =>
      IsToken sid ∧ ∀ state nonce codeVerifier moment, .created sid state nonce codeVerifier moment ∉ p.2
  | .logout headers => Unforged mac p.2 headers
  | .request _ _ headers => Unforged mac p.2 headers
  | _ => True

/-- A session that was created less than a day ago and not logged out. -/
def Live (p : Point) (sid : String) : Prop :=
  ∃ state nonce codeVerifier moment, .created sid state nonce codeVerifier moment ∈ p.2 ∧ p.1.now < moment + 86400 ∧
    .loggedOut sid ∉ p.2

def consumedState : Event → Option String
  | .consumed state _ => some state
  | _ => none

def createdState : Event → Option String
  | .created _ state _ _ _ => some state
  | _ => none

/-- What is claimed of the runs, for the headers of `fine`. -/
structure SessionsSafe (mac : Mac) (fine : State → Headers → Prop) (p : Point) : Prop where
  /-- A session is created with the tokens of a state that was consumed in time. -/
  earned : ∀ sid state nonce codeVerifier moment, .created sid state nonce codeVerifier moment ∈ p.2 →
    ∃ issue consumption, .issued state nonce codeVerifier issue ∈ p.2 ∧ .consumed state consumption ∈ p.2 ∧
      consumption < issue + 600
  /-- A state is consumed at most once, and for one session. -/
  once : (p.2.filterMap consumedState).Nodup ∧ (p.2.filterMap createdState).Nodup
  /-- The sessions that are live have users, and no others. -/
  users : ∀ headers, Unforged mac p.2 headers → fine p.1 headers → ∃ user s, sessionUser mac headers p.1 = .ok (user, s) ∧
    (user.truthy = true ↔ ∃ sid, sessionCookie headers = signValue mac sid ∧ Live p sid)
  /-- The authorization check comes to an answer. -/
  checks : ∀ authMode authHeader headers, Unforged mac p.2 headers → fine p.1 headers →
    ∃ answer, isRequestAuthorized mac authMode authHeader headers p.1 = .ok answer
  redirects : ∀ location, .redirected location ∈ p.2 → staysOnOrigin location = true

end DebBuilder.Auth
