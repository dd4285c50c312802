import Mathlib
import DebBuilder.Github.Client
import DebBuilder.Lib.Fallible

/-!
# Where the token goes

The URL of a call is checked before its first request and behind its last, and the opener sends
the header of the first to each location in between.

## Main statements

* `token_stays_iff` — the token stays on the hosts of the call exactly if every location of the
  chain is on them.
-/

namespace DebBuilder.Github
open Lib

/-- A URL is sent over https to one of the hosts. -/
def OnHost (refused : List Char → Bool) (hosts : List String) (url : String) : Prop :=
  ∃ parsed host, urlparse refused url = .ok parsed ∧ parsed.scheme = "https" ∧ parsed.hostname = some host ∧ host ∈ hosts

/-- The check accepts a URL. -/
def Accepted (refused : List Char → Bool) (hosts : List String) (url : String) : Prop :=
  ∃ parsed, urlparse refused url = .ok parsed ∧ parsed.allowed hosts

section
variable {refused : List Char → Bool} {hosts locations : List String} {error : GitHubError} {url token : String}

theorem checkUrl_eq_ok : checkUrl refused hosts error url = .ok () ↔ Accepted refused hosts url := by
  simp only [checkUrl, bind_eq_ok, Accepted]
  constructor
  · rintro ⟨parsed, hparsed, h⟩
    refine ⟨parsed, hparsed, ?_⟩
    by_cases hallowed : parsed.allowed hosts
    · exact hallowed
    · rw [if_neg hallowed] at h
      exact nomatch h
  · rintro ⟨parsed, hparsed, hallowed⟩
    exact ⟨parsed, hparsed, if_pos hallowed⟩

/-- What is accepted is on one of the hosts. -/
theorem Accepted.onHost (h : Accepted refused hosts url) : OnHost refused hosts url := by
  obtain ⟨parsed, hparsed, hallowed⟩ := h
  simp only [ParsedUrl.allowed, Bool.and_eq_true, decide_eq_true_eq] at hallowed
  obtain ⟨⟨⟨hscheme, hhost⟩, -⟩, -⟩ := hallowed
  obtain ⟨host, hsome, hmem⟩ := (Option.any_eq_true _ _).1 hhost
  exact ⟨parsed, host, hparsed, hscheme, hsome, List.contains_iff_mem.1 hmem⟩

theorem authorization_eq_none : authorization token = none ↔ token = "" := by
  simp [authorization]

/-- Of an accepted call, the first request and one for each location. -/
theorem requests_of_accepted {fetch : Fetch} (h : Accepted refused fetch.hosts fetch.url) :
    (requests refused fetch token locations).1 = openerRequests ⟨fetch.url, authorization token⟩ locations := by
  rw [requests, checkUrl_eq_ok.2 h]

/-- A refused call sends nothing. -/
theorem requests_of_not_accepted {fetch : Fetch} (h : ¬ Accepted refused fetch.hosts fetch.url) :
    (requests refused fetch token locations).1 = [] := by
  rw [requests]
  split
  · rfl
  · next hok => exact absurd (checkUrl_eq_ok.1 hok) h

end

/-- Every request with the token goes over https to a host of the call exactly if there is no
token, the first URL is refused, or every location that the opener is redirected to is on such a
host. -/
theorem token_stays_iff (refused : List Char → Bool) (fetch : Fetch) (token : String) (locations : List String) :
    (∀ request ∈ (requests refused fetch token locations).1,
        request.authorization ≠ none → OnHost refused fetch.hosts request.url) ↔
      token = "" ∨ ¬ Accepted refused fetch.hosts fetch.url ∨ ∀ location ∈ locations, OnHost refused fetch.hosts location := by
  by_cases htoken : token = ""
  · have hnone : authorization token = none := authorization_eq_none.2 htoken
    refine ⟨fun _ => .inl htoken, fun _ request hmem hsome => ?_⟩
    by_cases haccepted : Accepted refused fetch.hosts fetch.url
    · rw [requests_of_accepted haccepted, openerRequests] at hmem
      rcases List.mem_cons.1 hmem with rfl | hmem
      · exact absurd hnone hsome
      · obtain ⟨location, -, rfl⟩ := List.mem_map.1 hmem
        exact absurd hnone hsome
    · rw [requests_of_not_accepted haccepted] at hmem
      exact nomatch hmem
  have hsome : authorization token ≠ none := fun h => htoken (authorization_eq_none.1 h)
  by_cases haccepted : Accepted refused fetch.hosts fetch.url
  · rw [requests_of_accepted haccepted, openerRequests]
    constructor
    · intro h
      refine .inr (.inr fun location hmem => ?_)
      exact h { url := location, authorization := authorization token }
        (List.mem_cons_of_mem _ (List.mem_map.2 ⟨location, hmem, rfl⟩)) hsome
    · intro h request hmem _
      rcases h with h | h | h
      · exact absurd h htoken
      · exact absurd haccepted h
      rcases List.mem_cons.1 hmem with rfl | hmem
      · exact haccepted.onHost
      · obtain ⟨location, hlocation, rfl⟩ := List.mem_map.1 hmem
        exact h location hlocation
  · rw [requests_of_not_accepted haccepted]
    exact ⟨fun _ => .inr (.inl haccepted), fun _ _ hmem => nomatch hmem⟩

/-- A redirect of the API to another host takes the token there, although the call ends with an
error. -/
theorem token_leaves :
    let sent := requests (fun _ => false) (.requestJson "/repos/a/b") "t" ["https://evil.example/"]
    ⟨"https://evil.example/", some "Bearer t"⟩ ∈ sent.1 ∧
      sent.2 = .error (.gitHub ⟨"github_api_error", "GitHub API redirected to a disallowed URL"⟩) ∧
      ¬ OnHost (fun _ => false) (Fetch.requestJson "/repos/a/b").hosts "https://evil.example/" := by
  refine ⟨by decide, by rfl, ?_⟩
  rintro ⟨parsed, host, hparsed, -, hhost, hmem⟩
  have hname : (urlparse (fun _ => false) "https://evil.example/").toOption.bind (·.hostname) = some "evil.example" := by
    rfl
  rw [hparsed] at hname
  cases hhost.symm.trans hname
  exact absurd hmem (by decide)

end DebBuilder.Github
