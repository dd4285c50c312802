import Mathlib
import DebBuilder.Lib.Text

/-!
# The GitHub client

What the client asks of the URL library, and what a download does to its destination.  The opener
of the library follows redirects, and sends the headers of the request again to each location.

## Main definitions

* `urlparse`, `validateDownloadUrl` — the check of a URL.
* `Fetch`, `requests` — the requests that go out, hop by hop.
* `download` — `_download` on a destination, for everything that may happen in an exchange.
-/

namespace DebBuilder.Github
open Lib

/-! ## Errors -/

structure GitHubError where
  code : String
  message : String
deriving DecidableEq

/-- What is raised, by the handlers of `_download`. -/
inductive Raised
  | gitHub (error : GitHubError)
  /-- `OSError`, with `URLError` and `TimeoutError` -/
  | osError
  /-- An exception that no handler names: a `ValueError` of `urlparse`, an `HTTPException`. -/
  | foreign (name : String)
deriving DecidableEq

/-! ## URLs -/

/-- What `urlparse` reads from a URL. -/
structure ParsedUrl where
  scheme : String
  username : Option String
  password : Option String
  hostname : Option String

def isAsciiLetter (c : Char) : Bool := ('a' ≤ c && c ≤ 'z') || ('A' ≤ c && c ≤ 'Z')

def isSchemeChar (c : Char) : Bool := isAsciiLetter c || ('0' ≤ c && c ≤ '9') || c = '+' || c = '-' || c = '.'

/-- Leading blanks and control characters go, and tabs and line ends wherever they are. -/
def cleanUrl (url : List Char) : List Char :=
  (url.dropWhile fun c => c.toNat ≤ 32).filter fun c => c ≠ '\t' && c ≠ '\r' && c ≠ '\n'

/-- The scheme, in lower case, and the rest. -/
def splitScheme (url : List Char) : List Char × List Char :=
  match Text.cut [':'] url with
  | some (scheme, rest) =>
      if scheme.head?.any isAsciiLetter && scheme.all isSchemeChar then (Text.lower scheme, rest) else ([], url)
  | none => ([], url)

/-- The network location: up to the path, the query or the fragment. -/
def netloc (rest : List Char) : List Char :=
  if ['/', '/'].isPrefixOf rest then (rest.drop 2).takeWhile fun c => c ≠ '/' && c ≠ '?' && c ≠ '#' else []

/-- What stands before the last `@`, and behind it. -/
def splitUserinfo (location : List Char) : Option (List Char) × List Char :=
  match Text.cut ['@'] location.reverse with
  | some (host, userinfo) => (some userinfo.reverse, host.reverse)
  | none => (none, location)

/-- The host, without brackets and port. -/
def hostOf (hostinfo : List Char) : List Char :=
  match Text.cut ['['] hostinfo with
  | some (_, bracketed) => bracketed.takeWhile (· ≠ ']')
  | none => hostinfo.takeWhile (· ≠ ':')

/-- `hostname.lower()`, of a host whose zone stays as it is. -/
def lowerHost (host : List Char) : List Char :=
  Text.lower (host.takeWhile (· ≠ '%')) ++ host.dropWhile (· ≠ '%')

section
-- The network locations that `urlsplit` refuses with a `ValueError`, for their brackets or for
-- characters that normalise to separators.
variable (refused : List Char → Bool)

def urlparse (url : String) : Except Raised ParsedUrl :=
  let (scheme, rest) := splitScheme (cleanUrl url.toList)
  let location := netloc rest
  if refused location then .error (.foreign "ValueError")
  else
    let (userinfo, hostinfo) := splitUserinfo location
    let host := hostOf hostinfo
    .ok {
      scheme := String.ofList scheme
      username := userinfo.map fun info => String.ofList (info.takeWhile (· ≠ ':'))
      password := (userinfo.bind (Text.cut [':'])).map fun pair => String.ofList pair.2
      hostname := if host = [] then none else some (String.ofList (lowerHost host)) }

/-- `ALLOWED_DOWNLOAD_HOSTS` -/
def allowedDownloadHosts : List String :=
  ["api.github.com", "github.com", "codeload.github.com", "objects.githubusercontent.com", "release-assets.githubusercontent.com"]

/-- `https`, one of the hosts, and neither a user name nor a password. -/
def ParsedUrl.allowed (hosts : List String) (parsed : ParsedUrl) : Bool :=
  parsed.scheme = "https" && parsed.hostname.any (hosts.contains ·) && parsed.username.getD "" = "" && parsed.password.getD "" = ""

/-- The check of a URL against a list of hosts. -/
def checkUrl (hosts : List String) (error : GitHubError) (url : String) : Except Raised Unit := do
  let parsed ← urlparse refused url
  if parsed.allowed hosts then .ok () else .error (.gitHub error)

def downloadUrlRefused : GitHubError := ⟨"source_download_failed", "Source download URL is not an allowed GitHub HTTPS URL"⟩

/-- `validate_download_url(url)` -/
def validateDownloadUrl (url : String) : Except Raised Unit :=
  checkUrl refused allowedDownloadHosts downloadUrlRefused url

/-! ## Requests -/

structure Request where
  url : String
  authorization : Option String
deriving DecidableEq

/-- `headers["Authorization"]`, when there is a token. -/
def authorization (token : String) : Option String := if token ≠ "" then some ("Bearer " ++ token) else none

/-- The requests of the opener, for the locations that it is redirected to one after another. -/
def openerRequests (request : Request) (locations : List String) : List Request :=
  request :: locations.map fun location => { request with url := location }

/-- The functions that send the token. -/
inductive Fetch
  | requestJson (pathOrUrl : String)
  | downloadArchive (url : String)
  | downloadReleaseAsset (url : String)

namespace Fetch

def url : Fetch → String
  | requestJson pathOrUrl =>
      if "https://".toList.isPrefixOf pathOrUrl.toList then pathOrUrl else "https://api.github.com" ++ pathOrUrl
  | downloadArchive url => url
  | downloadReleaseAsset url => url

def hosts : Fetch → List String
  | requestJson _ => ["api.github.com"]
  | downloadArchive _ => allowedDownloadHosts
  | downloadReleaseAsset _ => allowedDownloadHosts

/-- The error for a URL that is refused, before the first request and behind the last. -/
def refusal (message : String) : Fetch → GitHubError
  | requestJson _ => ⟨"github_api_error", message⟩
  | downloadArchive _ => downloadUrlRefused
  | downloadReleaseAsset _ => downloadUrlRefused

end Fetch

/-- The requests of a call, and whether the response of the last one is read. -/
def requests (fetch : Fetch) (token : String) (locations : List String) : List Request × Except Raised Unit :=
  match checkUrl refused fetch.hosts (fetch.refusal "GitHub API URL is not allowed") fetch.url with
  | .error raised => ([], .error raised)
  | .ok _ =>
      (openerRequests ⟨fetch.url, authorization token⟩ locations,
        checkUrl refused fetch.hosts (fetch.refusal "GitHub API redirected to a disallowed URL") (locations.getLastD fetch.url))

end

/-! ## Downloads -/

/-- What writing a chunk comes to: all of it, or as many bytes as there were before it failed. -/
inductive Write
  | stored
  | failed (kept : Nat) (raised : Raised)

inductive Read
  | chunk (bytes : List UInt8) (write : Write)
  | failed (raised : Raised)

/-- What happens while the destination is downloaded. -/
structure Exchange where
  opening : Option Raised
  finalUrl : String
  creating : Option Raised
  reads : List Read
  /-- Closing the file, and leaving the response. -/
  closing : Option Raised
  leaving : Option Raised

structure Downloaded where
  size : Nat
  sha256 : String

def tooLarge : GitHubError := ⟨"source_download_failed", "Source download exceeds the configured size limit"⟩

/-- The loop: what it has written at its end, and what is raised in it. -/
def stream (maxBytes : Nat) : List UInt8 → List Read → List UInt8 × Option Raised
  | content, [] => (content, none)
  | content, .failed raised :: _ => (content, some raised)
  | content, .chunk bytes write :: reads =>
      if bytes = [] then (content, none)
      else if maxBytes < content.length + bytes.length then (content, some (.gitHub tooLarge))
      else match write with
        | .stored => stream maxBytes (content ++ bytes) reads
        | .failed kept raised => (content ++ bytes.take kept, some raised)

section
variable (refused : List Char → Bool)

/-- The body of the `try`: what is at the destination afterwards, and what is raised. -/
def attempt (maxBytes : Nat) (before : Option (List UInt8)) (exchange : Exchange) : Option (List UInt8) × Option Raised :=
  match exchange.opening with
  | some raised => (before, some raised)
  | none =>
      let inside : Option (List UInt8) × Option Raised :=
        match validateDownloadUrl refused exchange.finalUrl with
        | .error raised => (before, some raised)
        | .ok _ =>
            if before.isSome then (before, some .osError)
            else match exchange.creating with
              | some raised => (before, some raised)
              | none =>
                  let (content, raised) := stream maxBytes [] exchange.reads
                  (some content, exchange.closing.or raised)
      (inside.1, exchange.leaving.or inside.2)

/-- `_download(url, destination)`: what is at the destination afterwards, and the result. -/
def download (digest : List UInt8 → String) (url : String) (maxBytes : Nat) (before : Option (List UInt8)) (exchange : Exchange) :
    Option (List UInt8) × Except Raised Downloaded :=
  match validateDownloadUrl refused url with
  | .error raised => (before, .error raised)
  | .ok _ =>
      match attempt refused maxBytes before exchange with
      | (after, none) => (after, .ok ⟨(after.getD []).length, digest (after.getD [])⟩)
      | (_, some (.gitHub error)) => (none, .error (.gitHub error))
      | (_, some .osError) => (none, .error (.gitHub ⟨"source_download_failed", "Source download failed"⟩))
      | (after, some (.foreign name)) => (after, .error (.foreign name))

end

end DebBuilder.Github
