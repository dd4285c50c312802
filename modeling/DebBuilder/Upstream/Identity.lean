import Mathlib
import DebBuilder.Lib.Fallible
import DebBuilder.Lib.JsonText
import DebBuilder.Recipe.Values

/-!
# Upstream identities

The exact identity of an upstream release: a document is read field by field, checked, and
written again in a canonical form.  Whether it is complete is derived from the fields that name
the release, never taken from the document.  The key of an automatic attempt is a digest over the
Recipe, its digest and the canonical identity.

## Main definitions

* `Identity` — the canonical identity; `Identity.toJson` is the document it is written as.
* `normalize` — reads and checks a document.
* `attemptKey` — the key of an attempt.
-/

namespace DebBuilder
namespace Upstream

open Lib Lib.Json

-- Texts are decided along their characters, not over all characters there are.
attribute [local instance (2000)] List.decidableBAll List.decidableBEx

structure UpstreamIdentityError where
  code : String
  message : String
  path : String := "$"
deriving DecidableEq

/-- The error of most checks. -/
def invalid (message : String) (path : String := "$") : UpstreamIdentityError :=
  ⟨"invalid_upstream_identity", message, path⟩

def maxIdentityBytes : Nat := 4096
def maxText : Nat := 200

/-! ## Fields -/

/-- `str(value).strip()`, of a text or a number; a field that need not be there may be `None`. -/
def spelled (required : Bool) : Json → Option (List Char)
  | null => if required then none else some []
  | str s => some (Text.strip s.toList)
  | int n => some (Text.strip (intText n))
  | _ => none

/-- `_text(value, field, required=required, maximum=maximum)` -/
def text (value : Json) (field : String) (required : Bool := false) (maximum : Nat := maxText) :
    Except UpstreamIdentityError String := do
  let result ← demand (invalid (field ++ " must be a string") ("$." ++ field)) (spelled required value)
  refuse ((required = true ∧ result = []) ∨ maximum < result.length ∨ ∃ c ∈ result, c.toNat < 32)
    (invalid (field ++ " is invalid or unbounded") ("$." ++ field))
  return String.ofList result

/-- `text.lower()` -/
def lower (text : String) : String := String.ofList (Text.lower text.toList)

def isHex (c : Char) : Bool := ('0' ≤ c && c ≤ '9') || ('a' ≤ c && c ≤ 'f')

/-- `_sha(value, field, lengths=lengths)` -/
def sha (value : Json) (field : String) (lengths : List Nat) : Except UpstreamIdentityError String := do
  let result := lower (← text value field false (lengths.foldl max 0))
  refuse (result ≠ "" ∧ (result.length ∉ lengths ∨ ¬ ∀ c ∈ result.toList, isHex c = true))
    (invalid (field ++ " must be a hexadecimal digest") ("$." ++ field))
  return result

/-- A text that is no safe reference. -/
def UnsafeRef (cs : List Char) : Prop :=
  cs.head? = some '/' ∨ cs.getLast? = some '/' ∨ "..".toList <:+: cs ∨ "://".toList <:+: cs ∨ '\\' ∈ cs ∨ '@' ∈ cs ∨
    '=' ∈ cs ∨ (∃ c ∈ cs, c ∈ "~^:?*[".toList) ∨ ∃ c ∈ cs, Text.isSpace c = true

instance (cs : List Char) : Decidable (UnsafeRef cs) := by unfold UnsafeRef; infer_instance

/-- `_github_ref(value, field)` -/
def githubRef (value : Json) (field : String) : Except UpstreamIdentityError String := do
  let result ← text value field
  refuse (result ≠ "" ∧ UnsafeRef result.toList) (invalid (field ++ " is not a safe GitHub ref") ("$." ++ field))
  return result

/-- A text that is no version but an address or a path. -/
def UnsafeVersion (cs : List Char) : Prop :=
  '/' ∈ cs ∨ '\\' ∈ cs ∨ "://".toList <:+: cs ∨ '@' ∈ cs ∨ '=' ∈ cs ∨ ∃ c ∈ cs, Text.isSpace c = true

instance (cs : List Char) : Decidable (UnsafeVersion cs) := by unfold UnsafeVersion; infer_instance

/-- `_version(value)` -/
def version (value : Json) : Except UpstreamIdentityError String := do
  let result ← text value "resolved_version"
  refuse (result ≠ "" ∧ UnsafeVersion result.toList)
    (invalid "resolved_version contains a URL or path" "$.resolved_version")
  return result

/-- `_size(value)` -/
def size (value : Json) : Except UpstreamIdentityError (Option Int) :=
  let error := invalid "expected_size must be a bounded non-negative integer" "$.expected_size"
  match value with
  | null => .ok none
  | str s => if s = "" then .ok none else .error error
  | int n => if 0 ≤ n ∧ n ≤ 500 * 1024 * 1024 then .ok (some n) else .error error
  | _ => .error error

/-! ## The kinds of identities -/

inductive Tracking
  | latestRelease
  | tag
  | manual
deriving DecidableEq

inductive SourceType
  | releaseAsset
  | githubSourceArchive
  | gitRef
deriving DecidableEq

inductive PayloadKind
  | deb
  | archive
  | rawFile
  | sourceArchive
deriving DecidableEq

def Tracking.text : Tracking → String
  | latestRelease => "latest_release"
  | tag => "tag"
  | manual => "manual"

def SourceType.text : SourceType → String
  | releaseAsset => "release_asset"
  | githubSourceArchive => "github_source_archive"
  | gitRef => "git_ref"

def PayloadKind.text : PayloadKind → String
  | deb => "deb"
  | archive => "archive"
  | rawFile => "raw_file"
  | sourceArchive => "source_archive"

/-- The kind that a text names. -/
def Tracking.ofText? (s : String) : Option Tracking := [latestRelease, tag, manual].find? (·.text = s)
def SourceType.ofText? (s : String) : Option SourceType := [releaseAsset, githubSourceArchive, gitRef].find? (·.text = s)
def PayloadKind.ofText? (s : String) : Option PayloadKind := [deb, archive, rawFile, sourceArchive].find? (·.text = s)

/-- The canonical identity; an empty text is a field without a value. -/
@[ext] structure Identity where
  repository : String
  tracking : Tracking
  sourceType : SourceType
  payloadKind : PayloadKind
  requestedRef : String
  releaseId : String
  assetId : String
  commitSha : String
  refObjectSha : String
  resolvedRef : String
  resolvedVersion : String
  contentSha256 : String
  assetName : String
  expectedSize : Option Int
  sourceArchiveFormat : String
  expectedPackage : String
  expectedArchitecture : String
deriving DecidableEq

namespace Identity
variable (identity : Identity)

/-- `_required_fields(identity)`, with the values of the fields. -/
def requiredFields : List (String × String) :=
  let common := [("resolved_ref", identity.resolvedRef)]
  match identity.sourceType with
  | .releaseAsset =>
      common ++ [("release_id", identity.releaseId), ("asset_id", identity.assetId), ("asset_name", identity.assetName)] ++
        if identity.payloadKind = .deb then
          [("expected_package", identity.expectedPackage), ("expected_architecture", identity.expectedArchitecture)]
        else []
  | .githubSourceArchive =>
      common ++ [("release_id", identity.releaseId), ("commit_sha", identity.commitSha),
        ("ref_object_sha", identity.refObjectSha), ("source_archive_format", identity.sourceArchiveFormat)]
  | .gitRef =>
      common ++ [("requested_ref", identity.requestedRef), ("commit_sha", identity.commitSha),
        ("source_archive_format", identity.sourceArchiveFormat)] ++
        if identity.tracking = .tag then [("ref_object_sha", identity.refObjectSha)] else []

/-- `missing_fields` -/
def missing : List String := (identity.requiredFields.filter fun row => row.2 = "").map Prod.fst

/-- `completeness` -/
def completeness : String := if identity.missing = [] then "complete" else "partial"

/-- The canonical document. -/
def toFields : Fields :=
  [("schema_version", int 1),
   ("provider", str "github"),
   ("repository", str identity.repository),
   ("tracking", str identity.tracking.text),
   ("source_type", str identity.sourceType.text),
   ("payload_kind", str identity.payloadKind.text),
   ("requested_ref", str identity.requestedRef),
   ("release_id", str identity.releaseId),
   ("asset_id", str identity.assetId),
   ("commit_sha", str identity.commitSha),
   ("ref_object_sha", str identity.refObjectSha),
   ("resolved_ref", str identity.resolvedRef),
   ("resolved_version", str identity.resolvedVersion),
   ("content_sha256", str identity.contentSha256),
   ("asset_name", str identity.assetName),
   ("expected_size", identity.expectedSize.elim null int),
   ("source_archive_format", str identity.sourceArchiveFormat),
   ("expected_package", str identity.expectedPackage),
   ("expected_architecture", str identity.expectedArchitecture),
   ("completeness", str identity.completeness),
   ("missing_fields", arr (identity.missing.map str))]

def toJson : Json := obj identity.toFields

end Identity

/-! ## Reading -/

/-- `FIELDS` -/
def knownFields : List String :=
  ["schema_version", "provider", "repository", "tracking", "source_type", "payload_kind", "requested_ref", "release_id",
   "asset_id", "commit_sha", "resolved_ref", "resolved_version", "content_sha256", "completeness", "missing_fields",
   "asset_name", "expected_size", "source_archive_format", "expected_package", "expected_architecture", "ref_object_sha"]

/-- The schema version is the number one; a missing one is. -/
def checkVersion (fields : Fields) : Except UpstreamIdentityError Unit :=
  let version := (fields.lookup "schema_version").getD (int 1)
  let error (code : String) : UpstreamIdentityError := ⟨code, "Unsupported upstream identity schema version", "$.schema_version"⟩
  match version with
  | int n =>
      if n = 1 then .ok ()
      else .error (error (if 1 < n then "future_upstream_identity_version" else "invalid_upstream_identity_version"))
  | .bool _ => .error (error "invalid_upstream_identity_version")
  | other => if other.equals (int 1) then .ok () else .error (error "invalid_upstream_identity_version")

def inRepository (c : Char) : Bool :=
  ('a' ≤ c && c ≤ 'z') || ('0' ≤ c && c ≤ '9') || c = '_' || c = '.' || c = '-'

/-- `re.fullmatch(r"[a-z0-9_.-]+/[a-z0-9_.-]+", repository)` -/
def isRepository (repository : String) : Bool :=
  match Text.cut ['/'] repository.toList with
  | some (owner, name) => owner ≠ [] && name ≠ [] && owner.all inRepository && name.all inRepository
  | none => false

/-- The provider and the repository. -/
def readRepository (fields : Fields) : Except UpstreamIdentityError String := do
  let provider := lower (← text (get fields "provider") "provider" true 32)
  refuse (provider ≠ "github") (invalid "Unsupported upstream provider" "$.provider")
  let repository := lower (← text (get fields "repository") "repository" true)
  refuse (isRepository repository = false) (invalid "repository must be canonical owner/name" "$.repository")
  return repository

/-- How the release is followed, where it comes from, and what is taken of it. -/
def readKinds (fields : Fields) : Except UpstreamIdentityError (Tracking × SourceType × PayloadKind) := do
  let tracking ← text (get fields "tracking") "tracking" true 32
  let sourceType ← text (get fields "source_type") "source_type" true 32
  let payloadKind ← text (get fields "payload_kind") "payload_kind" true 32
  let unsupported := invalid "Unsupported tracking/source/payload identity"
  let tracking ← demand unsupported (Tracking.ofText? tracking)
  let sourceType ← demand unsupported (SourceType.ofText? sourceType)
  let payloadKind ← demand unsupported (PayloadKind.ofText? payloadKind)
  refuse (tracking = .latestRelease ∧ sourceType = .gitRef)
    (invalid "Latest-release tracking requires a release identity" "$.source_type")
  refuse (tracking ≠ .latestRelease ∧ sourceType ≠ .gitRef)
    (invalid "Explicit ref tracking requires a Git ref identity" "$.source_type")
  refuse (sourceType = .releaseAsset ∧ payloadKind = .sourceArchive)
    (invalid "Release asset payload kind must be deb, archive, or raw_file" "$.payload_kind")
  refuse (sourceType = .githubSourceArchive ∧ payloadKind ≠ .sourceArchive)
    (invalid "Generated GitHub source payload must be source_archive" "$.payload_kind")
  refuse (sourceType = .gitRef ∧ payloadKind ≠ .sourceArchive)
    (invalid "Git ref payload must be a source archive" "$.payload_kind")
  return (tracking, sourceType, payloadKind)

/-- The other fields. -/
def readFields (fields : Fields) (repository : String) (kinds : Tracking × SourceType × PayloadKind) :
    Except UpstreamIdentityError Identity := do
  let requestedRef ← githubRef (get fields "requested_ref") "requested_ref"
  let releaseId ← text (get fields "release_id") "release_id" false 40
  let assetId ← text (get fields "asset_id") "asset_id" false 40
  let commitSha ← sha (get fields "commit_sha") "commit_sha" [40, 64]
  let refObjectSha ← sha (get fields "ref_object_sha") "ref_object_sha" [40, 64]
  let resolvedRef ← githubRef (get fields "resolved_ref") "resolved_ref"
  let resolvedVersion ← version (get fields "resolved_version")
  let contentSha256 ← sha (get fields "content_sha256") "content_sha256" [64]
  let assetName ← text (get fields "asset_name") "asset_name"
  let expectedSize ← size (get fields "expected_size")
  let sourceArchiveFormat ← text (get fields "source_archive_format") "source_archive_format" false 16
  let expectedPackage ← text (get fields "expected_package") "expected_package"
  let expectedArchitecture ← text (get fields "expected_architecture") "expected_architecture" false 16
  return ⟨repository, kinds.1, kinds.2.1, kinds.2.2, requestedRef, releaseId, assetId, commitSha, refObjectSha, resolvedRef,
    resolvedVersion, contentSha256, assetName, expectedSize, sourceArchiveFormat, expectedPackage, expectedArchitecture⟩

section
variable (isDigit : Char → Bool)

/-- The checks of the identity as a whole; `isDigit` is `str.isdigit` of one character. -/
def checkIdentity (identity : Identity) : Except UpstreamIdentityError Unit := do
  let ⟨_, tracking, sourceType, payloadKind, requestedRef, releaseId, assetId, commitSha, refObjectSha, _, _, contentSha256,
    assetName, expectedSize, sourceArchiveFormat, expectedPackage, expectedArchitecture⟩ := identity
  refuse (releaseId.toList.all isDigit = false) (invalid "release_id must be a GitHub numeric ID" "$.release_id")
  refuse (assetId.toList.all isDigit = false) (invalid "asset_id must be a GitHub numeric ID" "$.asset_id")
  refuse (sourceArchiveFormat ≠ "" ∧ sourceArchiveFormat ∉ ["tar.gz", "zip"])
    (invalid "Unsupported source archive format" "$.source_archive_format")
  refuse (expectedArchitecture ≠ "" ∧ expectedArchitecture ∉ ["all", "amd64", "arm64", "armhf"])
    (invalid "Unsupported expected architecture" "$.expected_architecture")
  refuse (sourceType = .releaseAsset ∧
      (requestedRef ≠ "" ∨ commitSha ≠ "" ∨ refObjectSha ≠ "" ∨ sourceArchiveFormat ≠ ""))
    (invalid "Release asset identity contains irrelevant Git ref fields")
  refuse (sourceType = .githubSourceArchive ∧
      (requestedRef ≠ "" ∨ assetId ≠ "" ∨ assetName ≠ "" ∨ expectedSize ≠ none ∨ expectedPackage ≠ "" ∨ expectedArchitecture ≠ ""))
    (invalid "Generated source archive contains irrelevant selector fields")
  refuse (sourceType = .gitRef ∧
      (releaseId ≠ "" ∨ assetId ≠ "" ∨ assetName ≠ "" ∨ expectedSize ≠ none ∨ expectedPackage ≠ "" ∨
        expectedArchitecture ≠ "" ∨ contentSha256 ≠ ""))
    (invalid "Git ref identities cannot carry release asset IDs")
  refuse (sourceType = .gitRef ∧ tracking = .manual ∧ refObjectSha ≠ "")
    (invalid "Manual Git refs cannot carry tag object identity" "$.ref_object_sha")
  refuse (sourceType = .releaseAsset ∧ payloadKind ≠ .deb ∧ (expectedPackage ≠ "" ∨ expectedArchitecture ≠ ""))
    (invalid "Only Debian assets carry package selectors")
  refuse (assetName ≠ "" ∧ (assetName = "." ∨ assetName = ".." ∨ '/' ∈ assetName.toList ∨ '\\' ∈ assetName.toList))
    (invalid "asset_name is unsafe" "$.asset_name")

/-- The value is the list of the fields that are missing. -/
def declaresMissing (identity : Identity) : Json → Bool
  | arr items => items.mapM str? = some identity.missing
  | _ => false

/-- What the document says of its completeness is what is derived. -/
def checkDeclared (fields : Fields) (identity : Identity) : Except UpstreamIdentityError Unit := do
  refuse (∃ value ∈ fields.lookup "completeness", value.equals (str identity.completeness) = false)
    ⟨"upstream_identity_completeness_mismatch", "Declared identity completeness does not match its immutable identifiers",
      "$.completeness"⟩
  refuse (∃ value ∈ fields.lookup "missing_fields", declaresMissing identity value = false)
    ⟨"upstream_identity_completeness_mismatch", "Declared missing_fields do not match the identity", "$.missing_fields"⟩

/-- `canonical_identity_bytes(identity)`, as a text. -/
def canonical (identity : Identity) : String := String.ofList (dumps identity.toJson)

/-- `normalize_upstream_identity(value)` -/
def normalize (value : Json) : Except UpstreamIdentityError Identity := do
  let fields ← demand (invalid "Upstream identity must be an object") value.fields?
  refuse ((Recipe.firstUnknown fields knownFields).isSome)
    ⟨"unsafe_upstream_identity_field", "Unsupported upstream identity field: " ++ (Recipe.firstUnknown fields knownFields).getD "",
      "$." ++ (Recipe.firstUnknown fields knownFields).getD ""⟩
  checkVersion fields
  let repository ← readRepository fields
  let kinds ← readKinds fields
  let identity ← readFields fields repository kinds
  checkIdentity isDigit identity
  checkDeclared fields identity
  refuse (maxIdentityBytes < (canonical identity).utf8ByteSize)
    ⟨"upstream_identity_too_large", "Upstream identity is too large", "$"⟩
  return identity

/-! ## The key of an attempt -/

def inRecipeId (c : Char) : Bool :=
  ('A' ≤ c && c ≤ 'Z') || ('a' ≤ c && c ≤ 'z') || ('0' ≤ c && c ≤ '9') || c ∈ ['_', '.', '+', '-']

/-- `re.fullmatch(r"[A-Za-z0-9_.+-]{1,128}", recipe_id)` -/
def isRecipeId (id : String) : Bool := 1 ≤ id.length && id.length ≤ 128 && id.toList.all inRecipeId

/-- `re.fullmatch(r"[0-9a-fA-F]{64}", recipe_sha256)` -/
def isRecipeSha256 (sha : String) : Bool :=
  sha.length = 64 && sha.toList.all fun c => isHex c || ('A' ≤ c && c ≤ 'F')

/-- What the key is a digest of. -/
def payload (recipeId : String) (identity : Identity) (recipeSha256 : String) : Json :=
  obj [("schema_version", int 1), ("recipe_id", str recipeId), ("recipe_sha256", str (lower recipeSha256)),
    ("upstream_identity", identity.toJson)]

/-- `automation_attempt_key(recipe_id, identity, recipe_sha256)`; `sha256` is the digest of the
bytes of a text. -/
def attemptKey (sha256 : String → String) (recipeId : String) (identity : Json) (recipeSha256 : String) :
    Except UpstreamIdentityError String := do
  refuse (isRecipeId recipeId = false) ⟨"invalid_attempt_recipe", "Recipe ID is invalid", "$.recipe_id"⟩
  refuse (isRecipeSha256 recipeSha256 = false)
    ⟨"invalid_attempt_recipe_sha256", "Recipe SHA-256 is invalid", "$.recipe_sha256"⟩
  let normalized ← normalize isDigit identity
  refuse (normalized.completeness ≠ "complete")
    ⟨"incomplete_upstream_identity", "A partial upstream identity cannot form a durable automation claim", "$.upstream_identity"⟩
  return "automation-v1-" ++ sha256 (String.ofList (dumps (payload recipeId normalized recipeSha256)))

end

end Upstream
end DebBuilder
