import Mathlib

/-!
# Where a Run comes from and what it publishes

The parts of a Run document that tie it to an upstream identity, to the automation
that asked for it, and to the repository its artifact went to.  Identities are the
normalized ones of `automation_identity.py`; a normalized identity always carries the
completeness that its own fields give, so the model computes it.

## Main definitions

* `Identity`, `Identity.complete` — an exact upstream identity.
* `Policy`, `RunAutomation`, `Origin` — the automation metadata of a Run.
* `Artifact`, `Publication` — the built artifact and the attempts to publish it.
* `successfulPublicationProof` — a publication that carries its own proof.
-/

namespace DebBuilder

/-- An instant, in microseconds. -/
abbrev Time := Nat

/-- The name of a Run, and of its workspace directory. -/
abbrev RunId := String

abbrev RecipeId := String

/-- The key of an automation attempt, a digest. -/
abbrev AttemptKey := String

/-! ## Upstream identities -/

inductive Tracking where
  | latestRelease
  | tag
  | manual
  deriving DecidableEq, Repr

inductive SourceType where
  | releaseAsset
  | githubSourceArchive
  | gitRef
  deriving DecidableEq, Repr

inductive PayloadKind where
  | deb
  | archive
  | rawFile
  | sourceArchive
  deriving DecidableEq, Repr

/-- A normalized upstream identity. -/
structure Identity where
  repository : String
  tracking : Tracking
  sourceType : SourceType
  payloadKind : PayloadKind
  requestedRef : String := ""
  releaseId : String := ""
  assetId : String := ""
  commitSha : String := ""
  refObjectSha : String := ""
  resolvedRef : String := ""
  resolvedVersion : String := ""
  contentSha256 : String := ""
  assetName : String := ""
  expectedSize : Option Nat := none
  sourceArchiveFormat : String := ""
  expectedPackage : String := ""
  expectedArchitecture : String := ""
  deriving DecidableEq, Repr

/-- `_required_fields`, with the value of each. -/
def Identity.requiredFields (i : Identity) : List (String × String) :=
  let common := [("resolved_ref", i.resolvedRef)]
  match i.sourceType with
  | .releaseAsset =>
      common ++ [("release_id", i.releaseId), ("asset_id", i.assetId), ("asset_name", i.assetName)] ++
        if i.payloadKind = .deb then
          [("expected_package", i.expectedPackage), ("expected_architecture", i.expectedArchitecture)]
        else []
  | .githubSourceArchive =>
      common ++ [("release_id", i.releaseId), ("commit_sha", i.commitSha),
        ("ref_object_sha", i.refObjectSha), ("source_archive_format", i.sourceArchiveFormat)]
  | .gitRef =>
      common ++ [("requested_ref", i.requestedRef), ("commit_sha", i.commitSha),
        ("source_archive_format", i.sourceArchiveFormat)] ++
        if i.tracking = .tag then [("ref_object_sha", i.refObjectSha)] else []

/-- `identity["completeness"] == "complete"` -/
def Identity.complete (i : Identity) : Bool := i.requiredFields.all fun f => f.2 ≠ ""

/-! ## Automation metadata -/

/-- `POLICIES`. -/
inductive Policy where
  | manual
  | detect
  | test
  | build
  | buildValidate
  | full
  deriving DecidableEq, Repr

/-- `POLICY_RANK`. -/
def Policy.rank : Policy → Nat
  | .manual => 0
  | .detect => 1
  | .test => 2
  | .build => 3
  | .buildValidate => 4
  | .full => 5

/-- The `automation` object of a Run. -/
structure RunAutomation where
  attemptKey : AttemptKey
  generation : Nat
  policy : Policy
  expectedUpstreamIdentity : Identity
  deriving DecidableEq, Repr

/-- The `origin` object of a Run. -/
structure Origin where
  kind : String
  trigger : String
  reason : String
  deriving DecidableEq, Repr

/-! ## Artifacts and publications -/

/-- What is read of the `artifact` object of a Run: the file, its digest in lower case, and
its inspection. -/
structure Artifact where
  path : String
  size : Nat
  sha256 : String
  package : String
  version : String
  architecture : String
  deriving DecidableEq, Repr

inductive PublicationStatus where
  | running
  | success
  | failed
  deriving DecidableEq, Repr

/-- What is compared of a canonical `PublicationProofV1`. -/
structure PublicationProof where
  repositoryRoot : String
  distribution : String
  component : String
  package : String
  version : String
  architecture : String
  sourcePath : String
  sourceSize : Nat
  sourceSha256 : String
  deriving DecidableEq, Repr

/-- One publication attempt of a Run.  `proof` is there when the stored proof is
canonical. -/
structure Publication where
  id : String
  buildRunId : RunId
  artifact : String
  package : String
  version : String
  architecture : String
  status : PublicationStatus
  repositoryRoot : String
  distribution : String
  component : String
  proof : Option PublicationProof
  errorCode : Option String
  deriving DecidableEq, Repr

/-- `successful_publication_proof(attempt, run=run)`, where `run` is read for its id and
its artifact only. -/
def successfulPublicationProof (attempt : Publication) (runId : RunId)
    (artifact : Option Artifact) : Option PublicationProof :=
  if attempt.status ≠ .success then none else
  match attempt.proof, artifact with
  | some proof, some artifact =>
      if proof.repositoryRoot ≠ attempt.repositoryRoot ∨
          proof.distribution ≠ attempt.distribution ∨ proof.component ≠ attempt.component ∨
          proof.package ≠ attempt.package ∨ proof.version ≠ attempt.version ∨
          proof.architecture ≠ attempt.architecture ∨ proof.sourcePath ≠ attempt.artifact then none
      else if attempt.buildRunId ≠ runId ∨ attempt.artifact ≠ artifact.path ∨
          proof.package ≠ artifact.package ∨ proof.version ≠ artifact.version ∨
          proof.architecture ≠ artifact.architecture ∨ proof.sourceSize ≠ artifact.size ∨
          proof.sourceSha256 ≠ artifact.sha256 then none
      else some proof
  | _, _ => none

end DebBuilder
