import Mathlib
import DebBuilder.Lib.Json
import DebBuilder.Publishing.Document
import DebBuilder.Publishing.Repository

/-!
# Publication evidence

The reader of a stored publication proof.  It is given whatever JSON a document holds, and
its caller takes a `PublicationError` for the verdict that there is no proof; the path
checks raise a `RepositoryLockError`, which is none.

## Main definitions

* `canonicalPublicationProof`, `successfulPublicationProof` — the readers.
* `PublicationProof.Canonical`, `Proven` — what a proof that is returned is worth.
* `Trips` — the documents on which a path check raises.

## Main results

* `canonicalPublicationProof_raises_iff` — when the reader raises something else than a
  `PublicationError`.
* `canonicalPublicationProof_sound`, `successfulPublicationProof_sound` — what it accepts.
-/

namespace DebBuilder.Publishing
open Lib

/-! ## The reader of a proof -/

def proofInvalid (message : String) : Raised := .publication ⟨"publication_proof_invalid", message, .none⟩

/-- A text of a document: not longer than the limit, and without NUL. -/
def IsText (limit : Nat) (s : String) : Prop := s.length ≤ limit ∧ '\x00' ∉ s.toList

instance {limit : Nat} : DecidablePred (IsText limit) := fun _ => instDecidableAnd

/-- `optional_text_value` -/
def optionalTextValue (container : Json.Fields) (key : String) (limit : Nat := 4096) : Except Raised String := do
  let error := proofInvalid s!"Publication proof field {key} is invalid"
  let result ← demand error (Json.get container key).str?
  refuse (¬ IsText limit result) error
  pure result

/-- `text_value` -/
def textValue (container : Json.Fields) (key : String) (limit : Nat := 4096) : Except Raised String := do
  let error := proofInvalid s!"Publication proof field {key} is invalid"
  let result ← demand error (Json.get container key).str?
  refuse (result = "" ∨ ¬ IsText limit result) error
  pure result

/-- `integer_value` -/
def integerValue (container : Json.Fields) (key : String) : Except Raised Int := do
  let error := proofInvalid s!"Publication proof field {key} is invalid"
  let result ← demand error (Json.get container key).int?
  refuse (result < 0) error
  pure result

/-- `safe_relative_path(path, required_prefix=requiredPrefix).as_posix()` -/
def relativePath (path : String) (requiredPrefix : Option String) : Except Raised String :=
  asPosix <$> safeRelativePath path requiredPrefix

/-- `SHA256_RE` -/
def isDigest (value : String) : Bool :=
  value.length = 64 && value.toList.all fun c => (48 ≤ c.toNat && c.toNat ≤ 57) || (97 ≤ c.toNat && c.toNat ≤ 102)

/-- `value.lower()` -/
def lowered (value : String) : String := String.ofList (Text.lower value.toList)

/-- One entry of `targets`. -/
def canonicalTarget (value : Json) : Except Raised Target := do
  let invalid := proofInvalid "Publication proof target is invalid"
  let target ← demand invalid value.fields?
  let index ← demand invalid (Json.get target "index").fields?
  let pool ← demand invalid (Json.get target "pool").fields?
  let indexPath ← relativePath (← textValue index "path") none
  let filename ← relativePath (← textValue index "filename") (some "pool")
  let poolPath ← relativePath (← textValue pool "path") (some "pool")
  refuse (filename ≠ poolPath) (proofInvalid "Publication proof pool paths disagree")
  let indexSha := lowered (← textValue index "sha256" 64)
  let poolSha := lowered (← textValue pool "sha256" 64)
  refuse (!isDigest indexSha || !isDigest poolSha) (proofInvalid "Publication proof digest is invalid")
  let databaseArchitecture ← textValue target "database_architecture" 128
  let indexDevice ← integerValue index "device"
  let indexInode ← integerValue index "inode"
  let indexSize ← integerValue index "size"
  let poolSize ← integerValue pool "size"
  let poolDevice ← integerValue pool "device"
  let poolInode ← integerValue pool "inode"
  pure {
    databaseArchitecture
    index := ⟨indexPath, indexDevice, indexInode, filename, indexSize, indexSha⟩
    pool := ⟨poolPath, poolSize, poolSha, poolDevice, poolInode⟩ }

/-- The parts of a proof that are dictionaries. -/
structure ProofParts where
  repository : Json.Fields
  distribution : Json.Fields
  source : Json.Fields
  targets : List Json

def proofSchema : String := "debbuilder.repository-publication-proof.v1"

/-- The fields of older proofs. -/
def convenienceFields : List String := ["database_architecture", "database_architectures", "index", "pool"]

/-- The checks of the shape of a proof. -/
def proofParts (value : Json) : Except Raised (Json.Fields × ProofParts) := do
  let unsupported := proofInvalid "Publication proof is not a supported PublicationProofV1 record"
  let fields ← demand unsupported value.fields?
  refuse (!(Json.str proofSchema).equals (Json.get fields "schema") ||
    !(Json.int 1).equals (Json.get fields "proof_version")) unsupported
  refuse (convenienceFields.any fun key => (fields.lookup key).isSome)
    (proofInvalid "Publication proof contains non-canonical convenience fields")
  let incomplete := proofInvalid "Publication proof identity is incomplete"
  let repository ← demand incomplete (Json.get fields "repository").fields?
  let distribution ← demand incomplete (Json.get fields "distribution").fields?
  let source ← demand incomplete (Json.get fields "source").fields?
  let unusable := proofInvalid "Publication proof targets are invalid"
  let targets ← demand unusable (Json.get fields "targets").values?
  refuse (targets = [] ∨ 64 < targets.length) unusable
  pure (fields, ⟨repository, distribution, source, targets⟩)

/-- The fields of a proof beside its targets. -/
def proofFields (fields : Json.Fields) (parts : ProofParts) (targets : List Target) : Except Raised PublicationProof := do
  let sourceSha := lowered (← textValue parts.source "sha256" 64)
  refuse (!isDigest sourceSha) (proofInvalid "Publication proof source digest is invalid")
  let verifiedAt ← textValue fields "verified_at" 128
  let root ← textValue parts.repository "root"
  let repositoryDevice ← integerValue parts.repository "device"
  let repositoryInode ← integerValue parts.repository "inode"
  let requested ← textValue parts.distribution "requested" 128
  let codename ← textValue parts.distribution "codename" 128
  let suite ← optionalTextValue parts.distribution "suite" 128
  let component ← textValue fields "component" 256
  let package ← textValue fields "package" 256
  let version ← textValue fields "version" 512
  let architecture ← textValue fields "architecture" 128
  let path ← textValue parts.source "path"
  let size ← integerValue parts.source "size"
  let sourceDevice ← integerValue parts.source "device"
  let sourceInode ← integerValue parts.source "inode"
  pure {
    schema := proofSchema
    proofVersion := 1
    verifiedAt
    repository := ⟨root, repositoryDevice, repositoryInode⟩
    distribution := ⟨requested, codename, suite⟩
    component
    package
    version
    architecture
    targets
    source := ⟨path, size, sourceSha, sourceDevice, sourceInode⟩ }

/-- Membership in a list of path components is decided with this instance. -/
local instance lawfulBEqComponent : LawfulBEq (List Char) := inferInstance

/-- An absolute path that is its own `os.path.abspath`, with one leading slash. -/
def isCanonicalRoot (root : String) : Bool :=
  match root.toList with
  | '/' :: cs => cs = [] || (cs.splitOn '/').all (· ∉ [[], ['.'], ['.', '.']])
  | _ => false

/-- The path of an exported index, without its extension. -/
def indexPath (codename component architecture : String) : String :=
  s!"dists/{codename}/{component}/binary-{architecture}/Packages"

/-- The checks between the parts of a proof. -/
def checkProof (proof : PublicationProof) : Except Raised PublicationProof := do
  refuse (!isCanonicalRoot proof.repository.root) (proofInvalid "Publication proof repository root is not canonical")
  refuse (!isRepositoryToken proof.distribution.requested || !isRepositoryToken proof.distribution.codename ||
      !isPackageName proof.package || !isRepositoryToken proof.architecture)
    (proofInvalid "Publication proof package identity is invalid")
  let invalidComponent := proofInvalid "Publication proof component is invalid"
  let componentParts ← (safeRelativePath proof.component none).mapError fun _ => invalidComponent
  let componentPath := asPosix componentParts
  refuse (componentPath ≠ proof.component ∨ ¬ componentParts.all isRepositoryToken) invalidComponent
  let architectures : List String := proof.targets.map Target.databaseArchitecture
  refuse (¬ architectures.Nodup) (proofInvalid "Publication proof target architectures are not unique")
  refuse (architectures.any fun architecture =>
      !isRepositoryToken architecture || architecture ∈ ["all", "source"])
    (proofInvalid "Publication proof target architecture is invalid")
  refuse (proof.architecture ≠ "all" ∧ architectures ≠ [proof.architecture])
    (proofInvalid "Publication proof target architecture does not match the artifact")
  refuse (∃ target ∈ proof.targets,
      let expected := indexPath proof.distribution.codename componentPath target.databaseArchitecture
      target.index.path ≠ expected ∧ target.index.path ≠ expected ++ ".gz")
    (proofInvalid "Publication proof index path does not match its target")
  refuse (∃ target ∈ proof.targets,
      target.index.size ≠ proof.source.size ∨ target.index.sha256 ≠ proof.source.sha256 ∨
        target.pool.size ≠ proof.source.size ∨ target.pool.sha256 ≠ proof.source.sha256)
    (proofInvalid "Publication proof target bytes do not match the source artifact")
  pure proof

/-- `canonical_publication_proof` -/
def canonicalPublicationProof (value : Json) : Except Raised PublicationProof := do
  let (fields, parts) ← proofParts value
  let targets ← parts.targets.mapM canonicalTarget
  let proof ← proofFields fields parts targets
  checkProof proof

/-! ## The reader of an attempt -/

/-- The proof is about what the attempt was about. -/
def agreesWithAttempt (proof : PublicationProof) (attempt repository : Json.Fields) : Bool :=
  proof.repository.root = (Json.get repository "root").text &&
    (Json.str proof.distribution.requested).equals (Json.get repository "distribution") &&
    (Json.str proof.component).equals (Json.get repository "component") &&
    (Json.str proof.package).equals (Json.get attempt "package") &&
    (Json.str proof.version).equals (Json.get attempt "version") &&
    (Json.str proof.architecture).equals (Json.get attempt "architecture") &&
    (Json.str proof.source.path).equals (Json.get attempt "artifact")

/-- The proof is about the artifact of the Run. -/
def agreesWithRun (proof : PublicationProof) (attempt run : Json.Fields) : Bool :=
  match (Json.get run "artifact").fields? with
  | none => false
  | some artifact =>
      match (Json.get artifact "inspection").fields? with
      | none => false
      | some inspection =>
          (Json.get attempt "build_run_id").equals (Json.get run "id") &&
            (Json.get attempt "artifact").equals (Json.get artifact "path") &&
            (Json.str proof.package).equals (Json.get inspection "package") &&
            (Json.str proof.version).equals (Json.get inspection "version") &&
            (Json.str proof.architecture).equals (Json.get inspection "architecture") &&
            (Json.int proof.source.size).equals (Json.get artifact "size") &&
            proof.source.sha256 = lowered (Json.get artifact "sha256").text

/-- `except (PublicationError, TypeError, ValueError)` -/
def refusedProof : Raised → Bool
  | .publication _ | .type | .value _ => true
  | _ => false

/-- `successful_publication_proof` -/
def successfulPublicationProof (attempt : Json) (run : Option Json.Fields) : Except Raised (Option PublicationProof) :=
  match attempt.fields? with
  | none => .ok none
  | some fields =>
      if (Json.str "success").equals (Json.get fields "status") then
        match canonicalPublicationProof (Json.get fields "proof") with
        | .error e => if refusedProof e then .ok none else .error e
        | .ok proof =>
            match (Json.get fields "repository").fields? with
            | none => .ok none
            | some repository =>
                if agreesWithAttempt proof fields repository && run.all (agreesWithRun proof fields)
                then .ok (some proof) else .ok none
      else .ok none

/-! ## What is accepted -/

/-- What the checks between the parts of a proof are for. -/
structure PublicationProof.Canonical (proof : PublicationProof) : Prop where
  root : isCanonicalRoot proof.repository.root = true
  package : isPackageName proof.package = true
  distinct : (proof.targets.map Target.databaseArchitecture).Nodup
  architecture : proof.architecture = "all" ∨
    proof.targets.map Target.databaseArchitecture = [proof.architecture]
  index : ∀ target ∈ proof.targets,
    let expected := indexPath proof.distribution.codename proof.component target.databaseArchitecture
    target.index.path = expected ∨ target.index.path = expected ++ ".gz"
  bytes : ∀ target ∈ proof.targets,
    target.index.size = proof.source.size ∧ target.index.sha256 = proof.source.sha256 ∧
      target.pool.size = proof.source.size ∧ target.pool.sha256 = proof.source.sha256

theorem checkProof_sound {proof result : PublicationProof} (h : checkProof proof = .ok result) :
    result = proof ∧ proof.Canonical := by
  simp only [checkProof, bind_eq_ok, refuse_eq_ok, pure_eq_ok] at h
  obtain ⟨_, hroot, _, hidentity, parts, _, _, hcomponent, _, hdistinct, _, _, _, harchitecture, _, hindex, _, hbytes, rfl⟩ := h
  have hposix : asPosix parts = proof.component := by
    by_contra hne
    exact hcomponent (.inl hne)
  refine ⟨rfl, ?_, ?_, ?_, ?_, ?_, ?_⟩
  · simpa using hroot
  · by_contra hpackage
    simp [hpackage] at hidentity
  · exact not_not.1 hdistinct
  · by_contra hne
    exact harchitecture (not_or.1 hne)
  · intro target htarget
    by_contra hne
    exact hindex ⟨target, htarget, by rw [hposix]; exact not_or.1 hne⟩
  · intro target htarget
    by_contra hne
    refine hbytes ⟨target, htarget, ?_⟩
    by_contra hall
    simp only [not_or, not_not] at hall
    exact hne hall

/-- **A proof that is accepted is canonical.** -/
theorem canonicalPublicationProof_sound {value : Json} {proof : PublicationProof}
    (h : canonicalPublicationProof value = .ok proof) : proof.Canonical := by
  obtain ⟨⟨fields, parts⟩, _, h⟩ := bind_eq_ok.1 h
  obtain ⟨targets, _, h⟩ := bind_eq_ok.1 h
  obtain ⟨proof', _, h⟩ := bind_eq_ok.1 h
  obtain ⟨rfl, hcanonical⟩ := checkProof_sound h
  exact hcanonical

/-- The proof is about the artifact of the Run, field by field. -/
structure PublicationProof.IsOfRun (proof : PublicationProof) (attempt run : Json.Fields) : Prop where
  artifact : ∃ artifact, Json.get run "artifact" = .obj artifact ∧
    (Json.get attempt "artifact").equals (Json.get artifact "path") = true ∧
    (Json.int proof.source.size).equals (Json.get artifact "size") = true ∧
    proof.source.sha256 = lowered (Json.get artifact "sha256").text ∧
    ∃ inspection, Json.get artifact "inspection" = .obj inspection ∧
      Json.get inspection "package" = .str proof.package ∧
      Json.get inspection "version" = .str proof.version ∧
      Json.get inspection "architecture" = .str proof.architecture
  run : (Json.get attempt "build_run_id").equals (Json.get run "id") = true

/-- What a proof that is returned for an attempt proves. -/
structure Proven (proof : PublicationProof) (attempt : Json) (run : Option Json.Fields) : Prop where
  attempt : ∃ fields, attempt = .obj fields ∧ Json.get fields "status" = .str "success" ∧
    canonicalPublicationProof (Json.get fields "proof") = .ok proof ∧
    Json.get fields "package" = .str proof.package ∧ Json.get fields "version" = .str proof.version ∧
    Json.get fields "architecture" = .str proof.architecture ∧ Json.get fields "artifact" = .str proof.source.path ∧
    (∃ repository, Json.get fields "repository" = .obj repository ∧
      proof.repository.root = (Json.get repository "root").text ∧
      Json.get repository "distribution" = .str proof.distribution.requested ∧
      Json.get repository "component" = .str proof.component) ∧
    ∀ document, run = some document → proof.IsOfRun fields document
  canonical : proof.Canonical

theorem fields?_eq_some {value : Json} {fields : Json.Fields} : value.fields? = some fields ↔ value = .obj fields := by
  cases value <;> simp [Json.fields?]

theorem isOfRun_of_agreesWithRun {proof : PublicationProof} {attempt run : Json.Fields}
    (h : agreesWithRun proof attempt run = true) : proof.IsOfRun attempt run := by
  unfold agreesWithRun at h
  split at h
  · cases h
  next artifact hartifact =>
    split at h
    · cases h
    next inspection hinspection =>
      simp only [Bool.and_eq_true, decide_eq_true_eq, Json.equals_str] at h
      obtain ⟨⟨⟨⟨⟨⟨hid, hpath⟩, hpackage⟩, hversion⟩, harchitecture⟩, hsize⟩, hsha⟩ := h
      exact ⟨⟨artifact, fields?_eq_some.1 hartifact, hpath, hsize, hsha, inspection, fields?_eq_some.1 hinspection,
        hpackage, hversion, harchitecture⟩, hid⟩

/-- **What a returned proof proves.** -/
theorem successfulPublicationProof_sound {attempt : Json} {run : Option Json.Fields} {proof : PublicationProof}
    (h : successfulPublicationProof attempt run = .ok (some proof)) : Proven proof attempt run := by
  unfold successfulPublicationProof at h
  split at h
  · cases h
  next fields hfields =>
    by_cases hstatus : (Json.str "success").equals (Json.get fields "status") = true
    · rw [if_pos hstatus] at h
      cases hproof : canonicalPublicationProof (Json.get fields "proof") with
      | error e =>
          simp only [hproof] at h
          split at h <;> cases h
      | ok proof' =>
          simp only [hproof] at h
          split at h
          · cases h
          next repository hrepository =>
            split at h
            next hagrees =>
              obtain rfl : proof' = proof := by simpa using h
              obtain ⟨hattempt, hrun⟩ := Bool.and_eq_true_iff.1 hagrees
              simp only [agreesWithAttempt, Bool.and_eq_true, decide_eq_true_eq, Json.equals_str] at hattempt
              obtain ⟨⟨⟨⟨⟨⟨hroot, hrequested⟩, hcomponent⟩, hpackage⟩, hversion⟩, harchitecture⟩, hpath⟩ := hattempt
              refine ⟨⟨fields, fields?_eq_some.1 hfields, Json.equals_str.1 hstatus, hproof, hpackage, hversion,
                harchitecture, hpath, ⟨repository, fields?_eq_some.1 hrepository, hroot, hrequested, hcomponent⟩, ?_⟩,
                canonicalPublicationProof_sound hproof⟩
              rintro document rfl
              exact isOfRun_of_agreesWithRun (by simpa using hrun)
            · cases h
    · rw [if_neg hstatus] at h
      cases h

/-! ## Where a path check raises -/

/-- `text_value` accepts the text under the key. -/
def HasText (container : Json.Fields) (key : String) (s : String) : Prop :=
  Json.get container key = .str s ∧ s ≠ "" ∧ IsText 4096 s

/-- `safe_relative_path` accepts the path. -/
def SafePath (path : String) (requiredPrefix : Option String) : Prop :=
  ∃ parts, safeRelativePath path requiredPrefix = .ok parts

/-- A target with a path that is a text and no safe path, the first thing that is wrong with
it. -/
inductive TripsTarget : Json → Prop
  | index {target index pool : Json.Fields} {path : String}
      (hindex : Json.get target "index" = .obj index) (hpool : Json.get target "pool" = .obj pool)
      (hpath : HasText index "path" path) (h : ¬ SafePath path none) : TripsTarget (.obj target)
  | filename {target index pool : Json.Fields} {path filename : String}
      (hindex : Json.get target "index" = .obj index) (hpool : Json.get target "pool" = .obj pool)
      (hpath : HasText index "path" path) (hsafe : SafePath path none)
      (hfilename : HasText index "filename" filename) (h : ¬ SafePath filename (some "pool")) : TripsTarget (.obj target)
  | pool {target index pool : Json.Fields} {path filename poolPath : String}
      (hindex : Json.get target "index" = .obj index) (hpool : Json.get target "pool" = .obj pool)
      (hpath : HasText index "path" path) (hsafe : SafePath path none)
      (hfilename : HasText index "filename" filename) (hsafe' : SafePath filename (some "pool"))
      (hpoolPath : HasText pool "path" poolPath) (h : ¬ SafePath poolPath (some "pool")) : TripsTarget (.obj target)

/-- The shape of a proof, as far as its targets. -/
structure HasTargets (fields : Json.Fields) (targets : List Json) : Prop where
  schema : Json.get fields "schema" = .str proofSchema
  version : (Json.int 1).equals (Json.get fields "proof_version") = true
  plain : ∀ key ∈ convenienceFields, fields.lookup key = none
  repository : ∃ repository, Json.get fields "repository" = .obj repository
  distribution : ∃ distribution, Json.get fields "distribution" = .obj distribution
  source : ∃ source, Json.get fields "source" = .obj source
  listed : Json.get fields "targets" = .arr targets
  nonempty : targets ≠ []
  bounded : targets.length ≤ 64

/-- A proof whose first wrong target has an unsafe path. -/
def Trips (value : Json) : Prop :=
  ∃ fields earlier target later, value = .obj fields ∧ HasTargets fields (earlier ++ target :: later) ∧
    (∀ t ∈ earlier, ∃ t', canonicalTarget t = .ok t') ∧ TripsTarget target

/-- A `PublicationError`. -/
def IsVerdict (e : Raised) : Prop := ∃ error, e = .publication error

theorem isVerdict_proofInvalid {message : String} : IsVerdict (proofInvalid message) := ⟨_, rfl⟩

section
variable {container : Json.Fields} {key s path : String} {limit : Nat} {requiredPrefix : Option String}

theorem raisesOnly_textValue : RaisesOnly IsVerdict (textValue container key limit) :=
  .bind (raisesOnly_demand isVerdict_proofInvalid) fun _ _ =>
    .bind (raisesOnly_refuse isVerdict_proofInvalid) fun _ _ => raisesOnly_pure

theorem raisesOnly_optionalTextValue : RaisesOnly IsVerdict (optionalTextValue container key limit) :=
  .bind (raisesOnly_demand isVerdict_proofInvalid) fun _ _ =>
    .bind (raisesOnly_refuse isVerdict_proofInvalid) fun _ _ => raisesOnly_pure

theorem raisesOnly_integerValue : RaisesOnly IsVerdict (integerValue container key) :=
  .bind (raisesOnly_demand isVerdict_proofInvalid) fun _ _ =>
    .bind (raisesOnly_refuse isVerdict_proofInvalid) fun _ _ => raisesOnly_pure

theorem textValue_eq_ok : textValue container key = .ok s ↔ HasText container key s := by
  simp only [textValue, bind_eq_ok, demand_eq_ok, refuse_eq_ok, pure_eq_ok]
  constructor
  · rintro ⟨result, hresult, _, hok, rfl⟩
    obtain ⟨hne, htext⟩ := not_or.1 hok
    refine ⟨?_, hne, not_not.1 htext⟩
    cases hvalue : Json.get container key <;> simp_all [Json.str?]
  · rintro ⟨hvalue, hne, htext⟩
    refine ⟨s, by rw [hvalue]; rfl, (), ?_, rfl⟩
    exact fun hor => hor.elim hne fun h => h htext

theorem safeRelativePath_eq_error {e : Raised} (h : safeRelativePath path requiredPrefix = .error e) :
    ∃ error, e = .repositoryLock error := by
  simp only [safeRelativePath] at h
  split at h
  · exact ⟨_, (Except.error.inj h).symm⟩
  · cases requiredPrefix with
    | none => cases h
    | some required =>
        dsimp only at h
        generalize (if path = "." then [] else _) = parts at h
        split at h
        · cases h
        · exact ⟨_, (Except.error.inj h).symm⟩

theorem relativePath_eq_ok : (∃ result, relativePath path requiredPrefix = .ok result) ↔ SafePath path requiredPrefix := by
  simp only [relativePath, map_eq_ok, SafePath]
  constructor
  · rintro ⟨_, parts, hparts, _⟩
    exact ⟨parts, hparts⟩
  · rintro ⟨parts, hparts⟩
    exact ⟨_, parts, hparts, rfl⟩

theorem relativePath_eq_error {e : Raised} (h : relativePath path requiredPrefix = .error e) :
    (∃ error, e = .repositoryLock error) ∧ ¬ SafePath path requiredPrefix := by
  unfold relativePath SafePath at *
  cases hsafe : safeRelativePath path requiredPrefix with
  | ok parts => simp [hsafe, Functor.map, Except.map] at h
  | error e' =>
      have heq : e' = e := by simpa [hsafe, Functor.map, Except.map] using h
      refine ⟨heq ▸ safeRelativePath_eq_error hsafe, ?_⟩
      rintro ⟨parts, hparts⟩
      cases hparts

theorem exists_relativePath_error (h : ¬ SafePath path requiredPrefix) :
    ∃ error, relativePath path requiredPrefix = .error (.repositoryLock error) := by
  cases hpath : relativePath path requiredPrefix with
  | ok result => exact absurd (relativePath_eq_ok.1 ⟨result, hpath⟩) h
  | error e =>
      obtain ⟨⟨error, rfl⟩, _⟩ := relativePath_eq_error hpath
      exact ⟨error, rfl⟩

end

/-- The way a reader fails: with a verdict, or on a document on which it trips. -/
def VerdictOr (P : Prop) (e : Raised) : Prop := IsVerdict e ∨ (∃ error, e = .repositoryLock error) ∧ P

theorem verdictOr_of {α : Type} {P : Prop} {x : Except Raised α} (h : RaisesOnly IsVerdict x) :
    RaisesOnly (VerdictOr P) x := h.mono fun _ he => .inl he

theorem raisesOnly_canonicalTarget {value : Json} : RaisesOnly (VerdictOr (TripsTarget value)) (canonicalTarget value) := by
  refine .bind (raisesOnly_demand (.inl isVerdict_proofInvalid)) fun target htarget => ?_
  refine .bind (raisesOnly_demand (.inl isVerdict_proofInvalid)) fun index hindex => ?_
  refine .bind (raisesOnly_demand (.inl isVerdict_proofInvalid)) fun pool hpool => ?_
  obtain rfl := fields?_eq_some.1 (demand_eq_ok.1 htarget)
  replace hindex := fields?_eq_some.1 (demand_eq_ok.1 hindex)
  replace hpool := fields?_eq_some.1 (demand_eq_ok.1 hpool)
  refine .bind (verdictOr_of raisesOnly_textValue) fun path hpath => ?_
  rw [textValue_eq_ok] at hpath
  refine .bind (fun e he => ?_) fun indexPath hsafe => ?_
  · exact .inr ⟨(relativePath_eq_error he).1, .index hindex hpool hpath (relativePath_eq_error he).2⟩
  replace hsafe := relativePath_eq_ok.1 ⟨indexPath, hsafe⟩
  refine .bind (verdictOr_of raisesOnly_textValue) fun filename hfilename => ?_
  rw [textValue_eq_ok] at hfilename
  refine .bind (fun e he => ?_) fun filenamePath hsafe' => ?_
  · exact .inr ⟨(relativePath_eq_error he).1, .filename hindex hpool hpath hsafe hfilename (relativePath_eq_error he).2⟩
  replace hsafe' := relativePath_eq_ok.1 ⟨filenamePath, hsafe'⟩
  refine .bind (verdictOr_of raisesOnly_textValue) fun poolPath hpoolPath => ?_
  rw [textValue_eq_ok] at hpoolPath
  refine .bind (fun e he => ?_) fun _ _ => verdictOr_of ?_
  · exact .inr ⟨(relativePath_eq_error he).1,
      .pool hindex hpool hpath hsafe hfilename hsafe' hpoolPath (relativePath_eq_error he).2⟩
  -- what is left of the target are texts and numbers
  refine .bind (raisesOnly_refuse isVerdict_proofInvalid) fun _ _ => ?_
  refine .bind raisesOnly_textValue fun _ _ => .bind raisesOnly_textValue fun _ _ => ?_
  refine .bind (raisesOnly_refuse isVerdict_proofInvalid) fun _ _ => .bind raisesOnly_textValue fun _ _ => ?_
  refine .bind raisesOnly_integerValue fun _ _ => .bind raisesOnly_integerValue fun _ _ => ?_
  refine .bind raisesOnly_integerValue fun _ _ => .bind raisesOnly_integerValue fun _ _ => ?_
  exact .bind raisesOnly_integerValue fun _ _ => .bind raisesOnly_integerValue fun _ _ => raisesOnly_pure

theorem TripsTarget.canonicalTarget {value : Json} (h : TripsTarget value) :
    ∃ error, canonicalTarget value = .error (.repositoryLock error) := by
  have hfields : ∀ {key : String} {target fields : Json.Fields} {e : Raised}, Json.get target key = .obj fields →
      demand e (Json.get target key).fields? = .ok fields := by
    intro key target fields e hkey
    rw [hkey]
    rfl
  cases h with
  | index hindex hpool hpath h =>
      obtain ⟨error, herror⟩ := exists_relativePath_error h
      refine ⟨error, bind_eq_error.2 (.inr ⟨_, rfl, bind_eq_error.2 (.inr ⟨_, hfields hindex, bind_eq_error.2
        (.inr ⟨_, hfields hpool, bind_eq_error.2 (.inr ⟨_, textValue_eq_ok.2 hpath, ?_⟩)⟩)⟩)⟩)⟩
      exact bind_eq_error.2 (.inl herror)
  | filename hindex hpool hpath hsafe hfilename h =>
      obtain ⟨error, herror⟩ := exists_relativePath_error h
      obtain ⟨indexPath, hindexPath⟩ := relativePath_eq_ok.2 hsafe
      refine ⟨error, bind_eq_error.2 (.inr ⟨_, rfl, bind_eq_error.2 (.inr ⟨_, hfields hindex, bind_eq_error.2
        (.inr ⟨_, hfields hpool, bind_eq_error.2 (.inr ⟨_, textValue_eq_ok.2 hpath, ?_⟩)⟩)⟩)⟩)⟩
      refine bind_eq_error.2 (.inr ⟨_, hindexPath, bind_eq_error.2 (.inr ⟨_, textValue_eq_ok.2 hfilename, ?_⟩)⟩)
      exact bind_eq_error.2 (.inl herror)
  | pool hindex hpool hpath hsafe hfilename hsafe' hpoolPath h =>
      obtain ⟨error, herror⟩ := exists_relativePath_error h
      obtain ⟨indexPath, hindexPath⟩ := relativePath_eq_ok.2 hsafe
      obtain ⟨filenamePath, hfilenamePath⟩ := relativePath_eq_ok.2 hsafe'
      refine ⟨error, bind_eq_error.2 (.inr ⟨_, rfl, bind_eq_error.2 (.inr ⟨_, hfields hindex, bind_eq_error.2
        (.inr ⟨_, hfields hpool, bind_eq_error.2 (.inr ⟨_, textValue_eq_ok.2 hpath, ?_⟩)⟩)⟩)⟩)⟩
      refine bind_eq_error.2 (.inr ⟨_, hindexPath, bind_eq_error.2 (.inr ⟨_, textValue_eq_ok.2 hfilename, ?_⟩)⟩)
      refine bind_eq_error.2 (.inr ⟨_, hfilenamePath, bind_eq_error.2 (.inr ⟨_, textValue_eq_ok.2 hpoolPath, ?_⟩)⟩)
      exact bind_eq_error.2 (.inl herror)

theorem raisesOnly_proofParts {value : Json} : RaisesOnly IsVerdict (proofParts value) := by
  refine .bind (raisesOnly_demand isVerdict_proofInvalid) fun _ _ => ?_
  refine .bind (raisesOnly_refuse isVerdict_proofInvalid) fun _ _ => ?_
  refine .bind (raisesOnly_refuse isVerdict_proofInvalid) fun _ _ => ?_
  refine .bind (raisesOnly_demand isVerdict_proofInvalid) fun _ _ => ?_
  refine .bind (raisesOnly_demand isVerdict_proofInvalid) fun _ _ => ?_
  refine .bind (raisesOnly_demand isVerdict_proofInvalid) fun _ _ => ?_
  refine .bind (raisesOnly_demand isVerdict_proofInvalid) fun _ _ => ?_
  exact .bind (raisesOnly_refuse isVerdict_proofInvalid) fun _ _ => raisesOnly_pure

theorem raisesOnly_proofFields {fields : Json.Fields} {parts : ProofParts} {targets : List Target} :
    RaisesOnly IsVerdict (proofFields fields parts targets) := by
  refine .bind raisesOnly_textValue fun _ _ => .bind (raisesOnly_refuse isVerdict_proofInvalid) fun _ _ => ?_
  refine .bind raisesOnly_textValue fun _ _ => .bind raisesOnly_textValue fun _ _ => ?_
  refine .bind raisesOnly_integerValue fun _ _ => .bind raisesOnly_integerValue fun _ _ => ?_
  refine .bind raisesOnly_textValue fun _ _ => .bind raisesOnly_textValue fun _ _ => ?_
  refine .bind raisesOnly_optionalTextValue fun _ _ => .bind raisesOnly_textValue fun _ _ => ?_
  refine .bind raisesOnly_textValue fun _ _ => .bind raisesOnly_textValue fun _ _ => ?_
  refine .bind raisesOnly_textValue fun _ _ => .bind raisesOnly_textValue fun _ _ => ?_
  refine .bind raisesOnly_integerValue fun _ _ => .bind raisesOnly_integerValue fun _ _ => ?_
  exact .bind raisesOnly_integerValue fun _ _ => raisesOnly_pure

theorem raisesOnly_checkProof {proof : PublicationProof} : RaisesOnly IsVerdict (checkProof proof) := by
  refine .bind (raisesOnly_refuse isVerdict_proofInvalid) fun _ _ => ?_
  refine .bind (raisesOnly_refuse isVerdict_proofInvalid) fun _ _ => .bind (fun e he => ?_) fun _ _ => ?_
  · obtain ⟨_, _, rfl⟩ := mapError_eq_error.1 he
    exact isVerdict_proofInvalid
  refine .bind (raisesOnly_refuse isVerdict_proofInvalid) fun _ _ => ?_
  refine .bind (raisesOnly_refuse isVerdict_proofInvalid) fun _ _ => ?_
  refine .bind (raisesOnly_refuse isVerdict_proofInvalid) fun _ _ => ?_
  refine .bind (raisesOnly_refuse isVerdict_proofInvalid) fun _ _ => ?_
  refine .bind (raisesOnly_refuse isVerdict_proofInvalid) fun _ _ => ?_
  exact .bind (raisesOnly_refuse isVerdict_proofInvalid) fun _ _ => raisesOnly_pure

theorem proofParts_eq_ok {value : Json} {targets : List Json} :
    (∃ fields parts, proofParts value = .ok (fields, parts) ∧ parts.targets = targets) ↔
      ∃ fields, value = .obj fields ∧ HasTargets fields targets := by
  have hshape : ∀ {key : String} {fields inner : Json.Fields} {e : Raised},
      demand e (Json.get fields key).fields? = .ok inner ↔ Json.get fields key = .obj inner := by
    intro key fields inner e
    rw [demand_eq_ok, fields?_eq_some]
  simp only [proofParts, bind_eq_ok, refuse_eq_ok, pure_eq_ok, hshape, Prod.mk.injEq]
  simp only [demand_eq_ok, fields?_eq_some]
  constructor
  · rintro ⟨fields, parts, ⟨fields', rfl, _, hversion, _, hplain, repository, hrepository, distribution, hdistribution,
      source, hsource, targets', htargets, _, hbounds, rfl, rfl⟩, rfl⟩
    have htargets' : Json.get fields' "targets" = .arr targets' := by
      cases hvalue : Json.get fields' "targets" <;> simp_all [Json.values?]
    simp only [Bool.or_eq_true, Bool.not_eq_true', not_or, Bool.not_eq_false, Json.equals_str] at hversion
    refine ⟨fields', rfl, ⟨hversion.1, hversion.2, ?_, ⟨_, hrepository⟩, ⟨_, hdistribution⟩, ⟨_, hsource⟩, htargets',
      fun h => hbounds (.inl h), Nat.not_lt.1 fun h => hbounds (.inr h)⟩⟩
    intro key hkey
    by_contra hne
    exact hplain (List.any_eq_true.2 ⟨key, hkey, Option.isSome_iff_ne_none.2 hne⟩)
  · rintro ⟨fields, rfl, h⟩
    obtain ⟨repository, hrepository⟩ := h.repository
    obtain ⟨distribution, hdistribution⟩ := h.distribution
    obtain ⟨source, hsource⟩ := h.source
    refine ⟨fields, ⟨repository, distribution, source, targets⟩, ⟨fields, rfl, (), ?_, (), ?_, repository, hrepository,
      distribution, hdistribution, source, hsource, targets, ?_, (), ?_, rfl, rfl⟩, rfl⟩
    · simp [h.schema, h.version]
    · intro hany
      obtain ⟨key, hkey, hsome⟩ := List.any_eq_true.1 hany
      rw [h.plain key hkey] at hsome
      cases hsome
    · rw [h.listed]
      rfl
    · rintro (hnil | hlong)
      · exact h.nonempty hnil
      · exact absurd h.bounded (Nat.not_le.2 hlong)

/-- **When the reader raises** something else than a `PublicationError`. -/
theorem raisesOnly_canonicalPublicationProof {value : Json} :
    RaisesOnly (VerdictOr (Trips value)) (canonicalPublicationProof value) := by
  refine .bind (verdictOr_of raisesOnly_proofParts) ?_
  rintro ⟨fields, parts⟩ hparts
  refine .bind (fun e he => ?_) fun targets _ => ?_
  · obtain ⟨earlier, target, later, hsplit, hearlier, htarget⟩ := mapM_eq_error.1 he
    rcases raisesOnly_canonicalTarget e htarget with hverdict | ⟨hlock, htrips⟩
    · exact .inl hverdict
    · obtain ⟨fields', rfl, htargets⟩ := proofParts_eq_ok.1 ⟨fields, parts, hparts, hsplit⟩
      exact .inr ⟨hlock, fields', earlier, target, later, rfl, htargets, hearlier, htrips⟩
  · refine .bind (verdictOr_of raisesOnly_proofFields) fun _ _ => ?_
    exact verdictOr_of raisesOnly_checkProof

theorem Trips.canonicalPublicationProof {value : Json} (h : Trips value) :
    ∃ error, canonicalPublicationProof value = .error (.repositoryLock error) := by
  obtain ⟨fields, earlier, target, later, rfl, htargets, hearlier, htarget⟩ := h
  obtain ⟨fields', parts, hparts, heq⟩ := proofParts_eq_ok.2 ⟨fields, rfl, htargets⟩
  obtain ⟨error, herror⟩ := htarget.canonicalTarget
  refine ⟨error, bind_eq_error.2 (.inr ⟨_, hparts, bind_eq_error.2 (.inl (mapM_eq_error.2 ?_))⟩)⟩
  exact ⟨earlier, target, later, heq, hearlier, herror⟩

/-- **When the reader of an attempt returns.** -/
theorem successfulPublicationProof_returns_iff {attempt : Json} {run : Option Json.Fields} :
    (∃ result, successfulPublicationProof attempt run = .ok result) ↔
      ¬ ∃ fields, attempt = .obj fields ∧ Json.get fields "status" = .str "success" ∧ Trips (Json.get fields "proof") := by
  constructor
  · rintro ⟨result, h⟩ ⟨fields, rfl, hstatus, htrips⟩
    obtain ⟨error, herror⟩ := htrips.canonicalPublicationProof
    simp [successfulPublicationProof, Json.fields?, hstatus, herror, refusedProof] at h
  · intro hno
    unfold successfulPublicationProof
    split
    · exact ⟨_, rfl⟩
    next fields hfields =>
      by_cases hstatus : (Json.str "success").equals (Json.get fields "status") = true
      · rw [if_pos hstatus]
        cases hproof : canonicalPublicationProof (Json.get fields "proof") with
        | error e =>
            rcases raisesOnly_canonicalPublicationProof e hproof with ⟨error, rfl⟩ | ⟨_, htrips⟩
            · exact ⟨none, rfl⟩
            · exact absurd ⟨fields, fields?_eq_some.1 hfields, Json.equals_str.1 hstatus, htrips⟩ hno
        | ok proof =>
            dsimp only
            split
            · exact ⟨none, rfl⟩
            · split <;> exact ⟨_, rfl⟩
      · rw [if_neg hstatus]
        exact ⟨none, rfl⟩

end DebBuilder.Publishing
