import Mathlib
import DebBuilder.Lib.Path
import DebBuilder.Publishing.Evidence

/-!
# The record of a pruned artifact

`intentional_pruned_artifact_size` reads from a Run document how many bytes were reclaimed
when its artifact was pruned after publication.  It has a handler for four exception
classes; an artifact that is no dictionary, and a path that is not safe, raise two others.

## Main definitions

* `intentionalPrunedArtifactSize` — the reader.
* `Unreadable` — the Run documents on which it raises.
* `JudgedFailClosed` — what is expected of the two readers of publication evidence.

## Main results

* `intentionalPrunedArtifactSize_returns_iff` — when the reader returns.
* `judgedFailClosed_iff` — when both do.
-/

namespace DebBuilder.Storage
open Lib Publishing

/-! ## The reader -/

/-- `run.get("artifact") or {}`, of which `get` is called next. -/
def artifactFields (run : Json.Fields) : Except Publishing.Raised Json.Fields :=
  let artifact := Json.get run "artifact"
  if artifact.truthy then demand .attribute artifact.fields? else .ok []

/-- `_artifact_name` -/
def artifactName (cwd : PosixPath) (run artifact : Json.Fields) : Except Publishing.Raised String := do
  let workspace := PosixPath.absolute cwd (.parse (Json.get run "workspace").text)
  let path := PosixPath.normal cwd (workspace.join (.parse (Json.get artifact "path").text))
  refuse (path.parent ≠ workspace.join ⟨"", ["artifacts"]⟩ ∨ path.name ∈ ["", ".", ".."] ∨ path.suffix ≠ ".deb")
    (.value "Artifact is not a direct .deb child of the Run artifacts directory")
  pure path.name

def pruningSchema : String := "debbuilder.artifact-pruning.v1"

/-- `_valid_pruning`, of a record that is there. -/
def validPruning (value : Json) (name : String) (attemptId proof : Json) : Except Publishing.Raised Unit := do
  let malformed := Publishing.Raised.value "Artifact pruning metadata is malformed"
  let record ← demand malformed value.fields?
  refuse (!(Json.str pruningSchema).equals (Json.get record "schema") ||
    !(Json.int 1).equals (Json.get record "pruning_version") ||
    !(Json.str "pruned").equals (Json.get record "status")) malformed
  let mismatch := Publishing.Raised.value "Artifact pruning metadata does not match the current publication proof"
  let source ← demand mismatch (Json.get record "source").fields?
  let publication ← demand mismatch (Json.get record "publication").fields?
  let proven := Json.member proof "source"
  let prunedAt ← demand mismatch (Json.get record "pruned_at").str?
  refuse (!(Json.str "duplicate_after_exact_publication").equals (Json.get record "reason") ||
    prunedAt = "" || 128 < prunedAt.length ||
    !(Json.str name).equals (Json.get source "name") ||
    !(Json.get source "path").equals (Json.member proven "path") ||
    !(Json.get source "size").equals (Json.member proven "size") ||
    !(Json.get source "sha256").equals (Json.member proven "sha256") ||
    !(Json.get publication "attempt_id").equals attemptId ||
    !(Json.get publication "proof").equals proof) mismatch

/-- A proof as it is stored. -/
def proofDocument (proof : Publishing.PublicationProof) : Json :=
  .obj [("schema", .str proof.schema), ("proof_version", .int proof.proofVersion),
    ("verified_at", .str proof.verifiedAt),
    ("repository", .obj [("root", .str proof.repository.root), ("device", .int proof.repository.device),
      ("inode", .int proof.repository.inode)]),
    ("distribution", .obj [("requested", .str proof.distribution.requested),
      ("codename", .str proof.distribution.codename), ("suite", .str proof.distribution.suite)]),
    ("component", .str proof.component), ("package", .str proof.package), ("version", .str proof.version),
    ("architecture", .str proof.architecture),
    ("source", .obj [("path", .str proof.source.path), ("size", .int proof.source.size),
      ("sha256", .str proof.source.sha256), ("device", .int proof.source.device),
      ("inode", .int proof.source.inode)]),
    ("targets", .arr (proof.targets.map fun target =>
      .obj [("database_architecture", .str target.databaseArchitecture),
        ("index", .obj [("path", .str target.index.path), ("device", .int target.index.device),
          ("inode", .int target.index.inode), ("filename", .str target.index.filename),
          ("size", .int target.index.size), ("sha256", .str target.index.sha256)]),
        ("pool", .obj [("path", .str target.pool.path), ("size", .int target.pool.size),
          ("sha256", .str target.pool.sha256), ("device", .int target.pool.device),
          ("inode", .int target.pool.inode)])]))]

/-- The Run is a successful build whose stored proof is canonical. -/
def isPrunedBuild (run : Json.Fields) (canonical : Publishing.PublicationProof) (proof attemptId : Json) : Bool :=
  (Json.str "build").equals (Json.get run "mode") && (Json.str "success").equals (Json.get run "status") &&
    (proofDocument canonical).equals proof &&
    match attemptId with
    | .str id => id ≠ "" && id.length ≤ 256
    | _ => false

/-- The artifact is the source of the proof. -/
def isProvenSource (artifact : Json.Fields) (source : Json) (name : String) : Bool :=
  (Json.get artifact "path").equals (Json.member source "path") && (Json.get artifact "size").equals (Json.member source "size") &&
    (Json.str (lowered (Json.get artifact "sha256").text)).equals (Json.member source "sha256") &&
    (PosixPath.parse (Json.member source "path").text).name = name

/-- The values of `for attempt in value or []`. -/
def iterated (value : Json) : Except Publishing.Raised (List Json) :=
  if value.truthy then
    match value with
    | .arr values => .ok values
    | .obj fields => .ok (fields.map fun field => .str field.1)
    | .str s => .ok (s.toList.map fun c => .str (String.singleton c))
    | _ => .error .type
  else .ok []

/-- The attempt is the recorded one, up to its proof. -/
def isRecordedAttempt (artifact : Json.Fields) (attemptId attempt : Json) : Bool :=
  match attempt with
  | .obj fields => (Json.get fields "id").equals attemptId && (Json.str "success").equals (Json.get fields "status") &&
      (Json.get fields "artifact").equals (Json.get artifact "path")
  | _ => false

/-- Whether one of the attempts is the recorded one and has its proof. -/
def hasRecordedAttempt (artifact : Json.Fields) (attemptId proof : Json) : List Json → Except Publishing.Raised Bool
  | [] => .ok false
  | attempt :: attempts =>
      if isRecordedAttempt artifact attemptId attempt then do
        let canonical ← canonicalPublicationProof (Json.member attempt "proof")
        if (proofDocument canonical).equals proof then pure true else hasRecordedAttempt artifact attemptId proof attempts
      else hasRecordedAttempt artifact attemptId proof attempts

/-- The `publication` of the pruning record. -/
def prunedPublication (artifact : Json.Fields) : Json := Json.member (Json.get artifact "pruning") "publication"

/-- The body of `intentional_pruned_artifact_size`. -/
def readPrunedSize (cwd : PosixPath) (run : Json.Fields) : Except Publishing.Raised (Option Json) := do
  let artifact ← artifactFields run
  let attemptId := Json.member (prunedPublication artifact) "attempt_id"
  let proof := Json.member (prunedPublication artifact) "proof"
  let canonical ← canonicalPublicationProof proof
  if isPrunedBuild run canonical proof attemptId then
    let name ← artifactName cwd run artifact
    validPruning (Json.get artifact "pruning") name attemptId proof
    let source := Json.member proof "source"
    if isProvenSource artifact source name then
      let attempts ← iterated (Json.get run "publications")
      let found ← hasRecordedAttempt artifact attemptId proof attempts
      pure (if found then some (Json.member source "size") else none)
    else pure none
  else pure none

/-- `except (KeyError, TypeError, ValueError, PublicationError)` -/
def refusedRecord : Publishing.Raised → Bool
  | .publication _ | .type | .value _ => true
  | _ => false

/-- `intentional_pruned_artifact_size` -/
def intentionalPrunedArtifactSize (cwd : PosixPath) (run : Json.Fields) : Except Publishing.Raised (Option Json) :=
  match readPrunedSize cwd run with
  | .error e => if refusedRecord e then .ok none else .error e
  | .ok size => .ok size

/-! ## Where it raises -/

/-- The record passes every check that precedes the search for its attempt. -/
structure Recorded (cwd : PosixPath) (run artifact : Json.Fields) : Prop where
  found : artifactFields run = .ok artifact
  canonical : ∃ canonical, canonicalPublicationProof (Json.member (prunedPublication artifact) "proof") = .ok canonical ∧
    isPrunedBuild run canonical (Json.member (prunedPublication artifact) "proof")
      (Json.member (prunedPublication artifact) "attempt_id") = true
  source : ∃ name, artifactName cwd run artifact = .ok name ∧
    validPruning (Json.get artifact "pruning") name (Json.member (prunedPublication artifact) "attempt_id")
      (Json.member (prunedPublication artifact) "proof") = .ok () ∧
    isProvenSource artifact (Json.member (Json.member (prunedPublication artifact) "proof") "source") name = true

/-- The Run documents on which the reader raises. -/
inductive Unreadable (cwd : PosixPath) (run : Json.Fields) : Prop
  /-- `artifact` is something else than a dictionary, and true. -/
  | artifact (truthy : (Json.get run "artifact").truthy = true) (h : (Json.get run "artifact").fields? = none)
  /-- The recorded proof has an unsafe path. -/
  | proof (artifact : Json.Fields) (h : artifactFields run = .ok artifact)
      (trips : Trips (Json.member (prunedPublication artifact) "proof"))
  /-- The recorded attempt is reached, and its proof has an unsafe path. -/
  | attempt (artifact : Json.Fields) (h : Recorded cwd run artifact) (earlier : List Json) (attempt : Json)
      (later : List Json) (split : iterated (Json.get run "publications") = .ok (earlier ++ attempt :: later))
      (others : ∀ other ∈ earlier,
        isRecordedAttempt artifact (Json.member (prunedPublication artifact) "attempt_id") other = true →
          ∃ canonical, canonicalPublicationProof (Json.member other "proof") = .ok canonical ∧
            (proofDocument canonical).equals (Json.member (prunedPublication artifact) "proof") = false)
      (recorded : isRecordedAttempt artifact (Json.member (prunedPublication artifact) "attempt_id") attempt = true)
      (trips : Trips (Json.member attempt "proof"))

/-- The exceptions that the handler does not name. -/
def Escapes (e : Publishing.Raised) : Prop := refusedRecord e = false

theorem escapes_of_trips {value : Json} (h : Trips value) : ∃ e, canonicalPublicationProof value = .error e ∧ Escapes e := by
  obtain ⟨error, herror⟩ := h.canonicalPublicationProof
  exact ⟨_, herror, rfl⟩

theorem trips_of_escapes {value : Json} {e : Publishing.Raised} (h : canonicalPublicationProof value = .error e) (he : Escapes e) :
    Trips value := by
  rcases raisesOnly_canonicalPublicationProof e h with ⟨error, rfl⟩ | ⟨_, htrips⟩
  · cases he
  · exact htrips

section
variable {cwd : PosixPath} {run artifact : Json.Fields} {attemptId proof : Json} {e : Publishing.Raised}

theorem artifactFields_eq_error (h : artifactFields run = .error e) :
    (Json.get run "artifact").truthy = true ∧ (Json.get run "artifact").fields? = none := by
  dsimp only [artifactFields] at h
  split at h
  next htruthy =>
    refine ⟨htruthy, ?_⟩
    cases hfields : (Json.get run "artifact").fields? with
    | none => rfl
    | some fields => simp [hfields, demand] at h
  · cases h

theorem raisesOnly_artifactName : RaisesOnly (fun e => ¬ Escapes e) (artifactName cwd run artifact) :=
  .bind (raisesOnly_refuse (by simp [Escapes, refusedRecord])) fun _ _ => raisesOnly_pure

theorem raisesOnly_validPruning {value : Json} {name : String} :
    RaisesOnly (fun e => ¬ Escapes e) (validPruning value name attemptId proof) := by
  have hvalue : ∀ message, ¬ Escapes (.value message) := by simp [Escapes, refusedRecord]
  refine .bind (raisesOnly_demand (hvalue _)) fun _ _ => .bind (raisesOnly_refuse (hvalue _)) fun _ _ => ?_
  refine .bind (raisesOnly_demand (hvalue _)) fun _ _ => .bind (raisesOnly_demand (hvalue _)) fun _ _ => ?_
  exact .bind (raisesOnly_demand (hvalue _)) fun _ _ => raisesOnly_refuse (hvalue _)

theorem raisesOnly_iterated {value : Json} : RaisesOnly (fun e => ¬ Escapes e) (iterated value) := by
  unfold iterated
  split
  · split
    · exact raisesOnly_ok
    · exact raisesOnly_ok
    · exact raisesOnly_ok
    · exact raisesOnly_error (by simp [Escapes, refusedRecord])
  · exact raisesOnly_ok

/-- The search raises at the first recorded attempt with an unsafe path, when no attempt before
it ends the search. -/
theorem hasRecordedAttempt_escapes_iff {attempts : List Json} :
    (∃ e, hasRecordedAttempt artifact attemptId proof attempts = .error e ∧ Escapes e) ↔
      ∃ earlier attempt later, attempts = earlier ++ attempt :: later ∧
        (∀ other ∈ earlier, isRecordedAttempt artifact attemptId other = true →
          ∃ canonical, canonicalPublicationProof (Json.member other "proof") = .ok canonical ∧
            (proofDocument canonical).equals proof = false) ∧
        isRecordedAttempt artifact attemptId attempt = true ∧ Trips (Json.member attempt "proof") := by
  induction attempts with
  | nil => simp [hasRecordedAttempt]
  | cons first attempts ih =>
      constructor
      · rintro ⟨e, h, he⟩
        by_cases hfirst : isRecordedAttempt artifact attemptId first = true
        · rw [hasRecordedAttempt, if_pos hfirst] at h
          rcases bind_eq_error.1 h with h | ⟨canonical, hcanonical, h⟩
          · exact ⟨[], first, attempts, rfl, by simp, hfirst, trips_of_escapes h he⟩
          · by_cases hsame : (proofDocument canonical).equals proof = true
            · rw [if_pos hsame] at h
              exact (pure_eq_error.1 h).elim
            · rw [if_neg hsame] at h
              obtain ⟨earlier, attempt, later, rfl, hothers, hrest⟩ := ih.1 ⟨e, h, he⟩
              refine ⟨first :: earlier, attempt, later, rfl, List.forall_mem_cons.2 ⟨fun _ => ?_, hothers⟩, hrest⟩
              exact ⟨canonical, hcanonical, by simpa using hsame⟩
        · rw [hasRecordedAttempt, if_neg hfirst] at h
          obtain ⟨earlier, attempt, later, rfl, hothers, hrest⟩ := ih.1 ⟨e, h, he⟩
          refine ⟨first :: earlier, attempt, later, rfl, List.forall_mem_cons.2 ⟨fun h => ?_, hothers⟩, hrest⟩
          exact absurd h hfirst
      · rintro ⟨earlier, attempt, later, hsplit, hothers, hattempt, htrips⟩
        cases earlier with
        | nil =>
            obtain ⟨rfl, rfl⟩ := List.cons.inj hsplit
            obtain ⟨e, he, hescapes⟩ := escapes_of_trips htrips
            refine ⟨e, ?_, hescapes⟩
            rw [hasRecordedAttempt, if_pos hattempt]
            exact bind_eq_error.2 (.inl he)
        | cons other earlier =>
            obtain ⟨rfl, rfl⟩ := List.cons.inj hsplit
            obtain ⟨hfirst, hrest⟩ := List.forall_mem_cons.1 hothers
            obtain ⟨e, he, hescapes⟩ := ih.2 ⟨earlier, attempt, later, rfl, hrest, hattempt, htrips⟩
            refine ⟨e, ?_, hescapes⟩
            by_cases hother : isRecordedAttempt artifact attemptId first = true
            · obtain ⟨canonical, hcanonical, hsame⟩ := hfirst hother
              rw [hasRecordedAttempt, if_pos hother]
              refine bind_eq_error.2 (.inr ⟨canonical, hcanonical, ?_⟩)
              rw [if_neg (by simp [hsame])]
              exact he
            · rw [hasRecordedAttempt, if_neg hother]
              exact he

/-- What the body passes before it searches the attempts. -/
theorem Recorded.readPrunedSize (h : Recorded cwd run artifact) {attempts : List Json}
    (hattempts : iterated (Json.get run "publications") = .ok attempts)
    (he : hasRecordedAttempt artifact (Json.member (prunedPublication artifact) "attempt_id")
      (Json.member (prunedPublication artifact) "proof") attempts = .error e) :
    readPrunedSize cwd run = .error e := by
  obtain ⟨canonical, hcanonical, hbuild⟩ := h.canonical
  obtain ⟨name, hname, hvalid, hsource⟩ := h.source
  refine bind_eq_error.2 (.inr ⟨artifact, h.found, bind_eq_error.2 (.inr ⟨canonical, hcanonical, ?_⟩)⟩)
  rw [if_pos hbuild]
  refine bind_eq_error.2 (.inr ⟨name, hname, bind_eq_error.2 (.inr ⟨(), hvalid, ?_⟩)⟩)
  rw [if_pos hsource]
  exact bind_eq_error.2 (.inr ⟨attempts, hattempts, bind_eq_error.2 (.inl he)⟩)

/-- The body raises an exception that the handler does not name on the unreadable documents. -/
theorem readPrunedSize_escapes_iff : (∃ e, readPrunedSize cwd run = .error e ∧ Escapes e) ↔ Unreadable cwd run := by
  constructor
  · rintro ⟨e, h, he⟩
    rcases bind_eq_error.1 h with h | ⟨artifact, hartifact, h⟩
    · obtain ⟨htruthy, hfields⟩ := artifactFields_eq_error h
      exact .artifact htruthy hfields
    rcases bind_eq_error.1 h with h | ⟨canonical, hcanonical, h⟩
    · exact .proof artifact hartifact (trips_of_escapes h he)
    split at h
    next hbuild =>
      rcases bind_eq_error.1 h with h | ⟨name, hname, h⟩
      · exact absurd he (raisesOnly_artifactName e h)
      rcases bind_eq_error.1 h with h | ⟨_, hvalid, h⟩
      · exact absurd he (raisesOnly_validPruning e h)
      dsimp only at h
      split at h
      next hsource =>
        rcases bind_eq_error.1 h with h | ⟨attempts, hattempts, h⟩
        · exact absurd he (raisesOnly_iterated e h)
        rcases bind_eq_error.1 h with h | ⟨_, _, h⟩
        · obtain ⟨earlier, attempt, later, rfl, hothers, hattempt, htrips⟩ := hasRecordedAttempt_escapes_iff.1 ⟨e, h, he⟩
          exact .attempt artifact ⟨hartifact, ⟨canonical, hcanonical, hbuild⟩, name, hname, hvalid, hsource⟩ earlier
            attempt later hattempts hothers hattempt htrips
        · exact (pure_eq_error.1 h).elim
      · exact (pure_eq_error.1 h).elim
    · exact (pure_eq_error.1 h).elim
  · intro h
    cases h with
    | artifact truthy h =>
        refine ⟨.attribute, bind_eq_error.2 (.inl ?_), rfl⟩
        simp [artifactFields, truthy, h, demand]
    | proof artifact h trips =>
        obtain ⟨e, he, hescapes⟩ := escapes_of_trips trips
        exact ⟨e, bind_eq_error.2 (.inr ⟨artifact, h, bind_eq_error.2 (.inl he)⟩), hescapes⟩
    | attempt artifact h earlier attempt later split others recorded trips =>
        obtain ⟨e, he, hescapes⟩ := hasRecordedAttempt_escapes_iff.2
          ⟨earlier, attempt, later, rfl, others, recorded, trips⟩
        exact ⟨e, h.readPrunedSize split he, hescapes⟩

/-- **When the reader returns.** -/
theorem intentionalPrunedArtifactSize_returns_iff :
    (∃ size, intentionalPrunedArtifactSize cwd run = .ok size) ↔ ¬ Unreadable cwd run := by
  rw [← readPrunedSize_escapes_iff, not_exists]
  unfold intentionalPrunedArtifactSize
  cases h : readPrunedSize cwd run with
  | ok size => simp
  | error e => cases he : refusedRecord e <;> simp [he, Escapes]

end

/-! ## Both readers -/

/-- Both readers of publication evidence return, and a proof that one returns proves what it
says. -/
structure JudgedFailClosed (cwd : PosixPath) (attempt : Json) (run : Json.Fields) : Prop where
  ofRun : ∃ result, Publishing.successfulPublicationProof attempt (some run) = .ok result
  alone : ∃ result, Publishing.successfulPublicationProof attempt none = .ok result
  pruned : ∃ size, intentionalPrunedArtifactSize cwd run = .ok size
  sound : ∀ document proof, Publishing.successfulPublicationProof attempt document = .ok (some proof) →
    Proven proof attempt document

/-- **When publication evidence is judged fail closed**: a successful attempt has no proof with
an unsafe path, and the Run document is readable. -/
theorem judgedFailClosed_iff {cwd : PosixPath} {attempt : Json} {run : Json.Fields} :
    JudgedFailClosed cwd attempt run ↔
      (¬ ∃ fields, attempt = .obj fields ∧ Json.get fields "status" = .str "success" ∧
        Trips (Json.get fields "proof")) ∧ ¬ Unreadable cwd run := by
  constructor
  · intro h
    exact ⟨successfulPublicationProof_returns_iff.1 h.ofRun, intentionalPrunedArtifactSize_returns_iff.1 h.pruned⟩
  · rintro ⟨hattempt, hrun⟩
    exact ⟨successfulPublicationProof_returns_iff.2 hattempt, successfulPublicationProof_returns_iff.2 hattempt,
      intentionalPrunedArtifactSize_returns_iff.2 hrun, fun _ _ => successfulPublicationProof_sound⟩

/-- A target whose index has an absolute path. -/
def strayTarget : Json.Fields :=
  [("index", .obj [("path", .str "/dists/bookworm/Packages")]), ("pool", .obj [])]

def strayProof : Json.Fields :=
  [("schema", .str proofSchema), ("proof_version", .int 1), ("repository", .obj []), ("distribution", .obj []),
    ("source", .obj []), ("targets", .arr [.obj strayTarget])]

theorem strayTarget_trips : TripsTarget (.obj strayTarget) := by
  refine @TripsTarget.index strayTarget [("path", .str "/dists/bookworm/Packages")] [] "/dists/bookworm/Packages"
    rfl rfl ⟨rfl, by decide, by decide⟩ ?_
  rintro ⟨parts, hparts⟩
  have hnone : (safeRelativePath "/dists/bookworm/Packages" none).toOption = none := by rfl
  rw [hparts] at hnone
  cases hnone

theorem strayProof_trips : Trips (.obj strayProof) := by
  refine ⟨strayProof, [], .obj strayTarget, [], rfl, ?_, by simp, strayTarget_trips⟩
  exact ⟨rfl, rfl, by decide, ⟨_, rfl⟩, ⟨_, rfl⟩, ⟨_, rfl⟩, rfl, by simp, by simp⟩

/-- A successful attempt with that proof raises a `RepositoryLockError`. -/
theorem strayProof_not_judged :
    ¬ JudgedFailClosed ⟨"/", []⟩ (.obj [("status", .str "success"), ("proof", .obj strayProof)]) [] := by
  intro h
  exact successfulPublicationProof_returns_iff.1 h.alone ⟨_, rfl, rfl, strayProof_trips⟩

end DebBuilder.Storage
