import Mathlib
import DebBuilder.Validation.Contracts

/-!
# Canonical documents

A contract function changes nothing but the case of digests, so what it returns is
accepted again and stays the same: a document that was written is the document that is
read.

## Main results

* `normalizeValidationAttempt_canonical`, `normalizePreparedRuntimeDependencies_canonical`,
  `normalizeValidationResult_canonical` — a normalized document is normal.
* `normalizeArtifactIdentity_canonical` — at any place of a document.
-/

namespace DebBuilder.Validation
open Lib

/-! ## Texts -/

theorem string_eq {value path w : String} {maximum : Nat} {pattern : String → Bool}
    (h : string value path maximum pattern = .ok w) : w = value := by
  unfold string at h
  split at h
  · exact nomatch h
  · split at h
    · exact nomatch h
    · split at h
      · exact nomatch h
      · exact (Except.ok.inj h).symm

/-- Whether a text is accepted does not depend on its place. -/
theorem string_path {value w path : String} {maximum : Nat} {pattern : String → Bool}
    (h : string value path maximum pattern = .ok w) (path' : String) :
    string value path' maximum pattern = .ok w := by
  unfold string at h ⊢
  split at h
  · exact nomatch h
  · split at h
    · exact nomatch h
    · split at h
      · exact nomatch h
      next h₁ h₂ h₃ => rw [if_neg h₁, if_neg h₂, if_neg h₃, h]

theorem toLower_toLower (c : Char) : c.toLower.toLower = c.toLower := by
  unfold Char.toLower
  split
  next h =>
    split
    next h' =>
      exfalso
      simp only [UInt32.le_iff_toNat_le, UInt32.toNat_add] at h h'
      simp at h h'
      omega
    · rfl
  · rfl

theorem lower_lower (value : String) : lower (lower value) = lower value := by
  have hcomp : Char.toLower ∘ Char.toLower = Char.toLower := funext toLower_toLower
  simp [lower, hcomp]

theorem sha256_eq_ok {value path w : String} :
    sha256 value path = .ok w ↔ isSha256 (lower value) = true ∧ lower value = w := by
  unfold sha256
  by_cases h : isSha256 (lower value) = true <;> simp [h]

theorem sha256_canonical {value path w : String} (h : sha256 value path = .ok w) (path' : String) :
    sha256 w path' = .ok w := by
  obtain ⟨hdigest, rfl⟩ := sha256_eq_ok.1 h
  rw [sha256_eq_ok, lower_lower]
  exact ⟨hdigest, rfl⟩

theorem positiveSize_eq_ok {value w : Int} {path : String} :
    positiveSize value path = .ok w ↔ (0 < value ∧ value ≤ maxSafeInteger) ∧ value = w := by
  unfold positiveSize
  by_cases h : 0 < value ∧ value ≤ maxSafeInteger <;> simp [h]

theorem nullable_eq {α : Type} {check : α → Except ContractError α}
    (hcheck : ∀ value w, check value = .ok w → w = value) {o o' : Option α}
    (h : nullable check o = .ok o') : o' = o := by
  cases o with
  | none => exact (Except.ok.inj h).symm
  | some value =>
      obtain ⟨w, hw, rfl⟩ := map_eq_ok.1 h
      rw [hcheck value w hw]

/-! ## Identities -/

theorem normalizeArtifactIdentity_canonical {value identity : ArtifactIdentity} {path : String}
    (h : normalizeArtifactIdentity value path = .ok identity) (path' : String) :
    normalizeArtifactIdentity identity path' = .ok identity := by
  simp only [normalizeArtifactIdentity, bind_eq_ok, pure_eq_ok] at h
  obtain ⟨package, hpackage, version, hversion, architecture, harchitecture, size, hsize,
    digest, hdigest, rfl⟩ := h
  obtain rfl := string_eq hpackage
  obtain rfl := string_eq hversion
  obtain rfl := string_eq harchitecture
  obtain ⟨hrange, rfl⟩ := positiveSize_eq_ok.1 hsize
  simp only [normalizeArtifactIdentity, bind_eq_ok, pure_eq_ok]
  exact ⟨_, string_path hpackage _, _, string_path hversion _, _, string_path harchitecture _, _,
    positiveSize_eq_ok.2 ⟨hrange, rfl⟩, _, sha256_canonical hdigest _, rfl⟩

theorem durableIdentityString_eq {value path w : String} {maximum : Nat}
    (h : durableIdentityString value path maximum = .ok w) : w = value := by
  simp only [durableIdentityString, bind_eq_ok, pure_eq_ok] at h
  obtain ⟨_, htext, _, -, _, -, rfl⟩ := h
  exact string_eq htext

theorem normalizeImageIdentity_eq {value image : ImageIdentity} {path : String}
    (h : normalizeImageIdentity value path = .ok image) : image = value := by
  simp only [normalizeImageIdentity, bind_eq_ok, pure_eq_ok] at h
  obtain ⟨_, hname, _, hid, _, hdigest, rfl⟩ := h
  rw [durableIdentityString_eq hname, nullable_eq (fun _ _ => durableIdentityString_eq) hid,
    nullable_eq (fun _ _ => durableIdentityString_eq) hdigest]

theorem nullable_artifact_canonical {value identity : Option ArtifactIdentity} {path : String}
    (h : nullable (normalizeArtifactIdentity · path) value = .ok identity) :
    nullable (normalizeArtifactIdentity · path) identity = .ok identity := by
  cases value with
  | none =>
      obtain rfl := Except.ok.inj h
      rfl
  | some value =>
      obtain ⟨w, hw, rfl⟩ := map_eq_ok.1 h
      exact map_eq_ok.2 ⟨w, normalizeArtifactIdentity_canonical hw _, rfl⟩

theorem normalizeAttemptResult_eq {value result : ResultReference} {path : String}
    (h : normalizeAttemptResult value path = .ok result) : result = value := by
  simp only [normalizeAttemptResult, bind_eq_ok, pure_eq_ok] at h
  obtain ⟨_, -, _, hreference, _, -, rfl⟩ := h
  rw [nullable_eq (fun _ _ => string_eq) hreference]

theorem normalizeAttemptError_eq {value error : AttemptError} {path : String}
    (h : normalizeAttemptError value path = .ok error) : error = value := by
  simp only [normalizeAttemptError, bind_eq_ok, pure_eq_ok] at h
  obtain ⟨_, hcode, _, hmessage, rfl⟩ := h
  rw [string_eq hcode, string_eq hmessage]

/-! ## Documents -/

/-- What normalization can change of an attempt. -/
theorem normalizeValidationAttempt_eq {value attempt : Attempt}
    (h : normalizeValidationAttempt value = .ok attempt) :
    ∃ artifact previous, attempt =
      { value with inputs := ⟨value.inputs.profile, artifact, previous⟩ } := by
  simp only [normalizeValidationAttempt, bind_eq_ok, pure_eq_ok] at h
  obtain ⟨_, -, _, hid, _, hrun, _, hprofile, artifact, -, previous, -, _, -, _, hname, _, -, _,
    himage, _, hresult, _, herror, _, -, rfl⟩ := h
  refine ⟨artifact, previous, ?_⟩
  rw [string_eq hid, string_eq hrun, string_eq hprofile, string_eq hname,
    normalizeImageIdentity_eq himage, nullable_eq (fun _ _ => normalizeAttemptResult_eq) hresult,
    nullable_eq (fun _ _ => normalizeAttemptError_eq) herror]

theorem normalizeValidationAttempt_canonical {value attempt : Attempt}
    (h : normalizeValidationAttempt value = .ok attempt) :
    normalizeValidationAttempt attempt = .ok attempt := by
  simp only [normalizeValidationAttempt, bind_eq_ok, pure_eq_ok] at h ⊢
  obtain ⟨_, hversion, _, hid, _, hrun, _, hprofile, _, hartifact, _, hprevious, _, hcompatible, _,
    hname, _, hselected, _, himage, _, hresult, _, herror, _, hrules, rfl⟩ := h
  obtain rfl := string_eq hid
  obtain rfl := string_eq hrun
  obtain rfl := string_eq hprofile
  obtain rfl := string_eq hname
  obtain rfl := normalizeImageIdentity_eq himage
  obtain rfl := nullable_eq (fun _ _ => normalizeAttemptResult_eq) hresult
  obtain rfl := nullable_eq (fun _ _ => normalizeAttemptError_eq) herror
  exact ⟨_, hversion, _, hid, _, hrun, _, hprofile, _,
    normalizeArtifactIdentity_canonical hartifact _, _, nullable_artifact_canonical hprevious, _,
    hcompatible, _, hname, _, hselected, _, himage, _, hresult, _, herror, _, hrules, rfl⟩

/-- What a normalized attempt obeys. -/
theorem statusRules_of_normalize {value attempt : Attempt}
    (h : normalizeValidationAttempt value = .ok attempt) : statusRules attempt = .ok () := by
  simp only [normalizeValidationAttempt, bind_eq_ok, pure_eq_ok] at h
  obtain ⟨_, -, _, -, _, -, _, -, _, -, _, -, _, -, _, -, _, -, _, -, _, -, _, -, _, hrules, rfl⟩ := h
  exact hrules

/-! ## Documents about an exact image -/

theorem durableIdentityString_path {value path w : String} {maximum : Nat}
    (h : durableIdentityString value path maximum = .ok w) (path' : String) :
    durableIdentityString value path' maximum = .ok w := by
  simp only [durableIdentityString, bind_eq_ok, pure_eq_ok, refuse_eq_ok] at h ⊢
  obtain ⟨text, htext, _, hlocal, _, hspace, rfl⟩ := h
  exact ⟨text, string_path htext _, (), hlocal, (), hspace, rfl⟩

theorem nullable_durable_path {value w : Option String} {path : String} {maximum : Nat}
    (h : nullable (durableIdentityString · path maximum) value = .ok w) (path' : String) :
    nullable (durableIdentityString · path' maximum) value = .ok w := by
  cases value with
  | none => exact h
  | some value =>
      obtain ⟨text, htext, rfl⟩ := map_eq_ok.1 h
      exact map_eq_ok.2 ⟨text, durableIdentityString_path htext _, rfl⟩

theorem normalizeImageIdentity_path {value image : ImageIdentity} {path : String}
    (h : normalizeImageIdentity value path = .ok image) (path' : String) :
    normalizeImageIdentity value path' = .ok image := by
  simp only [normalizeImageIdentity, bind_eq_ok, pure_eq_ok] at h ⊢
  obtain ⟨name, hname, id, hid, digest, hdigest, rfl⟩ := h
  exact ⟨name, durableIdentityString_path hname _, id, nullable_durable_path hid _, digest,
    nullable_durable_path hdigest _, rfl⟩

/-- An image whose identifier is in lower case, as the image runtime reports it. -/
def ImageIdentity.Exact (image : ImageIdentity) : Prop := image.id.map lower = image.id

theorem normalizePreparedImageIdentity_eq {value image : ImageIdentity} {path : String}
    (hexact : value.Exact) (h : normalizePreparedImageIdentity value path = .ok image) :
    image = value := by
  simp only [normalizePreparedImageIdentity, bind_eq_ok, pure_eq_ok] at h
  obtain ⟨image, himage, _, -, rfl⟩ := h
  obtain rfl := normalizeImageIdentity_eq himage
  rw [hexact]

theorem normalizePreparedImageIdentity_path {value image : ImageIdentity} {path : String}
    (h : normalizePreparedImageIdentity value path = .ok image) (path' : String) :
    normalizePreparedImageIdentity value path' = .ok image := by
  simp only [normalizePreparedImageIdentity, bind_eq_ok, pure_eq_ok, refuse_eq_ok] at h ⊢
  obtain ⟨image, himage, _, hid, rfl⟩ := h
  exact ⟨image, normalizeImageIdentity_path himage _, (), hid, rfl⟩

theorem normalizePreparedRuntimeDependencies_canonical {value prepared : Prepared}
    (hexact : value.image.Exact)
    (h : normalizePreparedRuntimeDependencies value = .ok prepared) :
    normalizePreparedRuntimeDependencies prepared = .ok prepared := by
  simp only [normalizePreparedRuntimeDependencies, bind_eq_ok, pure_eq_ok] at h ⊢
  obtain ⟨_, hversion, _, hprofile, _, hnative, _, hall, _, hcurrent, _, hprevious, _, harch, _,
    hcompatible, _, htimes, _, himage, rfl⟩ := h
  obtain rfl := string_eq hprofile
  obtain rfl := string_eq hnative
  obtain rfl := normalizePreparedImageIdentity_eq hexact himage
  exact ⟨_, hversion, _, hprofile, _, hnative, _, hall, _,
    normalizeArtifactIdentity_canonical hcurrent _, _, nullable_artifact_canonical hprevious, _,
    harch, _, hcompatible, _, htimes, _, himage, rfl⟩

theorem normalizeValidationResult_canonical {value result : Result}
    (hexact : value.profile.image.Exact) (h : normalizeValidationResult value = .ok result) :
    normalizeValidationResult result = .ok result := by
  simp only [normalizeValidationResult, bind_eq_ok, pure_eq_ok] at h ⊢
  obtain ⟨_, hversion, _, hattempt, _, hrun, _, hartifact, _, hname, _, himage, _, hstatus, _,
    htimes, _, hchecks, _, herror, _, hproof, _, hneeded, _, habsence, rfl⟩ := h
  obtain rfl := string_eq hattempt
  obtain rfl := string_eq hrun
  obtain rfl := string_eq hname
  obtain rfl := normalizePreparedImageIdentity_eq hexact himage
  obtain rfl := nullable_eq (fun _ _ => normalizeAttemptError_eq) herror
  exact ⟨_, hversion, _, hattempt, _, hrun, _, normalizeArtifactIdentity_canonical hartifact _, _,
    hname, _, himage, _, hstatus, _, htimes, _, hchecks, _, herror, _, hproof, _, hneeded, _,
    habsence, rfl⟩

end DebBuilder.Validation
