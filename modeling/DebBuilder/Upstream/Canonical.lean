import Mathlib
import DebBuilder.Upstream.Identity

/-!
# Canonical identities

A normal form is its own normal form, and two documents have the same one exactly when they say
the same in every field up to spelling: the white space around a text, a number written as a
number, a missing value, and the case of the fields that are read in lower case.  The key of an
attempt shows the Recipe, its digest and the normal form.

## Main definitions

* `SameSpelling` — two documents that say the same up to spelling.
* `Identity.identifiers` — the fields from which the completeness is derived.

## Main statements

* `normalize_toJson`, `normalize_eq_iff` — normal forms.
* `completeness_of_identifiers` — what the completeness depends on.
* `payload_inj` — what is digested shows what it was made of.
-/

namespace DebBuilder
namespace Upstream

open Lib Lib.Json

variable {value : Json} {field : String} {required : Bool} {maximum : Nat} {result : String} {lengths : List Nat}

/-! ## One field -/

theorem text_eq_ok : text value field required maximum = .ok result ↔ ∃ cs, spelled required value = some cs ∧
    ¬ ((required = true ∧ cs = []) ∨ maximum < cs.length ∨ ∃ c ∈ cs, c.toNat < 32) ∧ String.ofList cs = result := by
  simp only [text, bind_eq_ok, demand_eq_ok, refuse_eq_ok, pure_eq_ok, exists_and_left, exists_const]

theorem strip_of_spelled {cs : List Char} (h : spelled required value = some cs) : Text.strip cs = cs := by
  cases value with
  | null =>
      cases required with
      | true => exact nomatch h
      | false =>
          obtain rfl : [] = cs := Option.some.inj h
          rfl
  | str s =>
      obtain rfl := Option.some.inj h
      exact Text.strip_strip _
  | int n =>
      obtain rfl := Option.some.inj h
      exact Text.strip_strip _
  | bool b => exact nomatch h
  | float v shown => exact nomatch h
  | arr values => exact nomatch h
  | obj fields => exact nomatch h

/-- What a field was read as is read again as it is. -/
theorem text_str (h : text value field required maximum = .ok result) : text (str result) field required maximum = .ok result := by
  obtain ⟨cs, hspelled, hok, rfl⟩ := text_eq_ok.1 h
  refine text_eq_ok.2 ⟨cs, ?_, hok, rfl⟩
  rw [spelled, String.toList_ofList, strip_of_spelled hspelled]

/-- And so it is in lower case. -/
theorem text_str_lower (h : text value field required maximum = .ok result) :
    text (str (lower result)) field required maximum = .ok (lower result) := by
  obtain ⟨cs, hspelled, hok, rfl⟩ := text_eq_ok.1 h
  refine text_eq_ok.2 ⟨Text.lower cs, ?_, ?_, ?_⟩
  · rw [lower, spelled, String.toList_ofList, String.toList_ofList, Text.strip_lower, strip_of_spelled hspelled]
  · rintro (⟨hrequired, hnil⟩ | hlong | ⟨c, hc, hcontrol⟩)
    · exact hok (.inl ⟨hrequired, List.map_eq_nil_iff.1 hnil⟩)
    · rw [Text.lower, List.length_map] at hlong
      exact hok (.inr (.inl hlong))
    · obtain ⟨d, hd, rfl⟩ := List.mem_map.1 hc
      have hlower := Text.toNat_lowerChar d
      refine hok (.inr (.inr ⟨d, hd, ?_⟩))
      split at hlower
      · omega
      · split at hlower <;> omega
  · rw [lower, String.toList_ofList]

theorem lower_lower (s : String) : lower (lower s) = lower s := by
  rw [lower, lower, String.toList_ofList, Text.lower_lower]

theorem sha_str (h : sha value field lengths = .ok result) : sha (str result) field lengths = .ok result := by
  simp only [sha, bind_eq_ok, refuse_eq_ok, pure_eq_ok] at h ⊢
  obtain ⟨read, hread, _, hok, rfl⟩ := h
  refine ⟨lower read, text_str_lower hread, (), ?_, lower_lower read⟩
  rw [lower_lower]
  exact hok

theorem githubRef_str (h : githubRef value field = .ok result) : githubRef (str result) field = .ok result := by
  simp only [githubRef, bind_eq_ok, refuse_eq_ok, pure_eq_ok] at h ⊢
  obtain ⟨_, hread, _, hok, rfl⟩ := h
  exact ⟨_, text_str hread, (), hok, rfl⟩

theorem version_str (h : version value = .ok result) : version (str result) = .ok result := by
  simp only [version, bind_eq_ok, refuse_eq_ok, pure_eq_ok] at h ⊢
  obtain ⟨_, hread, _, hok, rfl⟩ := h
  exact ⟨_, text_str hread, (), hok, rfl⟩

theorem size_elim {expectedSize : Option Int} (h : size value = .ok expectedSize) :
    size (expectedSize.elim null int) = .ok expectedSize := by
  cases value with
  | null => obtain rfl := Except.ok.inj h; rfl
  | str s =>
      rw [size] at h
      split at h
      · obtain rfl := Except.ok.inj h; rfl
      · exact nomatch h
  | int n =>
      rw [size] at h
      split at h
      · next hbounds =>
          obtain rfl := Except.ok.inj h
          exact if_pos hbounds
      · exact nomatch h
  | bool b => exact nomatch h
  | float v shown => exact nomatch h
  | arr values => exact nomatch h
  | obj fields => exact nomatch h

/-! ## The kinds -/

theorem Tracking.ofText?_text (t : Tracking) : Tracking.ofText? t.text = some t := by cases t <;> rfl
theorem SourceType.ofText?_text (t : SourceType) : SourceType.ofText? t.text = some t := by cases t <;> rfl
theorem PayloadKind.ofText?_text (k : PayloadKind) : PayloadKind.ofText? k.text = some k := by cases k <;> rfl

theorem Tracking.text_of_ofText? {s : String} {t : Tracking} (h : Tracking.ofText? s = some t) : t.text = s := by
  simpa using List.find?_some h
theorem SourceType.text_of_ofText? {s : String} {t : SourceType} (h : SourceType.ofText? s = some t) : t.text = s := by
  simpa using List.find?_some h
theorem PayloadKind.text_of_ofText? {s : String} {k : PayloadKind} (h : PayloadKind.ofText? s = some k) : k.text = s := by
  simpa using List.find?_some h

/-! ## Reading a canonical document -/

variable {fields : Fields} {repository : String} {kinds : Tracking × SourceType × PayloadKind} {identity : Identity}

theorem readRepository_toFields (h : readRepository fields = .ok identity.repository) :
    readRepository identity.toFields = .ok identity.repository := by
  simp only [readRepository, bind_eq_ok, refuse_eq_ok, pure_eq_ok] at h ⊢
  obtain ⟨_, -, _, -, read, hread, _, hok, hrepository⟩ := h
  have hprovider : text (get identity.toFields "provider") "provider" true 32 = .ok "github" := by
    show text (str "github") "provider" true 32 = .ok "github"
    decide +kernel
  have htext : text (get identity.toFields "repository") "repository" true = .ok identity.repository := by
    show text (str identity.repository) "repository" true = .ok identity.repository
    rw [← hrepository]
    exact text_str_lower hread
  refine ⟨_, hprovider, (), by decide +kernel, _, htext, (), ?_, ?_⟩
  · rw [← hrepository, lower_lower]
    exact hok
  · rw [← hrepository, lower_lower]

theorem readKinds_toFields (h : readKinds fields = .ok (identity.tracking, identity.sourceType, identity.payloadKind)) :
    readKinds identity.toFields = .ok (identity.tracking, identity.sourceType, identity.payloadKind) := by
  simp only [readKinds, bind_eq_ok, refuse_eq_ok, demand_eq_ok, pure_eq_ok] at h ⊢
  obtain ⟨tracking, htracking, sourceType, hsourceType, payloadKind, hpayloadKind, t, ht, s, hs, k, hk, hrest⟩ := h
  have hkinds : t = identity.tracking ∧ s = identity.sourceType ∧ k = identity.payloadKind := by
    obtain ⟨_, -, _, -, _, -, _, -, _, -, heq⟩ := hrest
    simpa using heq
  obtain ⟨rfl, rfl, rfl⟩ := hkinds
  refine ⟨identity.tracking.text, ?_, identity.sourceType.text, ?_, identity.payloadKind.text, ?_, _,
    Tracking.ofText?_text _, _, SourceType.ofText?_text _, _, PayloadKind.ofText?_text _, hrest⟩
  · rw [Tracking.text_of_ofText? ht]
    rw [← Tracking.text_of_ofText? ht] at htracking
    show text (str identity.tracking.text) "tracking" true 32 = _
    rw [text_str htracking, Tracking.text_of_ofText? ht]
  · rw [SourceType.text_of_ofText? hs]
    rw [← SourceType.text_of_ofText? hs] at hsourceType
    show text (str identity.sourceType.text) "source_type" true 32 = _
    rw [text_str hsourceType, SourceType.text_of_ofText? hs]
  · rw [PayloadKind.text_of_ofText? hk]
    rw [← PayloadKind.text_of_ofText? hk] at hpayloadKind
    show text (str identity.payloadKind.text) "payload_kind" true 32 = _
    rw [text_str hpayloadKind, PayloadKind.text_of_ofText? hk]

theorem readFields_toFields (h : readFields fields repository kinds = .ok identity) :
    readFields identity.toFields repository kinds = .ok identity := by
  simp only [readFields, bind_eq_ok, pure_eq_ok] at h ⊢
  obtain ⟨_, h₁, _, h₂, _, h₃, _, h₄, _, h₅, _, h₆, _, h₇, _, h₈, _, h₉, _, h₁₀, _, h₁₁, _, h₁₂, _, h₁₃, rfl⟩ := h
  exact ⟨_, githubRef_str h₁, _, text_str h₂, _, text_str h₃, _, sha_str h₄, _, sha_str h₅, _, githubRef_str h₆,
    _, version_str h₇, _, sha_str h₈, _, text_str h₉, _, size_elim h₁₀, _, text_str h₁₁, _, text_str h₁₂,
    _, text_str h₁₃, rfl⟩

theorem repository_of_readFields (h : readFields fields repository kinds = .ok identity) :
    identity.repository = repository ∧ (identity.tracking, identity.sourceType, identity.payloadKind) = kinds := by
  simp only [readFields, bind_eq_ok, pure_eq_ok] at h
  obtain ⟨_, -, _, -, _, -, _, -, _, -, _, -, _, -, _, -, _, -, _, -, _, -, _, -, _, -, rfl⟩ := h
  exact ⟨rfl, rfl⟩

theorem checkDeclared_toFields (identity : Identity) : checkDeclared identity.toFields identity = .ok () := by
  simp only [checkDeclared, bind_eq_ok, refuse_eq_ok]
  have hcompleteness : identity.toFields.lookup "completeness" = some (str identity.completeness) := rfl
  have hmissing : identity.toFields.lookup "missing_fields" = some (arr (identity.missing.map str)) := rfl
  have hnames : (identity.missing.map str).mapM str? = some identity.missing := by
    induction identity.missing with
    | nil => rfl
    | cons name names ih => simp [str?, ih]
  refine ⟨(), ?_, ?_⟩
  · rw [hcompleteness]
    simp
  · rw [hmissing]
    simp [declaresMissing, hnames]

section
variable {isDigit : Char → Bool}

/-- What it takes to have a normal form. -/
theorem normalize_eq_ok : normalize isDigit value = .ok identity ↔ ∃ fields, value.fields? = some fields ∧
    ¬ (Recipe.firstUnknown fields knownFields).isSome ∧ checkVersion fields = .ok () ∧ readRepository fields = .ok identity.repository ∧
    readKinds fields = .ok (identity.tracking, identity.sourceType, identity.payloadKind) ∧
    readFields fields identity.repository (identity.tracking, identity.sourceType, identity.payloadKind) = .ok identity ∧
    checkIdentity isDigit identity = .ok () ∧ checkDeclared fields identity = .ok () ∧
    ¬ maxIdentityBytes < (canonical identity).utf8ByteSize := by
  simp only [normalize, bind_eq_ok, refuse_eq_ok, demand_eq_ok, pure_eq_ok]
  constructor
  · rintro ⟨fields, hfields, _, hknown, _, hversion, repository, hrepository, kinds, hkinds, read, hread, _, hcheck, _,
      hdeclared, _, hsize, rfl⟩
    obtain ⟨rfl, rfl⟩ := repository_of_readFields hread
    exact ⟨fields, hfields, hknown, hversion, hrepository, hkinds, hread, hcheck, hdeclared, hsize⟩
  · rintro ⟨fields, hfields, hknown, hversion, hrepository, hkinds, hread, hcheck, hdeclared, hsize⟩
    exact ⟨fields, hfields, (), hknown, (), hversion, _, hrepository, _, hkinds, _, hread, (), hcheck, (), hdeclared, (),
      hsize, rfl⟩

/-- A normal form is its own normal form. -/
theorem normalize_toJson (h : normalize isDigit value = .ok identity) : normalize isDigit identity.toJson = .ok identity := by
  obtain ⟨fields, -, -, -, hrepository, hkinds, hread, hcheck, -, hsize⟩ := normalize_eq_ok.1 h
  have hknown : Recipe.firstUnknown identity.toFields knownFields = none := by
    rw [Recipe.firstUnknown_eq_none]
    simp only [Identity.toFields, List.forall_mem_cons]
    decide
  exact normalize_eq_ok.2 ⟨identity.toFields, rfl, by simp [hknown], rfl, readRepository_toFields hrepository,
    readKinds_toFields hkinds, readFields_toFields hread, hcheck, checkDeclared_toFields identity, hsize⟩

/-! ## Spelling -/

/-- The fields that are read as texts, and whether they are read in lower case. -/
def textFields : List (String × Bool) :=
  [("provider", true), ("repository", true), ("tracking", false), ("source_type", false), ("payload_kind", false),
   ("requested_ref", false), ("release_id", false), ("asset_id", false), ("commit_sha", true), ("ref_object_sha", true),
   ("resolved_ref", false), ("resolved_version", false), ("content_sha256", true), ("asset_name", false),
   ("source_archive_format", false), ("expected_package", false), ("expected_architecture", false)]

/-- What a document says in a field, without the spelling. -/
def said (value : Json) (row : String × Bool) : Option (List Char) :=
  (spelled false (member value row.1)).map fun cs => if row.2 then Text.lower cs else cs

/-- The documents say the same in every field up to spelling, what they declare of their
completeness and their schema version apart. -/
def SameSpelling (v w : Json) : Prop :=
  (∀ row ∈ textFields, said v row = said w row) ∧
    (member v "expected_size").int? = (member w "expected_size").int?

theorem spelled_of_required {cs : List Char} (h : spelled required value = some cs) : spelled false value = some cs := by
  cases value with
  | null =>
      cases required with
      | true => exact nomatch h
      | false => exact h
  | _ => exact h

theorem spelled_of_text (h : text value field required maximum = .ok result) : spelled false value = some result.toList := by
  obtain ⟨cs, hspelled, -, rfl⟩ := text_eq_ok.1 h
  rw [spelled_of_required hspelled, String.toList_ofList]

/-- A field that is read as it is says its value. -/
theorem said_of_text (h : text (get fields field) field required maximum = .ok result) :
    said (obj fields) (field, false) = some result.toList := by
  show (spelled false (get fields field)).map _ = _
  rw [spelled_of_text h]
  rfl

theorem said_of_text_lower (h : text (get fields field) field required maximum = .ok result) :
    said (obj fields) (field, true) = some (lower result).toList := by
  show (spelled false (get fields field)).map _ = _
  rw [spelled_of_text h, lower, String.toList_ofList]
  rfl

theorem said_of_sha (h : sha (get fields field) field lengths = .ok result) :
    said (obj fields) (field, true) = some result.toList := by
  simp only [sha, bind_eq_ok, refuse_eq_ok, pure_eq_ok] at h
  obtain ⟨_, hread, _, -, rfl⟩ := h
  exact said_of_text_lower hread

theorem said_of_githubRef (h : githubRef (get fields field) field = .ok result) :
    said (obj fields) (field, false) = some result.toList := by
  simp only [githubRef, bind_eq_ok, refuse_eq_ok, pure_eq_ok] at h
  obtain ⟨_, hread, _, -, rfl⟩ := h
  exact said_of_text hread

theorem said_of_version (h : version (get fields "resolved_version") = .ok result) :
    said (obj fields) ("resolved_version", false) = some result.toList := by
  simp only [version, bind_eq_ok, refuse_eq_ok, pure_eq_ok] at h
  obtain ⟨_, hread, _, -, rfl⟩ := h
  exact said_of_text hread

theorem int?_of_size {expectedSize : Option Int} (h : size value = .ok expectedSize) : value.int? = expectedSize := by
  cases value with
  | null => exact Except.ok.inj h
  | str s =>
      rw [size] at h
      split at h
      · exact Except.ok.inj h
      · exact nomatch h
  | int n =>
      rw [size] at h
      split at h
      · exact Except.ok.inj h
      · exact nomatch h
  | bool b => exact nomatch h
  | float v shown => exact nomatch h
  | arr values => exact nomatch h
  | obj fields => exact nomatch h

/-- The texts of an identity, in the order of the fields. -/
def Identity.texts (identity : Identity) : List String :=
  ["github", identity.repository, identity.tracking.text, identity.sourceType.text, identity.payloadKind.text,
   identity.requestedRef, identity.releaseId, identity.assetId, identity.commitSha, identity.refObjectSha,
   identity.resolvedRef, identity.resolvedVersion, identity.contentSha256, identity.assetName,
   identity.sourceArchiveFormat, identity.expectedPackage, identity.expectedArchitecture]

theorem obj_of_fields? (h : value.fields? = some fields) : value = obj fields := by
  cases value with
  | obj fs => rw [Option.some.inj h]
  | _ => exact nomatch h

theorem said_of_readRepository (h : readRepository fields = .ok repository) :
    [("provider", true), ("repository", true)].map (said (obj fields)) = [some "github".toList, some repository.toList] := by
  simp only [readRepository, bind_eq_ok, refuse_eq_ok, pure_eq_ok] at h
  obtain ⟨provider, hprovider, _, hgithub, _, hname, _, -, rfl⟩ := h
  have hgithub : lower provider = "github" := not_not.1 hgithub
  rw [List.map_cons, List.map_cons, List.map_nil, said_of_text_lower hprovider, said_of_text_lower hname, hgithub]

theorem said_of_readKinds (h : readKinds fields = .ok kinds) :
    [("tracking", false), ("source_type", false), ("payload_kind", false)].map (said (obj fields)) =
      [some kinds.1.text.toList, some kinds.2.1.text.toList, some kinds.2.2.text.toList] := by
  simp only [readKinds, bind_eq_ok, refuse_eq_ok, demand_eq_ok, pure_eq_ok] at h
  obtain ⟨_, htracking, _, hsource, _, hpayload, _, ht, _, hs, _, hk, _, -, _, -, _, -, _, -, _, -, rfl⟩ := h
  rw [List.map_cons, List.map_cons, List.map_cons, List.map_nil, said_of_text htracking, said_of_text hsource,
    said_of_text hpayload, Tracking.text_of_ofText? ht, SourceType.text_of_ofText? hs, PayloadKind.text_of_ofText? hk]

theorem said_of_readFields (h : readFields fields repository kinds = .ok identity) :
    (textFields.drop 5).map (said (obj fields)) = (identity.texts.drop 5).map (fun s => some s.toList) ∧
      (member (obj fields) "expected_size").int? = identity.expectedSize := by
  simp only [readFields, bind_eq_ok, pure_eq_ok] at h
  obtain ⟨_, h₁, _, h₂, _, h₃, _, h₄, _, h₅, _, h₆, _, h₇, _, h₈, _, h₉, _, h₁₀, _, h₁₁, _, h₁₂, _, h₁₃, rfl⟩ := h
  refine ⟨?_, int?_of_size h₁₀⟩
  simp only [textFields, Identity.texts, List.drop_succ_cons, List.drop_zero, List.map_cons, List.map_nil]
  rw [said_of_githubRef h₁, said_of_text h₂, said_of_text h₃, said_of_sha h₄, said_of_sha h₅, said_of_githubRef h₆,
    said_of_version h₇, said_of_sha h₈, said_of_text h₉, said_of_text h₁₁, said_of_text h₁₂, said_of_text h₁₃]

/-- What a document with a normal form says is in the normal form. -/
theorem said_of_normalize (h : normalize isDigit value = .ok identity) :
    textFields.map (said value) = identity.texts.map (fun s => some s.toList) ∧
      (member value "expected_size").int? = identity.expectedSize := by
  obtain ⟨fields, hfields, -, -, hrepository, hkinds, hread, -⟩ := normalize_eq_ok.1 h
  obtain rfl := obj_of_fields? hfields
  obtain ⟨htexts, hsize⟩ := said_of_readFields hread
  refine ⟨?_, hsize⟩
  have hsplit : textFields = [("provider", true), ("repository", true)] ++
      ([("tracking", false), ("source_type", false), ("payload_kind", false)] ++ textFields.drop 5) := rfl
  rw [hsplit, List.map_append, List.map_append, said_of_readRepository hrepository, said_of_readKinds hkinds, htexts]
  rfl

/-- The texts and the size are all of an identity. -/
theorem Identity.ext_texts {m n : Identity} (htexts : m.texts = n.texts) (hsize : m.expectedSize = n.expectedSize) : m = n := by
  have htracking {t t' : Tracking} (h : t.text = t'.text) : t = t' := by
    have hread := congrArg Tracking.ofText? h
    rw [Tracking.ofText?_text, Tracking.ofText?_text] at hread
    exact Option.some.inj hread
  have hsource {t t' : SourceType} (h : t.text = t'.text) : t = t' := by
    have hread := congrArg SourceType.ofText? h
    rw [SourceType.ofText?_text, SourceType.ofText?_text] at hread
    exact Option.some.inj hread
  have hpayload {k k' : PayloadKind} (h : k.text = k'.text) : k = k' := by
    have hread := congrArg PayloadKind.ofText? h
    rw [PayloadKind.ofText?_text, PayloadKind.ofText?_text] at hread
    exact Option.some.inj hread
  simp only [Identity.texts, List.cons.injEq, and_true, true_and] at htexts
  obtain ⟨h₁, h₂, h₃, h₄, h₅, h₆, h₇, h₈, h₉, h₁₀, h₁₁, h₁₂, h₁₃, h₁₄, h₁₅, h₁₆⟩ := htexts
  ext1
  · exact h₁
  · exact htracking h₂
  · exact hsource h₃
  · exact hpayload h₄
  all_goals assumption

/-- Two documents have the same normal form exactly when they say the same up to spelling. -/
theorem sameSpelling_iff {v w : Json} {m n : Identity} (hv : normalize isDigit v = .ok m) (hw : normalize isDigit w = .ok n) :
    SameSpelling v w ↔ m = n := by
  have hmap : (∀ row ∈ textFields, said v row = said w row) ↔ m.texts = n.texts := by
    rw [← List.map_inj_left, (said_of_normalize hv).1, (said_of_normalize hw).1]
    constructor
    · intro h
      refine List.map_injective_iff.2 ?_ h
      intro s t hst
      exact String.toList_inj.1 (Option.some.inj hst)
    · intro h
      rw [h]
  rw [SameSpelling, hmap, (said_of_normalize hv).2, (said_of_normalize hw).2]
  constructor
  · rintro ⟨htexts, hsize⟩
    exact Identity.ext_texts htexts hsize
  · rintro rfl
    exact ⟨rfl, rfl⟩

end

/-! ## Completeness -/

/-- The fields from which the completeness is derived. -/
def Identity.identifiers (identity : Identity) : (Tracking × SourceType × PayloadKind) × List String :=
  ((identity.tracking, identity.sourceType, identity.payloadKind),
   [identity.requestedRef, identity.releaseId, identity.assetId, identity.commitSha, identity.refObjectSha,
    identity.resolvedRef, identity.assetName, identity.sourceArchiveFormat, identity.expectedPackage,
    identity.expectedArchitecture])

/-- No version, digest or size makes an identity complete. -/
theorem completeness_of_identifiers {m n : Identity} (h : m.identifiers = n.identifiers) : m.completeness = n.completeness := by
  simp only [Identity.identifiers, Prod.mk.injEq, List.cons.injEq, and_true] at h
  obtain ⟨⟨h₁, h₂, h₃⟩, h₄, h₅, h₆, h₇, h₈, h₉, h₁₀, h₁₁, h₁₂, h₁₃⟩ := h
  have hrequired : m.requiredFields = n.requiredFields := by
    simp only [Identity.requiredFields, h₁, h₂, h₃, h₄, h₅, h₆, h₇, h₈, h₉, h₁₀, h₁₁, h₁₂, h₁₃]
  rw [Identity.completeness, Identity.missing, hrequired]
  rfl

/-! ## Keys -/

theorem floatless_toJson (identity : Identity) : Floatless identity.toJson := by
  have hsize : Floatless (identity.expectedSize.elim null int) := by
    cases identity.expectedSize <;> trivial
  have hmissing : FloatlessItems (identity.missing.map str) := by
    induction identity.missing with
    | nil => trivial
    | cons name names ih => exact ⟨trivial, ih⟩
  simp only [Identity.toJson, Identity.toFields, Floatless, FloatlessFields, hsize, hmissing, and_self]

theorem nodup_toFields (identity : Identity) : (identity.toFields.map Prod.fst).Nodup := by
  simp only [Identity.toFields, List.map_cons, List.map_nil]
  decide

/-- The text of an identity shows the identity. -/
theorem Identity.eq_of_sortKeys {m n : Identity} (h : m.toJson.sortKeys = n.toJson.sortKeys) : m = n := by
  have hlookup := lookup_eq_of_sortKeys (nodup_toFields m) (nodup_toFields n) h
  have htext (key : String) {s t : String} (hs : m.toFields.lookup key = some (str s)) (ht : n.toFields.lookup key = some (str t)) : s = t := by
    have hkey := hlookup key
    rw [hs, ht] at hkey
    exact str.inj (Option.some.inj hkey)
  have htexts : m.texts = n.texts := by
    simp only [Identity.texts, List.cons.injEq, and_true, true_and]
    exact ⟨htext "repository" rfl rfl, htext "tracking" rfl rfl, htext "source_type" rfl rfl,
      htext "payload_kind" rfl rfl, htext "requested_ref" rfl rfl, htext "release_id" rfl rfl,
      htext "asset_id" rfl rfl, htext "commit_sha" rfl rfl, htext "ref_object_sha" rfl rfl,
      htext "resolved_ref" rfl rfl, htext "resolved_version" rfl rfl,
      htext "content_sha256" rfl rfl, htext "asset_name" rfl rfl,
      htext "source_archive_format" rfl rfl, htext "expected_package" rfl rfl,
      htext "expected_architecture" rfl rfl⟩
  refine Identity.ext_texts htexts ?_
  have hsize := hlookup "expected_size"
  have hm : m.toFields.lookup "expected_size" = some (m.expectedSize.elim null int) := rfl
  have hn : n.toFields.lookup "expected_size" = some (n.expectedSize.elim null int) := rfl
  rw [hm, hn] at hsize
  cases hs : m.expectedSize with
  | none =>
      cases ht : n.expectedSize with
      | none => rfl
      | some k => rw [hs, ht] at hsize; exact nomatch Option.some.inj hsize
  | some k =>
      cases ht : n.expectedSize with
      | none => rw [hs, ht] at hsize; exact nomatch Option.some.inj hsize
      | some k' =>
          rw [hs, ht] at hsize
          rw [int.inj (Option.some.inj hsize)]

/-- What is digested shows the Recipe, its digest and the identity. -/
theorem payload_inj {recipeId recipeId' sha sha' : String} {m n : Identity}
    (h : dumps (payload recipeId m sha) = dumps (payload recipeId' n sha')) : recipeId = recipeId' ∧ lower sha = lower sha' ∧ m = n := by
  have hfloatless (recipeId : String) (m : Identity) (sha : String) : Floatless (payload recipeId m sha) :=
    ⟨trivial, trivial, trivial, floatless_toJson m, trivial⟩
  have hsorted := dumps_inj (hfloatless recipeId m sha) (hfloatless recipeId' n sha') h
  have hnodup : ["schema_version", "recipe_id", "recipe_sha256", "upstream_identity"].Nodup := by decide
  have hlookup := lookup_eq_of_sortKeys (by exact hnodup) (by exact hnodup) hsorted
  have hid := hlookup "recipe_id"
  have hsha := hlookup "recipe_sha256"
  have hidentity := hlookup "upstream_identity"
  exact ⟨str.inj (Option.some.inj hid), str.inj (Option.some.inj hsha),
    Identity.eq_of_sortKeys (Option.some.inj hidentity)⟩

section
variable {isDigit : Char → Bool} {sha256 : String → String}

/-- The text that the key of an attempt is a digest of. -/
def payloadText (recipeId : String) (identity : Identity) (recipeSha256 : String) : String :=
  String.ofList (dumps (payload recipeId identity recipeSha256))

theorem attemptKey_eq_ok {recipeId recipeSha256 key : String} (h : attemptKey isDigit sha256 recipeId value recipeSha256 = .ok key) :
    ∃ identity, normalize isDigit value = .ok identity ∧
      key = "automation-v1-" ++ sha256 (payloadText recipeId identity recipeSha256) := by
  simp only [attemptKey, bind_eq_ok, refuse_eq_ok, pure_eq_ok] at h
  obtain ⟨_, -, _, -, identity, hidentity, _, -, rfl⟩ := h
  exact ⟨identity, hidentity, rfl⟩

theorem attemptKey_congr {v w : Json} (h : normalize isDigit v = normalize isDigit w) (recipeId recipeSha256 : String) :
    attemptKey isDigit sha256 recipeId v recipeSha256 = attemptKey isDigit sha256 recipeId w recipeSha256 := by
  rw [attemptKey, h]
  rfl

/-- Normal forms are canonical, their completeness depends on the identifiers alone, documents
that say the same up to spelling share them and the keys made of them, and a key shows the
Recipe, its digest and the normal form, unless two digested texts have the same digest. -/
theorem identity_canonical (isDigit : Char → Bool) (sha256 : String → String) :
    (∀ value identity, normalize isDigit value = .ok identity → normalize isDigit identity.toJson = .ok identity) ∧
    (∀ m n : Identity, m.identifiers = n.identifiers → m.completeness = n.completeness) ∧
    (∀ v w m n, normalize isDigit v = .ok m → normalize isDigit w = .ok n →
      (SameSpelling v w ↔ m = n) ∧ (SameSpelling v w → ∀ recipeId recipeSha256,
        attemptKey isDigit sha256 recipeId v recipeSha256 = attemptKey isDigit sha256 recipeId w recipeSha256)) ∧
    ∀ v w recipeId recipeId' sha sha' key, attemptKey isDigit sha256 recipeId v sha = .ok key →
      attemptKey isDigit sha256 recipeId' w sha' = .ok key →
      ∃ m n, normalize isDigit v = .ok m ∧ normalize isDigit w = .ok n ∧
        ((sha256 (payloadText recipeId m sha) = sha256 (payloadText recipeId' n sha') →
            payloadText recipeId m sha = payloadText recipeId' n sha') →
          recipeId = recipeId' ∧ lower sha = lower sha' ∧ m = n) := by
  refine ⟨fun _ _ => normalize_toJson, fun _ _ => completeness_of_identifiers, ?_, ?_⟩
  · intro v w m n hv hw
    refine ⟨sameSpelling_iff hv hw, fun hsame recipeId recipeSha256 => ?_⟩
    obtain rfl := (sameSpelling_iff hv hw).1 hsame
    exact attemptKey_congr (hv.trans hw.symm) recipeId recipeSha256
  · intro v w recipeId recipeId' sha sha' key hv hw
    obtain ⟨m, hm, hkey⟩ := attemptKey_eq_ok hv
    obtain ⟨n, hn, hkey'⟩ := attemptKey_eq_ok hw
    refine ⟨m, n, hm, hn, fun hcollision => ?_⟩
    have hdigest : sha256 (payloadText recipeId m sha) = sha256 (payloadText recipeId' n sha') := by
      have happend := congrArg String.toList (hkey.symm.trans hkey')
      rw [String.toList_append, String.toList_append] at happend
      exact String.toList_inj.1 (List.append_cancel_left happend)
    exact payload_inj (String.ofList_injective (hcollision hdigest))

end

/-- A branch of a repository, as it was resolved at one commit. -/
def sampleBranch (version : String) : Json :=
  obj [("provider", str "GitHub"), ("repository", str " o/r "), ("tracking", str "manual"), ("source_type", str "git_ref"),
    ("payload_kind", str "source_archive"), ("requested_ref", str "m"), ("resolved_ref", str "m"),
    ("commit_sha", str "ABABABABABABABABABABABABABABABABABABABAB"), ("resolved_version", str version),
    ("source_archive_format", str "zip")]

/-- A character takes four bytes at most. -/
theorem utf8ByteSize_ofList_le (cs : List Char) : (String.ofList cs).utf8ByteSize ≤ 4 * cs.length := by
  induction cs with
  | nil => decide
  | cons c cs ih =>
      rw [String.ofList_cons, String.utf8ByteSize_append, List.length_cons]
      have hc := c.utf8Size_le_four
      simp
      omega

/-- The normal form of `sampleBranch`. -/
def sampleIdentity (version : String) : Identity :=
  ⟨"o/r", .manual, .gitRef, .sourceArchive, "m", "", "", "abababababababababababababababababababab", "", "m", version, "", "",
    none, "zip", "", ""⟩

theorem normalize_sampleBranch (version : String) (h : version = "1" ∨ version = "2") :
    normalize Char.isDigit (sampleBranch version) = .ok (sampleIdentity version) := by
  have hlength : (dumps (sampleIdentity version).toJson).length ≤ 1000 := by
    rcases h with rfl | rfl <;> decide +kernel
  have hsize : ¬ maxIdentityBytes < (canonical (sampleIdentity version)).utf8ByteSize := by
    have hle := utf8ByteSize_ofList_le (dumps (sampleIdentity version).toJson)
    rw [canonical, maxIdentityBytes]
    omega
  rcases h with rfl | rfl
  · exact normalize_eq_ok.2 ⟨_, rfl, by decide +kernel, rfl, by decide +kernel, by decide +kernel, by decide +kernel,
      by decide +kernel, rfl, hsize⟩
  · exact normalize_eq_ok.2 ⟨_, rfl, by decide +kernel, rfl, by decide +kernel, by decide +kernel, by decide +kernel,
      by decide +kernel, rfl, hsize⟩

/-- The version that is shown is part of the normal form and of the key. -/
theorem version_changes_identity : ∃ m n, normalize Char.isDigit (sampleBranch "1") = .ok m ∧
    normalize Char.isDigit (sampleBranch "2") = .ok n ∧ m.completeness = "complete" ∧ m ≠ n ∧
    payloadText "demo" m "" ≠ payloadText "demo" n "" := by
  have hne : sampleIdentity "1" ≠ sampleIdentity "2" := by decide
  refine ⟨_, _, normalize_sampleBranch "1" (.inl rfl), normalize_sampleBranch "2" (.inr rfl), by decide +kernel, hne,
    fun hsame => hne ?_⟩
  exact (payload_inj (String.ofList_injective hsame)).2.2

end Upstream
end DebBuilder
