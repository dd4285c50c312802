import Mathlib
import DebBuilder.Recipe.Validate

/-!
# Versions

`version_from_resolution` derives the upstream version and the Debian version of a Run
from the source that its Recipe tracks; `debian_upstream_version` reads the upstream
version back from the version of a published package.  Three grammars meet: the text that
a tag may hold, the revision of the Recipe and the pattern of Debian versions.

## Main definitions

* `versionFromResolution` — the two versions of a Run.
* `matchDebianVersion` — `DEBIAN_VERSION_PATTERN.fullmatch`, with its groups.
* `debianUpstreamVersion` — the upstream version of a Debian version.
* `Readable` — the texts and revisions that read back.

## Main statements

* `upstream_reads_back_iff` — the upstream version is read back exactly from readable texts.
-/

namespace DebBuilder.Source
open Lib Json Recipe

/-! ## The upstream version -/

/-- What `re.search` returns: the text of the match and those of its groups. -/
structure Match where
  whole : String
  groups : List (Option String)

/-- `SourceError`: its code and its message. -/
structure SourceError where
  code : String
  message : String
  deriving DecidableEq, Repr

/-- The text that the mode of the Recipe selects from the resolved source.  A group that
took no part in the match is `None`. -/
def selectedText (search : String → String → Option Match) (source : Recipe.Source) (resolved : Json.Fields) :
    Option String :=
  if source.versionSource = "tag" then
    some (orText (orElse (get resolved "tag") (get resolved "ref")) "")
  else if source.versionSource = "release_name" then
    some (orText (get resolved "name") "")
  else
    let subject := orText (orElse (orElse (get resolved "tag") (get resolved "name")) (get resolved "ref")) ""
    match search source.versionExpression subject with
    | none => some ""
    | some found => match found.groups with
      | [] => some found.whole
      | group :: _ => group

/-- `re.sub(r"^[vV]", "", value)` -/
def dropV : List Char → List Char
  | c :: cs => if c = 'v' ∨ c = 'V' then cs else c :: cs
  | [] => []

def hexChar (c : Char) : Bool := c.isDigit || ('a' ≤ c && c ≤ 'f') || ('A' ≤ c && c ≤ 'F')

/-- `re.fullmatch(r"[0-9a-fA-F]{7,40}", value) and re.search(r"[a-fA-F]", value)` -/
def isCommit (value : List Char) : Bool :=
  7 ≤ value.length && value.length ≤ 40 && value.all hexChar && value.any fun c => hexChar c && !c.isDigit

/-- `[A-Za-z0-9.+:~_-]` -/
def versionChar (c : Char) : Bool := c.isAlphanum || ".+:~_-".toList.contains c

def unusable : String := "GitHub version is not automatically usable as a Debian version"

def normalizeGithubVersion (value : Option String) : Except String String := do
  let value := dropV (Text.strip (value.getD "").toList)
  refuse (isCommit value = true) unusable
  refuse (fullMatch Char.isDigit versionChar (String.ofList value) = false) unusable
  return String.ofList value

/-- The upstream version and the Debian version, from the two sections of a Recipe that
decide them. -/
def versionFromResolution (search : String → String → Option Match) (source : Recipe.Source) (package : Package)
    (resolved : Json.Fields) : Except SourceError (String × String) := do
  let upstream ← (normalizeGithubVersion (selectedText search source resolved)).mapError fun _ =>
    ⟨"unable_to_determine_version", "Unable to determine version from the selected GitHub source"⟩
  let revision := package.versionRevision
  return (upstream, if revision ≠ "" then upstream ++ "-" ++ revision else upstream)

/-! ## The Debian version -/

/-- `[A-Za-z0-9.+:~\-]` -/
def upstreamChar (c : Char) : Bool := c.isAlphanum || ".+:~-".toList.contains c

/-- `[A-Za-z0-9.+~]` -/
def revisionChar (c : Char) : Bool := c.isAlphanum || ".+~".toList.contains c

/-- The groups of a Debian version. -/
structure DebianVersion where
  epoch : Option (List Char)
  upstream : List Char
  revision : Option (List Char)

/-- `[A-Za-z0-9.+:~\-]*?(?:-([A-Za-z0-9.+~]+))?` up to the end: the upstream part grows by
one character only where neither a revision nor the end follows. -/
def matchUpstream : List Char → Option (List Char × Option (List Char))
  | [] => some ([], none)
  | c :: cs =>
    if c = '-' ∧ cs ≠ [] ∧ cs.all revisionChar = true then some ([], some cs)
    else if upstreamChar c then (matchUpstream cs).map fun found => (c :: found.1, found.2)
    else none

/-- The pattern after its epoch. -/
def matchWithoutEpoch : List Char → Option (List Char × Option (List Char))
  | [] => none
  | c :: cs => if c.isDigit then (matchUpstream cs).map fun found => (c :: found.1, found.2) else none

/-- What follows the digits and the colon of an epoch. -/
def afterEpoch (value : List Char) : Option (List Char) :=
  match value.dropWhile Char.isDigit with
  | ':' :: rest => if value.takeWhile Char.isDigit = [] then none else some rest
  | _ => none

/-- `DEBIAN_VERSION_PATTERN.fullmatch(value)`: the epoch is tried first. -/
def matchDebianVersion (value : List Char) : Option DebianVersion :=
  match (afterEpoch value).bind matchWithoutEpoch with
  | some (upstream, revision) => some ⟨some (value.takeWhile Char.isDigit), upstream, revision⟩
  | none => (matchWithoutEpoch value).map fun found => ⟨none, found.1, found.2⟩

/-- `f"{epoch}:{upstream}" if epoch is not None else upstream` -/
def DebianVersion.upstreamText (version : DebianVersion) : String :=
  match version.epoch with
  | some epoch => String.ofList epoch ++ ":" ++ String.ofList version.upstream
  | none => String.ofList version.upstream

def debianUpstreamVersion (version : String) : Except String String :=
  match matchDebianVersion (Text.strip version.toList) with
  | none => .error ("invalid Debian version: " ++ version)
  | some found => .ok found.upstreamText

/-! ## Reading a Debian version -/

theorem upstreamChar_of_revisionChar {c : Char} (h : revisionChar c = true) : upstreamChar c = true := by
  simp only [revisionChar, upstreamChar, Bool.or_eq_true] at h ⊢
  rcases h with h | h
  · exact .inl h
  · simp at h ⊢
    tauto

theorem versionChar_iff {c : Char} : versionChar c = true ↔ upstreamChar c = true ∨ c = '_' := by
  simp only [versionChar, upstreamChar, Bool.or_eq_true]
  simp
  tauto

theorem not_revisionChar_hyphen : revisionChar '-' = false := by decide

theorem not_upstreamChar_underscore : upstreamChar '_' = false := by decide

/-- The characters of a version are printable ASCII. -/
theorem not_isSpace_of_upstreamChar {c : Char} (h : upstreamChar c = true) : Text.isSpace c = false := by
  have hrange : 33 ≤ c.toNat ∧ c.toNat < 127 := by
    simp only [upstreamChar, Bool.or_eq_true] at h
    rcases h with h | h
    · simp only [Char.isAlphanum, Char.isAlpha, Char.isUpper, Char.isLower, Char.isDigit, Bool.or_eq_true,
        Bool.and_eq_true, decide_eq_true_eq, UInt32.le_iff_toNat_le, ge_iff_le] at h
      have : c.toNat = c.val.toNat := rfl
      have : 'Z'.val.toNat = 90 := rfl
      have : 'A'.val.toNat = 65 := rfl
      have : 'z'.val.toNat = 122 := rfl
      have : 'a'.val.toNat = 97 := rfl
      have : '9'.val.toNat = 57 := rfl
      have : '0'.val.toNat = 48 := rfl
      omega
    · have hmem : c ∈ ['.', '+', ':', '~', '-'] := List.contains_iff_mem.1 h
      simp only [List.mem_cons, List.not_mem_nil, or_false] at hmem
      rcases hmem with rfl | rfl | rfl | rfl | rfl <;> decide
  simp only [Text.isSpace, Bool.or_eq_false_iff, Bool.and_eq_false_imp, decide_eq_true_eq, decide_eq_false_iff_not,
    beq_eq_false_iff_ne]
  omega

/-- A text that ends as a Debian revision does. -/
def EndsInRevision (value : List Char) : Prop :=
  ∃ before rev, value = before ++ '-' :: rev ∧ rev ≠ [] ∧ ∀ c ∈ rev, revisionChar c = true

/-- The last hyphen ends the upstream part when a revision follows it. -/
theorem matchUpstream_revision {upstream rev : List Char} (h : ∀ c ∈ upstream, upstreamChar c = true)
    (hne : rev ≠ []) (hrev : ∀ c ∈ rev, revisionChar c = true) :
    matchUpstream (upstream ++ '-' :: rev) = some (upstream, some rev) := by
  induction upstream with
  | nil => rw [List.nil_append, matchUpstream, if_pos ⟨rfl, hne, List.all_eq_true.2 hrev⟩]
  | cons c cs ih =>
      have hno : ¬ (cs ++ '-' :: rev).all revisionChar = true := by
        intro hall
        have hhyphen := List.all_eq_true.1 hall '-' (by simp)
        rw [not_revisionChar_hyphen] at hhyphen
        exact absurd hhyphen (by decide)
      rw [List.cons_append, matchUpstream, if_neg fun hc => hno hc.2.2, if_pos (h c List.mem_cons_self),
        ih fun c hc => h c (List.mem_cons_of_mem _ hc), Option.map_some]

theorem matchUpstream_whole {value : List Char} (h : ∀ c ∈ value, upstreamChar c = true) (hend : ¬ EndsInRevision value) :
    matchUpstream value = some (value, none) := by
  induction value with
  | nil => rfl
  | cons c cs ih =>
      have hno : ¬ (c = '-' ∧ cs ≠ [] ∧ cs.all revisionChar = true) := by
        rintro ⟨rfl, hne, hall⟩
        exact hend ⟨[], cs, rfl, hne, List.all_eq_true.1 hall⟩
      have hcs : ¬ EndsInRevision cs := by
        rintro ⟨before, rev, rfl, hne, hrev⟩
        exact hend ⟨c :: before, rev, rfl, hne, hrev⟩
      rw [matchUpstream, if_neg hno, if_pos (h c List.mem_cons_self),
        ih (fun c hc => h c (List.mem_cons_of_mem _ hc)) hcs, Option.map_some]

/-- Every character of a match is one of the upstream part. -/
theorem upstreamChar_of_matchUpstream {value : List Char} (h : (matchUpstream value).isSome = true) :
    ∀ c ∈ value, upstreamChar c = true := by
  induction value with
  | nil => intro c hc; exact absurd hc List.not_mem_nil
  | cons a cs ih =>
      intro c hc
      rw [matchUpstream] at h
      split at h
      case isTrue hrev =>
        rcases List.mem_cons.1 hc with rfl | hc
        · rw [hrev.1]; decide
        · exact upstreamChar_of_revisionChar (List.all_eq_true.1 hrev.2.2 c hc)
      case isFalse =>
        by_cases ha : upstreamChar a = true
        · rw [if_pos ha, Option.isSome_map] at h
          rcases List.mem_cons.1 hc with rfl | hc
          · exact ha
          · exact ih h c hc
        · rw [if_neg ha] at h
          exact absurd h (by decide)

/-- What stands before the first hyphen belongs to the upstream part. -/
theorem matchUpstream_append {a : List Char} (h : ∀ c ∈ a, upstreamChar c = true ∧ c ≠ '-') (rest : List Char) :
    matchUpstream (a ++ rest) = (matchUpstream rest).map fun found => (a ++ found.1, found.2) := by
  induction a with
  | nil => simp
  | cons c cs ih =>
      have hc := h c List.mem_cons_self
      rw [List.cons_append, matchUpstream, if_neg fun hrev => hc.2 hrev.1, if_pos hc.1,
        ih fun c hc => h c (List.mem_cons_of_mem _ hc), Option.map_map]
      rfl

theorem upstreamChar_of_isDigit {c : Char} (h : c.isDigit = true) : upstreamChar c = true ∧ c ≠ '-' := by
  constructor
  · rw [upstreamChar, Char.isAlphanum, h, Bool.or_true, Bool.true_or]
  · rintro rfl
    exact absurd h (by decide)

theorem matchWithoutEpoch_eq (value : List Char) :
    matchWithoutEpoch value = if value.head?.any Char.isDigit = true then matchUpstream value else none := by
  cases value with
  | nil => rfl
  | cons c cs =>
      by_cases hdigit : c.isDigit = true
      · have hc := upstreamChar_of_isDigit hdigit
        rw [matchWithoutEpoch, if_pos hdigit, List.head?_cons, Option.any_some, if_pos hdigit, matchUpstream,
          if_neg fun hrev => hc.2 hrev.1, if_pos hc.1]
      · rw [matchWithoutEpoch, if_neg hdigit, List.head?_cons, Option.any_some, if_neg hdigit]

theorem of_afterEpoch {value rest : List Char} (h : afterEpoch value = some rest) :
    value = value.takeWhile Char.isDigit ++ ':' :: rest ∧ value.takeWhile Char.isDigit ≠ [] := by
  have happ := List.takeWhile_append_dropWhile (p := Char.isDigit) (l := value)
  simp only [afterEpoch] at h
  split at h
  case h_1 hdrop =>
    split at h
    case isTrue => exact absurd h nofun
    case isFalse hne =>
      rw [hdrop, Option.some.inj h] at happ
      exact ⟨happ.symm, hne⟩
  case h_2 => exact absurd h nofun

/-- An epoch is also matched as the start of an upstream part. -/
theorem matchWithoutEpoch_of_afterEpoch {value rest : List Char} (h : afterEpoch value = some rest) :
    matchWithoutEpoch value = (matchUpstream rest).map fun found =>
      (value.takeWhile Char.isDigit ++ ':' :: found.1, found.2) := by
  have hvalue := (of_afterEpoch h).1
  have hne := (of_afterEpoch h).2
  have hdigits : ∀ c ∈ value.takeWhile Char.isDigit, c.isDigit = true := fun c hc => List.mem_takeWhile_imp hc
  generalize value.takeWhile Char.isDigit = digits at hvalue hne hdigits ⊢
  subst hvalue
  have hhead : (digits ++ ':' :: rest).head?.any Char.isDigit = true := by
    cases digits with
    | nil => exact absurd rfl hne
    | cons d ds => exact hdigits d List.mem_cons_self
  have hstart : ∀ c ∈ digits ++ [':'], upstreamChar c = true ∧ c ≠ '-' := by
    intro c hc
    rcases List.mem_append.1 hc with hc | hc
    · exact upstreamChar_of_isDigit (hdigits c hc)
    · rw [List.mem_singleton.1 hc]; decide
  rw [matchWithoutEpoch_eq, if_pos hhead]
  have happend := matchUpstream_append hstart rest
  simpa only [List.append_assoc, List.singleton_append] using happend

/-- The epoch is part of what is read as the upstream version, whether it is matched as an
epoch or not. -/
theorem upstreamText_matchDebianVersion (value : List Char) :
    (matchDebianVersion value).map DebianVersion.upstreamText =
      (matchWithoutEpoch value).map fun found => String.ofList found.1 := by
  rw [matchDebianVersion]
  cases hepoch : afterEpoch value with
  | none => cases matchWithoutEpoch value <;> rfl
  | some rest =>
      rw [matchWithoutEpoch_of_afterEpoch hepoch, Option.bind_some, matchWithoutEpoch_eq rest]
      by_cases hhead : rest.head?.any Char.isDigit = true
      · rw [if_pos hhead]
        cases matchUpstream rest with
        | none => rfl
        | some found =>
            have htext (epoch upstream : List Char) :
                String.ofList epoch ++ ":" ++ String.ofList upstream = String.ofList (epoch ++ ':' :: upstream) := by
              rw [← String.toList_inj]
              simp
            simp only [Option.map_some, DebianVersion.upstreamText, htext]
      · rw [if_neg hhead]
        cases matchUpstream rest <;> rfl

theorem strip_eq_self {value : List Char} (h : ∀ c ∈ value, upstreamChar c = true) : Text.strip value = value := by
  have hstrip : Text.strip ([] ++ value ++ []) = value := by
    apply Text.strip_append (fun _ hc => absurd hc List.not_mem_nil) (fun _ hc => absurd hc List.not_mem_nil)
    · intro c hc
      exact not_isSpace_of_upstreamChar (h c (List.mem_of_mem_head? hc))
    · intro c hc
      exact not_isSpace_of_upstreamChar (h c (List.mem_of_getLast? hc))
  rwa [List.nil_append, List.append_nil] at hstrip

/-- A Debian version is made of the characters of its upstream part. -/
theorem upstreamChar_of_matchWithoutEpoch {value : List Char} (h : (matchWithoutEpoch value).isSome = true) :
    ∀ c ∈ value, upstreamChar c = true := by
  rw [matchWithoutEpoch_eq] at h
  split at h
  case isTrue => exact upstreamChar_of_matchUpstream h
  case isFalse => exact absurd h (by decide)

theorem debianUpstreamVersion_eq_ok {version upstream : String} :
    debianUpstreamVersion version = .ok upstream ↔
      ∃ found, matchWithoutEpoch (Text.strip version.toList) = some found ∧ String.ofList found.1 = upstream := by
  have htext := upstreamText_matchDebianVersion (Text.strip version.toList)
  have hread : debianUpstreamVersion version = .ok upstream ↔
      (matchDebianVersion (Text.strip version.toList)).map DebianVersion.upstreamText = some upstream := by
    rw [debianUpstreamVersion]
    cases matchDebianVersion (Text.strip version.toList) with
    | none => exact ⟨nofun, nofun⟩
    | some found => rw [Option.map_some, Option.some_inj, Except.ok.injEq]
  rw [hread, htext, Option.map_eq_some_iff]

theorem isSome_matchDebianVersion (value : List Char) :
    (matchDebianVersion value).isSome = (matchWithoutEpoch value).isSome := by
  have htext := congrArg Option.isSome (upstreamText_matchDebianVersion value)
  rwa [Option.isSome_map, Option.isSome_map] at htext

/-! ## What a usable version is -/

theorem fullMatch_eq_true {first rest : Char → Bool} {text : String} (h : fullMatch first rest text = true) :
    text.toList.head?.any first = true ∧ ∀ c ∈ text.toList, first c = true ∨ rest c = true := by
  rw [fullMatch] at h
  cases htext : text.toList with
  | nil => rw [htext] at h; exact absurd h Bool.false_ne_true
  | cons c cs =>
      rw [htext, Bool.and_eq_true, List.all_eq_true] at h
      constructor
      · exact h.1
      · intro d hd
        rcases List.mem_cons.1 hd with rfl | hd
        · exact .inl h.1
        · exact .inr (h.2 d hd)

theorem normalizeGithubVersion_eq_ok {value : Option String} {upstream : String}
    (h : normalizeGithubVersion value = .ok upstream) :
    upstream.toList = dropV (Text.strip (value.getD "").toList) ∧ upstream.toList.head?.any Char.isDigit = true ∧
      ∀ c ∈ upstream.toList, versionChar c = true := by
  obtain ⟨_, _, h⟩ := bind_eq_ok.1 h
  obtain ⟨_, hshape, h⟩ := bind_eq_ok.1 h
  have hvalue : String.ofList (dropV (Text.strip (value.getD "").toList)) = upstream := pure_eq_ok.1 h
  have hmatch := fullMatch_eq_true (Bool.eq_true_of_not_eq_false (refuse_eq_ok.1 hshape))
  rw [hvalue] at hmatch
  refine ⟨by rw [← hvalue, String.toList_ofList], hmatch.1, ?_⟩
  intro c hc
  rcases hmatch.2 c hc with hdigit | hchar
  · exact versionChar_iff.2 (.inl (upstreamChar_of_isDigit hdigit).1)
  · exact hchar

/-- The revisions of a Recipe, and none. -/
def AcceptedRevision (revision : String) : Prop :=
  revision = "" ∨ fullMatch revisionChar revisionChar revision = true

theorem acceptedRevision_of_validateRecipeMetadata {lib : Library} {workflow : Json.Fields} {recipe : CanonicalRecipe}
    (h : validateRecipeMetadata lib workflow = .ok recipe) : AcceptedRevision recipe.package.versionRevision := by
  obtain ⟨recipe', _, h⟩ := bind_eq_ok.1 h
  obtain ⟨_, hpackage, h⟩ := bind_eq_ok.1 h
  have hsame : recipe' = recipe := by
    iterate 5 obtain ⟨_, _, h⟩ := bind_eq_ok.1 h
    exact pure_eq_ok.1 h
  rw [← hsame]
  rw [validatePackage] at hpackage
  iterate 8 obtain ⟨_, _, hpackage⟩ := bind_eq_ok.1 hpackage
  obtain ⟨_, hrevision, _⟩ := bind_eq_ok.1 hpackage
  exact .inr (Bool.eq_true_of_not_eq_false (refuse_eq_ok.1 hrevision))

/-- A version text from which the upstream version is read back: no underscore stands in
it, and where the Recipe adds no revision it does not end as one. -/
def Readable (text : List Char) (revision : String) : Prop :=
  '_' ∉ text ∧ (revision ≠ "" ∨ ¬ EndsInRevision text)

/-- The `v` of a tag decides nothing. -/
theorem readable_dropV (text : List Char) (revision : String) : Readable (dropV text) revision ↔ Readable text revision := by
  cases text with
  | nil => rfl
  | cons c cs =>
      by_cases hv : c = 'v' ∨ c = 'V'
      · have hmem : '_' ∈ c :: cs ↔ '_' ∈ cs := by
          rcases hv with rfl | rfl <;> simp
        have hend : EndsInRevision (c :: cs) ↔ EndsInRevision cs := by
          constructor
          · rintro ⟨before, rev, hcut, hrev⟩
            cases before with
            | nil =>
                rw [(List.cons.inj hcut).1] at hv
                exact absurd hv (by decide)
            | cons _ before => exact ⟨before, rev, (List.cons.inj hcut).2, hrev⟩
          · rintro ⟨before, rev, rfl, hrev⟩
            exact ⟨c :: before, rev, rfl, hrev⟩
        rw [dropV, if_pos hv, Readable, Readable, hmem, hend]
      · rw [dropV, if_neg hv]

/-- The characters of a usable version are those of an upstream part and the underscore. -/
theorem upstreamChars_iff {value : List Char} (h : ∀ c ∈ value, versionChar c = true) :
    (∀ c ∈ value, upstreamChar c = true) ↔ '_' ∉ value := by
  constructor
  · intro hall hmem
    have hunderscore := hall '_' hmem
    rw [not_upstreamChar_underscore] at hunderscore
    exact absurd hunderscore (by decide)
  · intro hno c hc
    rcases versionChar_iff.1 (h c hc) with hchar | rfl
    · exact hchar
    · exact absurd hc hno

theorem debianUpstreamVersion_of_match {debian : String} {upstream : List Char} {revision : Option (List Char)}
    (hhead : debian.toList.head?.any Char.isDigit = true)
    (h : matchUpstream debian.toList = some (upstream, revision)) :
    (matchDebianVersion debian.toList).isSome = true ∧ debianUpstreamVersion debian = .ok (String.ofList upstream) := by
  have hmatch : matchWithoutEpoch debian.toList = some (upstream, revision) := by
    rw [matchWithoutEpoch_eq, if_pos hhead, h]
  have hstrip : Text.strip debian.toList = debian.toList :=
    strip_eq_self (upstreamChar_of_matchWithoutEpoch (by rw [hmatch]; rfl))
  constructor
  · rw [isSome_matchDebianVersion, hmatch]
    rfl
  · rw [debianUpstreamVersion_eq_ok, hstrip]
    exact ⟨_, hmatch, rfl⟩

theorem reads_back_with_revision {upstream revision : String} (hhead : upstream.toList.head?.any Char.isDigit = true)
    (hchars : ∀ c ∈ upstream.toList, versionChar c = true)
    (hrevision : fullMatch revisionChar revisionChar revision = true) :
    (matchDebianVersion (upstream ++ "-" ++ revision).toList).isSome = true ∧
        debianUpstreamVersion (upstream ++ "-" ++ revision) = .ok upstream ↔ '_' ∉ upstream.toList := by
  have htext : (upstream ++ "-" ++ revision).toList = upstream.toList ++ '-' :: revision.toList := by simp
  rw [← upstreamChars_iff hchars]
  constructor
  · rintro ⟨hmatch, _⟩ c hc
    rw [isSome_matchDebianVersion, htext] at hmatch
    exact upstreamChar_of_matchWithoutEpoch hmatch c (List.mem_append_left _ hc)
  · intro hall
    have hrev := fullMatch_eq_true hrevision
    have hne : revision.toList ≠ [] := by
      intro hnil
      rw [hnil] at hrev
      exact absurd hrev.1 (by decide)
    have hfound := matchUpstream_revision hall hne fun c hc => (hrev.2 c hc).elim id id
    rw [← htext] at hfound
    have hread := debianUpstreamVersion_of_match (by
      rw [htext]
      cases hcs : upstream.toList with
      | nil => rw [hcs] at hhead; exact absurd hhead (by decide)
      | cons c cs => rwa [hcs] at hhead) hfound
    rwa [String.ofList_toList] at hread

theorem reads_back_without_revision {upstream : String} (hhead : upstream.toList.head?.any Char.isDigit = true)
    (hchars : ∀ c ∈ upstream.toList, versionChar c = true) :
    (matchDebianVersion upstream.toList).isSome = true ∧ debianUpstreamVersion upstream = .ok upstream ↔
      '_' ∉ upstream.toList ∧ ¬ EndsInRevision upstream.toList := by
  rw [← upstreamChars_iff hchars]
  constructor
  · rintro ⟨hmatch, hread⟩
    rw [isSome_matchDebianVersion] at hmatch
    have hall := upstreamChar_of_matchWithoutEpoch hmatch
    refine ⟨hall, ?_⟩
    rintro ⟨before, rev, hcut, hne, hrev⟩
    have hbegin : ∀ c ∈ before, upstreamChar c = true := by
      intro c hc
      exact hall c (by rw [hcut]; exact List.mem_append_left _ hc)
    have hfound := matchUpstream_revision hbegin hne hrev
    rw [← hcut] at hfound
    have hbefore := (debianUpstreamVersion_of_match hhead hfound).2
    rw [hread, Except.ok.injEq] at hbefore
    have hlength := congrArg List.length hcut
    rw [hbefore] at hlength
    simp at hlength
  · rintro ⟨hall, hend⟩
    have hread := debianUpstreamVersion_of_match hhead (matchUpstream_whole hall hend)
    rwa [String.ofList_toList] at hread

/-- The upstream version is read back from the Debian version of a Run if and only if the
text that it comes from is readable. -/
theorem upstream_reads_back_iff (search : String → String → Option Match) (source : Recipe.Source) (package : Package)
    (resolved : Json.Fields) (upstream debian : String) (hrevision : AcceptedRevision package.versionRevision)
    (h : versionFromResolution search source package resolved = .ok (upstream, debian)) :
    (matchDebianVersion debian.toList).isSome = true ∧ debianUpstreamVersion debian = .ok upstream ↔
      Readable (Text.strip ((selectedText search source resolved).getD "").toList) package.versionRevision := by
  obtain ⟨_, hnormal, h⟩ := bind_eq_ok.1 h
  have hpair := Prod.mk.inj (pure_eq_ok.1 h)
  obtain ⟨htext, hhead, hchars⟩ := normalizeGithubVersion_eq_ok (mapError_eq_ok.1 hnormal)
  rw [hpair.1] at htext hhead hchars
  rw [← readable_dropV, ← htext, ← hpair.2, hpair.1, Readable]
  by_cases hnone : package.versionRevision = ""
  · rw [if_neg (not_not.2 hnone), reads_back_without_revision hhead hchars]
    simp only [hnone, ne_eq, not_true_eq_false, false_or]
  · rw [if_pos hnone, reads_back_with_revision hhead hchars (hrevision.resolve_left hnone)]
    simp only [ne_eq, hnone, not_false_eq_true, true_or, and_true]

/-- The sections of a Recipe that tracks tags. -/
def tagSource : Recipe.Source := ⟨"github", "org/demo", "latest_tag", "", "tag", ""⟩

def demoPackage (revision : String) : Package :=
  ⟨"demo", revision, "amd64", "utils", "optional", "", "", [], ⟨false, []⟩⟩

theorem upstream_reads_back_epoch :
    (matchDebianVersion "1:2.0-rc1-1".toList).isSome = true ∧
      debianUpstreamVersion "1:2.0-rc1-1" = .ok "1:2.0-rc1" :=
  (upstream_reads_back_iff (fun _ _ => none) tagSource (demoPackage "1") [("tag", .str "v1:2.0-rc1")] "1:2.0-rc1"
    "1:2.0-rc1-1" (.inr (by rfl)) (by rfl)).2 ⟨by decide, .inl (by decide)⟩

/-- A tag with an underscore makes a Debian version that does not match the pattern. -/
theorem underscore_unreadable : ¬ ∀ (search : String → String → Option Match) (source : Recipe.Source)
    (package : Package) (resolved : Json.Fields) (upstream debian : String),
    AcceptedRevision package.versionRevision →
      versionFromResolution search source package resolved = .ok (upstream, debian) →
        (matchDebianVersion debian.toList).isSome = true ∧ debianUpstreamVersion debian = .ok upstream := by
  intro h
  have hread := h (fun _ _ => none) tagSource (demoPackage "1") [("tag", .str "v1_2")] "1_2" "1_2-1"
    (.inr (by rfl)) (by rfl)
  exact absurd hread.1 (by decide)

end DebBuilder.Source
