import Mathlib
import DebBuilder.Lib.Keyed
import DebBuilder.Preparation.Stanzas

/-!
# The modeled status

`build_modeled_status` puts the packages that APT decided on into the status of the base
system, so that APT can solve the next phase.  A stanza is replaced by one of the same name
and the same architecture.

## Main definitions

* `Tools` — what the package tools print.
* `buildModeledStatus` — `build_modeled_status`.
* `Modeled`, `Unambiguous` — a status that has what was decided, and decisions for which it is
  built.

## Main statements

* `modeled_status_iff` — what was read can be rendered and read again, and the status has what
  was decided if and only if no other architecture of a decided package is there.
-/

namespace DebBuilder.Preparation
open Lib

/-- `DROP_FIELDS` -/
def dropFields : List String := ["Filename", "Size", "MD5sum", "SHA1", "SHA256", "SHA512", "Description-md5"]

/-- Control stanzas as the package tools print them: no field begins with a blank. -/
structure ControlText where
  text : String
  names : ∀ rows, parseStanzas text = .ok rows → ∀ row ∈ rows, ∀ key ∈ row, indented key.toList = false

/-- The subprocesses. -/
structure Tools where
  /-- `apt-cache show --no-all-versions package=version` -/
  aptCacheShow : String → String → Except Raised ControlText
  /-- `dpkg-deb --field` of the artifact. -/
  dpkgDebField : Except Raised ControlText

/-- `package_stanza` -/
def packageStanza (tools : Tools) (package version : String) : Except Raised Row := do
  let output ← tools.aptCacheShow package version
  let rows ← parseStanzas output.text
  let name := ((Text.cut [':'] package.toList).map fun parts => String.ofList parts.1).getD package
  match rows.filter fun row => row.lookup "Package" = some name ∧ row.lookup "Version" = some version with
  | [row] => .ok row
  | _ => .error (.value s!"APT metadata for {package}={version} is not unique")

/-- `artifact_stanza` -/
def artifactStanza (tools : Tools) : Except Raised Row := do
  let output ← tools.dpkgDebField
  match ← parseStanzas output.text with
  | [row] => .ok row
  | _ => .error (.value "artifact control metadata is not one stanza")

/-- The stanzas of the decided packages, and of the artifact. -/
def additionsOf (tools : Tools) (decisions : List (String × String)) : Except Raised (List Row) := do
  let packages ← decisions.mapM fun decision => packageStanza tools decision.1 decision.2
  let artifact ← artifactStanza tools
  return packages ++ [artifact]

def nameOf (row : Row) : String := (row.lookup "Package").getD ""
def architectureOf (row : Row) : String := (row.lookup "Architecture").getD ""
def versionOf (row : Row) : String := (row.lookup "Version").getD ""

/-- An addition without what describes its archive, as an installed package. -/
def stripped (addition : Row) : Row :=
  Dict.set (dropFields.foldl (fun row key => row.erase key) addition) "Status" "install ok installed"

/-- The fields of the addition behind its name and status. -/
def ordered (addition : Row) : Row :=
  (Dict.items (addition.erase "Status")).foldl (fun row field => Dict.set row field.1 field.2)
    (((∅ : Row).insert "Package" (nameOf addition)).insert "Status" ((addition.lookup "Status").getD ""))

/-- The stanza of this name and architecture. -/
def Same (row addition : Row) : Prop :=
  row.lookup "Package" = some (nameOf addition) ∧ row.lookup "Architecture" = some (architectureOf addition)

instance (row addition : Row) : Decidable (Same row addition) := inferInstanceAs (Decidable (_ ∧ _))

/-- One turn of the loop over the additions. -/
def placeAddition (rows : List Row) (addition : Row) : Except Raised (List Row) := do
  let addition := stripped addition
  refuse (nameOf addition = "" ∨ architectureOf addition = "" ∨ versionOf addition = "")
    (.value "modeled package metadata is incomplete")
  return rows.filter (fun row => ¬ Same row addition) ++ [ordered addition]

/-- `build_modeled_status` -/
def buildModeledStatus (tools : Tools) (base : String) (decisions : List (String × String)) : Except Raised String := do
  let rows ← parseStanzas base
  let additions ← additionsOf tools decisions
  let rows ← additions.foldlM placeAddition rows
  return renderStanzas rows

/-! ## The stanza of an addition -/

/-- The stanza that is put into the status. -/
def installed (addition : Row) : Row := ordered (stripped addition)

theorem lookup_foldl_erase (keys : List String) (row : Row) (key : String) :
    (keys.foldl (fun row key => row.erase key) row).lookup key = if key ∈ keys then none else row.lookup key := by
  induction keys generalizing row with
  | nil => rfl
  | cons first keys ih =>
      rw [List.foldl_cons, ih]
      by_cases hkey : key = first
      · subst hkey
        simp
      · rw [AList.lookup_erase_ne hkey]
        simp [hkey]

theorem lookup_stripped (addition : Row) (key : String) :
    (stripped addition).lookup key =
      if key = "Status" then some "install ok installed" else if key ∈ dropFields then none else addition.lookup key := by
  rw [stripped, Dict.lookup_set, lookup_foldl_erase]

/-- A dictionary that is updated by pairs with distinct keys. -/
theorem lookup_foldl_set (pairs : List (String × String)) (row : Row) (hdistinct : (pairs.map Prod.fst).Nodup)
    (key : String) :
    (∀ value, (key, value) ∈ pairs → (pairs.foldl (fun row e => Dict.set row e.1 e.2) row).lookup key = some value) ∧
      (key ∉ pairs.map Prod.fst → (pairs.foldl (fun row e => Dict.set row e.1 e.2) row).lookup key = row.lookup key) := by
  induction pairs generalizing row with
  | nil => exact ⟨fun _ hmem => absurd hmem List.not_mem_nil, fun _ => rfl⟩
  | cons pair pairs ih =>
      have hnodup := List.nodup_cons.1 hdistinct
      obtain ⟨hmem, hfresh⟩ := ih (Dict.set row pair.1 pair.2) hnodup.2
      constructor
      · intro value hvalue
        rcases List.mem_cons.1 hvalue with rfl | hrest
        · rw [List.foldl_cons, hfresh hnodup.1, Dict.lookup_set, if_pos rfl]
        · exact hmem value hrest
      · intro hnone
        rw [List.map_cons, List.mem_cons, not_or] at hnone
        rw [List.foldl_cons, hfresh hnone.2, Dict.lookup_set, if_neg hnone.1]

theorem lookup_ordered (addition : Row) {key : String} (hkey : key ≠ "Status") (hmem : key ∈ addition) :
    (ordered addition).lookup key = addition.lookup key := by
  have hnodup := Dict.nodup_items (addition.erase "Status")
  obtain ⟨value, hvalue⟩ := Dict.exists_mem_items (AList.mem_erase.2 ⟨hkey, hmem⟩ : key ∈ addition.erase "Status")
  have hlookup := Dict.mem_items.1 hvalue
  rw [AList.lookup_erase_ne hkey] at hlookup
  rw [ordered, (lookup_foldl_set _ _ hnodup key).1 value hvalue, hlookup]

theorem lookup_ordered_status (addition : Row) : (ordered addition).lookup "Status" = some ((addition.lookup "Status").getD "") := by
  have hnodup := Dict.nodup_items (addition.erase "Status")
  rw [ordered, (lookup_foldl_set _ _ hnodup "Status").2, AList.lookup_insert]
  intro hmem
  obtain ⟨⟨key, value⟩, hitem, rfl⟩ := List.mem_map.1 hmem
  exact (AList.mem_erase.1 (Dict.mem_of_mem_items hitem)).1 rfl

/-- A name, an architecture and a version are there. -/
structure Complete (addition : Row) : Prop where
  name : addition.lookup "Package" = some (nameOf addition)
  architecture : addition.lookup "Architecture" = some (architectureOf addition)
  version : addition.lookup "Version" = some (versionOf addition)

theorem lookup_eq_getD {row : Row} {key : String} (h : (row.lookup key).getD "" ≠ "") :
    row.lookup key = some ((row.lookup key).getD "") := by
  cases hlookup : row.lookup key with
  | none => simp [hlookup] at h
  | some value => rfl

section Installed
variable {addition : Row}

theorem lookup_stripped_of_kept {key : String} (hstatus : key ≠ "Status") (hdrop : key ∉ dropFields) :
    (stripped addition).lookup key = addition.lookup key := by
  rw [lookup_stripped, if_neg hstatus, if_neg hdrop]

@[simp] theorem nameOf_stripped : nameOf (stripped addition) = nameOf addition := by
  rw [nameOf, lookup_stripped_of_kept (by decide) (by decide), nameOf]

@[simp] theorem architectureOf_stripped : architectureOf (stripped addition) = architectureOf addition := by
  rw [architectureOf, lookup_stripped_of_kept (by decide) (by decide), architectureOf]

@[simp] theorem versionOf_stripped : versionOf (stripped addition) = versionOf addition := by
  rw [versionOf, lookup_stripped_of_kept (by decide) (by decide), versionOf]

theorem lookup_installed {key value : String} (hstatus : key ≠ "Status") (hdrop : key ∉ dropFields)
    (h : addition.lookup key = some value) : (installed addition).lookup key = some value := by
  have hstripped : (stripped addition).lookup key = some value := by rw [lookup_stripped_of_kept hstatus hdrop, h]
  have hmem : key ∈ stripped addition := AList.lookup_isSome.1 (by rw [hstripped]; rfl)
  rw [installed, lookup_ordered _ hstatus hmem, hstripped]

theorem lookup_installed_status : (installed addition).lookup "Status" = some "install ok installed" := by
  rw [installed, lookup_ordered_status, lookup_stripped, if_pos rfl]
  rfl

/-- The fields of the stanza: its status, and fields of the addition. -/
theorem mem_installed {field : String × String} (hname : addition.lookup "Package" = some (nameOf addition))
    (h : field ∈ Dict.items (installed addition)) :
    field = ("Status", "install ok installed") ∨ addition.lookup field.1 = some field.2 := by
  have hlookup := Dict.mem_items.1 h
  by_cases hstatus : field.1 = "Status"
  · rw [hstatus, lookup_installed_status] at hlookup
    exact .inl (Prod.ext hstatus (Option.some.inj hlookup).symm)
  by_cases hmem : field.1 ∈ stripped addition
  · rw [installed, lookup_ordered _ hstatus hmem, lookup_stripped, if_neg hstatus] at hlookup
    split at hlookup
    · exact nomatch hlookup
    · exact .inr hlookup
  · -- what is not in the addition is the name that was put first
    have hitems : field.1 ∉ (Dict.items ((stripped addition).erase "Status")).map Prod.fst := by
      intro hitem
      obtain ⟨other, hother, heq⟩ := List.mem_map.1 hitem
      exact hmem (heq ▸ (AList.mem_erase.1 (Dict.mem_of_mem_items hother)).2)
    have hnodup := Dict.nodup_items ((stripped addition).erase "Status")
    rw [installed, ordered, (lookup_foldl_set _ _ hnodup field.1).2 hitems, AList.lookup_insert_ne hstatus] at hlookup
    by_cases hpackage : field.1 = "Package"
    · refine absurd ?_ hmem
      rw [hpackage, ← AList.lookup_isSome, lookup_stripped_of_kept (by decide) (by decide), hname]
      rfl
    · rw [AList.lookup_insert_ne hpackage] at hlookup
      exact nomatch hlookup

end Installed

theorem isChain_follows (last : String) {names : List String} (h : ∀ name ∈ names, indented name.toList = false) :
    List.IsChain Follows (last :: names) := by
  induction names generalizing last with
  | nil => exact List.isChain_singleton _
  | cons name names ih =>
      have hname : indented name.toList = false := h name (List.mem_cons_self ..)
      rw [List.isChain_cons_cons]
      refine ⟨fun hindent => ?_, ih name fun name hmem => h name (List.mem_cons_of_mem _ hmem)⟩
      rw [hname] at hindent
      exact nomatch hindent

/-- Stanzas whose fields do not begin with a blank can be rendered in any order. -/
theorem renderable_of_names {row : Row} (hne : Dict.items row ≠ [])
    (hfields : ∀ field ∈ Dict.items row, RenderableField field.1 field.2)
    (hnames : ∀ field ∈ Dict.items row, indented field.1.toList = false) : Renderable row := by
  refine ⟨hne, hfields, isChain_follows "" ?_⟩
  intro name hmem
  obtain ⟨field, hfield, rfl⟩ := List.mem_map.1 hmem
  exact hnames field hfield

/-- The stanza of an addition can be read. -/
theorem renderable_installed {addition : Row} (h : Renderable addition) (hcomplete : Complete addition)
    (hnames : ∀ key ∈ addition, indented key.toList = false) : Renderable (installed addition) := by
  apply renderable_of_names
  · intro hnil
    obtain ⟨value, hvalue⟩ : ∃ value, ("Status", value) ∈ Dict.items (installed addition) :=
      ⟨_, Dict.mem_items.2 lookup_installed_status⟩
    rw [hnil] at hvalue
    exact absurd hvalue List.not_mem_nil
  · intro field hmem
    rcases mem_installed hcomplete.name hmem with rfl | hlookup
    · refine ⟨List.forall_iff_forall_mem.1 (by decide +kernel), "install ok installed".toList, [], ?_, by decide +kernel,
        ?_, ?_, fun _ => rfl⟩
      · decide +kernel
      · intro line hline
        rw [List.mem_singleton.1 hline]
        exact List.forall_iff_forall_mem.1 (by decide +kernel)
      · exact fun _ hline => absurd hline List.not_mem_nil
    · exact h.fields field (Dict.mem_items.2 hlookup)
  · intro field hmem
    rcases mem_installed hcomplete.name hmem with rfl | hlookup
    · decide
    · exact hnames field.1 (AList.lookup_isSome.1 (by rw [hlookup]; rfl))

/-! ## The loop over the additions -/

/-- What a stanza is replaced by. -/
def identity (row : Row) : Option String × Option String := (row.lookup "Package", row.lookup "Architecture")

theorem identity_installed {addition : Row} (h : Complete addition) :
    identity (installed addition) = (some (nameOf addition), some (architectureOf addition)) := by
  rw [identity, lookup_installed (by decide) (by decide) h.name, lookup_installed (by decide) (by decide) h.architecture]

theorem same_iff {row addition : Row} (h : Complete addition) :
    Same row (stripped addition) ↔ identity row = identity (installed addition) := by
  rw [identity_installed h, Same, nameOf_stripped, architectureOf_stripped, identity, Prod.mk.injEq]

/-- One turn puts the stanza of the addition into the status. -/
theorem placeAddition_spec {rows rows' : List Row} {addition : Row} (h : placeAddition rows addition = .ok rows') :
    Complete addition ∧ rows' = Keyed.put identity rows (installed addition) := by
  simp only [placeAddition, bind_eq_ok, pure_eq_ok, refuse_eq_ok, nameOf_stripped, architectureOf_stripped,
    versionOf_stripped, not_or] at h
  obtain ⟨_, ⟨hname, harchitecture, hversion⟩, rfl⟩ := h
  have hcomplete : Complete addition := ⟨lookup_eq_getD hname, lookup_eq_getD harchitecture, lookup_eq_getD hversion⟩
  refine ⟨hcomplete, ?_⟩
  simp only [same_iff hcomplete]
  rfl

/-- The loop puts the stanzas of all additions into the status. -/
theorem foldlM_placeAddition {additions before rows : List Row} (h : additions.foldlM placeAddition before = .ok rows) :
    (∀ addition ∈ additions, Complete addition) ∧
      rows = (additions.map installed).foldl (Keyed.put identity) before := by
  induction additions generalizing before with
  | nil =>
      rw [List.foldlM_nil, pure_eq_ok] at h
      exact ⟨fun _ hmem => absurd hmem List.not_mem_nil, h.symm⟩
  | cons addition additions ih =>
      rw [List.foldlM_cons, bind_eq_ok] at h
      obtain ⟨placed, hplace, hrest⟩ := h
      obtain ⟨hcomplete, rfl⟩ := placeAddition_spec hplace
      obtain ⟨hcompletes, hrows⟩ := ih hrest
      refine ⟨?_, hrows⟩
      intro other hmem
      rcases List.mem_cons.1 hmem with rfl | hmem
      · exact hcomplete
      · exact hcompletes other hmem

/-! ## When the status has what was decided -/

/-- A native or architecture-independent build. -/
def Built (native : String) (addition : Row) : Prop := architectureOf addition = native ∨ architectureOf addition = "all"

section
variable (native : String) (counted : Option String → Prop) [DecidablePred counted]

/-- An instance of a package, of an architecture that counts. -/
def Instance (name : String) (row : Row) : Prop := row.lookup "Package" = some name ∧ counted (row.lookup "Architecture")

instance (name : String) : DecidablePred (Instance counted name) := fun row =>
  inferInstanceAs (Decidable (row.lookup "Package" = some name ∧ counted (row.lookup "Architecture")))

/-- No package of the decisions. -/
def Other (additions : List Row) (row : Row) : Prop := ∀ addition ∈ additions, row.lookup "Package" ≠ some (nameOf addition)

instance (additions : List Row) : DecidablePred (Other additions) := fun row =>
  inferInstanceAs (Decidable (∀ addition ∈ additions, row.lookup "Package" ≠ some (nameOf addition)))

/-- Each decided package is there once, installed as it was decided; the other packages are as
they were. -/
structure Modeled (before additions rows : List Row) : Prop where
  decided : ∀ addition ∈ additions, Built native addition → ∃ stanza,
    rows.filter (Instance counted (nameOf addition)) = [stanza] ∧
      stanza.lookup "Status" = some "install ok installed" ∧ stanza.lookup "Version" = some (versionOf addition) ∧
        stanza.lookup "Architecture" = some (architectureOf addition)
  others : rows.filter (Other additions) = before.filter (Other additions)

/-- A decided package has one architecture and one version, and no other architecture in the
base system. -/
structure Unambiguous (before additions : List Row) : Prop where
  decided : ∀ addition ∈ additions, Built native addition → ∀ other ∈ additions, nameOf other = nameOf addition →
    counted (some (architectureOf other)) →
      architectureOf other = architectureOf addition ∧ versionOf other = versionOf addition
  present : ∀ addition ∈ additions, Built native addition → ∀ row ∈ before, Instance counted (nameOf addition) row →
    row.lookup "Architecture" = some (architectureOf addition)

variable {native counted} {before additions : List Row} (hcomplete : ∀ addition ∈ additions, Complete addition)

/-- The status after the loop. -/
theorem foldl_put_installed : (additions.map installed).foldl (Keyed.put identity) before =
    before.filter (fun row => ∀ addition ∈ additions, identity row ≠ identity (installed addition)) ++
      Keyed.latest identity (additions.map installed) := by
  rw [Keyed.foldl_put]
  congr 1
  apply List.filter_congr
  intro row _
  simp

include hcomplete in
theorem others_foldl_put : ((additions.map installed).foldl (Keyed.put identity) before).filter (Other additions) =
    before.filter (Other additions) := by
  have hlatest : (Keyed.latest identity (additions.map installed)).filter (Other additions) = [] := by
    rw [List.filter_eq_nil_iff]
    intro row hrow hother
    obtain ⟨addition, hmem, rfl⟩ := List.mem_map.1 (Keyed.mem_of_mem_latest hrow)
    refine of_decide_eq_true hother addition hmem ?_
    exact lookup_installed (by decide) (by decide) (hcomplete addition hmem).name
  rw [foldl_put_installed, List.filter_append, hlatest, List.append_nil, List.filter_filter]
  apply List.filter_congr
  intro row _
  by_cases hother : Other additions row
  · have hkept : ∀ addition ∈ additions, identity row ≠ identity (installed addition) := by
      intro addition hmem heq
      rw [identity_installed (hcomplete addition hmem)] at heq
      exact hother addition hmem (congrArg Prod.fst heq)
    simpa [hother] using hkept
  · simp [hother]

include hcomplete in
/-- The stanza of the last addition with a name and architecture is in the status. -/
theorem exists_latest {addition : Row} (hmem : addition ∈ additions) :
    ∃ last ∈ additions, nameOf last = nameOf addition ∧ architectureOf last = architectureOf addition ∧
      (Keyed.latest identity (additions.map installed)).filter
        (fun row => identity row = identity (installed addition)) = [installed last] := by
  have hinstalled : installed addition ∈ additions.map installed := List.mem_map_of_mem hmem
  obtain ⟨_, hrow, hidentity, hfilter⟩ : ∃ row ∈ additions.map installed, identity row = identity (installed addition) ∧ _ :=
    Keyed.filter_latest hinstalled
  obtain ⟨last, hlast, rfl⟩ := List.mem_map.1 hrow
  have hsame := hidentity
  rw [identity_installed (hcomplete last hlast), identity_installed (hcomplete addition hmem), Prod.mk.injEq,
    Option.some.injEq, Option.some.injEq] at hsame
  exact ⟨last, hlast, hsame.1, hsame.2, hfilter⟩

omit [DecidablePred counted] in
theorem counted_of_built {addition : Row} (hall : counted (some "all")) (hnative : counted (some native))
    (hbuilt : Built native addition) : counted (some (architectureOf addition)) := by
  rcases hbuilt with heq | heq
  · rw [heq]
    exact hnative
  · rw [heq]
    exact hall

omit [DecidablePred counted] in
/-- The instances of a package among the stanzas of the additions. -/
theorem instance_installed {addition : Row} (hcomplete : Complete addition) (name : String) :
    Instance counted name (installed addition) ↔ nameOf addition = name ∧ counted (some (architectureOf addition)) := by
  rw [Instance, lookup_installed (by decide) (by decide) hcomplete.name,
    lookup_installed (by decide) (by decide) hcomplete.architecture, Option.some.injEq]

include hcomplete in
theorem modeled_of_unambiguous (hall : counted (some "all")) (hnative : counted (some native))
    (h : Unambiguous native counted before additions) :
    Modeled native counted before additions ((additions.map installed).foldl (Keyed.put identity) before) where
  decided := by
    intro addition hmem hbuilt
    have hcounted := counted_of_built hall hnative hbuilt
    obtain ⟨last, hlast, hname, harchitecture, hfilter⟩ := exists_latest hcomplete hmem
    have hbefore : (before.filter fun row => ∀ addition ∈ additions, identity row ≠ identity (installed addition)).filter
        (Instance counted (nameOf addition)) = [] := by
      rw [List.filter_eq_nil_iff]
      intro row hrow hinstance
      obtain ⟨hrow, hkept⟩ := List.mem_filter.1 hrow
      have hinstance := of_decide_eq_true hinstance
      have harch := h.present addition hmem hbuilt row hrow hinstance
      refine of_decide_eq_true hkept addition hmem ?_
      rw [identity_installed (hcomplete addition hmem), identity, hinstance.1, harch]
    have hlatest : (Keyed.latest identity (additions.map installed)).filter (Instance counted (nameOf addition)) =
        (Keyed.latest identity (additions.map installed)).filter
          (fun row => identity row = identity (installed addition)) := by
      apply List.filter_congr
      intro row hrow
      obtain ⟨other, hother, rfl⟩ := List.mem_map.1 (Keyed.mem_of_mem_latest hrow)
      have hidentity : identity (installed other) = identity (installed addition) ↔
          nameOf other = nameOf addition ∧ architectureOf other = architectureOf addition := by
        rw [identity_installed (hcomplete other hother), identity_installed (hcomplete addition hmem), Prod.mk.injEq,
          Option.some.injEq, Option.some.injEq]
      rw [decide_eq_decide, instance_installed (hcomplete other hother), hidentity]
      constructor
      · intro hother'
        exact ⟨hother'.1, (h.decided addition hmem hbuilt other hother hother'.1 hother'.2).1⟩
      · intro hsame
        rw [hsame.2]
        exact ⟨hsame.1, hcounted⟩
    refine ⟨installed last, ?_, lookup_installed_status, ?_, ?_⟩
    · rw [foldl_put_installed, List.filter_append, hbefore, hlatest, hfilter, List.nil_append]
    · have hversion := (h.decided addition hmem hbuilt last hlast hname (harchitecture ▸ hcounted)).2
      rw [lookup_installed (by decide) (by decide) (hcomplete last hlast).version, hversion]
    · rw [lookup_installed (by decide) (by decide) (hcomplete last hlast).architecture, harchitecture]
  others := others_foldl_put hcomplete

include hcomplete in
theorem unambiguous_of_modeled
    (h : Modeled native counted before additions ((additions.map installed).foldl (Keyed.put identity) before)) :
    Unambiguous native counted before additions := by
  have hdecided : ∀ addition ∈ additions, Built native addition → ∀ other ∈ additions, nameOf other = nameOf addition →
      counted (some (architectureOf other)) →
        architectureOf other = architectureOf addition ∧ versionOf other = versionOf addition := by
    intro addition hmem hbuilt other hother hname hcounted
    obtain ⟨stanza, hrows, _, hversion, harchitecture⟩ := h.decided addition hmem hbuilt
    -- the stanza of the other one is the one that is there
    obtain ⟨last, hlast, hlastname, hlastarch, hfilter⟩ := exists_latest hcomplete hother
    have hthere : installed last ∈ ((additions.map installed).foldl (Keyed.put identity) before).filter
        (Instance counted (nameOf addition)) := by
      have hmember : installed last ∈ [installed last] := List.mem_singleton_self _
      rw [← hfilter] at hmember
      rw [foldl_put_installed]
      refine List.mem_filter.2 ⟨List.mem_append_right _ (List.mem_of_mem_filter hmember), decide_eq_true ?_⟩
      rw [instance_installed (hcomplete last hlast), hlastname, hlastarch]
      exact ⟨hname, hcounted⟩
    rw [hrows, List.mem_singleton] at hthere
    have harch : architectureOf other = architectureOf addition := by
      rw [← hthere, lookup_installed (by decide) (by decide) (hcomplete last hlast).architecture, hlastarch] at harchitecture
      exact Option.some.inj harchitecture
    have hbuilt' : Built native other := by
      rw [Built, harch]
      exact hbuilt
    obtain ⟨stanza', hrows', _, hversion', _⟩ := h.decided other hother hbuilt'
    rw [hname, hrows, List.cons.injEq] at hrows'
    rw [← hrows'.1, hversion] at hversion'
    exact ⟨harch, (Option.some.inj hversion').symm⟩
  refine ⟨hdecided, ?_⟩
  intro addition hmem hbuilt row hrow hinstance
  by_cases hreplaced : ∃ other ∈ additions, identity row = identity (installed other)
  · obtain ⟨other, hother, heq⟩ := hreplaced
    rw [identity_installed (hcomplete other hother), identity, Prod.mk.injEq, hinstance.1, Option.some.injEq] at heq
    have hcounted : counted (some (architectureOf other)) := heq.2 ▸ hinstance.2
    rw [heq.2, (hdecided addition hmem hbuilt other hother heq.1.symm hcounted).1]
  · obtain ⟨stanza, hrows, _, _, harchitecture⟩ := h.decided addition hmem hbuilt
    have hthere : row ∈ ((additions.map installed).foldl (Keyed.put identity) before).filter
        (Instance counted (nameOf addition)) := by
      rw [foldl_put_installed]
      refine List.mem_filter.2 ⟨List.mem_append_left _ (List.mem_filter.2 ⟨hrow, decide_eq_true ?_⟩), decide_eq_true hinstance⟩
      exact fun other hother heq => hreplaced ⟨other, hother, heq⟩
    rw [hrows, List.mem_singleton] at hthere
    rw [hthere, harchitecture]

end

/-! ## The text of the status -/

/-- An addition comes from a text that a package tool printed. -/
theorem exists_controlText {tools : Tools} {decisions : List (String × String)} {additions : List Row}
    (h : additionsOf tools decisions = .ok additions) :
    ∀ addition ∈ additions, ∃ (output : ControlText) (rows : List Row), parseStanzas output.text = .ok rows ∧ addition ∈ rows := by
  simp only [additionsOf, bind_eq_ok, pure_eq_ok] at h
  obtain ⟨packages, hpackages, artifact, hartifact, rfl⟩ := h
  intro addition hmem
  rcases List.mem_append.1 hmem with hpackage | hlast
  · obtain ⟨⟨package, version⟩, _, hdecision⟩ := (mem_of_mapM_eq_ok hpackages).1 hpackage
    simp only [packageStanza, bind_eq_ok] at hdecision
    obtain ⟨output, _, rows, hrows, hmatch⟩ := hdecision
    split at hmatch
    · next row hfilter =>
      cases hmatch
      have hrow : addition ∈ [addition] := List.mem_singleton_self _
      rw [← hfilter] at hrow
      exact ⟨output, rows, hrows, List.mem_of_mem_filter hrow⟩
    · exact nomatch hmatch
  · rw [List.mem_singleton.1 hlast]
    simp only [artifactStanza, bind_eq_ok] at hartifact
    obtain ⟨output, _, rows, hrows, hmatch⟩ := hartifact
    split at hmatch
    · cases hmatch
      exact ⟨output, _, hrows, List.mem_singleton_self _⟩
    · exact nomatch hmatch

/-- The text of the status is read as what the loop left. -/
theorem parse_modeled_status {tools : Tools} {base : String} {decisions : List (String × String)}
    {before additions : List Row} {text : String} (hbase : parseStanzas base = .ok before)
    (hadditions : additionsOf tools decisions = .ok additions) (h : buildModeledStatus tools base decisions = .ok text) :
    (∀ addition ∈ additions, Complete addition) ∧
      parseStanzas text = .ok ((additions.map installed).foldl (Keyed.put identity) before) := by
  simp only [buildModeledStatus, bind_eq_ok, pure_eq_ok, hbase, hadditions, Except.ok.injEq] at h
  obtain ⟨_, rfl, _, rfl, rows, hrows, rfl⟩ := h
  obtain ⟨hcomplete, rfl⟩ := foldlM_placeAddition hrows
  refine ⟨hcomplete, parse_render ?_⟩
  intro row hrow
  rw [foldl_put_installed] at hrow
  rcases List.mem_append.1 hrow with hold | hnew
  · exact renderable_of_parseStanzas hbase row (List.mem_of_mem_filter hold)
  · obtain ⟨addition, hmem, rfl⟩ := List.mem_map.1 (Keyed.mem_of_mem_latest hnew)
    obtain ⟨output, printed, hprinted, hin⟩ := exists_controlText hadditions addition hmem
    exact renderable_installed (renderable_of_parseStanzas hprinted addition hin) (hcomplete addition hmem)
      (output.names printed hprinted addition hin)

/-- What was read can be rendered and read again; and the status has each decided package once
if and only if no two architectures or versions of it meet. -/
theorem modeled_status_iff (native : String) (counted : Option String → Prop) [DecidablePred counted]
    (hall : counted (some "all")) (hnative : counted (some native)) :
    (∀ text rows, parseStanzas text = .ok rows → parseStanzas (renderStanzas rows) = .ok rows) ∧
      ∀ tools base decisions before additions text, parseStanzas base = .ok before →
        additionsOf tools decisions = .ok additions → buildModeledStatus tools base decisions = .ok text →
          ∃ rows, parseStanzas text = .ok rows ∧
            (Modeled native counted before additions rows ↔ Unambiguous native counted before additions) := by
  constructor
  · intro text rows h
    exact parse_render_of_parse h
  · intro tools base decisions before additions text hbase hadditions h
    obtain ⟨hcomplete, hrows⟩ := parse_modeled_status hbase hadditions h
    exact ⟨_, hrows, unambiguous_of_modeled hcomplete, modeled_of_unambiguous hcomplete hall hnative⟩

/-! ## A package that changes its architecture -/

/-- A printed text, checked. -/
def ControlText.ofText (text : String)
    (h : (parseStanzas text).toOption.all fun rows => ∀ row ∈ rows, ∀ key ∈ row.keys, indented key.toList = false) :
    ControlText where
  text := text
  names := by
    intro rows hrows row hrow key hkey
    rw [hrows] at h
    exact of_decide_eq_true h row hrow key hkey

/-- The package of the base system is architecture-independent. -/
def independentBase : String := "Package: foo\nStatus: install ok installed\nArchitecture: all\nVersion: 1\n"

/-- The version that APT decided on is native. -/
def nativeTools : Tools where
  aptCacheShow _ _ := .ok (ControlText.ofText "Package: foo\nArchitecture: amd64\nVersion: 2\n" (by decide +kernel))
  dpkgDebField := .ok (ControlText.ofText "Package: bar\nArchitecture: amd64\nVersion: 1\n" (by decide +kernel))

def nativeStatus : String :=
  "Package: foo\nStatus: install ok installed\nArchitecture: all\nVersion: 1\n\n" ++
    "Package: foo\nStatus: install ok installed\nArchitecture: amd64\nVersion: 2\n\n" ++
    "Package: bar\nStatus: install ok installed\nArchitecture: amd64\nVersion: 1\n"

def stanzaOf (fields : List (String × String)) : Row := fields.foldl (fun row field => row.insert field.1 field.2) ∅

def independentFoo : Row :=
  stanzaOf [("Package", "foo"), ("Status", "install ok installed"), ("Architecture", "all"), ("Version", "1")]
def nativeFoo : Row := stanzaOf [("Package", "foo"), ("Architecture", "amd64"), ("Version", "2")]
def nativeBar : Row := stanzaOf [("Package", "bar"), ("Architecture", "amd64"), ("Version", "1")]

theorem parse_independentBase : parseStanzas independentBase = .ok [independentFoo] := by rfl
theorem additionsOf_nativeTools : additionsOf nativeTools [("foo", "2")] = .ok [nativeFoo, nativeBar] := by rfl
theorem build_nativeStatus : buildModeledStatus nativeTools independentBase [("foo", "2")] = .ok nativeStatus := by
  decide +kernel

theorem modeled_status_native :
    ∃ rows, parseStanzas nativeStatus = .ok rows ∧
      (Modeled "amd64" (fun architecture => architecture ∈ [some "all", some "amd64"]) [independentFoo]
          [nativeFoo, nativeBar] rows ↔
        Unambiguous "amd64" (fun architecture => architecture ∈ [some "all", some "amd64"]) [independentFoo]
          [nativeFoo, nativeBar]) :=
  (modeled_status_iff "amd64" (fun architecture => architecture ∈ [some "all", some "amd64"]) (by decide) (by decide)).2
    nativeTools independentBase [("foo", "2")] _ _ _ parse_independentBase additionsOf_nativeTools build_nativeStatus

/-- Both architectures remain installed. -/
theorem installed_twice :
    ¬ ∀ native tools base decisions before additions text rows, parseStanzas base = .ok before →
      additionsOf tools decisions = .ok additions → buildModeledStatus tools base decisions = .ok text →
        parseStanzas text = .ok rows →
          Modeled native (fun architecture => architecture ∈ [some "all", some native]) before additions rows := by
  intro h
  have hrows : parseStanzas nativeStatus = .ok ([nativeFoo, nativeBar].map installed |>.foldl (Keyed.put identity)
      [independentFoo]) := (parse_modeled_status parse_independentBase additionsOf_nativeTools build_nativeStatus).2
  have hmodeled := h "amd64" nativeTools independentBase [("foo", "2")] _ _ _ _ parse_independentBase
    additionsOf_nativeTools build_nativeStatus hrows
  obtain ⟨stanza, hfilter, _⟩ := hmodeled.decided nativeFoo (List.mem_cons_self ..) (.inl (by decide +kernel))
  have htwo : (([nativeFoo, nativeBar].map installed |>.foldl (Keyed.put identity) [independentFoo]).filter
      (Instance (fun architecture => architecture ∈ [some "all", some "amd64"]) (nameOf nativeFoo))).length = 2 := by
    decide +kernel
  rw [hfilter] at htwo
  exact nomatch htwo

end DebBuilder.Preparation
