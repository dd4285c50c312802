import Mathlib
import DebBuilder.Lib.Bounds
import DebBuilder.Lib.Dict
import DebBuilder.Lib.Fallible
import DebBuilder.Lib.Text

/-!
# The relations proposed for a package

The commands of the prepared environment, the relations that its resolver proposes, and
how the relations found for several files become the dependencies of one package.

## Main definitions

* `Environment` — the prepared environment, by its answers.
* `dependency` — the reading of a relation.
* `mergeDepends` — the dependencies of all files.

## Main statements

* `mergeDepends_conjunction` — the merged dependencies are the conjunction of the relations.
-/

namespace DebBuilder.Elf
open Lib

/-! ## Errors and commands -/

/-- How one requirement of a file was explained. -/
structure Requirement where
  requester : String
  soname : String
  selectedLibrary : String
  status : String
  package : String := ""
  versionConstraint : String := ""
  metadataSource : String := ""
  operatorDecision : String := ""
  deriving DecidableEq, Repr

inductive Failure
  /-- `ResolutionError(code, message, requirements=…)` -/
  | resolution (code message : String) (requirements : List Requirement)
  /-- An assertion of the resolver. -/
  | assertion
  /-- Another exception, by its name. -/
  | other (name : String)
  deriving DecidableEq, Repr

/-- `ResolutionError(code, message)` -/
def resolutionError (code message : String) : Failure := .resolution code message []

/-- What `environment.execute` returns. -/
structure Answer where
  stdout : String
  stderr : String
  timedOut : Bool
  exitCode : Option Int
  deriving DecidableEq, Repr

/-- A prepared environment: its answer to each command, the installed paths of the files whose
filtered copy is resolved, and what an owned container has mounted as the staging tree. -/
structure Environment where
  execute : List String → Answer
  filteredInstalled : List String
  mountedRoot : Option (List String)

/-! ## Relations -/

def isLowerAlnum (c : Char) : Bool := ('a' ≤ c && c ≤ 'z') || ('0' ≤ c && c ≤ '9')

def isPackageChar (c : Char) : Bool := isLowerAlnum c || c == '+' || c == '.' || c == '-'

def isVersionChar (c : Char) : Bool :=
  isLowerAlnum c || ('A' ≤ c && c ≤ 'Z') || c == '.' || c == '+' || c == ':' || c == '~' || c == '-'

/-- `(?: \(>= ([A-Za-z0-9.+:~\-]+)\))?` up to the end of the text. -/
def versionBound (cs : List Char) : Option (Option String) :=
  if cs = [] then some none
  else if " (>= ".toList <+: cs then
    let version := (cs.drop 5).takeWhile isVersionChar
    if version ≠ [] ∧ (cs.drop 5).dropWhile isVersionChar = [')'] then some (some (String.ofList version)) else none
  else none

/-- `DEPENDENCY.fullmatch(text).groups()`: the package, and the version from which on. -/
def dependency (text : String) : Option (String × Option String) :=
  let name := text.toList.takeWhile isPackageChar
  if name.head?.any isLowerAlnum then
    (versionBound (text.toList.dropWhile isPackageChar)).map fun bound => (String.ofList name, bound)
  else none

/-- `sorted(values)`, of a set that is written as the list of its elements. -/
def sorted (values : List String) : List String := values.dedup.insertionSort (· ≤ ·)

/-- `dpkg --compare-versions version gt old` -/
def isNewer (environment : Environment) (version old : String) : Except Failure Bool := do
  let compared := environment.execute ["dpkg", "--compare-versions", version, "gt", old]
  refuse (compared.timedOut ∨ compared.exitCode ∉ [some 0, some 1] ∨ compared.stdout ≠ "" ∨ compared.stderr ≠ "")
    (resolutionError "resolver_command_failed" "Debian version comparison failed")
  pure (compared.exitCode = some 0)

/-- One pass of the loop of `_merge_depends`. -/
def mergeRelation (environment : Environment) (selected : Dict String String) (relation : String) :
    Except Failure (Dict String String) := do
  let (package, version) ← demand .assertion (dependency relation)
  match selected.lookup package with
  | none => pure (selected.set package relation)
  | some previous =>
      let (_, oldVersion) ← demand .assertion (dependency previous)
      match oldVersion, version with
      | none, _ => pure (selected.set package relation)
      | some _, none => pure selected
      | some oldVersion, some version =>
          let newer ← isNewer environment version oldVersion
          pure (if newer then selected.set package relation else selected)

/-- `_merge_depends(environment, relations)` -/
def mergeDepends (environment : Environment) (relations : List String) : Except Failure (List String) := do
  let selected ← (sorted relations).foldlM (mergeRelation environment) ∅
  pure ((sorted (selected.items.map Prod.fst)).filterMap selected.lookup)

example : dependency "libc6 (>= 2.36)" = some ("libc6", some "2.36") := by decide +kernel

/-! ## What a relation asks for -/

variable {order : TotalPreorder String} {environment : Environment} {relations done : List String}
  {selected selected' : Dict String String} {relation package : String} {bound : Option String}

/-- One of the installed versions of the package is not below the bound. -/
def Satisfies (order : TotalPreorder String) (installed : Set (String × String)) (relation : String) : Prop :=
  ∃ package bound version, dependency relation = some (package, bound) ∧ (package, version) ∈ installed ∧
    order.Meets bound version

/-- The comparison of versions, whenever it answers, is the strict part of the order. -/
def Compares (environment : Environment) (order : TotalPreorder String) : Prop :=
  ∀ version old newer, isNewer environment version old = .ok newer → (newer = true ↔ ¬ order.le version old)

/-- The comparison answers for the versions that the relations name. -/
def Answers (environment : Environment) (relations : List String) : Prop :=
  ∀ r ∈ relations, ∀ r' ∈ relations, ∀ package package' version old, dependency r = some (package, some version) →
    dependency r' = some (package', some old) → ∃ newer, isNewer environment version old = .ok newer

theorem Satisfies.of_weaker {installed : Set (String × String)} {stricter : String} {strict : Option String}
    (h : Satisfies order installed stricter) (hstricter : dependency stricter = some (package, strict))
    (hrelation : dependency relation = some (package, bound)) (hweaker : order.Weaker bound strict) :
    Satisfies order installed relation := by
  obtain ⟨package', strict', version, hread, hinstalled, hmeets⟩ := h
  rw [hstricter, Option.some.injEq, Prod.mk.injEq] at hread
  obtain ⟨rfl, rfl⟩ := hread
  exact ⟨package, bound, version, hrelation, hinstalled, hweaker version hmeets⟩

/-! ## Sets in order -/

@[simp] theorem mem_sorted {value : String} {values : List String} : value ∈ sorted values ↔ value ∈ values := by
  rw [sorted, List.mem_insertionSort, List.mem_dedup]

theorem pairwise_sorted (values : List String) : (sorted values).Pairwise (· < ·) := by
  have hle : (sorted values).Pairwise (· ≤ ·) := List.pairwise_insertionSort _ _
  have hne : (sorted values).Pairwise (· ≠ ·) := (List.perm_insertionSort _ _).nodup_iff.2 (List.nodup_dedup values)
  exact (hle.and hne).imp fun h => lt_of_le_of_ne h.1 h.2

/-- The order of discovery is lost. -/
theorem sorted_congr {values values' : List String} (h : ∀ value, value ∈ values ↔ value ∈ values') :
    sorted values = sorted values' := by
  have hperm : (sorted values).Perm (sorted values') := by
    rw [List.perm_ext_iff_of_nodup ((pairwise_sorted _).imp ne_of_lt) ((pairwise_sorted _).imp ne_of_lt)]
    intro value
    rw [mem_sorted, mem_sorted, h]
  exact hperm.eq_of_pairwise (fun a b _ _ hab hba => absurd hab (lt_asymm hba)) (pairwise_sorted _) (pairwise_sorted _)

/-! ## One relation more -/

/-- What has been selected of the relations already seen. -/
structure Merged (order : TotalPreorder String) (done : List String) (selected : Dict String String) : Prop where
  /-- The selected relation is a strictest one of its package. -/
  strictest : ∀ {package chosen}, selected.lookup package = some chosen → chosen ∈ done ∧
    ∃ strict, dependency chosen = some (package, strict) ∧
      ∀ r ∈ done, ∀ bound, dependency r = some (package, bound) → order.Weaker bound strict
  /-- Every package seen has one. -/
  covers : ∀ r ∈ done, ∀ package bound, dependency r = some (package, bound) →
    ∃ chosen, selected.lookup package = some chosen

theorem Merged.nil : Merged order [] ∅ where
  strictest := by
    intro package chosen h
    simp at h
  covers := fun r h => absurd h List.not_mem_nil

/-- The new relation is taken: it is at least as strict as the one selected before. -/
theorem Merged.take (h : Merged order done selected) (hread : dependency relation = some (package, bound))
    (hstrict : ∀ previous old, selected.lookup package = some previous → dependency previous = some (package, old) →
      order.Weaker old bound) : Merged order (done ++ [relation]) (selected.set package relation) where
  strictest := by
    intro package' chosen hlookup
    rw [Dict.lookup_set] at hlookup
    split at hlookup
    · next heq =>
      cases hlookup
      subst heq
      refine ⟨by simp, bound, hread, ?_⟩
      intro r hr bound' hr'
      rcases List.mem_append.1 hr with hr | hr
      · obtain ⟨previous, hprevious⟩ := h.covers r hr package' bound' hr'
        obtain ⟨-, old, hold, hweaker⟩ := h.strictest hprevious
        exact (hweaker r hr bound' hr').trans (hstrict previous old hprevious hold)
      · rw [List.mem_singleton.1 hr, hread, Option.some.injEq, Prod.mk.injEq] at hr'
        exact hr'.2 ▸ TotalPreorder.Weaker.refl order bound
    · next hne =>
      obtain ⟨hmem, strict, hchosen, hweaker⟩ := h.strictest hlookup
      refine ⟨List.mem_append_left _ hmem, strict, hchosen, ?_⟩
      intro r hr bound' hr'
      rcases List.mem_append.1 hr with hr | hr
      · exact hweaker r hr bound' hr'
      · rw [List.mem_singleton.1 hr, hread, Option.some.injEq, Prod.mk.injEq] at hr'
        exact absurd hr'.1.symm hne
  covers := by
    intro r hr package' bound' hr'
    rw [Dict.lookup_set]
    by_cases heq : package' = package
    · exact ⟨relation, if_pos heq⟩
    · rw [if_neg heq]
      rcases List.mem_append.1 hr with hr | hr
      · exact h.covers r hr package' bound' hr'
      · rw [List.mem_singleton.1 hr, hread, Option.some.injEq, Prod.mk.injEq] at hr'
        exact absurd hr'.1.symm heq

/-- The selected relation stays: it is at least as strict as the new one. -/
theorem Merged.keep (h : Merged order done selected) {previous : String} {old : Option String}
    (hread : dependency relation = some (package, bound)) (hprevious : selected.lookup package = some previous)
    (hold : dependency previous = some (package, old)) (hstrict : order.Weaker bound old) :
    Merged order (done ++ [relation]) selected where
  strictest := by
    intro package' chosen hlookup
    obtain ⟨hmem, strict, hchosen, hweaker⟩ := h.strictest hlookup
    refine ⟨List.mem_append_left _ hmem, strict, hchosen, ?_⟩
    intro r hr bound' hr'
    rcases List.mem_append.1 hr with hr | hr
    · exact hweaker r hr bound' hr'
    · rw [List.mem_singleton.1 hr, hread, Option.some.injEq, Prod.mk.injEq] at hr'
      obtain ⟨rfl, rfl⟩ := hr'
      rw [hprevious, Option.some.injEq] at hlookup
      rw [← hlookup, hold, Option.some.injEq, Prod.mk.injEq] at hchosen
      exact hchosen.2 ▸ hstrict
  covers := by
    intro r hr package' bound' hr'
    rcases List.mem_append.1 hr with hr | hr
    · exact h.covers r hr package' bound' hr'
    · rw [List.mem_singleton.1 hr, hread, Option.some.injEq, Prod.mk.injEq] at hr'
      exact ⟨previous, hr'.1 ▸ hprevious⟩

theorem Merged.step (hcompares : Compares environment order) (h : Merged order done selected)
    (hstep : mergeRelation environment selected relation = .ok selected') :
    Merged order (done ++ [relation]) selected' := by
  simp only [mergeRelation, bind_eq_ok, demand_eq_ok, Prod.exists] at hstep
  obtain ⟨package, bound, hread, hstep⟩ := hstep
  cases hlookup : selected.lookup package with
  | none =>
      simp only [hlookup, pure_eq_ok] at hstep
      subst hstep
      apply h.take hread
      intro previous old hprevious
      exact absurd (hlookup.symm.trans hprevious) nofun
  | some previous =>
      obtain ⟨-, old, hold, -⟩ := h.strictest hlookup
      simp only [hlookup, bind_eq_ok, demand_eq_ok, Prod.exists, hold, Option.some.injEq, Prod.mk.injEq] at hstep
      obtain ⟨_, _, ⟨rfl, rfl⟩, hstep⟩ := hstep
      have htake (hweaker : order.Weaker old bound) : Merged order (done ++ [relation]) (selected.set package relation) := by
        apply h.take hread
        intro previous' old' hprevious' hold'
        rw [hlookup, Option.some.injEq] at hprevious'
        rw [← hprevious', hold, Option.some.injEq, Prod.mk.injEq] at hold'
        exact hold'.2 ▸ hweaker
      match old, bound with
      | none, bound =>
          simp only [pure_eq_ok] at hstep
          subst hstep
          exact htake (order.none_weaker bound)
      | some old, none =>
          simp only [pure_eq_ok] at hstep
          subst hstep
          exact h.keep hread hlookup hold (order.none_weaker _)
      | some old, some version =>
          simp only [bind_eq_ok, pure_eq_ok] at hstep
          obtain ⟨newer, hnewer, rfl⟩ := hstep
          have hiff := hcompares version old newer hnewer
          by_cases hgt : newer = true
          · rw [if_pos hgt]
            exact htake ((order.weaker_iff).2 (TotalPreorder.le_of_not_le (hiff.1 hgt)))
          · rw [if_neg hgt]
            apply h.keep hread hlookup hold ((order.weaker_iff).2 _)
            by_contra hle
            exact hgt (hiff.2 hle)

theorem Merged.run {rest : List String} (hcompares : Compares environment order) (h : Merged order done selected)
    (hrun : rest.foldlM (mergeRelation environment) selected = .ok selected') :
    Merged order (done ++ rest) selected' := by
  induction rest generalizing done selected with
  | nil =>
      rw [List.foldlM_nil, pure_eq_ok] at hrun
      rwa [List.append_nil, ← hrun]
  | cons relation rest ih =>
      rw [List.foldlM_cons, bind_eq_ok] at hrun
      obtain ⟨next, hstep, hrest⟩ := hrun
      have hnext := ih (h.step hcompares hstep) hrest
      rwa [List.append_assoc] at hnext

/-! ## The comparisons answer -/

theorem Merged.exists_step (h : Merged order done selected) (hread : (dependency relation).isSome)
    (hanswers : Answers environment (done ++ [relation])) :
    ∃ selected', mergeRelation environment selected relation = .ok selected' := by
  obtain ⟨⟨package, bound⟩, hread⟩ := Option.isSome_iff_exists.1 hread
  cases hlookup : selected.lookup package with
  | none => exact ⟨selected.set package relation, by simp [mergeRelation, hread, hlookup, demand, bind, Except.bind, pure, Except.pure]⟩
  | some previous =>
      obtain ⟨hmem, old, hold, -⟩ := h.strictest hlookup
      rcases old with _ | old
      · exact ⟨selected.set package relation, by simp [mergeRelation, hread, hlookup, hold, demand, bind, Except.bind, pure, Except.pure]⟩
      · rcases bound with _ | version
        · exact ⟨selected, by simp [mergeRelation, hread, hlookup, hold, demand, bind, Except.bind, pure, Except.pure]⟩
        · obtain ⟨newer, hnewer⟩ := hanswers relation (by simp) previous (List.mem_append_left _ hmem) package package
            version old hread hold
          exact ⟨if newer then selected.set package relation else selected, by
            simp [mergeRelation, hread, hlookup, hold, hnewer, demand, bind, Except.bind, pure, Except.pure]⟩

theorem Answers.mono {relations' : List String} (h : Answers environment relations)
    (hsubset : ∀ r ∈ relations', r ∈ relations) : Answers environment relations' :=
  fun r hr r' hr' => h r (hsubset r hr) r' (hsubset r' hr')

theorem Merged.exists_run {rest : List String} (hcompares : Compares environment order) (h : Merged order done selected)
    (haccepted : ∀ r ∈ rest, (dependency r).isSome) (hanswers : Answers environment (done ++ rest)) :
    ∃ selected', rest.foldlM (mergeRelation environment) selected = .ok selected' := by
  induction rest generalizing done selected with
  | nil => exact ⟨selected, rfl⟩
  | cons relation rest ih =>
      obtain ⟨hrelation, hrest⟩ := List.forall_mem_cons.1 haccepted
      obtain ⟨next, hstep⟩ := h.exists_step hrelation (hanswers.mono fun r hr => by
        rcases List.mem_append.1 hr with hr | hr
        · exact List.mem_append_left _ hr
        · exact List.mem_append_right _ (List.mem_singleton.1 hr ▸ List.mem_cons_self))
      rw [List.append_cons] at hanswers
      obtain ⟨selected', hrun⟩ := ih (h.step hcompares hstep) hrest hanswers
      exact ⟨selected', by rw [List.foldlM_cons, hstep]; exact hrun⟩

/-! ## The dependencies of all files -/

/-- The package of a relation. -/
def packageOf (relation : String) : Option String := (dependency relation).map Prod.fst

theorem mergeDepends_eq_ok {merged : List String} (h : mergeDepends environment relations = .ok merged) :
    ∃ selected, (sorted relations).foldlM (mergeRelation environment) ∅ = .ok selected ∧
      merged = (sorted (selected.items.map Prod.fst)).filterMap selected.lookup := by
  simp only [mergeDepends, bind_eq_ok, pure_eq_ok] at h
  obtain ⟨selected, hrun, rfl⟩ := h
  exact ⟨selected, hrun, rfl⟩

theorem mem_result : relation ∈ (sorted (selected.items.map Prod.fst)).filterMap selected.lookup ↔
    ∃ package, selected.lookup package = some relation := by
  rw [List.mem_filterMap]
  constructor
  · rintro ⟨package, -, hlookup⟩
    exact ⟨package, hlookup⟩
  · rintro ⟨package, hlookup⟩
    refine ⟨package, ?_, hlookup⟩
    rw [mem_sorted]
    exact List.mem_map_of_mem (Dict.mem_items.2 hlookup : (package, relation) ∈ selected.items)

/-- The selected relations stand in the order of their packages. -/
theorem Merged.packages (h : Merged order done selected) :
    ((sorted (selected.items.map Prod.fst)).filterMap selected.lookup).map packageOf =
      (sorted (selected.items.map Prod.fst)).map some := by
  have hfound : ∀ package ∈ sorted (selected.items.map Prod.fst), ∃ chosen,
      selected.lookup package = some chosen ∧ packageOf chosen = some package := by
    intro package hmem
    rw [mem_sorted, List.mem_map] at hmem
    obtain ⟨⟨package, chosen⟩, hitem, rfl⟩ := hmem
    have hlookup := Dict.mem_items.1 hitem
    obtain ⟨-, strict, hread, -⟩ := h.strictest hlookup
    exact ⟨chosen, hlookup, by rw [packageOf, hread, Option.map_some]⟩
  generalize sorted (selected.items.map Prod.fst) = packages at hfound
  induction packages with
  | nil => rfl
  | cons package packages ih =>
      obtain ⟨⟨chosen, hlookup, hpackage⟩, hrest⟩ := List.forall_mem_cons.1 hfound
      simp only [List.filterMap_cons, hlookup, List.map_cons, hpackage, ih hrest]

theorem Merged.mem_packages (h : Merged order done selected) :
    package ∈ sorted (selected.items.map Prod.fst) ↔ ∃ r ∈ done, packageOf r = some package := by
  rw [mem_sorted, List.mem_map]
  constructor
  · rintro ⟨⟨package, chosen⟩, hitem, rfl⟩
    obtain ⟨hmem, strict, hread, -⟩ := h.strictest (Dict.mem_items.1 hitem)
    exact ⟨chosen, hmem, by rw [packageOf, hread, Option.map_some]⟩
  · rintro ⟨r, hr, hpackage⟩
    obtain ⟨⟨package', bound⟩, hread, rfl⟩ := Option.map_eq_some_iff.1 hpackage
    obtain ⟨chosen, hlookup⟩ := h.covers r hr package' bound hread
    exact ⟨(package', chosen), Dict.mem_items.2 hlookup, rfl⟩

/-- What is installed satisfies the selected relations when it satisfies all. -/
theorem Merged.forall_satisfies_iff (h : Merged order done selected) (haccepted : ∀ r ∈ done, (dependency r).isSome)
    (installed : Set (String × String)) :
    (∀ r ∈ (sorted (selected.items.map Prod.fst)).filterMap selected.lookup, Satisfies order installed r) ↔
      ∀ r ∈ done, Satisfies order installed r := by
  constructor
  · intro hmerged r hr
    obtain ⟨⟨package, bound⟩, hread⟩ := Option.isSome_iff_exists.1 (haccepted r hr)
    obtain ⟨chosen, hlookup⟩ := h.covers r hr package bound hread
    obtain ⟨-, strict, hstrict, hweaker⟩ := h.strictest hlookup
    exact (hmerged chosen (mem_result.2 ⟨package, hlookup⟩)).of_weaker hstrict hread (hweaker r hr bound hread)
  · intro hall r hr
    obtain ⟨package, hlookup⟩ := mem_result.1 hr
    exact hall r (h.strictest hlookup).1

/-- The relations of a package, however they were found, become one that says the same as all of them. -/
theorem mergeDepends_conjunction (hcompares : Compares environment order)
    (haccepted : ∀ r ∈ relations, (dependency r).isSome) :
    (Answers environment relations → ∃ merged, mergeDepends environment relations = .ok merged) ∧
    (∀ merged, mergeDepends environment relations = .ok merged →
      (∃ packages : List String, merged.map packageOf = packages.map some ∧ packages.Pairwise (· < ·) ∧
        ∀ package, package ∈ packages ↔ ∃ r ∈ relations, packageOf r = some package) ∧
      ∀ installed, (∀ r ∈ merged, Satisfies order installed r) ↔ ∀ r ∈ relations, Satisfies order installed r) ∧
    ∀ relations', (∀ r, r ∈ relations' ↔ r ∈ relations) →
      mergeDepends environment relations' = mergeDepends environment relations := by
  refine ⟨?_, ?_, ?_⟩
  · intro hanswers
    have haccepted' : ∀ r ∈ sorted relations, (dependency r).isSome := fun r hr => haccepted r (mem_sorted.1 hr)
    obtain ⟨selected, hrun⟩ := Merged.nil.exists_run hcompares haccepted' (hanswers.mono fun r => mem_sorted.1)
    exact ⟨_, by rw [mergeDepends, hrun]; rfl⟩
  · intro merged hmerged
    obtain ⟨selected, hrun, rfl⟩ := mergeDepends_eq_ok hmerged
    have hdone := Merged.nil.run hcompares hrun
    rw [List.nil_append] at hdone
    refine ⟨⟨_, hdone.packages, pairwise_sorted _, ?_⟩, ?_⟩
    · intro package
      rw [hdone.mem_packages]
      simp only [mem_sorted]
    · intro installed
      rw [hdone.forall_satisfies_iff fun r hr => haccepted r (mem_sorted.1 hr)]
      simp only [mem_sorted]
  · intro relations' hsame
    rw [mergeDepends, mergeDepends, sorted_congr hsame]

/-- An environment that compares versions by their lengths, as dpkg does for those of one form. -/
def lengthEnvironment : Environment where
  execute
    | [_, _, version, _, old] => ⟨"", "", false, some (if old.length < version.length then 0 else 1)⟩
    | _ => ⟨"", "", false, some 0⟩
  filteredInstalled := []
  mountedRoot := none

def lengthOrder : TotalPreorder String where
  le v w := v.length ≤ w.length
  total _ _ := Nat.le_total _ _
  trans := Nat.le_trans

theorem isNewer_lengthEnvironment (version old : String) :
    isNewer lengthEnvironment version old = .ok (decide (old.length < version.length)) := by
  by_cases h : old.length < version.length <;> simp [isNewer, lengthEnvironment, h, refuse, bind, Except.bind, pure, Except.pure]

theorem mergeDepends_conjunction_libc :
    ∃ merged, mergeDepends lengthEnvironment ["zlib1g", "libc6 (>= 2.4)", "libc6 (>= 2.34)", "libc6"] = .ok merged := by
  have hcompares : Compares lengthEnvironment lengthOrder := by
    intro version old newer hnewer
    rw [isNewer_lengthEnvironment, Except.ok.injEq] at hnewer
    simp [← hnewer, lengthOrder]
  apply (mergeDepends_conjunction hcompares (by decide)).1
  intro r _ r' _ package package' version old _ _
  exact ⟨_, isNewer_lengthEnvironment version old⟩

end DebBuilder.Elf
