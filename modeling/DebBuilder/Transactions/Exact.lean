import Mathlib
import DebBuilder.Transactions.Model
import DebBuilder.Lib.Fallible

/-!
# Exactness of the transaction checks

The checks of a phase single out one inventory after it, if there is any, and so does the plan.  They agree on it,
so that the checks are exact when both or neither have one.

## Main definitions

* `Applied` — the inventory is the one before with the plan of the phase applied.
* `Coherent`, `Checkable` — there is an inventory that the plan, or the checks, single out.

## Main statements

* `verifyPhase_exact_iff` — when the checks of a phase are exact.
-/

namespace DebBuilder.Transactions
open Lib

/-! ## What the plan says -/

/-- The architectures of a plan. -/
def architectures (prepared : Prepared) : List String := ["all", prepared.nativeArchitecture]

/-- The planned packages and the artifact are installed in place of those of their names, the base packages have
their versions, and everything else is as it was. -/
structure Applied (prepared : Prepared) (phase : Phase) (before after : Inventory) : Prop where
  installed : ∀ row ∈ prepared.planned phase, after.lookup row.key = some row.version
  replaced : ∀ row ∈ prepared.planned phase, ∀ architecture ∈ architectures prepared, architecture ≠ row.architecture →
    after.lookup (row.package, architecture) = none
  base : ∀ row ∈ rowsOf phase prepared.basePackages, after.lookup row.key = some row.version
  others : ∀ package architecture, (∀ row ∈ prepared.planned phase, row.package ≠ package) ∨ architecture ∉ architectures prepared →
    after.lookup (package, architecture) = before.lookup (package, architecture)

/-- The plan names a package once, and no base package at another version or architecture; the other base packages
are installed. -/
structure Coherent (prepared : Prepared) (phase : Phase) (before : Inventory) : Prop where
  once : ∀ row ∈ prepared.planned phase, ∀ other ∈ prepared.planned phase, other.package = row.package → other = row
  planned : ∀ row ∈ rowsOf phase prepared.basePackages, ∀ other ∈ prepared.planned phase, other.package = row.package → other = row
  base : ∀ row ∈ rowsOf phase prepared.basePackages, (∀ other ∈ prepared.planned phase, other.package ≠ row.package) →
    before.lookup row.key = some row.version

/-- A name is installed at no other architecture. -/
def Alone (inventory : Inventory) (row : Row) : Prop :=
  ∀ architecture, architecture ≠ row.architecture → inventory.lookup (row.package, architecture) = none

/-- The last row of a key. -/
def lastOf (rows : List Row) (key : Key) : Option Row := rows.reverse.find? fun row => row.key = key

/-- The rows of a planned name have its architecture, and it is installed at no other; every other row, the last of
its key, is installed, at its architecture alone. -/
structure Checkable (prepared : Prepared) (phase : Phase) (before : Inventory) : Prop where
  planned : ∀ row ∈ prepared.planned phase, ∀ other ∈ prepared.phaseRows phase, other.package = row.package →
    other.architecture = row.architecture
  alone : ∀ row ∈ prepared.planned phase, Alone before row
  rest : ∀ row, lastOf (prepared.phaseRows phase) row.key = some row →
    (∀ other ∈ prepared.planned phase, other.package ≠ row.package) → before.lookup row.key = some row.version ∧ Alone before row

/-! ## Expected rows -/

section
variable {rows : List Row} {row : Row} {key : Key}

theorem lookup_foldl_set (rows : List Row) (key : Key) :
    (rows.foldl (fun rows row => Dict.set rows row.key row) (∅ : Dict Key Row)).lookup key = lastOf rows key := by
  induction rows using List.reverseRecOn with
  | nil => rfl
  | append_singleton rows row ih =>
      rw [List.foldl_concat, Dict.lookup_set, lastOf, List.reverse_concat, List.find?_cons, ih, lastOf]
      by_cases hkey : row.key = key
      · simp [hkey]
      · simp [hkey, Ne.symm hkey]

theorem key_of_lastOf (h : lastOf rows key = some row) : row.key = key := by
  simpa using List.find?_some h

theorem mem_of_lastOf (h : lastOf rows key = some row) : row ∈ rows := List.mem_reverse.1 (List.mem_of_find?_eq_some h)

theorem exists_lastOf (h : row ∈ rows) : ∃ last, lastOf rows row.key = some last := by
  apply Option.isSome_iff_exists.1
  rw [lastOf, List.find?_isSome]
  exact ⟨row, List.mem_reverse.2 h, by simp⟩

theorem lastOf_append (front : List Row) (h : lastOf rows key = some row) : lastOf (front ++ rows) key = some row := by
  rw [lastOf] at h
  rw [lastOf, List.reverse_append, List.find?_append, h, Option.some_or]

end

section
variable {prepared : Prepared} {phase : Phase} {row other : Row} {before after : Inventory}

theorem mem_expectedPhaseState : row ∈ prepared.expectedPhaseState phase ↔ lastOf (prepared.phaseRows phase) row.key = some row := by
  rw [Prepared.expectedPhaseState]
  constructor
  · intro h
    obtain ⟨⟨key, found⟩, hitem, rfl⟩ := List.mem_map.1 h
    rw [Dict.mem_items, lookup_foldl_set] at hitem
    rw [key_of_lastOf hitem]
    exact hitem
  · intro h
    refine List.mem_map.2 ⟨(row.key, row), ?_, rfl⟩
    rw [Dict.mem_items, lookup_foldl_set]
    exact h

/-- Each row of a phase is expected, or another one of its key is. -/
theorem exists_expected (h : row ∈ prepared.phaseRows phase) :
    ∃ last ∈ prepared.expectedPhaseState phase, last.package = row.package ∧ last.architecture = row.architecture := by
  obtain ⟨last, hlast⟩ := exists_lastOf h
  have hkey := key_of_lastOf hlast
  refine ⟨last, mem_expectedPhaseState.2 ?_, congrArg Prod.fst hkey, congrArg Prod.snd hkey⟩
  rwa [hkey]

theorem mem_rowsOf {rows : List PhaseRow} : row ∈ rowsOf phase rows ↔ ∃ found ∈ rows, found.role = phase ∧ found.toRow = row := by
  simp [rowsOf, and_assoc]

theorem architecture_of_artifact (h : prepared.artifact phase = some row) : row.architecture ∈ architectures prepared := by
  cases phase with
  | previous =>
      rw [(prepared.previous_identity row h).2]
      exact prepared.current_architecture
  | current =>
      rw [← Option.some.inj h]
      exact prepared.current_architecture

theorem architecture_of_planned (h : row ∈ prepared.planned phase) : row.architecture ∈ architectures prepared := by
  rcases List.mem_append.1 h with h | h
  · obtain ⟨found, hmem, -, rfl⟩ := mem_rowsOf.1 h
    exact prepared.packages_architecture found hmem
  · exact architecture_of_artifact (Option.mem_toList.1 h)

theorem architecture_of_base (h : row ∈ rowsOf phase prepared.basePackages) : row.architecture ∈ architectures prepared := by
  obtain ⟨found, hmem, -, rfl⟩ := mem_rowsOf.1 h
  exact prepared.base_architecture found hmem

/-! ## The inventory behind the plan -/

/-- The last planned row of a name. -/
def lastNamed (rows : List Row) (package : String) : Option Row := rows.reverse.find? fun row => row.package = package

/-- What the plan makes of a key. -/
def target (prepared : Prepared) (rows : List Row) (before : Inventory) (key : Key) : Option String :=
  match lastNamed rows key.1 with
  | none => before.lookup key
  | some row =>
      if key.2 ∈ architectures prepared then if key.2 = row.architecture then some row.version else none
      else before.lookup key

/-- The inventory is what the plan makes of the one before. -/
def Installs (prepared : Prepared) (phase : Phase) (before after : Inventory) : Prop :=
  ∀ key, after.lookup key = target prepared (prepared.planned phase) before key

/-- A row in place of those of its name. -/
def install (prepared : Prepared) (inventory : Inventory) (row : Row) : Inventory :=
  ((inventory.erase (row.package, "all")).erase (row.package, prepared.nativeArchitecture)).insert row.key row.version

theorem lookup_install (hrow : row.architecture ∈ architectures prepared) (key : Key) :
    (install prepared before row).lookup key =
      if key.1 = row.package ∧ key.2 ∈ architectures prepared then if key.2 = row.architecture then some row.version else none
      else before.lookup key := by
  have hmem : ∀ architecture, architecture ∈ architectures prepared ↔ architecture = "all" ∨ architecture = prepared.nativeArchitecture := by
    intro architecture
    simp [architectures]
  rw [install]
  by_cases hsame : key = row.key
  · subst hsame
    rw [AList.lookup_insert, if_pos ⟨rfl, hrow⟩]
    exact (if_pos rfl).symm
  · rw [AList.lookup_insert_ne hsame]
    by_cases hnative : key = (row.package, prepared.nativeArchitecture)
    · subst hnative
      rw [AList.lookup_erase, if_pos ⟨rfl, (hmem _).2 (.inr rfl)⟩, if_neg fun h => hsame (congrArg (row.package, ·) h)]
    · rw [AList.lookup_erase_ne hnative]
      by_cases hall : key = (row.package, "all")
      · subst hall
        rw [AList.lookup_erase, if_pos ⟨rfl, (hmem _).2 (.inl rfl)⟩, if_neg fun h => hsame (congrArg (row.package, ·) h)]
      · rw [AList.lookup_erase_ne hall, if_neg]
        rintro ⟨hpackage, harchitecture⟩
        rcases (hmem _).1 harchitecture with h | h
        · exact hall (Prod.ext hpackage h)
        · exact hnative (Prod.ext hpackage h)

theorem lookup_foldl_install {rows : List Row} (hrows : ∀ row ∈ rows, row.architecture ∈ architectures prepared) (key : Key) :
    (rows.foldl (install prepared) before).lookup key = target prepared rows before key := by
  induction rows using List.reverseRecOn with
  | nil => rfl
  | append_singleton rows row ih =>
      have hrest := ih fun other hother => hrows other (List.mem_append_left _ hother)
      rw [List.foldl_concat, lookup_install (hrows row (by simp)), hrest, target, target, lastNamed, lastNamed, List.reverse_concat,
        List.find?_cons]
      by_cases hpackage : row.package = key.1
      · by_cases hmem : key.2 ∈ architectures prepared
        · simp [hpackage, hmem]
        · simp only [hpackage, hmem, and_false, if_false, decide_true]
          split <;> rfl
      · simp [hpackage, Ne.symm hpackage]

/-- There is such an inventory. -/
theorem exists_installs (prepared : Prepared) (phase : Phase) (before : Inventory) : ∃ after, Installs prepared phase before after :=
  ⟨(prepared.planned phase).foldl (install prepared) before, lookup_foldl_install fun _ => architecture_of_planned⟩

theorem lastNamed_eq_none {package : String} : lastNamed (prepared.planned phase) package = none ↔
    ∀ other ∈ prepared.planned phase, other.package ≠ package := by
  simp [lastNamed]

theorem lastNamed_eq_some {package : String} (h : lastNamed (prepared.planned phase) package = some row) :
    row ∈ prepared.planned phase ∧ row.package = package :=
  ⟨List.mem_reverse.1 (List.mem_of_find?_eq_some h), by simpa using List.find?_some h⟩

/-! ## The plan -/

theorem exists_lastNamed (h : row ∈ prepared.planned phase) :
    ∃ last, lastNamed (prepared.planned phase) row.package = some last := by
  cases hlast : lastNamed (prepared.planned phase) row.package with
  | none => exact absurd rfl (lastNamed_eq_none.1 hlast row h)
  | some last => exact ⟨last, rfl⟩

theorem target_of_none {rows : List Row} {key : Key} (h : lastNamed rows key.1 = none) :
    target prepared rows before key = before.lookup key := by
  rw [target, h]

theorem target_of_some {rows : List Row} {key : Key} (h : lastNamed rows key.1 = some row) :
    target prepared rows before key =
      if key.2 ∈ architectures prepared then if key.2 = row.architecture then some row.version else none
      else before.lookup key := by
  rw [target, h]

/-- The plan is unambiguous exactly if one inventory is what it asks for. -/
theorem applied_iff : Applied prepared phase before after ↔ Coherent prepared phase before ∧ Installs prepared phase before after := by
  constructor
  · intro h
    have hsame : ∀ found : Row, after.lookup found.key = some found.version → found.architecture ∈ architectures prepared →
        ∀ other ∈ prepared.planned phase, other.package = found.package → other = found := by
      intro found hfound hmem other hother hpackage
      have harchitecture : found.architecture = other.architecture := by
        by_contra hne
        have hnone := h.replaced other hother found.architecture hmem hne
        rw [hpackage] at hnone
        exact nomatch hnone.symm.trans hfound
      have hinstalled := h.installed other hother
      rw [Row.key, hpackage, ← harchitecture] at hinstalled
      have hversion := Option.some.inj (hinstalled.symm.trans hfound)
      cases other
      cases found
      simp_all
    refine ⟨⟨fun row hrow => ?_, fun row hrow => ?_, fun row hrow hnone => ?_⟩, fun key => ?_⟩
    · exact hsame row (h.installed row hrow) (architecture_of_planned hrow)
    · exact hsame row (h.base row hrow) (architecture_of_base hrow)
    · rw [← h.base row hrow]
      exact (h.others row.package row.architecture (.inl hnone)).symm
    · cases hlast : lastNamed (prepared.planned phase) key.1 with
      | none =>
          rw [target_of_none hlast]
          exact h.others key.1 key.2 (.inl (lastNamed_eq_none.1 hlast))
      | some row =>
          obtain ⟨hrow, hpackage⟩ := lastNamed_eq_some hlast
          rw [target_of_some hlast]
          by_cases hmem : key.2 ∈ architectures prepared
          · rw [if_pos hmem]
            by_cases heq : key.2 = row.architecture
            · rw [if_pos heq, ← h.installed row hrow, Row.key, hpackage, ← heq]
            · rw [if_neg heq, ← h.replaced row hrow key.2 hmem heq, hpackage]
          · rw [if_neg hmem]
            exact h.others key.1 key.2 (.inr hmem)
  · rintro ⟨hcoherent, hinstalls⟩
    have hlast : ∀ row ∈ prepared.planned phase, ∀ architecture, after.lookup (row.package, architecture) =
        if architecture ∈ architectures prepared then if architecture = row.architecture then some row.version else none
        else before.lookup (row.package, architecture) := by
      intro row hrow architecture
      obtain ⟨last, hlast⟩ := exists_lastNamed hrow
      obtain ⟨hmem, hpackage⟩ := lastNamed_eq_some hlast
      rw [hcoherent.once row hrow last hmem hpackage] at hlast
      rw [hinstalls, target_of_some hlast]
    have hinstalled : ∀ row ∈ prepared.planned phase, after.lookup row.key = some row.version := by
      intro row hrow
      rw [Row.key, hlast row hrow, if_pos (architecture_of_planned hrow), if_pos rfl]
    have hkept : ∀ package architecture, (∀ row ∈ prepared.planned phase, row.package ≠ package) →
        after.lookup (package, architecture) = before.lookup (package, architecture) := by
      intro package architecture hnone
      rw [hinstalls, target_of_none (lastNamed_eq_none.2 hnone)]
    refine ⟨hinstalled, fun row hrow architecture hmem hne => ?_, fun row hrow => ?_, fun package architecture hother => ?_⟩
    · rw [hlast row hrow, if_pos hmem, if_neg hne]
    · by_cases hplanned : ∃ other ∈ prepared.planned phase, other.package = row.package
      · obtain ⟨other, hother, hpackage⟩ := hplanned
        rw [← hcoherent.planned row hrow other hother hpackage]
        exact hinstalled other hother
      · have hnone : ∀ other ∈ prepared.planned phase, other.package ≠ row.package := fun other hother hpackage =>
          hplanned ⟨other, hother, hpackage⟩
        rw [Row.key, hkept _ _ hnone]
        exact hcoherent.base row hrow hnone
    · by_cases hplanned : ∃ row ∈ prepared.planned phase, row.package = package
      · obtain ⟨row, hrow, rfl⟩ := hplanned
        rcases hother with hother | hother
        · exact absurd rfl (hother row hrow)
        · rw [hlast row hrow, if_neg hother]
      · exact hkept _ _ fun row hrow hpackage => hplanned ⟨row, hrow, hpackage⟩

/-! ## The checks -/

theorem mem_dpkgQuery {inventory : Inventory} {package : String} : row ∈ dpkgQuery inventory package ↔
    inventory.lookup row.key = some row.version ∧ row.package = package := by
  rw [dpkgQuery]
  constructor
  · intro h
    obtain ⟨⟨⟨name, architecture⟩, version⟩, hitem, rfl⟩ := List.mem_map.1 h
    obtain ⟨hitem, hname⟩ := List.mem_filter.1 hitem
    exact ⟨Dict.mem_items.1 hitem, by simpa using hname⟩
  · rintro ⟨hlookup, rfl⟩
    exact List.mem_map.2 ⟨(row.key, row.version), List.mem_filter.2 ⟨Dict.mem_items.2 hlookup, by simp [Row.key]⟩, rfl⟩

theorem nodup_dpkgQuery (inventory : Inventory) (package : String) : (dpkgQuery inventory package).Nodup := by
  have hkeys : ((dpkgQuery inventory package).map Row.key).Sublist ((Dict.items inventory).map Prod.fst) := by
    rw [dpkgQuery, List.map_map]
    exact List.filter_sublist.map Prod.fst
  exact (hkeys.nodup (Dict.nodup_items inventory)).of_map

/-- The answer is the row of the name, exactly if it is the only one of the name. -/
theorem actualRow_eq_some {inventory : Inventory} : actualRow inventory row.package = some row ↔
    inventory.lookup row.key = some row.version ∧ Alone inventory row := by
  have hanswer : actualRow inventory row.package = some row ↔ dpkgQuery inventory row.package = [row] := by
    rw [actualRow]
    split
    next other hquery => simp [hquery]
    next hquery => exact ⟨fun h => (nomatch h), fun h => absurd h (hquery row)⟩
  rw [hanswer]
  constructor
  · intro h
    refine ⟨(mem_dpkgQuery.1 (h ▸ List.mem_singleton_self row)).1, fun architecture hne => ?_⟩
    cases hlookup : inventory.lookup (row.package, architecture) with
    | none => rfl
    | some version =>
        have hmem : (⟨row.package, version, architecture⟩ : Row) ∈ dpkgQuery inventory row.package := mem_dpkgQuery.2 ⟨hlookup, rfl⟩
        rw [h, List.mem_singleton] at hmem
        exact absurd (congrArg Row.architecture hmem) hne
  · rintro ⟨hlookup, halone⟩
    apply List.perm_singleton.1
    rw [List.perm_ext_iff_of_nodup (nodup_dpkgQuery _ _) (List.nodup_singleton row)]
    intro other
    rw [mem_dpkgQuery, List.mem_singleton]
    constructor
    · rintro ⟨hother, hpackage⟩
      rw [Row.key, hpackage] at hother
      by_cases harchitecture : other.architecture = row.architecture
      · rw [harchitecture] at hother
        have hversion := Option.some.inj (hother.symm.trans hlookup)
        cases other
        cases row
        simp_all
      · exact nomatch (halone _ harchitecture).symm.trans hother
    · rintro rfl
      exact ⟨hlookup, rfl⟩

theorem verifyModeledState_eq_ok {inventory : Inventory} : verifyModeledState inventory prepared phase = .ok () ↔
    ∀ row ∈ prepared.expectedPhaseState phase, inventory.lookup row.key = some row.version ∧ Alone inventory row := by
  rw [verifyModeledState]
  split
  next h =>
    simp only [List.filter_eq_nil_iff, List.mem_map, decide_eq_true_eq, ne_eq, not_not] at h
    refine ⟨fun _ row hrow => actualRow_eq_some.1 (h _ ⟨row, hrow, rfl⟩), fun _ => rfl⟩
  next h =>
    refine ⟨fun hok => (nomatch hok), fun hrows => absurd ?_ h⟩
    simp only [List.filter_eq_nil_iff, List.mem_map, decide_eq_true_eq, ne_eq, not_not]
    rintro _ ⟨row, hrow, rfl⟩
    exact actualRow_eq_some.2 (hrows row hrow)

theorem verifyTransactionBoundary_eq_ok {allowed : List Key} : verifyTransactionBoundary before after allowed phase = .ok () ↔
    (∀ key, before.lookup key ≠ after.lookup key → key ∈ allowed) ∧ ∀ key, key ∈ before → key ∈ after := by
  have hunexpected : ((changedKeys before after).filter fun key => key ∉ allowed) = [] ↔
      ∀ key, before.lookup key ≠ after.lookup key → key ∈ allowed := by
    simp only [changedKeys, List.filter_eq_nil_iff, List.mem_filter, List.mem_append, decide_eq_true_eq, not_not, and_imp]
    refine ⟨fun h key hne => h key ?_ hne, fun h key _ hne => h key hne⟩
    by_contra hkeys
    rw [not_or, ← AList.mem_keys, ← AList.mem_keys] at hkeys
    exact hne ((AList.lookup_eq_none.2 hkeys.1).trans (AList.lookup_eq_none.2 hkeys.2).symm)
  have hremoved : (before.keys.filter fun key => key ∉ after.keys) = [] ↔ ∀ key, key ∈ before → key ∈ after := by
    simp only [List.filter_eq_nil_iff, ← AList.mem_keys, decide_eq_true_eq, not_not]
  rw [verifyTransactionBoundary, ← hunexpected, ← hremoved]
  split
  next h => exact ⟨fun _ => h, fun _ => rfl⟩
  next h => exact ⟨fun hok => (nomatch hok), fun hempty => absurd hempty h⟩

/-- The last planned row of a name is expected. -/
theorem expected_of_lastNamed {package : String} (h : lastNamed (prepared.planned phase) package = some row) :
    row ∈ prepared.expectedPhaseState phase := by
  have hlast : lastOf (prepared.planned phase) row.key = some row := by
    obtain ⟨hrow, behind, front, heq, hbehind⟩ := List.find?_eq_some_iff_append.1 h
    refine List.find?_eq_some_iff_append.2 ⟨by simp, behind, front, heq, fun other hother => ?_⟩
    have hne := hbehind other hother
    simp only [decide_eq_true_eq, Bool.not_eq_eq_eq_not, Bool.not_true, decide_eq_false_iff_not] at hrow hne ⊢
    exact fun hkey => hne ((congrArg Prod.fst hkey).trans hrow)
  exact mem_expectedPhaseState.2 (lastOf_append _ hlast)

theorem verifyPhase_eq_ok : verifyPhase prepared phase before after = .ok () ↔
    Checkable prepared phase before ∧ Installs prepared phase before after := by
  rw [verifyPhase, bind_eq_ok]
  constructor
  · rintro ⟨⟨⟩, hboundary, hmodeled⟩
    obtain ⟨hchanged, hkept⟩ := verifyTransactionBoundary_eq_ok.1 hboundary
    have hrows := verifyModeledState_eq_ok.1 hmodeled
    -- No key of a name that the phase does not install has changed.
    have hunchanged : ∀ package architecture, (∀ row ∈ prepared.planned phase, row.package ≠ package) →
        after.lookup (package, architecture) = before.lookup (package, architecture) := by
      intro package architecture hnone
      by_contra hne
      obtain ⟨row, hrow, hkey⟩ := List.mem_map.1 (hchanged _ (Ne.symm hne))
      exact hnone row hrow (congrArg Prod.fst hkey)
    have halone : ∀ row ∈ prepared.planned phase, Alone before row := by
      intro row hrow architecture hne
      obtain ⟨last, hlast, hpackage, harchitecture⟩ := exists_expected (List.mem_append_right _ hrow)
      have hafter := (hrows last hlast).2 architecture (harchitecture ▸ hne)
      rw [hpackage] at hafter
      cases hbefore : before.lookup (row.package, architecture) with
      | none => rfl
      | some version =>
          have hmem := hkept _ (AList.lookup_isSome.1 (Option.isSome_of_eq_some hbefore))
          exact absurd hmem (AList.lookup_eq_none.1 hafter)
    refine ⟨⟨fun row hrow found hfound hpackage => ?_, halone, fun row hrow hnone => ?_⟩, fun key => ?_⟩
    · obtain ⟨other, hother, hsame, hplace⟩ := exists_expected hfound
      rw [← hsame] at hpackage
      rw [← hplace]
      obtain ⟨last, hlast, hname, harchitecture⟩ := exists_expected (List.mem_append_right _ hrow)
      by_contra hne
      have hnone := (hrows last hlast).2 other.architecture (harchitecture ▸ hne)
      rw [hname, ← hpackage] at hnone
      exact nomatch hnone.symm.trans (hrows other hother).1
    · obtain ⟨hlookup, hrest⟩ := hrows row (mem_expectedPhaseState.2 hrow)
      refine ⟨(hunchanged _ _ hnone).symm.trans hlookup, fun architecture hne => ?_⟩
      exact (hunchanged _ _ hnone).symm.trans (hrest architecture hne)
    · cases hlast : lastNamed (prepared.planned phase) key.1 with
      | none =>
          rw [target_of_none hlast]
          exact hunchanged key.1 key.2 (lastNamed_eq_none.1 hlast)
      | some row =>
          obtain ⟨hrow, hpackage⟩ := lastNamed_eq_some hlast
          obtain ⟨hlookup, hrest⟩ := hrows row (expected_of_lastNamed hlast)
          rw [target_of_some hlast]
          by_cases heq : key.2 = row.architecture
          · rw [heq, if_pos (architecture_of_planned hrow), if_pos rfl, ← hlookup, Row.key, hpackage, ← heq]
          · have hbefore := halone row hrow key.2 heq
            have hafter := hrest key.2 heq
            rw [hpackage] at hbefore hafter
            rw [if_neg heq, hafter, hbefore, ite_self]
  · rintro ⟨hcheckable, hinstalls⟩
    have hplanned : ∀ row, lastNamed (prepared.planned phase) row.package = some row →
        after.lookup row.key = some row.version ∧ Alone after row := by
      intro row hlast
      have hrow := (lastNamed_eq_some hlast).1
      constructor
      · rw [hinstalls, target_of_some hlast, Row.key, if_pos (architecture_of_planned hrow), if_pos rfl]
      · intro architecture hne
        rw [hinstalls, target_of_some hlast]
        simp [hne, hcheckable.alone row hrow architecture hne]
    have hunnamed : ∀ package architecture, (∀ row ∈ prepared.planned phase, row.package ≠ package) →
        after.lookup (package, architecture) = before.lookup (package, architecture) := by
      intro package architecture hnone
      rw [hinstalls, target_of_none (lastNamed_eq_none.2 hnone)]
    refine ⟨(), verifyTransactionBoundary_eq_ok.2 ⟨fun key hne => ?_, fun key hbefore => ?_⟩,
      verifyModeledState_eq_ok.2 fun row hrow => ?_⟩
    · cases hlast : lastNamed (prepared.planned phase) key.1 with
      | none => exact absurd (hunnamed key.1 key.2 (lastNamed_eq_none.1 hlast)) (Ne.symm hne)
      | some row =>
          obtain ⟨hrow, hpackage⟩ := lastNamed_eq_some hlast
          refine List.mem_map.2 ⟨row, hrow, Prod.ext hpackage ?_⟩
          by_contra harchitecture
          have hnone := hcheckable.alone row hrow key.2 (Ne.symm harchitecture)
          have hafter := (hplanned row (hpackage ▸ hlast)).2 key.2 (Ne.symm harchitecture)
          rw [hpackage] at hnone hafter
          exact hne (hnone.trans hafter.symm)
    · cases hlast : lastNamed (prepared.planned phase) key.1 with
      | none =>
          have hkept := hunnamed key.1 key.2 (lastNamed_eq_none.1 hlast)
          rw [← AList.lookup_isSome] at hbefore ⊢
          rwa [hkept]
      | some row =>
          obtain ⟨hrow, hpackage⟩ := lastNamed_eq_some hlast
          by_cases heq : key.2 = row.architecture
          · have hkey : key = row.key := Prod.ext hpackage.symm heq
            rw [hkey, ← AList.lookup_isSome, (hplanned row (hpackage ▸ hlast)).1]
            rfl
          · have hnone := hcheckable.alone row hrow key.2 heq
            rw [hpackage] at hnone
            exact absurd hbefore (AList.lookup_eq_none.1 hnone)
    · by_cases hnamed : ∃ other ∈ prepared.planned phase, other.package = row.package
      · obtain ⟨other, hother, hpackage⟩ := hnamed
        obtain ⟨last, hlast⟩ := exists_lastNamed hother
        obtain ⟨hmem, hsame⟩ := lastNamed_eq_some hlast
        -- The expected row has the key of the last planned one, and so it is that row.
        have hrow := mem_expectedPhaseState.1 hrow
        have hkey : row.key = last.key := Prod.ext (hsame.trans hpackage).symm
          (hcheckable.planned last hmem row (mem_of_lastOf hrow) (hsame.trans hpackage).symm)
        rw [hkey, mem_expectedPhaseState.1 (expected_of_lastNamed hlast)] at hrow
        obtain rfl := Option.some.inj hrow
        exact hplanned last (hsame ▸ hlast)
      · have hnone : ∀ other ∈ prepared.planned phase, other.package ≠ row.package := fun other hother hpackage =>
          hnamed ⟨other, hother, hpackage⟩
        obtain ⟨hlookup, halone⟩ := hcheckable.rest row (mem_expectedPhaseState.1 hrow) hnone
        exact ⟨(hunnamed _ _ hnone).trans hlookup, fun architecture hne => (hunnamed _ _ hnone).trans (halone architecture hne)⟩

end

/-- The checks pass exactly if the inventory is the one before with the plan applied, unless it is what the plan makes
of the one before, and only one of the two can be met; so over all inventories they do exactly if the plan is
coherent and can be checked, or neither. -/
theorem verifyPhase_exact_iff (prepared : Prepared) (phase : Phase) (before : Inventory) :
    (∀ after, (verifyPhase prepared phase before after = .ok () ↔ Applied prepared phase before after) ↔
      (Installs prepared phase before after → (Coherent prepared phase before ↔ Checkable prepared phase before))) ∧
    ((∀ after, verifyPhase prepared phase before after = .ok () ↔ Applied prepared phase before after) ↔
      (Coherent prepared phase before ↔ Checkable prepared phase before)) := by
  have hexact : ∀ after, (verifyPhase prepared phase before after = .ok () ↔ Applied prepared phase before after) ↔
      (Installs prepared phase before after → (Coherent prepared phase before ↔ Checkable prepared phase before)) := by
    intro after
    rw [verifyPhase_eq_ok, applied_iff, and_congr_left_iff]
    exact imp_congr_right fun _ => Iff.comm
  refine ⟨hexact, fun h => ?_, fun h after => (hexact after).2 fun _ => h⟩
  obtain ⟨after, hafter⟩ := exists_installs prepared phase before
  exact (hexact after).1 (h after) hafter

/-! ## A package that moves -/

/-- A dependency becomes independent of the architecture. -/
def movingPlan : Prepared where
  nativeArchitecture := "amd64"
  currentArtifact := ⟨"demo", "2", "all"⟩
  previousArtifact := none
  basePackages := []
  packages := [⟨⟨"libfoo", "2", "all"⟩, .current⟩]
  native_ne_all := by decide
  current_architecture := by decide
  previous_identity := by decide
  packages_once := by decide
  packages_architecture := by decide
  base_once := by decide
  base_architecture := by decide

def nativeBefore : Inventory := (∅ : Inventory).insert ("libfoo", "amd64") "1"

def movedAfter : Inventory := ((∅ : Inventory).insert ("libfoo", "all") "2").insert ("demo", "all") "2"

/-- The plan is applied, and the instance that it replaces is reported as removed. -/
theorem moved_refused : Applied movingPlan .current nativeBefore movedAfter ∧
    verifyPhase movingPlan .current nativeBefore movedAfter ≠ .ok () := by
  constructor
  · have hafter : movedAfter = (movingPlan.planned .current).foldl (install movingPlan) nativeBefore := AList.ext (by decide)
    rw [applied_iff, hafter]
    exact ⟨⟨by decide, by decide, by decide⟩, lookup_foldl_install fun _ => architecture_of_planned⟩
  · intro h
    have halone := (verifyPhase_eq_ok.1 h).1.alone ⟨"libfoo", "2", "all"⟩ (by decide) "amd64" (by decide)
    exact absurd halone (by decide)

end DebBuilder.Transactions
