import Mathlib

/-!
# Trees that change while they are read

A tree of directories whose entries change from moment to moment.  A path is resolved name by
name, and each look-up happens at a moment of its own, so a slow walk could put together parts
that were never in place together.  It does not where a directory changes only while it is in
place: what such a walk finds was in place at one moment of the walk.

## Main definitions

* `LiveTree` — the entries at each moment; what an object is never changes.
* `LiveTree.find` — what is in place at a path at one moment.
* `LiveTree.Walks` — what a walk finds that takes a look-up at a time.
* `LiveTree.Steady` — the entries along a path change in place only.

## Main results

* `exists_find_of_walks`, `exists_find_none` — what was found, or missed, was in place, or missing,
  at one moment of the walk.
-/

namespace Lib

/-- A tree over objects, each of which is a directory for good or not at all. -/
structure LiveTree (ι : Type) where
  isDirectory : ι → Bool
  entry : ℕ → ι → String → Option ι

namespace LiveTree

variable {ι : Type} (T : LiveTree ι)

/-- What is in place at a path below `root` at the moment `t`. -/
def find (t : ℕ) (root : ι) (path : List String) : Option ι :=
  path.foldlM (fun d name => if T.isDirectory d then T.entry t d name else none) root

/-- A walk with the look-ups `k`, `k + 1`, …, which happen at the moments of `clock`, leads
from `d` to `e`. -/
def Walks (clock : ℕ → ℕ) : ℕ → ι → List String → ι → Prop
  | _, d, [], e => d = e
  | k, d, name :: path, e =>
      T.isDirectory d = true ∧ ∃ c, T.entry (clock k) d name = some c ∧ Walks clock (k + 1) c path e

/-- An entry along `path` changes while its directory is in place, and stays there. -/
def Steady (root : ι) (path : List String) : Prop :=
  ∀ t before name d, before ++ [name] <+: path → T.entry (t + 1) d name ≠ T.entry t d name →
    T.find t root before = some d ∧ T.find (t + 1) root before = some d

variable {T} {clock : ℕ → ℕ} {k t u : ℕ} {root d e : ι} {path before : List String} {name : String}

@[simp] theorem find_nil : T.find t root [] = some root := rfl

theorem find_concat :
    T.find t root (path ++ [name]) =
      (T.find t root path).bind fun d => if T.isDirectory d then T.entry t d name else none := by
  simp [find, List.foldlM_append]

theorem walks_concat :
    T.Walks clock k root (path ++ [name]) e ↔
      ∃ d, T.Walks clock k root path d ∧ T.isDirectory d = true ∧ T.entry (clock (k + path.length)) d name = some e := by
  induction path generalizing k root with
  | nil => simp [Walks]
  | cons first path ih =>
      have hindex : k + 1 + path.length = k + (path.length + 1) := by omega
      simp only [List.cons_append, Walks, ih, List.length_cons, hindex]
      constructor
      · rintro ⟨hroot, c, hc, d, hd, hdir, he⟩
        exact ⟨d, ⟨hroot, c, hc, hd⟩, hdir, he⟩
      · rintro ⟨d, ⟨hroot, c, hc, hd⟩, hdir, he⟩
        exact ⟨hroot, c, hc, d, hd, hdir, he⟩

/-- A walk in two parts. -/
theorem walks_append {after : List String} :
    T.Walks clock k root (before ++ after) e ↔
      ∃ d, T.Walks clock k root before d ∧ T.Walks clock (k + before.length) d after e := by
  induction before generalizing k root with
  | nil => simp [Walks]
  | cons name before ih =>
      have hindex : k + 1 + before.length = k + (before.length + 1) := by omega
      simp only [List.cons_append, Walks, ih, List.length_cons, hindex]
      constructor
      · rintro ⟨hdir, c, hc, d, hd, he⟩
        exact ⟨d, ⟨hdir, c, hc, hd⟩, he⟩
      · rintro ⟨d, ⟨hdir, c, hc, hd⟩, he⟩
        exact ⟨hdir, c, hc, d, hd, he⟩

/-- A walk of a tree that does not change meanwhile finds what is in place. -/
theorem find_of_walks (hstill : ∀ j, k ≤ j → j < k + path.length → T.entry (clock j) = T.entry t)
    (h : T.Walks clock k root path e) : T.find t root path = some e := by
  induction path using List.reverseRecOn generalizing e with
  | nil => exact congrArg some h
  | append_singleton path name ih =>
      obtain ⟨d, hd, hdir, he⟩ := walks_concat.1 h
      rw [List.length_append, List.length_singleton] at hstill
      rw [find_concat, ih (fun j hk hj => hstill j hk (by omega)) hd, Option.bind_some, if_pos hdir]
      rw [← he, hstill _ (by omega) (by omega)]

/-- The last moment at which a directory was in place: its entry is still the one it had then. -/
theorem exists_last (hsteady : T.Steady root path) (hpath : before ++ [name] <+: path)
    (hfind : T.find u root before = some d) (hle : u ≤ t) :
    ∃ v, u ≤ v ∧ v ≤ t ∧ T.find v root before = some d ∧ T.entry v d name = T.entry t d name := by
  induction t, hle using Nat.le_induction with
  | base => exact ⟨u, le_rfl, le_rfl, hfind, rfl⟩
  | succ t hle ih =>
      by_cases hplace : T.find (t + 1) root before = some d
      · exact ⟨t + 1, by omega, le_rfl, hplace, rfl⟩
      · obtain ⟨v, huv, hvt, hv, hentry⟩ := ih
        have hsame : T.entry (t + 1) d name = T.entry t d name := by
          by_contra hne
          exact hplace (hsteady t before name d hpath hne).2
        exact ⟨v, huv, by omega, hv, by rw [hentry, hsame]⟩

section
variable (hsteady : T.Steady root path) (hclock : Monotone clock)
include hsteady hclock

/-- What a walk finds was in place at one moment of the walk. -/
theorem exists_find_of_walks (hpath : before <+: path) (h : T.Walks clock k root before e) :
    ∃ u, clock k ≤ u ∧ u ≤ clock (k + before.length) ∧ T.find u root before = some e := by
  induction before using List.reverseRecOn generalizing e with
  | nil => exact ⟨clock k, le_rfl, le_rfl, congrArg some h⟩
  | append_singleton before name ih =>
      obtain ⟨d, hd, hdir, he⟩ := walks_concat.1 h
      obtain ⟨u, hku, hu, hfind⟩ := ih ((List.prefix_append _ _).trans hpath) hd
      obtain ⟨v, huv, hv, hplace, hentry⟩ := exists_last hsteady hpath hfind hu
      refine ⟨v, by omega, ?_, ?_⟩
      · apply hv.trans
        apply hclock
        simp
      · rw [find_concat, hplace, Option.bind_some, if_pos hdir, hentry, he]

/-- What a walk misses was missing at one moment of the walk. -/
theorem exists_find_none (hpath : before ++ [name] <+: path) (h : T.Walks clock k root before d)
    (hnone : T.entry (clock (k + before.length)) d name = none) :
    ∃ u, clock k ≤ u ∧ u ≤ clock (k + before.length) ∧ T.find u root (before ++ [name]) = none := by
  obtain ⟨u, hku, hu, hfind⟩ := exists_find_of_walks hsteady hclock ((List.prefix_append _ _).trans hpath) h
  obtain ⟨v, huv, hv, hplace, hentry⟩ := exists_last hsteady hpath hfind hu
  refine ⟨v, by omega, hv, ?_⟩
  rw [find_concat, hplace, Option.bind_some, hentry, hnone]
  simp

end

end LiveTree

end Lib
