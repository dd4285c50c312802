import Mathlib

/-!
# Tables that replace by key

A table is a list of rows with keys.  A row that is put into it takes the place of every row
with its key, at the end of the table.

## Main definitions

* `Keyed.put` — the table with a row in it.
* `Keyed.latest` — the rows of a list that none of the later ones replaces.

## Main statements

* `Keyed.foldl_put` — the table after several rows.
-/

namespace Lib
namespace Keyed

variable {α κ : Type} [DecidableEq κ] (key : α → κ) {rows xs : List α} {x y : α}

def put (rows : List α) (x : α) : List α := rows.filter (fun row => key row ≠ key x) ++ [x]

/-- The last row of each key. -/
def latest : List α → List α
  | [] => []
  | x :: xs => if ∃ y ∈ xs, key y = key x then latest xs else x :: latest xs

variable {key}

theorem mem_of_mem_latest (h : y ∈ latest key xs) : y ∈ xs := by
  induction xs with
  | nil => exact h
  | cons x xs ih =>
      rw [latest] at h
      split at h
      · exact List.mem_cons_of_mem _ (ih h)
      · rcases List.mem_cons.1 h with rfl | h
        · exact List.mem_cons_self ..
        · exact List.mem_cons_of_mem _ (ih h)

/-- One row is left of those with the same key. -/
theorem filter_latest (h : x ∈ xs) : ∃ y ∈ xs, key y = key x ∧ (latest key xs).filter (fun z => key z = key x) = [y] := by
  induction xs generalizing x with
  | nil => exact nomatch h
  | cons first xs ih =>
      rw [latest]
      by_cases hrest : ∃ y ∈ xs, key y = key x
      · obtain ⟨y, hy, hkey⟩ := hrest
        obtain ⟨z, hz, hzkey, hfilter⟩ := ih hy
        rw [hkey] at hzkey hfilter
        refine ⟨z, List.mem_cons_of_mem _ hz, hzkey, ?_⟩
        split
        · exact hfilter
        · next hfirst =>
          have hne : key first ≠ key x := fun heq => hfirst ⟨y, hy, hkey.trans heq.symm⟩
          rw [List.filter_cons_of_neg (by simpa using hne), hfilter]
      · rcases List.mem_cons.1 h with rfl | hmem
        · have hnone : (latest key xs).filter (fun z => key z = key x) = [] := by
            rw [List.filter_eq_nil_iff]
            intro z hz hkey
            exact hrest ⟨z, mem_of_mem_latest hz, of_decide_eq_true hkey⟩
          refine ⟨x, List.mem_cons_self .., rfl, ?_⟩
          rw [if_neg hrest, List.filter_cons_of_pos (by simp), hnone]
        · exact absurd ⟨x, hmem, rfl⟩ hrest

/-- The rows that are left of a table are those whose keys were not put. -/
theorem foldl_put : xs.foldl (put key) rows = rows.filter (fun row => ∀ x ∈ xs, key row ≠ key x) ++ latest key xs := by
  induction xs generalizing rows with
  | nil => simp [latest]
  | cons x xs ih =>
      have hrows : (rows.filter fun row => key row ≠ key x).filter (fun row => ∀ y ∈ xs, key row ≠ key y) =
          rows.filter fun row => ∀ y ∈ x :: xs, key row ≠ key y := by
        rw [List.filter_filter]
        apply List.filter_congr
        intro row _
        simp [Bool.and_comm]
      rw [List.foldl_cons, ih, put, List.filter_append, hrows, List.append_assoc, latest]
      congr 1
      by_cases hlater : ∃ y ∈ xs, key y = key x
      · obtain ⟨y, hy, hkey⟩ := hlater
        have hgone : ¬ ∀ y ∈ xs, key x ≠ key y := fun h => h y hy hkey.symm
        rw [if_pos ⟨y, hy, hkey⟩, List.filter_cons_of_neg (by simpa using hgone)]
        rfl
      · have hstays : ∀ y ∈ xs, key x ≠ key y := fun y hy hkey => hlater ⟨y, hy, hkey.symm⟩
        rw [if_neg hlater, List.filter_cons_of_pos (by simpa using hstays)]
        rfl

end Keyed
end Lib
