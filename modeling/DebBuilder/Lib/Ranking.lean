import Mathlib

/-!
# Ranks

Elements are ordered by a key, the greatest first, and some of them count.  The rank of
an element is the number of counted elements that come before it.  A loop over the sorted
elements that takes the first `n` counted ones takes those of a rank below `n`.

## Main definitions

* `ascending`, `descending` — a list in the order of the key.
* `rank` — the number of counted elements before one.

## Main statements

* `rank_append_cons` — in a sorted list the rank is a count over what stands before.
* `countP_rank_lt` — how many counted elements have a rank below `n`.
* `exists_rank_eq` — every rank below the number of counted elements is taken.
-/

namespace Lib

/-- A predicate that one element more meets counts more. -/
theorem countP_lt_countP {α : Type} {p q : α → Bool} {xs : List α} {x : α} (h : ∀ y ∈ xs, p y = true → q y = true)
    (hx : x ∈ xs) (hp : p x = false) (hq : q x = true) : xs.countP p < xs.countP q := by
  obtain ⟨before, after, rfl⟩ := List.append_of_mem hx
  have hbefore : before.countP p ≤ before.countP q :=
    List.countP_mono_left fun y hy => h y (List.mem_append_left _ hy)
  have hafter : after.countP p ≤ after.countP q :=
    List.countP_mono_left fun y hy => h y (List.mem_append_right _ (List.mem_cons_of_mem _ hy))
  rw [List.countP_append, List.countP_append, List.countP_cons, List.countP_cons, hp, hq]
  simp only [Bool.false_eq_true, if_false, if_true]
  omega

section

variable {α κ : Type} [LinearOrder κ] (key : α → κ) (counts : α → Bool) {xs ys before after : List α} {x y : α}

def ascending (xs : List α) : List α := xs.insertionSort fun a b => key a ≤ key b

def descending (xs : List α) : List α := xs.insertionSort fun a b => key b ≤ key a

theorem ascending_perm (xs : List α) : (ascending key xs).Perm xs := List.perm_insertionSort _ _

theorem descending_perm (xs : List α) : (descending key xs).Perm xs := List.perm_insertionSort _ _

/-- No two elements of one key: the order is strict. -/
theorem pairwise_ascending (h : (xs.map key).Nodup) : (ascending key xs).Pairwise fun a b => key a < key b := by
  have htotal : Std.Total fun a b : α => key a ≤ key b := ⟨fun a b => le_total (key a) (key b)⟩
  have htrans : IsTrans α fun a b => key a ≤ key b := ⟨fun a b c hab hbc => le_trans hab hbc⟩
  have hsorted : (ascending key xs).Pairwise fun a b => key a ≤ key b := List.pairwise_insertionSort _ xs
  have hnodup : (ascending key xs).Pairwise fun a b => key a ≠ key b :=
    List.pairwise_map.1 (((ascending_perm key xs).map key).nodup_iff.2 h)
  exact (hsorted.and hnodup).imp fun hab => lt_of_le_of_ne hab.1 hab.2

theorem pairwise_descending (h : (xs.map key).Nodup) : (descending key xs).Pairwise fun a b => key b < key a := by
  have hdual : (xs.map (OrderDual.toDual ∘ key)).Nodup := by
    rw [← List.map_map]
    exact h.map OrderDual.toDual.injective
  exact pairwise_ascending (OrderDual.toDual ∘ key) hdual

/-- The number of counted elements with a greater key. -/
def rank (xs : List α) (x : α) : Nat := xs.countP fun y => counts y && decide (key x < key y)

theorem rank_perm (h : xs.Perm ys) (x : α) : rank key counts xs x = rank key counts ys x := h.countP_eq _

theorem rank_le_rank (h : key x ≤ key y) : rank key counts xs y ≤ rank key counts xs x := by
  apply List.countP_mono_left
  intro a _ ha
  rw [Bool.and_eq_true, decide_eq_true_eq] at ha ⊢
  exact ⟨ha.1, lt_of_le_of_lt h ha.2⟩

/-- An element of a smaller rank has a greater key. -/
theorem lt_of_rank_lt (h : rank key counts xs y < rank key counts xs x) : key x < key y := by
  by_contra hle
  exact absurd (rank_le_rank key counts (not_lt.1 hle)) (not_le.2 h)

theorem rank_le_countP (xs : List α) (x : α) : rank key counts xs x ≤ xs.countP counts :=
  List.countP_mono_left fun _ _ hy => (Bool.and_eq_true_iff.1 hy).1

theorem rank_lt_countP (hx : x ∈ xs) (hcount : counts x = true) : rank key counts xs x < xs.countP counts := by
  apply countP_lt_countP (x := x) _ hx
  · simp
  · exact hcount
  · intro y _ hy
    exact (Bool.and_eq_true_iff.1 hy).1

theorem rank_append_cons (h : (before ++ x :: after).Pairwise fun a b => key b < key a) :
    rank key counts (before ++ x :: after) x = before.countP counts := by
  obtain ⟨_, hafter, hacross⟩ := List.pairwise_append.1 h
  have hbefore : before.countP (fun y => counts y && decide (key x < key y)) = before.countP counts := by
    apply List.countP_congr
    intro y hy
    rw [decide_eq_true (hacross y hy x List.mem_cons_self), Bool.and_true]
  have hrest : (x :: after).countP (fun y => counts y && decide (key x < key y)) = 0 := by
    rw [List.countP_eq_zero]
    intro y hy hcount
    have hlt := of_decide_eq_true (Bool.and_eq_true_iff.1 hcount).2
    rcases List.mem_cons.1 hy with rfl | hy
    · exact absurd hlt (lt_irrefl _)
    · exact absurd hlt (lt_asymm ((List.pairwise_cons.1 hafter).1 y hy))
  rw [rank, List.countP_append, hbefore, hrest, Nat.add_zero]

/-- Of the elements before a place, those of a rank below `n` are the first `n`. -/
theorem countP_rank_lt_before (n : Nat) (h : (before ++ after).Pairwise fun a b => key b < key a) :
    before.countP (fun y => counts y && decide (rank key counts (before ++ after) y < n)) =
      min n (before.countP counts) := by
  induction before using List.reverseRecOn generalizing after with
  | nil => simp
  | append_singleton before y ih =>
      rw [List.append_assoc, List.singleton_append] at h ⊢
      have hrank := rank_append_cons key counts h
      rw [List.countP_append, ih h, List.countP_append, List.countP_singleton, List.countP_singleton, hrank]
      by_cases hy : counts y = true
      · by_cases hlt : before.countP counts < n
        · simp [hy, hlt]; omega
        · simp [hy, hlt]; omega
      · simp [hy]

theorem countP_rank_lt (n : Nat) (h : (xs.map key).Nodup) :
    xs.countP (fun y => counts y && decide (rank key counts xs y < n)) = min n (xs.countP counts) := by
  have hperm := descending_perm key xs
  have hsorted := pairwise_descending key h
  have hcount := countP_rank_lt_before key counts n (by rwa [List.append_nil] : (descending key xs ++ []).Pairwise _)
  rw [List.append_nil, hperm.countP_eq, hperm.countP_eq] at hcount
  rw [← hcount]
  apply List.countP_congr
  intro y _
  rw [rank_perm key counts hperm]

theorem exists_rank_eq {n : Nat} (h : (xs.map key).Nodup) (hn : n < xs.countP counts) :
    ∃ x ∈ xs, counts x = true ∧ rank key counts xs x = n := by
  have hmore := countP_rank_lt key counts (n + 1) h
  have hfewer := countP_rank_lt key counts n h
  by_contra hnone
  have hsame : xs.countP (fun y => counts y && decide (rank key counts xs y < n + 1)) =
      xs.countP (fun y => counts y && decide (rank key counts xs y < n)) := by
    apply List.countP_congr
    intro y hy
    by_cases hcount : counts y = true
    · have hne : rank key counts xs y ≠ n := fun heq => hnone ⟨y, hy, hcount, heq⟩
      rw [hcount, Bool.true_and, Bool.true_and, decide_eq_true_eq, decide_eq_true_eq]
      omega
    · simp [hcount]
  omega

end

end Lib
