import Mathlib
import DebBuilder.Lib.Text

/-!
# Occurrences of a text in a text

Where a text stands in another one, overlapping places included, and what the search
functions of the source language find: they go from left to right and continue behind what
they found, so they count places that are apart.

## Main definitions

* `Occurs`, `OccursOnce`, `OccursApart` — at a place, at one place only, at two that do not
  overlap.
* `Text.count`, `Text.replaceFirst` — `str.count` and `str.replace` with the count 1.

## Main statements

* `count_eq_zero`, `count_le_one` — what the number of places found says.
-/

namespace Lib

variable {search text before after : List Char}

def Occurs (search text : List Char) : Prop := ∃ before after, text = before ++ search ++ after

/-- At one place, however the others may overlap with it. -/
def OccursOnce (search text : List Char) : Prop :=
  Occurs search text ∧ ∀ before after before' after', text = before ++ search ++ after →
    text = before' ++ search ++ after' → before = before'

/-- At two places that do not overlap. -/
def OccursApart (search text : List Char) : Prop :=
  ∃ before between after, text = before ++ search ++ between ++ search ++ after

/-- At one place only, there are no two apart. -/
theorem OccursOnce.not_apart (hsearch : search ≠ []) (h : OccursOnce search text) : ¬ OccursApart search text := by
  rintro ⟨before, between, after, htext⟩
  have hsame := h.2 before (between ++ search ++ after) (before ++ search ++ between) after (by rw [htext]; simp)
    (by rw [htext])
  have hlength := congrArg List.length hsame
  have hpos := List.length_pos_of_ne_nil hsearch
  simp only [List.length_append] at hlength
  omega

/-- A place is a number of characters before it. -/
theorem occursOnce_iff : OccursOnce search text ↔ ∃ i ≤ text.length, search <+: text.drop i ∧
    ∀ j ≤ text.length, search <+: text.drop j → j = i := by
  have hplace : ∀ before after, text = before ++ search ++ after →
      before.length ≤ text.length ∧ search <+: text.drop before.length := by
    rintro before after rfl
    refine ⟨by simp, after, ?_⟩
    rw [List.append_assoc, List.drop_left]
  have htext : ∀ j, search <+: text.drop j → ∃ after, text = text.take j ++ search ++ after := by
    rintro j ⟨after, hafter⟩
    exact ⟨after, by rw [List.append_assoc, hafter, List.take_append_drop]⟩
  constructor
  · rintro ⟨⟨before, after, hoccurs⟩, hunique⟩
    refine ⟨before.length, (hplace _ _ hoccurs).1, (hplace _ _ hoccurs).2, fun j hj hpre => ?_⟩
    obtain ⟨after', hafter'⟩ := htext j hpre
    rw [hunique _ _ _ _ hoccurs hafter', List.length_take, Nat.min_eq_left hj]
  · rintro ⟨i, hi, hpre, hunique⟩
    obtain ⟨after, hafter⟩ := htext i hpre
    refine ⟨⟨_, after, hafter⟩, fun before after before' after' h h' => ?_⟩
    have hlength := (hunique _ (hplace _ _ h).1 (hplace _ _ h).2).trans
      (hunique _ (hplace _ _ h').1 (hplace _ _ h').2).symm
    have hsame : before ++ (search ++ after) = before' ++ (search ++ after') := by
      rw [← List.append_assoc, ← List.append_assoc]
      exact h.symm.trans h'
    exact (List.append_inj hsame hlength).1

instance (search text : List Char) : Decidable (OccursOnce search text) := decidable_of_iff _ occursOnce_iff.symm

namespace Text

/-- The places found in a text after `skip` characters of one. -/
def countFrom (search : List Char) : Nat → List Char → Nat
  | _, [] => 0
  | skip + 1, _ :: cs => countFrom search skip cs
  | 0, c :: cs => if search <+: c :: cs then 1 + countFrom search (search.length - 1) cs else countFrom search 0 cs

/-- `text.count(search)`, of a search text that is not empty. -/
def count (search text : List Char) : Nat := countFrom search 0 text

/-- `text.replace(search, new, 1)` -/
def replaceFirst (search new text : List Char) : List Char :=
  match cut search text with
  | some (before, after) => before ++ new ++ after
  | none => text

example : count "aa".toList "aaa".toList = 1 := by decide +kernel

/-! ## The first place -/

theorem cut_eq_some (h : cut search text = some (before, after)) :
    text = before ++ search ++ after ∧
      ∀ before' after', text = before' ++ search ++ after' → before.length ≤ before'.length := by
  induction text generalizing before with
  | nil =>
      rw [cut] at h
      split at h
      · next hnil =>
          obtain ⟨rfl, rfl⟩ := Prod.mk.inj (Option.some.inj h)
          simp [hnil]
      · cases h
  | cons c cs ih =>
      rw [cut] at h
      split at h
      · next hpre =>
          obtain ⟨rfl, rfl⟩ := Prod.mk.inj (Option.some.inj h)
          refine ⟨?_, fun _ _ _ => Nat.zero_le _⟩
          obtain ⟨rest, hrest⟩ := List.isPrefixOf_iff_prefix.1 hpre
          rw [← hrest, List.drop_left]
          rfl
      · next hpre =>
          obtain ⟨parts, hparts, heq⟩ := Option.map_eq_some_iff.1 h
          obtain ⟨rfl, rfl⟩ := Prod.mk.inj heq
          obtain ⟨htext, hleast⟩ := ih hparts
          refine ⟨by rw [htext]; simp, ?_⟩
          intro before' after' hplace
          cases before' with
          | nil =>
              refine absurd (List.isPrefixOf_iff_prefix.2 ⟨after', ?_⟩) hpre
              simpa using hplace.symm
          | cons c' before' =>
              have hcs : cs = before' ++ search ++ after' := by
                simpa using (List.cons.inj hplace).2
              exact Nat.succ_le_succ (hleast before' after' hcs)

theorem cut_eq_none : cut search text = none ↔ ¬ Occurs search text := by
  constructor
  · intro h
    rintro ⟨before, after, htext⟩
    induction text generalizing before with
    | nil =>
        have hnil : search = [] := by
          have := congrArg List.length htext
          simp only [List.length_nil, List.length_append] at this
          exact List.eq_nil_of_length_eq_zero (by omega)
        simp [cut, hnil] at h
    | cons c cs ih =>
        rw [cut] at h
        split at h
        · cases h
        · next hpre =>
            rw [Option.map_eq_none_iff] at h
            cases before with
            | nil =>
                refine hpre (List.isPrefixOf_iff_prefix.2 ⟨after, ?_⟩)
                simpa using htext.symm
            | cons c' before =>
                refine ih h before ?_
                simpa using (List.cons.inj htext).2
  · intro h
    cases hcut : cut search text with
    | none => rfl
    | some parts => exact absurd ⟨parts.1, parts.2, (cut_eq_some hcut).1⟩ h

/-! ## Counting -/

theorem countFrom_skip (cs : List Char) : countFrom search before.length (before ++ cs) = countFrom search 0 cs := by
  induction before with
  | nil => rfl
  | cons c before ih => exact ih

/-- The places are the first one and those behind it. -/
theorem count_eq (hsearch : search ≠ []) (text : List Char) : count search text =
    match cut search text with
    | some (_, after) => 1 + count search after
    | none => 0 := by
  induction text with
  | nil => simp [count, countFrom, cut, hsearch]
  | cons c cs ih =>
      rw [count, countFrom, cut]
      by_cases hpre : search <+: c :: cs
      · obtain ⟨rest, hrest⟩ := hpre
        obtain ⟨s, searchRest, hcons⟩ := List.exists_cons_of_ne_nil hsearch
        have htail : cs = searchRest ++ rest := by
          rw [hcons] at hrest
          exact (List.cons.inj hrest).2.symm
        have hskip : search.length - 1 = searchRest.length := by simp [hcons]
        rw [if_pos ⟨rest, hrest⟩, if_pos (List.isPrefixOf_iff_prefix.2 ⟨rest, hrest⟩), ← hrest, List.drop_left, hskip, htail,
          countFrom_skip]
        rfl
      · have hfalse : ¬ search.isPrefixOf (c :: cs) = true := fun h => hpre (List.isPrefixOf_iff_prefix.1 h)
        rw [if_neg hpre, if_neg hfalse, ← count, ih]
        cases cut search cs <;> rfl

theorem count_eq_zero (hsearch : search ≠ []) : count search text = 0 ↔ ¬ Occurs search text := by
  rw [count_eq hsearch, ← cut_eq_none]
  cases cut search text with
  | none => simp
  | some parts => simp

/-- A second place is found when there is one behind the first place. -/
theorem count_le_one (hsearch : search ≠ []) : count search text ≤ 1 ↔ ¬ OccursApart search text := by
  rw [count_eq hsearch]
  cases hcut : cut search text with
  | none =>
      have hnone := cut_eq_none.1 hcut
      refine iff_of_true (Nat.zero_le _) ?_
      rintro ⟨before, between, after, htext⟩
      exact hnone ⟨before, between ++ search ++ after, by simpa using htext⟩
  | some parts =>
      obtain ⟨before, after⟩ := parts
      obtain ⟨htext, hleast⟩ := cut_eq_some hcut
      have hbehind : count search after = 0 ↔ ¬ OccursApart search text := by
        rw [count_eq_zero hsearch, not_iff_not]
        constructor
        · rintro ⟨between, rest, hafter⟩
          exact ⟨before, between, rest, by rw [htext, hafter]; simp⟩
        · rintro ⟨before', between, rest, hplaces⟩
          have hle := hleast before' (between ++ search ++ rest) (by rw [hplaces]; simp)
          -- the second place begins behind the end of the first one that is found
          have hafter : after = (before' ++ search ++ between).drop (before ++ search).length ++ (search ++ rest) := by
            have hdrop := congrArg (List.drop (before ++ search).length) (htext.symm.trans hplaces)
            rw [List.drop_left] at hdrop
            rw [hdrop, List.append_assoc _ search rest, List.drop_append_of_le_length]
            simp only [List.length_append]
            omega
          exact ⟨_, rest, by rw [List.append_assoc]; exact hafter⟩
      show 1 + count search after ≤ 1 ↔ _
      rw [← hbehind]
      omega

/-- The one place is the first one. -/
theorem replaceFirst_of_once (new : List Char) (h : OccursOnce search text) (htext : text = before ++ search ++ after) :
    replaceFirst search new text = before ++ new ++ after := by
  rw [replaceFirst]
  cases hcut : cut search text with
  | none => exact absurd h.1 (cut_eq_none.1 hcut)
  | some parts =>
      have hfirst := (cut_eq_some hcut).1
      have hbefore : parts.1 = before := h.2 _ _ _ _ hfirst htext
      have hafter : parts.2 = after := by
        have hsame := hfirst.symm.trans htext
        rw [hbefore] at hsame
        exact List.append_cancel_left hsame
      simp only [hbefore, hafter]

end Text
end Lib
