import Mathlib
import DebBuilder.Lib.Chunks
import DebBuilder.Lib.Occurrences

/-!
# Replacing all occurrences

`str.replace` goes from left to right and continues behind what it replaced.  When a text comes
in chunks, the chunks can be treated one by one as long as nothing that is replaced lies across
a cut; and what is replaced by a text that it shares no character with is gone.

## Main definitions

* `Text.replace` — `text.replace(search, new)`.
* `Text.Uncut` — nothing that is replaced lies across the cut.

## Main statements

* `replace_append`, `uncut_of_replace` — the cuts at which a text may be treated in two parts.
* `not_occurs_replace`, `occurs_of_replace` — what occurs in the text that results.
-/

namespace Lib
namespace Text

variable {search new text x y z : List Char} {skip : Nat}

/-- What is left to write of a text, after `skip` characters that are replaced. -/
def replaceFrom (search new : List Char) : Nat → List Char → List Char
  | _, [] => []
  | skip + 1, _ :: cs => replaceFrom search new skip cs
  | 0, c :: cs =>
      if search <+: c :: cs then new ++ replaceFrom search new (search.length - 1) cs
      else c :: replaceFrom search new 0 cs

/-- `text.replace(search, new)`, of a search text that is not empty. -/
def replace (search new text : List Char) : List Char := replaceFrom search new 0 text

example : replace "aa".toList "b".toList "aaaca".toList = "baca".toList := by decide +kernel

/-- What is replaced ends at or before the cut of `x ++ y`, after `skip` characters. -/
def UncutFrom (search y : List Char) : Nat → List Char → Prop
  | skip, [] => skip = 0
  | skip + 1, _ :: cs => UncutFrom search y skip cs
  | 0, c :: cs =>
      if search <+: c :: (cs ++ y) then UncutFrom search y (search.length - 1) cs else UncutFrom search y 0 cs

/-- Nothing that is replaced in `x ++ y` lies across the cut. -/
def Uncut (search x y : List Char) : Prop := UncutFrom search y 0 x

instance decidableUncutFrom (search y : List Char) : ∀ skip x, Decidable (UncutFrom search y skip x)
  | skip, [] => inferInstanceAs (Decidable (skip = 0))
  | skip + 1, _ :: cs => decidableUncutFrom search y skip cs
  | 0, c :: cs =>
      have := decidableUncutFrom search y (search.length - 1) cs
      have := decidableUncutFrom search y 0 cs
      inferInstanceAs (Decidable (if search <+: c :: (cs ++ y) then UncutFrom search y (search.length - 1) cs
        else UncutFrom search y 0 cs))

instance (search x y : List Char) : Decidable (Uncut search x y) := decidableUncutFrom search y 0 x

/-! ## The cuts -/

theorem UncutFrom.skip_le (h : UncutFrom search y skip x) : skip ≤ x.length := by
  induction x generalizing skip with
  | nil => exact Nat.le_of_eq h
  | cons c cs ih =>
      cases skip with
      | zero => exact Nat.zero_le _
      | succ skip => exact Nat.succ_le_succ (ih h)

/-- What fits before the cut is found before it. -/
theorem prefix_of_fits (hbegins : search <+: x ++ y) (hlength : search.length ≤ x.length) : search <+: x :=
  List.prefix_of_prefix_length_le hbegins (List.prefix_append x y) hlength

theorem replaceFrom_append (h : UncutFrom search y skip x) :
    replaceFrom search new skip (x ++ y) = replaceFrom search new skip x ++ replaceFrom search new 0 y := by
  induction x generalizing skip with
  | nil =>
      obtain rfl : skip = 0 := h
      rfl
  | cons c cs ih =>
      cases skip with
      | succ skip => exact ih h
      | zero =>
          rw [UncutFrom] at h
          rw [List.cons_append, replaceFrom, replaceFrom]
          by_cases hmatch : search <+: c :: (cs ++ y)
          · rw [if_pos hmatch] at h
            have hfits : search.length ≤ (c :: cs).length := by
              have hskip := h.skip_le
              simp only [List.length_cons]
              omega
            have hinside : search <+: c :: cs := prefix_of_fits hmatch hfits
            rw [if_pos hmatch, if_pos hinside, ih h, List.append_assoc]
          · rw [if_neg hmatch] at h
            have hnot : ¬ search <+: c :: cs := fun hinside => hmatch (hinside.trans (List.prefix_append _ _))
            rw [if_neg hmatch, if_neg hnot, ih h, List.cons_append]

/-- A text is treated in two parts when nothing that is replaced lies across the cut. -/
theorem replace_append (h : Uncut search x y) :
    replace search new (x ++ y) = replace search new x ++ replace search new y := replaceFrom_append h

theorem uncutFrom_of_replaceFrom (hnew : new ≠ []) (hhead : search.head? ≠ new.head?) (hskip : skip ≤ x.length)
    (h : replaceFrom search new skip (x ++ y) = replaceFrom search new skip x ++ z) : UncutFrom search y skip x := by
  induction x generalizing skip with
  | nil => exact Nat.le_zero.1 hskip
  | cons c cs ih =>
      cases skip with
      | succ skip => exact ih (Nat.le_of_succ_le_succ hskip) h
      | zero =>
          rw [List.cons_append, replaceFrom, replaceFrom] at h
          rw [UncutFrom]
          by_cases hmatch : search <+: c :: (cs ++ y)
          · rw [if_pos hmatch] at h ⊢
            by_cases hfits : search.length ≤ (c :: cs).length
            · rw [if_pos (prefix_of_fits hmatch hfits), List.append_assoc] at h
              refine ih ?_ (List.append_cancel_left h)
              simp only [List.length_cons] at hfits
              omega
            · -- the cut is inside what is replaced: one text has the new text here, the other its beginning
              have hnot : ¬ search <+: c :: cs := fun hinside => hfits hinside.length_le
              rw [if_neg hnot] at h
              exfalso
              apply hhead
              obtain ⟨d, new, rfl⟩ := List.exists_cons_of_ne_nil hnew
              obtain rfl : d = c := (List.cons.inj h).1
              cases search with
              | nil => exact absurd (Nat.zero_le _) hfits
              | cons s search =>
                  obtain ⟨rest, hrest⟩ := hmatch
                  rw [(List.cons.inj hrest).1]
                  rfl
          · rw [if_neg hmatch] at h ⊢
            have hnot : ¬ search <+: c :: cs := fun hinside => hmatch (hinside.trans (List.prefix_append _ _))
            rw [if_neg hnot] at h
            exact ih (Nat.zero_le _) (List.cons.inj h).2

/-- A cut through what is replaced shows, when the new text begins with another character. -/
theorem uncut_of_replace (hnew : new ≠ []) (hhead : search.head? ≠ new.head?)
    (h : replace search new (x ++ y) = replace search new x ++ z) : Uncut search x y :=
  uncutFrom_of_replaceFrom hnew hhead (Nat.zero_le _) h

/-! ## What occurs afterwards -/

variable {found : List Char}

/-- Behind a text that shares no character with it, an occurrence lies in the rest. -/
theorem infix_of_disjoint (hfound : found ≠ []) (hdisjoint : found.Disjoint new) (h : found <:+: new ++ text) :
    found <:+: text := by
  obtain ⟨before, after, heq⟩ := h
  rw [List.append_assoc] at heq
  obtain ⟨middle, hbefore, hrest⟩ | ⟨middle, hnew, hrest⟩ := List.append_eq_append_iff.1 heq
  · cases middle with
    | nil => exact ⟨[], after, by simpa using hrest⟩
    | cons c middle =>
        -- the first character of the occurrence is one of the new text
        obtain ⟨d, found, rfl⟩ := List.exists_cons_of_ne_nil hfound
        obtain rfl : d = c := by
          simp only [List.cons_append, List.cons.injEq] at hrest
          exact hrest.1
        exact absurd (by simp [hbefore]) (hdisjoint List.mem_cons_self)
  · exact ⟨middle, after, by rw [hrest, List.append_assoc]⟩

/-- What the result begins with, apart from the new text, the text began with. -/
theorem prefix_of_replace (hnew : new ≠ []) (hdisjoint : found.Disjoint new) (h : found <+: replace search new text) :
    found <+: text := by
  induction text generalizing found with
  | nil => exact h
  | cons c cs ih =>
      cases found with
      | nil => exact List.nil_prefix
      | cons d found =>
          rw [replace, replaceFrom] at h
          by_cases hmatch : search <+: c :: cs
          · rw [if_pos hmatch] at h
            obtain ⟨e, new, rfl⟩ := List.exists_cons_of_ne_nil hnew
            obtain ⟨rest, hrest⟩ := h
            obtain rfl : d = e := (List.cons.inj hrest).1
            exact absurd List.mem_cons_self (hdisjoint List.mem_cons_self)
          · rw [if_neg hmatch] at h
            obtain ⟨rfl, htail⟩ := List.cons_prefix_cons.1 h
            exact List.cons_prefix_cons.2 ⟨rfl, ih (List.disjoint_of_disjoint_cons_left hdisjoint) htail⟩

theorem infix_of_replaceFrom (hfound : found ≠ []) (hnew : new ≠ []) (hdisjoint : found.Disjoint new)
    (h : found <:+: replaceFrom search new skip text) : found <:+: text := by
  induction text generalizing skip with
  | nil => exact h
  | cons c cs ih =>
      cases skip with
      | succ skip => exact (ih h).trans (List.suffix_cons c cs).isInfix
      | zero =>
          rw [replaceFrom] at h
          by_cases hmatch : search <+: c :: cs
          · rw [if_pos hmatch] at h
            exact (ih (infix_of_disjoint hfound hdisjoint h)).trans (List.suffix_cons c cs).isInfix
          · have hresult : replaceFrom search new 0 (c :: cs) = c :: replaceFrom search new 0 cs := by
              rw [replaceFrom, if_neg hmatch]
            rw [if_neg hmatch] at h
            rcases List.infix_cons_iff.1 h with hhead | htail
            · rw [← hresult] at hhead
              exact (prefix_of_replace hnew hdisjoint hhead).isInfix
            · exact (ih htail).trans (List.suffix_cons c cs).isInfix

theorem not_infix_replaceFrom (hsearch : search ≠ []) (hnew : new ≠ []) (hdisjoint : search.Disjoint new) :
    ¬ search <:+: replaceFrom search new skip text := by
  induction text generalizing skip with
  | nil => simpa [replaceFrom] using hsearch
  | cons c cs ih =>
      cases skip with
      | succ skip => exact ih
      | zero =>
          intro h
          have hwhole := h
          rw [replaceFrom] at h
          by_cases hmatch : search <+: c :: cs
          · rw [if_pos hmatch] at h
            exact ih (infix_of_disjoint hsearch hdisjoint h)
          · have hresult : replaceFrom search new 0 (c :: cs) = c :: replaceFrom search new 0 cs := by
              rw [replaceFrom, if_neg hmatch]
            rw [if_neg hmatch] at h
            rcases List.infix_cons_iff.1 h with hhead | htail
            · rw [← hresult] at hhead
              exact hmatch (prefix_of_replace hnew hdisjoint hhead)
            · exact ih htail

theorem occurs_iff_isInfix : Occurs found text ↔ found <:+: text := by
  constructor
  · rintro ⟨before, after, rfl⟩
    exact ⟨before, after, rfl⟩
  · rintro ⟨before, after, rfl⟩
    exact ⟨before, after, rfl⟩

/-- What is replaced by a text that it shares no character with does not occur any more. -/
theorem not_occurs_replace (hsearch : search ≠ []) (hnew : new ≠ []) (hdisjoint : search.Disjoint new) :
    ¬ Occurs search (replace search new text) := by
  rw [occurs_iff_isInfix]
  exact not_infix_replaceFrom hsearch hnew hdisjoint

/-- Nothing comes up that shares no character with the new text. -/
theorem occurs_of_replace (hfound : found ≠ []) (hnew : new ≠ []) (hdisjoint : found.Disjoint new)
    (h : Occurs found (replace search new text)) : Occurs found text := by
  rw [occurs_iff_isInfix] at h ⊢
  exact infix_of_replaceFrom hfound hnew hdisjoint h

end Text
end Lib
