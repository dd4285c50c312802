import Mathlib

/-!
# Journals

A journal lists what has happened, oldest first, and only grows. Two things are said of
a journal as a whole: that every entry was warranted by those before it, and how an
earlier journal of the same run was extended.

## Main definitions

* `Warranted W journal`: `W before a` holds of every entry `a`.
* `Extends P before after`: `after` continues `before` with entries that meet `P`.
-/

namespace Lib

variable {α : Type} {W : List α → α → Prop} {P Q : α → Prop} {a : α} {journal journal' journal'' : List α}

/-- Every entry is warranted by the entries before it. -/
def Warranted (W : List α → α → Prop) (journal : List α) : Prop :=
  ∀ before a after, journal = before ++ a :: after → W before a

theorem warranted_nil : Warranted W [] := by
  intro before a after h
  simp at h

/-- A new entry is last, or the entries before it are those of the old journal. -/
theorem warranted_concat : Warranted W (journal ++ [a]) ↔ Warranted W journal ∧ W journal a := by
  constructor
  · intro h
    refine ⟨?_, h journal a [] rfl⟩
    rintro before b after rfl
    exact h before b (after ++ [a]) (by simp)
  · rintro ⟨h, ha⟩ before b after hsplit
    rcases List.eq_nil_or_concat after with rfl | ⟨rest, c, rfl⟩
    · obtain ⟨rfl, hb⟩ := List.append_inj' hsplit rfl
      obtain rfl := List.singleton_inj.1 hb
      exact ha
    · have hlast : journal ++ [a] = (before ++ b :: rest) ++ [c] := by simpa using hsplit
      obtain ⟨hpre, -⟩ := List.append_inj' hlast rfl
      exact h before b rest hpre

/-- The journal was continued, and every new entry meets `P`. -/
def Extends (P : α → Prop) (journal journal' : List α) : Prop :=
  ∃ added, journal' = journal ++ added ∧ ∀ a ∈ added, P a

namespace Extends

theorem refl : Extends P journal journal := ⟨[], by simp, by simp⟩

theorem concat (h : P a) : Extends P journal (journal ++ [a]) := ⟨[a], rfl, by simpa using h⟩

theorem mono (h : Extends P journal journal') (himp : ∀ a, P a → Q a) : Extends Q journal journal' := by
  obtain ⟨added, rfl, hadded⟩ := h
  exact ⟨added, rfl, fun a ha => himp a (hadded a ha)⟩

theorem trans (h : Extends P journal journal') (h' : Extends P journal' journal'') :
    Extends P journal journal'' := by
  obtain ⟨added, rfl, hadded⟩ := h
  obtain ⟨more, rfl, hmore⟩ := h'
  refine ⟨added ++ more, by simp, ?_⟩
  intro a ha
  rcases List.mem_append.1 ha with ha | ha
  · exact hadded a ha
  · exact hmore a ha

theorem mem (h : Extends P journal journal') (ha : a ∈ journal) : a ∈ journal' := by
  obtain ⟨added, rfl, -⟩ := h
  exact List.mem_append_left _ ha

end Extends
end Lib
