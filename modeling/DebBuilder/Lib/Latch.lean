import Mathlib

/-!
# Latches

A latch reads a sequence of events. An event of one kind sets it, an event of another
kind clears it, and between the two it stays as it is. `Latch.On` says of a whole
sequence that the latch is set at its end; `Latch.on_concat` is the step that a machine
with one bit of memory makes.
-/

namespace Lib

variable {α : Type}

/-- What sets a latch and what clears it. No event does both. -/
structure Latch (α : Type) where
  sets : α → Prop
  clears : α → Prop
  exclusive : ∀ a, sets a → ¬ clears a

namespace Latch
variable (latch : Latch α) {events : List α} {a : α}

/-- Some event set the latch and none after it cleared it. -/
def On (events : List α) : Prop :=
  ∃ before a after, events = before ++ a :: after ∧ latch.sets a ∧ ∀ b ∈ after, ¬ latch.clears b

@[simp] theorem not_on_nil : ¬ latch.On [] := by
  rintro ⟨before, a, after, h, -⟩
  simp at h

theorem on_concat_of_sets (h : latch.sets a) : latch.On (events ++ [a]) :=
  ⟨events, a, [], rfl, h, fun _ hb => nomatch hb⟩

theorem On.concat (h : latch.On events) (ha : ¬ latch.clears a) : latch.On (events ++ [a]) := by
  obtain ⟨before, b, after, rfl, hb, hafter⟩ := h
  refine ⟨before, b, after ++ [a], by simp, hb, ?_⟩
  intro c hc
  rcases List.mem_append.1 hc with hc | hc
  · exact hafter c hc
  · rw [List.mem_singleton.1 hc]
    exact ha

/-- What set the latch is the last event or an earlier one that the last did not clear. -/
theorem on_concat : latch.On (events ++ [a]) ↔ latch.sets a ∨ (latch.On events ∧ ¬ latch.clears a) := by
  constructor
  · rintro ⟨before, b, after, hsplit, hb, hafter⟩
    induction after using List.reverseRecOn with
    | nil =>
        obtain ⟨-, rfl⟩ := List.append_inj' hsplit rfl |>.imp_right List.singleton_inj.1
        exact .inl hb
    | append_singleton after c _ =>
        rw [← List.cons_append, ← List.append_assoc] at hsplit
        obtain ⟨rfl, rfl⟩ := List.append_inj' hsplit rfl |>.imp_right List.singleton_inj.1
        have hlast : ¬ latch.clears a := hafter a (by simp)
        exact .inr ⟨⟨before, b, after, rfl, hb, fun d hd => hafter d (by simp [hd])⟩, hlast⟩
  · rintro (h | ⟨h, ha⟩)
    · exact latch.on_concat_of_sets h
    · exact h.concat latch ha

/-- A latch that is set listens to what clears it, one that is clear to what sets it. -/
theorem on_concat_of_on (h : latch.On events) : latch.On (events ++ [a]) ↔ ¬ latch.clears a := by
  rw [latch.on_concat]
  constructor
  · rintro (ha | ⟨-, ha⟩)
    · exact latch.exclusive a ha
    · exact ha
  · intro ha
    exact .inr ⟨h, ha⟩

theorem on_concat_of_not_on (h : ¬ latch.On events) : latch.On (events ++ [a]) ↔ latch.sets a := by
  simp [latch.on_concat, h]

end Latch
end Lib
