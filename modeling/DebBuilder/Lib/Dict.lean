import Mathlib

/-!
# Insertion-ordered dictionaries

A dictionary is an association list without duplicate keys.  `AList.insert` puts a
new key first, so `items` reads the list from its end: a key keeps the place of its
first insertion, as in the language of the source.

## Main definitions

* `Dict κ ν` — dictionaries from `κ` to `ν`.
* `Dict.set`, `Dict.setDefault` — assignment, and insertion of a missing key.
* `Dict.items` — the pairs in insertion order.
-/

namespace Lib

/-- A dictionary from `κ` to `ν`. -/
abbrev Dict (κ ν : Type) := AList fun _ : κ => ν

namespace Dict
variable {κ ν : Type} {d : Dict κ ν} {k k' : κ} {v : ν}

/-- The pairs of a dictionary, oldest key first. -/
def items (d : Dict κ ν) : List (κ × ν) := d.entries.reverse.map fun e => (e.1, e.2)

theorem mem_of_mem_items {e : κ × ν} (h : e ∈ items d) : e.1 ∈ d := by
  simp only [items, List.mem_map, List.mem_reverse] at h
  obtain ⟨p, hp, rfl⟩ := h
  exact AList.mem_keys.2 (List.mem_map_of_mem hp)

theorem mem_items [DecidableEq κ] {e : κ × ν} : e ∈ items d ↔ d.lookup e.1 = some e.2 := by
  rw [← Option.mem_def, AList.mem_lookup_iff]
  simp only [items, List.mem_map, List.mem_reverse]
  constructor
  · rintro ⟨p, hp, rfl⟩
    exact hp
  · exact fun h => ⟨_, h, rfl⟩

theorem exists_mem_items (h : k ∈ d) : ∃ v, (k, v) ∈ items d := by
  obtain ⟨p, hp, rfl⟩ := List.mem_map.1 (AList.mem_keys.1 h)
  exact ⟨p.2, List.mem_map.2 ⟨p, List.mem_reverse.2 hp, rfl⟩⟩

theorem items_injective {d d' : Dict κ ν} (h : items d = items d') : d = d' := by
  apply AList.ext
  have hinjective : Function.Injective fun e : (_ : κ) × ν => (e.1, e.2) := by
    rintro ⟨key, value⟩ ⟨key', value'⟩ heq
    cases heq
    rfl
  simpa [items, hinjective.list_map.eq_iff] using h

theorem nodup_items (d : Dict κ ν) : ((items d).map Prod.fst).Nodup := by
  have hkeys : (items d).map Prod.fst = d.keys.reverse := by
    simp [items, AList.keys, List.keys, Function.comp_def]
  rw [hkeys, List.nodup_reverse]
  exact d.keys_nodup

variable [DecidableEq κ]

/-- `d[k] = v`: a key that is present keeps its place. -/
def set (d : Dict κ ν) (k : κ) (v : ν) : Dict κ ν :=
  if k ∈ d then d.replace k v else d.insert k v

/-- `d.setdefault(k, v)`. -/
def setDefault (d : Dict κ ν) (k : κ) (v : ν) : Dict κ ν :=
  if k ∈ d then d else d.insert k v

@[simp] theorem mem_set : k' ∈ set d k v ↔ k' = k ∨ k' ∈ d := by
  by_cases h : k ∈ d
  · simp only [set, if_pos h, AList.mem_replace]
    exact ⟨.inr, fun h' => h'.elim (fun e => e ▸ h) id⟩
  · simp [set, if_neg h]

@[simp] theorem mem_setDefault : k' ∈ setDefault d k v ↔ k' = k ∨ k' ∈ d := by
  by_cases h : k ∈ d
  · simp only [setDefault, if_pos h]
    exact ⟨.inr, fun h' => h'.elim (fun e => e ▸ h) id⟩
  · simp [setDefault, if_neg h]

theorem lookup_setDefault_of_ne (h : k' ≠ k) : (setDefault d k v).lookup k' = d.lookup k' := by
  unfold setDefault
  split
  · rfl
  · exact AList.lookup_insert_ne h

theorem lookup_setDefault {w : ν} (h : (setDefault d k v).lookup k' = some w) :
    d.lookup k' = some w ∨ k' = k ∧ v = w := by
  unfold setDefault at h
  split at h
  · exact .inl h
  · rcases eq_or_ne k' k with rfl | hne
    · rw [AList.lookup_insert, Option.some.injEq] at h
      exact .inr ⟨rfl, h⟩
    · exact .inl (AList.lookup_insert_ne hne ▸ h)

theorem dlookup_cons_of_ne {key : κ} {w : ν} {l : List (Sigma fun _ : κ => ν)} (h : k' ≠ key) :
    List.dlookup k' (⟨key, w⟩ :: l) = l.dlookup k' := List.dlookup_cons_ne l ⟨key, w⟩ h

theorem dlookup_kreplace (l : List (Sigma fun _ : κ => ν)) :
    (List.kreplace k v l).dlookup k' = if k' = k ∧ k ∈ l.keys then some v else l.dlookup k' := by
  induction l with
  | nil => simp [List.kreplace]
  | cons e l ih =>
      obtain ⟨key, w⟩ := e
      by_cases hk : k = key
      · subst hk
        have hcons : List.kreplace k v (⟨k, w⟩ :: l) = ⟨k, v⟩ :: l := by simp [List.kreplace]
        rw [hcons]
        by_cases hk' : k' = k
        · subst hk'
          simp
        · rw [dlookup_cons_of_ne hk', dlookup_cons_of_ne hk']
          simp [hk']
      · have hcons : List.kreplace k v (⟨key, w⟩ :: l) = ⟨key, w⟩ :: List.kreplace k v l := by
          simp [List.kreplace, hk]
        rw [hcons]
        by_cases hk' : k' = key
        · subst hk'
          simp [Ne.symm hk]
        · rw [dlookup_cons_of_ne hk', dlookup_cons_of_ne hk', ih]
          simp [hk]

/-- An assignment is read back under its key only. -/
theorem lookup_set : (set d k v).lookup k' = if k' = k then some v else d.lookup k' := by
  unfold set
  split
  · next h =>
    rw [AList.lookup, AList.replace, dlookup_kreplace]
    simp only [AList.mem_keys, AList.keys] at h
    simp [h, AList.lookup]
  · by_cases hk : k' = k
    · subst hk
      simp
    · rw [AList.lookup_insert_ne hk]
      simp [hk]

theorem set_insert (d : Dict κ ν) (k : κ) (v w : ν) : set (d.insert k v) k w = d.insert k w := by
  rw [set, if_pos (AList.mem_insert d |>.2 (.inl rfl))]
  apply AList.ext
  simp [AList.replace, AList.insert, List.kinsert, List.kreplace]

/-! ## Dictionaries and their pairs -/

theorem items_insert (h : k ∉ d) : items (d.insert k v) = items d ++ [(k, v)] := by
  rw [items, AList.insert_of_notMem h]
  simp [items]

/-- Pairs with new keys are appended. -/
theorem items_foldl_insert (pairs : List (κ × ν)) (hfresh : ∀ e ∈ pairs, e.1 ∉ d)
    (hdistinct : (pairs.map Prod.fst).Nodup) :
    items (pairs.foldl (fun d e => d.insert e.1 e.2) d) = items d ++ pairs := by
  induction pairs generalizing d with
  | nil => simp
  | cons e pairs ih =>
      have hnodup := List.nodup_cons.1 hdistinct
      rw [List.foldl_cons, ih _ hnodup.2, items_insert (hfresh e (List.mem_cons_self ..))]
      · simp
      · intro other hmem hinsert
        rcases (AList.mem_insert d).1 hinsert with hsame | hold
        · exact hnodup.1 (List.mem_map.2 ⟨other, hmem, hsame⟩)
        · exact hfresh other (List.mem_cons_of_mem _ hmem) hold

/-- A dictionary is built by its pairs, in order. -/
theorem foldl_items (d : Dict κ ν) : (items d).foldl (fun d e => d.insert e.1 e.2) ∅ = d := by
  apply items_injective
  rw [items_foldl_insert _ (fun _ _ => AList.notMem_empty _) (nodup_items d)]
  rfl

/-- The last pair was inserted last. -/
theorem exists_insert {init : List (κ × ν)} {e : κ × ν} (h : items d = init ++ [e]) :
    ∃ d' : Dict κ ν, items d' = init ∧ e.1 ∉ d' ∧ d = d'.insert e.1 e.2 := by
  have hnodup := nodup_items d
  rw [h, List.map_append, List.nodup_append] at hnodup
  have hitems := items_foldl_insert (d := ∅) init (fun _ _ => AList.notMem_empty _) hnodup.1
  have hfresh : e.1 ∉ init.foldl (fun d e => d.insert e.1 e.2) (∅ : Dict κ ν) := by
    intro hmem
    obtain ⟨value, hvalue⟩ := exists_mem_items hmem
    rw [hitems] at hvalue
    have hinit : e.1 ∈ init.map Prod.fst := List.mem_map.2 ⟨_, hvalue, rfl⟩
    exact hnodup.2.2 e.1 hinit e.1 (by simp) rfl
  refine ⟨_, hitems, hfresh, items_injective ?_⟩
  rw [items_insert hfresh, h, hitems]
  rfl

end Dict
end Lib
