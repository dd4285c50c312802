import Mathlib

/-!
# Fields of a byte string

Little-endian fields and terminated names at places of a byte string, what overwriting does to
them, and what they read where single bytes are marked.

## Main definitions

* `Bytes.little`, `Bytes.cstring` — a field, and a name up to its terminator.
* `Bytes.overwrite` — the string with other bytes at a place.
* `Bytes.Marked` — two strings that differ at marked bytes only.
-/

namespace Lib
namespace Bytes

/-- The little-endian number in the bytes from a place on. -/
def little (data : List UInt8) (start : Nat) : Nat → Nat
  | 0 => 0
  | width + 1 => little data start width + 256 ^ width * (data.getD (start + width) 0).toNat

/-- The bytes up to the first zero among the next ones. -/
def cstring (data : List UInt8) (start : Nat) : Nat → Option (List UInt8)
  | 0 => none
  | room + 1 =>
      match data[start]? with
      | none => none
      | some byte => if byte = 0 then some [] else (cstring data (start + 1) room).map (byte :: ·)

/-- The string with other bytes at a place. -/
def overwrite (data : List UInt8) (offset : Nat) (bytes : List UInt8) : List UInt8 :=
  data.take offset ++ (bytes ++ data.drop (offset + bytes.length))

/-! ## Overwriting -/

section
variable {data bytes : List UInt8} {offset i : Nat}

theorem getElem?_overwrite_lt (h : i < offset) (hfits : offset ≤ data.length) : (overwrite data offset bytes)[i]? = data[i]? := by
  have hlength : i < (data.take offset).length := by
    rw [List.length_take]
    omega
  rw [overwrite, List.getElem?_append_left hlength, List.getElem?_take_of_lt h]

theorem getElem?_overwrite_add (h : i < bytes.length) (hfits : offset ≤ data.length) :
    (overwrite data offset bytes)[offset + i]? = bytes[i]? := by
  have hlength : (data.take offset).length = offset := by
    rw [List.length_take]
    omega
  rw [overwrite, List.getElem?_append_right (by omega), hlength, Nat.add_sub_cancel_left, List.getElem?_append_left h]

theorem getElem?_overwrite_ge (h : offset + bytes.length ≤ i) (hfits : offset ≤ data.length) :
    (overwrite data offset bytes)[i]? = data[i]? := by
  have hlength : (data.take offset).length = offset := by
    rw [List.length_take]
    omega
  rw [overwrite, List.getElem?_append_right (by omega), hlength, List.getElem?_append_right (by omega), List.getElem?_drop]
  congr 1
  omega

end

/-! ## Fields -/

section
variable {data data' : List UInt8} {start : Nat}

/-- A field depends on its own bytes. -/
theorem little_congr {width : Nat} (h : ∀ i, start ≤ i → i < start + width → data'[i]? = data[i]?) :
    little data' start width = little data start width := by
  induction width with
  | zero => rfl
  | succ width ih =>
      have hbyte : data'[start + width]? = data[start + width]? := h _ (by omega) (by omega)
      rw [little, little, ih fun i hle hlt => h i hle (by omega)]
      simp only [List.getD_eq_getElem?_getD, hbyte]

/-- A small number in eight bytes stands in the first of them. -/
theorem getD_of_little_eq {n : Nat} (h : little data start 8 = n) (hn : n < 256) :
    (data.getD start 0).toNat = n ∧ ∀ k, 0 < k → k < 8 → (data.getD (start + k) 0).toNat = 0 := by
  have hbyte : ∀ k, (data.getD (start + k) 0).toNat < 256 := fun k => UInt8.toNat_lt _
  have h0 := hbyte 0
  simp only [little, Nat.add_zero] at h h0
  refine ⟨by omega, fun k hpos hlt => ?_⟩
  have hk : k = 1 ∨ k = 2 ∨ k = 3 ∨ k = 4 ∨ k = 5 ∨ k = 6 ∨ k = 7 := by omega
  rcases hk with rfl | rfl | rfl | rfl | rfl | rfl | rfl <;> omega

/-- The number of eight bytes of which the first is the only one that is not zero. -/
theorem little_of_getD {n : Nat} (hfirst : (data.getD start 0).toNat = n)
    (hrest : ∀ k, 0 < k → k < 8 → (data.getD (start + k) 0).toNat = 0) : little data start 8 = n := by
  have h1 := hrest 1 (by omega) (by omega)
  have h2 := hrest 2 (by omega) (by omega)
  have h3 := hrest 3 (by omega) (by omega)
  have h4 := hrest 4 (by omega) (by omega)
  have h5 := hrest 5 (by omega) (by omega)
  have h6 := hrest 6 (by omega) (by omega)
  have h7 := hrest 7 (by omega) (by omega)
  simp only [little, Nat.add_zero]
  omega

end

/-! ## Marked bytes -/

/-- Two strings that are the same but for the bytes at some places, each of which was one byte and
is another. -/
structure Marked (old new : UInt8) (places : List Nat) (data data' : List UInt8) : Prop where
  marked : ∀ i ∈ places, data[i]? = some old ∧ data'[i]? = some new
  unmarked : ∀ i, i ∉ places → data'[i]? = data[i]?

namespace Marked
variable {old new : UInt8} {places : List Nat} {data data' : List UInt8}

theorem refl : Marked old new [] data data := ⟨nofun, fun _ _ => rfl⟩

theorem length_eq (h : Marked old new places data data') : data'.length = data.length := by
  have hnone : ∀ i : Nat, data'[i]? = none ↔ data[i]? = none := by
    intro i
    by_cases hi : i ∈ places
    · simp [h.marked i hi]
    · rw [h.unmarked i hi]
  have hle := List.getElem?_eq_none_iff.1 ((hnone data.length).2 (List.getElem?_eq_none_iff.2 (Nat.le_refl _)))
  have hge := List.getElem?_eq_none_iff.1 ((hnone data'.length).1 (List.getElem?_eq_none_iff.2 (Nat.le_refl _)))
  omega

/-- Where the strings differ there is a mark. -/
theorem mem_of_ne (h : Marked old new places data data') {i : Nat} (hne : data'[i]? ≠ data[i]?) : i ∈ places := by
  by_contra hi
  exact hne (h.unmarked i hi)

/-- A field without a mark is the same. -/
theorem little_eq (h : Marked old new places data data') {start width : Nat}
    (hfree : ∀ i ∈ places, i < start ∨ start + width ≤ i) : little data' start width = little data start width := by
  apply little_congr
  intro i hle hlt
  apply h.unmarked
  intro hi
  rcases hfree i hi with hbelow | habove <;> omega

/-- Marks do not end a name. -/
theorem exists_cstring (h : Marked old new places data data') (hold : old ≠ 0) (hnew : new ≠ 0) {start room : Nat}
    {name' : List UInt8} (hname : cstring data' start room = some name') :
    ∃ name, cstring data start room = some name ∧ ∀ byte ∈ name, byte = old ∨ byte ∈ name' := by
  induction room generalizing start name' with
  | zero => exact nomatch hname
  | succ room ih =>
      by_cases hi : start ∈ places
      · obtain ⟨hdata, hdata'⟩ := h.marked start hi
        simp only [cstring, hdata', if_neg hnew, Option.map_eq_some_iff] at hname
        obtain ⟨rest', hrest', rfl⟩ := hname
        obtain ⟨rest, hrest, hbytes⟩ := ih hrest'
        refine ⟨old :: rest, by simp [cstring, hdata, hold, hrest], ?_⟩
        intro byte hbyte
        rcases List.mem_cons.1 hbyte with rfl | hbyte
        · exact .inl rfl
        · exact (hbytes byte hbyte).imp_right (List.mem_cons_of_mem _)
      · simp only [cstring, h.unmarked start hi] at hname ⊢
        cases hbyte : data[start]? with
        | none => simp [hbyte] at hname
        | some first =>
            simp only [hbyte] at hname ⊢
            by_cases hzero : first = 0
            · exact ⟨[], by simp [hzero], nofun⟩
            · rw [if_neg hzero] at hname ⊢
              obtain ⟨rest', hrest', rfl⟩ := Option.map_eq_some_iff.1 hname
              obtain ⟨rest, hrest, hbytes⟩ := ih hrest'
              refine ⟨first :: rest, by rw [hrest, Option.map_some], ?_⟩
              intro byte hmem
              rcases List.mem_cons.1 hmem with rfl | hmem
              · exact .inr List.mem_cons_self
              · exact (hbytes byte hmem).imp_right (List.mem_cons_of_mem _)

/-- A name without a mark is the same. -/
theorem cstring_eq (h : Marked old new places data data') (hold : old ≠ 0) {start room : Nat} {name : List UInt8}
    (hname : cstring data start room = some name) (hfree : ∀ i ∈ places, i < start ∨ start + name.length ≤ i) :
    cstring data' start room = some name := by
  induction room generalizing start name with
  | zero => exact nomatch hname
  | succ room ih =>
      have hstart : start ∉ places := by
        intro hi
        -- The terminator is no place that is marked.
        have hdata := (h.marked start hi).1
        simp only [cstring, hdata, if_neg hold, Option.map_eq_some_iff] at hname
        obtain ⟨rest, -, rfl⟩ := hname
        rcases hfree start hi with hbelow | habove
        · omega
        · rw [List.length_cons] at habove
          omega
      simp only [cstring, h.unmarked start hstart] at hname ⊢
      cases hbyte : data[start]? with
      | none => simp [hbyte] at hname
      | some byte =>
          simp only [hbyte] at hname ⊢
          by_cases hzero : byte = 0
          · simpa [hzero] using hname
          · rw [if_neg hzero] at hname ⊢
            obtain ⟨rest, hrest, rfl⟩ := Option.map_eq_some_iff.1 hname
            have hfree' : ∀ i ∈ places, i < start + 1 ∨ start + 1 + rest.length ≤ i := by
              intro i hi
              have hne : i ≠ start := fun heq => hstart (heq ▸ hi)
              rcases hfree i hi with hbelow | habove
              · omega
              · rw [List.length_cons] at habove
                omega
            rw [ih hrest hfree', Option.map_some]

end Marked

end Bytes
end Lib
