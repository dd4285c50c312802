import Mathlib
import DebBuilder.Lib.Json

/-!
# Key paths of JSON values

A path leads from a value to a part of it, through keys and positions. A normalisation of a
document loses a key when a path of the document that ends in a key leads nowhere in its
result. What it loses is read off the *shape* of the result: a result that covers the
document can only lose the keys that lie inside what the shape renders as a text.

## Main definitions

* `Json.at?` — the part of a value at a path.
* `Json.Covers` — every key of the one value is a key of the other, position by position.
* `Shape`, `Renders` — which parts of a result are texts, copies, objects and lists.
* `Json.without` — a value without the key at one path.

## Main results

* `Renders.kept_iff` — a key path of the document is lost exactly inside a text.
-/

namespace Lib
namespace Json

/-- One step of a path. -/
inductive Step
  | key (k : String)
  | index (i : Nat)
  deriving DecidableEq, Repr

/-- The part of a value at a path. -/
def at? : Json → List Step → Option Json
  | value, [] => some value
  | value, .key k :: path => (value.fields?.bind (·.lookup k)).bind fun part => part.at? path
  | value, .index i :: path => (value.values?.bind (·[i]?)).bind fun part => part.at? path

/-- A path that leads to a key. -/
def endsInKey : List Step → Bool
  | [] => false
  | [.key _] => true
  | [.index _] => false
  | _ :: s :: path => endsInKey (s :: path)

/-- No key lies inside the value. -/
def Keyless (value : Json) : Prop := ∀ path, endsInKey path = true → value.at? path = none

/-- Every key path of the one value is one of the other. -/
def Kept (value result : Json) : Prop :=
  ∀ path, endsInKey path = true → (value.at? path).isSome → (result.at? path).isSome

variable {value result : Json} {path : List Step} {k : String}

@[simp] theorem at?_nil : value.at? [] = some value := by cases value <;> rfl

theorem at?_key : value.at? (.key k :: path) = (value.fields?.bind (·.lookup k)).bind fun part => part.at? path := by
  cases value <;> rfl

theorem at?_index {i : Nat} :
    value.at? (.index i :: path) = (value.values?.bind (·[i]?)).bind fun part => part.at? path := by
  cases value <;> rfl

theorem endsInKey_cons {s : Step} (h : endsInKey (s :: path) = true) (hpath : path ≠ []) : endsInKey path = true := by
  cases path with
  | nil => exact absurd rfl hpath
  | cons s' path => cases s <;> simpa [endsInKey] using h

theorem Kept.refl : Kept value value := fun _ _ h => h

/-- Values that are neither objects nor lists have no parts. -/
theorem keyless_of_atom (hfields : value.fields? = none) (hvalues : value.values? = none) : Keyless value := by
  intro path hpath
  cases path with
  | nil => simp [endsInKey] at hpath
  | cons s path =>
      cases s with
      | key k => simp [at?_key, hfields]
      | index i => simp [at?_index, hvalues]

@[simp] theorem keyless_null : Keyless null := keyless_of_atom rfl rfl
@[simp] theorem keyless_bool {b : Bool} : Keyless (bool b) := keyless_of_atom rfl rfl
@[simp] theorem keyless_int {n : Int} : Keyless (int n) := keyless_of_atom rfl rfl
@[simp] theorem keyless_str {s : String} : Keyless (str s) := keyless_of_atom rfl rfl
@[simp] theorem keyless_float {v : FloatValue} {shown : String} : Keyless (float v shown) := keyless_of_atom rfl rfl

/-- A list of texts has positions, but no keys. -/
theorem keyless_arr {values : List Json} (h : ∀ v ∈ values, Keyless v) : Keyless (arr values) := by
  intro path hpath
  cases path with
  | nil => simp [endsInKey] at hpath
  | cons s path =>
      cases s with
      | key k => simp [at?_key, fields?]
      | index i =>
          simp only [at?_index, values?, Option.bind_some]
          cases hi : values[i]? with
          | none => rfl
          | some v =>
              have hne : path ≠ [] := by
                rintro rfl
                simp [endsInKey] at hpath
              exact h v (List.mem_of_getElem? hi) path (endsInKey_cons hpath hne)

mutual

/-- Every key of the value is one of the result, where both have the same structure. -/
def Covers : Json → Json → Prop
  | obj fields, result => match result with
      | obj results => CoversFields fields results
      | _ => True
  | arr values, result => match result with
      | arr results => CoversAll values results
      | _ => True
  | _, _ => True

def CoversFields : List (String × Json) → Fields → Prop
  | [], _ => True
  | (k, v) :: fields, results => (∃ r, results.lookup k = some r ∧ Covers v r) ∧ CoversFields fields results

def CoversAll : List Json → List Json → Prop
  | [], _ => True
  | v :: values, results => match results with
      | [] => True
      | r :: results => Covers v r ∧ CoversAll values results

end

theorem CoversFields.lookup {fields results : Fields} (h : CoversFields fields results) {v : Json}
    (hv : fields.lookup k = some v) : ∃ r, results.lookup k = some r ∧ Covers v r := by
  induction fields with
  | nil => simp at hv
  | cons e fields ih =>
      obtain ⟨k', v'⟩ := e
      obtain ⟨hhead, htail⟩ := h
      by_cases hk : k = k'
      · subst hk
        obtain rfl : v' = v := by simpa using hv
        exact hhead
      · have hne : (k == k') = false := by simpa using hk
        rw [List.lookup, hne] at hv
        exact ih htail hv

theorem CoversAll.get {values results : List Json} (h : CoversAll values results) {i : Nat} {v r : Json}
    (hv : values[i]? = some v) (hr : results[i]? = some r) : Covers v r := by
  induction values generalizing results i with
  | nil => simp at hv
  | cons v' values ih =>
      cases results with
      | nil => simp at hr
      | cons r' results =>
          obtain ⟨hhead, htail⟩ := h
          cases i with
          | zero =>
              obtain rfl : v' = v := by simpa using hv
              obtain rfl : r' = r := by simpa using hr
              exact hhead
          | succ i => exact ih htail (by simpa using hv) (by simpa using hr)

/-! ## Shapes -/

/-- How a normalisation renders a part of a document. -/
inductive Shape
  /-- As a text, a number or a flag, whatever the part was. -/
  | text
  /-- As it is. -/
  | verbatim
  | fields (parts : List (String × Shape))
  | each (part : Shape)

/-- Whether a path goes on inside a text. -/
def Shape.insideText : Shape → List Step → Bool
  | .text, path => !path.isEmpty
  | .verbatim, _ => false
  | .fields parts, .key k :: path => match parts.lookup k with
      | some part => part.insideText path
      | none => false
  | .each part, .index _ :: path => part.insideText path
  | _, _ => false

/-- The result renders the value in a shape. -/
inductive Renders : Shape → Json → Json → Prop
  | text {v r : Json} (h : Keyless r) : Renders .text v r
  | verbatim {v r : Json} (h : Kept v r) : Renders .verbatim v r
  | fields {parts : List (String × Shape)} {v : Json} {results : Fields}
      (hvalue : v = null ∨ ∃ fields, v = obj fields)
      (hkeys : ∀ k r, results.lookup k = some r → (parts.lookup k).isSome)
      (h : ∀ k part r, parts.lookup k = some part → results.lookup k = some r → Renders part (v.member k) r) :
      Renders (.fields parts) v (obj results)
  | each {part : Shape} {v : Json} {results : List Json}
      (hvalue : v = null ∨ ∃ values, v = arr values ∧ values.length = results.length)
      (h : ∀ (values : List Json) (i : Nat) (x r : Json), v = arr values → values[i]? = some x → results[i]? = some r → Renders part x r) :
      Renders (.each part) v (arr results)

/-- Of a document that the result covers, a key path is lost exactly inside a text. -/
theorem Renders.kept_iff {shape : Shape} (h : Renders shape value result) (hcovers : Covers value result)
    (hpath : endsInKey path = true) (hvalue : (value.at? path).isSome) :
    (result.at? path).isSome ↔ shape.insideText path = false := by
  induction path generalizing shape value result with
  | nil => simp [endsInKey] at hpath
  | cons s path ih =>
      cases h with
      | text h => simp [h _ hpath, Shape.insideText]
      | verbatim h => simp [h _ hpath hvalue, Shape.insideText]
      | fields hobj hkeys h =>
          rcases hobj with rfl | ⟨fields, rfl⟩
          · rw [keyless_null _ hpath] at hvalue
            simp at hvalue
          · cases s with
            | index i => simp [at?_index, values?] at hvalue
            | key k =>
                simp only [at?_key, fields?, Option.bind_some] at hvalue ⊢
                cases hv : fields.lookup k with
                | none => simp [hv] at hvalue
                | some v =>
                    obtain ⟨r, hr, hcov⟩ := CoversFields.lookup hcovers hv
                    obtain ⟨part, hpart⟩ := Option.isSome_iff_exists.1 (hkeys k r hr)
                    have hrenders : Renders part v r := by simpa [member, get, hv] using h k part r hpart hr
                    simp only [hr, hv, Option.bind_some, Shape.insideText, hpart] at hvalue ⊢
                    by_cases hnil : path = []
                    · subst hnil
                      cases part <;> simp [Shape.insideText]
                    · exact ih hrenders hcov (endsInKey_cons hpath hnil) hvalue
      | @each part _ results hlist h =>
          rcases hlist with rfl | ⟨values, rfl, hlength⟩
          · rw [keyless_null _ hpath] at hvalue
            simp at hvalue
          · cases s with
            | key k => simp [at?_key, fields?] at hvalue
            | index i =>
                simp only [at?_index, values?, Option.bind_some] at hvalue ⊢
                cases hv : values[i]? with
                | none => simp [hv] at hvalue
                | some v =>
                    have hi : i < values.length := (List.getElem?_eq_some_iff.1 hv).1
                    obtain ⟨r, hr⟩ : ∃ r, results[i]? = some r :=
                      ⟨_, List.getElem?_eq_getElem (hlength ▸ hi)⟩
                    simp only [hr, hv, Option.bind_some, Shape.insideText] at hvalue ⊢
                    have hne : path ≠ [] := by
                      rintro rfl
                      simp [endsInKey] at hpath
                    exact ih (h values i v r rfl hv hr) (CoversAll.get hcovers hv hr) (endsInKey_cons hpath hne) hvalue

/-- The results of an object, in the order of the parts of its shape; a part may be absent. -/
inductive Aligned (value : Json) : List (String × Shape) → Fields → Prop
  | nil : Aligned value [] []
  | cons {k : String} {part : Shape} {r : Json} {parts : List (String × Shape)} {results : Fields}
      (h : Renders part (value.member k) r) (rest : Aligned value parts results) :
      Aligned value ((k, part) :: parts) ((k, r) :: results)
  | skip {k : String} {part : Shape} {parts : List (String × Shape)} {results : Fields}
      (h : results.lookup k = none) (rest : Aligned value parts results) :
      Aligned value ((k, part) :: parts) results

theorem Aligned.keys {parts : List (String × Shape)} {results : Fields} (h : Aligned value parts results)
    {r : Json} (hr : results.lookup k = some r) : (parts.lookup k).isSome := by
  induction h with
  | nil => simp at hr
  | @cons k' part r' parts results _ _ ih =>
      by_cases hk : k = k'
      · simp [hk]
      · have hne : (k == k') = false := by simpa using hk
        rw [List.lookup, hne] at hr ⊢
        exact ih hr
  | @skip k' part parts results hnone _ ih =>
      by_cases hk : k = k'
      · simp [hk]
      · have hne : (k == k') = false := by simpa using hk
        rw [List.lookup, hne]
        exact ih hr

theorem Aligned.renders {parts : List (String × Shape)} {results : Fields} (h : Aligned value parts results)
    {part : Shape} {r : Json} (hpart : parts.lookup k = some part) (hr : results.lookup k = some r) :
    Renders part (value.member k) r := by
  induction h with
  | nil => simp at hr
  | @cons k' part' r' parts results hrenders _ ih =>
      by_cases hk : k = k'
      · subst hk
        obtain rfl : part' = part := by simpa using hpart
        obtain rfl : r' = r := by simpa using hr
        exact hrenders
      · have hne : (k == k') = false := by simpa using hk
        rw [List.lookup, hne] at hpart hr
        exact ih hpart hr
  | @skip k' part' parts results hnone _ ih =>
      by_cases hk : k = k'
      · subst hk
        simp [hnone] at hr
      · have hne : (k == k') = false := by simpa using hk
        rw [List.lookup, hne] at hpart
        exact ih hpart hr

/-- An object renders its parts one by one. -/
theorem Aligned.fields {parts : List (String × Shape)} {results : Fields} (h : Aligned value parts results)
    (hvalue : value = null ∨ ∃ fields, value = obj fields) : Renders (.fields parts) value (obj results) :=
  .fields hvalue (fun _ _ hr => h.keys hr) fun _ _ _ hpart hr => h.renders hpart hr

@[simp] theorem renders_text : Renders .text value result ↔ Keyless result :=
  ⟨fun h => by cases h; assumption, .text⟩

@[simp] theorem aligned_nil : Aligned value [] [] := .nil

/-- A part with the key of the first result renders it. -/
@[simp] theorem aligned_cons {part : Shape} {r : Json} {parts : List (String × Shape)} {results : Fields} :
    Aligned value ((k, part) :: parts) ((k, r) :: results) ↔
      Renders part (value.member k) r ∧ Aligned value parts results := by
  constructor
  · intro h
    cases h with
    | cons hrenders hrest => exact ⟨hrenders, hrest⟩
    | skip hnone => simp at hnone
  · rintro ⟨hrenders, hrest⟩
    exact .cons hrenders hrest

/-! ## Removal of a key -/

/-- The value without the key at the end of a path of keys. -/
def without : List String → Json → Json
  | [k], obj fields => obj (fields.filter (·.1 ≠ k))
  | k :: ks, obj fields => obj (fields.map fun e => if e.1 = k then (e.1, e.2.without ks) else e)
  | _, value => value

theorem lookup_filter_ne {fields : Fields} {k' : String} :
    (fields.filter (·.1 ≠ k)).lookup k' = if k' = k then none else fields.lookup k' := by
  induction fields with
  | nil => simp
  | cons e fields ih =>
      obtain ⟨key, v⟩ := e
      by_cases hkey : key = k
      · subst hkey
        by_cases hk' : k' = key
        · simpa [hk'] using ih
        · have hne : (k' == key) = false := by simpa using hk'
          simpa [List.lookup, hne, hk'] using ih
      · rw [List.filter_cons_of_pos (by simpa using hkey)]
        by_cases hk' : k' = key
        · subst hk'
          simp [hkey]
        · have hne : (k' == key) = false := by simpa using hk'
          simpa [List.lookup, hne] using ih

theorem lookup_map_at {fields : Fields} {k' : String} {f : Json → Json} :
    (fields.map fun e => if e.1 = k then (e.1, f e.2) else e).lookup k' =
      if k' = k then (fields.lookup k').map f else fields.lookup k' := by
  induction fields with
  | nil => simp
  | cons e fields ih =>
      obtain ⟨key, v⟩ := e
      by_cases hk' : k' = key
      · subst hk'
        by_cases hkey : k' = k <;> simp [hkey]
      · have hne : (k' == key) = false := by simpa using hk'
        by_cases hkey : key = k
        · subst hkey
          simpa [List.lookup, hne] using ih
        · simpa [List.lookup, hne, hkey] using ih

theorem without_of_fields (hfields : value.fields? = none) (ks : List String) : value.without ks = value := by
  cases value with
  | obj fields => simp [fields?] at hfields
  | null | bool _ | int _ | float _ _ | str _ | arr _ =>
      rcases ks with _ | ⟨k, _ | ⟨k', ks⟩⟩ <;> rfl

/-- Exactly the paths through the removed key are lost. -/
theorem isSome_at?_without {ks : List String} (hks : ks ≠ []) :
    ((value.without ks).at? path).isSome ↔ (value.at? path).isSome ∧ ¬ ks.map Step.key <+: path := by
  induction ks generalizing value path with
  | nil => exact absurd rfl hks
  | cons k ks ih =>
      cases path with
      | nil => simp
      | cons s path =>
          cases hfields : value.fields? with
          | none =>
              rw [without_of_fields hfields]
              cases s with
              | key k' => simp [at?_key, hfields]
              | index i => simp
          | some fields =>
              obtain rfl : value = obj fields := by
                cases value <;> simp_all [fields?]
              cases s with
              | index i =>
                  cases ks <;> simp [without, at?_index, values?]
              | key k' =>
                  cases ks with
                  | nil =>
                      simp only [without, at?_key, fields?, Option.bind_some, lookup_filter_ne]
                      by_cases hk : k' = k
                      · simp [hk]
                      · simp [hk, Ne.symm hk]
                  | cons k₂ ks =>
                      simp only [without, at?_key, fields?, Option.bind_some, lookup_map_at]
                      by_cases hk : k' = k
                      · subst hk
                        cases hv : fields.lookup k' with
                        | none => simp
                        | some v => simpa [List.cons_prefix_cons] using ih (List.cons_ne_nil k₂ ks)
                      · simp [hk, Ne.symm hk, List.cons_prefix_cons]

end Json
end Lib
