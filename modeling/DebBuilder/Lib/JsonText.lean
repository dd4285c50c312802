import Mathlib
import DebBuilder.Lib.Json

/-!
# The compact text of a JSON value

What `json.dumps(value, ensure_ascii=False, sort_keys=True, separators=(",", ":"))` writes.  The
text of a value without floats shows the value: what is written ends where the value ends, so two
texts agree only when the values do, up to the order of the keys.

## Main definitions

* `Json.dump` — the text of a value with its keys in the order they have.
* `Json.sortKeys`, `Json.dumps` — the keys in order, and the text that results.
* `Json.Floatless` — there is no float in the value.

## Main statements

* `dump_append_inj` — a text determines the value and where it ends.
* `dumps_inj` — and so does the text with sorted keys, up to their order.
* `lookup_sortKeys` — sorting the keys changes no value of a dictionary.
-/

namespace Lib
namespace Json

/-! ## Texts in quotes -/

/-- A digit below 16. -/
def hexDigit (n : Nat) : Char := if n < 10 then Char.ofNat (48 + n) else Char.ofNat (87 + n)

/-- What stands for a character between quotes. -/
def escapeChar (c : Char) : List Char :=
  if c = '"' then ['\\', '"']
  else if c = '\\' then ['\\', '\\']
  else if c = '\n' then ['\\', 'n']
  else if c = '\r' then ['\\', 'r']
  else if c = '\t' then ['\\', 't']
  else if c.toNat = 0x0C then ['\\', 'f']
  else if c.toNat = 0x08 then ['\\', 'b']
  else if c.toNat < 32 then ['\\', 'u', '0', '0', hexDigit (c.toNat / 16), hexDigit (c.toNat % 16)]
  else [c]

/-- A text in quotes. -/
def quote (s : List Char) : List Char := '"' :: (s.flatMap escapeChar ++ ['"'])

/-- The value of a digit below 16. -/
def hexValue (c : Char) : Nat := if c.toNat < 58 then c.toNat - 48 else c.toNat - 87

/-- Reads one character back. -/
def unescape : List Char → Option (Char × List Char)
  | '\\' :: 'u' :: '0' :: '0' :: a :: b :: rest => some (Char.ofNat (hexValue a * 16 + hexValue b), rest)
  | '\\' :: 'n' :: rest => some ('\n', rest)
  | '\\' :: 'r' :: rest => some ('\r', rest)
  | '\\' :: 't' :: rest => some ('\t', rest)
  | '\\' :: 'f' :: rest => some (Char.ofNat 0x0C, rest)
  | '\\' :: 'b' :: rest => some (Char.ofNat 0x08, rest)
  | '\\' :: c :: rest => some (c, rest)
  | '"' :: _ => none
  | c :: rest => some (c, rest)
  | [] => none

theorem char_eq_ofNat {c : Char} {n : Nat} (h : c.toNat = n) : c = Char.ofNat n := by
  rw [← h, Char.ofNat_toNat]

theorem unescape_escapeChar (c : Char) (rest : List Char) : unescape (escapeChar c ++ rest) = some (c, rest) := by
  by_cases hquote : c = '"'
  · subst hquote; rfl
  by_cases hslash : c = '\\'
  · subst hslash; rfl
  by_cases hn : c = '\n'
  · subst hn; rfl
  by_cases hr : c = '\r'
  · subst hr; rfl
  by_cases ht : c = '\t'
  · subst ht; rfl
  by_cases hf : c.toNat = 0x0C
  · rw [char_eq_ofNat hf]; rfl
  by_cases hb : c.toNat = 0x08
  · rw [char_eq_ofNat hb]; rfl
  by_cases hcontrol : c.toNat < 32
  · rw [escapeChar, if_neg hquote, if_neg hslash, if_neg hn, if_neg hr, if_neg ht, if_neg hf, if_neg hb, if_pos hcontrol]
    have hback : ∀ n < 32, Char.ofNat (hexValue (hexDigit (n / 16)) * 16 + hexValue (hexDigit (n % 16))) = Char.ofNat n := by
      decide
    show some (Char.ofNat (hexValue (hexDigit (c.toNat / 16)) * 16 + hexValue (hexDigit (c.toNat % 16))), rest) = _
    rw [hback _ hcontrol, Char.ofNat_toNat]
  · rw [escapeChar, if_neg hquote, if_neg hslash, if_neg hn, if_neg hr, if_neg ht, if_neg hf, if_neg hb, if_neg hcontrol]
    show unescape (c :: rest) = _
    unfold unescape
    split <;> simp_all

/-- The characters of a text in quotes, and where it ends, are seen. -/
theorem quote_append_inj {s t x y : List Char} (h : quote s ++ x = quote t ++ y) : s = t ∧ x = y := by
  have hbody : s.flatMap escapeChar ++ ('"' :: x) = t.flatMap escapeChar ++ ('"' :: y) := by
    simpa [quote] using h
  clear h
  induction s generalizing t with
  | nil =>
      cases t with
      | nil => simpa using hbody
      | cons d t =>
          have hread := congrArg unescape hbody
          rw [List.flatMap_cons, List.append_assoc, unescape_escapeChar] at hread
          exact nomatch hread
  | cons c s ih =>
      cases t with
      | nil =>
          have hread := congrArg unescape hbody
          rw [List.flatMap_cons, List.append_assoc, unescape_escapeChar] at hread
          exact nomatch hread
      | cons d t =>
          have hread := congrArg unescape hbody
          rw [List.flatMap_cons, List.flatMap_cons, List.append_assoc, List.append_assoc, unescape_escapeChar,
            unescape_escapeChar, Option.some.injEq, Prod.mk.injEq] at hread
          obtain ⟨hst, hxy⟩ := ih hread.2
          exact ⟨by rw [hread.1, hst], hxy⟩

/-! ## Numbers -/

/-- `str(n)` -/
def intText : Int → List Char
  | .ofNat n => Nat.toDigits 10 n
  | .negSucc n => '-' :: Nat.toDigits 10 (n + 1)

/-- The text goes on with no digit. -/
def Ends (x : List Char) : Prop := ∀ c ∈ x.head?, c.isDigit = false

theorem takeWhile_digits {n : Nat} {x : List Char} (h : Ends x) :
    (Nat.toDigits 10 n ++ x).takeWhile Char.isDigit = Nat.toDigits 10 n := by
  have hdigits : ∀ c ∈ Nat.toDigits 10 n, c.isDigit = true := fun c hc => Nat.isDigit_of_mem_toDigits (by decide) (by decide) hc
  have hrest : x.takeWhile Char.isDigit = [] := by
    cases x with
    | nil => rfl
    | cons c x => exact List.takeWhile_cons_of_neg (by simp [h c rfl])
  rw [List.takeWhile_append_of_pos hdigits, hrest, List.append_nil]

theorem digits_append_inj {m n : Nat} {x y : List Char} (hx : Ends x) (hy : Ends y)
    (h : Nat.toDigits 10 m ++ x = Nat.toDigits 10 n ++ y) : m = n ∧ x = y := by
  have hdigits := congrArg (List.takeWhile Char.isDigit) h
  rw [takeWhile_digits hx, takeWhile_digits hy] at hdigits
  have hvalue := congrArg (fun digits => Nat.ofDigitChars 10 digits 0) hdigits
  simp only [Nat.ofDigitChars_ten_toDigits] at hvalue
  rw [hdigits] at h
  exact ⟨hvalue, List.append_cancel_left h⟩

theorem toDigits_ne_minus (n : Nat) (x y : List Char) : Nat.toDigits 10 n ++ x ≠ '-' :: y := by
  intro h
  cases hdigits : Nat.toDigits 10 n with
  | nil => exact Nat.toDigits_ne_nil hdigits
  | cons c digits =>
      have hc : c.isDigit = true := Nat.isDigit_of_mem_toDigits (by decide) (by decide) (hdigits ▸ List.mem_cons_self)
      rw [hdigits, List.cons_append] at h
      rw [(List.cons.inj h).1] at hc
      exact absurd hc (by decide)

theorem intText_append_inj {m n : Int} {x y : List Char} (hx : Ends x) (hy : Ends y)
    (h : intText m ++ x = intText n ++ y) : m = n ∧ x = y := by
  cases m with
  | ofNat m =>
      cases n with
      | ofNat n =>
          obtain ⟨rfl, hxy⟩ := digits_append_inj hx hy h
          exact ⟨rfl, hxy⟩
      | negSucc n => exact absurd h (toDigits_ne_minus m x _)
  | negSucc m =>
      cases n with
      | ofNat n => exact absurd h.symm (toDigits_ne_minus n y _)
      | negSucc n =>
          obtain ⟨hmn, hxy⟩ := digits_append_inj hx hy (List.cons.inj h).2
          exact ⟨by rw [Nat.succ.inj hmn], hxy⟩

/-! ## Values -/

mutual

/-- The text of a value. -/
def dump : Json → List Char
  | null => "null".toList
  | bool b => if b then "true".toList else "false".toList
  | int n => intText n
  | float _ text => text.toList
  | str s => quote s.toList
  | arr values => '[' :: dumpItems [] values
  | obj fields => '\x7b' :: dumpFields [] fields

/-- The rest of a list, behind `separator`. -/
def dumpItems (separator : List Char) : List Json → List Char
  | [] => [']']
  | value :: values => separator ++ (dump value ++ dumpItems [','] values)

/-- The rest of a dictionary, behind `separator`. -/
def dumpFields (separator : List Char) : List (String × Json) → List Char
  | [] => ['\x7d']
  | (key, value) :: fields => separator ++ (quote key.toList ++ ':' :: (dump value ++ dumpFields [','] fields))

end

mutual

/-- There is no float in the value. -/
def Floatless : Json → Prop
  | null => True
  | bool _ => True
  | int _ => True
  | float _ _ => False
  | str _ => True
  | arr values => FloatlessItems values
  | obj fields => FloatlessFields fields

def FloatlessItems : List Json → Prop
  | [] => True
  | value :: values => Floatless value ∧ FloatlessItems values

def FloatlessFields : List (String × Json) → Prop
  | [] => True
  | (_, value) :: fields => Floatless value ∧ FloatlessFields fields

end

/-! ## The text shows the value -/

/-- What kind of value a text begins. -/
def headKind (c : Char) : Nat := if c.isDigit || c = '-' then 1 else c.toNat

def kind : Json → Nat
  | null => headKind 'n'
  | bool true => headKind 't'
  | bool false => headKind 'f'
  | int _ => 1
  | float _ _ => 0
  | str _ => headKind '"'
  | arr _ => headKind '['
  | obj _ => headKind '\x7b'

/-- The first character shows the kind. -/
theorem head_dump {v : Json} (h : Floatless v) : ∃ c rest, dump v = c :: rest ∧ headKind c = v.kind := by
  cases v with
  | null => exact ⟨_, _, rfl, rfl⟩
  | bool b =>
      cases b with
      | true => exact ⟨_, _, rfl, rfl⟩
      | false => exact ⟨_, _, rfl, rfl⟩
  | int n =>
      cases n with
      | ofNat n =>
          cases hdigits : Nat.toDigits 10 n with
          | nil => exact absurd hdigits Nat.toDigits_ne_nil
          | cons c digits =>
              have hc : c.isDigit = true :=
                Nat.isDigit_of_mem_toDigits (by decide) (by decide) (hdigits ▸ List.mem_cons_self)
              refine ⟨c, digits, hdigits, ?_⟩
              simp [headKind, hc, kind]
      | negSucc n => exact ⟨_, _, rfl, rfl⟩
  | float v text => exact absurd h id
  | str s => exact ⟨_, _, rfl, rfl⟩
  | arr values => exact ⟨_, _, rfl, rfl⟩
  | obj fields => exact ⟨_, _, rfl, rfl⟩

theorem kind_eq_of_dump {v w : Json} {x y : List Char} (hv : Floatless v) (hw : Floatless w)
    (h : dump v ++ x = dump w ++ y) : v.kind = w.kind := by
  obtain ⟨c, rest, hc, hkind⟩ := head_dump hv
  obtain ⟨d, rest', hd, hkind'⟩ := head_dump hw
  rw [hc, hd] at h
  rw [← hkind, ← hkind', (List.cons.inj h).1]

theorem dump_ne_close {v : Json} {x y : List Char} (hv : Floatless v) : ']' :: x ≠ dump v ++ y := by
  obtain ⟨c, rest, hc, hkind⟩ := head_dump hv
  rw [hc]
  intro h
  rw [← (List.cons.inj h).1] at hkind
  cases v with
  | bool b => cases b <;> exact absurd hkind (by decide)
  | float _ _ => exact hv
  | _ => exact absurd hkind (by simp only [kind]; decide)

theorem ends_dumpItems (values : List Json) (x : List Char) : Ends (dumpItems [','] values ++ x) := by
  cases values with
  | nil => rintro c ⟨⟩; rfl
  | cons value values => rintro c ⟨⟩; rfl

theorem ends_dumpFields (fields : Fields) (x : List Char) : Ends (dumpFields [','] fields ++ x) := by
  cases fields with
  | nil =>
      intro c hc
      cases hc
      rfl
  | cons field fields =>
      intro c hc
      rw [dumpFields, List.append_assoc, List.singleton_append, List.head?_cons, Option.mem_some_iff] at hc
      rw [← hc]
      rfl

mutual

/-- A text without floats determines the value, and where it ends. -/
theorem dump_append_inj (v w : Json) {x y : List Char} (hv : Floatless v) (hw : Floatless w) (hx : Ends x) (hy : Ends y)
    (h : dump v ++ x = dump w ++ y) : v = w ∧ x = y := by
  have hkind := kind_eq_of_dump hv hw h
  match v, w with
  | null, null => exact ⟨rfl, List.append_cancel_left h⟩
  | bool true, bool true => exact ⟨rfl, List.append_cancel_left h⟩
  | bool false, bool false => exact ⟨rfl, List.append_cancel_left h⟩
  | int m, int n =>
      obtain ⟨rfl, hxy⟩ := intText_append_inj hx hy h
      exact ⟨rfl, hxy⟩
  | str s, str t =>
      obtain ⟨hst, hxy⟩ := quote_append_inj h
      exact ⟨by rw [String.toList_inj.1 hst], hxy⟩
  | arr vs, arr ws =>
      obtain ⟨rfl, hxy⟩ := dumpItems_append_inj vs ws (.inl rfl) hv hw (List.cons.inj h).2
      exact ⟨rfl, hxy⟩
  | obj fs, obj gs =>
      obtain ⟨rfl, hxy⟩ := dumpFields_append_inj fs gs (.inl rfl) hv hw (List.cons.inj h).2
      exact ⟨rfl, hxy⟩

theorem dumpItems_append_inj (vs ws : List Json) {separator x y : List Char} (hsep : separator = [] ∨ separator = [','])
    (hv : FloatlessItems vs) (hw : FloatlessItems ws) (h : dumpItems separator vs ++ x = dumpItems separator ws ++ y) :
    vs = ws ∧ x = y := by
  match vs, ws with
  | [], [] => exact ⟨rfl, (List.cons.inj h).2⟩
  | [], w :: ws =>
      rcases hsep with rfl | rfl
      · simp only [dumpItems, List.nil_append, List.cons_append, List.append_assoc] at h
        exact absurd h (dump_ne_close hw.1)
      · exact absurd (List.cons.inj h).1 (by decide)
  | v :: vs, [] =>
      rcases hsep with rfl | rfl
      · simp only [dumpItems, List.nil_append, List.cons_append, List.append_assoc] at h
        exact absurd h.symm (dump_ne_close hv.1)
      · exact absurd (List.cons.inj h).1 (by decide)
  | v :: vs, w :: ws =>
      simp only [dumpItems, List.append_assoc] at h
      obtain ⟨rfl, hrest⟩ := dump_append_inj v w hv.1 hw.1 (ends_dumpItems vs x) (ends_dumpItems ws y)
        (List.append_cancel_left h)
      obtain ⟨rfl, hxy⟩ := dumpItems_append_inj vs ws (.inr rfl) hv.2 hw.2 hrest
      exact ⟨rfl, hxy⟩

theorem dumpFields_append_inj (fs gs : Fields) {separator x y : List Char} (hsep : separator = [] ∨ separator = [','])
    (hf : FloatlessFields fs) (hg : FloatlessFields gs) (h : dumpFields separator fs ++ x = dumpFields separator gs ++ y) :
    fs = gs ∧ x = y := by
  match fs, gs with
  | [], [] => exact ⟨rfl, (List.cons.inj h).2⟩
  | [], (key, value) :: gs =>
      rcases hsep with rfl | rfl <;> exact absurd (List.cons.inj h).1 (by decide)
  | (key, value) :: fs, [] =>
      rcases hsep with rfl | rfl <;> exact absurd (List.cons.inj h).1 (by decide)
  | (key, v) :: fs, (key', w) :: gs =>
      simp only [dumpFields, List.append_assoc, List.cons_append] at h
      obtain ⟨hkey, hvalue⟩ := quote_append_inj (List.append_cancel_left h)
      obtain ⟨rfl, hrest⟩ := dump_append_inj v w hf.1 hg.1 (ends_dumpFields fs x) (ends_dumpFields gs y)
        (List.cons.inj hvalue).2
      obtain ⟨rfl, hxy⟩ := dumpFields_append_inj fs gs (.inr rfl) hf.2 hg.2 hrest
      exact ⟨by rw [String.toList_inj.1 hkey], hxy⟩

end

/-- The text of a value without floats determines the value. -/
theorem dump_inj {v w : Json} (hv : Floatless v) (hw : Floatless w) (h : dump v = dump w) : v = w := by
  have hends : Ends [] := nofun
  exact (dump_append_inj v w hv hw hends hends (by rw [h])).1

/-! ## Keys in order -/

mutual

/-- The same value, each dictionary with its keys in order. -/
def sortKeys : Json → Json
  | arr values => arr (sortItems values)
  | obj fields => obj ((sortFields fields).insertionSort fun a b => a.1 ≤ b.1)
  | v => v

def sortItems : List Json → List Json
  | [] => []
  | value :: values => sortKeys value :: sortItems values

def sortFields : List (String × Json) → Fields
  | [] => []
  | (key, value) :: fields => (key, sortKeys value) :: sortFields fields

end

/-- `json.dumps(value, ensure_ascii=False, sort_keys=True, separators=(",", ":"))` -/
def dumps (v : Json) : List Char := dump v.sortKeys

theorem sortFields_eq_map (fields : Fields) : sortFields fields = fields.map fun field => (field.1, sortKeys field.2) := by
  induction fields with
  | nil => rfl
  | cons field fields ih => rw [sortFields, ih]; rfl

theorem floatlessFields_iff {fields : Fields} : FloatlessFields fields ↔ ∀ field ∈ fields, Floatless field.2 := by
  induction fields with
  | nil => simp [FloatlessFields]
  | cons field fields ih => rw [FloatlessFields, ih, List.forall_mem_cons]

mutual

theorem floatless_sortKeys (v : Json) (h : Floatless v) : Floatless v.sortKeys := by
  match v with
  | null => exact h
  | bool _ => exact h
  | int _ => exact h
  | float _ _ => exact h
  | str _ => exact h
  | arr values => exact floatless_sortItems values h
  | obj fields =>
      have hfields := floatlessFields_iff.1 (floatless_sortFields fields h)
      refine floatlessFields_iff.2 fun field hfield => hfields field ?_
      exact (List.mem_insertionSort _).1 hfield

theorem floatless_sortItems (values : List Json) (h : FloatlessItems values) : FloatlessItems (sortItems values) := by
  match values with
  | [] => trivial
  | value :: values => exact ⟨floatless_sortKeys value h.1, floatless_sortItems values h.2⟩

theorem floatless_sortFields (fields : Fields) (h : FloatlessFields fields) : FloatlessFields (sortFields fields) := by
  match fields with
  | [] => trivial
  | (_, value) :: fields => exact ⟨floatless_sortKeys value h.1, floatless_sortFields fields h.2⟩

end

/-- Texts with sorted keys agree only for values that are the same when their keys are sorted. -/
theorem dumps_inj {v w : Json} (hv : Floatless v) (hw : Floatless w) (h : dumps v = dumps w) : v.sortKeys = w.sortKeys :=
  dump_inj (floatless_sortKeys v hv) (floatless_sortKeys w hw) h

theorem lookup_eq_some_iff_mem {fields : Fields} (hnodup : (fields.map Prod.fst).Nodup) {key : String} {value : Json} :
    fields.lookup key = some value ↔ (key, value) ∈ fields := by
  induction fields with
  | nil => simp
  | cons field fields ih =>
      obtain ⟨key', value'⟩ := field
      rw [List.map_cons, List.nodup_cons] at hnodup
      rw [List.lookup_cons, List.mem_cons]
      by_cases hkey : key = key'
      · subst hkey
        have hrest : (key, value) ∉ fields := fun h => hnodup.1 (List.mem_map.2 ⟨_, h, rfl⟩)
        simp [hrest, eq_comm]
      · have hfalse : (key == key') = false := by simpa using hkey
        simp [hfalse, hkey, ih hnodup.2]

/-- Sorting the keys changes no value of a dictionary. -/
theorem lookup_sortKeys {fields sorted : Fields} (hnodup : (fields.map Prod.fst).Nodup)
    (h : (obj fields).sortKeys = obj sorted) (key : String) :
    sorted.lookup key = (fields.lookup key).map sortKeys := by
  have hsorted : sorted = (sortFields fields).insertionSort fun a b => a.1 ≤ b.1 := (obj.inj h).symm
  have hkeys : (sortFields fields).map Prod.fst = fields.map Prod.fst := by
    rw [sortFields_eq_map, List.map_map]
    rfl
  have hperm : List.Perm sorted (sortFields fields) := by
    rw [hsorted]
    exact List.perm_insertionSort _ _
  have hnodup' : (sorted.map Prod.fst).Nodup := by
    rw [(hperm.map Prod.fst).nodup_iff, hkeys]
    exact hnodup
  ext value
  rw [lookup_eq_some_iff_mem hnodup', hperm.mem_iff, sortFields_eq_map, List.mem_map]
  constructor
  · rintro ⟨field, hfield, heq⟩
    obtain ⟨rfl, rfl⟩ := Prod.mk.inj heq
    rw [(lookup_eq_some_iff_mem hnodup).2 hfield, Option.map_some]
  · intro hlookup
    obtain ⟨value', hvalue', rfl⟩ := Option.map_eq_some_iff.1 hlookup
    exact ⟨_, (lookup_eq_some_iff_mem hnodup).1 hvalue', rfl⟩

/-- Dictionaries that are the same with sorted keys have the same value under each key. -/
theorem lookup_eq_of_sortKeys {fields fields' : Fields} (hnodup : (fields.map Prod.fst).Nodup)
    (hnodup' : (fields'.map Prod.fst).Nodup) (h : (obj fields).sortKeys = (obj fields').sortKeys) (key : String) :
    (fields.lookup key).map sortKeys = (fields'.lookup key).map sortKeys := by
  rw [← lookup_sortKeys hnodup rfl key, ← lookup_sortKeys hnodup' h.symm key]

end Json
end Lib
