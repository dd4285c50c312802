import Mathlib

/-!
# Text operations of the source language

The string methods by which configuration and index files are read.  A string is a list of
characters here; white space and line breaks are those of Unicode, as in the source
language.

## Main definitions

* `Text.strip`, `Text.words` — `str.strip()` and `str.split()`.
* `Text.lines` — `str.splitlines()`.
* `Text.cut` — `str.split(separator, 1)`.
* `Text.splitOn` — `str.split(separator)`.
-/

namespace Lib
namespace Text

/-- `c.isspace()` -/
def isSpace (c : Char) : Bool :=
  let n := c.toNat
  (9 ≤ n && n ≤ 13) || (28 ≤ n && n ≤ 32) || n == 0x85 || n == 0xa0 || n == 0x1680 ||
    (0x2000 ≤ n && n ≤ 0x200a) || n == 0x2028 || n == 0x2029 || n == 0x202f || n == 0x205f || n == 0x3000

/-- The characters at which `str.splitlines` ends a line. -/
def isLineBreak (c : Char) : Bool :=
  let n := c.toNat
  (10 ≤ n && n ≤ 13) || (28 ≤ n && n ≤ 30) || n == 0x85 || n == 0x2028 || n == 0x2029

/-- The lines of a text whose current line is `line`, backwards. -/
def linesFrom (line : List Char) : List Char → List (List Char)
  | [] => if line = [] then [] else [line.reverse]
  | '\r' :: '\n' :: cs => line.reverse :: linesFrom [] cs
  | c :: cs => if isLineBreak c then line.reverse :: linesFrom [] cs else linesFrom (c :: line) cs

/-- `text.splitlines()` -/
def lines (text : String) : List (List Char) := linesFrom [] text.toList

def lstrip (cs : List Char) : List Char := cs.dropWhile isSpace

def strip (cs : List Char) : List Char := (lstrip (lstrip cs).reverse).reverse

/-- `text.split()` -/
def words (cs : List Char) : List (List Char) := (cs.splitOnP isSpace).filter (· ≠ [])

/-- The pieces between the separators that are not empty. -/
def pieces (isSeparator : Char → Bool) (cs : List Char) : List (List Char) :=
  (cs.splitOnP isSeparator).filter (· ≠ [])

/-- `text.split(separator, 1)`, when the separator occurs. -/
def cut (separator : List Char) : List Char → Option (List Char × List Char)
  | [] => if separator = [] then some ([], []) else none
  | c :: cs =>
      if separator.isPrefixOf (c :: cs) then some ([], (c :: cs).drop separator.length)
      else (cut separator cs).map fun parts => (c :: parts.1, parts.2)

/-- The pieces of a text whose current piece is `piece`, backwards, after `skip` characters of
a separator. -/
def splitFrom (separator : List Char) : Nat → List Char → List Char → List (List Char)
  | _, piece, [] => [piece.reverse]
  | skip + 1, piece, _ :: cs => splitFrom separator skip piece cs
  | 0, piece, c :: cs =>
      if separator <+: c :: cs then piece.reverse :: splitFrom separator (separator.length - 1) [] cs
      else splitFrom separator 0 (c :: piece) cs

/-- `text.split(separator)`, of a separator that is not empty. -/
def splitOn (separator cs : List Char) : List (List Char) := splitFrom separator 0 [] cs

/-- `c.lower()`, of the characters whose lower case is ASCII. -/
def lowerChar (c : Char) : Char :=
  if c.toNat = 0x212a then 'k' else if 65 ≤ c.toNat ∧ c.toNat ≤ 90 then Char.ofNat (c.toNat + 32) else c

/-- `text.lower()` -/
def lower (cs : List Char) : List Char := cs.map lowerChar

/-- A text that is no control character is shown as it is by `repr`. -/
def reprChar (quote : Char) (c : Char) : List Char :=
  if c = quote then ['\\', c] else if c = '\\' then ['\\', '\\']
  else if c = '\n' then ['\\', 'n'] else if c = '\r' then ['\\', 'r'] else if c = '\t' then ['\\', 't'] else [c]

/-- `repr(text)` of a text without other control characters. -/
def quoted (text : String) : String :=
  let quote := if text.toList.contains '\'' && !text.toList.contains '"' then '"' else '\''
  String.ofList (quote :: text.toList.flatMap (reprChar quote) ++ [quote])

example : lines "a\r\nb\n\nc" = ["a".toList, "b".toList, [], "c".toList] := by decide +kernel

/-- Cutting takes a text apart. -/
theorem append_of_cut {separator cs before after : List Char} (h : cut separator cs = some (before, after)) :
    cs = before ++ separator ++ after := by
  induction cs generalizing before with
  | nil =>
      rw [cut] at h
      split at h
      · next hnil =>
          cases h
          simp [hnil]
      · exact nomatch h
  | cons c cs ih =>
      rw [cut] at h
      split at h
      · next hpre =>
          cases h
          obtain ⟨rest, hrest⟩ := List.isPrefixOf_iff_prefix.1 hpre
          rw [← hrest, List.drop_left]
          simp
      · obtain ⟨⟨before', after'⟩, hcut, hparts⟩ := Option.map_eq_some_iff.1 h
        cases hparts
        rw [ih hcut]
        simp

/-- Cutting at a character takes the text before its first occurrence. -/
theorem forall_ne_of_cut {s : Char} {cs before after : List Char} (h : cut [s] cs = some (before, after)) :
    ∀ c ∈ before, c ≠ s := by
  induction cs generalizing before with
  | nil => exact nomatch h
  | cons c cs ih =>
      rw [cut] at h
      split at h
      · cases h
        exact nofun
      · next hpre =>
        obtain ⟨⟨before', after'⟩, hcut, hparts⟩ := Option.map_eq_some_iff.1 h
        cases hparts
        intro d hd
        rcases List.mem_cons.1 hd with rfl | hd
        · intro heq
          subst heq
          exact hpre (by simp)
        · exact ih hcut d hd

/-- A text is cut at the first character of the separator that occurs in it. -/
theorem cut_append {s : Char} {separator before after : List Char} (h : ∀ c ∈ before, c ≠ s) :
    cut (s :: separator) (before ++ (s :: separator ++ after)) = some (before, after) := by
  induction before with
  | nil => simp [cut]
  | cons c before ih =>
      have hc : c ≠ s := h c (List.mem_cons_self ..)
      have hrest := ih fun c hmem => h c (List.mem_cons_of_mem _ hmem)
      simp only [List.cons_append] at hrest ⊢
      simp [cut, hrest, Ne.symm hc]

/-! ## Splitting -/

section
variable {s : Char} {separator a rest piece : List Char}

theorem splitFrom_append (h : ∀ c ∈ a, c ≠ s) :
    splitFrom (s :: separator) 0 piece (a ++ rest) = splitFrom (s :: separator) 0 (a.reverse ++ piece) rest := by
  induction a generalizing piece with
  | nil => rfl
  | cons c a ih =>
      have hc : c ≠ s := h c (List.mem_cons_self ..)
      have ha : ∀ c ∈ a, c ≠ s := fun c hmem => h c (List.mem_cons_of_mem _ hmem)
      rw [List.cons_append, splitFrom, if_neg, ih ha]
      · simp
      · intro hpre
        exact hc (List.cons_prefix_cons.1 hpre).1.symm

theorem splitFrom_skip (sep : List Char) : splitFrom sep a.length piece (a ++ rest) = splitFrom sep 0 piece rest := by
  induction a with
  | nil => rfl
  | cons c a ih => exact ih

/-- A text without the first character of the separator is one piece. -/
theorem splitOn_of_forall_ne (h : ∀ c ∈ a, c ≠ s) : splitOn (s :: separator) a = [a] := by
  have hsplit : splitFrom (s :: separator) 0 [] (a ++ []) = _ := splitFrom_append h
  rw [List.append_nil, List.append_nil] at hsplit
  rw [splitOn, hsplit, splitFrom, List.reverse_reverse]

theorem splitOn_append (h : ∀ c ∈ a, c ≠ s) :
    splitOn (s :: separator) (a ++ s :: (separator ++ rest)) = a :: splitOn (s :: separator) rest := by
  rw [splitOn, splitFrom_append h, splitFrom, if_pos]
  · have hskip : splitFrom (s :: separator) separator.length [] (separator ++ rest) = _ := splitFrom_skip _
    simp only [List.append_nil, List.reverse_reverse, List.length_cons, Nat.add_sub_cancel, hskip]
    rfl
  · exact List.cons_prefix_cons.2 ⟨rfl, List.prefix_append ..⟩

/-- Splitting undoes joining. -/
theorem splitOn_intercalate {parts : List (List Char)} (hne : parts ≠ []) (h : ∀ part ∈ parts, ∀ c ∈ part, c ≠ s) :
    splitOn (s :: separator) ((s :: separator).intercalate parts) = parts := by
  induction parts with
  | nil => exact absurd rfl hne
  | cons part parts ih =>
      have hpart : ∀ c ∈ part, c ≠ s := h part (List.mem_cons_self ..)
      cases parts with
      | nil => simpa using splitOn_of_forall_ne hpart
      | cons next parts =>
          have hrest := ih nofun fun part hmem => h part (List.mem_cons_of_mem _ hmem)
          have hjoin : (s :: separator).intercalate (part :: next :: parts) =
              part ++ s :: (separator ++ (s :: separator).intercalate (next :: parts)) := by
            rw [List.intercalate_cons_of_ne_nil (by simp)]
            simp
          rw [hjoin, splitOn_append hpart, hrest]

variable {p : Char → Bool}

theorem pieces_nil : pieces p [] = [] := by
  simp [pieces]

theorem mem_of_mem_pieces {part : List Char} (h : part ∈ pieces p a) : ∀ c ∈ part, c ∈ a := by
  have hmem : part ∈ a.splitOnP p := List.mem_of_mem_filter h
  clear h
  induction a generalizing part with
  | nil =>
      obtain rfl : part = [] := by simpa using hmem
      exact nofun
  | cons x a ih =>
      intro c hc
      rw [List.splitOnP_cons_eq_if_modifyHead] at hmem
      obtain ⟨first, parts, hparts⟩ := List.exists_cons_of_ne_nil (List.splitOnP_ne_nil p a)
      split at hmem
      · rcases List.mem_cons.1 hmem with rfl | hmem
        · exact nomatch hc
        · exact List.mem_cons_of_mem _ (ih hmem c hc)
      · rw [hparts, List.modifyHead_cons] at hmem
        rcases List.mem_cons.1 hmem with rfl | hmem
        · rcases List.mem_cons.1 hc with rfl | hc
          · exact List.mem_cons_self ..
          · exact List.mem_cons_of_mem _ (ih (hparts ▸ List.mem_cons_self ..) c hc)
        · exact List.mem_cons_of_mem _ (ih (hparts ▸ List.mem_cons_of_mem _ hmem) c hc)

theorem pieces_append_left (h : ∀ c ∈ a, p c = true) : pieces p (a ++ rest) = pieces p rest := by
  induction a with
  | nil => rfl
  | cons c a ih =>
      have hc : p c = true := h c (List.mem_cons_self ..)
      have ha := ih fun c hmem => h c (List.mem_cons_of_mem _ hmem)
      rw [← ha]
      simp [pieces, List.splitOnP_cons_eq_if_modifyHead, hc]

/-- A word, up to the end or to a separator. -/
theorem pieces_append (hne : a ≠ []) (h : ∀ c ∈ a, p c = false) (hrest : ∀ c ∈ rest.head?, p c = true) :
    pieces p (a ++ rest) = a :: pieces p rest := by
  cases rest with
  | nil => simp [pieces, List.splitOnP_eq_singleton h, hne]
  | cons c rest =>
      have hc : p c = true := hrest c rfl
      rw [pieces, List.splitOnP_append_cons_of_forall_mem h c hc, List.filter_cons_of_pos (by simpa using hne)]
      simp [pieces, List.splitOnP_cons_eq_if_modifyHead, hc]

theorem lstrip_append (h : ∀ c ∈ a, isSpace c = true) : lstrip (a ++ rest) = lstrip rest :=
  List.dropWhile_append_of_pos h

theorem lstrip_of_head? (h : ∀ c ∈ a.head?, isSpace c = false) : lstrip a = a := by
  cases a with
  | nil => rfl
  | cons c a => exact List.dropWhile_cons_of_neg (by simp [h c rfl])

/-- Only a blank text has nothing left. -/
theorem strip_eq_nil {cs : List Char} : strip cs = [] ↔ ∀ c ∈ cs, isSpace c = true := by
  rw [strip, List.reverse_eq_nil_iff]
  constructor
  · intro h c hc
    have hall : ∀ c ∈ (lstrip cs).reverse, isSpace c = true := List.dropWhile_eq_nil_iff.1 h
    have hnil : lstrip cs = [] := by
      cases hleft : lstrip cs with
      | nil => rfl
      | cons x rest =>
          have hspace : isSpace x = true := hall x (by simp [hleft])
          have hhead := List.head?_dropWhile_not isSpace cs
          rw [show cs.dropWhile isSpace = x :: rest from hleft, List.head?_cons] at hhead
          simp [hspace] at hhead
    exact List.dropWhile_eq_nil_iff.1 hnil c hc
  · intro h
    have hnil : lstrip cs = [] := List.dropWhile_eq_nil_iff.2 h
    rw [hnil]
    rfl

/-- What is left of a text between blanks. -/
theorem strip_append {before after : List Char} (hbefore : ∀ c ∈ before, isSpace c = true)
    (hafter : ∀ c ∈ after, isSpace c = true) (hhead : ∀ c ∈ a.head?, isSpace c = false)
    (hlast : ∀ c ∈ a.getLast?, isSpace c = false) : strip (before ++ a ++ after) = a := by
  have hfirst : lstrip (before ++ a ++ after) = lstrip (a ++ after) := by
    rw [List.append_assoc, lstrip_append hbefore]
  have hback : ∀ c ∈ after.reverse, isSpace c = true := fun c hmem => hafter c (List.mem_reverse.1 hmem)
  cases a with
  | nil =>
      have hnil : lstrip after = [] := by
        have hall : lstrip (after ++ []) = lstrip [] := lstrip_append hafter
        rwa [List.append_nil] at hall
      rw [strip, hfirst, List.nil_append, hnil]
      rfl
  | cons c a =>
      have hkept : lstrip (c :: a ++ after) = c :: a ++ after := lstrip_of_head? (by simpa using hhead)
      have hend : lstrip (c :: a).reverse = (c :: a).reverse :=
        lstrip_of_head? fun last hmem => hlast last (by rwa [List.head?_reverse] at hmem)
      rw [strip, hfirst, hkept, List.reverse_append, lstrip_append hback, hend, List.reverse_reverse]

end

/-! ## Lines -/

/-- A text of lines, each of which ends with a line feed. -/
def unlines (ls : List (List Char)) : List Char := ls.flatMap (· ++ ['\n'])

theorem unlines_append (ls ls' : List (List Char)) : unlines (ls ++ ls') = unlines ls ++ unlines ls' := List.flatMap_append

theorem linesFrom_append {line l rest : List Char} (h : ∀ c ∈ l, isLineBreak c = false) :
    linesFrom line (l ++ '\n' :: rest) = (line.reverse ++ l) :: linesFrom [] rest := by
  induction l generalizing line with
  | nil =>
      rw [List.nil_append, linesFrom, if_pos (by decide), List.append_nil]
      nofun
  | cons c l ih =>
      have hc : isLineBreak c = false := h c (List.mem_cons_self ..)
      have hcr : c ≠ '\r' := by
        rintro rfl
        exact absurd hc (by decide)
      rw [List.cons_append, linesFrom, if_neg (by simp [hc]), ih fun c hmem => h c (List.mem_cons_of_mem _ hmem)]
      · simp
      · intro cs hcons
        exact absurd hcons hcr

/-- The lines that a text was made of. -/
theorem lines_unlines {ls : List (List Char)} (h : ∀ l ∈ ls, ∀ c ∈ l, isLineBreak c = false) :
    lines (String.ofList (unlines ls)) = ls := by
  rw [lines, String.toList_ofList]
  induction ls with
  | nil => rfl
  | cons l ls ih =>
      have hrest := ih fun l hmem => h l (List.mem_cons_of_mem _ hmem)
      rw [unlines, List.flatMap_cons, List.append_assoc, List.singleton_append,
        linesFrom_append (h l (List.mem_cons_self ..))]
      exact congrArg (l :: ·) hrest

/-- No line has a line break. -/
theorem isLineBreak_of_mem_linesFrom {line cs : List Char} (h : ∀ c ∈ line, isLineBreak c = false) :
    ∀ l ∈ linesFrom line cs, ∀ c ∈ l, isLineBreak c = false := by
  have hback : ∀ c ∈ line.reverse, isLineBreak c = false := fun c hmem => h c (List.mem_reverse.1 hmem)
  fun_induction linesFrom line cs with
  | case1 => exact nofun
  | case2 line _ =>
      intro l hl
      obtain rfl := List.mem_singleton.1 hl
      exact hback
  | case3 line cs ih =>
      intro l hl
      rcases List.mem_cons.1 hl with rfl | hl
      · exact hback
      · exact ih nofun nofun l hl
  | case4 line c cs _ _ ih =>
      intro l hl
      rcases List.mem_cons.1 hl with rfl | hl
      · exact hback
      · exact ih nofun nofun l hl
  | case5 line c cs _ hc ih =>
      have hcons : ∀ x ∈ c :: line, isLineBreak x = false := by
        intro x hx
        rcases List.mem_cons.1 hx with rfl | hx
        · simpa using hc
        · exact h x hx
      exact ih hcons fun x hx => hcons x (List.mem_reverse.1 hx)

theorem isLineBreak_of_mem_lines {text : String} : ∀ l ∈ lines text, ∀ c ∈ l, isLineBreak c = false :=
  isLineBreak_of_mem_linesFrom nofun

/-! ## Normal forms -/

theorem toNat_ofNat {n : Nat} (h : n < 0xd800) : (Char.ofNat n).toNat = n := by
  have hvalid : n.isValidChar := .inl h
  rw [Char.ofNat, dif_pos hvalid]
  simp [Char.ofNatAux, Char.toNat]

theorem toNat_lowerChar (c : Char) :
    (lowerChar c).toNat = if c.toNat = 0x212a then 107 else if 65 ≤ c.toNat ∧ c.toNat ≤ 90 then c.toNat + 32 else c.toNat := by
  unfold lowerChar
  split
  · rfl
  · split
    next h =>
      exact toNat_ofNat (by omega)
    · rfl

theorem isSpace_lowerChar (c : Char) : isSpace (lowerChar c) = isSpace c := by
  have h := toNat_lowerChar c
  rw [Bool.eq_iff_iff]
  simp only [isSpace, Bool.or_eq_true, Bool.and_eq_true, decide_eq_true_eq, beq_iff_eq]
  split at h
  · omega
  · split at h <;> omega

theorem lowerChar_lowerChar (c : Char) : lowerChar (lowerChar c) = lowerChar c := by
  have h := toNat_lowerChar c
  rw [lowerChar, if_neg, if_neg]
  · split at h
    · omega
    · split at h <;> omega
  · split at h
    · omega
    · split at h <;> omega

theorem lower_lower (cs : List Char) : lower (lower cs) = lower cs := by
  simp [lower, Function.comp_def, lowerChar_lowerChar]

theorem lstrip_lower (cs : List Char) : lstrip (lower cs) = lower (lstrip cs) := by
  have hcomp : isSpace ∘ lowerChar = isSpace := funext isSpace_lowerChar
  rw [lstrip, lower, List.dropWhile_map, hcomp]
  rfl

theorem strip_lower (cs : List Char) : strip (lower cs) = lower (strip cs) := by
  have hreverse : ∀ cs, (lower cs).reverse = lower cs.reverse := fun cs => List.map_reverse.symm
  rw [strip, lstrip_lower, hreverse, lstrip_lower, hreverse]
  rfl

/-- White space at the one end of a text is none at the other. -/
theorem lstrip_reverse_lstrip {cs : List Char} (h : lstrip cs = cs) :
    lstrip (lstrip cs.reverse).reverse = (lstrip cs.reverse).reverse := by
  cases hcs : (lstrip cs.reverse).reverse with
  | nil => rfl
  | cons c rest =>
      -- the first character of what is left is the first of the text
      have hsuffix : lstrip cs.reverse <:+ cs.reverse := List.dropWhile_suffix _
      have hpre : c :: rest <+: cs := by
        rw [← hcs]
        simpa using List.reverse_prefix.2 hsuffix
      obtain ⟨tail, htail⟩ := hpre
      have hc : isSpace c = false := by
        rw [← htail] at h
        by_contra hspace
        have hlength := congrArg List.length h
        rw [Bool.not_eq_false] at hspace
        simp only [lstrip, List.cons_append, List.dropWhile_cons, hspace, if_true, List.length_cons] at hlength
        have := (List.dropWhile_suffix isSpace (l := rest ++ tail)).length_le
        omega
      simp [lstrip, hc]

theorem strip_strip (cs : List Char) : strip (strip cs) = strip cs := by
  have hidem : ∀ cs, lstrip (lstrip cs) = lstrip cs := fun cs => List.dropWhile_idempotent isSpace cs
  rw [strip, strip, lstrip_reverse_lstrip (hidem cs), List.reverse_reverse, hidem]

end Text
end Lib
