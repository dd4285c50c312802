import Mathlib
import DebBuilder.Lib.Text

/-!
# Control files

Paragraphs of named fields, as in the files that describe packages: a field begins on a line
with its name, and goes on in lines that begin with a blank.

## Main definitions

* `FieldName`, `Field`, `Stanza` — the parts of a control file.
* `Field.value` — a value, line by line.
* `text` — the text of a list of stanzas.
-/

namespace Lib
namespace Deb822

/-- A name that a field may have. -/
structure FieldName where
  chars : List Char
  nonempty : chars ≠ []
  printable : ∀ c ∈ chars, 33 ≤ c.toNat ∧ c.toNat ≤ 126 ∧ c ≠ ':'
  start : ∀ c ∈ chars.head?, c ≠ '#' ∧ c ≠ '-'

structure Field where
  name : FieldName
  first : List Char
  continuation : List (List Char)
  oneLine : ∀ line ∈ first :: continuation, '\n' ∉ line

/-- The lines of a value, without the blanks before them. -/
def Field.values (field : Field) : List (List Char) := field.first :: field.continuation

/-- A first line with the others behind it. -/
def folded (first : List Char) (continuation : List (List Char)) : List Char :=
  first ++ continuation.flatMap ('\n' :: ·)

def Field.value (field : Field) : List Char := folded field.first field.continuation

def Field.lines (field : Field) : List (List Char) :=
  (field.name.chars ++ ':' :: ' ' :: field.first) :: field.continuation.map (' ' :: ·)

structure Stanza where
  fields : List Field
  nonempty : fields ≠ []
  distinct : (fields.map fun field => field.name.chars).Nodup

def Stanza.lines (stanza : Stanza) : List (List Char) := stanza.fields.flatMap Field.lines

/-- Blocks of lines with an empty line between them. -/
def paragraphs (blocks : List (List (List Char))) : List (List Char) := [[]].intercalate blocks

def linesOf (stanzas : List Stanza) : List (List Char) := paragraphs (stanzas.map Stanza.lines)

def text (stanzas : List Stanza) : String := String.ofList (Text.unlines (linesOf stanzas))

/-- A name begins with a character that is no white space. -/
theorem FieldName.exists_cons (name : FieldName) : ∃ c cs, name.chars = c :: cs ∧ Text.isSpace c = false := by
  obtain ⟨c, cs, hchars⟩ := List.exists_cons_of_ne_nil name.nonempty
  have hrange := name.printable c (hchars ▸ List.mem_cons_self ..)
  refine ⟨c, cs, hchars, ?_⟩
  rw [← Bool.not_eq_true]
  simp only [Text.isSpace, Bool.or_eq_true, Bool.and_eq_true, decide_eq_true_eq, beq_iff_eq]
  omega

theorem FieldName.isLineBreak (name : FieldName) : ∀ c ∈ name.chars, Text.isLineBreak c = false := by
  intro c hc
  have hrange := name.printable c hc
  rw [← Bool.not_eq_true]
  simp only [Text.isLineBreak, Bool.or_eq_true, Bool.and_eq_true, decide_eq_true_eq, beq_iff_eq]
  omega

theorem folded_concat (first line : List Char) (continuation : List (List Char)) :
    folded first (continuation ++ [line]) = folded first continuation ++ '\n' :: line := by
  simp [folded]

/-- The lines of a value can be told apart. -/
theorem splitOn_folded {first : List Char} {continuation : List (List Char)}
    (h : ∀ line ∈ first :: continuation, '\n' ∉ line) : (folded first continuation).splitOn '\n' = first :: continuation := by
  induction continuation generalizing first with
  | nil => simpa [folded] using List.splitOn_eq_singleton (h first (List.mem_cons_self ..))
  | cons line continuation ih =>
      have hrest := ih fun line hmem => h line (List.mem_cons_of_mem _ hmem)
      have hfolded : folded first (line :: continuation) = first ++ '\n' :: folded line continuation := by
        simp [folded]
      rw [hfolded, List.splitOn_append_cons_self_of_not_mem (h first (List.mem_cons_self ..)), hrest]

theorem unlines_folded (first : List Char) (continuation : List (List Char)) :
    Text.unlines (first :: continuation) = folded first continuation ++ ['\n'] := by
  induction continuation generalizing first with
  | nil => simp [Text.unlines, folded]
  | cons line continuation ih =>
      have hrest := ih line
      simp only [Text.unlines, folded, List.flatMap_cons, List.append_assoc, List.cons_append, List.nil_append] at hrest ⊢
      rw [hrest]

/-- The first block ends at the empty line that stands between it and the next one, or at the
end. -/
theorem paragraphs_cons (block : List (List Char)) (blocks : List (List (List Char))) :
    paragraphs (block :: blocks) ++ [[]] = block ++ [] :: (if blocks = [] then [] else paragraphs blocks ++ [[]]) := by
  cases blocks with
  | nil => simp [paragraphs]
  | cons next blocks =>
      rw [paragraphs, List.intercalate_cons_of_ne_nil (by simp), if_neg nofun]
      simp [paragraphs]

theorem mem_paragraphs {blocks : List (List (List Char))} {line : List Char} (h : line ∈ paragraphs blocks) :
    line = [] ∨ ∃ block ∈ blocks, line ∈ block := by
  induction blocks with
  | nil => exact nomatch h
  | cons block blocks ih =>
      have hmem : line ∈ paragraphs (block :: blocks) ++ [[]] := List.mem_append_left _ h
      rw [paragraphs_cons] at hmem
      rcases List.mem_append.1 hmem with hblock | hrest
      · exact .inr ⟨block, List.mem_cons_self .., hblock⟩
      rcases List.mem_cons.1 hrest with rfl | hrest
      · exact .inl rfl
      split at hrest
      · exact nomatch hrest
      rcases List.mem_append.1 hrest with hrest | hlast
      · rcases ih hrest with hnil | ⟨other, hother, hline⟩
        · exact .inl hnil
        · exact .inr ⟨other, List.mem_cons_of_mem _ hother, hline⟩
      · exact .inl (List.mem_singleton.1 hlast)

end Deb822
end Lib
