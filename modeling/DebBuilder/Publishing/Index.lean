import Mathlib
import DebBuilder.Lib.Deb822
import DebBuilder.Publishing.Repository

/-!
# Parsing an index that was rendered

`parse_packages_index` ends a line at every line boundary of Unicode, and a stanza at every
line without a visible character.  A control file ends its lines at line feeds only.

## Main definitions

* `Readable` — a field whose lines are lines for the parser.

## Main statements

* `parse_text_iff` — when the parser returns the stanzas that were rendered.
-/

namespace DebBuilder.Publishing
open Lib Deb822

/-! ## What is rendered -/

def rowOf (fields : List Field) (row : IndexRow) : IndexRow :=
  fields.foldl (fun row field => row.insert (String.ofList field.name.chars) (String.ofList field.value)) row

/-- The row that a stanza stands for. -/
def stanzaRow (stanza : Stanza) : IndexRow := rowOf stanza.fields ∅

/-- No line of the value has a line boundary in it, and no line after the first one is
blank. -/
def Readable (field : Field) : Prop :=
  (∀ line ∈ field.values, ∀ c ∈ line, Text.isLineBreak c = false) ∧ ∀ line ∈ field.continuation, Text.strip line ≠ []

/-! ## From the text to the rows -/

theorem strip_ne_nil {c : Char} {cs : List Char} (hmem : c ∈ cs) (h : Text.isSpace c = false) : Text.strip cs ≠ [] := by
  intro hnil
  simp [Text.strip_eq_nil.1 hnil c hmem] at h

variable {rows : List IndexRow} {row : IndexRow} {last : String} {rest : List (List Char)}

theorem parseIndexLines_header (name : FieldName) (first : List Char) (hfresh : String.ofList name.chars ∉ row) :
    parseIndexLines rows row last ((name.chars ++ ':' :: ' ' :: first) :: rest) =
      parseIndexLines rows (row.insert (String.ofList name.chars) (String.ofList first)) (String.ofList name.chars)
        rest := by
  obtain ⟨c, cs, hchars, hspace⟩ := name.exists_cons
  have hvisible : Text.strip (name.chars ++ ':' :: ' ' :: first) ≠ [] := strip_ne_nil (by simp [hchars]) hspace
  have hhead : (name.chars ++ ':' :: ' ' :: first).head?.any (· ∈ [' ', '\t']) = false := by
    have hblank : c ∉ [' ', '\t'] := by
      intro hmem
      simp only [List.mem_cons, List.not_mem_nil, or_false] at hmem
      rcases hmem with rfl | rfl <;> exact absurd hspace (by decide)
    simpa [hchars] using hblank
  have hcut : Text.cut [':', ' '] (name.chars ++ ':' :: ' ' :: first) = some (name.chars, first) :=
    Text.cut_append fun c hc => (name.printable c hc).2.2
  rw [parseIndexLines, if_neg hvisible]
  simp only [hhead, Bool.false_and, Bool.false_eq_true, if_false, hcut, if_neg hfresh]

theorem parseIndexLines_continuation (line : List Char) (hline : Text.strip line ≠ []) (hlast : last ≠ "") :
    parseIndexLines rows row last ((' ' :: line) :: rest) =
      parseIndexLines rows (Dict.set row last ((row.lookup last).getD "" ++ "\n" ++ String.ofList line)) last rest := by
  have hvisible : Text.strip (' ' :: line) ≠ [] := by
    intro hnil
    exact hline (Text.strip_eq_nil.2 fun c hc => Text.strip_eq_nil.1 hnil c (List.mem_cons_of_mem _ hc))
  rw [parseIndexLines, if_neg hvisible, if_pos]
  · rfl
  · simp [hlast]

/-- The lines after the first one. -/
theorem parseIndexLines_continuations (name : FieldName) (first : List Char) (lines : List (List Char))
    (h : ∀ line ∈ lines, Text.strip line ≠ []) (done : List (List Char)) :
    parseIndexLines rows (row.insert (String.ofList name.chars) (String.ofList (folded first done)))
        (String.ofList name.chars) (lines.map (' ' :: ·) ++ rest) =
      parseIndexLines rows (row.insert (String.ofList name.chars) (String.ofList (folded first (done ++ lines))))
        (String.ofList name.chars) rest := by
  induction lines generalizing done with
  | nil => simp
  | cons line lines ih =>
      have hname : String.ofList name.chars ≠ "" := by
        intro hnil
        exact name.nonempty (by simpa using congrArg String.toList hnil)
      have hline := h line (List.mem_cons_self ..)
      have hrest := ih (fun line hmem => h line (List.mem_cons_of_mem _ hmem)) (done ++ [line])
      have hvalue : String.ofList (folded first done) ++ "\n" ++ String.ofList line =
          String.ofList (folded first (done ++ [line])) := by
        rw [folded_concat, ← String.toList_inj]
        simp
      rw [List.map_cons, List.cons_append, parseIndexLines_continuation line hline hname, AList.lookup_insert,
        Option.getD_some, hvalue, Dict.set_insert, hrest]
      simp

theorem parseIndexLines_field (field : Field) (h : Readable field) (hfresh : String.ofList field.name.chars ∉ row) :
    parseIndexLines rows row last (field.lines ++ rest) =
      parseIndexLines rows (row.insert (String.ofList field.name.chars) (String.ofList field.value))
        (String.ofList field.name.chars) rest := by
  have hlines := @parseIndexLines_continuations rows row rest field.name field.first
    field.continuation h.2 []
  simp only [folded, List.flatMap_nil, List.append_nil, List.nil_append] at hlines
  rw [Field.lines, List.cons_append, parseIndexLines_header _ _ hfresh, hlines]
  rfl

/-- The lines of a stanza, up to its end. -/
theorem parseIndexLines_fields (fields : List Field) (h : ∀ field ∈ fields, Readable field)
    (hfresh : ∀ field ∈ fields, String.ofList field.name.chars ∉ row)
    (hdistinct : (fields.map fun field => field.name.chars).Nodup) (hrow : fields = [] → row.keys ≠ []) :
    parseIndexLines rows row last (fields.flatMap Field.lines ++ [] :: rest) =
      parseIndexLines (rows ++ [rowOf fields row]) ∅ "" rest := by
  induction fields generalizing row last with
  | nil =>
      have hstrip : Text.strip [] = [] := rfl
      rw [List.flatMap_nil, List.nil_append, parseIndexLines, if_pos hstrip, if_neg (hrow rfl)]
      rfl
  | cons field fields ih =>
      have hfield := h field (List.mem_cons_self ..)
      rw [List.flatMap_cons, List.append_assoc,
        parseIndexLines_field field hfield (hfresh field (List.mem_cons_self ..)), ih]
      · rfl
      · exact fun field hmem => h field (List.mem_cons_of_mem _ hmem)
      · intro other hmem hinsert
        rcases (AList.mem_insert row).1 hinsert with hsame | hold
        · refine (List.nodup_cons.1 hdistinct).1 (List.mem_map.2 ⟨other, hmem, ?_⟩)
          simpa using congrArg String.toList hsame
        · exact hfresh other (List.mem_cons_of_mem _ hmem) hold
      · exact (List.nodup_cons.1 hdistinct).2
      · intro _ hkeys
        have hmem := (AList.mem_keys).1 ((AList.mem_insert row).2 (.inl rfl) :
          String.ofList field.name.chars ∈ row.insert (String.ofList field.name.chars) (String.ofList field.value))
        rw [hkeys] at hmem
        exact nomatch hmem

/-- The lines of a list of stanzas. -/
theorem parseIndexLines_linesOf (stanzas : List Stanza) (h : ∀ stanza ∈ stanzas, ∀ field ∈ stanza.fields, Readable field) :
    parseIndexLines rows ∅ "" (linesOf stanzas ++ [[]]) = .ok (rows ++ stanzas.map stanzaRow) := by
  induction stanzas generalizing rows with
  | nil =>
      have hstrip : Text.strip [] = [] := rfl
      rw [linesOf, List.map_nil, paragraphs, List.intercalate_nil, List.nil_append, parseIndexLines, if_pos hstrip]
      simp [parseIndexLines]
  | cons stanza stanzas ih =>
      have hrest := @ih (rows ++ [stanzaRow stanza]) fun stanza hmem => h stanza (List.mem_cons_of_mem _ hmem)
      rw [linesOf, List.map_cons, paragraphs_cons, Stanza.lines, parseIndexLines_fields stanza.fields
        (h stanza (List.mem_cons_self ..)) (fun _ _ => AList.notMem_empty _) stanza.distinct
        (fun hnil => absurd hnil stanza.nonempty)]
      split
      · next hnil =>
          rw [List.map_eq_nil_iff] at hnil
          simp [hnil, parseIndexLines, stanzaRow]
      · rw [← linesOf, show rows ++ [rowOf stanza.fields ∅] = rows ++ [stanzaRow stanza] from rfl, hrest]
        simp

/-- The lines of a text that was rendered. -/
theorem lines_text {stanzas : List Stanza} (h : ∀ stanza ∈ stanzas, ∀ field ∈ stanza.fields, Readable field) :
    Text.lines (text stanzas) = linesOf stanzas := by
  apply Text.lines_unlines
  intro line hline
  rcases mem_paragraphs hline with rfl | ⟨block, hblock, hmem⟩
  · exact nofun
  obtain ⟨stanza, hstanza, rfl⟩ := List.mem_map.1 hblock
  obtain ⟨field, hfield, hmem⟩ := List.mem_flatMap.1 hmem
  have hread := (h stanza hstanza field hfield).1
  rcases List.mem_cons.1 hmem with rfl | hcont
  · intro c hc
    rcases List.mem_append.1 hc with hname | hvalue
    · exact field.name.isLineBreak c hname
    rcases List.mem_cons.1 hvalue with rfl | hvalue
    · decide
    rcases List.mem_cons.1 hvalue with rfl | hvalue
    · decide
    exact hread field.first (List.mem_cons_self ..) c hvalue
  · obtain ⟨value, hvalue, rfl⟩ := List.mem_map.1 hcont
    intro c hc
    rcases List.mem_cons.1 hc with rfl | hc
    · decide
    exact hread value (List.mem_cons_of_mem _ hvalue) c hc

theorem parsePackagesIndex_text {stanzas : List Stanza}
    (h : ∀ stanza ∈ stanzas, ∀ field ∈ stanza.fields, Readable field) :
    parsePackagesIndex (text stanzas) = .ok (stanzas.map stanzaRow) := by
  have hparse := @parseIndexLines_linesOf [] stanzas h
  rw [parsePackagesIndex, lines_text h, hparse, List.nil_append]

/-! ## What the parser can return -/

/-- A value that the parser can build: its lines are lines of a text, and those after the
first one are not blank. -/
def Parsable (value : String) : Prop :=
  ∃ first continuation, value = String.ofList (folded first continuation) ∧
    (∀ line ∈ first :: continuation, ∀ c ∈ line, Text.isLineBreak c = false) ∧
    ∀ line ∈ continuation, Text.strip line ≠ []

def RowParsable (row : IndexRow) : Prop := ∀ key value, row.lookup key = some value → Parsable value

theorem rowParsable_empty : RowParsable ∅ := by
  intro key value hlookup
  exact nomatch hlookup

theorem rowParsable_insert {row : IndexRow} (h : RowParsable row) {key value : String} (hvalue : Parsable value) :
    RowParsable (row.insert key value) := by
  intro other found hlookup
  by_cases hkey : other = key
  · subst hkey
    rw [AList.lookup_insert] at hlookup
    cases hlookup
    exact hvalue
  · rw [AList.lookup_insert_ne hkey] at hlookup
    exact h other found hlookup

theorem parsable_line {line : List Char} (h : ∀ c ∈ line, Text.isLineBreak c = false) :
    Parsable (String.ofList line) := by
  refine ⟨line, [], by simp [folded], ?_, nofun⟩
  intro other hmem
  rw [List.mem_singleton.1 hmem]
  exact h

theorem parsable_append {value : String} (h : Parsable value) {line : List Char}
    (hbreak : ∀ c ∈ line, Text.isLineBreak c = false) (hblank : Text.strip line ≠ []) :
    Parsable (value ++ "\n" ++ String.ofList line) := by
  obtain ⟨first, continuation, rfl, hlines, hblanks⟩ := h
  refine ⟨first, continuation ++ [line], ?_, ?_, ?_⟩
  · rw [folded_concat, ← String.toList_inj]
    simp
  · intro other hmem
    rw [← List.cons_append] at hmem
    rcases List.mem_append.1 hmem with hold | hnew
    · exact hlines other hold
    · rw [List.mem_singleton.1 hnew]
      exact hbreak
  · intro other hmem
    rcases List.mem_append.1 hmem with hold | hnew
    · exact hblanks other hold
    · rw [List.mem_singleton.1 hnew]
      exact hblank

theorem rowParsable_set {row : IndexRow} (h : RowParsable row) {key value : String} (hvalue : Parsable value) :
    RowParsable (Dict.set row key value) := by
  intro other found hlookup
  by_cases hkey : other = key
  · subst hkey
    rw [Dict.lookup_set, if_pos rfl] at hlookup
    cases hlookup
    exact hvalue
  · rw [Dict.lookup_set, if_neg hkey] at hlookup
    exact h other found hlookup

/-- Every row that the parser returns has values that it can build. -/
theorem rowParsable_of_parseIndexLines {ls : List (List Char)} {rows result : List IndexRow} {row : IndexRow}
    {last : String} (hls : ∀ l ∈ ls, ∀ c ∈ l, Text.isLineBreak c = false) (hrows : ∀ row ∈ rows, RowParsable row)
    (hrow : RowParsable row) (h : parseIndexLines rows row last ls = .ok result) : ∀ row ∈ result, RowParsable row := by
  induction ls generalizing rows row last with
  | nil =>
      cases h
      exact hrows
  | cons raw rest ih =>
      have hrest : ∀ l ∈ rest, ∀ c ∈ l, Text.isLineBreak c = false := fun l hmem => hls l (List.mem_cons_of_mem _ hmem)
      have hraw : ∀ c ∈ raw, Text.isLineBreak c = false := hls raw (List.mem_cons_self ..)
      rw [parseIndexLines] at h
      split at h
      · -- a blank line ends the stanza
        split at h
        · exact ih hrest hrows hrow h
        · refine ih hrest ?_ rowParsable_empty h
          intro other hmem
          rcases List.mem_append.1 hmem with hold | hnew
          · exact hrows other hold
          · rw [List.mem_singleton.1 hnew]
            exact hrow
      next hvisible =>
      split at h
      · next hfold =>
        -- the line goes on with the last field
        cases raw with
        | nil => exact absurd rfl hvisible
        | cons c line =>
            have hspace : Text.isSpace c = true := by
              simp only [List.head?_cons, Option.any_some, Bool.and_eq_true, decide_eq_true_eq, List.mem_cons,
                List.not_mem_nil, or_false] at hfold
              rcases hfold.1 with rfl | rfl <;> decide
            have hblank : Text.strip line ≠ [] := by
              intro hnil
              refine hvisible (Text.strip_eq_nil.2 fun d hd => ?_)
              rcases List.mem_cons.1 hd with rfl | hd
              · exact hspace
              · exact Text.strip_eq_nil.1 hnil d hd
            have hline : ∀ d ∈ line, Text.isLineBreak d = false := fun d hd => hraw d (List.mem_cons_of_mem _ hd)
            have hvalue : Parsable ((row.lookup last).getD "") := by
              cases hlookup : row.lookup last with
              | none => exact @parsable_line [] nofun
              | some value => exact hrow last value hlookup
            exact ih hrest hrows (rowParsable_set hrow (parsable_append hvalue hline hblank)) h
      · split at h
        · next key value hcut =>
          split at h
          · exact nomatch h
          · have hvalue : ∀ c ∈ value, Text.isLineBreak c = false := by
              intro c hc
              have hsplit := Text.append_of_cut hcut
              exact hraw c (by simp [hsplit, hc])
            exact ih hrest hrows (rowParsable_insert hrow (parsable_line hvalue)) h
        · exact nomatch h

theorem lookup_rowOf_of_notMem {fields : List Field} {row : IndexRow} {key : String}
    (h : key ∉ fields.map fun field => String.ofList field.name.chars) : (rowOf fields row).lookup key = row.lookup key := by
  induction fields generalizing row with
  | nil => rfl
  | cons field fields ih =>
      rw [List.map_cons, List.mem_cons, not_or] at h
      rw [rowOf, List.foldl_cons, ← rowOf, ih h.2, AList.lookup_insert_ne h.1]

theorem lookup_rowOf {fields : List Field} (hdistinct : (fields.map fun field => field.name.chars).Nodup) (row : IndexRow)
    {field : Field} (hmem : field ∈ fields) :
    (rowOf fields row).lookup (String.ofList field.name.chars) = some (String.ofList field.value) := by
  induction fields generalizing row with
  | nil => exact nomatch hmem
  | cons head fields ih =>
      have hnodup := List.nodup_cons.1 hdistinct
      rcases List.mem_cons.1 hmem with rfl | hrest
      · have hlater : String.ofList field.name.chars ∉ fields.map fun other => String.ofList other.name.chars := by
          intro hlater
          obtain ⟨other, hother, hname⟩ := List.mem_map.1 hlater
          refine hnodup.1 (List.mem_map.2 ⟨other, hother, ?_⟩)
          simpa using congrArg String.toList hname
        rw [rowOf, List.foldl_cons, ← rowOf, lookup_rowOf_of_notMem hlater, AList.lookup_insert]
      · exact ih hnodup.2 _ hrest

/-- A field whose value the parser can build is readable. -/
theorem readable_of_parsable {field : Field} (h : Parsable (String.ofList field.value)) : Readable field := by
  obtain ⟨first, continuation, hvalue, hlines, hblanks⟩ := h
  have hfolded : folded field.first field.continuation = folded first continuation := by
    simpa [Field.value] using congrArg String.toList hvalue
  have hnewline : ∀ line ∈ first :: continuation, '\n' ∉ line := by
    intro line hmem hc
    exact absurd (hlines line hmem _ hc) (by decide)
  have hsame : field.first :: field.continuation = first :: continuation := by
    rw [← splitOn_folded field.oneLine, hfolded, splitOn_folded hnewline]
  obtain ⟨hfirst, hcontinuation⟩ := List.cons.inj hsame
  exact ⟨by rw [Field.values, hsame]; exact hlines, by rw [hcontinuation]; exact hblanks⟩

/-! ## When parsing undoes rendering -/

/-- The parser returns the stanzas that were rendered if and only if each of their fields is
readable. -/
theorem parse_text_iff (stanzas : List Stanza) :
    parsePackagesIndex (text stanzas) = .ok (stanzas.map stanzaRow) ↔
      ∀ stanza ∈ stanzas, ∀ field ∈ stanza.fields, Readable field := by
  constructor
  · intro h stanza hstanza field hfield
    have hlines : ∀ l ∈ Text.lines (text stanzas) ++ [[]], ∀ c ∈ l, Text.isLineBreak c = false := by
      intro l hl
      rcases List.mem_append.1 hl with hl | hl
      · exact Text.isLineBreak_of_mem_lines l hl
      · rw [List.mem_singleton.1 hl]
        exact nofun
    have hnone : ∀ row ∈ ([] : List IndexRow), RowParsable row := fun _ hmem => absurd hmem List.not_mem_nil
    have hparsable := rowParsable_of_parseIndexLines hlines hnone rowParsable_empty h (stanzaRow stanza)
      (List.mem_map.2 ⟨stanza, hstanza, rfl⟩)
    exact readable_of_parsable (hparsable _ _ (lookup_rowOf stanza.distinct ∅ hfield))
  · exact parsePackagesIndex_text

/-- A description with the line separator of Unicode in it. -/
def separatorStanza : Stanza where
  fields := [⟨⟨"Description".toList, by decide, List.forall_iff_forall_mem.1 (by decide), by rintro c ⟨⟩; decide⟩,
    ['a', '\u2028', 'b'], [], by decide⟩]
  nonempty := nofun
  distinct := by decide

/-- The index with that description cannot be read. -/
theorem separator_unreadable :
    ¬ ∀ stanzas : List Stanza, parsePackagesIndex (text stanzas) = .ok (stanzas.map stanzaRow) := by
  intro h
  have hfail : (parsePackagesIndex (text [separatorStanza])).isOk = false := by rfl
  rw [h] at hfail
  exact nomatch hfail

end DebBuilder.Publishing
