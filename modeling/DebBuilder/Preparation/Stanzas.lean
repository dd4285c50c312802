import Mathlib
import DebBuilder.Lib.Deb822
import DebBuilder.Lib.Dict
import DebBuilder.Lib.Fallible

/-!
# Control stanzas of the preparation container

`parse_stanzas` and `render_stanzas`, with which the status that APT solves against is read
and written.  A stanza keeps its fields in the order in which they were met; a folded line
keeps the blank that it begins with.

## Main definitions

* `parseStanzas`, `renderStanzas` — `parse_stanzas` and `render_stanzas`.
* `Renderable` — a stanza whose text is read as that stanza.

## Main statements

* `parse_render` — renderable stanzas are read back.
* `renderable_of_parseStanzas` — the parser returns renderable stanzas only.
-/

namespace DebBuilder.Preparation
open Lib Deb822

/-- What the helper in the container raises. -/
inductive Raised
  | value (message : String)
  /-- `subprocess.CalledProcessError` -/
  | process
  deriving DecidableEq, Repr

/-- A control stanza: its fields, in order. -/
abbrev Row := Dict String String

/-- `line[0].isspace()` -/
def indented (line : List Char) : Bool := line.head?.any Text.isSpace

/-- The stanzas of the lines that are left, after those in `rows`; `current` is the one that is
read and `last` its last field. -/
def parseLines (rows : List Row) (current : Row) (last : String) : List (List Char) → Except Raised (List Row)
  | [] => .ok rows
  | line :: rest =>
      if line = [] then
        if current.keys = [] then parseLines rows current last rest else parseLines (rows ++ [current]) ∅ "" rest
      else if indented line && last ≠ "" then
        parseLines rows (Dict.set current last ((current.lookup last).getD "" ++ "\n" ++ String.ofList line)) last rest
      else match Text.cut [':'] line with
        | some (key, value) =>
            if String.ofList key ∈ current then .error (.value s!"Debian control stanza repeats {String.ofList key}")
            else parseLines rows (current.insert (String.ofList key) (String.ofList (Text.lstrip value))) (String.ofList key) rest
        | none => .error (.value "Debian control stanza contains a malformed field")

/-- `parse_stanzas` -/
def parseStanzas (text : String) : Except Raised (List Row) := parseLines [] ∅ "" (Text.lines text ++ [[]])

def renderField (field : String × String) : List Char := field.1.toList ++ ':' :: ' ' :: field.2.toList

def renderRow (row : Row) : List Char := ['\n'].intercalate ((Dict.items row).map renderField)

/-- `render_stanzas` -/
def renderStanzas (rows : List Row) : String :=
  String.ofList (['\n', '\n'].intercalate (rows.map renderRow) ++ ['\n'])

/-! ## Renderable stanzas -/

/-- A field that is read back: the lines of its value after the first one are folded lines. -/
structure RenderableField (key value : String) : Prop where
  name : ∀ c ∈ key.toList, c ≠ ':' ∧ Text.isLineBreak c = false
  value : ∃ first continuation, value = String.ofList (folded first continuation) ∧ Text.lstrip first = first ∧
    (∀ line ∈ first :: continuation, ∀ c ∈ line, Text.isLineBreak c = false) ∧
    (∀ line ∈ continuation, indented line) ∧ (key = "" → continuation = [])

/-- A name that begins with a blank can only follow the empty name, which has no folded lines. -/
def Follows (before after : String) : Prop := indented after.toList = true → before = ""

/-- A stanza that is read back. -/
structure Renderable (row : Row) : Prop where
  nonempty : Dict.items row ≠ []
  fields : ∀ field ∈ Dict.items row, RenderableField field.1 field.2
  follows : List.IsChain Follows ("" :: (Dict.items row).map Prod.fst)

/-! ## Reading what was rendered -/

/-- The lines of a field. -/
def fieldLines (field : String × String) : List (List Char) :=
  match field.2.toList.splitOn '\n' with
  | first :: continuation => (field.1.toList ++ ':' :: ' ' :: first) :: continuation
  | [] => []

def rowLines (row : Row) : List (List Char) := (Dict.items row).flatMap fieldLines

theorem newline_notMem {line : List Char} (h : ∀ c ∈ line, Text.isLineBreak c = false) : '\n' ∉ line := by
  intro hmem
  exact absurd (h _ hmem) (by decide)

theorem fieldLines_folded {key : String} {first : List Char} {continuation : List (List Char)}
    (h : ∀ line ∈ first :: continuation, ∀ c ∈ line, Text.isLineBreak c = false) :
    fieldLines (key, String.ofList (folded first continuation)) =
      (key.toList ++ ':' :: ' ' :: first) :: continuation := by
  have hsplit := splitOn_folded fun line hmem => newline_notMem (h line hmem)
  simp only [fieldLines, String.toList_ofList, hsplit]

variable {rows : List Row} {row : Row} {last : String} {rest : List (List Char)}

theorem parseLines_continuations {key : String} (hkey : key ≠ "") (first : List Char) (lines : List (List Char))
    (h : ∀ line ∈ lines, indented line) (done : List (List Char)) :
    parseLines rows (row.insert key (String.ofList (folded first done))) key (lines ++ rest) =
      parseLines rows (row.insert key (String.ofList (folded first (done ++ lines)))) key rest := by
  induction lines generalizing done with
  | nil => simp
  | cons line lines ih =>
      have hline : indented line = true := h line (List.mem_cons_self ..)
      have hne : line ≠ [] := by
        intro hnil
        simp [hnil, indented] at hline
      have hvalue : String.ofList (folded first done) ++ "\n" ++ String.ofList line =
          String.ofList (folded first (done ++ [line])) := by
        rw [folded_concat, ← String.toList_inj]
        simp
      rw [List.cons_append, parseLines, if_neg hne, if_pos (by simp [hline, hkey]), AList.lookup_insert,
        Option.getD_some, hvalue, Dict.set_insert, ih (fun line hmem => h line (List.mem_cons_of_mem _ hmem))]
      simp

/-- The lines of one field. -/
theorem parseLines_field {key value : String} (h : RenderableField key value) (hfollows : Follows last key) (hfresh : key ∉ row) :
    parseLines rows row last (fieldLines (key, value) ++ rest) = parseLines rows (row.insert key value) key rest := by
  obtain ⟨first, continuation, rfl, hstrip, hbreaks, hfolds, hempty⟩ := h.value
  have hheader : (indented (key.toList ++ ':' :: ' ' :: first) && decide (last ≠ "")) = false := by
    rw [Bool.and_eq_false_iff]
    by_cases hindent : indented (key.toList ++ ':' :: ' ' :: first) = true
    · right
      have hkey : indented key.toList = true := by
        cases hlist : key.toList with
        | nil => simp [hlist, indented, Text.isSpace] at hindent
        | cons c cs => simpa [hlist, indented] using hindent
      simp [hfollows hkey]
    · exact .inl (Bool.eq_false_iff.2 hindent)
  have hlstrip : Text.lstrip (' ' :: first) = first := by
    rw [Text.lstrip, List.dropWhile_cons, if_pos (by decide)]
    exact hstrip
  have hcut : Text.cut [':'] (key.toList ++ ':' :: ' ' :: first) = some (key.toList, ' ' :: first) :=
    Text.cut_append fun c hc => (h.name c hc).1
  rw [fieldLines_folded hbreaks, List.cons_append, parseLines, if_neg (by simp)]
  simp only [hheader, Bool.false_eq_true, if_false, hcut, String.ofList_toList, if_neg hfresh, hlstrip]
  by_cases hkey : key = ""
  · rw [hempty hkey]
    simp [folded]
  · have hrest := @parseLines_continuations rows row rest key hkey first continuation hfolds []
    simpa [folded] using hrest

theorem parseLines_fields (fields : List (String × String)) (h : ∀ field ∈ fields, RenderableField field.1 field.2)
    (hfollows : List.IsChain Follows (last :: fields.map Prod.fst)) (hfresh : ∀ field ∈ fields, field.1 ∉ row)
    (hdistinct : (fields.map Prod.fst).Nodup) (hrow : fields = [] → row.keys ≠ []) :
    parseLines rows row last (fields.flatMap fieldLines ++ [] :: rest) =
      parseLines (rows ++ [fields.foldl (fun row field => row.insert field.1 field.2) row]) ∅ "" rest := by
  induction fields generalizing row last with
  | nil => rw [List.flatMap_nil, List.nil_append, parseLines, if_pos rfl, if_neg (hrow rfl), List.foldl_nil]
  | cons field fields ih =>
      rw [List.map_cons, List.isChain_cons_cons] at hfollows
      have hnodup := List.nodup_cons.1 hdistinct
      have hfield := @parseLines_field rows row last (fields.flatMap fieldLines ++ [] :: rest) field.1 field.2
        (h field (List.mem_cons_self ..)) hfollows.1 (hfresh field (List.mem_cons_self ..))
      rw [List.flatMap_cons, List.append_assoc, hfield, ih]
      · rfl
      · exact fun field hmem => h field (List.mem_cons_of_mem _ hmem)
      · exact hfollows.2
      · intro other hmem hinsert
        rcases (AList.mem_insert row).1 hinsert with hsame | hold
        · exact hnodup.1 (List.mem_map.2 ⟨other, hmem, hsame⟩)
        · exact hfresh other (List.mem_cons_of_mem _ hmem) hold
      · exact hnodup.2
      · intro _ hkeys
        have hmem : field.1 ∈ (row.insert field.1 field.2).keys :=
          AList.mem_keys.1 ((AList.mem_insert row).2 (.inl rfl))
        rw [hkeys] at hmem
        exact absurd hmem List.not_mem_nil

/-! ## The lines of what was rendered -/

theorem parseLines_rows (added : List Row) (h : ∀ row ∈ added, Renderable row) :
    parseLines rows ∅ "" (paragraphs (added.map rowLines) ++ [[]]) = .ok (rows ++ added) := by
  induction added generalizing rows with
  | nil => simp [paragraphs, parseLines, AList.keys_empty]
  | cons row added ih =>
      have hrow := h row (List.mem_cons_self ..)
      have hfields := fun rest => @parseLines_fields rows ∅ "" rest (Dict.items row)
        hrow.fields hrow.follows (fun _ _ => AList.notMem_empty _) (Dict.nodup_items row) (fun hnil => absurd hnil hrow.nonempty)
      rw [List.map_cons, paragraphs_cons, rowLines, hfields, Dict.foldl_items]
      split
      · next hnil =>
          rw [List.map_eq_nil_iff] at hnil
          simp [hnil, parseLines]
      · rw [ih fun row hmem => h row (List.mem_cons_of_mem _ hmem)]
        simp

theorem unlines_fieldLines {key value : String} (h : RenderableField key value) :
    Text.unlines (fieldLines (key, value)) = renderField (key, value) ++ ['\n'] := by
  obtain ⟨first, continuation, rfl, _, hbreaks, _⟩ := h.value
  have hfolded : Text.unlines (first :: continuation) = folded first continuation ++ ['\n'] := by
    rw [unlines_folded]
  rw [fieldLines_folded hbreaks, renderField, String.toList_ofList]
  simpa [Text.unlines] using hfolded

theorem unlines_fields {fields : List (String × String)} (hne : fields ≠ []) (h : ∀ field ∈ fields, RenderableField field.1 field.2) :
    Text.unlines (fields.flatMap fieldLines) = ['\n'].intercalate (fields.map renderField) ++ ['\n'] := by
  induction fields with
  | nil => exact absurd rfl hne
  | cons field fields ih =>
      have hfield := unlines_fieldLines (h field (List.mem_cons_self ..))
      rw [List.flatMap_cons, Text.unlines_append, hfield]
      cases fields with
      | nil => simp [Text.unlines]
      | cons next fields =>
          have hjoin : ['\n'].intercalate ((field :: next :: fields).map renderField) =
              renderField field ++ ['\n'] ++ ['\n'].intercalate ((next :: fields).map renderField) :=
            List.intercalate_cons_of_ne_nil (by simp)
          rw [ih (by rintro ⟨⟩) fun field hmem => h field (List.mem_cons_of_mem _ hmem), hjoin]
          simp only [List.append_assoc]

theorem unlines_rows {rows : List Row} (hne : rows ≠ []) (h : ∀ row ∈ rows, Renderable row) :
    Text.unlines (paragraphs (rows.map rowLines)) = ['\n', '\n'].intercalate (rows.map renderRow) ++ ['\n'] := by
  induction rows with
  | nil => exact absurd rfl hne
  | cons row rows ih =>
      have hrow := h row (List.mem_cons_self ..)
      have hlines : Text.unlines (rowLines row) = renderRow row ++ ['\n'] := unlines_fields hrow.nonempty hrow.fields
      cases rows with
      | nil => simpa [paragraphs] using hlines
      | cons next rows =>
          have hrest := ih (by rintro ⟨⟩) fun row hmem => h row (List.mem_cons_of_mem _ hmem)
          have hblocks : paragraphs ((row :: next :: rows).map rowLines) =
              rowLines row ++ [[]] ++ paragraphs ((next :: rows).map rowLines) := List.intercalate_cons_of_ne_nil (by simp)
          have hjoin : ['\n', '\n'].intercalate ((row :: next :: rows).map renderRow) =
              renderRow row ++ ['\n', '\n'] ++ ['\n', '\n'].intercalate ((next :: rows).map renderRow) :=
            List.intercalate_cons_of_ne_nil (by simp)
          have hempty : Text.unlines [[]] = ['\n'] := rfl
          rw [hblocks, hjoin, Text.unlines_append, Text.unlines_append, hlines, hrest, hempty]
          simp only [List.append_assoc, List.cons_append, List.nil_append]

/-- Renderable stanzas are read back. -/
theorem parse_render {rows : List Row} (h : ∀ row ∈ rows, Renderable row) : parseStanzas (renderStanzas rows) = .ok rows := by
  by_cases hne : rows = []
  · subst hne
    rfl
  have hlines : Text.lines (renderStanzas rows) = paragraphs (rows.map rowLines) := by
    rw [renderStanzas, ← unlines_rows hne h]
    apply Text.lines_unlines
    intro line hline
    rcases mem_paragraphs hline with rfl | ⟨block, hblock, hmem⟩
    · exact nofun
    obtain ⟨row, hrow, rfl⟩ := List.mem_map.1 hblock
    obtain ⟨⟨key, value⟩, hfield, hmem⟩ := List.mem_flatMap.1 hmem
    have hrender := (h row hrow).fields _ hfield
    obtain ⟨first, continuation, rfl, _, hbreaks, _⟩ := hrender.value
    rw [fieldLines_folded hbreaks] at hmem
    rcases List.mem_cons.1 hmem with rfl | hcont
    · intro c hc
      rcases List.mem_append.1 hc with hname | hvalue
      · exact (hrender.name c hname).2
      rcases List.mem_cons.1 hvalue with rfl | hvalue
      · decide
      rcases List.mem_cons.1 hvalue with rfl | hvalue
      · decide
      exact hbreaks first (List.mem_cons_self ..) c hvalue
    · exact hbreaks line (List.mem_cons_of_mem _ hcont)
  have hparse := @parseLines_rows [] rows h
  rw [parseStanzas, hlines, hparse, List.nil_append]

/-! ## What the parser returns -/

theorem renderableField_line {key line : List Char} (hcolon : ∀ c ∈ key, c ≠ ':') (hkey : ∀ c ∈ key, Text.isLineBreak c = false)
    (hline : ∀ c ∈ line, Text.isLineBreak c = false) :
    RenderableField (String.ofList key) (String.ofList (Text.lstrip line)) where
  name := by
    intro c hc
    rw [String.toList_ofList] at hc
    exact ⟨hcolon c hc, hkey c hc⟩
  value := by
    refine ⟨Text.lstrip line, [], by simp [folded], ?_, ?_, nofun, fun _ => rfl⟩
    · exact List.dropWhile_idempotent ..
    · intro other hmem
      rw [List.mem_singleton.1 hmem]
      exact fun c hc => hline c (List.dropWhile_sublist _ |>.mem hc)

theorem RenderableField.append {key value : String} (h : RenderableField key value) (hkey : key ≠ "") {line : List Char}
    (hbreak : ∀ c ∈ line, Text.isLineBreak c = false) (hindent : indented line) :
    RenderableField key (value ++ "\n" ++ String.ofList line) where
  name := h.name
  value := by
    obtain ⟨first, continuation, rfl, hstrip, hbreaks, hfolds, _⟩ := h.value
    refine ⟨first, continuation ++ [line], ?_, hstrip, ?_, ?_, fun hnil => absurd hnil hkey⟩
    · rw [folded_concat, ← String.toList_inj]
      simp
    · intro other hmem
      rw [← List.cons_append] at hmem
      rcases List.mem_append.1 hmem with hold | hnew
      · exact hbreaks other hold
      · rw [List.mem_singleton.1 hnew]
        exact hbreak
    · intro other hmem
      rcases List.mem_append.1 hmem with hold | hnew
      · exact hfolds other hold
      · rw [List.mem_singleton.1 hnew]
        exact hindent

/-- The stanza that is read: its fields so far, the last of which is `last`. -/
structure Reading (row : Row) (last : String) : Prop where
  fields : ∀ field ∈ Dict.items row, RenderableField field.1 field.2
  follows : List.IsChain Follows ("" :: (Dict.items row).map Prod.fst)
  last : ((Dict.items row).map Prod.fst).getLast?.getD "" = last

theorem reading_empty : Reading ∅ "" where
  fields := by
    intro field hmem
    exact absurd hmem List.not_mem_nil
  follows := List.isChain_singleton _
  last := rfl

/-- A line with a name begins a field. -/
theorem Reading.insert (h : Reading row last) {key value : List Char} (hcolon : ∀ c ∈ key, c ≠ ':')
    (hbreak : ∀ c ∈ key ++ ':' :: value, Text.isLineBreak c = false)
    (hheader : ¬ (indented (key ++ ':' :: value) && decide (last ≠ "")) = true) (hfresh : String.ofList key ∉ row) :
    Reading (row.insert (String.ofList key) (String.ofList (Text.lstrip value))) (String.ofList key) where
  fields := by
    intro field hmem
    rw [Dict.items_insert hfresh] at hmem
    rcases List.mem_append.1 hmem with hold | hnew
    · exact h.fields field hold
    · rw [List.mem_singleton.1 hnew]
      refine renderableField_line hcolon (fun c hc => hbreak c (List.mem_append_left _ hc)) fun c hc => ?_
      exact hbreak c (List.mem_append_right _ (List.mem_cons_of_mem _ hc))
  follows := by
    have hfollows : Follows last (String.ofList key) := by
      intro hindent
      by_contra hlast
      have hline : indented (key ++ ':' :: value) = true := by
        cases key with
        | nil => simp [indented] at hindent
        | cons c cs => simpa [indented] using hindent
      exact hheader (by simp [hline, hlast])
    rw [Dict.items_insert hfresh, List.map_append, ← List.cons_append, List.isChain_append]
    refine ⟨h.follows, List.isChain_singleton _, ?_⟩
    intro before hbefore after hafter
    rw [List.getLast?_cons, h.last] at hbefore
    cases hbefore
    cases hafter
    exact hfollows
  last := by
    rw [Dict.items_insert hfresh]
    simp

/-- An indented line goes on with the last field. -/
theorem Reading.set (h : Reading row last) (hlast : last ≠ "") {line : List Char}
    (hbreak : ∀ c ∈ line, Text.isLineBreak c = false) (hindent : indented line) :
    Reading (Dict.set row last ((row.lookup last).getD "" ++ "\n" ++ String.ofList line)) last := by
  rcases List.eq_nil_or_concat (Dict.items row) with hnil | ⟨init, ⟨key, value⟩, hitems⟩
  · have hempty := h.last
    rw [hnil] at hempty
    exact absurd hempty.symm hlast
  rw [List.concat_eq_append] at hitems
  have hkey : key = last := by simpa [hitems] using h.last
  subst hkey
  obtain ⟨row', hinit, hfresh, rfl⟩ := Dict.exists_insert hitems
  have hvalue := h.fields (key, value) (by rw [hitems]; simp)
  have hlookup : ((row'.insert key value).lookup key).getD "" = value := by
    rw [AList.lookup_insert, Option.getD_some]
  rw [hlookup, Dict.set_insert]
  have hnames : (Dict.items (row'.insert key (value ++ "\n" ++ String.ofList line))).map Prod.fst =
      (Dict.items (row'.insert key value)).map Prod.fst := by
    rw [Dict.items_insert hfresh, Dict.items_insert hfresh, List.map_append, List.map_append]
    rfl
  refine ⟨?_, ?_, ?_⟩
  · intro field hmem
    rw [Dict.items_insert hfresh] at hmem
    rcases List.mem_append.1 hmem with hold | hnew
    · refine h.fields field ?_
      rw [Dict.items_insert hfresh]
      exact List.mem_append_left _ hold
    · rw [List.mem_singleton.1 hnew]
      exact hvalue.append hlast hbreak hindent
  · rw [hnames]
    exact h.follows
  · rw [hnames]
    exact h.last

/-- The parser returns renderable stanzas only. -/
theorem renderable_of_parseLines {ls : List (List Char)} {result : List Row}
    (hls : ∀ l ∈ ls, ∀ c ∈ l, Text.isLineBreak c = false) (hrows : ∀ row ∈ rows, Renderable row) (hrow : Reading row last)
    (h : parseLines rows row last ls = .ok result) : ∀ row ∈ result, Renderable row := by
  induction ls generalizing rows row last with
  | nil =>
      cases h
      exact hrows
  | cons line rest ih =>
      have hrest : ∀ l ∈ rest, ∀ c ∈ l, Text.isLineBreak c = false := fun l hmem => hls l (List.mem_cons_of_mem _ hmem)
      have hline : ∀ c ∈ line, Text.isLineBreak c = false := hls line (List.mem_cons_self ..)
      rw [parseLines] at h
      split at h
      · split at h
        · exact ih hrest hrows hrow h
        · next hkeys =>
          refine ih hrest ?_ reading_empty h
          intro other hmem
          rcases List.mem_append.1 hmem with hold | hnew
          · exact hrows other hold
          · rw [List.mem_singleton.1 hnew]
            refine ⟨?_, hrow.fields, hrow.follows⟩
            intro hitems
            refine hkeys ?_
            simpa [Dict.items, AList.keys, List.keys] using hitems
      split at h
      · next hfold =>
        rw [Bool.and_eq_true, decide_eq_true_eq] at hfold
        exact ih hrest hrows (hrow.set hfold.2 hline hfold.1) h
      · next hheader =>
        split at h
        · next key value hcut =>
          split at h
          · cases h
          · next hfresh =>
            have hsplit : line = key ++ ':' :: value := by simpa using Text.append_of_cut hcut
            subst hsplit
            exact ih hrest hrows (hrow.insert (Text.forall_ne_of_cut hcut) hline hheader hfresh) h
        · cases h

theorem renderable_of_parseStanzas {text : String} {rows : List Row} (h : parseStanzas text = .ok rows) :
    ∀ row ∈ rows, Renderable row := by
  have hlines : ∀ l ∈ Text.lines text ++ [[]], ∀ c ∈ l, Text.isLineBreak c = false := by
    intro l hl
    rcases List.mem_append.1 hl with hl | hl
    · exact Text.isLineBreak_of_mem_lines l hl
    · rw [List.mem_singleton.1 hl]
      exact nofun
  exact renderable_of_parseLines hlines (fun _ hmem => absurd hmem List.not_mem_nil) reading_empty h

/-- What was read can be rendered and read again. -/
theorem parse_render_of_parse {text : String} {rows : List Row} (h : parseStanzas text = .ok rows) :
    parseStanzas (renderStanzas rows) = .ok rows := parse_render (renderable_of_parseStanzas h)

end DebBuilder.Preparation
