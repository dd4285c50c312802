import Mathlib
import DebBuilder.Lib.Path
import DebBuilder.Lib.Text

/-!
# Reading control files by the rules of the format

Lines end only at a newline.  A line of blanks ends a stanza, a line that begins with a blank goes
on with the field before it, and any other line begins a field.  In a line that goes on, a lone
dot stands for an empty line.  Blanks around a value, and at the end of a line, mean nothing.

## Main definitions

* `Entry` — a field as it is read.
* `readControl` — the stanzas of a text.

## Main results

* `readLines_starts`, `readLines_continues` — fields that are each on one line, and the lines that
  go on with the last of them.
* `readLines_truncated` — what is left of the last field when a line that should go on with it is
  blank.
-/

namespace Lib
namespace ControlRules

/-- A space or a tab. -/
def blank (c : Char) : Bool := c == ' ' || c == '\t'

def trim (cs : List Char) : List Char := (cs.dropWhile blank).rdropWhile blank

/-- A field as it is read, its value line by line. -/
structure Entry where
  name : List Char
  values : List (List Char)
deriving DecidableEq

/-- A line that goes on, without the blank that says so. -/
def unfolded (line : List Char) : List Char :=
  if line.tail.rdropWhile blank = ['.'] then [] else line.tail.rdropWhile blank

def Entry.extend (entry : Entry) (line : List Char) : Entry := { entry with values := entry.values ++ [unfolded line] }

/-- The stanzas with the current one behind them. -/
def closed (stanzas : List (List Entry)) (current : List Entry) : List (List Entry) :=
  if current = [] then stanzas else stanzas ++ [current]

/-- A line that begins a field. -/
def started (line : List Char) : Option Entry := (Text.cut [':'] line).map fun parts => ⟨parts.1, [trim parts.2]⟩

/-- The stanzas of the lines that are left, behind `stanzas` and the fields of the current one. -/
def readLines (stanzas : List (List Entry)) (current : List Entry) : List (List Char) → Option (List (List Entry))
  | [] => some (closed stanzas current)
  | line :: rest =>
      if line.all blank then readLines (closed stanzas current) [] rest
      else if line.head?.any blank then
        current.getLast?.bind fun last => readLines stanzas (current.dropLast ++ [last.extend line]) rest
      else (started line).bind fun entry => readLines stanzas (current ++ [entry]) rest

def readControl (text : String) : Option (List (List Entry)) := readLines [] [] (text.toList.splitOn '\n')

variable {stanzas : List (List Entry)} {current : List Entry} {entry : Entry} {line name value : List Char}
  {rest lines : List (List Char)}

/-! ## Fields on one line -/

/-- A name that can begin a line. -/
def IsName (name : List Char) : Prop := name.head?.any (fun c => !blank c) = true ∧ ':' ∉ name

instance (name : List Char) : Decidable (IsName name) := by unfold IsName; infer_instance

theorem started_of_isName (hname : IsName name) : started (name ++ ':' :: value) = some ⟨name, [trim value]⟩ := by
  have hcut : Text.cut [':'] (name ++ ([':'] ++ value)) = some (name, value) :=
    Text.cut_append fun c hc heq => hname.2 (heq ▸ hc)
  have hline : name ++ ':' :: value = name ++ ([':'] ++ value) := rfl
  rw [started, hline, hcut]
  rfl

theorem readLines_start (hname : IsName name) :
    readLines stanzas current ((name ++ ':' :: value) :: rest) =
      readLines stanzas (current ++ [⟨name, [trim value]⟩]) rest := by
  have hstarted : started (name ++ ':' :: value) = some ⟨name, [trim value]⟩ := started_of_isName hname
  obtain ⟨c, cs, rfl⟩ : ∃ c cs, name = c :: cs := by
    apply List.exists_cons_of_ne_nil
    rintro rfl
    exact absurd hname.1 (by decide)
  have hc : blank c = false := by simpa using hname.1
  have hall : ((c :: cs) ++ ':' :: value).all blank = false := by simp [hc]
  have hhead : ((c :: cs) ++ ':' :: value).head?.any blank = false := by simp [hc]
  rw [readLines, hall, hhead, hstarted]
  rfl

/-- Fields that are each on one line. -/
theorem readLines_starts (fields : List (List Char × List Char)) (h : ∀ field ∈ fields, IsName field.1) :
    readLines stanzas current (fields.map (fun field => field.1 ++ ':' :: field.2) ++ rest) =
      readLines stanzas (current ++ fields.map fun field => ⟨field.1, [trim field.2]⟩) rest := by
  induction fields generalizing current with
  | nil => simp
  | cons field fields ih =>
      rw [List.map_cons, List.cons_append, readLines_start (h field (by simp)), ih fun f hf => h f (by simp [hf])]
      simp

/-! ## Lines that go on -/

/-- A line that goes on with a field. -/
def Continues (line : List Char) : Prop := line.head?.any blank = true ∧ line.all blank = false

theorem readLines_continue (hline : Continues line) :
    readLines stanzas (current ++ [entry]) (line :: rest) = readLines stanzas (current ++ [entry.extend line]) rest := by
  rw [readLines, hline.1, hline.2]
  simp

/-- Lines that go on with the last field, up to the blank line that ends the stanza. -/
theorem readLines_continues (h : ∀ line ∈ lines, Continues line) :
    readLines [] (current ++ [entry]) (lines ++ [[]]) =
      some [current ++ [{ entry with values := entry.values ++ lines.map unfolded }]] := by
  induction lines generalizing entry with
  | nil => simp [readLines, closed]
  | cons line lines ih =>
      rw [List.cons_append, readLines_continue (h line (by simp)), ih fun l hl => h l (by simp [hl])]
      simp [Entry.extend]

/-- Lines that should go on with a field, without one. -/
theorem readLines_headless (h : ∀ line ∈ lines, line.head?.any blank = true) {result : List (List Entry)}
    (hread : readLines stanzas [] (lines ++ [[]]) = some result) : result = stanzas := by
  induction lines with
  | nil => simpa [readLines, closed, eq_comm] using hread
  | cons line lines ih =>
      rw [List.cons_append, readLines] at hread
      split at hread
      · exact ih (fun l hl => h l (by simp [hl])) hread
      · rw [if_pos (h line (by simp))] at hread
        simp at hread

/-- Where a line that should go on is blank, the stanza ends there. -/
theorem readLines_truncated (h : ∀ line ∈ lines, line.head?.any blank = true) {result : List (List Entry)}
    (hread : readLines [] (current ++ [entry]) (lines ++ [[]]) = some result) :
    result = [current ++ [{ entry with
      values := entry.values ++ (lines.takeWhile fun line => !line.all blank).map unfolded }]] := by
  induction lines generalizing entry with
  | nil =>
      simp only [List.nil_append, readLines, List.all_nil, if_true, closed, List.append_eq_nil_iff, List.cons_ne_nil,
        and_false, if_false, Option.some.injEq] at hread
      simp [← hread]
  | cons line lines ih =>
      by_cases hblank : line.all blank = true
      · rw [List.cons_append, readLines, if_pos hblank] at hread
        have hresult := readLines_headless (fun l hl => h l (by simp [hl])) hread
        have htake : (line :: lines).takeWhile (fun line => !line.all blank) = [] :=
          List.takeWhile_cons_of_neg (by simp [hblank])
        rw [hresult, htake, closed, if_neg (by simp)]
        simp
      · rw [Bool.not_eq_true] at hblank
        rw [List.cons_append, readLines_continue ⟨h line (by simp), hblank⟩] at hread
        rw [ih (fun l hl => h l (by simp [hl])) hread]
        simp [Entry.extend, hblank]

/-! ## Newlines -/

theorem newline_notMem_of_started {entry : Entry} (h : started line = some entry) (hline : '\n' ∉ line) :
    ∀ value ∈ entry.values, '\n' ∉ value := by
  simp only [started, Option.map_eq_some_iff] at h
  obtain ⟨⟨before, after⟩, hcut, rfl⟩ := h
  rw [Text.append_of_cut hcut] at hline
  intro value hvalue hmem
  obtain rfl := List.mem_singleton.1 hvalue
  have hafter : '\n' ∈ after := (List.dropWhile_suffix _).subset ((List.rdropWhile_prefix _ _).subset hmem)
  simp [hafter] at hline

/-- No value that is read holds a newline. -/
theorem newline_notMem_of_readLines {result : List (List Entry)} (hlines : ∀ line ∈ lines, '\n' ∉ line)
    (hstanzas : ∀ stanza ∈ stanzas, ∀ entry ∈ stanza, ∀ value ∈ entry.values, '\n' ∉ value)
    (hcurrent : ∀ entry ∈ current, ∀ value ∈ entry.values, '\n' ∉ value)
    (hread : readLines stanzas current lines = some result) :
    ∀ stanza ∈ result, ∀ entry ∈ stanza, ∀ value ∈ entry.values, '\n' ∉ value := by
  have hclosed : ∀ {stanzas current}, (∀ stanza ∈ stanzas, ∀ entry ∈ stanza, ∀ value ∈ entry.values, '\n' ∉ value) →
      (∀ entry ∈ current, ∀ value ∈ entry.values, '\n' ∉ value) →
      ∀ stanza ∈ closed stanzas current, ∀ entry ∈ stanza, ∀ value ∈ entry.values, '\n' ∉ value := by
    intro stanzas current hstanzas hcurrent stanza hstanza
    rw [closed] at hstanza
    split at hstanza
    · exact hstanzas stanza hstanza
    · rcases List.mem_append.1 hstanza with hmem | hmem
      · exact hstanzas stanza hmem
      · exact List.mem_singleton.1 hmem ▸ hcurrent
  induction lines generalizing stanzas current with
  | nil =>
      rw [readLines, Option.some.injEq] at hread
      exact hread ▸ hclosed hstanzas hcurrent
  | cons line lines ih =>
      have hline : '\n' ∉ line := hlines line (by simp)
      have hrest : ∀ l ∈ lines, '\n' ∉ l := fun l hl => hlines l (by simp [hl])
      rw [readLines] at hread
      split at hread
      · exact ih hrest (hclosed hstanzas hcurrent) (by simp) hread
      · split at hread
        · obtain ⟨last, hlast, hread⟩ := Option.bind_eq_some_iff.1 hread
          apply ih hrest hstanzas _ hread
          intro entry hentry
          rcases List.mem_append.1 hentry with hmem | hmem
          · exact hcurrent entry (List.dropLast_subset _ hmem)
          · obtain rfl := List.mem_singleton.1 hmem
            intro value hvalue
            rcases List.mem_append.1 hvalue with hold | hnew
            · exact hcurrent last (List.mem_of_getLast? hlast) value hold
            · obtain rfl := List.mem_singleton.1 hnew
              intro hnewline
              rw [unfolded] at hnewline
              split at hnewline
              · exact nomatch hnewline
              · exact hline (List.mem_of_mem_tail ((List.rdropWhile_prefix _ _).subset hnewline))
        · obtain ⟨entry, hstarted, hread⟩ := Option.bind_eq_some_iff.1 hread
          apply ih hrest hstanzas _ hread
          intro other hother
          rcases List.mem_append.1 hother with hmem | hmem
          · exact hcurrent other hmem
          · exact List.mem_singleton.1 hmem ▸ newline_notMem_of_started hstarted hline

theorem newline_notMem_of_readControl {text : String} {result : List (List Entry)} (h : readControl text = some result) :
    ∀ stanza ∈ result, ∀ entry ∈ stanza, ∀ value ∈ entry.values, '\n' ∉ value :=
  newline_notMem_of_readLines (fun _ hline => PosixPath.notMem_of_mem_splitOn hline) (by simp) (by simp) h

end ControlRules
end Lib
