import Mathlib
import DebBuilder.Lib.Replace
import DebBuilder.Lib.Utf8

/-!
# The output of a command

What a command writes is read in chunks.  Each chunk is decoded and freed of secret values by
itself, appended to the output of its stream and passed to the listener.  The chunks together
show what the whole output would show when no cut lies inside a character or inside a secret
value that is replaced; a cut inside a character always shows.

## Main definitions

* `redactText`, `readProcessOutput` — one text, and one round of reads.
* `Reader.readAll` — the rounds of a command.
* `Uncut` — the cuts do not matter.

## Main statements

* `redactText_hides` — a secret value does not occur in what is shown of a text.
* `output_of_uncut` — when the shown output does not depend on the cuts.
-/

namespace DebBuilder
namespace Command

open Lib

/-- The environment variables, in order. -/
abbrev Env := List (String × String)

/-! ## Redaction -/

/-- The lower case letter that a character stands for where case is ignored. -/
def foldChar (c : Char) : Char := if c.toNat = 0x17F then 's' else Text.lowerChar c

/-- `SECRET_KEY.search(key)` -/
def secretKey (key : String) : Bool :=
  let folded := key.toList.map foldChar
  ["token", "secret", "password", "passwd", "apikey", "api_key", "api-key", "credential"].any
    fun word => word.toList <:+: folded

/-- `[REDACTED]` -/
def mark : List Char := "[REDACTED]".toList

theorem mark_head : mark.head? = some '[' := by decide

theorem mark_ne_nil : mark ≠ [] := by decide

/-- The secret values, the longest ones first. -/
def secrets (environment : Env) : List (List Char) :=
  ((environment.filter fun row => secretKey row.1 && row.2 ≠ "").map fun row => row.2.toList).insertionSort
    fun first second => second.length ≤ first.length

/-- The replacements of `redact_text`, one value after another. -/
def redactValues (values : List (List Char)) (text : List Char) : List Char :=
  values.foldl (fun redacted value => Text.replace value mark redacted) text

/-- `redact_text(text, environment)` -/
def redactText (text : List Char) (environment : Env) : List Char := redactValues (secrets environment) text

/-! ## Reading -/

inductive Stream
  | stdout
  | stderr
deriving DecidableEq

/-- What `os.read(…, 4096)` gives; at the end of the stream it gives nothing. -/
structure Chunk where
  bytes : List UInt8
  length_le : bytes.length ≤ 4096

/-- The selector, the lists of texts, and what the listener was told. -/
structure Reader where
  registered : List Stream := [.stdout, .stderr]
  output : Stream → List (List Char) := fun _ => []
  told : List (Stream × List Char) := []

/-- One stream that is ready; `listening` says that there is a listener. -/
def readChunk (environment : Env) (listening : Bool) (state : Bool × Reader) (ready : Stream × Chunk) : Bool × Reader :=
  let (activity, reader) := state
  if ready.2.bytes ≠ [] then
    let redacted := redactText (Utf8.decode ready.2.bytes) environment
    (true, { reader with
      output := Function.update reader.output ready.1 (reader.output ready.1 ++ [redacted])
      told := if listening then reader.told ++ [(ready.1, redacted)] else reader.told })
  else (activity, { reader with registered := reader.registered.erase ready.1 })

/-- `_read_process_output(selector, output, redaction_environment)`, when the streams in `ready`
are ready. -/
def readProcessOutput (environment : Env) (listening : Bool) (ready : List (Stream × Chunk)) (reader : Reader) :
    Bool × Reader :=
  ready.foldl (readChunk environment listening) (false, reader)

/-- The rounds of a command. -/
def Reader.readAll (environment : Env) (listening : Bool) (rounds : List (List (Stream × Chunk))) (reader : Reader) : Reader :=
  rounds.foldl (fun reader ready => (readProcessOutput environment listening ready reader).2) reader

/-- The text that is shown of a stream. -/
def Reader.shown (reader : Reader) (stream : Stream) : List Char := (reader.output stream).flatten

/-- The text that the listener was told of a stream. -/
def Reader.heard (reader : Reader) (stream : Stream) : List Char :=
  ((reader.told.filter fun row => row.1 = stream).map Prod.snd).flatten

/-- How the bytes of a stream were cut. -/
def chunksOf (stream : Stream) (ready : List (Stream × Chunk)) : List (List UInt8) :=
  ((ready.filter fun row => row.1 = stream).map fun row => row.2.bytes).filter (· ≠ [])

/-! ## The chunks of a stream -/

section
variable {environment : Env} {listening : Bool} {stream : Stream} {ready : List (Stream × Chunk)} {reader : Reader}

/-- What is shown of a chunk. -/
def showChunk (environment : Env) (bytes : List UInt8) : List Char := redactText (Utf8.decode bytes) environment

theorem readChunk_output (state : Bool × Reader) (row : Stream × Chunk) :
    (readChunk environment listening state row).2.output stream =
      state.2.output stream ++ (chunksOf stream [row]).map (showChunk environment) := by
  by_cases hbytes : row.2.bytes = [] <;> by_cases hstream : row.1 = stream
  · simp [readChunk, chunksOf, hbytes, hstream]
  · simp [readChunk, chunksOf, hbytes, hstream]
  · subst hstream
    simp [readChunk, chunksOf, hbytes, showChunk]
  · have hother : stream ≠ row.1 := fun h => hstream h.symm
    simp [readChunk, chunksOf, hbytes, hstream, hother]

theorem readChunk_told (state : Bool × Reader) (row : Stream × Chunk) :
    ((readChunk environment true state row).2.told.filter fun told => told.1 = stream).map Prod.snd =
      ((state.2.told.filter fun told => told.1 = stream).map Prod.snd) ++
        (chunksOf stream [row]).map (showChunk environment) := by
  by_cases hbytes : row.2.bytes = [] <;> by_cases hstream : row.1 = stream <;>
    simp [readChunk, chunksOf, hbytes, hstream, showChunk]

theorem chunksOf_append (first second : List (Stream × Chunk)) :
    chunksOf stream (first ++ second) = chunksOf stream first ++ chunksOf stream second := by
  simp [chunksOf]

theorem foldl_output (state : Bool × Reader) :
    (ready.foldl (readChunk environment listening) state).2.output stream =
      state.2.output stream ++ (chunksOf stream ready).map (showChunk environment) := by
  induction ready generalizing state with
  | nil => simp [chunksOf]
  | cons row ready ih =>
      rw [List.foldl_cons, ih, readChunk_output, List.append_assoc, ← List.map_append, ← chunksOf_append]
      rfl

theorem foldl_told (state : Bool × Reader) :
    ((ready.foldl (readChunk environment true) state).2.told.filter fun told => told.1 = stream).map Prod.snd =
      ((state.2.told.filter fun told => told.1 = stream).map Prod.snd) ++
        (chunksOf stream ready).map (showChunk environment) := by
  induction ready generalizing state with
  | nil => simp [chunksOf]
  | cons row ready ih =>
      rw [List.foldl_cons, ih, readChunk_told, List.append_assoc, ← List.map_append, ← chunksOf_append]
      rfl

/-- Every chunk of a stream is shown, in order and once. -/
theorem readAll_output (rounds : List (List (Stream × Chunk))) :
    (reader.readAll environment listening rounds).output stream =
      reader.output stream ++ (chunksOf stream rounds.flatten).map (showChunk environment) := by
  induction rounds generalizing reader with
  | nil => simp [Reader.readAll, chunksOf]
  | cons ready rounds ih =>
      show (Reader.readAll environment listening rounds (readProcessOutput environment listening ready reader).2).output stream = _
      rw [ih, readProcessOutput, foldl_output, List.flatten_cons, chunksOf_append,
        List.map_append, List.append_assoc]

/-- The listener is told of every chunk too. -/
theorem readAll_told (rounds : List (List (Stream × Chunk))) :
    ((reader.readAll environment true rounds).told.filter fun told => told.1 = stream).map Prod.snd =
      ((reader.told.filter fun told => told.1 = stream).map Prod.snd) ++
        (chunksOf stream rounds.flatten).map (showChunk environment) := by
  induction rounds generalizing reader with
  | nil => simp [Reader.readAll, chunksOf]
  | cons ready rounds ih =>
      show ((Reader.readAll environment true rounds (readProcessOutput environment true ready reader).2).told.filter
        fun told => told.1 = stream).map Prod.snd = _
      rw [ih, readProcessOutput, foldl_told, List.flatten_cons, chunksOf_append,
        List.map_append, List.append_assoc]

end

/-! ## The cuts -/

/-- Value by value, nothing that is replaced lies across a cut of the texts. -/
def ValuesUncut : List (List Char) → List (List Char) → Prop
  | [], _ => True
  | value :: values, texts => CutsClean (Text.Uncut value) texts ∧ ValuesUncut values (texts.map (Text.replace value mark))

instance decidableValuesUncut : ∀ values texts, Decidable (ValuesUncut values texts)
  | [], _ => inferInstanceAs (Decidable True)
  | value :: values, texts =>
      have := decidableValuesUncut values (texts.map (Text.replace value mark))
      inferInstanceAs (Decidable (CutsClean (Text.Uncut value) texts ∧ _))

/-- No cut is inside a character, or inside a secret value that is replaced. -/
def Uncut (environment : Env) (chunks : List (List UInt8)) : Prop :=
  CutsClean Utf8.Between chunks ∧ ValuesUncut (secrets environment) (chunks.map Utf8.decode)

instance (environment : Env) (chunks : List (List UInt8)) : Decidable (Uncut environment chunks) :=
  inferInstanceAs (Decidable (_ ∧ _))

section
variable {values : List (List Char)} {texts : List (List Char)} {environment : Env} {chunks : List (List UInt8)}

theorem redactValues_nil (values : List (List Char)) : redactValues values [] = [] := by
  induction values with
  | nil => rfl
  | cons value values ih => exact ih

@[simp] theorem redactValues_none : redactValues [] = id := rfl

theorem redactValues_flatten (h : ValuesUncut values texts) :
    redactValues values texts.flatten = texts.flatMap (redactValues values) := by
  induction values generalizing texts with
  | nil => simp [redactValues_none]
  | cons value values ih =>
      have hvalue : Text.replace value mark texts.flatten = texts.flatMap (Text.replace value mark) :=
        flatMap_of_cutsClean rfl (fun _ _ => Text.replace_append) h.1
      show redactValues values (Text.replace value mark texts.flatten) = _
      rw [hvalue, List.flatMap_def, ih h.2, List.flatMap_map]
      rfl

theorem flatten_showChunk (environment : Env) (chunks : List (List UInt8)) :
    (chunks.map (showChunk environment)).flatten = (chunks.map Utf8.decode).flatMap (redactValues (secrets environment)) := by
  rw [List.flatMap_map]
  rfl

/-- The chunks show what the whole output shows when the cuts do not matter. -/
theorem flatten_showChunk_of_uncut (h : Uncut environment chunks) :
    (chunks.map (showChunk environment)).flatten = redactText (Utf8.decode chunks.flatten) environment := by
  have hdecode : Utf8.decode chunks.flatten = (chunks.map Utf8.decode).flatten := by
    rw [← List.flatMap_def]
    exact ((Utf8.decode_flatten_iff chunks).2 h.1).symm
  rw [flatten_showChunk, redactText, hdecode, redactValues_flatten h.2]

/-- Without secret values a cut inside a character always shows. -/
theorem between_of_flatten_showChunk (hnone : secrets environment = [])
    (h : (chunks.map (showChunk environment)).flatten = redactText (Utf8.decode chunks.flatten) environment) :
    Uncut environment chunks := by
  rw [flatten_showChunk, redactText, hnone] at h
  constructor
  · apply (Utf8.decode_flatten_iff chunks).1
    rw [List.flatMap_def]
    simpa using h
  · rw [hnone]
    trivial

/-- A cut through the only secret value shows, when the value does not begin like the mark. -/
theorem uncut_of_flatten_showChunk {value : List Char} (hone : secrets environment = [value]) (hhead : value.head? ≠ some '[')
    (hbetween : CutsClean Utf8.Between chunks)
    (h : (chunks.map (showChunk environment)).flatten = redactText (Utf8.decode chunks.flatten) environment) :
    Uncut environment chunks := by
  rw [flatten_showChunk, redactText, hone, ← (Utf8.decode_flatten_iff chunks).2 hbetween, List.flatMap_def] at h
  have hcuts : CutsClean (Text.Uncut value) (chunks.map Utf8.decode) :=
    cutsClean_of_flatMap (fun _ _ => Text.replace_append)
      (fun _ _ _ => Text.uncut_of_replace mark_ne_nil (by rwa [mark_head])) h.symm
  refine ⟨hbetween, ?_⟩
  rw [hone]
  exact ⟨hcuts, trivial⟩

/-! ## What is hidden -/

theorem occurs_of_redactValues {found text : List Char} (hfound : found ≠ []) (hdisjoint : found.Disjoint mark)
    (h : Occurs found (redactValues values text)) : Occurs found text := by
  induction values generalizing text with
  | nil => exact h
  | cons value values ih => exact Text.occurs_of_replace hfound mark_ne_nil hdisjoint (ih h)

theorem not_occurs_redactValues {value text : List Char} (hvalue : value ∈ values) (hne : value ≠ [])
    (hdisjoint : value.Disjoint mark) : ¬ Occurs value (redactValues values text) := by
  induction values generalizing text with
  | nil => exact nomatch hvalue
  | cons first values ih =>
      show ¬ Occurs value (redactValues values (Text.replace first mark text))
      rcases List.mem_cons.1 hvalue with rfl | hvalue
      · intro h
        exact Text.not_occurs_replace hne mark_ne_nil hdisjoint (occurs_of_redactValues hne hdisjoint h)
      · exact ih hvalue

theorem ne_nil_of_mem_secrets {value : List Char} (h : value ∈ secrets environment) : value ≠ [] := by
  rw [secrets, List.mem_insertionSort] at h
  obtain ⟨row, hrow, rfl⟩ := List.mem_map.1 h
  have hne : row.2 ≠ "" := by
    have hkept := (List.mem_filter.1 hrow).2
    simp only [Bool.and_eq_true, decide_eq_true_eq] at hkept
    exact hkept.2
  simpa using hne

/-- No secret value occurs in what is shown of a text, when it has no character of the mark. -/
theorem redactText_hides {value : List Char} (h : value ∈ secrets environment) (hdisjoint : value.Disjoint mark)
    (text : List Char) : ¬ Occurs value (redactText text environment) :=
  not_occurs_redactValues h (ne_nil_of_mem_secrets h) hdisjoint

end

/-- What a stream shows does not depend on the cuts of its bytes when no cut is inside a
character or a secret value that is replaced; it shows no secret value then. -/
theorem output_of_uncut (environment : Env) (listening : Bool) (rounds : List (List (Stream × Chunk))) (stream : Stream) :
    let shown := (Reader.readAll environment listening rounds {}).shown stream
    let chunks := chunksOf stream rounds.flatten
    (Uncut environment chunks → shown = redactText (Utf8.decode chunks.flatten) environment ∧
      ∀ value ∈ secrets environment, value.Disjoint mark → ¬ Occurs value shown) ∧
    (secrets environment = [] →
      (shown = redactText (Utf8.decode chunks.flatten) environment ↔ CutsClean Utf8.Between chunks)) ∧
    (∀ value, secrets environment = [value] → value.head? ≠ some '[' → CutsClean Utf8.Between chunks →
      (shown = redactText (Utf8.decode chunks.flatten) environment ↔ Uncut environment chunks)) ∧
    (listening = true → (Reader.readAll environment listening rounds {}).heard stream = shown) := by
  intro shown chunks
  have hshown : shown = (chunks.map (showChunk environment)).flatten := by
    show ((Reader.readAll environment listening rounds {}).output stream).flatten = _
    rw [readAll_output]
    rfl
  rw [hshown]
  refine ⟨?_, ?_, ?_, ?_⟩
  · intro huncut
    rw [flatten_showChunk_of_uncut huncut]
    exact ⟨rfl, fun value hvalue hdisjoint => redactText_hides hvalue hdisjoint _⟩
  · intro hnone
    constructor
    · intro h
      exact (between_of_flatten_showChunk hnone h).1
    · intro h
      apply flatten_showChunk_of_uncut
      rw [Uncut, hnone]
      exact ⟨h, trivial⟩
  · intro value hone hhead hbetween
    exact ⟨uncut_of_flatten_showChunk hone hhead hbetween, flatten_showChunk_of_uncut⟩
  · rintro rfl
    show (((Reader.readAll environment true rounds {}).told.filter fun row => row.1 = stream).map Prod.snd).flatten = _
    rw [readAll_told]
    rfl

/-- The two bytes of an accented letter in two reads are shown as two replacement characters, and
a secret value in two reads is shown in clear. -/
theorem split_output_differs :
    (let shown := (Reader.readAll [] true
      [[(.stdout, ⟨[0xC3], by decide⟩)], [(.stdout, ⟨[0xA9], by decide⟩)]] {}).shown .stdout
    shown = [Utf8.replacement, Utf8.replacement] ∧ shown ≠ redactText (Utf8.decode [0xC3, 0xA9]) []) ∧
    (let environment := [("API_TOKEN", "ab")]
    let shown := (Reader.readAll environment true
      [[(.stdout, ⟨[0x61], by decide⟩)], [(.stdout, ⟨[0x62], by decide⟩)]] {}).shown .stdout
    shown = "ab".toList ∧ shown ≠ redactText (Utf8.decode [0x61, 0x62]) environment) := by
  decide +kernel

end Command
end DebBuilder
