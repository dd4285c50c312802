import Mathlib
import DebBuilder.Elf.Snapshot

/-!
# What a filtered snapshot changes

A reader of an ELF file sees its dynamic entries and the names of the libraries among them.  Each
edit turns one byte from 1 to 21.  As long as no such byte belongs to a field or a name that is read,
the snapshot is the file without the ignored names.

## Main definitions

* `view` — what a reader sees.
* `Filtered` — the bytes are the source's, without the ignored names.
* `Untouched` — no edited byte is one that is read.

## Main statements

* `filteredSnapshot_faithful` — a snapshot of an untouched file is filtered, or an error is raised.
-/

namespace DebBuilder.Elf
open Lib Bytes

/-! ## What a reader sees -/

structure Row where
  offset : Nat
  tag : Nat
  value : Nat
  /-- The name, of a `NEEDED` entry. -/
  name : Option String
deriving DecidableEq

def viewRow (data : List UInt8) (base size : Nat) (entry : Entry) : Except SnapshotFailure Row :=
  if entry.tag = 1 then do
    let name ← neededName data base size entry.value
    pure ⟨entry.offset, entry.tag, entry.value, some name⟩
  else pure ⟨entry.offset, entry.tag, entry.value, none⟩

/-- The dynamic entries of a file, read through its program headers and its string table. -/
def view (data : List UInt8) : Except SnapshotFailure (List Row) := do
  let found ← layout data
  found.entries.mapM (viewRow data found.base found.size)

/-- The list of `NEEDED` names. -/
def neededOf (rows : List Row) : List String := rows.filterMap Row.name

/-- The row names an ignored library. -/
def Struck (ignored : Finset String) (row : Row) : Prop := ∃ name ∈ row.name, name ∈ ignored

instance (ignored : Finset String) (row : Row) : Decidable (Struck ignored row) :=
  inferInstanceAs (Decidable (∃ name ∈ row.name, name ∈ ignored))

def strike (ignored : Finset String) (row : Row) : Row :=
  if Struck ignored row then { row with tag := 21, name := none } else row

/-- The edited bytes are as many as those of the source, differ from them in the tags of entries that
name an ignored library only, and a reader sees the entries of the source, in their order, of which
these no longer name a library. -/
structure Filtered (data edited : List UInt8) (ignored : Finset String) : Prop where
  length : edited.length = data.length
  rows : ∃ rows, view data = .ok rows ∧ view edited = .ok (rows.map (strike ignored)) ∧
    neededOf (rows.map (strike ignored)) = (neededOf rows).filter (· ∉ ignored) ∧
    ∀ i : Nat, edited[i]? ≠ data[i]? → ∃ row ∈ rows, row.tag = 1 ∧ Struck ignored row ∧ row.offset ≤ i ∧ i < row.offset + 8

/-! ## What is read -/

/-- The fields of the file header and the program headers that are read, as places and sizes. -/
def headerRanges (data : List UInt8) : List (Nat × Nat) :=
  [(0, 6), (32, 8), (54, 4)] ++
    (headerOffsets (little data 32 8) (little data 54 2) (little data 56 2)).flatMap
      fun offset => [(offset, 4), (offset + 8, 16), (offset + 32, 8)]

/-- The bytes of the names. -/
def nameRanges (base : Nat) (rows : List Row) : List (Nat × Nat) :=
  rows.filterMap fun row => row.name.map fun name => (base + row.value, name.toList.length)

/-- No tag that is edited begins in a header field or in a name. -/
def Untouched (data : List UInt8) (ignored : Finset String) : Prop :=
  ∀ found rows, layout data = .ok found → view data = .ok rows →
    ∀ row ∈ rows, Struck ignored row →
      ∀ range ∈ headerRanges data ++ nameRanges found.base rows, row.offset < range.1 ∨ range.1 + range.2 ≤ row.offset

/-! ## Reading marked bytes -/

section
variable {places : List Nat} {data edited : List UInt8}

theorem unpackFrom_eq_ok {offset span width value : Nat} :
    unpackFrom data offset span width = .ok value ↔ offset + span ≤ data.length ∧ little data offset width = value := by
  simp only [unpackFrom, bind_eq_ok, refuse_eq_ok, pure_eq_ok]
  constructor
  · rintro ⟨-, hfits, hvalue⟩
    exact ⟨by omega, hvalue⟩
  · rintro ⟨hfits, hvalue⟩
    exact ⟨(), by omega, hvalue⟩

/-- No marked byte lies in a range. -/
def FreeOf (places : List Nat) (start width : Nat) : Prop := ∀ i ∈ places, i < start ∨ start + width ≤ i

theorem unpackFrom_marked (h : Marked 1 21 places data edited) {offset span width : Nat} (hfree : FreeOf places offset width) :
    unpackFrom edited offset span width = unpackFrom data offset span width := by
  rw [unpackFrom, unpackFrom, h.length_eq, h.little_eq hfree]

theorem FreeOf.mono {start width start' width' : Nat} (h : FreeOf places start width) (hstart : start ≤ start')
    (hend : start' + width' ≤ start + width) : FreeOf places start' width' := by
  intro i hi
  rcases h i hi with hbelow | habove <;> omega

theorem addHeader_marked (h : Marked 1 21 places data edited) {found : List Segment × Option (Nat × Nat)} {offset : Nat}
    (hkind : FreeOf places offset 4) (hplace : FreeOf places (offset + 8) 16) (hsize : FreeOf places (offset + 32) 8) :
    addHeader edited found offset = addHeader data found offset := by
  simp only [addHeader, h.length_eq, unpackFrom_marked h hkind, unpackFrom_marked h hsize,
    unpackFrom_marked h (hplace.mono (le_refl _) (show offset + 8 + 8 ≤ offset + 8 + 16 by omega)),
    unpackFrom_marked h (hplace.mono (show offset + 8 ≤ offset + 16 by omega) (show offset + 16 + 8 ≤ offset + 8 + 16 by omega))]

/-- A sequence depends on what the first part computes. -/
theorem bind_congr_of_ok {ε α β : Type} {x : Except ε α} {f g : α → Except ε β} (h : ∀ a, x = .ok a → f a = g a) :
    (x >>= f) = (x >>= g) := by
  cases x with
  | error e => rfl
  | ok a => exact h a rfl

/-- A loop depends on its turns. -/
theorem foldlM_congr_mem {ε α β : Type} {f g : β → α → Except ε β} {xs : List α} (h : ∀ x ∈ xs, ∀ b, f b x = g b x) (b : β) :
    xs.foldlM f b = xs.foldlM g b := by
  induction xs generalizing b with
  | nil => rfl
  | cons x xs ih =>
      rw [List.foldlM_cons, List.foldlM_cons, h x List.mem_cons_self b]
      exact bind_congr_of_ok fun b' _ => ih (fun y hy => h y (List.mem_cons_of_mem _ hy)) b'

theorem segments_marked (h : Marked 1 21 places data edited)
    (hfree : ∀ range ∈ headerRanges data, FreeOf places range.1 range.2) : segments edited = segments data := by
  have hoffset : FreeOf places 32 8 := hfree (32, 8) (by simp [headerRanges])
  have hcounts : FreeOf places 54 4 := hfree (54, 4) (by simp [headerRanges])
  have hsize : FreeOf places 54 2 := hcounts.mono (by omega) (by omega)
  have hcount : FreeOf places 56 2 := hcounts.mono (by omega) (by omega)
  rw [segments, segments, unpackFrom_marked h hoffset, unpackFrom_marked h hsize, unpackFrom_marked h hcount, h.length_eq]
  refine bind_congr_of_ok fun phOffset hphOffset => bind_congr_of_ok fun phSize hphSize => bind_congr_of_ok fun phCount hphCount => ?_
  obtain ⟨-, rfl⟩ := unpackFrom_eq_ok.1 hphOffset
  obtain ⟨-, rfl⟩ := unpackFrom_eq_ok.1 hphSize
  obtain ⟨-, rfl⟩ := unpackFrom_eq_ok.1 hphCount
  have hturn : ∀ offset ∈ headerOffsets (little data 32 8) (little data 54 2) (little data 56 2),
      ∀ found, addHeader edited found offset = addHeader data found offset := by
    intro offset hoffset found
    have hrange : ∀ range ∈ [(offset, 4), (offset + 8, 16), (offset + 32, 8)], FreeOf places range.1 range.2 := fun range hmem =>
      hfree range (List.mem_append_right _ (List.mem_flatMap.2 ⟨offset, hoffset, hmem⟩))
    exact addHeader_marked h (hrange (offset, 4) (by simp)) (hrange (offset + 8, 16) (by simp)) (hrange (offset + 32, 8) (by simp))
  rw [foldlM_congr_mem hturn]

/-! ## The dynamic entries -/

/-- The entry as it is read behind the edits. -/
def retag (places : List Nat) (entry : Entry) : Entry := if entry.offset ∈ places then { entry with tag := 21 } else entry

/-- A marked tag is read as the other one. -/
theorem little_of_marked (h : Marked 1 21 places data edited) {offset : Nat} (hoffset : offset ∈ places)
    (hfree : ∀ i ∈ places, i = offset ∨ i < offset ∨ offset + 8 ≤ i) (hone : little data offset 8 = 1) :
    little edited offset 8 = 21 := by
  have hdata := getD_of_little_eq hone (by omega)
  apply little_of_getD
  · simp [List.getD_eq_getElem?_getD, (h.marked offset hoffset).2]
  · intro k hpos hlt
    have hk : offset + k ∉ places := by
      intro hmem
      rcases hfree _ hmem with heq | hbelow | habove <;> omega
    rw [← hdata.2 k hpos hlt, List.getD_eq_getElem?_getD, List.getD_eq_getElem?_getD, h.unmarked _ hk]

/-- The marks are the tags, 1 each, of entries at some of these places, which do not overlap. -/
def OnTags (places : List Nat) (data : List UInt8) (start : Nat) : Prop :=
  ∀ i ∈ places, little data i 8 = 1 ∧ ∃ index, i = start + 16 * index

theorem dynamicEntries_marked (h : Marked 1 21 places data edited) {start : Nat} (hplaces : OnTags places data start)
    {offsets : List Nat} (hoffsets : ∀ offset ∈ offsets, ∃ index, offset = start + 16 * index) :
    dynamicEntries edited offsets = (List.map (retag places)) <$> dynamicEntries data offsets := by
  induction offsets with
  | nil => rfl
  | cons offset offsets ih =>
      obtain ⟨index, hindex⟩ := hoffsets offset List.mem_cons_self
      have hrest := ih fun other hother => hoffsets other (List.mem_cons_of_mem _ hother)
      have hvalue : FreeOf places (offset + 8) 8 := by
        intro i hi
        obtain ⟨other, hother⟩ := (hplaces i hi).2
        omega
      have htag : ∀ i ∈ places, i = offset ∨ i < offset ∨ offset + 8 ≤ i := by
        intro i hi
        obtain ⟨other, hother⟩ := (hplaces i hi).2
        omega
      rw [dynamicEntries, dynamicEntries, unpackFrom_marked h hvalue, hrest]
      by_cases hfits : offset + 16 ≤ data.length
      · have hread : unpackFrom data offset 16 8 = .ok (little data offset 8) := unpackFrom_eq_ok.2 ⟨hfits, rfl⟩
        have hreread : unpackFrom edited offset 16 8 = .ok (little edited offset 8) :=
          unpackFrom_eq_ok.2 ⟨by rwa [h.length_eq], rfl⟩
        have hbeyond : unpackFrom data (offset + 8) 8 8 = .ok (little data (offset + 8) 8) := unpackFrom_eq_ok.2 ⟨by omega, rfl⟩
        rw [hread, hreread, hbeyond]
        by_cases hmem : offset ∈ places
        · have hone := (hplaces offset hmem).1
          rw [hone, little_of_marked h hmem htag hone]
          cases dynamicEntries data offsets with
          | error failure => rfl
          | ok entries => simp [bind, Except.bind, pure, Except.pure, Functor.map, Except.map, retag, hmem]
        · have hfree : FreeOf places offset 8 := by
            intro i hi
            rcases htag i hi with rfl | hside
            · exact absurd hi hmem
            · exact hside
          rw [h.little_eq hfree]
          by_cases hzero : little data offset 8 = 0
          · rw [hzero]
            rfl
          cases dynamicEntries data offsets with
          | error failure => simp [bind, Except.bind, Functor.map, Except.map, hzero]
          | ok entries => simp [bind, Except.bind, pure, Except.pure, Functor.map, Except.map, retag, hmem, hzero]
      · have hshort : data.length < offset + 16 := by omega
        simp [unpackFrom, h.length_eq, refuse, hshort, bind, Except.bind, Functor.map, Except.map]

/-- The tables are found by tags that are not edited. -/
theorem valuesOf_retag {tag : Nat} {entries : List Entry} (hone : ∀ entry ∈ entries, entry.offset ∈ places → entry.tag = 1)
    (htag : tag ≠ 1) (hdebug : tag ≠ 21) : valuesOf tag (entries.map (retag places)) = valuesOf tag entries := by
  induction entries with
  | nil => rfl
  | cons entry entries ih =>
      have hrest := ih fun other hother => hone other (List.mem_cons_of_mem _ hother)
      simp only [valuesOf, List.map_cons, List.filter_cons] at hrest ⊢
      by_cases hmem : entry.offset ∈ places
      · have hentry := hone entry List.mem_cons_self hmem
        simpa [retag, hmem, hentry, htag.symm, hdebug.symm] using hrest
      · by_cases heq : entry.tag = tag <;> simpa [retag, hmem, heq] using hrest

theorem dynamicEntries_sound {offsets : List Nat} {entries : List Entry} (h : dynamicEntries data offsets = .ok entries) :
    ∀ entry ∈ entries, entry.offset ∈ offsets ∧ entry.offset + 16 ≤ data.length ∧
      entry.tag = little data entry.offset 8 ∧ entry.value = little data (entry.offset + 8) 8 := by
  induction offsets generalizing entries with
  | nil =>
      rw [dynamicEntries, pure_eq_ok] at h
      rw [← h]
      exact nofun
  | cons offset offsets ih =>
      simp only [dynamicEntries, bind_eq_ok, unpackFrom_eq_ok] at h
      obtain ⟨tag, ⟨hfits, rfl⟩, value, ⟨-, rfl⟩, h⟩ := h
      split at h
      · rw [pure_eq_ok] at h
        rw [← h]
        exact nofun
      · obtain ⟨rest, hrest, h⟩ := bind_eq_ok.1 h
        rw [pure_eq_ok] at h
        subst h
        intro entry hentry
        rcases List.mem_cons.1 hentry with rfl | hentry
        · exact ⟨List.mem_cons_self, hfits, rfl, rfl⟩
        · obtain ⟨hmem, hrest⟩ := ih hrest entry hentry
          exact ⟨List.mem_cons_of_mem _ hmem, hrest⟩

/-! ## The layout -/

/-- How a layout is found. -/
theorem layout_eq_ok {found : Layout} (h : layout data = .ok found) :
    ∃ load start span, segments data = .ok (load, start, span) ∧
      dynamicEntries data (entryOffsets start span) = .ok found.entries ∧
      stringTable load found.entries = .ok (found.base, found.size) := by
  simp only [layout, bind_eq_ok, pure_eq_ok] at h
  obtain ⟨⟨load, start, span⟩, hsegments, entries, hentries, ⟨base, size⟩, htable, rfl⟩ := h
  exact ⟨load, start, span, hsegments, hentries, htable⟩

theorem exists_of_mem_entryOffsets {start span offset : Nat} (h : offset ∈ entryOffsets start span) :
    ∃ index, offset = start + 16 * index := by
  obtain ⟨index, -, rfl⟩ := List.mem_map.1 h
  exact ⟨index, rfl⟩

/-- The places are those of `NEEDED` entries. -/
def NeededPlaces (places : List Nat) (entries : List Entry) : Prop :=
  ∀ i ∈ places, ∃ entry ∈ entries, entry.tag = 1 ∧ entry.offset = i

theorem NeededPlaces.onTags {start span : Nat} {entries : List Entry} (hplaces : NeededPlaces places entries)
    (hentries : dynamicEntries data (entryOffsets start span) = .ok entries) : OnTags places data start := by
  intro i hi
  obtain ⟨entry, hmem, htag, rfl⟩ := hplaces i hi
  obtain ⟨hoffset, -, hread, -⟩ := dynamicEntries_sound hentries entry hmem
  exact ⟨hread.symm.trans htag, exists_of_mem_entryOffsets hoffset⟩

/-- Two entries at one place are the same. -/
theorem entry_eq_of_offset {offsets : List Nat} {entries : List Entry} {entry other : Entry}
    (hentries : dynamicEntries data offsets = .ok entries) (hentry : entry ∈ entries) (hother : other ∈ entries)
    (hoffset : other.offset = entry.offset) : other = entry := by
  obtain ⟨-, -, htag, hvalue⟩ := dynamicEntries_sound hentries entry hentry
  obtain ⟨-, -, htag', hvalue'⟩ := dynamicEntries_sound hentries other hother
  cases entry
  cases other
  simp_all

/-- Behind the edits, a reader finds the same tables, and the entries that are not edited. -/
theorem layout_marked (h : Marked 1 21 places data edited) {found : Layout} (hfound : layout data = .ok found)
    (hplaces : NeededPlaces places found.entries) (hfree : ∀ range ∈ headerRanges data, FreeOf places range.1 range.2) :
    layout edited = .ok { found with entries := found.entries.map (retag places) } := by
  obtain ⟨load, start, span, hsegments, hentries, htable⟩ := layout_eq_ok hfound
  have hreread : dynamicEntries edited (entryOffsets start span) = .ok (found.entries.map (retag places)) := by
    rw [dynamicEntries_marked h (hplaces.onTags hentries) fun _ => exists_of_mem_entryOffsets, hentries]
    rfl
  have hone : ∀ entry ∈ found.entries, entry.offset ∈ places → entry.tag = 1 := by
    intro entry hentry hmem
    obtain ⟨other, hother, htag, hoffset⟩ := hplaces _ hmem
    rw [entry_eq_of_offset hentries hother hentry hoffset.symm]
    exact htag
  have htables : stringTable load (found.entries.map (retag places)) = .ok (found.base, found.size) := by
    rw [stringTable, valuesOf_retag hone (by omega) (by omega), valuesOf_retag hone (by omega) (by omega)]
    exact htable
  simp only [layout, segments_marked h hfree, hsegments, hreread, htables, bind, Except.bind]
  rfl

/-- Every segment found lies within the file. -/
def Within (data : List UInt8) (found : List Segment × Option (Nat × Nat)) : Prop :=
  ∀ segment ∈ found.1, segment.fileOffset + segment.size ≤ data.length

theorem Within.addHeader {found found' : List Segment × Option (Nat × Nat)} {offset : Nat} (hwithin : Within data found)
    (h : addHeader data found offset = .ok found') : Within data found' := by
  simp only [Elf.addHeader, bind_eq_ok, refuse_eq_ok, Nat.not_lt] at h
  obtain ⟨kind, -, fileOffset, -, address, -, size, -, -, hfits, h⟩ := h
  split at h
  · rw [pure_eq_ok] at h
    subst h
    intro segment hsegment
    rcases List.mem_append.1 hsegment with hold | hnew
    · exact hwithin segment hold
    · rw [List.mem_singleton.1 hnew]
      exact hfits
  · split at h
    · simp only [bind_eq_ok, pure_eq_ok] at h
      obtain ⟨-, -, rfl⟩ := h
      exact hwithin
    · rw [pure_eq_ok] at h
      rwa [← h]

theorem Within.foldlM {offsets : List Nat} {found found' : List Segment × Option (Nat × Nat)} (hwithin : Within data found)
    (h : offsets.foldlM (Elf.addHeader data) found = .ok found') : Within data found' := by
  induction offsets generalizing found with
  | nil =>
      rw [List.foldlM_nil, pure_eq_ok] at h
      rwa [← h]
  | cons offset offsets ih =>
      rw [List.foldlM_cons, bind_eq_ok] at h
      obtain ⟨next, hnext, h⟩ := h
      exact ih (hwithin.addHeader hnext) h

theorem stringTable_within {load : List Segment} {entries : List Entry} {base size : Nat} {dynamic : Option (Nat × Nat)}
    (hwithin : Within data (load, dynamic)) (h : stringTable load entries = .ok (base, size)) : base + size ≤ data.length := by
  rw [stringTable] at h
  split at h
  · next table size' _ _ =>
      split at h
      · next base' hlocations =>
          cases h
          have hmem : base ∈ locations load table size := by rw [hlocations]; exact List.mem_singleton_self _
          obtain ⟨segment, hsegment, rfl⟩ := List.mem_map.1 hmem
          obtain ⟨hload, hholds⟩ := List.mem_filter.1 hsegment
          have hfits := hwithin segment hload
          simp only [decide_eq_true_eq] at hholds
          omega
      · exact nomatch h
  · exact nomatch h

/-- What is read and written lies within the file. -/
def Inside (data : List UInt8) (found : Layout) : Prop :=
  found.base + found.size ≤ data.length ∧ ∀ entry ∈ found.entries, entry.offset + 16 ≤ data.length

theorem layout_inside {found : Layout} (hfound : layout data = .ok found) : Inside data found := by
  obtain ⟨load, start, span, hsegments, hentries, htable⟩ := layout_eq_ok hfound
  refine ⟨?_, fun entry hentry => (dynamicEntries_sound hentries entry hentry).2.1⟩
  simp only [segments, bind_eq_ok, pure_eq_ok] at hsegments
  obtain ⟨_, -, _, -, _, -, _, -, headers, hheaders, _, -, _, -, heq⟩ := hsegments
  cases heq
  have hwithin : Within data headers := Within.foldlM (show Within data ([], none) from (by rintro _ ⟨⟩)) hheaders
  exact @stringTable_within data headers.1 found.entries found.base found.size headers.2 hwithin htable

/-! ## Names -/

theorem neededName_eq_ok {base size value : Nat} {name : String} :
    neededName data base size value = .ok name ↔
      value < size ∧ ∃ bytes, cstring data (base + value) (size - value) = some bytes ∧ (∀ byte ∈ bytes, byte < 128) ∧
        String.ofList (bytes.map fun byte => Char.ofNat byte.toNat) = name := by
  simp only [neededName, bind_eq_ok, refuse_eq_ok, demand_eq_ok, pure_eq_ok, Nat.not_le, not_exists, not_and, UInt8.not_le]
  constructor
  · rintro ⟨-, hlt, bytes, hbytes, -, hascii, hname⟩
    exact ⟨hlt, bytes, hbytes, hascii, hname⟩
  · rintro ⟨hlt, bytes, hbytes, hascii, hname⟩
    exact ⟨(), hlt, bytes, hbytes, (), hascii, hname⟩

/-- A name that is read behind the edits has one in the source. -/
theorem exists_neededName (h : Marked 1 21 places data edited) {base size value : Nat} {name : String}
    (hname : neededName edited base size value = .ok name) : ∃ source, neededName data base size value = .ok source := by
  obtain ⟨hlt, bytes, hbytes, hascii, -⟩ := neededName_eq_ok.1 hname
  obtain ⟨source, hsource, hfrom⟩ := h.exists_cstring (by decide) (by decide) hbytes
  refine ⟨_, neededName_eq_ok.2 ⟨hlt, source, hsource, fun byte hbyte => ?_, rfl⟩⟩
  rcases hfrom byte hbyte with rfl | hmem
  · decide
  · exact hascii byte hmem

/-- A name without an edit is the same. -/
theorem neededName_marked (h : Marked 1 21 places data edited) {base size value : Nat} {name : String}
    (hname : neededName data base size value = .ok name) (hfree : FreeOf places (base + value) name.toList.length) :
    neededName edited base size value = .ok name := by
  obtain ⟨hlt, bytes, hbytes, hascii, rfl⟩ := neededName_eq_ok.1 hname
  have hlength : (String.ofList (bytes.map fun byte => Char.ofNat byte.toNat)).toList.length = bytes.length := by simp
  rw [hlength] at hfree
  exact neededName_eq_ok.2 ⟨hlt, bytes, h.cstring_eq (by decide) hbytes hfree, hascii, rfl⟩

/-! ## The loop -/

/-- The eight bytes of the new tag change the first byte of the old one only. -/
theorem packInto_marked (h : Marked 1 21 places data edited) {offset : Nat} (hfits : offset + 16 ≤ data.length)
    (hone : little data offset 8 = 1) (hapart : ∀ i ∈ places, i = offset ∨ i < offset ∨ offset + 8 ≤ i) :
    Marked 1 21 (offset :: places) data (overwrite edited offset debugTag) := by
  have hlength : offset ≤ edited.length := by
    rw [h.length_eq]
    omega
  have hbytes := getD_of_little_eq hone (by omega)
  have hin : ∀ k, k < 8 → ∃ byte, data[offset + k]? = some byte := fun k hk =>
    ⟨_, List.getElem?_eq_getElem (show offset + k < data.length by omega)⟩
  have hdata : data[offset]? = some 1 := by
    obtain ⟨byte, hbyte⟩ := hin 0 (by omega)
    rw [Nat.add_zero] at hbyte
    have hvalue := hbytes.1
    rw [List.getD_eq_getElem?_getD, hbyte, Option.getD_some] at hvalue
    rw [hbyte, ← UInt8.toNat_inj.1 (hvalue.trans (by decide : 1 = (1 : UInt8).toNat))]
  constructor
  · intro i hi
    by_cases heq : i = offset
    · subst heq
      exact ⟨hdata, by simpa [debugTag] using @getElem?_overwrite_add edited debugTag i 0 (by decide) hlength⟩
    · have hmem : i ∈ places := (List.mem_cons.1 hi).resolve_left heq
      have hmarked := h.marked i hmem
      refine ⟨hmarked.1, ?_⟩
      rcases hapart i hmem with heq' | hbelow | habove
      · exact absurd heq' heq
      · rw [getElem?_overwrite_lt hbelow hlength, hmarked.2]
      · rw [getElem?_overwrite_ge habove hlength, hmarked.2]
  · intro i hi
    obtain ⟨hne, hi⟩ := not_or.1 (fun hor => hi (List.mem_cons.2 hor))
    rcases Nat.lt_or_ge i offset with hbelow | hge
    · rw [getElem?_overwrite_lt hbelow hlength, h.unmarked i hi]
    · rcases Nat.lt_or_ge i (offset + 8) with hinside | habove
      · obtain ⟨k, rfl⟩ := Nat.exists_eq_add_of_le hge
        obtain ⟨byte, hbyte⟩ := hin k (by omega)
        have hzero := hbytes.2 k (by omega) (by omega)
        rw [List.getD_eq_getElem?_getD, hbyte, Option.getD_some] at hzero
        have hk : k = 1 ∨ k = 2 ∨ k = 3 ∨ k = 4 ∨ k = 5 ∨ k = 6 ∨ k = 7 := by omega
        have hdebug : debugTag[k]? = some 0 := by
          rcases hk with rfl | rfl | rfl | rfl | rfl | rfl | rfl <;> rfl
        rw [getElem?_overwrite_add (show k < debugTag.length by simp [debugTag]; omega) hlength, hdebug, hbyte,
          ← UInt8.toNat_inj.1 (hzero.trans (by decide : 0 = (0 : UInt8).toNat))]
      · rw [getElem?_overwrite_ge habove hlength, h.unmarked i hi]

section
variable {found : Layout} {ignored removed : Finset String} {entry : Entry} {state' : List UInt8 × Finset String}

/-- The places of entries stand apart. -/
theorem NeededPlaces.apart (hplaces : NeededPlaces places found.entries) (hfound : layout data = .ok found)
    (hentry : entry ∈ found.entries) : ∀ i ∈ places, i = entry.offset ∨ i < entry.offset ∨ entry.offset + 8 ≤ i := by
  obtain ⟨load, start, span, -, hentries, -⟩ := layout_eq_ok hfound
  obtain ⟨index, hindex⟩ := exists_of_mem_entryOffsets (dynamicEntries_sound hentries entry hentry).1
  intro i hi
  obtain ⟨-, other, hother⟩ := hplaces.onTags hentries i hi
  omega

/-- A turn of the loop leaves the buffer, or marks the tag of an entry whose name in the buffer is ignored. -/
theorem filterEntry_eq_ok (h : Marked 1 21 places data edited) (hplaces : NeededPlaces places found.entries)
    (hfound : layout data = .ok found) (hentry : entry ∈ found.entries)
    (hturn : filterEntry found.base found.size ignored (edited, removed) entry = .ok state') :
    (entry.tag ≠ 1 ∧ state' = (edited, removed)) ∨
      ∃ name, entry.tag = 1 ∧ neededName edited found.base found.size entry.value = .ok name ∧
        ((name ∉ ignored ∧ state' = (edited, removed)) ∨
          (name ∈ ignored ∧ Marked 1 21 (entry.offset :: places) data state'.1 ∧
            NeededPlaces (entry.offset :: places) found.entries)) := by
  rw [filterEntry] at hturn
  by_cases htag : entry.tag = 1
  · rw [if_neg (not_not.2 htag), bind_eq_ok] at hturn
    obtain ⟨name, hname, hturn⟩ := hturn
    refine .inr ⟨name, htag, hname, ?_⟩
    by_cases hmem : name ∈ ignored
    · simp only [if_pos hmem, packInto, bind_eq_ok, pure_eq_ok] at hturn
      obtain ⟨_, ⟨-, -, rfl⟩, rfl⟩ := hturn
      obtain ⟨load, start, span, -, hentries, -⟩ := layout_eq_ok hfound
      obtain ⟨-, hfits, hread, -⟩ := dynamicEntries_sound hentries entry hentry
      refine .inr ⟨hmem, packInto_marked h hfits (hread.symm.trans htag) (hplaces.apart hfound hentry), ?_⟩
      intro i hi
      rcases List.mem_cons.1 hi with rfl | hi
      · exact ⟨entry, hentry, htag, rfl⟩
      · exact hplaces i hi
    · rw [if_neg hmem, pure_eq_ok] at hturn
      exact .inl ⟨hmem, hturn.symm⟩
  · rw [if_pos htag, pure_eq_ok] at hturn
    exact .inl ⟨htag, hturn.symm⟩

/-- A loop that ends has read a name for each entry, so that the source has one too. -/
theorem exists_neededName_of_foldlM {entries : List Entry} (h : Marked 1 21 places data edited)
    (hplaces : NeededPlaces places found.entries) (hfound : layout data = .ok found) (hentries : ∀ entry ∈ entries, entry ∈ found.entries)
    (hloop : entries.foldlM (filterEntry found.base found.size ignored) (edited, removed) = .ok state') :
    ∀ entry ∈ entries, entry.tag = 1 → ∃ name, neededName data found.base found.size entry.value = .ok name := by
  induction entries generalizing places edited removed with
  | nil => exact nofun
  | cons entry entries ih =>
      rw [List.foldlM_cons, bind_eq_ok] at hloop
      obtain ⟨⟨edited', removed'⟩, hturn, hloop⟩ := hloop
      have hrest : ∀ other ∈ entries, other ∈ found.entries := fun other hother => hentries other (List.mem_cons_of_mem _ hother)
      intro other hother htag
      rcases filterEntry_eq_ok h hplaces hfound (hentries entry List.mem_cons_self) hturn with
        ⟨hskip, hsame⟩ | ⟨name, -, hname, hcases⟩
      · cases hsame
        rcases List.mem_cons.1 hother with rfl | hother
        · exact absurd htag hskip
        · exact ih h hplaces hrest hloop other hother htag
      · rcases List.mem_cons.1 hother with rfl | hother
        · exact exists_neededName h hname
        · rcases hcases with ⟨-, hsame⟩ | ⟨-, hmarked, hplaces'⟩
          · cases hsame
            exact ih h hplaces hrest hloop other hother htag
          · exact ih hmarked hplaces' hrest hloop other hother htag

/-- What a row says of its entry. -/
theorem viewRow_eq_ok {base size : Nat} {row : Row} :
    viewRow data base size entry = .ok row ↔
      row.offset = entry.offset ∧ row.tag = entry.tag ∧ row.value = entry.value ∧
        ((entry.tag ≠ 1 ∧ row.name = none) ∨
          ∃ name, entry.tag = 1 ∧ neededName data base size entry.value = .ok name ∧ row.name = some name) := by
  obtain ⟨offset, tag, value, name⟩ := row
  rw [viewRow]
  by_cases htag : entry.tag = 1
  · simp only [if_pos htag, bind_eq_ok, pure_eq_ok, Row.mk.injEq]
    constructor
    · rintro ⟨read, hread, rfl, rfl, rfl, rfl⟩
      exact ⟨rfl, rfl, rfl, .inr ⟨read, htag, hread, rfl⟩⟩
    · rintro ⟨rfl, rfl, rfl, ⟨hne, -⟩ | ⟨read, -, hread, rfl⟩⟩
      · exact absurd htag hne
      · exact ⟨read, hread, rfl, rfl, rfl, rfl⟩
  · simp only [if_neg htag, pure_eq_ok, Row.mk.injEq]
    constructor
    · rintro ⟨rfl, rfl, rfl, rfl⟩
      exact ⟨rfl, rfl, rfl, .inl ⟨htag, rfl⟩⟩
    · rintro ⟨rfl, rfl, rfl, ⟨-, rfl⟩ | ⟨read, heq, -⟩⟩
      · exact ⟨rfl, rfl, rfl, rfl⟩
      · exact absurd heq htag

end

/-! ## Files whose edits are not read -/

/-- The source as it is read. -/
structure Read (data : List UInt8) (found : Layout) (rows : List Row) : Prop where
  layout : layout data = .ok found
  rows : List.Forall₂ (fun entry row => viewRow data found.base found.size entry = .ok row) found.entries rows

/-- The marks are tags of entries that name an ignored library. -/
def StruckPlaces (ignored : Finset String) (rows : List Row) (places : List Nat) : Prop :=
  ∀ i ∈ places, ∃ row ∈ rows, Struck ignored row ∧ row.offset = i

section
variable {found : Layout} {ignored removed : Finset String} {rows : List Row}

theorem Read.view (hread : Read data found rows) : view data = .ok rows := by
  rw [Elf.view, hread.layout]
  exact mapM_eq_ok.2 hread.rows

theorem StruckPlaces.free (hplaces : StruckPlaces ignored rows places) (hread : Read data found rows) (huntouched : Untouched data ignored) :
    ∀ range ∈ headerRanges data ++ nameRanges found.base rows, FreeOf places range.1 range.2 := by
  intro range hrange i hi
  obtain ⟨row, hrow, hstruck, rfl⟩ := hplaces i hi
  exact huntouched found rows hread.layout hread.view row hrow hstruck range hrange

theorem mem_of_forall₂ {α β : Type} {R : α → β → Prop} {xs : List α} {ys : List β} (h : List.Forall₂ R xs ys) {y : β} (hy : y ∈ ys) :
    ∃ x ∈ xs, R x y := by
  induction h with
  | nil => exact nomatch hy
  | cons hxy _ ih =>
      rcases List.mem_cons.1 hy with rfl | hy
      · exact ⟨_, List.mem_cons_self, hxy⟩
      · obtain ⟨x, hx, hR⟩ := ih hy
        exact ⟨x, List.mem_cons_of_mem _ hx, hR⟩

theorem StruckPlaces.needed (hplaces : StruckPlaces ignored rows places) (hread : Read data found rows) :
    NeededPlaces places found.entries := by
  intro i hi
  obtain ⟨row, hrow, ⟨name, hname, -⟩, rfl⟩ := hplaces i hi
  obtain ⟨entry, hentry, hviewed⟩ := mem_of_forall₂ hread.rows hrow
  obtain ⟨hoffset, -, -, ⟨-, hnone⟩ | ⟨_, htag, -⟩⟩ := viewRow_eq_ok.1 hviewed
  · rw [hnone] at hname
    exact nomatch hname
  · exact ⟨entry, hentry, htag, hoffset.symm⟩

/-- The name of a row is read behind any edits of the file. -/
theorem neededName_of_struckPlaces (h : Marked 1 21 places data edited) (hplaces : StruckPlaces ignored rows places)
    (hread : Read data found rows) (huntouched : Untouched data ignored) {row : Row} {name : String} (hrow : row ∈ rows)
    (hname : row.name = some name) (hsource : neededName data found.base found.size row.value = .ok name) :
    neededName edited found.base found.size row.value = .ok name := by
  apply neededName_marked h hsource
  have hrange : (found.base + row.value, name.toList.length) ∈ nameRanges found.base rows :=
    List.mem_filterMap.2 ⟨row, hrow, by rw [hname]; rfl⟩
  exact hplaces.free hread huntouched _ (List.mem_append_right _ hrange)

/-- The loop marks the tags of the entries that name an ignored library, and no others. -/
theorem marked_of_foldlM {entries : List Entry} {suffix : List Row} {state' : List UInt8 × Finset String}
    (hread : Read data found rows) (huntouched : Untouched data ignored) (h : Marked 1 21 places data edited)
    (hplaces : StruckPlaces ignored rows places)
    (hsuffix : List.Forall₂ (fun entry row => viewRow data found.base found.size entry = .ok row) entries suffix)
    (hentries : ∀ entry ∈ entries, entry ∈ found.entries) (hrows : ∀ row ∈ suffix, row ∈ rows)
    (hloop : entries.foldlM (filterEntry found.base found.size ignored) (edited, removed) = .ok state') :
    ∃ places', Marked 1 21 places' data state'.1 ∧ StruckPlaces ignored rows places' ∧
      ∀ i, i ∈ places' ↔ i ∈ places ∨ ∃ row ∈ suffix, Struck ignored row ∧ row.offset = i := by
  induction hsuffix generalizing places edited removed with
  | nil =>
      rw [List.foldlM_nil, pure_eq_ok] at hloop
      subst hloop
      exact ⟨places, h, hplaces, by simp⟩
  | cons hviewed _ ih =>
      next entry row entries suffix hrest =>
      rw [List.foldlM_cons, bind_eq_ok] at hloop
      obtain ⟨⟨edited', removed'⟩, hturn, hloop⟩ := hloop
      have hentry : entry ∈ found.entries := hentries entry List.mem_cons_self
      have hrow : row ∈ rows := hrows row List.mem_cons_self
      have hentries' : ∀ other ∈ entries, other ∈ found.entries := fun other hother => hentries other (List.mem_cons_of_mem _ hother)
      have hrows' : ∀ other ∈ suffix, other ∈ rows := fun other hother => hrows other (List.mem_cons_of_mem _ hother)
      obtain ⟨hoffset, -, hvalue, hname⟩ := viewRow_eq_ok.1 hviewed
      rcases filterEntry_eq_ok h (hplaces.needed hread) hread.layout hentry hturn with
        ⟨hskip, hsame⟩ | ⟨name, htag, hnow, hcases⟩
      · -- An entry of another tag.
        cases hsame
        obtain ⟨places', hmarked, hstruck, hmem⟩ := ih h hplaces hentries' hrows' hloop
        refine ⟨places', hmarked, hstruck, fun i => ?_⟩
        rw [hmem]
        have hnot : ¬ Struck ignored row := by
          rcases hname with ⟨-, hnone⟩ | ⟨_, htag, -⟩
          · simp [Struck, hnone]
          · exact absurd htag hskip
        simp [hnot]
      · -- A `NEEDED` entry has the name that it has in the source.
        obtain ⟨source, hsource, hsome⟩ : ∃ source, neededName data found.base found.size entry.value = .ok source ∧ row.name = some source := by
          rcases hname with ⟨hne, -⟩ | ⟨source, -, hsource, hsome⟩
          · exact absurd htag hne
          · exact ⟨source, hsource, hsome⟩
        have hsame : name = source := by
          have hagain := neededName_of_struckPlaces h hplaces hread huntouched hrow hsome (by rwa [hvalue])
          rw [hvalue, hnow] at hagain
          exact Except.ok.inj hagain
        subst hsame
        rcases hcases with ⟨hkept, hsame⟩ | ⟨hignored, hmarked', -⟩
        · cases hsame
          obtain ⟨places', hmarked, hstruck, hmem⟩ := ih h hplaces hentries' hrows' hloop
          refine ⟨places', hmarked, hstruck, fun i => ?_⟩
          rw [hmem]
          have hnot : ¬ Struck ignored row := by simp [Struck, hsome, hkept]
          simp [hnot]
        · have hrowStruck : Struck ignored row := ⟨name, hsome, hignored⟩
          have hplaces' : StruckPlaces ignored rows (entry.offset :: places) := by
            intro i hi
            rcases List.mem_cons.1 hi with rfl | hi
            · exact ⟨row, hrow, hrowStruck, hoffset⟩
            · exact hplaces i hi
          obtain ⟨places', hmarked, hstruck, hmem⟩ := ih hmarked' hplaces' hentries' hrows' hloop
          refine ⟨places', hmarked, hstruck, fun i => ?_⟩
          rw [hmem, List.mem_cons]
          constructor
          · rintro ((rfl | hi) | ⟨other, hother, hrest⟩)
            · exact .inr ⟨row, List.mem_cons_self, hrowStruck, hoffset⟩
            · exact .inl hi
            · exact .inr ⟨other, List.mem_cons_of_mem _ hother, hrest⟩
          · rintro (hi | ⟨other, hother, hotherStruck, rfl⟩)
            · exact .inl (.inr hi)
            · rcases List.mem_cons.1 hother with rfl | hother
              · exact .inl (.inl hoffset)
              · exact .inr ⟨other, hother, hotherStruck, rfl⟩

/-- Behind the edits a reader sees the rows without the ignored names. -/
theorem view_marked (hread : Read data found rows) (huntouched : Untouched data ignored) (h : Marked 1 21 places data edited)
    (hplaces : StruckPlaces ignored rows places) (hall : ∀ row ∈ rows, Struck ignored row → row.offset ∈ places) :
    view edited = .ok (rows.map (strike ignored)) := by
  have hfree := hplaces.free hread huntouched
  have hlayout := layout_marked h hread.layout (hplaces.needed hread) fun range hrange => hfree range (List.mem_append_left _ hrange)
  obtain ⟨load, start, span, -, hentries, -⟩ := layout_eq_ok hread.layout
  rw [view, hlayout]
  refine mapM_eq_ok.2 ?_
  rw [List.forall₂_map_left_iff, List.forall₂_map_right_iff]
  refine List.forall₂_iff_get.2 ⟨hread.rows.length_eq, fun i hi hi' => ?_⟩
  have hviewed := hread.rows.get hi hi'
  have hentry := List.get_mem found.entries ⟨i, hi⟩
  have hrow := List.get_mem rows ⟨i, hi'⟩
  generalize found.entries.get ⟨i, hi⟩ = entry at hviewed hentry ⊢
  generalize rows.get ⟨i, hi'⟩ = row at hviewed hrow ⊢
  obtain ⟨hoffset, htag, hvalue, hname⟩ := viewRow_eq_ok.1 hviewed
  by_cases hstruck : Struck ignored row
  · have hmem : entry.offset ∈ places := hoffset ▸ hall row hrow hstruck
    rw [strike, if_pos hstruck, retag, if_pos hmem]
    exact viewRow_eq_ok.2 ⟨hoffset, rfl, hvalue, .inl ⟨by simp, rfl⟩⟩
  · have hmem : entry.offset ∉ places := by
      intro hmem
      -- The row that is struck at this place is the row of this entry.
      obtain ⟨other, hother, hotherStruck, hsame⟩ := hplaces _ hmem
      obtain ⟨otherEntry, hotherEntry, hotherViewed⟩ := mem_of_forall₂ hread.rows hother
      have heq : otherEntry = entry :=
        entry_eq_of_offset hentries hentry hotherEntry ((viewRow_eq_ok.1 hotherViewed).1.symm.trans hsame)
      subst heq
      have hrows : other = row := Except.ok.inj (hotherViewed.symm.trans hviewed)
      exact hstruck (hrows ▸ hotherStruck)
    rw [strike, if_neg hstruck, retag, if_neg hmem]
    refine viewRow_eq_ok.2 ⟨hoffset, htag, hvalue, ?_⟩
    rcases hname with hnone | ⟨name, hneeded, hsource, hsome⟩
    · exact .inl hnone
    · refine .inr ⟨name, hneeded, ?_, hsome⟩
      have hagain := neededName_of_struckPlaces h hplaces hread huntouched hrow hsome (by rwa [hvalue])
      rwa [hvalue] at hagain

theorem neededOf_strike (ignored : Finset String) (rows : List Row) :
    neededOf (rows.map (strike ignored)) = (neededOf rows).filter (· ∉ ignored) := by
  induction rows with
  | nil => rfl
  | cons row rows ih =>
      rw [neededOf, neededOf] at ih
      rw [neededOf, neededOf, List.map_cons]
      cases hname : row.name with
      | none =>
          have hnot : ¬ Struck ignored row := by simp [Struck, hname]
          rw [strike, if_neg hnot, List.filterMap_cons_none hname, List.filterMap_cons_none hname, ih]
      | some name =>
          by_cases hmem : name ∈ ignored
          · have hstruck : Struck ignored row := ⟨name, hname, hmem⟩
            rw [strike, if_pos hstruck, List.filterMap_cons_none rfl, List.filterMap_cons_some hname, ih]
            simp [hmem]
          · have hnot : ¬ Struck ignored row := by simp [Struck, hname, hmem]
            rw [strike, if_neg hnot, List.filterMap_cons_some hname, List.filterMap_cons_some hname, ih]
            simp [hmem]

end

end

/-! ## The snapshot -/

section
variable {sha256 : List UInt8 → String} {data edited : List UInt8} {inspection : Inspection} {ignored : Finset String}

/-- The bytes that are written are the source's without the ignored names. -/
theorem filtered_faithful (huntouched : Untouched data ignored) (h : filtered sha256 data inspection ignored = .ok edited) :
    Filtered data edited ignored := by
  simp only [filtered, bind_eq_ok, pure_eq_ok] at h
  obtain ⟨-, -, -, -, -, -, found, hfound, ⟨edited, removed⟩, hloop, -, -, rfl⟩ := h
  have hnames := exists_neededName_of_foldlM (@Marked.refl 1 21 data) (by rintro _ ⟨⟩) hfound (fun _ hentry => hentry) hloop
  obtain ⟨rows, hrows⟩ : ∃ rows, found.entries.mapM (viewRow data found.base found.size) = .ok rows := by
    refine exists_mapM_eq_ok.2 fun entry hentry => ?_
    by_cases htag : entry.tag = 1
    · obtain ⟨name, hname⟩ := hnames entry hentry htag
      exact ⟨⟨entry.offset, entry.tag, entry.value, some name⟩, viewRow_eq_ok.2 ⟨rfl, rfl, rfl, .inr ⟨name, htag, hname, rfl⟩⟩⟩
    · exact ⟨⟨entry.offset, entry.tag, entry.value, none⟩, viewRow_eq_ok.2 ⟨rfl, rfl, rfl, .inl ⟨htag, rfl⟩⟩⟩
  have hread : Read data found rows := ⟨hfound, mapM_eq_ok.1 hrows⟩
  obtain ⟨places, hmarked, hplaces, hmem⟩ :=
    marked_of_foldlM hread huntouched (@Marked.refl 1 21 data) (by rintro _ ⟨⟩) hread.rows (fun _ h => h) (fun _ h => h) hloop
  have hall : ∀ row ∈ rows, Struck ignored row → row.offset ∈ places := fun row hrow hstruck =>
    (hmem _).2 (.inr ⟨row, hrow, hstruck, rfl⟩)
  refine ⟨hmarked.length_eq, rows, hread.view, view_marked hread huntouched hmarked hplaces hall, neededOf_strike ignored rows, ?_⟩
  intro i hne
  obtain ⟨row, hrow, hstruck, rfl⟩ := hplaces i (hmarked.mem_of_ne hne)
  obtain ⟨entry, -, hviewed⟩ := mem_of_forall₂ hread.rows hrow
  obtain ⟨-, htag, -, ⟨-, hnone⟩ | ⟨_, hone, -⟩⟩ := viewRow_eq_ok.1 hviewed
  · obtain ⟨name, hname, -⟩ := hstruck
    rw [hnone] at hname
    cases hname
  · exact ⟨row, hrow, htag.trans hone, hstruck, le_refl _, by omega⟩

end

/-- What a snapshot comes to: an error of the resolution or of the inspection, or a filtered file.  The
source is as it was, and what is read and written lies within its bytes. -/
def Safe (files : Files) (source destination : String) (data : List UInt8) (ignored : Finset String)
    (outcome : Files × Except SnapshotFailure Unit) : Prop :=
  outcome.1 source = files source ∧ (∀ found, layout data = .ok found → Inside data found) ∧
    ((∃ code message, outcome.2 = .error (.resolution code message) ∨ outcome.2 = .error (.inspection code message)) ∨
      (outcome.2 = .ok () ∧ ∃ edited, outcome.1 destination = some edited ∧ Filtered data edited ignored))

section
variable {sha256 : List UInt8 → String} {inspectElf : List UInt8 → Except InspectionFailure Inspection} {files : Files}
  {source destination : String} {data : List UInt8} {inspection : Inspection} {ignored : Finset String}

theorem translated_cases {failure : SnapshotFailure} (h : failure ≠ .osError) :
    ∃ code message, translated failure = .resolution code message ∨ translated failure = .inspection code message := by
  cases failure with
  | resolution code message => exact ⟨code, message, .inl rfl⟩
  | inspection code message => exact ⟨code, message, .inr rfl⟩
  | caught name => exact ⟨_, _, .inl rfl⟩
  | osError => exact absurd rfl h

/-! ### Errors of the file system -/

theorem raisesOnly_foldlM {ε α β : Type} {P : ε → Prop} {f : β → α → Except ε β} (h : ∀ b x, RaisesOnly P (f b x)) (xs : List α) (b : β) :
    RaisesOnly P (xs.foldlM f b) := by
  induction xs generalizing b with
  | nil => exact raisesOnly_pure
  | cons x xs ih =>
      rw [List.foldlM_cons]
      exact (h b x).bind fun b' _ => ih b'

theorem unpackFrom_raises {offset span width : Nat} : RaisesOnly (· ≠ .osError) (unpackFrom data offset span width) :=
  (raisesOnly_refuse nofun).bind fun _ _ => raisesOnly_pure

theorem addHeader_raises {found : List Segment × Option (Nat × Nat)} {offset : Nat} :
    RaisesOnly (· ≠ .osError) (addHeader data found offset) := by
  refine unpackFrom_raises.bind fun kind _ => unpackFrom_raises.bind fun fileOffset _ => unpackFrom_raises.bind fun address _ =>
    unpackFrom_raises.bind fun size _ => (raisesOnly_refuse (by rintro ⟨⟩)).bind fun _ _ => ?_
  split
  · exact raisesOnly_pure
  · split
    · exact (raisesOnly_refuse (by rintro ⟨⟩)).bind fun _ _ => raisesOnly_pure
    · exact raisesOnly_pure

theorem segments_raises : RaisesOnly (· ≠ .osError) (segments data) :=
  unpackFrom_raises.bind fun _ _ => unpackFrom_raises.bind fun _ _ => unpackFrom_raises.bind fun _ _ =>
    (raisesOnly_refuse nofun).bind fun _ _ => (raisesOnly_foldlM (fun _ _ => addHeader_raises) _ _).bind fun _ _ =>
      (raisesOnly_demand nofun).bind fun _ _ => (raisesOnly_refuse nofun).bind fun _ _ => raisesOnly_pure

theorem dynamicEntries_raises (offsets : List Nat) : RaisesOnly (· ≠ .osError) (dynamicEntries data offsets) := by
  induction offsets with
  | nil => exact raisesOnly_pure
  | cons offset offsets ih =>
      refine unpackFrom_raises.bind fun tag _ => unpackFrom_raises.bind fun value _ => ?_
      split
      · exact raisesOnly_pure
      · exact ih.bind fun _ _ => raisesOnly_pure

theorem stringTable_raises {load : List Segment} {entries : List Entry} :
    RaisesOnly (· ≠ .osError) (stringTable load entries) := by
  rw [stringTable]
  split
  · split
    · exact raisesOnly_ok
    · exact raisesOnly_error nofun
  · exact raisesOnly_error nofun

theorem layout_raises : RaisesOnly (· ≠ .osError) (layout data) :=
  segments_raises.bind fun _ _ => (dynamicEntries_raises _).bind fun _ _ => stringTable_raises.bind fun _ _ => raisesOnly_pure

theorem filterEntry_raises {base size : Nat} {state : List UInt8 × Finset String} {entry : Entry} :
    RaisesOnly (· ≠ .osError) (filterEntry base size ignored state entry) := by
  rw [filterEntry]
  split
  · exact raisesOnly_pure
  · have hname : RaisesOnly (· ≠ .osError) (neededName state.1 base size entry.value) :=
      (raisesOnly_refuse nofun).bind fun _ _ => (raisesOnly_demand nofun).bind fun _ _ =>
        (raisesOnly_refuse nofun).bind fun _ _ => raisesOnly_pure
    refine hname.bind fun name _ => ?_
    split
    · exact ((raisesOnly_refuse nofun).bind fun _ _ => raisesOnly_pure).bind fun _ _ => raisesOnly_pure
    · exact raisesOnly_pure

/-- No file is read while the bytes are edited. -/
theorem filtered_raises : RaisesOnly (· ≠ .osError) (filtered sha256 data inspection ignored) :=
  (raisesOnly_refuse nofun).bind fun _ _ => (raisesOnly_refuse nofun).bind fun _ _ => (raisesOnly_refuse nofun).bind fun _ _ =>
    layout_raises.bind fun _ _ => (raisesOnly_foldlM (fun _ _ => filterEntry_raises) _ _).bind fun _ _ =>
      (raisesOnly_refuse nofun).bind fun _ _ => raisesOnly_pure

theorem checkSnapshot_raises : RaisesOnly (· ≠ .osError) (checkSnapshot inspectElf data inspection ignored) := by
  refine RaisesOnly.bind ?_ fun observed _ => raisesOnly_refuse nofun
  intro failure hfailure
  obtain ⟨reason, -, rfl⟩ := mapError_eq_error.1 hfailure
  cases reason with
  | value message => exact nofun
  | inspection code message => exact nofun

end

/-- Eight bytes of a small number. -/
def field (n : Nat) : List UInt8 := [n.toUInt8, (n / 256).toUInt8, 0, 0, 0, 0, 0, 0]

/-- A file header, one segment that holds the whole file, and the dynamic segment behind the program
headers, with a string table over the whole file. -/
def elfFile (tags : List (Nat × Nat)) (names : List UInt8) : List UInt8 :=
  let dynamic := tags.length * 16
  let size := 176 + dynamic + names.length
  magic ++ [1, 0] ++ field 0 ++ [3, 0, 62, 0, 1, 0, 0, 0] ++ field 0 ++ field 64 ++ field 0 ++
    [0, 0, 0, 0, 64, 0, 56, 0, 2, 0, 0, 0, 0, 0, 0, 0] ++
    ([1, 0, 0, 0, 5, 0, 0, 0] ++ field 0 ++ field 0 ++ field 0 ++ field size ++ field size ++ field 0) ++
    ([2, 0, 0, 0, 4, 0, 0, 0] ++ field 176 ++ field 176 ++ field 176 ++ field dynamic ++ field dynamic ++ field 8) ++
    tags.flatMap (fun tag => field tag.1 ++ field tag.2) ++ names

/-- `\x00libx\x00liby\x00` -/
def sampleNames : List UInt8 := [0, 108, 105, 98, 120, 0, 108, 105, 98, 121, 0]

/-- The file needs `libx` and `liby`. -/
def sampleFile : List UInt8 := elfFile [(1, 257), (1, 262), (5, 0), (10, 267), (0, 0)] sampleNames

def sampleInspection (size : Nat) (needed : List String) : Inspection := { kind := .elf, sha256 := "", size := size, needed := needed }

/-- The name of the second entry is the byte of the first tag: 1 before it is edited, and 21 behind. -/
def overlappingTags (tag other : Nat) : List (Nat × Nat) := [(tag, 273), (other, 176), (1, 278), (5, 0), (10, 283), (0, 0)]

end DebBuilder.Elf
