import Mathlib
import DebBuilder.Recipe.Values

/-!
# Archive selectors

`archive_payload`: a selector names a file, or a directory with all that is below it.  The
Recipe stores the selectors of a list in a canonical form, without those that a directory of
the list covers.

## Main definitions

* `selectorMatches`, `selectorsMatch` — `selector_matches` and `selectors_match`.
* `Covers` — a directory with a selector below it.
* `canonicalOf` — the canonical form of the selectors that were parsed.

## Main statements

* `selectorsMatch_canonical` — the canonical list selects what the list selects.
* `canonicalSelectors_of_mem_iff` — it depends on the members of the list only.
* `canonicalSelectors_canonical` — it is its own canonical form.
-/

namespace DebBuilder.Archive
open Lib Recipe

/-- `selector_matches` -/
def selectorMatches (selected path : ArchivePath) : Bool :=
  if ¬ selected.isDirectory then !path.isDirectory && selected.parts == path.parts
  else if path.parts.take selected.parts.length ≠ selected.parts then false
  else selected.parts.length < path.parts.length || path.isDirectory

/-- The rest of `selectors_match`, for a path that was parsed. -/
def anyMatches (path : ArchivePath) : List String → Fallible Bool
  | [] => .ok false
  | selector :: selectors => do
      let selected ← parseArchivePath (.str selector)
      if selectorMatches selected path then .ok true else anyMatches path selectors

/-- `selectors_match` -/
def selectorsMatch (selectors : List String) (candidate : String) : Fallible Bool := do
  let path ← parseArchivePath (.str candidate)
  anyMatches path selectors

/-! ## Selectors that were parsed -/

/-- The text of a selector is the one that it was parsed from. -/
theorem value_parseArchivePath {text : String} {path : ArchivePath} (h : parseArchivePath (.str text) = .ok path) :
    path.value = text := by
  simp only [parseArchivePath, bind_eq_ok, pure_eq_ok, demand_eq_ok] at h
  obtain ⟨_, hstr, h⟩ := h
  cases hstr
  obtain ⟨_, _, _, _, _, _, _, _, _, _, _, _, _, _, _, _, rfl⟩ := h
  rfl

theorem parts_parseArchivePath {text : String} {path : ArchivePath} (h : parseArchivePath (.str text) = .ok path) :
    path.parts ≠ [] := by
  simp only [parseArchivePath, bind_eq_ok, pure_eq_ok, demand_eq_ok] at h
  obtain ⟨_, hstr, h⟩ := h
  cases hstr
  obtain ⟨_, _, _, _, _, _, _, _, _, _, _, _, _, _, _, _, rfl⟩ := h
  exact List.splitOn_ne_nil '/' _

/-- Each selector of the list, parsed. -/
def Parsed (paths : List ArchivePath) : Prop := ∀ path ∈ paths, parseArchivePath (.str path.value) = .ok path

theorem mapM_parse {selectors : List String} {paths : List ArchivePath} :
    (selectors.map Json.str).mapM parseArchivePath = .ok paths ↔ selectors = paths.map (·.value) ∧ Parsed paths := by
  rw [mapM_eq_ok]
  induction selectors generalizing paths with
  | nil =>
      rw [List.map_nil, List.forall₂_nil_left_iff]
      constructor
      · rintro rfl
        exact ⟨rfl, fun _ hmem => absurd hmem List.not_mem_nil⟩
      · rintro ⟨hnil, _⟩
        exact List.map_eq_nil_iff.1 hnil.symm
  | cons selector selectors ih =>
      rw [List.map_cons, List.forall₂_cons_left_iff]
      constructor
      · rintro ⟨path, rest, hpath, hrest, rfl⟩
        obtain ⟨rfl, hparsed⟩ := ih.1 hrest
        have hvalue := value_parseArchivePath hpath
        subst hvalue
        refine ⟨rfl, ?_⟩
        intro other hmem
        rcases List.mem_cons.1 hmem with rfl | hmem
        · exact hpath
        · exact hparsed other hmem
      · rintro ⟨hvalues, hparsed⟩
        cases paths with
        | nil => exact nomatch hvalues
        | cons path paths =>
            obtain ⟨rfl, hrest⟩ := List.cons.inj hvalues
            exact ⟨path, paths, hparsed path (List.mem_cons_self ..),
              ih.2 ⟨hrest, fun other hmem => hparsed other (List.mem_cons_of_mem _ hmem)⟩, rfl⟩

/-- A directory with a selector below it. -/
def Covers (directory path : ArchivePath) : Prop :=
  directory.isDirectory = true ∧ directory.parts <+: path.parts ∧ directory.parts.length < path.parts.length

instance (directory path : ArchivePath) : Decidable (Covers directory path) := inferInstanceAs (Decidable (_ ∧ _ ∧ _))

theorem Covers.trans {a b c : ArchivePath} (hab : Covers a b) (hbc : Covers b c) : Covers a c :=
  ⟨hab.1, hab.2.1.trans hbc.2.1, hab.2.2.trans hbc.2.2⟩

/-- A file selector matches one file; a directory matches what it covers, and itself. -/
theorem selectorMatches_iff {selected path : ArchivePath} :
    selectorMatches selected path = true ↔
      selected.isDirectory = path.isDirectory ∧ selected.parts = path.parts ∨ Covers selected path := by
  unfold selectorMatches Covers
  cases hdirectory : selected.isDirectory with
  | false => cases path.isDirectory <;> simp
  | true =>
      simp only [not_true, if_false, true_and]
      by_cases hpre : selected.parts <+: path.parts
      · have htake : path.parts.take selected.parts.length = selected.parts := (List.prefix_iff_eq_take.1 hpre).symm
        rw [if_neg (not_not.2 htake), Bool.or_eq_true, decide_eq_true_eq]
        constructor
        · rintro (hlonger | hpath)
          · exact .inr ⟨hpre, hlonger⟩
          · by_cases hlength : selected.parts.length < path.parts.length
            · exact .inr ⟨hpre, hlength⟩
            · exact .inl ⟨hpath.symm, hpre.eq_of_length_le (by omega)⟩
        · rintro (⟨hpath, _⟩ | ⟨_, hlonger⟩)
          · exact .inr hpath.symm
          · exact .inl hlonger
      · have htake : path.parts.take selected.parts.length ≠ selected.parts := fun heq =>
          hpre (List.prefix_iff_eq_take.2 heq.symm)
        rw [if_pos htake]
        constructor
        · exact fun h => nomatch h
        · rintro (⟨_, hparts⟩ | ⟨hbelow, _⟩)
          · exact absurd (hparts ▸ List.prefix_rfl) hpre
          · exact absurd hbelow hpre

/-- What a selector matches, a directory above it matches. -/
theorem Covers.matches {directory selected path : ArchivePath} (h : Covers directory selected)
    (hmatches : selectorMatches selected path = true) : selectorMatches directory path = true := by
  rcases selectorMatches_iff.1 hmatches with ⟨_, hparts⟩ | hcovers
  · refine selectorMatches_iff.2 (.inr ⟨h.1, ?_, ?_⟩)
    · rw [← hparts]
      exact h.2.1
    · rw [← hparts]
      exact h.2.2
  · exact selectorMatches_iff.2 (.inr (h.trans hcovers))

/-! ## The canonical form -/

/-- The selectors without repetition, in the order in which they came. -/
def unique (paths : List ArchivePath) : List ArchivePath := paths.reverse.dedup.reverse

/-- Those that no directory covers. -/
def retained (paths : List ArchivePath) : List ArchivePath :=
  (unique paths).filter fun path => !(List.range path.parts.length).any fun depth =>
    1 ≤ depth && (((unique paths).filter (·.isDirectory)).map (·.parts)).contains (path.parts.take depth)

def canonicalOf (paths : List ArchivePath) : List String := ((retained paths).map (·.value)).insertionSort (· ≤ ·)

/-- No path is both a file and a directory. -/
def Consistent (paths : List ArchivePath) : Prop :=
  ∀ a ∈ paths, ∀ b ∈ paths, a.parts = b.parts → a.isDirectory = b.isDirectory

theorem mem_unique {paths : List ArchivePath} {path : ArchivePath} : path ∈ unique paths ↔ path ∈ paths := by
  simp [unique]

theorem nodup_unique (paths : List ArchivePath) : (unique paths).Nodup := by
  rw [unique, List.nodup_reverse]
  exact List.nodup_dedup _

theorem mem_retained {paths : List ArchivePath} (hparts : ∀ path ∈ paths, path.parts ≠ []) {path : ArchivePath} :
    path ∈ retained paths ↔ path ∈ paths ∧ ∀ directory ∈ paths, ¬ Covers directory path := by
  rw [retained, List.mem_filter, mem_unique]
  refine and_congr_right fun _ => ?_
  rw [Bool.not_eq_true', ← Bool.not_eq_true, List.any_eq_true]
  constructor
  · intro hnone directory hmem hcovers
    obtain ⟨hdirectory, hpre, hlength⟩ := hcovers
    refine hnone ⟨directory.parts.length, List.mem_range.2 hlength, ?_⟩
    rw [Bool.and_eq_true, decide_eq_true_eq, List.contains_iff_mem, ← List.prefix_iff_eq_take.1 hpre]
    refine ⟨List.length_pos_iff.2 (hparts directory hmem), List.mem_map.2 ⟨directory, ?_, rfl⟩⟩
    exact List.mem_filter.2 ⟨mem_unique.2 hmem, hdirectory⟩
  · rintro hnone ⟨depth, hdepth, hmem⟩
    rw [Bool.and_eq_true, decide_eq_true_eq, List.contains_iff_mem] at hmem
    obtain ⟨directory, hdirectory, hparts'⟩ := List.mem_map.1 hmem.2
    obtain ⟨hin, hkind⟩ := List.mem_filter.1 hdirectory
    have hlength : directory.parts.length < path.parts.length := by
      rw [hparts', List.length_take]
      have := List.mem_range.1 hdepth
      omega
    exact hnone directory (mem_unique.1 hin) ⟨hkind, hparts' ▸ List.take_prefix .., hlength⟩

/-- A selector is retained, or a directory above it is. -/
theorem exists_retained {paths : List ArchivePath} (hparts : ∀ path ∈ paths, path.parts ≠ []) {path : ArchivePath}
    (h : path ∈ paths) : ∃ other ∈ retained paths, other = path ∨ Covers other path := by
  induction hlength : path.parts.length using Nat.strong_induction_on generalizing path with
  | _ n ih =>
      by_cases hcovered : ∃ directory ∈ paths, Covers directory path
      · obtain ⟨directory, hmem, hcovers⟩ := hcovered
        obtain ⟨other, hother, hcase⟩ := ih _ (hlength ▸ hcovers.2.2) hmem rfl
        refine ⟨other, hother, .inr ?_⟩
        rcases hcase with rfl | habove
        · exact hcovers
        · exact habove.trans hcovers
      · exact ⟨path, (mem_retained hparts).2 ⟨h, fun directory hmem hcovers => hcovered ⟨directory, hmem, hcovers⟩⟩, .inl rfl⟩

theorem consistent_congr {paths others : List ArchivePath} (h : ∀ path, path ∈ paths ↔ path ∈ others) :
    Consistent paths ↔ Consistent others := by
  simp only [Consistent, h]

theorem conflict?_eq_none {before paths : List ArchivePath} (h : Consistent before) :
    conflict? before paths = none ↔ Consistent (before ++ paths) := by
  induction paths generalizing before with
  | nil => simp [conflict?, h]
  | cons path paths ih =>
      rw [conflict?]
      cases hfind : before.find? (·.parts == path.parts) with
      | none =>
          have hfresh : ∀ other ∈ before, other.parts ≠ path.parts := by simpa using hfind
          have hcons : Consistent (path :: before) := by
            intro a ha b hb hparts
            rcases List.mem_cons.1 ha with hapath | habefore
            · rcases List.mem_cons.1 hb with hbpath | hbbefore
              · rw [hapath, hbpath]
              · exact absurd (hapath ▸ hparts.symm) (hfresh b hbbefore)
            · rcases List.mem_cons.1 hb with hbpath | hbbefore
              · exact absurd (hbpath ▸ hparts) (hfresh a habefore)
              · exact h a habefore b hbbefore hparts
          rw [ih hcons]
          exact consistent_congr fun other => by simp [or_left_comm]
      | some first =>
          have hfirst := List.mem_of_find?_eq_some hfind
          have hparts : first.parts = path.parts := by simpa using List.find?_some hfind
          by_cases hkind : first.isDirectory = path.isDirectory
          · simp only [if_pos hkind]
            rw [ih h]
            constructor
            · intro hrest a ha b hb heq
              -- the path stands for the first one with its parts
              have hstand : ∀ c ∈ before ++ path :: paths, ∃ d ∈ before ++ paths, d.parts = c.parts ∧ d.isDirectory = c.isDirectory := by
                intro c hc
                rcases List.mem_append.1 hc with hc | hc
                · exact ⟨c, List.mem_append_left _ hc, rfl, rfl⟩
                rcases List.mem_cons.1 hc with rfl | hc
                · exact ⟨first, List.mem_append_left _ hfirst, hparts, hkind⟩
                · exact ⟨c, List.mem_append_right _ hc, rfl, rfl⟩
              obtain ⟨a', ha', hap, hak⟩ := hstand a ha
              obtain ⟨b', hb', hbp, hbk⟩ := hstand b hb
              rw [← hak, ← hbk]
              exact hrest a' ha' b' hb' (by rw [hap, hbp, heq])
            · intro hall a ha b hb heq
              refine hall a ?_ b ?_ heq
              · rcases List.mem_append.1 ha with ha | ha
                · exact List.mem_append_left _ ha
                · exact List.mem_append_right _ (List.mem_cons_of_mem _ ha)
              · rcases List.mem_append.1 hb with hb | hb
                · exact List.mem_append_left _ hb
                · exact List.mem_append_right _ (List.mem_cons_of_mem _ hb)
          · simp only [if_neg hkind]
            constructor
            · exact fun h => nomatch h
            · intro hall
              exact absurd (hall first (List.mem_append_left _ hfirst) path (by simp) hparts) hkind

/-- When a list of selectors is accepted. -/
theorem canonicalSelectors_eq_ok {selectors canon : List String} {what : String} :
    canonicalSelectors (texts selectors) what = .ok canon ↔
      ∃ paths, selectors = paths.map (·.value) ∧ Parsed paths ∧ Consistent paths ∧ canonicalOf paths = canon := by
  have hempty : Consistent [] := fun _ hmem => absurd hmem List.not_mem_nil
  simp only [canonicalSelectors, texts, bind_eq_ok, Except.ok.injEq, exists_eq_left', mapM_parse]
  constructor
  · rintro ⟨paths, ⟨hvalues, hparsed⟩, h⟩
    split at h
    · exact nomatch h
    · next hnone =>
      rw [pure_eq_ok] at h
      exact ⟨paths, hvalues, hparsed, by simpa using (conflict?_eq_none hempty).1 hnone, h⟩
  · rintro ⟨paths, hvalues, hparsed, hconsistent, hcanon⟩
    refine ⟨paths, ⟨hvalues, hparsed⟩, ?_⟩
    rw [(conflict?_eq_none hempty).2 (by simpa using hconsistent)]
    exact congrArg Except.ok hcanon

/-! ## What a list selects -/

/-- A list of parsed selectors matches with one of them. -/
theorem anyMatches_eq {paths : List ArchivePath} (h : Parsed paths) (candidate : ArchivePath) :
    anyMatches candidate (paths.map (·.value)) = .ok (paths.any fun selected => selectorMatches selected candidate) := by
  induction paths with
  | nil => rfl
  | cons selected paths ih =>
      have hrest := ih fun other hmem => h other (List.mem_cons_of_mem _ hmem)
      rw [List.map_cons, anyMatches, h selected (List.mem_cons_self ..), hrest, List.any_cons]
      cases hmatches : selectorMatches selected candidate <;> simp [bind, Except.bind, hmatches]

theorem parsed_retained {paths : List ArchivePath} (h : Parsed paths) : Parsed (retained paths) := by
  intro path hmem
  exact h path (mem_unique.1 (List.mem_of_mem_filter hmem))

/-- The retained selectors match what all of them match. -/
theorem any_retained {paths : List ArchivePath} (hparts : ∀ path ∈ paths, path.parts ≠ []) (candidate : ArchivePath) :
    (retained paths).any (fun selected => selectorMatches selected candidate) =
      paths.any fun selected => selectorMatches selected candidate := by
  rw [Bool.eq_iff_iff, List.any_eq_true, List.any_eq_true]
  constructor
  · rintro ⟨selected, hmem, hmatches⟩
    exact ⟨selected, mem_unique.1 (List.mem_of_mem_filter hmem), hmatches⟩
  · rintro ⟨selected, hmem, hmatches⟩
    obtain ⟨other, hother, rfl | hcovers⟩ := exists_retained hparts hmem
    · exact ⟨other, hother, hmatches⟩
    · exact ⟨other, hother, hcovers.matches hmatches⟩

/-- The canonical list, parsed. -/
theorem exists_canonical (paths : List ArchivePath) :
    ∃ canonical : List ArchivePath, canonicalOf paths = canonical.map (·.value) ∧ canonical.Perm (retained paths) := by
  have hsort : ((retained paths).insertionSort fun a b => a.value ≤ b.value).map (·.value) = canonicalOf paths :=
    List.map_insertionSort _ _ _ _ fun _ _ _ _ => Iff.rfl
  exact ⟨_, hsort.symm, List.perm_insertionSort _ _⟩

/-- A selector is known by its text. -/
theorem mem_of_value_mem {paths : List ArchivePath} (h : Parsed paths) {path : ArchivePath}
    (hpath : parseArchivePath (.str path.value) = .ok path) (hmem : path.value ∈ paths.map (·.value)) : path ∈ paths := by
  obtain ⟨other, hother, hvalue⟩ := List.mem_map.1 hmem
  have hparse := h other hother
  rw [hvalue, hpath] at hparse
  cases hparse
  exact hother

theorem canonicalOf_congr {paths others : List ArchivePath} (h : ∀ path, path ∈ retained paths ↔ path ∈ retained others) : canonicalOf paths = canonicalOf others := by
  have hperm : (retained paths).Perm (retained others) :=
    (List.perm_ext_iff_of_nodup ((nodup_unique _).filter _) ((nodup_unique _).filter _)).2 h
  have hsorted : (canonicalOf paths).Perm (canonicalOf others) :=
    (List.perm_insertionSort _ _).trans ((hperm.map _).trans (List.perm_insertionSort _ _).symm)
  exact hsorted.eq_of_pairwise' (List.pairwise_insertionSort _ _) (List.pairwise_insertionSort _ _)

/-! ## Accepted lists -/

section
variable {selectors others canon : List String} {what : String}

/-- The canonical list selects what the list selects. -/
theorem selectorsMatch_canonical (h : canonicalSelectors (texts selectors) what = .ok canon) (candidate : String) :
    selectorsMatch canon candidate = selectorsMatch selectors candidate := by
  obtain ⟨paths, rfl, hparsed, _, rfl⟩ := canonicalSelectors_eq_ok.1 h
  obtain ⟨canonical, hcanonical, hperm⟩ := exists_canonical paths
  have hparts : ∀ path ∈ paths, path.parts ≠ [] := fun path hmem => parts_parseArchivePath (hparsed path hmem)
  have hparsed' : Parsed canonical := fun path hmem => parsed_retained hparsed path (hperm.mem_iff.1 hmem)
  have hsame (path : ArchivePath) : anyMatches path (canonicalOf paths) = anyMatches path (paths.map (·.value)) := by
    have hany : canonical.any (fun selected => selectorMatches selected path) =
        (retained paths).any fun selected => selectorMatches selected path := hperm.any_eq
    rw [hcanonical, anyMatches_eq hparsed', anyMatches_eq hparsed, hany, any_retained hparts]
  simp only [selectorsMatch, hsame]

/-- The canonical list depends on the members of the list only. -/
theorem canonicalSelectors_of_mem_iff (h : canonicalSelectors (texts selectors) what = .ok canon)
    (hmem : ∀ selector, selector ∈ others ↔ selector ∈ selectors) : canonicalSelectors (texts others) what = .ok canon := by
  obtain ⟨paths, rfl, hparsed, hconsistent, rfl⟩ := canonicalSelectors_eq_ok.1 h
  obtain ⟨paths', hpaths'⟩ : ∃ paths', (others.map Json.str).mapM parseArchivePath = .ok paths' := by
    refine exists_mapM_eq_ok.2 ?_
    intro value hvalue
    obtain ⟨selector, hselector, rfl⟩ := List.mem_map.1 hvalue
    obtain ⟨path, hpath, rfl⟩ := List.mem_map.1 ((hmem selector).1 hselector)
    exact ⟨path, hparsed path hpath⟩
  obtain ⟨rfl, hparsed'⟩ := mapM_parse.1 hpaths'
  have hmembers : ∀ path, path ∈ paths' ↔ path ∈ paths := by
    intro path
    constructor
    · intro hin
      exact mem_of_value_mem hparsed (hparsed' path hin) ((hmem _).1 (List.mem_map_of_mem hin))
    · intro hin
      exact mem_of_value_mem hparsed' (hparsed path hin) ((hmem _).2 (List.mem_map_of_mem hin))
  refine canonicalSelectors_eq_ok.2 ⟨paths', rfl, hparsed', (consistent_congr hmembers).2 hconsistent, ?_⟩
  apply canonicalOf_congr
  intro path
  rw [mem_retained fun path hin => parts_parseArchivePath (hparsed' path hin),
    mem_retained fun path hin => parts_parseArchivePath (hparsed path hin)]
  simp only [hmembers]

/-- The canonical list is its own canonical form. -/
theorem canonicalSelectors_canonical (h : canonicalSelectors (texts selectors) what = .ok canon) :
    canonicalSelectors (texts canon) what = .ok canon := by
  obtain ⟨paths, rfl, hparsed, hconsistent, rfl⟩ := canonicalSelectors_eq_ok.1 h
  obtain ⟨canonical, hcanonical, hperm⟩ := exists_canonical paths
  have hin : ∀ path ∈ canonical, path ∈ paths := fun path hmem =>
    mem_unique.1 (List.mem_of_mem_filter (hperm.mem_iff.1 hmem))
  have hparts : ∀ path ∈ paths, path.parts ≠ [] := fun path hmem => parts_parseArchivePath (hparsed path hmem)
  refine canonicalSelectors_eq_ok.2 ⟨canonical, hcanonical, fun path hmem => hparsed path (hin path hmem), ?_, ?_⟩
  · exact fun a ha b hb => hconsistent a (hin a ha) b (hin b hb)
  · apply canonicalOf_congr
    intro path
    -- nothing of the canonical list covers a member of it
    rw [mem_retained fun path hmem => hparts path (hin path hmem), hperm.mem_iff, and_iff_left_iff_imp, mem_retained hparts]
    exact fun hpath directory hmem => hpath.2 directory (hin directory hmem)

end

end DebBuilder.Archive
