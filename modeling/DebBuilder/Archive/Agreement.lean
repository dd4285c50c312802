import Mathlib
import DebBuilder.Archive.Extraction

/-!
# Both extractors extract the same

An extraction without the metadata of a format, which both extractors are.

## Main definitions

* `Item` — what an extractor makes of a member.
* `extract` — the extraction of items.
* `ZipOf`, `TarOf` — the members of the two formats that stand for one member.

## Main statements

* `forget_extractZipArchive`, `forget_extractTarArchive` — both extractors are `extract`.
* `Extracted.of_extract` — what is on the disk after an extraction.
* `extractors_agree` — both extractors agree on what both formats can express.
-/

namespace DebBuilder.Archive
open Lib PartialMap

inductive ItemKind
  | file (contents : List UInt8) (executable : Bool)
  | directory
  /-- A link, a device or an encrypted entry. -/
  | refused
  /-- An entry of an unknown type. -/
  | skipped
  deriving DecidableEq

@[ext] structure Item where
  /-- The parts of its name, when they are safe. -/
  parts : Option (List String)
  /-- What it adds to the size of the archive. -/
  size : Nat
  kind : ItemKind
  deriving DecidableEq

section
variable (system : System) (target : List String) (strip : Bool)

/-- The path of an item below the destination. -/
def relativeOf (parts : List String) : List String := if strip then parts.tail else parts

def place (disk : Disk) (row : ItemKind × List String) : Disk × Option Nat :=
  let relative := relativeOf strip row.2
  if row.1 = .refused then (disk, none)
  else if relative = [] then (disk, some 0)
  else match row.1 with
    | .directory =>
        let made := makeParents system disk (target ++ relative)
        (made.1, if made.2 then some 0 else none)
    | .file contents executable =>
        let made := makeParents system disk (target ++ relative).dropLast
        if ¬ made.2 then (made.1, none)
        else
          let created := createFile system made.1 (target ++ relative) contents executable
          (created.1, if created.2 then some 1 else none)
    | _ => (disk, some 0)

def placeAll : Disk → Nat → List (ItemKind × List String) → Disk × Option Nat
  | disk, extracted, [] => (disk, some extracted)
  | disk, extracted, row :: rows =>
      match place system target strip disk row with
      | (disk, none) => (disk, none)
      | (disk, some added) => placeAll disk (extracted + added) rows

end

/-- The extraction of items. -/
def extract (system : System) (limits : Limits) (destination : Destination) (items : List Item) : Disk × Option Summary :=
  if destination.entries ≠ [] then (destination.disk, none)
  else if items = [] ∨ limits.maxMembers < items.length then (destination.disk, none)
  else match items.mapM Item.parts with
    | none => (destination.disk, none)
    | some parsed =>
      let total := (items.map Item.size).sum
      if limits.maxUncompressedBytes < total then (destination.disk, none)
      else
        let result := placeAll system destination.path (stripRoot parsed) destination.disk 0
          ((items.map Item.kind).zip parsed)
        (result.1, result.2.map fun extracted => summaryOf extracted total parsed)

/-! ## Both extractors are this extraction -/

def ZipMember.item (member : ZipMember) : Item where
  parts := (safeParts member.filename).toOption
  size := if member.isDir then 0 else member.fileSize
  kind := if member.unsupported then .refused else if member.isDir then .directory
    else .file member.contents member.executable

def TarMember.item (member : TarMember) : Item where
  parts := (safeMemberParts member.name).toOption
  size := if member.type = .regular then member.size else 0
  kind := if member.unsupported then .refused else if member.type = .directory then .directory
    else if member.type = .regular then .file member.contents member.executable else .skipped

/-- The result of an extraction, without what its error says. -/
def forget {α : Type} (result : Disk × Except ExtractionError α) : Disk × Option α := (result.1, result.2.toOption)

theorem partsOrRefuse_eq_ok {error : ExtractionError} {name : String} {parts : List String} :
    partsOrRefuse error name = .ok parts ↔ (PosixPath.parse name).parts = parts ∧
      (PosixPath.parse name).isAbsolute = false ∧ parts ≠ [] ∧ ".." ∉ parts := by
  simp only [partsOrRefuse, bind_eq_ok, refuse_eq_ok, pure_eq_ok, not_or, Bool.not_eq_true]
  constructor
  · rintro ⟨_, h, rfl⟩
    exact ⟨rfl, h⟩
  · rintro ⟨rfl, h⟩
    exact ⟨(), h, rfl⟩

theorem resolve_append {target relative : List String} (htarget : ".." ∉ target) (hrelative : ".." ∉ relative) :
    resolve (target ++ relative) = target ++ relative := by
  have hclimb (parts above : List String) (h : ".." ∉ parts) : parts.foldl PosixPath.climb above = above ++ parts := by
    induction parts generalizing above with
    | nil => simp
    | cons part parts ih =>
        rw [List.mem_cons, not_or] at h
        rw [List.foldl_cons, ih _ h.2, PosixPath.climb, if_neg (Ne.symm h.1)]
        simp
  rw [resolve, hclimb _ _ (by simp [htarget, hrelative]), List.nil_append]

theorem sum_filter_map {α : Type} (test : α → Bool) (size : α → Nat) (members : List α) :
    ((members.filter test).map size).sum = (members.map fun member => if test member then size member else 0).sum := by
  induction members with
  | nil => rfl
  | cons member members ih =>
      cases htest : test member <;> simp [htest, ih]

theorem forget_extractAll {α : Type} {system : System} {target : List String} {strip : Bool} {rows : List α}
    {step : Disk → α → Disk × Except ExtractionError Nat} {row : α → ItemKind × List String}
    (h : ∀ r ∈ rows, ∀ disk, forget (step disk r) = place system target strip disk (row r)) (disk : Disk) (extracted : Nat) :
    forget (extractAll step disk extracted rows) = placeAll system target strip disk extracted (rows.map row) := by
  induction rows generalizing disk extracted with
  | nil => rfl
  | cons r rows ih =>
      have hstep := h r (List.mem_cons_self ..) disk
      have hrest := ih fun r hmem => h r (List.mem_cons_of_mem _ hmem)
      rw [extractAll, List.map_cons, placeAll, ← hstep]
      rcases step disk r with ⟨disk', error | added⟩
      · rfl
      · exact hrest disk' (extracted + added)

theorem mapM_toOption {α β : Type} (f : α → Except ExtractionError β) (members : List α) :
    (members.mapM f).toOption = members.mapM fun member => (f member).toOption := by
  induction members with
  | nil => rfl
  | cons member members ih =>
      rw [List.mapM_cons, List.mapM_cons]
      cases hmember : f member with
      | error error => rfl
      | ok value =>
          rw [← ih]
          cases members.mapM f <;> rfl

/-- The parts of the members are safe. -/
theorem safe_of_mem_zip {α : Type} {f : α → Except ExtractionError (List String)} {members : List α} {parsed : List (List String)}
    (h : members.mapM f = .ok parsed) {row : α × List String} (hrow : row ∈ members.zip parsed) : f row.1 = .ok row.2 :=
  List.forall₂_zip (mapM_eq_ok.1 h) hrow

theorem notMem_relative {strip : Bool} {parts : List String} (h : ".." ∉ parts) : ".." ∉ relativeOf strip parts := by
  intro hmem
  cases strip with
  | true => exact h (List.mem_of_mem_tail hmem)
  | false => exact h hmem

theorem forget_made (disk : Disk) (made : Bool) (added : Nat) (error : ExtractionError) :
    forget (disk, if made = true then .ok added else .error error) = (disk, if made = true then some added else none) := by
  cases made <;> rfl

theorem forget_extractZipMember (system : System) {target : List String} (htarget : ".." ∉ target) (strip : Bool)
    (disk : Disk) {row : ZipMember × List String} (hrow : ".." ∉ row.2) :
    forget (extractZipMember system target strip disk row) = place system target strip disk (row.1.item.kind, row.2) := by
  have hresolve := resolve_append htarget (@notMem_relative strip row.2 hrow)
  rw [relativeOf] at hresolve
  unfold extractZipMember place
  simp only [ZipMember.item, relativeOf, hresolve, List.prefix_append, not_true, if_false]
  by_cases hunsupported : row.1.unsupported = true
  · simp only [if_pos hunsupported]
    rfl
  simp only [if_neg hunsupported]
  by_cases hrelative : (if strip = true then row.2.tail else row.2) = []
  · simp only [if_pos hrelative]
    cases row.1.isDir <;> rfl
  simp only [if_neg hrelative]
  cases row.1.isDir with
  | true =>
      simp only [if_true, reduceCtorEq, if_false]
      exact forget_made _ _ _ _
  | false =>
      simp only [Bool.false_eq_true, if_false, reduceCtorEq]
      cases (makeParents system disk (target ++ if strip = true then row.2.tail else row.2).dropLast).2 with
      | false => rfl
      | true => exact forget_made _ _ _ _

theorem forget_extractTarMember (system : System) {target : List String} (htarget : ".." ∉ target) (strip : Bool)
    (disk : Disk) {row : TarMember × List String} (hrow : ".." ∉ row.2) :
    forget (extractTarMember system target strip disk row) = place system target strip disk (row.1.item.kind, row.2) := by
  have hresolve := resolve_append htarget (@notMem_relative strip row.2 hrow)
  rw [relativeOf] at hresolve
  unfold extractTarMember place
  simp only [TarMember.item, relativeOf, hresolve, List.prefix_append, not_true, if_false]
  by_cases hunsupported : row.1.unsupported = true
  · simp only [if_pos hunsupported]
    rfl
  simp only [if_neg hunsupported]
  by_cases hrelative : (if strip = true then row.2.tail else row.2) = []
  · simp only [if_pos hrelative]
    generalize row.1.type = type
    cases type <;> rfl
  simp only [if_neg hrelative]
  by_cases hdirectory : row.1.type = .directory
  · simp only [if_pos hdirectory, reduceCtorEq, if_false]
    exact forget_made _ _ _ _
  by_cases hregular : row.1.type = .regular
  · simp only [if_neg hdirectory, if_pos hregular, reduceCtorEq, if_false]
    cases (makeParents system disk (target ++ if strip = true then row.2.tail else row.2).dropLast).2 with
    | false => rfl
    | true => exact forget_made _ _ _ _
  · simp only [if_neg hdirectory, if_neg hregular, reduceCtorEq, if_false]
    rfl

variable {system : System} {limits : Limits} {destination : Destination}

/-- The loop of an extractor is the loop over its items. -/
theorem forget_loop {α : Type} {f : α → Except ExtractionError (List String)} {kind : α → ItemKind} {members : List α}
    {parsed : List (List String)} {step : Bool → Disk → α × List String → Disk × Except ExtractionError Nat}
    (hparsed : members.mapM f = .ok parsed) (hsafe : ∀ member parts, f member = .ok parts → ".." ∉ parts)
    (hstep : ∀ strip disk (row : α × List String), ".." ∉ row.2 →
      forget (step strip disk row) = place system destination.path strip disk (kind row.1, row.2)) :
    forget (extractAll (step (stripRoot parsed)) destination.disk 0 (members.zip parsed)) =
      placeAll system destination.path (stripRoot parsed) destination.disk 0 ((members.map kind).zip parsed) := by
  have hrows : (members.map kind).zip parsed = (members.zip parsed).map fun row => (kind row.1, row.2) := by
    rw [List.zip_map_left]
    rfl
  rw [hrows]
  apply forget_extractAll
  intro row hrow disk
  exact hstep _ _ _ (hsafe _ _ (safe_of_mem_zip hparsed hrow))

theorem forget_map {α β : Type} (g : α → β) (result : Disk × Except ExtractionError α) :
    forget (result.1, result.2.map g) = ((forget result).1, (forget result).2.map g) := by
  rcases result with ⟨disk, error | value⟩ <;> rfl

theorem notMem_of_safe {error : ExtractionError} {name : String} {parts : List String}
    (h : partsOrRefuse error name = .ok parts) : ".." ∉ parts := (partsOrRefuse_eq_ok.1 h).2.2.2

/-- The zip extractor is this extraction. -/
theorem forget_extractZipArchive (members : List ZipMember) :
    forget (extractZipArchive system limits destination members) =
      extract system limits destination (members.map ZipMember.item) := by
  have htotal : ((members.filter fun member => !member.isDir).map (·.fileSize)).sum =
      ((members.map ZipMember.item).map Item.size).sum := by
    rw [sum_filter_map, List.map_map]
    congr 2
    funext member
    cases hdir : member.isDir <;> simp [ZipMember.item, hdir]
  have hkinds : (members.map ZipMember.item).map Item.kind = members.map fun member => member.item.kind := by
    rw [List.map_map]
    rfl
  have hmapM : (members.map ZipMember.item).mapM Item.parts =
      (members.mapM fun member => safeParts member.filename).toOption := by
    rw [mapM_toOption, List.mapM_map]
    rfl
  unfold extractZipArchive extract
  rw [hmapM, htotal, hkinds]
  simp only [List.map_eq_nil_iff, List.length_map]
  by_cases hentries : destination.entries ≠ []
  · simp only [if_pos hentries]
    rfl
  by_cases hmembers : members = [] ∨ limits.maxMembers < members.length
  · simp only [if_neg hentries, if_pos hmembers]
    rfl
  simp only [if_neg hentries, if_neg hmembers]
  cases hparsed : members.mapM fun member => safeParts member.filename with
  | error error => rfl
  | ok parsed =>
      have hloop : forget (extractAll (extractZipMember system destination.path (stripRoot parsed)) destination.disk 0
          (members.zip parsed)) = placeAll system destination.path (stripRoot parsed) destination.disk 0
            ((members.map fun member => member.item.kind).zip parsed) :=
        forget_loop hparsed (fun _ _ => notMem_of_safe) fun strip disk row hrow =>
          forget_extractZipMember system destination.resolved strip disk hrow
      simp only [Except.toOption, ← hloop, ← forget_map]
      split <;> rfl

/-- The tar extractor is this extraction. -/
theorem forget_extractTarArchive (members : List TarMember) :
    forget (extractTarArchive system limits destination members) =
      extract system limits destination (members.map TarMember.item) := by
  have htotal : ((members.filter (·.type = .regular)).map (·.size)).sum =
      ((members.map TarMember.item).map Item.size).sum := by
    rw [sum_filter_map, List.map_map]
    congr 2
    funext member
    by_cases hregular : member.type = .regular <;> simp [TarMember.item, hregular]
  have hkinds : (members.map TarMember.item).map Item.kind = members.map fun member => member.item.kind := by
    rw [List.map_map]
    rfl
  have hmapM : (members.map TarMember.item).mapM Item.parts =
      (members.mapM fun member => safeMemberParts member.name).toOption := by
    rw [mapM_toOption, List.mapM_map]
    rfl
  unfold extractTarArchive extract
  rw [hmapM, htotal, hkinds]
  simp only [List.map_eq_nil_iff, List.length_map]
  by_cases hentries : destination.entries ≠ []
  · simp only [if_pos hentries]
    rfl
  by_cases hmembers : members = [] ∨ limits.maxMembers < members.length
  · simp only [if_neg hentries, if_pos hmembers]
    rfl
  simp only [if_neg hentries, if_neg hmembers]
  cases hparsed : members.mapM fun member => safeMemberParts member.name with
  | error error => rfl
  | ok parsed =>
      have hloop : forget (extractAll (extractTarMember system destination.path (stripRoot parsed)) destination.disk 0
          (members.zip parsed)) = placeAll system destination.path (stripRoot parsed) destination.disk 0
            ((members.map fun member => member.item.kind).zip parsed) :=
        forget_loop hparsed (fun _ _ => notMem_of_safe) fun strip disk row hrow =>
          forget_extractTarMember system destination.resolved strip disk hrow
      simp only [Except.toOption, ← hloop, ← forget_map]
      split <;> rfl

/-! ## What an extraction does to the disk -/

theorem makeDirectory_spec (system : System) (disk : Disk) (path : List String) :
    Adds (fun other node => other = path ∧ node = .directory) disk (makeDirectory system disk path).1 ∧
      ((makeDirectory system disk path).2 = true → (makeDirectory system disk path).1 path = some .directory) := by
  unfold makeDirectory
  cases hnode : disk path with
  | none =>
      by_cases hrefuses : system.refuses disk path = true
      · simp only [if_pos hrefuses]
        exact ⟨.refl, (by intros; contradiction)⟩
      · simp only [if_neg hrefuses]
        exact ⟨adds_write hnode ⟨rfl, rfl⟩, fun _ => by simp [write]⟩
  | some node =>
      cases node with
      | directory => exact ⟨.refl, fun _ => hnode⟩
      | file contents executable => exact ⟨.refl, (by intros; contradiction)⟩

theorem makeAll_spec (system : System) (disk : Disk) (paths : List (List String)) :
    Adds (fun other node => other ∈ paths ∧ node = .directory) disk (makeAll system disk paths).1 ∧
      ((makeAll system disk paths).2 = true → ∀ path ∈ paths, (makeAll system disk paths).1 path = some .directory) := by
  induction paths generalizing disk with
  | nil => exact ⟨.refl, fun _ _ hmem => absurd hmem List.not_mem_nil⟩
  | cons path paths ih =>
      obtain ⟨hadds, hmade⟩ := makeDirectory_spec system disk path
      have hfirst : Adds (fun other node => other ∈ path :: paths ∧ node = .directory) disk (makeDirectory system disk path).1 :=
        hadds.mono fun other node h => ⟨h.1 ▸ List.mem_cons_self .., h.2⟩
      rw [makeAll]
      by_cases hok : (makeDirectory system disk path).2 = true
      · simp only [if_pos hok]
        obtain ⟨hrest, hall⟩ := ih (makeDirectory system disk path).1
        refine ⟨hfirst.trans (hrest.mono fun other node h => ⟨List.mem_cons_of_mem _ h.1, h.2⟩), ?_⟩
        intro hdone other hother
        rcases List.mem_cons.1 hother with rfl | hother
        · exact hrest.kept (hmade hok)
        · exact hall hdone other hother
      · simp only [if_neg hok]
        exact ⟨hfirst, fun h => absurd h hok⟩

theorem createFile_spec (system : System) (disk : Disk) (path : List String) (contents : List UInt8) (executable : Bool) :
    Adds (fun other node => other = path ∧ node = .file contents executable) disk
        (createFile system disk path contents executable).1 ∧
      ((createFile system disk path contents executable).2 = true → disk path = none ∧
        (createFile system disk path contents executable).1 path = some (.file contents executable)) := by
  unfold createFile
  by_cases hrefused : (disk path).isSome ∨ system.refuses disk path
  · simp only [if_pos hrefused]
    exact ⟨.refl, nofun⟩
  · simp only [if_neg hrefused]
    have hnone : disk path = none := by
      rw [not_or, Bool.not_eq_true, Option.isSome_eq_false_iff] at hrefused
      exact Option.isNone_iff_eq_none.1 hrefused.1
    exact ⟨adds_write hnone ⟨rfl, rfl⟩, fun _ => ⟨hnone, by simp [write]⟩⟩

section Place
variable (target : List String) (strip : Bool)

/-- What the row of an item may put on the disk. -/
def Allowed (row : ItemKind × List String) (path : List String) (node : Node) : Prop :=
  path <+: target ++ relativeOf strip row.2 ∧ node = .directory ∨
    ∃ contents executable, row.1 = .file contents executable ∧ node = .file contents executable ∧
      path = target ++ relativeOf strip row.2

/-- The item of a row is on the disk. -/
def Kept (disk : Disk) (row : ItemKind × List String) : Prop :=
  (row.1 = .directory → disk (target ++ relativeOf strip row.2) = some .directory) ∧
    ∀ contents executable, row.1 = .file contents executable →
      disk (target ++ relativeOf strip row.2) = some (.file contents executable)

/-- The path of a file that is extracted. -/
def filePath? (row : ItemKind × List String) : Option (List String) :=
  match row.1 with
  | .file _ _ => if relativeOf strip row.2 = [] then none else some (target ++ relativeOf strip row.2)
  | _ => none

variable {target strip}

theorem makeParents_spec (system : System) (disk : Disk) (path : List String) :
    Adds (fun other node => other <+: path ∧ node = .directory) disk (makeParents system disk path).1 ∧
      ((makeParents system disk path).2 = true → (makeParents system disk path).1 path = some .directory) := by
  obtain ⟨hadds, hall⟩ := makeAll_spec system disk path.inits
  exact ⟨hadds.mono fun other node h => ⟨(List.mem_inits ..).1 h.1, h.2⟩,
    fun h => hall h path ((List.mem_inits ..).2 List.prefix_rfl)⟩

/-- One turn of the loop. -/
theorem place_spec (system : System) (disk : Disk) (row : ItemKind × List String) :
    Adds (Allowed target strip row) disk (place system target strip disk row).1 ∧
      ∀ added, (place system target strip disk row).2 = some added → row.1 ≠ .refused ∧
        (relativeOf strip row.2 ≠ [] → Kept target strip (place system target strip disk row).1 row) ∧
        added = (filePath? target strip row).toList.length ∧ ∀ path ∈ filePath? target strip row, disk path = none := by
  obtain ⟨kind, parts⟩ := row
  unfold place
  simp only [filePath?, Kept]
  by_cases hrefused : kind = .refused
  · simp only [if_pos hrefused]
    exact ⟨.refl, nofun⟩
  simp only [if_neg hrefused]
  by_cases hrelative : relativeOf strip parts = []
  · simp only [if_pos hrelative]
    refine ⟨.refl, fun added hadded => ⟨hrefused, fun hne => absurd hrelative hne, ?_⟩⟩
    cases hadded
    cases kind <;> exact ⟨rfl, nofun⟩
  simp only [if_neg hrelative]
  cases kind with
  | refused => exact absurd rfl hrefused
  | skipped =>
      refine ⟨.refl, fun added hadded => ⟨hrefused, fun _ => ⟨nofun, nofun⟩, ?_⟩⟩
      cases hadded
      exact ⟨rfl, nofun⟩
  | directory =>
      obtain ⟨hadds, hmade⟩ := makeParents_spec system disk (target ++ relativeOf strip parts)
      refine ⟨hadds.mono fun path node h => .inl h, ?_⟩
      intro added hadded
      by_cases hok : (makeParents system disk (target ++ relativeOf strip parts)).2 = true
      · simp only [if_pos hok, Option.some.injEq] at hadded
        subst hadded
        exact ⟨hrefused, fun _ => ⟨fun _ => hmade hok, nofun⟩, rfl, nofun⟩
      · simp only [if_neg hok] at hadded
        exact nomatch hadded
  | file contents executable =>
      obtain ⟨hadds, _⟩ := makeParents_spec system disk (target ++ relativeOf strip parts).dropLast
      have hparents : Adds (Allowed target strip (.file contents executable, parts)) disk
          (makeParents system disk (target ++ relativeOf strip parts).dropLast).1 :=
        hadds.mono fun path node h => .inl ⟨h.1.trans (List.dropLast_prefix _), h.2⟩
      by_cases hok : (makeParents system disk (target ++ relativeOf strip parts).dropLast).2 = true
      · simp only [hok, not_true, if_false]
        obtain ⟨hfile, hcreated⟩ := createFile_spec system (makeParents system disk (target ++ relativeOf strip parts).dropLast).1
          (target ++ relativeOf strip parts) contents executable
        refine ⟨hparents.trans (hfile.mono fun path node h => .inr ⟨contents, executable, rfl, h.2, h.1⟩), ?_⟩
        intro added hadded
        by_cases hdone : (createFile system (makeParents system disk (target ++ relativeOf strip parts).dropLast).1
            (target ++ relativeOf strip parts) contents executable).2 = true
        · simp only [if_pos hdone, Option.some.injEq] at hadded
          subst hadded
          obtain ⟨hnone, hthere⟩ := hcreated hdone
          refine ⟨hrefused, fun _ => ⟨nofun, ?_⟩, rfl, ?_⟩
          · intro contents' executable' heq
            cases heq
            exact hthere
          · intro path hpath
            cases hpath
            exact hparents.none_of_none hnone
        · simp only [if_neg hdone] at hadded
          exact nomatch hadded
      · simp only [if_pos hok]
        exact ⟨hparents, nofun⟩

theorem Kept.mono {allowed : List String → Node → Prop} {disk disk' : Disk} {row : ItemKind × List String}
    (h : Kept target strip disk row) (hadds : Adds allowed disk disk') : Kept target strip disk' row :=
  ⟨fun hdirectory => hadds.kept (h.1 hdirectory), fun contents executable hfile => hadds.kept (h.2 contents executable hfile)⟩

/-- What is on the disk when the loop has come to an end. -/
structure Done (target : List String) (strip : Bool) (disk disk' : Disk) (rows : List (ItemKind × List String))
    (extracted : Nat) : Prop where
  taken : ∀ row ∈ rows, row.1 ≠ .refused
  kept : ∀ row ∈ rows, relativeOf strip row.2 ≠ [] → Kept target strip disk' row
  fresh : ∀ path ∈ rows.filterMap (filePath? target strip), disk path = none
  distinct : (rows.filterMap (filePath? target strip)).Nodup
  counted : extracted = (rows.filterMap (filePath? target strip)).length

theorem filePath?_kept {disk : Disk} {row : ItemKind × List String} (hkept : relativeOf strip row.2 ≠ [] → Kept target strip disk row)
    {path : List String} (hpath : filePath? target strip row = some path) : ∃ node, disk path = some node := by
  obtain ⟨kind, parts⟩ := row
  cases kind with
  | file contents executable =>
      simp only [filePath?] at hpath
      split at hpath
      · exact nomatch hpath
      · next hne =>
        cases hpath
        exact ⟨_, (hkept hne).2 contents executable rfl⟩
  | _ => exact nomatch hpath

/-- The loop over the items. -/
theorem placeAll_spec (system : System) (disk : Disk) (extracted : Nat) (rows : List (ItemKind × List String)) :
    Adds (fun path node => ∃ row ∈ rows, Allowed target strip row path node) disk
        (placeAll system target strip disk extracted rows).1 ∧
      ∀ total, (placeAll system target strip disk extracted rows).2 = some total → ∃ count, total = extracted + count ∧
        Done target strip disk (placeAll system target strip disk extracted rows).1 rows count := by
  induction rows generalizing disk extracted with
  | nil =>
      refine ⟨.refl, ?_⟩
      intro total htotal
      cases htotal
      exact ⟨0, rfl, nofun, nofun, nofun, List.nodup_nil, rfl⟩
  | cons row rows ih =>
      obtain ⟨hadds, hplaced⟩ : Adds (Allowed target strip row) disk (place system target strip disk row).1 ∧ _ :=
        place_spec system disk row
      have hfirst : Adds (fun path node => ∃ other ∈ row :: rows, Allowed target strip other path node) disk
          (place system target strip disk row).1 := hadds.mono fun path node h => ⟨row, List.mem_cons_self .., h⟩
      rw [placeAll]
      rcases hplace : place system target strip disk row with ⟨disk', _ | added⟩
      · rw [hplace] at hfirst
        exact ⟨hfirst, nofun⟩
      · rw [hplace] at hfirst hplaced
        obtain ⟨hrest, hdone⟩ := ih disk' (extracted + added)
        refine ⟨hfirst.trans (hrest.mono fun path node ⟨other, hother, h⟩ => ⟨other, List.mem_cons_of_mem _ hother, h⟩), ?_⟩
        intro total htotal
        obtain ⟨count, htotals, hrows⟩ := hdone total htotal
        obtain ⟨htaken, hkept, hadded, hfresh⟩ := hplaced added rfl
        refine ⟨added + count, by omega, ?_, ?_, ?_, ?_, ?_⟩
        · intro other hother
          rcases List.mem_cons.1 hother with rfl | hother
          · exact htaken
          · exact hrows.taken other hother
        · intro other hother hne
          rcases List.mem_cons.1 hother with rfl | hother
          · exact (hkept hne).mono hrest
          · exact hrows.kept other hother hne
        · intro path hpath
          obtain ⟨other, hother, hfile⟩ := List.mem_filterMap.1 hpath
          rcases List.mem_cons.1 hother with rfl | hother
          · exact hfresh path hfile
          · exact hadds.none_of_none (hplace ▸ hrows.fresh path (List.mem_filterMap.2 ⟨other, hother, hfile⟩))
        · cases hfile : filePath? target strip row with
          | none =>
              rw [List.filterMap_cons_none hfile]
              exact hrows.distinct
          | some path =>
              rw [List.filterMap_cons_some hfile, List.nodup_cons]
              refine ⟨fun hlater => ?_, hrows.distinct⟩
              obtain ⟨node, hnode⟩ := filePath?_kept hkept hfile
              exact nomatch (hrows.fresh path hlater).symm.trans hnode
        · rw [hadded, hrows.counted]
          cases hfile : filePath? target strip row with
          | none => simp [List.filterMap_cons_none hfile]
          | some path => simp [List.filterMap_cons_some hfile, Nat.add_comm]

end Place

/-! ## The whole extraction -/

/-- The parts that the items have. -/
def partsOf (items : List Item) : List (List String) := items.filterMap Item.parts

/-- The rows of the items with safe parts. -/
def rowsOf (items : List Item) : List (ItemKind × List String) :=
  items.filterMap fun item => item.parts.map fun parts => (item.kind, parts)

/-- What may be on the disk at any time: the destination, what is above it, and below it
directories and the files of the archive. -/
structure Contained (destination : Destination) (items : List Item) (disk : Disk) : Prop where
  inside : ∀ path node, disk path = some node →
    path <+: destination.path ∧ node = .directory ∨ destination.path <+: path
  files : ∀ path contents executable, disk path = some (.file contents executable) → ∃ row ∈ rowsOf items,
    row.1 = .file contents executable ∧ path = destination.path ++ relativeOf (stripRoot (partsOf items)) row.2

/-- What an extraction that came to an end has done. -/
structure Extraction (destination : Destination) (items : List Item) (disk : Disk) (summary : Summary) : Prop where
  /-- No item is a link or a special one. -/
  taken : ∀ item ∈ items, item.kind ≠ .refused
  /-- Each item below the root that is stripped is on the disk as it is in the archive. -/
  kept : ∀ row ∈ rowsOf items, relativeOf (stripRoot (partsOf items)) row.2 ≠ [] →
    Kept destination.path (stripRoot (partsOf items)) disk row
  /-- No two files have one path. -/
  distinct : ((rowsOf items).filterMap (filePath? destination.path (stripRoot (partsOf items)))).Nodup
  counted : summary.files = ((rowsOf items).filterMap (filePath? destination.path (stripRoot (partsOf items)))).length

theorem zip_of_mapM {items : List Item} {parsed : List (List String)} (h : items.mapM Item.parts = some parsed) :
    parsed = partsOf items ∧ (items.map Item.kind).zip parsed = rowsOf items ∧
      ∀ item ∈ items, ∃ parts, (item.kind, parts) ∈ rowsOf items := by
  induction items generalizing parsed with
  | nil =>
      cases h
      exact ⟨rfl, rfl, fun _ hmem => absurd hmem List.not_mem_nil⟩
  | cons item items ih =>
      rw [List.mapM_cons] at h
      obtain ⟨parts, hparts, h⟩ := Option.bind_eq_some_iff.1 h
      obtain ⟨rest, hrest, h⟩ := Option.bind_eq_some_iff.1 h
      cases h
      obtain ⟨hpartsOf, hrows, hall⟩ := ih hrest
      have hrow : rowsOf (item :: items) = (item.kind, parts) :: rowsOf items := by
        rw [rowsOf, List.filterMap_cons_some (b := (item.kind, parts)) (by simp [hparts])]
        rfl
      refine ⟨?_, ?_, ?_⟩
      · rw [partsOf, List.filterMap_cons_some hparts, hpartsOf]
        rfl
      · rw [List.map_cons, List.zip_cons_cons, hrows, hrow]
      · intro other hother
        rw [hrow]
        rcases List.mem_cons.1 hother with rfl | hother
        · exact ⟨parts, List.mem_cons_self ..⟩
        · obtain ⟨parts', hmem⟩ := hall other hother
          exact ⟨parts', List.mem_cons_of_mem _ hmem⟩

theorem disk_above (destination : Destination) {path : List String} (h : path <+: destination.path) :
    destination.disk path = some .directory := if_pos h

theorem contained_disk (destination : Destination) (items : List Item) : Contained destination items destination.disk where
  inside := by
    intro path node hnode
    unfold Destination.disk at hnode
    split at hnode
    · next hpath =>
      cases hnode
      exact .inl ⟨hpath, rfl⟩
    · exact nomatch hnode
  files := by
    intro path contents executable hfile
    unfold Destination.disk at hfile
    split at hfile <;> exact nomatch hfile

theorem contained_of_adds {destination : Destination} {items : List Item} {disk : Disk}
    (h : Adds (fun path node => ∃ row ∈ rowsOf items, Allowed destination.path (stripRoot (partsOf items)) row path node)
      destination.disk disk) : Contained destination items disk where
  inside := by
    intro path node hnode
    rcases h path with hsame | ⟨hnone, node', hnode', row, _, hallowed⟩
    · exact (contained_disk destination items).inside path node (hsame ▸ hnode)
    · right
      have hbelow : path <+: destination.path ++ relativeOf (stripRoot (partsOf items)) row.2 := by
        rcases hallowed with ⟨hpath, _⟩ | ⟨_, _, _, _, rfl⟩
        · exact hpath
        · exact List.prefix_rfl
      rcases List.prefix_or_prefix_of_prefix hbelow (List.prefix_append _ _) with hpath | hpath
      · rw [disk_above destination hpath] at hnone
        exact nomatch hnone
      · exact hpath
  files := by
    intro path contents executable hfile
    rcases h path with hsame | ⟨_, node, hnode, row, hrow, hallowed⟩
    · exact (contained_disk destination items).files path contents executable (hsame ▸ hfile)
    · rw [hfile, Option.some.injEq] at hnode
      subst hnode
      rcases hallowed with ⟨_, hdirectory⟩ | ⟨contents', executable', hkind, heq, hpath⟩
      · exact nomatch hdirectory
      · cases heq
        exact ⟨row, hrow, hkind, hpath⟩

/-- What is on the disk after an extraction. -/
theorem extract_spec (items : List Item) :
    Contained destination items (extract system limits destination items).1 ∧
      ∀ summary, (extract system limits destination items).2 = some summary →
        Extraction destination items (extract system limits destination items).1 summary := by
  unfold extract
  by_cases hentries : destination.entries ≠ []
  · simp only [if_pos hentries]
    exact ⟨contained_disk destination items, nofun⟩
  by_cases hitems : items = [] ∨ limits.maxMembers < items.length
  · simp only [if_neg hentries, if_pos hitems]
    exact ⟨contained_disk destination items, nofun⟩
  simp only [if_neg hentries, if_neg hitems]
  cases hparsed : items.mapM Item.parts with
  | none => exact ⟨contained_disk destination items, nofun⟩
  | some parsed =>
      obtain ⟨rfl, hrows, hall⟩ := zip_of_mapM hparsed
      simp only [hrows]
      by_cases htotal : limits.maxUncompressedBytes < (items.map Item.size).sum
      · simp only [if_pos htotal]
        exact ⟨contained_disk destination items, nofun⟩
      simp only [if_neg htotal]
      obtain ⟨hadds, hdone⟩ : Adds (fun path node => ∃ row ∈ rowsOf items,
          Allowed destination.path (stripRoot (partsOf items)) row path node) destination.disk
            (placeAll system destination.path (stripRoot (partsOf items)) destination.disk 0 (rowsOf items)).1 ∧ _ :=
        placeAll_spec system destination.disk 0 (rowsOf items)
      refine ⟨contained_of_adds hadds, ?_⟩
      intro summary hsummary
      obtain ⟨total, htotal, rfl⟩ := Option.map_eq_some_iff.1 hsummary
      obtain ⟨count, hcount, hrun⟩ := hdone total htotal
      refine ⟨?_, hrun.kept, hrun.distinct, ?_⟩
      · intro item hitem
        obtain ⟨parts, hmem⟩ := hall item hitem
        exact hrun.taken _ hmem
      · rw [← hrun.counted, summaryOf, hcount, Nat.zero_add]

/-! ## Members that both formats can express -/

inductive MemberKind
  | file
  | directory
  | symbolicLink
  | characterDevice
  | blockDevice
  | fifo
  deriving DecidableEq, Repr

/-- A member of an archive. -/
structure Member where
  name : String
  kind : MemberKind
  mode : Nat
  contents : List UInt8

/-- The types under which a zip file stores a member. -/
def MemberKind.zipTypes : MemberKind → List Nat
  | .file => [0, regularType]
  | .directory => [0, directoryType]
  | .symbolicLink => [linkType]
  | .characterDevice => [0o020000]
  | .blockDevice => [0o060000]
  | .fifo => [0o010000]

def MemberKind.tarType : MemberKind → TarType
  | .file => .regular
  | .directory => .directory
  | .symbolicLink => .symbolicLink
  | .characterDevice => .characterDevice
  | .blockDevice => .blockDevice
  | .fifo => .fifo

/-- The member of a zip file: a directory is known by the slash at the end of its name. -/
structure ZipOf (member : Member) (zip : ZipMember) : Prop where
  filename : zip.filename.toList = if member.kind = .directory ∧ member.name.toList.getLast? ≠ some '/'
    then member.name.toList ++ ['/'] else member.name.toList
  directory : zip.isDir = true ↔ member.kind = .directory
  type : zip.fileType ∈ member.kind.zipTypes
  plain : zip.flagBits &&& 1 = 0
  permissions : zip.mode &&& 0o111 = member.mode &&& 0o111
  contents : zip.contents = member.contents
  size : zip.fileSize = member.contents.length

/-- The member of a tar file: the library takes the slashes off the name of a directory. -/
structure TarOf (member : Member) (tar : TarMember) : Prop where
  name : tar.name.toList = if member.kind = .directory then member.name.toList.rdropWhile (· = '/') else member.name.toList
  type : tar.type = member.kind.tarType
  permissions : tar.mode &&& 0o111 = member.mode &&& 0o111
  contents : tar.contents = member.contents
  size : member.kind = .file → tar.size = member.contents.length

/-- The parts of a name, when they are safe. -/
def safe (cs : List Char) : Option (List String) :=
  if cs.head? = some '/' ∨ PosixPath.partsOf cs = [] ∨ ".." ∈ PosixPath.partsOf cs then none
  else some (PosixPath.partsOf cs)

theorem parse_of_head? {cs : List Char} (h : cs.head? ≠ some '/') (text : String) (htext : text.toList = cs) :
    PosixPath.parse text = ⟨"", PosixPath.partsOf cs⟩ := by
  unfold PosixPath.parse
  rw [htext]
  split <;> first | rfl | exact absurd rfl h

theorem isAbsolute_of_head? {text : String} (h : text.toList.head? = some '/') :
    (PosixPath.parse text).isAbsolute = true := by
  unfold PosixPath.parse
  split
  · rfl
  · rfl
  · rfl
  · next hfirst =>
    cases htext : text.toList with
    | nil => simp [htext] at h
    | cons c cs =>
        have hc : c = '/' := by simpa [htext] using h
        exact absurd (hc ▸ htext) (hfirst cs)

theorem toOption_partsOrRefuse (error : ExtractionError) (name : String) :
    (partsOrRefuse error name).toOption = safe name.toList := by
  by_cases hhead : name.toList.head? = some '/'
  · have habsolute := isAbsolute_of_head? hhead
    simp [partsOrRefuse, safe, hhead, habsolute, refuse, bind, Except.bind, Except.toOption]
  · rw [partsOrRefuse, parse_of_head? hhead name rfl, safe]
    by_cases hparts : PosixPath.partsOf name.toList = [] ∨ ".." ∈ PosixPath.partsOf name.toList
    · rw [if_pos (.inr hparts)]
      simp [PosixPath.isAbsolute, refuse, hparts, bind, Except.bind, Except.toOption]
    · rw [if_neg (not_or.2 ⟨hhead, hparts⟩)]
      simp [PosixPath.isAbsolute, refuse, hparts, bind, Except.bind, Except.toOption, pure, Except.pure]

/-- A slash at the end of a name makes no difference. -/
theorem safe_slash (cs : List Char) : safe (cs ++ ['/']) = safe cs := by
  have hparts : PosixPath.partsOf (cs ++ ['/']) = PosixPath.partsOf cs := by
    rw [PosixPath.partsOf, List.splitOn_append_cons_self, PosixPath.partsOf]
    simp
  cases cs with
  | nil => decide
  | cons c cs =>
      rw [safe, hparts, safe]
      rfl

theorem safe_rdropWhile (cs : List Char) : safe (cs.rdropWhile (· = '/')) = safe cs := by
  induction cs using List.reverseRecOn with
  | nil => rw [List.rdropWhile_nil]
  | append_singleton cs c ih =>
      by_cases hc : c = '/'
      · subst hc
        rw [List.rdropWhile_concat_pos _ _ _ (by simp), ih, safe_slash]
      · rw [List.rdropWhile_concat_neg _ _ _ (by simpa using hc)]

section
variable {member : Member} {zip : ZipMember} {tar : TarMember}

theorem parts_zipOf (h : ZipOf member zip) : zip.item.parts = safe member.name.toList := by
  have hparts : zip.item.parts = safe zip.filename.toList := toOption_partsOrRefuse _ _
  rw [hparts, h.filename]
  split
  · exact safe_slash _
  · rfl

theorem parts_tarOf (h : TarOf member tar) : tar.item.parts = safe member.name.toList := by
  have hparts : tar.item.parts = safe tar.name.toList := toOption_partsOrRefuse _ _
  rw [hparts, h.name]
  split
  · exact safe_rdropWhile _
  · rfl

theorem unsupported_zipOf (h : ZipOf member zip) :
    zip.unsupported = decide (member.kind ≠ .file ∧ member.kind ≠ .directory) := by
  have htype := h.type
  unfold ZipMember.unsupported
  rw [h.plain]
  cases hkind : member.kind <;> rw [hkind] at htype <;>
    simp only [MemberKind.zipTypes, List.mem_cons, List.not_mem_nil, or_false] at htype
  case file => rcases htype with htype | htype <;> rw [htype] <;> decide
  case directory => rcases htype with htype | htype <;> rw [htype] <;> decide
  all_goals
    rw [htype]
    decide

theorem unsupported_tarOf (h : TarOf member tar) :
    tar.unsupported = decide (member.kind ≠ .file ∧ member.kind ≠ .directory) := by
  unfold TarMember.unsupported
  rw [h.type]
  cases member.kind <;> decide

/-- Both formats make the same item of a member, or both refuse it. -/
theorem item_eq (hzip : ZipOf member zip) (htar : TarOf member tar) :
    zip.item = tar.item ∨ zip.item.kind = .refused ∧ tar.item.kind = .refused := by
  have hparts : zip.item.parts = tar.item.parts := (parts_zipOf hzip).trans (parts_tarOf htar).symm
  have hexecutable : zip.executable = tar.executable := by
    rw [ZipMember.executable, TarMember.executable, hzip.permissions, htar.permissions]
  have hzipUnsupported := unsupported_zipOf hzip
  have htarUnsupported := unsupported_tarOf htar
  have htype := htar.type
  by_cases hfile : member.kind = .file
  · left
    have hdir : zip.isDir = false := by
      rw [← Bool.not_eq_true, hzip.directory, hfile]
      decide
    rw [hfile] at hzipUnsupported htarUnsupported htype
    apply Item.ext hparts
    · simp [ZipMember.item, TarMember.item, hdir, htype, MemberKind.tarType, hzip.size, htar.size hfile]
    · simp [ZipMember.item, TarMember.item, hdir, htype, MemberKind.tarType, hzipUnsupported, htarUnsupported,
        hexecutable, hzip.contents, htar.contents]
  by_cases hdirectory : member.kind = .directory
  · left
    have hdir : zip.isDir = true := hzip.directory.2 hdirectory
    rw [hdirectory] at hzipUnsupported htarUnsupported htype
    apply Item.ext hparts
    · simp [ZipMember.item, TarMember.item, hdir, htype, MemberKind.tarType]
    · simp [ZipMember.item, TarMember.item, hdir, htype, MemberKind.tarType, hzipUnsupported, htarUnsupported]
  · right
    have hunsupported : decide (member.kind ≠ .file ∧ member.kind ≠ .directory) = true := decide_eq_true ⟨hfile, hdirectory⟩
    rw [hunsupported] at hzipUnsupported htarUnsupported
    constructor
    · simp [ZipMember.item, hzipUnsupported]
    · simp [TarMember.item, htarUnsupported]

end

/-! ## Agreement -/

/-- Lists that differ in items that are refused only. -/
theorem extract_congr {items others : List Item}
    (h : List.Forall₂ (fun a b => a = b ∨ a.kind = .refused ∧ b.kind = .refused) items others) :
    items = others ∨ (∃ item ∈ items, item.kind = .refused) ∧ ∃ item ∈ others, item.kind = .refused := by
  induction h with
  | nil => exact .inl rfl
  | cons hitem _ ih =>
      rcases hitem with rfl | ⟨ha, hb⟩
      · rcases ih with rfl | ⟨⟨item, hitem, hkind⟩, other, hother, hkind'⟩
        · exact .inl rfl
        · exact .inr ⟨⟨item, List.mem_cons_of_mem _ hitem, hkind⟩, other, List.mem_cons_of_mem _ hother, hkind'⟩
      · exact .inr ⟨⟨_, List.mem_cons_self .., ha⟩, _, List.mem_cons_self .., hb⟩

/-- An extraction with an item that is refused fails. -/
theorem extract_refused {items : List Item} (h : ∃ item ∈ items, item.kind = .refused) :
    (extract system limits destination items).2 = none := by
  obtain ⟨item, hitem, hkind⟩ := h
  cases hresult : (extract system limits destination items).2 with
  | none => rfl
  | some summary => exact absurd hkind (((extract_spec items).2 summary hresult).taken item hitem)

/-- What an extraction leaves, when it succeeds. -/
def outcome {α : Type} (result : Disk × Except ExtractionError α) : Option (Disk × α) :=
  result.2.toOption.map fun value => (result.1, value)

theorem outcome_eq {α : Type} (result : Disk × Except ExtractionError α) :
    outcome result = (forget result).2.map fun value => ((forget result).1, value) := rfl

theorem outcome_agree {members : List Member} {zips : List ZipMember} {tars : List TarMember}
    (hzip : List.Forall₂ ZipOf members zips) (htar : List.Forall₂ TarOf members tars) :
    outcome (extractZipArchive system limits destination zips) = outcome (extractTarArchive system limits destination tars) := by
  have hitems : List.Forall₂ (fun a b => a = b ∨ a.kind = .refused ∧ b.kind = .refused) (zips.map ZipMember.item)
      (tars.map TarMember.item) := by
    induction hzip generalizing tars with
    | nil =>
        cases htar
        exact .nil
    | cons hmember _ ih =>
        cases htar with
        | cons htar hrest => exact .cons (item_eq hmember htar) (ih hrest)
  rw [outcome_eq, outcome_eq, forget_extractZipArchive, forget_extractTarArchive]
  rcases extract_congr hitems with heq | ⟨hzips, htars⟩
  · rw [heq]
  · rw [extract_refused hzips, extract_refused htars]
    rfl

/-- Both extractors agree on what both formats can express; and whatever an archive has in it,
nothing is created outside the destination, no link or special entry is created, and no file
is written twice. -/
theorem extractors_agree (system : System) (limits : Limits) (destination : Destination) :
    (∀ members zips tars, List.Forall₂ ZipOf members zips → List.Forall₂ TarOf members tars →
      outcome (extractZipArchive system limits destination zips) =
        outcome (extractTarArchive system limits destination tars)) ∧
    (∀ zips : List ZipMember, Contained destination (zips.map ZipMember.item) (extractZipArchive system limits destination zips).1 ∧
      ∀ summary, (extractZipArchive system limits destination zips).2 = .ok summary →
        Extraction destination (zips.map ZipMember.item) (extractZipArchive system limits destination zips).1 summary) ∧
    ∀ tars : List TarMember, Contained destination (tars.map TarMember.item) (extractTarArchive system limits destination tars).1 ∧
      ∀ summary, (extractTarArchive system limits destination tars).2 = .ok summary →
        Extraction destination (tars.map TarMember.item) (extractTarArchive system limits destination tars).1 summary := by
  refine ⟨fun members zips tars => outcome_agree, ?_, ?_⟩
  · intro zips
    obtain ⟨hcontained, hextraction⟩ := @extract_spec system limits destination (zips.map ZipMember.item)
    rw [← forget_extractZipArchive] at hcontained hextraction
    refine ⟨hcontained, fun summary hsummary => hextraction summary ?_⟩
    rw [forget, hsummary]
    rfl
  · intro tars
    obtain ⟨hcontained, hextraction⟩ := @extract_spec system limits destination (tars.map TarMember.item)
    rw [← forget_extractTarArchive] at hcontained hextraction
    refine ⟨hcontained, fun summary hsummary => hextraction summary ?_⟩
    rw [forget, hsummary]
    rfl

def toolMember : Member := ⟨"pkg/tool", .file, 0o755, [1]⟩
def toolZip : ZipMember := ⟨"pkg/tool", 1, 0o100755 <<< 16, 0, [1]⟩
def toolTar : TarMember := ⟨"pkg/tool", .regular, 1, 0o755, [1]⟩
def srcDestination : Destination := ⟨["srv", "source"], by decide, []⟩

/-- An executable file under one root. -/
theorem extractors_agree_tool :
    (extractZipArchive ⟨fun _ _ => false⟩ ⟨10, 10⟩ srcDestination [toolZip]).2 = .ok ⟨1, 1, "pkg"⟩ ∧
      outcome (extractZipArchive ⟨fun _ _ => false⟩ ⟨10, 10⟩ srcDestination [toolZip]) =
        outcome (extractTarArchive ⟨fun _ _ => false⟩ ⟨10, 10⟩ srcDestination [toolTar]) := by
  have hzip : ZipOf toolMember toolZip :=
    ⟨by decide, by decide, by decide, by decide, by decide, by decide, by decide⟩
  have htar : TarOf toolMember toolTar := ⟨by decide, by decide, by decide, by decide, by decide⟩
  refine ⟨by rfl, ?_⟩
  exact (extractors_agree ⟨fun _ _ => false⟩ ⟨10, 10⟩ srcDestination).1 [toolMember] [toolZip] [toolTar]
    (.cons hzip .nil) (.cons htar .nil)

end DebBuilder.Archive
