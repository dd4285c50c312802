import Mathlib
import DebBuilder.Exported.Consistency

/-!
# Serving the public files

A request of the public server names a file of the repository.  Only the indexes, the pool and
three files beside them are served; the walk to the file is pinned to the repository root, which is
itself opened name by name, and follows no link, while a publisher may replace what it meets.

## Main definitions

* `openPublicRepoFile` — the file that is opened for a request, if any.
* `PublicPath` — the paths that may be served.
* `Serves` — a file that is found on such a path.

## Main results

* `openPublicRepoFile_exact` — which requests are served, and with what.
-/

namespace DebBuilder.Exported

open Lib Publishing

/-- `PUBLIC_ROOT_FILES` -/
def publicRootFiles : List String := ["index.html", "repository.gpg", "install.sh"]

/-- `PUBLIC_PREFIXES` -/
def publicPrefixes : List String := ["dists/", "pool/"]

/-- `request_path.lstrip("/")` -/
def requested (requestPath : String) : String := String.ofList (requestPath.toList.dropWhile (· = '/'))

def isPublic (rel : String) : Bool :=
  decide (rel ∈ publicRootFiles) || publicPrefixes.any fun start => start.toList.isPrefixOf rel.toList

/-- What is yielded for a request: the open file, its `fstat` and its path. -/
structure Served (ι : Type) where
  descriptor : ι
  info : Info ι
  path : List String

variable {ι : Type} {disk : Disk ι} {root parts names path : List String} {rel requestPath : String} {k : ℕ} {d object : ι}

/-- The file below the open root; `k` system calls have opened it. -/
def openServed [DecidableEq ι] (disk : Disk ι) (k : ℕ) (root : ι) (parts : List String) : Except SysError (Option (Served ι)) := do
  let (_, file) ← openIndex disk k root parts
  let info ← disk.fstat (k + parts.length) file
  return if info.regular then some ⟨file, info, parts⟩ else none

/-- `open_public_repo_file(repo_root, request_path)`; `root` are the parts of the absolute root. -/
def openPublicRepoFile [DecidableEq ι] (disk : Disk ι) (root : List String) (requestPath : String) :
    Except Raised (Option (Served ι)) :=
  let rel := requested requestPath
  if isPublic rel = false then .ok none
  else
    match safeRelativePath rel none with
    | .error _ => .ok none
    | .ok parts =>
        match pinnedDirectory disk root with
        | .error (.repositoryLock _) => .ok none
        | .error e => .error e
        | .ok base =>
            match openServed disk root.length base parts with
            | .ok served => .ok served
            -- a `ValueError` is no `OSError`
            | .error .value => .error (.value "embedded null byte")
            | .error .fileNotFound | .error .os => .ok none

/-! ## The paths that may be served -/

/-- One of the files beside the indexes, or a file below the indexes or the pool. -/
def PublicPath (path : List String) : Prop :=
  (∃ file ∈ publicRootFiles, path = [file]) ∨ ∃ top ∈ ["dists", "pool"], ∃ name names, path = top :: name :: names

theorem isPublic_iff : isPublic rel = true ↔ PublicPath (PosixPath.components rel) := by
  have hrel : "/".intercalate (PosixPath.components rel) = rel := PosixPath.intercalate_components rel
  simp only [isPublic, Bool.or_eq_true, decide_eq_true_eq, publicPrefixes, List.any_cons, List.any_nil, Bool.or_false,
    List.isPrefixOf_iff_prefix]
  constructor
  · rintro (hfile | ⟨rest, hrest⟩ | ⟨rest, hrest⟩)
    · refine .inl ⟨rel, hfile, ?_⟩
      simp only [publicRootFiles, List.mem_cons, List.not_mem_nil, or_false] at hfile
      rcases hfile with rfl | rfl | rfl <;> decide +kernel
    · exact .inr ⟨"dists", by simp, PosixPath.components_of_prefix (by decide) hrest.symm⟩
    · exact .inr ⟨"pool", by simp, PosixPath.components_of_prefix (by decide) hrest.symm⟩
  · rintro (⟨file, hfile, hpath⟩ | ⟨top, htop, name, names, hpath⟩)
    · left
      rw [hpath, String.intercalate_singleton] at hrel
      rwa [← hrel]
    · right
      have htext : rel.toList = (top ++ "/").toList ++ ("/".intercalate (name :: names)).toList := by
        rw [← hrel, hpath, String.intercalate_cons_cons]
        simp
      simp only [List.mem_cons, List.not_mem_nil, or_false] at htop
      rcases htop with rfl | rfl
      · exact .inl ⟨_, htext.symm⟩
      · exact .inr ⟨_, htext.symm⟩

theorem safeRelativePath_eq_ok (hdot : rel ≠ ".") :
    safeRelativePath rel none = .ok parts ↔
      parts = PosixPath.components rel ∧ (∀ part ∈ parts, part ∉ ["", ".", ".."]) ∧ '\\' ∉ rel.toList := by
  have hnoise : ((rel.toList.splitOn '/').any (· ∈ [[], ['.'], ['.', '.']])) = true ↔
      ∃ part ∈ PosixPath.components rel, part ∈ ["", ".", ".."] := by
    simp only [List.any_eq_true, decide_eq_true_eq, PosixPath.components, List.mem_map, exists_exists_and_eq_and]
    apply exists_congr
    intro part
    apply and_congr_right'
    simp [← String.toList_inj]
  have hempty : rel = "" → ∃ part ∈ PosixPath.components rel, part ∈ ["", ".", ".."] := by
    rintro rfl
    decide
  simp only [safeRelativePath]
  split
  · next hbad =>
    simp only [Bool.or_eq_true, Bool.and_eq_true, hnoise, decide_eq_true_eq, List.contains_iff_mem] at hbad
    constructor
    · intros; contradiction
    · rintro ⟨rfl, hparts, hback⟩
      rcases hbad with (hnil | hslash) | ⟨-, part, hpart, hmem⟩
      · obtain ⟨part, hpart, hmem⟩ := hempty hnil
        exact absurd hmem (hparts part hpart)
      · exact absurd hslash hback
      · exact absurd hmem (hparts part hpart)
  · next hgood =>
    simp only [Bool.or_eq_true, Bool.and_eq_true, hnoise, decide_eq_true_eq, List.contains_iff_mem, not_or, not_and] at hgood
    obtain ⟨⟨-, hback⟩, hparts⟩ := hgood
    constructor
    · intro h
      obtain rfl := Except.ok.inj h
      exact ⟨rfl, fun part hpart hmem => hparts hdot ⟨part, hpart, hmem⟩, hback⟩
    · rintro ⟨rfl, -, -⟩
      rfl

/-! ## What is found on such a path -/

theorem clean_of_lookUp {name : String} (h : disk.lookUp k d name = .ok object) : Clean name := by
  by_contra hnul
  have hraise : disk.lookUp k d name = .error .value := if_pos (by simpa [Clean] using hnul)
  cases hraise.symm.trans h

theorem clean_of_walkParents (h : disk.walkParents k d names = .ok object) : ∀ name ∈ names, Clean name := by
  induction names generalizing k d with
  | nil => simp
  | cons first names ih =>
      obtain ⟨child, hopen, hrest⟩ := bind_eq_ok.1 h
      obtain ⟨found, hfound, -⟩ := bind_eq_ok.1 hopen
      intro name hname
      rcases List.mem_cons.1 hname with rfl | hname
      · exact clean_of_lookUp hfound
      · exact ih hrest name hname

theorem clean_of_openIndex {parent : ι} {name : String} (h : openIndex disk k d (names ++ [name]) = .ok (parent, object)) :
    ∀ part ∈ names ++ [name], Clean part := by
  simp only [openIndex, List.dropLast_concat, List.getLastD_concat] at h
  obtain ⟨parent', hwalk, hopen⟩ := bind_eq_ok.1 h
  obtain ⟨file, hfile, -⟩ := map_eq_ok.1 hopen
  obtain ⟨found, hfound, -⟩ := bind_eq_ok.1 hfile
  intro part hpart
  rcases List.mem_append.1 hpart with hpart | hpart
  · exact clean_of_walkParents hwalk part hpart
  · exact List.mem_singleton.1 hpart ▸ clean_of_lookUp hfound

theorem regular_iff : (disk.info k object).regular = true ↔ ∃ bytes, disk.kind object = .file bytes := by
  simp only [Disk.info, decide_eq_true_eq]
  constructor
  · exact fun h => ⟨_, h⟩
  · rintro ⟨bytes, h⟩
    rw [Disk.bytes, h]

/-- A file that is served: it is open, and was found by a walk without links from the root of the
file system. -/
structure Serves (disk : Disk ι) (root : List String) (requestPath : String) (served : Served ι) : Prop where
  path : served.path = PosixPath.components (requested requestPath)
  allowed : PublicPath served.path
  proper : ∀ name ∈ served.path, name ∉ ["", ".", ".."]
  plain : '\\' ∉ (requested requestPath).toList
  rooted : root ≠ [] ∧ ".." ∉ root
  clean : ∀ name ∈ root ++ served.path, Clean name
  walk : disk.tree.Walks disk.clock 0 disk.slash (root ++ served.path) served.descriptor
  regular : ∃ bytes, disk.kind served.descriptor = .file bytes
  info : served.info = disk.info (root.length + served.path.length) served.descriptor
  quiet : Quiet disk 0 (root.length + served.path.length + 1)

section
variable [DecidableEq ι] {served : Served ι}

theorem openServed_eq_some {name : String} (hd : disk.kind d = .directory) :
    openServed disk k d (names ++ [name]) = .ok (some served) ↔
      served.path = names ++ [name] ∧ (∀ part ∈ names ++ [name], Clean part) ∧
        disk.tree.Walks disk.clock k d (names ++ [name]) served.descriptor ∧
        (∃ bytes, disk.kind served.descriptor = .file bytes) ∧
        served.info = disk.info (k + (names ++ [name]).length) served.descriptor ∧
        Quiet disk k ((names ++ [name]).length + 1) := by
  have hlength : (names ++ [name]).length = names.length + 1 := by simp
  constructor
  · intro h
    obtain ⟨⟨parent, file⟩, hopen, h⟩ := bind_eq_ok.1 h
    obtain ⟨info, hstat, h⟩ := bind_eq_ok.1 h
    have hclean := clean_of_openIndex hopen
    obtain ⟨hname, hnames⟩ : Clean name ∧ ∀ part ∈ names, Clean part :=
      ⟨hclean name (by simp), fun part hpart => hclean part (List.mem_append_left _ hpart)⟩
    obtain ⟨⟨hwalk, hdir⟩, hentry, -, hquiet⟩ := (openIndex_eq_ok hd hname hnames).1 hopen
    obtain ⟨hfault, rfl⟩ := fstat_eq_ok.1 hstat
    have hfound := pure_eq_ok.1 h
    split at hfound
    · next hregular =>
      obtain rfl := Option.some.inj hfound
      refine ⟨rfl, hclean, LiveTree.walks_concat.2 ⟨parent, hwalk, isDirectory_tree.2 hdir, hentry⟩, regular_iff.1 hregular, rfl, ?_⟩
      rw [hlength] at hfault ⊢
      exact quiet_concat.2 ⟨hquiet, hfault⟩
    · cases hfound
  · rintro ⟨hpath, hclean, hwalk, hregular, hinfo, hquiet⟩
    obtain ⟨hname, hnames⟩ : Clean name ∧ ∀ part ∈ names, Clean part :=
      ⟨hclean name (by simp), fun part hpart => hclean part (List.mem_append_left _ hpart)⟩
    obtain ⟨parent, hwalks, hdir, hentry⟩ := LiveTree.walks_concat.1 hwalk
    obtain ⟨hbefore, hfault⟩ := quiet_concat.1 hquiet
    have hlink : disk.kind served.descriptor ≠ .link := by
      obtain ⟨bytes, hfile⟩ := hregular
      rw [hfile]
      exact nofun
    have hopen : openIndex disk k d (names ++ [name]) = .ok (parent, served.descriptor) :=
      (openIndex_eq_ok hd hname hnames).2 ⟨⟨hwalks, isDirectory_tree.1 hdir⟩, hentry, hlink, hlength ▸ hbefore⟩
    refine bind_eq_ok.2 ⟨_, hopen, bind_eq_ok.2 ⟨_, fstat_eq_ok.2 ⟨hfault, rfl⟩, pure_eq_ok.2 ?_⟩⟩
    rw [if_pos (regular_iff.2 hregular), ← hinfo, ← hpath]

omit [DecidableEq ι] in
theorem pinnedDirectory_public_eq_ok :
    pinnedDirectory disk root = .ok d ↔ (root ≠ [] ∧ ".." ∉ root) ∧ disk.walkParents 0 disk.slash root = .ok d := by
  unfold pinnedDirectory
  split
  · next hbad =>
    constructor
    · exact nofun
    · rintro ⟨⟨hne, hup⟩, -⟩
      rcases hbad with rfl | hbad
      · exact absurd rfl hne
      · exact absurd hbad hup
  · next hgood =>
    rw [not_or] at hgood
    cases hwalk : disk.walkParents 0 disk.slash root with
    | error e => simp [Except.mapError]
    | ok base => simpa [Except.mapError] using fun _ => hgood

theorem PublicPath.exists_concat (h : PublicPath path) : ∃ names name, path = names ++ [name] := by
  have hne : path ≠ [] := by
    rcases h with ⟨file, -, rfl⟩ | ⟨top, -, name, names, rfl⟩ <;> exact List.cons_ne_nil _ _
  exact ⟨path.dropLast, path.getLast hne, (List.dropLast_append_getLast hne).symm⟩

theorem ne_dot_of_isPublic (h : isPublic rel = true) : rel ≠ "." := by
  rintro rfl
  have hno : isPublic "." = false := by decide +kernel
  exact Bool.false_ne_true (hno.symm.trans h)

/-- A request is served if and only if a regular file is found for it on a public path; nothing
else is ever opened for a reader. -/
theorem openPublicRepoFile_eq_some :
    openPublicRepoFile disk root requestPath = .ok (some served) ↔ Serves disk root requestPath served := by
  unfold openPublicRepoFile
  constructor
  · intro h
    dsimp only at h
    split at h
    · cases h
    · next hpublic =>
      have hpublic : isPublic (requested requestPath) = true := by simpa using hpublic
      split at h
      · cases h
      · next parts hparts =>
        obtain ⟨rfl, hproper, hplain⟩ := (safeRelativePath_eq_ok (ne_dot_of_isPublic hpublic)).1 hparts
        have hallowed := isPublic_iff.1 hpublic
        split at h
        · cases h
        · cases h
        · next base hbase =>
          obtain ⟨hrooted, hwalk⟩ := pinnedDirectory_public_eq_ok.1 hbase
          have hroot := clean_of_walkParents hwalk
          obtain ⟨hwalks, hdir, hquiet⟩ := (walkParents_eq_ok disk.slash_directory hroot).1 hwalk
          split at h
          · next found hserved =>
            obtain rfl := Except.ok.inj h
            obtain ⟨names, name, hpath⟩ := hallowed.exists_concat
            rw [hpath] at hserved
            obtain ⟨hsame, hclean, hbelow, hregular, hinfo, hrest⟩ := (openServed_eq_some hdir).1 hserved
            rw [← hpath] at hsame
            rw [← hpath, ← hsame] at hclean hbelow hinfo hrest
            constructor
            · exact hsame
            · exact hsame ▸ hallowed
            · exact hsame ▸ hproper
            · exact hplain
            · exact hrooted
            · exact fun name hname => (List.mem_append.1 hname).elim (hroot name) (hclean name)
            · exact LiveTree.walks_append.2 ⟨base, hwalks, by simpa using hbelow⟩
            · exact hregular
            · exact hinfo
            · rw [Nat.add_assoc]
              exact quiet_add.2 ⟨hquiet, by simpa using hrest⟩
          · cases h
          · cases h
          · cases h
  · intro h
    obtain ⟨hsame, hallowed, hproper, hplain, hrooted, hclean, hwalk, hregular, hinfo, hquiet⟩ := h
    have hpublic : isPublic (requested requestPath) = true := isPublic_iff.2 (hsame ▸ hallowed)
    have hparts : safeRelativePath (requested requestPath) none = .ok served.path :=
      (safeRelativePath_eq_ok (ne_dot_of_isPublic hpublic)).2 ⟨hsame, hproper, hplain⟩
    obtain ⟨base, hwalks, hbelow⟩ := LiveTree.walks_append.1 hwalk
    obtain ⟨names, name, hpath⟩ := hallowed.exists_concat
    rw [Nat.add_assoc] at hquiet
    obtain ⟨hfirst, hrest⟩ := quiet_add.1 hquiet
    rw [Nat.zero_add] at hbelow hrest
    have hdir : disk.kind base = .directory := by
      rw [hpath] at hbelow
      cases names with
      | nil => exact isDirectory_tree.1 hbelow.1
      | cons first names => exact isDirectory_tree.1 hbelow.1
    have hbase : pinnedDirectory disk root = .ok base := by
      refine pinnedDirectory_public_eq_ok.2 ⟨hrooted, (walkParents_eq_ok disk.slash_directory ?_).2 ⟨hwalks, hdir, hfirst⟩⟩
      exact fun name hname => hclean name (List.mem_append_left _ hname)
    have hserved : openServed disk root.length base served.path = .ok (some served) := by
      rw [hpath] at hclean hbelow hinfo hrest ⊢
      exact (openServed_eq_some hdir).2
        ⟨hpath, fun part hpart => hclean part (List.mem_append_right _ hpart), hbelow, hregular, hinfo, hrest⟩
    simp [hpublic, hparts, hbase, hserved]

/-- Only a NUL in a name makes the call raise. -/
theorem openPublicRepoFile_raises {e : Raised} (h : openPublicRepoFile disk root requestPath = .error e) :
    ∃ name ∈ root ++ PosixPath.components (requested requestPath), ¬ Clean name := by
  by_contra hnone
  have hclean : ∀ name ∈ root ++ PosixPath.components (requested requestPath), Clean name := by simpa using hnone
  have hroot : ∀ name ∈ root, Clean name := fun name hname => hclean name (List.mem_append_left _ hname)
  unfold openPublicRepoFile at h
  dsimp only at h
  split at h
  · cases h
  · next hpublic =>
    have hpublic : isPublic (requested requestPath) = true := by simpa using hpublic
    split at h
    · cases h
    · next parts hparts =>
      obtain ⟨rfl, -, -⟩ := (safeRelativePath_eq_ok (ne_dot_of_isPublic hpublic)).1 hparts
      split at h
      · cases h
      · next e' hother hbase =>
        unfold pinnedDirectory at hbase
        split at hbase
        · cases hbase
          exact hother _ rfl
        · cases hwalk : disk.walkParents 0 disk.slash root with
          | ok base => simp [hwalk, Except.mapError] at hbase
          | error fault =>
              have hfault : fault ≠ .value := raisesOnly_walkParents hroot fault hwalk
              cases fault with
              | value => exact absurd rfl hfault
              | os | fileNotFound =>
                  simp only [hwalk, Except.mapError, Except.error.injEq] at hbase
                  exact hother _ hbase.symm
      · next base hbase =>
        obtain ⟨names, name, hpath⟩ := (isPublic_iff.1 hpublic).exists_concat
        have hnames : ∀ part ∈ names ++ [name], Clean part := fun part hpart =>
          hclean part (List.mem_append_right _ (hpath ▸ hpart))
        split at h
        · cases h
        · next hvalue =>
          rw [hpath] at hvalue
          have hraises : RaisesOnly (· ≠ SysError.value) (openServed disk root.length base (names ++ [name])) := by
            apply (raisesOnly_openIndex (hnames name (by simp)) fun part hpart => hnames part (List.mem_append_left _ hpart)).bind
            intro opened _
            apply raisesOnly_fstat.bind
            intro info _
            exact raisesOnly_ok
          exact hraises _ hvalue rfl
        · cases h
        · cases h

/-- The public server shows the files that it may show and nothing else, whatever is replaced while
a request is answered. -/
structure Confined (disk : Disk ι) (root : List String) (requestPath : String) : Prop where
  exact : ∀ served, openPublicRepoFile disk root requestPath = .ok (some served) ↔ Serves disk root requestPath served
  /-- Where directories change only while they are in place, a served file was in place. -/
  inPlace : ∀ served, openPublicRepoFile disk root requestPath = .ok (some served) →
    disk.tree.Steady disk.slash (root ++ served.path) →
    ∃ t, disk.clock 0 ≤ t ∧ t ≤ disk.clock (root.length + served.path.length) ∧
      disk.tree.find t disk.slash (root ++ served.path) = some served.descriptor
  raises : ∀ e, openPublicRepoFile disk root requestPath = .error e →
    ∃ name ∈ root ++ PosixPath.components (requested requestPath), ¬ Clean name

theorem public_files_confined (disk : Disk ι) (root : List String) (requestPath : String) : Confined disk root requestPath := by
  constructor
  · exact fun served => openPublicRepoFile_eq_some
  · intro served h hsteady
    have hserves := openPublicRepoFile_eq_some.1 h
    obtain ⟨t, hstart, hend, hfind⟩ :=
      LiveTree.exists_find_of_walks hsteady disk.clock_mono (List.prefix_refl _) hserves.walk
    rw [Nat.zero_add, List.length_append] at hend
    exact ⟨t, hstart, hend, hfind⟩
  · exact fun e h => openPublicRepoFile_raises h

end

end DebBuilder.Exported
