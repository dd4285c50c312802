import Mathlib
import DebBuilder.Elf.Relations
import DebBuilder.Lib.FileTree

/-!
# Installed paths in the staging tree

How the resolver finds the file behind an installed path: the canonical form of the path,
the file itself, and the file behind links whose targets are installed paths.

## Main definitions

* `relative`, `staged` — the canonical path, and the regular file under it.
* `stagedBundled` — the file behind the links of a path.
* `Faithful` — each `..` of the links climbs out of a directory.

## Main statements

* `stagedBundled_congr` — nothing outside the staging tree is read.
* `stagedBundled_posix` — the file is the one that the installed system opens.
-/

namespace DebBuilder.Elf
open Lib FileTree PosixPath

/-! ## Paths -/

/-- `posixpath.normpath(path)`, of an absolute path. -/
def normpath (path : String) : String :=
  let path := PosixPath.parse path
  (⟨path.root, collapse path.parts⟩ : PosixPath).asPosix

/-- `_relative(path)` -/
def relative (path : String) : Except Failure String := do
  refuse (isAbsolute path = false ∨ '\\' ∈ path.toList ∨ '\x00' ∈ path.toList)
    (resolutionError "unsafe_staging_path" "Installed ELF path is invalid")
  let normalized := normpath path
  refuse (normalized = "/" ∨ normalized ≠ path ∨ "." ∈ (PosixPath.parse path).parts ∨ ".." ∈ (PosixPath.parse path).parts)
    (resolutionError "unsafe_staging_path" "Installed ELF path is not canonical")
  pure normalized

variable {α : Type}

/-- The links that the system follows in one path. -/
def symlinkLimit : Nat := 40

/-- The loop of `_staged` over the parts of a path to the file `whole`. -/
def stagedFrom (host : FileTree α) (whole : List String) : List String → List String → Except Failure (List String)
  | path, [] =>
      match host.lstat symlinkLimit path with
      | some (.file _) => .ok path
      | _ => .error (resolutionError "unsafe_staging_path" "Installed ELF path is not a regular file")
  | path, part :: parts =>
      match host.lstat symlinkLimit (path ++ [part]) with
      | none => .error (resolutionError "staged_elf_missing" "Installed ELF path is missing")
      | some (.link _) => .error (resolutionError "unsafe_staging_path" "Installed ELF path contains an unsafe component")
      | some .directory => stagedFrom host whole (path ++ [part]) parts
      | some (.file _) =>
          if path ++ [part] ≠ whole then
            .error (resolutionError "unsafe_staging_path" "Installed ELF path contains an unsafe component")
          else stagedFrom host whole (path ++ [part]) parts

/-- `_staged(root, installed)` -/
def staged (host : FileTree α) (root : List String) (installed : String) : Except Failure (List String) := do
  let installed ← relative installed
  let parts := (PosixPath.parse installed).parts
  stagedFrom host (root ++ parts) root parts

/-- What a pass over the parts of a path comes to. -/
inductive Scan
  | reached
  | redirected (current : PosixPath)
  deriving DecidableEq, Repr

/-- The path on which a link leads, with its target in the directory `above` and the rest of
the path behind it. -/
def linkedParts (above : List String) (target : String) (rest : List String) : List String :=
  (if isAbsolute target then (PosixPath.parse target).parts else above ++ (PosixPath.parse target).parts) ++ rest

def redirect (above : List String) (target : String) (rest : List String) : PosixPath :=
  ⟨if isAbsolute target then (PosixPath.parse target).root else "/", collapse (linkedParts above target rest)⟩

/-- The loop of `_staged_bundled` over the parts of a path. -/
def scan (host : FileTree α) (root : List String) (followed : Nat) : List String → List String → Except Failure Scan
  | _, [] => .ok .reached
  | above, part :: rest =>
      match host.lstat symlinkLimit (root ++ above ++ [part]) with
      | none =>
          .error (resolutionError (if followed = 0 then "staged_elf_missing" else "bundled_library_invalid")
            "Bundled library path is missing")
      | some (.link target) => .ok (.redirected (redirect above target rest))
      | some .directory => scan host root followed (above ++ [part]) rest
      | some (.file _) =>
          if rest ≠ [] then
            .error (resolutionError "bundled_library_invalid" "Bundled library path has a non-directory component")
          else scan host root followed (above ++ [part]) rest

/-- The links that `_staged_bundled` follows. -/
def maxFollowed : Nat := 16

/-- The passes of `_staged_bundled`, with the links that may still be followed. -/
def followLinks (host : FileTree α) (root : List String) (left : Nat) (current : String) :
    Except Failure (String × List String) := do
  match ← scan host root (maxFollowed - left) [] (PosixPath.parse current).parts with
  | .reached =>
      let path ← staged host root current
      pure (current, path)
  | .redirected next =>
      match left with
      | 0 => .error (resolutionError "bundled_library_invalid" "Bundled library symlink chain exceeds its bound")
      | left + 1 => followLinks host root left next.asPosix

/-- `_staged_bundled(root, installed)`: the installed path of the file, and where it is staged. -/
def stagedBundled (host : FileTree α) (root : List String) (installed : String) : Except Failure (String × List String) := do
  let current ← relative installed
  followLinks host root maxFollowed current

/-! ## The staging tree alone -/

variable {host host' tree : FileTree α} {root whole above parts rest path : List String} {part current installed : String}
  {followed left : Nat}

/-- The tree below the staging root decides what is under a path whose parents are directories. -/
theorem lstat_below {h : host.node root = some .directory} (habove : (host.below root h).node above = some .directory) :
    host.lstat symlinkLimit (root ++ above ++ [part]) = (host.below root h).lstat symlinkLimit (above ++ [part]) := by
  have hhost : host.node (root ++ above) = some .directory := habove
  rw [lstat_eq hhost, lstat_eq habove, node_below, List.append_assoc]

theorem scan_below (h : host.node root = some .directory) (habove : (host.below root h).node above = some .directory) :
    scan host root followed above parts = scan (host.below root h) [] followed above parts := by
  induction parts generalizing above with
  | nil => rfl
  | cons part rest ih =>
      have hlstat : (host.below root h).lstat symlinkLimit (above ++ [part]) = (host.below root h).node (above ++ [part]) :=
        lstat_eq habove
      simp only [scan, lstat_below habove, List.nil_append, hlstat]
      cases hnode : (host.below root h).node (above ++ [part]) with
      | none => rfl
      | some node =>
          cases node with
          | link target => rfl
          | directory => exact ih hnode
          | file contents =>
              by_cases hrest : rest = []
              · simp only [hrest, ne_eq, not_true_eq_false, if_false, scan]
              · simp only [ne_eq, hrest, not_false_eq_true, if_true]

theorem stagedFrom_below (h : host.node root = some .directory) (habove : (host.below root h).node above = some .directory) :
    stagedFrom host (root ++ (above ++ parts)) (root ++ above) parts =
      (stagedFrom (host.below root h) (above ++ parts) above parts).map (root ++ ·) := by
  induction parts generalizing above with
  | nil =>
      have hroot : host.lstat symlinkLimit (root ++ above) = some .directory := lstat_directory habove
      rw [stagedFrom, stagedFrom, hroot, lstat_directory habove]
      rfl
  | cons part rest ih =>
      have hlstat : (host.below root h).lstat symlinkLimit (above ++ [part]) = (host.below root h).node (above ++ [part]) :=
        lstat_eq habove
      simp only [stagedFrom, lstat_below habove, hlstat]
      cases hnode : (host.below root h).node (above ++ [part]) with
      | none => rfl
      | some node =>
          cases node with
          | link target => rfl
          | directory =>
              have hnext := ih hnode
              rw [List.append_assoc above, List.singleton_append] at hnext
              rw [List.append_assoc root, hnext]
          | file contents =>
              by_cases hrest : rest = []
              · subst hrest
                simp only [List.append_assoc, ne_eq, not_true_eq_false, if_false, stagedFrom]
                have hfile : host.lstat symlinkLimit (root ++ (above ++ [part])) = some (.file contents) := by
                  rw [← List.append_assoc, lstat_below habove, hlstat, hnode]
                rw [hfile, hlstat, hnode]
                rfl
              · have hne : above ++ [part] ≠ above ++ part :: rest := by
                  intro heq
                  rw [List.append_cancel_left_eq] at heq
                  exact hrest (List.cons.inj heq).2.symm
                have hne' : root ++ above ++ [part] ≠ root ++ (above ++ part :: rest) := by
                  rw [List.append_assoc]
                  exact fun heq => hne (List.append_cancel_left heq)
                rw [if_pos hne, if_pos hne']
                rfl

theorem staged_below (h : host.node root = some .directory) :
    staged host root installed = (staged (host.below root h) [] installed).map (root ++ ·) := by
  rw [staged, staged]
  cases relative installed with
  | error e => rfl
  | ok installed =>
      have hstaged : stagedFrom host (root ++ ([] ++ (PosixPath.parse installed).parts)) (root ++ []) _ = _ :=
        stagedFrom_below h (host.below root h).root
      simpa [bind, Except.bind] using hstaged

theorem followLinks_below (h : host.node root = some .directory) :
    followLinks host root left current =
      (followLinks (host.below root h) [] left current).map fun found => (found.1, root ++ found.2) := by
  induction left generalizing current with
  | zero =>
      rw [followLinks, followLinks, scan_below h (host.below root h).root]
      cases scan (host.below root h) [] (maxFollowed - 0) [] (PosixPath.parse current).parts with
      | error e => rfl
      | ok found =>
          cases found with
          | redirected next => rfl
          | reached =>
              simp only [bind, Except.bind, staged_below h]
              cases staged (host.below root h) [] current <;> rfl
  | succ left ih =>
      rw [followLinks, followLinks, scan_below h (host.below root h).root]
      cases scan (host.below root h) [] (maxFollowed - (left + 1)) [] (PosixPath.parse current).parts with
      | error e => rfl
      | ok found =>
          cases found with
          | redirected next => exact ih
          | reached =>
              simp only [bind, Except.bind, staged_below h]
              cases staged (host.below root h) [] current <;> rfl

/-- Only the tree below the staging root is read. -/
theorem stagedBundled_below (h : host.node root = some .directory) :
    stagedBundled host root installed =
      (stagedBundled (host.below root h) [] installed).map fun found => (found.1, root ++ found.2) := by
  rw [stagedBundled, stagedBundled]
  cases relative installed with
  | error e => rfl
  | ok current => exact followLinks_below h

/-- What stands outside the staging root makes no difference. -/
theorem stagedBundled_congr (h : host.node root = some .directory) (hsame : ∀ path, host'.node (root ++ path) = host.node (root ++ path))
    (installed : String) : stagedBundled host' root installed = stagedBundled host root installed := by
  have h' : host'.node root = some .directory := by
    have hroot := hsame []
    rwa [List.append_nil, h] at hroot
  have hbelow : host'.below root h' = host.below root h := by
    simp only [below, FileTree.mk.injEq]
    exact funext hsame
  rw [stagedBundled_below h', stagedBundled_below h, hbelow]

/-! ## The file that is found -/

variable {real above' : List String} {target : String} {limit : Nat}

theorem relative_eq_ok (h : relative installed = .ok current) :
    current = installed ∧ isAbsolute installed = true ∧ normpath installed = installed ∧
      ".." ∉ (PosixPath.parse installed).parts := by
  simp only [relative, bind_eq_ok, refuse_eq_ok, pure_eq_ok, not_or, not_not] at h
  obtain ⟨_, ⟨habsolute, -⟩, _, ⟨-, hnormal, -, hclimb⟩, rfl⟩ := h
  exact ⟨hnormal, by simpa using habsolute, hnormal, hclimb⟩

theorem stagedFrom_eq_ok (habove : tree.node above = some .directory)
    (h : stagedFrom tree (above ++ parts) above parts = .ok path) :
    path = above ++ parts ∧ ∃ contents, tree.node (above ++ parts) = some (.file contents) := by
  induction parts generalizing above with
  | nil =>
      rw [stagedFrom, lstat_directory habove] at h
      exact nomatch h
  | cons part rest ih =>
      rw [stagedFrom, lstat_eq habove] at h
      cases hnode : tree.node (above ++ [part]) with
      | none => simp only [hnode, reduceCtorEq] at h
      | some node =>
          cases node with
          | link target => simp only [hnode, reduceCtorEq] at h
          | directory =>
              simp only [hnode] at h
              rw [List.append_cons] at h ⊢
              exact ih hnode h
          | file contents =>
              simp only [hnode] at h
              by_cases hrest : rest = []
              · subst hrest
                simp only [ne_eq, not_true_eq_false, if_false, stagedFrom, lstat_eq habove, hnode, Except.ok.injEq] at h
                exact ⟨h.symm, contents, hnode⟩
              · have hne : above ++ [part] ≠ above ++ part :: rest := by
                  intro heq
                  rw [List.append_cancel_left_eq] at heq
                  exact hrest (List.cons.inj heq).2.symm
                simp only [if_pos hne, reduceCtorEq] at h

theorem staged_eq_ok (h : staged tree [] current = .ok path) :
    path = (PosixPath.parse current).parts ∧ ∃ contents, tree.node path = some (.file contents) := by
  simp only [staged, bind_eq_ok] at h
  obtain ⟨normalized, hrelative, hstaged⟩ := h
  obtain ⟨hsame, -⟩ := relative_eq_ok hrelative
  rw [hsame] at hstaged
  have hfrom : stagedFrom tree ([] ++ (PosixPath.parse current).parts) [] (PosixPath.parse current).parts = .ok path := hstaged
  obtain ⟨rfl, hfile⟩ := stagedFrom_eq_ok tree.root hfrom
  exact ⟨rfl, hfile⟩

/-- A pass ends at the first link. -/
theorem scan_eq_redirected {next : PosixPath} (habove : tree.node above = some .directory)
    (h : scan tree [] followed above parts = .ok (.redirected next)) :
    ∃ before part rest target, parts = before ++ part :: rest ∧
      tree.node (above ++ before ++ [part]) = some (.link target) ∧ next = redirect (above ++ before) target rest := by
  induction parts generalizing above with
  | nil => exact nomatch h
  | cons part rest ih =>
      rw [scan, List.nil_append, lstat_eq habove] at h
      cases hnode : tree.node (above ++ [part]) with
      | none => simp only [hnode, reduceCtorEq] at h
      | some node =>
          cases node with
          | link target =>
              simp only [hnode, Except.ok.injEq, Scan.redirected.injEq] at h
              exact ⟨[], part, rest, target, rfl, by simpa using hnode, by simpa using h.symm⟩
          | directory =>
              simp only [hnode] at h
              obtain ⟨before, link, rest', target, rfl, hlink, hnext⟩ := ih hnode h
              refine ⟨part :: before, link, rest', target, rfl, ?_, ?_⟩
              · simpa using hlink
              · simpa using hnext
          | file contents =>
              simp only [hnode] at h
              by_cases hrest : rest = []
              · simp only [hrest, ne_eq, not_true_eq_false, if_false, scan, Except.ok.injEq, reduceCtorEq] at h
              · simp only [ne_eq, hrest, not_false_eq_true, if_true, reduceCtorEq] at h

/-! ## Links as the installed system follows them -/

/-- Along the links of a path each `..` climbs out of a directory, and a link that ends the path
does not ask for a directory with a slash or a dot at its end. -/
def Faithful (tree : FileTree α) : Nat → List String → Prop
  | 0, _ => True
  | links + 1, parts => ∀ above part rest target, parts = above ++ part :: rest →
      tree.node (above ++ [part]) = some (.link target) →
        tree.Climbs (linkedParts above target rest) ∧
        (rest = [] → ∀ last ∈ (components target).getLast?, ¬ IsNoise last) ∧
        Faithful tree links (collapse (linkedParts above target rest))

/-- Names without a slash that a path does not drop. -/
def Proper (parts : List String) : Prop := ∀ part ∈ parts, ¬ IsNoise part ∧ '/' ∉ part.toList

theorem proper_parse (text : String) : Proper (PosixPath.parse text).parts := by
  intro part hpart
  refine ⟨not_isNoise_of_mem_parse hpart, ?_⟩
  rw [parts_parse, List.mem_filter] at hpart
  exact slash_notMem_of_mem_components hpart.1

theorem proper_linkedParts (habove : Proper above) (hrest : Proper rest) : Proper (linkedParts above target rest) := by
  intro part hpart
  have hparse := proper_parse target
  rw [linkedParts, List.mem_append] at hpart
  rcases hpart with hpart | hpart
  · split at hpart
    · exact hparse part hpart
    · exact (List.mem_append.1 hpart).elim (habove part) (hparse part)
  · exact hrest part hpart

theorem mem_of_mem_climb {parts : List String} {next : String} (h : part ∈ climb parts next) : part ∈ parts ∨ part = next := by
  rw [climb] at h
  split at h
  · exact .inl (List.dropLast_subset _ h)
  · exact (List.mem_append.1 h).imp_right List.mem_singleton.1

theorem mem_of_mem_collapse (h : part ∈ collapse parts) : part ∈ parts := by
  induction parts using List.reverseRecOn with
  | nil => exact h
  | append_singleton parts next ih =>
      rw [collapse_append_singleton] at h
      rcases mem_of_mem_climb h with h | h
      · exact List.mem_append_left _ (ih h)
      · exact List.mem_append_right _ (List.mem_singleton.2 h)

theorem absolute_redirect (habove : Proper above) (hrest : Proper rest) : (redirect above target rest).Absolute where
  root := by
    rw [redirect]
    split
    · next habsolute => exact root_parse (of_decide_eq_true habsolute)
    · exact .inl rfl
  names part hpart := proper_linkedParts habove hrest part (mem_of_mem_collapse hpart)

/-- One link: the collapsed path is the path that the system goes on with. -/
theorem resolveFrom_redirect (hlink : tree.node (above ++ [part]) = some (.link target)) (hrest : Proper rest)
    (habove : Proper above) (hclimbs : tree.Climbs (linkedParts above target rest))
    (hlast : rest = [] → ∀ last ∈ (components target).getLast?, ¬ IsNoise last) :
    tree.resolveFrom (limit + 1) [] (above ++ part :: rest) =
      tree.resolveFrom limit [] (collapse (linkedParts above target rest)) := by
  have hdirectory : tree.node above = some .directory := tree.parent above part (by rw [hlink]; rfl)
  have hnoise : rest ≠ [] ∨ ∀ last ∈ (components target).getLast?, ¬ IsNoise last := by
    by_cases hnil : rest = []
    · exact .inr (hlast hnil)
    · exact .inl hnil
  have hsqueeze := squeezes_filter hnoise
  rw [← parts_parse] at hsqueeze
  rw [resolveFrom_link hlink, resolveFrom_squeeze hsqueeze,
    ← resolveFrom_collapse hclimbs fun part hpart => (proper_linkedParts habove hrest part hpart).1, linkedParts]
  by_cases habsolute : isAbsolute target = true
  · simp only [if_pos habsolute]
  · simp only [if_neg habsolute, List.append_assoc]
    have hhere : tree.resolveFrom limit [] (above ++ ((PosixPath.parse target).parts ++ rest)) =
        tree.resolveFrom limit ([] ++ above) ((PosixPath.parse target).parts ++ rest) := resolveFrom_directories hdirectory
    exact hhere.symm

theorem reached_posix (h : (staged tree [] current >>= fun path => pure (current, path)) = .ok (installed, real)) :
    (∃ contents, tree.node real = some (.file contents)) ∧
      tree.resolveFrom limit [] (PosixPath.parse current).parts = some real := by
  simp only [bind_eq_ok, pure_eq_ok, Prod.mk.injEq] at h
  obtain ⟨_, hstaged, rfl, rfl⟩ := h
  obtain ⟨hreal, contents, hfile⟩ := staged_eq_ok hstaged
  exact ⟨⟨contents, hfile⟩, by rw [← hreal]; exact resolveFrom_file hfile⟩

/-- What the links of a path lead to. -/
theorem followLinks_posix (hfaithful : Faithful tree left (PosixPath.parse current).parts)
    (h : followLinks tree [] left current = .ok (installed, real)) :
    (∃ contents, tree.node real = some (.file contents)) ∧
      tree.resolveFrom left [] (PosixPath.parse current).parts = some real := by
  induction left generalizing current with
  | zero =>
      rw [followLinks, bind_eq_ok] at h
      obtain ⟨found, -, h⟩ := h
      cases found with
      | redirected next => exact nomatch h
      | reached => exact reached_posix h
  | succ left ih =>
      rw [followLinks, bind_eq_ok] at h
      obtain ⟨found, hscan, h⟩ := h
      cases found with
      | reached => exact reached_posix h
      | redirected next =>
          obtain ⟨above, part, rest, target, hparts, hlink, hnext⟩ := scan_eq_redirected tree.root hscan
          rw [List.nil_append] at hlink hnext
          subst hnext
          obtain ⟨hclimbs, hlast, hfaithful⟩ := hfaithful above part rest target hparts hlink
          have hproper := proper_parse current
          rw [hparts] at hproper ⊢
          have habove : Proper above := fun p hp => hproper p (List.mem_append_left _ hp)
          have hrest : Proper rest := fun p hp => hproper p (List.mem_append_right _ (List.mem_cons_of_mem _ hp))
          have hread := parse_asPosix (absolute_redirect habove hrest : (redirect above target rest).Absolute)
          have hnext := ih (by rwa [hread]) h
          rw [hread] at hnext
          rw [resolveFrom_redirect hlink hrest habove hclimbs hlast]
          exact hnext

/-- The path as it is given, from its text. -/
theorem resolve_installed (h : relative installed = .ok current) (hne : (PosixPath.parse installed).parts ≠ []) :
    tree.resolve limit installed = tree.resolveFrom limit [] (PosixPath.parse installed).parts := by
  obtain ⟨-, habsolute, hnormal, -⟩ := relative_eq_ok h
  have hempty : installed ≠ "" := by
    rintro rfl
    exact nomatch habsolute
  have hpath : (⟨(PosixPath.parse installed).root, collapse (PosixPath.parse installed).parts⟩ : PosixPath).Absolute :=
    ⟨root_parse (of_decide_eq_true habsolute), fun part hpart => proper_parse installed part (mem_of_mem_collapse hpart)⟩
  rw [normpath] at hnormal
  have hread := parse_asPosix hpath
  rw [hnormal] at hread
  have hcomponents := hpath.components_asPosix (by rwa [hread] at hne)
  rw [hnormal, ← hread] at hcomponents
  have hlast : ∀ last ∈ (components installed).getLast?, ¬ IsNoise last := by
    intro last hmem
    rw [hcomponents, List.getLast?_append_of_ne_nil _ hne] at hmem
    exact not_isNoise_of_mem_parse (List.mem_of_getLast? hmem)
  have hsqueeze := squeezes_filter (.inr hlast : ([] : List String) ≠ [] ∨ _)
  rw [← parts_parse, List.append_nil, List.append_nil] at hsqueeze
  rw [resolve, if_neg hempty, resolveFrom_squeeze hsqueeze]

/-! ## Faithful paths -/

theorem faithful_file {contents : α} (h : tree.node parts = some (.file contents)) (links : Nat) :
    Faithful tree links parts := by
  cases links with
  | zero => trivial
  | succ links =>
      rintro above part rest target rfl hlink
      cases rest with
      | nil => rw [h] at hlink; exact nomatch hlink
      | cons next rest =>
          rw [List.append_cons] at h
          have hdirectory : tree.node (above ++ [part]) = some .directory := directory_of_isSome (by rw [h]; rfl)
          rw [hdirectory] at hlink
          exact nomatch hlink

/-- Nothing stands below a link. -/
theorem eq_nil_of_link (hlink : tree.node (above ++ [part]) = some (.link target))
    (hsome : (tree.node (above ++ part :: rest)).isSome) : rest = [] := by
  cases rest with
  | nil => rfl
  | cons next rest =>
      rw [List.append_cons] at hsome
      rw [directory_of_isSome hsome] at hlink
      exact nomatch hlink

/-- A path has one first link. -/
theorem eq_of_links {rest' : List String} {part' target' : String}
    (h : tree.node (above ++ [part]) = some (.link target)) (h' : tree.node (above' ++ [part']) = some (.link target'))
    (heq : above ++ part :: rest = above' ++ part' :: rest') : above = above' ∧ part = part' ∧ rest = rest' := by
  rcases List.append_eq_append_iff.1 heq with ⟨more, rfl, hrest⟩ | ⟨more, rfl, hrest⟩
  · cases more with
    | nil => simpa using hrest
    | cons next more =>
        obtain ⟨rfl, -⟩ := List.cons.inj hrest
        rw [List.append_assoc, List.cons_append] at h'
        exact absurd (eq_nil_of_link h (by rw [h']; rfl)) (by simp)
  · cases more with
    | nil => simpa [eq_comm] using hrest
    | cons next more =>
        obtain ⟨rfl, -⟩ := List.cons.inj hrest
        rw [List.append_assoc, List.cons_append] at h
        exact absurd (eq_nil_of_link h' (by rw [h]; rfl)) (by simp)

theorem faithful_link {links : Nat} (hlink : tree.node (above ++ [part]) = some (.link target))
    (hclimbs : tree.Climbs (linkedParts above target rest))
    (hlast : rest = [] → ∀ last ∈ (components target).getLast?, ¬ IsNoise last)
    (hfaithful : Faithful tree links (collapse (linkedParts above target rest))) :
    Faithful tree (links + 1) (above ++ part :: rest) := by
  intro above' part' rest' target' heq hlink'
  obtain ⟨rfl, rfl, rfl⟩ := eq_of_links hlink hlink' heq
  rw [hlink, Option.some.injEq, TreeNode.link.injEq] at hlink'
  subst hlink'
  exact ⟨hclimbs, hlast, hfaithful⟩

/-! ## The file of the installed system -/

/-- Nothing outside the staging tree is read; and where the links of a path are faithful, the file that is found is a
regular file of the tree, the one that the system with the tree as its root opens. -/
theorem stagedBundled_posix (host : FileTree α) (root : List String) (h : host.node root = some .directory)
    (installed : String) :
    (∀ host' : FileTree α, (∀ path, host'.node (root ++ path) = host.node (root ++ path)) →
      stagedBundled host' root installed = stagedBundled host root installed) ∧
    (Faithful (host.below root h) maxFollowed (PosixPath.parse installed).parts →
      ∀ found real, stagedBundled host root installed = .ok (found, real) → ∃ inside contents, real = root ++ inside ∧
        host.node real = some (.file contents) ∧
        ∀ limit, maxFollowed ≤ limit → (host.below root h).resolve limit installed = some inside) := by
  refine ⟨fun host' hsame => stagedBundled_congr h hsame installed, ?_⟩
  intro hfaithful found real hfound
  rw [stagedBundled_below h] at hfound
  obtain ⟨⟨_, inside⟩, hinside, hpair⟩ := map_eq_ok.1 hfound
  obtain ⟨rfl, rfl⟩ := Prod.mk.inj hpair
  rw [stagedBundled, bind_eq_ok] at hinside
  obtain ⟨current, hrelative, hfollow⟩ := hinside
  obtain ⟨rfl, -⟩ := relative_eq_ok hrelative
  obtain ⟨⟨contents, hfile⟩, hresolve⟩ := followLinks_posix hfaithful hfollow
  have hne : (PosixPath.parse current).parts ≠ [] := by
    intro hnil
    rw [hnil, resolveFrom_nil, Option.some.injEq] at hresolve
    rw [← hresolve, (host.below root h).root] at hfile
    exact nomatch hfile
  refine ⟨inside, contents, rfl, hfile, ?_⟩
  intro limit hlimit
  rw [resolve_installed hrelative hne]
  exact resolveFrom_mono hresolve hlimit

/-- `/lib/a.so` leads through `..` to `/data/a.so`. -/
def plainTree : FileTree Nat :=
  ofEntries [(["lib"], .directory), (["lib", "a.so"], .link "../data/a.so"), (["data"], .directory),
    (["data", "a.so"], .file 1)] (by decide +kernel)

theorem stagedBundled_posix_plain :
    plainTree.resolve maxFollowed "/lib/a.so" = some ["data", "a.so"] := by
  have hclimbs : plainTree.Climbs (["lib"] ++ ".." :: ["data", "a.so"]) :=
    climbs_once (by decide) (by decide) (by decide +kernel)
  have hfile : plainTree.node ["data", "a.so"] = some (.file 1) := by decide +kernel
  have hlink : plainTree.node (["lib"] ++ ["a.so"]) = some (.link "../data/a.so") := by decide +kernel
  have hfaithful : Faithful plainTree maxFollowed (["lib"] ++ "a.so" :: []) :=
    faithful_link hlink hclimbs (by decide +kernel) (faithful_file hfile 15)
  obtain ⟨inside, contents, hinside, -, hresolve⟩ :=
    (stagedBundled_posix plainTree [] plainTree.root "/lib/a.so").2 hfaithful "/data/a.so" ["data", "a.so"]
      (by decide +kernel)
  rw [List.nil_append] at hinside
  exact hinside ▸ hresolve maxFollowed le_rfl

/-- `/lib/a.so` climbs out of `/lib/real`, which is a link into another directory. -/
def climbingTree : FileTree Nat :=
  ofEntries [(["lib"], .directory), (["lib", "a.so"], .link "real/../b.so"), (["lib", "real"], .link "/opt/app/lib"),
    (["lib", "b.so"], .file 1), (["opt"], .directory), (["opt", "app"], .directory), (["opt", "app", "lib"], .directory),
    (["opt", "app", "b.so"], .file 2)] (by decide +kernel)

/-- The resolver finds another file than the installed system. -/
theorem climb_unfaithful :
    ¬ ∀ (host : FileTree Nat) (root : List String) (h : host.node root = some .directory) (installed found : String)
      (real : List String), stagedBundled host root installed = .ok (found, real) → ∃ inside, real = root ++ inside ∧
        ∀ limit, maxFollowed ≤ limit → (host.below root h).resolve limit installed = some inside := by
  intro hall
  obtain ⟨inside, hinside, hresolve⟩ := hall climbingTree [] climbingTree.root "/lib/a.so" "/lib/b.so" ["lib", "b.so"]
    (by decide +kernel)
  have hopens : (climbingTree.below [] climbingTree.root).resolve 16 "/lib/a.so" = some ["opt", "app", "b.so"] := by
    decide +kernel
  rw [hresolve 16 (by decide)] at hopens
  rw [List.nil_append] at hinside
  subst hinside
  exact nomatch hopens

end DebBuilder.Elf
