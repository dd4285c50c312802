import Mathlib
import DebBuilder.Lib.Path

/-!
# Trees of files and links

A tree of directories, files and symbolic links, and the resolution of paths in it as POSIX
defines it: a link is followed where it stands, and `..` climbs out of the directory that
has been reached.  Applying `..` to the text of a path says the same when it climbs out of
directories only.

## Main definitions

* `FileTree` — a tree; its entries have names and stand in directories.
* `FileTree.resolve` — the resolution of a path, with a bound on the links.
* `FileTree.lstat` — what is under a path whose last name is not followed.
* `FileTree.ofEntries` — the tree of a list of entries.
* `collapse`, `FileTree.Climbs` — `..` in the text of a path, and when it is harmless.

## Main statements

* `FileTree.walk_collapse` — the resolution of a path whose text has been collapsed.
* `FileTree.resolveFrom_squeeze` — empty names and `.` before another name change nothing.
* `FileTree.lstat_eq` — below directories, `lstat` reads the tree itself.
-/

namespace Lib

inductive TreeNode (α : Type)
  | directory
  | file (contents : α)
  | link (target : String)
  deriving DecidableEq, Repr

/-- A name that a directory entry can have. -/
def IsName (name : String) : Prop := name ≠ "" ∧ name ≠ "." ∧ name ≠ ".." ∧ '/' ∉ name.toList

instance (name : String) : Decidable (IsName name) := inferInstanceAs (Decidable (_ ∧ _))

/-- What stands under each path from the root. -/
structure FileTree (α : Type) where
  node : List String → Option (TreeNode α)
  root : node [] = some .directory
  /-- An entry stands in a directory. -/
  parent : ∀ path name, (node (path ++ [name])).isSome → node path = some .directory
  named : ∀ path name, (node (path ++ [name])).isSome → IsName name
  /-- No link has an empty target. -/
  pointed : ∀ path, node path ≠ some (.link "")

def isAbsolute (path : String) : Bool := path.toList.head? = some '/'

/-- `..` applied to the text of an absolute path. -/
def collapse (parts : List String) : List String := parts.foldl PosixPath.climb []

namespace FileTree
open PosixPath

variable {α : Type} (tree : FileTree α)

/-! ## Resolution -/

def isDirectory (path : List String) : Bool :=
  match tree.node path with
  | some .directory => true
  | _ => false

/-- The walk from a location along the components of a path, up to the first link. -/
def walk (follow : List String → List String → Option (List String)) : List String → List String → Option (List String)
  | location, [] => some location
  | location, part :: rest =>
      if !tree.isDirectory location then none
      else if IsNoise part then walk follow location rest
      else if part = ".." then walk follow location.dropLast rest
      else match tree.node (location ++ [part]) with
        | none => none
        | some (.link target) => follow (if isAbsolute target then [] else location) (components target ++ rest)
        | some _ => walk follow (location ++ [part]) rest

/-- The resolution from a location, with a bound on the links that are followed. -/
def resolveFrom : Nat → List String → List String → Option (List String)
  | 0 => tree.walk fun _ _ => none
  | limit + 1 => tree.walk (resolveFrom limit)

/-- What a path leads to from the root of the tree. -/
def resolve (limit : Nat) (path : String) : Option (List String) :=
  if path = "" then none else tree.resolveFrom limit [] (components path)

/-- What is under a path whose parents are resolved and whose last name is not. -/
def lstat (limit : Nat) (path : List String) : Option (TreeNode α) :=
  match path.getLast? with
  | none => tree.node []
  | some name => (tree.resolveFrom limit [] path.dropLast).bind fun directory => tree.node (directory ++ [name])

/-- The tree below a directory. -/
def below (path : List String) (h : tree.node path = some .directory) : FileTree α where
  node inside := tree.node (path ++ inside)
  root := by rw [List.append_nil, h]
  parent inside name hsome := tree.parent (path ++ inside) name (by rwa [List.append_assoc])
  named inside name hsome := tree.named (path ++ inside) name (by rwa [List.append_assoc])
  pointed inside := tree.pointed (path ++ inside)

variable {tree} {follow follow' : List String → List String → Option (List String)}
  {location path before rest parts dirs : List String} {part name : String} {limit : Nat}

@[simp] theorem node_below {h : tree.node path = some .directory} {inside : List String} :
    (tree.below path h).node inside = tree.node (path ++ inside) := rfl

/-! ## Directories -/

@[simp] theorem isDirectory_iff : tree.isDirectory path = true ↔ tree.node path = some .directory := by
  unfold isDirectory
  split
  · next h => simp [h]
  · next h => simpa using h

theorem directory_of_append (h : tree.node (path ++ dirs) = some .directory) : tree.node path = some .directory := by
  induction dirs using List.reverseRecOn with
  | nil => rwa [List.append_nil] at h
  | append_singleton dirs name ih =>
      apply ih
      rw [← List.append_assoc] at h
      exact tree.parent (path ++ dirs) name (by rw [h]; rfl)

theorem directory_of_isSome (h : (tree.node (path ++ part :: rest)).isSome) : tree.node path = some .directory := by
  have hparent : tree.node (path ++ (part :: rest).dropLast) = some .directory := by
    apply tree.parent _ ((part :: rest).getLast (List.cons_ne_nil _ _))
    rwa [List.append_assoc, List.dropLast_append_getLast]
  exact directory_of_append hparent

theorem isName_of_isSome (h : (tree.node (before ++ part :: rest)).isSome) : IsName part := by
  rw [List.append_cons] at h
  cases rest with
  | nil =>
      rw [List.append_nil] at h
      exact tree.named before part h
  | cons next rest => exact tree.named before part (by rw [directory_of_isSome h]; rfl)

theorem directory_dropLast (h : tree.node path = some .directory) : tree.node path.dropLast = some .directory := by
  rcases List.eq_nil_or_concat path with rfl | ⟨path, name, rfl⟩
  · exact h
  · rw [List.concat_eq_append, List.dropLast_concat]
    exact tree.parent path name (by rw [← List.concat_eq_append, h]; rfl)

/-! ## Walks -/

theorem walk_name (h : tree.node location = some .directory) (hname : IsName part) :
    tree.walk follow location (part :: rest) =
      match tree.node (location ++ [part]) with
      | none => none
      | some (.link target) => follow (if isAbsolute target then [] else location) (components target ++ rest)
      | some _ => tree.walk follow (location ++ [part]) rest := by
  obtain ⟨hempty, hdot, hdots, -⟩ := hname
  have hnoise : ¬ IsNoise part := fun hnoise => hnoise.elim hempty hdot
  rw [walk, isDirectory_iff.2 h]
  simp only [Bool.not_true, Bool.false_eq_true, if_false, hnoise, hdots]

theorem walk_climb (h : tree.node location = some .directory) :
    tree.walk follow location (".." :: rest) = tree.walk follow location.dropLast rest := by
  have hnoise : ¬ IsNoise ".." := by decide
  rw [walk, isDirectory_iff.2 h]
  simp [hnoise]

theorem walk_noise (h : tree.node location = some .directory) (hnoise : IsNoise part) :
    tree.walk follow location (part :: rest) = tree.walk follow location rest := by
  rw [walk, isDirectory_iff.2 h]
  simp [hnoise]

theorem walk_of_not_directory (h : tree.node location ≠ some .directory) :
    tree.walk follow location (part :: rest) = none := by
  have hfalse : tree.isDirectory location = false := Bool.eq_false_iff.2 fun hdir => h (isDirectory_iff.1 hdir)
  rw [walk, hfalse]
  rfl

/-- Directories are walked through. -/
theorem walk_directories (h : tree.node (location ++ dirs) = some .directory) :
    tree.walk follow location (dirs ++ rest) = tree.walk follow (location ++ dirs) rest := by
  induction dirs generalizing location with
  | nil => simp
  | cons name dirs ih =>
      have hhere : tree.node location = some .directory := directory_of_append h
      rw [List.append_cons] at h
      have hnext : tree.node (location ++ [name]) = some .directory := directory_of_append h
      have hname : IsName name := tree.named location name (by rw [hnext]; rfl)
      rw [List.cons_append, walk_name hhere hname, hnext, ih h, List.append_assoc, List.singleton_append]

theorem resolveFrom_directories (h : tree.node (location ++ dirs) = some .directory) :
    tree.resolveFrom limit location (dirs ++ rest) = tree.resolveFrom limit (location ++ dirs) rest := by
  cases limit with
  | zero => exact walk_directories h
  | succ limit => exact walk_directories h

/-! ## Empty names -/

/-- Paths that differ in empty names and `.` before another name. -/
inductive Squeezes : List String → List String → Prop
  | nil : Squeezes [] []
  | cons (part : String) {parts parts' : List String} : Squeezes parts parts' → Squeezes (part :: parts) (part :: parts')
  | noise {part : String} {parts parts' : List String} : IsNoise part → parts' ≠ [] → Squeezes parts parts' →
      Squeezes (part :: parts) parts'

theorem Squeezes.refl : ∀ parts, Squeezes parts parts
  | [] => .nil
  | part :: parts => .cons part (Squeezes.refl parts)

theorem Squeezes.append {parts parts' : List String} (h : Squeezes parts parts') (before : List String) :
    Squeezes (before ++ parts) (before ++ parts') := by
  induction before with
  | nil => exact h
  | cons part before ih => exact .cons part ih

/-- The noise of a path is dropped, unless it ends the path. -/
theorem squeezes_filter (h : rest ≠ [] ∨ ∀ part ∈ parts.getLast?, ¬ IsNoise part) :
    Squeezes (parts ++ rest) (parts.filter (fun part => ¬ IsNoise part) ++ rest) := by
  induction parts with
  | nil => exact Squeezes.refl rest
  | cons part parts ih =>
      have hparts : rest ≠ [] ∨ ∀ part ∈ parts.getLast?, ¬ IsNoise part := by
        refine h.imp_right fun hlast last hmem => hlast last ?_
        rw [Option.mem_def] at hmem ⊢
        rw [List.getLast?_cons, hmem]
        rfl
      by_cases hnoise : IsNoise part
      · rw [List.filter_cons_of_neg (by simpa using hnoise)]
        apply Squeezes.noise hnoise _ (ih hparts)
        intro hnil
        rw [List.append_eq_nil_iff, List.filter_eq_nil_iff] at hnil
        rcases h with h | h
        · exact h hnil.2
        · cases hlast : parts.getLast? with
          | none => exact h part (by rw [List.getLast?_cons, hlast]; rfl) hnoise
          | some last =>
              have hmem := List.mem_of_getLast? hlast
              apply hnil.1 last hmem
              simpa using h last (by rw [List.getLast?_cons, hlast]; rfl)
      · rw [List.filter_cons_of_pos (by simpa using hnoise)]
        exact .cons part (ih hparts)

theorem walk_squeeze {parts' : List String}
    (hfollow : ∀ location {p p' : List String}, Squeezes p p' → follow location p = follow' location p')
    (h : Squeezes parts parts') : tree.walk follow location parts = tree.walk follow' location parts' := by
  induction h generalizing location with
  | nil => rfl
  | cons part hrest ih =>
      simp only [walk, ih]
      have hlink : ∀ target, follow (if isAbsolute target then [] else location) (components target ++ _) =
          follow' (if isAbsolute target then [] else location) (components target ++ _) :=
        fun target => hfollow _ (hrest.append (components target))
      simp only [hlink]
  | @noise part parts parts' hnoise hne hrest ih =>
      by_cases hdir : tree.node location = some .directory
      · rw [walk_noise hdir hnoise, ih]
      · obtain ⟨next, parts', rfl⟩ := List.exists_cons_of_ne_nil hne
        rw [walk_of_not_directory hdir, walk_of_not_directory hdir]

/-- Empty names and `.` before another name change nothing. -/
theorem resolveFrom_squeeze {parts' : List String} (h : Squeezes parts parts') :
    tree.resolveFrom limit location parts = tree.resolveFrom limit location parts' := by
  induction limit generalizing location parts parts' with
  | zero => exact walk_squeeze (fun _ _ _ _ => rfl) h
  | succ limit ih => exact walk_squeeze (fun _ _ _ hp => ih hp) h

/-! ## Climbing in the text of a path -/

variable (tree) in
/-- Every `..` climbs out of a directory. -/
def Climbs (parts : List String) : Prop :=
  ∀ before after, parts = before ++ ".." :: after → tree.node (collapse before) = some .directory

@[simp] theorem collapse_append_singleton : collapse (parts ++ [part]) = PosixPath.climb (collapse parts) part := by
  simp [collapse]

theorem collapse_append_of_notMem (h : ".." ∉ rest) : collapse (parts ++ rest) = collapse parts ++ rest := by
  induction rest using List.reverseRecOn with
  | nil => simp
  | append_singleton rest part ih =>
      rw [List.mem_append, not_or, List.mem_singleton] at h
      rw [← List.append_assoc, collapse_append_singleton, ih h.1, PosixPath.climb, if_neg (Ne.symm h.2),
        List.append_assoc]

theorem Climbs.left (h : tree.Climbs (parts ++ rest)) : tree.Climbs parts := by
  intro before after heq
  apply h before (after ++ rest)
  rw [heq, List.append_assoc, List.cons_append]

/-- A path with one `..`. -/
theorem climbs_once (hbefore : ".." ∉ before) (hrest : ".." ∉ rest) (h : tree.node before = some .directory) :
    tree.Climbs (before ++ ".." :: rest) := by
  intro above after heq
  have hsame : above = before := by
    rcases List.append_eq_append_iff.1 heq with ⟨more, rfl, hmore⟩ | ⟨more, rfl, hmore⟩
    · cases more with
      | nil => simp
      | cons next more =>
          rw [(List.cons.inj hmore).2] at hrest
          simp at hrest
    · cases more with
      | nil => simp
      | cons next more =>
          rw [← (List.cons.inj hmore).1] at hbefore
          simp at hbefore
  have hcollapse : collapse ([] ++ before) = collapse [] ++ before := collapse_append_of_notMem hbefore
  rw [hsame]
  rw [List.nil_append] at hcollapse
  exact hcollapse ▸ h

theorem walk_climbs (h : tree.Climbs parts) (hparts : ∀ part ∈ parts, ¬ IsNoise part)
    (hdirectory : tree.node (collapse parts) = some .directory) :
    tree.walk follow [] (parts ++ rest) = tree.walk follow (collapse parts) rest := by
  induction parts using List.reverseRecOn generalizing rest with
  | nil => rfl
  | append_singleton parts part ih =>
      have hbefore : ∀ part ∈ parts, ¬ IsNoise part := fun p hp => hparts p (List.mem_append_left _ hp)
      rw [collapse_append_singleton] at hdirectory ⊢
      rw [List.append_assoc, List.singleton_append]
      by_cases hup : part = ".."
      · subst hup
        have hhere : tree.node (collapse parts) = some .directory := h parts [] rfl
        rw [ih h.left hbefore hhere, walk_climb hhere, PosixPath.climb, if_pos rfl]
      · rw [PosixPath.climb, if_neg hup] at hdirectory ⊢
        have hhere : tree.node (collapse parts) = some .directory := directory_of_append hdirectory
        rw [ih h.left hbefore hhere, ← List.singleton_append, walk_directories hdirectory]

/-- The part of a path after its last `..`. -/
theorem exists_last_climb (parts : List String) : ∃ before after, parts = before ++ after ∧ ".." ∉ after ∧
    (before = [] ∨ ∃ above, before = above ++ [".."]) := by
  induction parts using List.reverseRecOn with
  | nil => exact ⟨[], [], rfl, List.not_mem_nil, .inl rfl⟩
  | append_singleton parts part ih =>
      by_cases hup : part = ".."
      · exact ⟨parts ++ [part], [], by simp, List.not_mem_nil, .inr ⟨parts, by rw [hup]⟩⟩
      · obtain ⟨before, after, rfl, hafter, hbefore⟩ := ih
        refine ⟨before, after ++ [part], by simp, ?_, hbefore⟩
        rw [List.mem_append, not_or, List.mem_singleton]
        exact ⟨hafter, Ne.symm hup⟩

/-- Where every `..` climbs out of a directory, the text may be collapsed first. -/
theorem walk_collapse (h : tree.Climbs parts) (hparts : ∀ part ∈ parts, ¬ IsNoise part) :
    tree.walk follow [] parts = tree.walk follow [] (collapse parts) := by
  obtain ⟨before, after, rfl, hafter, hbefore⟩ := exists_last_climb parts
  have hdirectory : tree.node (collapse before) = some .directory := by
    rcases hbefore with rfl | ⟨above, rfl⟩
    · exact tree.root
    · rw [collapse_append_singleton, PosixPath.climb, if_pos rfl]
      exact directory_dropLast (h above after (by simp))
  have hnames : ∀ part ∈ before, ¬ IsNoise part := fun p hp => hparts p (List.mem_append_left _ hp)
  rw [walk_climbs h.left hnames hdirectory, collapse_append_of_notMem hafter]
  have hdirectories : tree.walk follow [] (collapse before ++ after) = tree.walk follow ([] ++ collapse before) after :=
    walk_directories hdirectory
  exact hdirectories.symm

theorem resolveFrom_collapse (h : tree.Climbs parts) (hparts : ∀ part ∈ parts, ¬ IsNoise part) :
    tree.resolveFrom limit [] parts = tree.resolveFrom limit [] (collapse parts) := by
  cases limit with
  | zero => exact walk_collapse h hparts
  | succ limit => exact walk_collapse h hparts

/-! ## What is under a path -/

/-- Below directories nothing is resolved. -/
theorem lstat_eq (h : tree.node path = some .directory) : tree.lstat limit (path ++ [name]) = tree.node (path ++ [name]) := by
  have hresolve : tree.resolveFrom limit [] path = some path := by
    have hwalk : tree.resolveFrom limit [] (path ++ []) = tree.resolveFrom limit ([] ++ path) [] :=
      resolveFrom_directories (by rwa [List.nil_append])
    rw [List.append_nil, List.nil_append] at hwalk
    rw [hwalk]
    cases limit <;> rfl
  simp only [lstat, List.getLast?_concat, List.dropLast_concat, hresolve, Option.bind_some]

theorem lstat_directory (h : tree.node path = some .directory) : tree.lstat limit path = some .directory := by
  rcases List.eq_nil_or_concat path with rfl | ⟨path, name, rfl⟩
  · exact tree.root
  · rw [List.concat_eq_append] at h ⊢
    rw [lstat_eq (tree.parent path name (by rw [h]; rfl)), h]

/-! ## Files and links at the end of directories -/

theorem resolveFrom_nil : tree.resolveFrom limit location [] = some location := by
  cases limit <;> rfl

/-- The path of a file leads to it. -/
theorem resolveFrom_file {contents : α} (h : tree.node path = some (.file contents)) :
    tree.resolveFrom limit [] path = some path := by
  rcases List.eq_nil_or_concat path with rfl | ⟨path, name, rfl⟩
  · exact resolveFrom_nil
  · rw [List.concat_eq_append] at h ⊢
    have hsome : (tree.node (path ++ [name])).isSome := by rw [h]; rfl
    have hdirectory := tree.parent path name hsome
    have hpath : tree.resolveFrom limit [] (path ++ [name]) = tree.resolveFrom limit ([] ++ path) [name] :=
      resolveFrom_directories hdirectory
    rw [hpath, List.nil_append]
    cases limit with
    | zero =>
        rw [resolveFrom, walk_name hdirectory (tree.named path name hsome), h]
        rfl
    | succ limit =>
        rw [resolveFrom, walk_name hdirectory (tree.named path name hsome), h]
        rfl

/-- A link is followed where it stands. -/
theorem resolveFrom_link {target : String} (h : tree.node (path ++ [part]) = some (.link target)) :
    tree.resolveFrom (limit + 1) [] (path ++ part :: rest) =
      tree.resolveFrom limit (if isAbsolute target then [] else path) (components target ++ rest) := by
  have hsome : (tree.node (path ++ [part])).isSome := by rw [h]; rfl
  have hdirectory := tree.parent path part hsome
  have hpath : tree.resolveFrom (limit + 1) [] (path ++ part :: rest) =
      tree.resolveFrom (limit + 1) ([] ++ path) (part :: rest) := resolveFrom_directories hdirectory
  rw [hpath, List.nil_append, resolveFrom, walk_name hdirectory (tree.named path part hsome), h]

theorem walk_mono
    (hfollow : ∀ location p target, follow location p = some target → follow' location p = some target)
    (h : tree.walk follow location parts = some path) : tree.walk follow' location parts = some path := by
  induction parts generalizing location with
  | nil => exact h
  | cons part rest ih =>
      by_cases hdir : tree.isDirectory location = true
      · rw [walk, hdir] at h ⊢
        simp only [Bool.not_true, Bool.false_eq_true, if_false] at h ⊢
        by_cases hnoise : IsNoise part
        · rw [if_pos hnoise] at h ⊢
          exact ih h
        · rw [if_neg hnoise] at h ⊢
          by_cases hup : part = ".."
          · rw [if_pos hup] at h ⊢
            exact ih h
          · rw [if_neg hup] at h ⊢
            cases hnode : tree.node (location ++ [part]) with
            | none => simp only [hnode, reduceCtorEq] at h
            | some node =>
                cases node with
                | link target =>
                    simp only [hnode] at h ⊢
                    exact hfollow _ _ _ h
                | directory =>
                    simp only [hnode] at h ⊢
                    exact ih h
                | file contents =>
                    simp only [hnode] at h ⊢
                    exact ih h
      · rw [isDirectory_iff] at hdir
        rw [walk_of_not_directory hdir] at h
        exact nomatch h

theorem resolveFrom_succ (h : tree.resolveFrom limit location parts = some path) :
    tree.resolveFrom (limit + 1) location parts = some path := by
  induction limit generalizing location parts path with
  | zero =>
      apply walk_mono _ h
      intro location p target hnone
      exact nomatch hnone
  | succ limit ih => exact walk_mono (fun _ _ _ hp => ih hp) h

/-- More links may be followed. -/
theorem resolveFrom_mono {limit' : Nat} (h : tree.resolveFrom limit location parts = some path) (hle : limit ≤ limit') :
    tree.resolveFrom limit' location parts = some path := by
  induction hle with
  | refl => exact h
  | step _ ih => exact resolveFrom_succ ih

/-! ## Trees from their entries -/

/-- What a list of entries has under a path. -/
def entryAt (entries : List (List String × TreeNode α)) (path : List String) : Option (TreeNode α) :=
  if path = [] then some .directory else (entries.find? fun e => e.1 = path).map Prod.snd

/-- An entry has a name and stands in a directory. -/
def Placed (entries : List (List String × TreeNode α)) (e : List String × TreeNode α) : Prop :=
  IsName (e.1.getLastD "") ∧
    (match entryAt entries e.1.dropLast with
      | some .directory => True
      | _ => False) ∧
    match e.2 with
    | .link target => target ≠ ""
    | _ => True

instance (entries : List (List String × TreeNode α)) (e : List String × TreeNode α) : Decidable (Placed entries e) := by
  unfold Placed
  exact @instDecidableAnd _ _ _ (@instDecidableAnd _ _ (by split <;> infer_instance) (by split <;> infer_instance))

theorem exists_of_entryAt {entries : List (List String × TreeNode α)} {node : TreeNode α} (hne : path ≠ [])
    (h : entryAt entries path = some node) : (path, node) ∈ entries := by
  rw [entryAt, if_neg hne, Option.map_eq_some_iff] at h
  obtain ⟨e, hfind, rfl⟩ := h
  have hpath : e.1 = path := by simpa using List.find?_some hfind
  exact hpath ▸ List.mem_of_find?_eq_some hfind

/-- The tree that has the entries. -/
def ofEntries (entries : List (List String × TreeNode α)) (h : ∀ e ∈ entries, Placed entries e) : FileTree α where
  node := entryAt entries
  root := rfl
  parent path name hsome := by
    obtain ⟨node, hnode⟩ := Option.isSome_iff_exists.1 hsome
    have hplaced := (h _ (exists_of_entryAt (by simp) hnode)).2.1
    rw [List.dropLast_concat] at hplaced
    split at hplaced
    · next hdir => exact hdir
    · exact hplaced.elim
  named path name hsome := by
    obtain ⟨node, hnode⟩ := Option.isSome_iff_exists.1 hsome
    have hname := (h _ (exists_of_entryAt (by simp) hnode)).1
    rwa [List.getLastD_concat] at hname
  pointed path hlink := by
    rcases eq_or_ne path [] with rfl | hne
    · exact nomatch hlink
    · exact (h _ (exists_of_entryAt hne hlink)).2.2 rfl

end FileTree
end Lib
