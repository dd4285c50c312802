import Mathlib

/-!
# Pure POSIX paths

The paths of the source language's `PurePosixPath`: a root and the parts below it, without
empty parts and without `.`.

## Main definitions

* `PosixPath.parse` — the path of a text.
* `PosixPath.absolute`, `PosixPath.normal` — below the working directory, and without `..`.
* `PosixPath.name`, `PosixPath.suffix`, `PosixPath.parent` — the parts of a path.
* `PosixPath.components` — what stands between the slashes of a text.

## Main statements

* `PosixPath.parse_asPosix` — a path is read back from its text.
-/

namespace Lib

structure PosixPath where
  /-- Empty, one slash or two. -/
  root : String
  parts : List String
  deriving DecidableEq, Repr

namespace PosixPath

/-- What stands between the slashes of a text, empty names included. -/
def components (text : String) : List String := (text.toList.splitOn '/').map String.ofList

/-- The parts of a text between its slashes. -/
def partsOf (cs : List Char) : List String :=
  ((cs.splitOn '/').filter fun part => part ≠ [] ∧ part ≠ ['.']).map String.ofList

/-- `PurePosixPath(text)` -/
def parse (text : String) : PosixPath :=
  match text.toList with
  | '/' :: '/' :: '/' :: cs => ⟨"/", partsOf cs⟩
  | '/' :: '/' :: cs => ⟨"//", partsOf cs⟩
  | '/' :: cs => ⟨"/", partsOf cs⟩
  | cs => ⟨"", partsOf cs⟩

def isAbsolute (path : PosixPath) : Bool := path.root ≠ ""

/-- `base / path` -/
def join (base path : PosixPath) : PosixPath :=
  if path.isAbsolute then path else ⟨base.root, base.parts ++ path.parts⟩

/-- `path.absolute()` in a working directory. -/
def absolute (cwd path : PosixPath) : PosixPath := cwd.join path

/-- One step of `os.path.normpath` of an absolute path. -/
def climb (above : List String) (part : String) : List String :=
  if part = ".." then above.dropLast else above ++ [part]

/-- `os.path.abspath(path)` in a working directory. -/
def normal (cwd path : PosixPath) : PosixPath :=
  let path := absolute cwd path
  ⟨path.root, path.parts.foldl climb []⟩

def name (path : PosixPath) : String := path.parts.getLastD ""

def parent (path : PosixPath) : PosixPath := ⟨path.root, path.parts.dropLast⟩

/-- `path.suffix`: a dot that ends or begins the name begins no suffix. -/
def suffix (path : PosixPath) : String :=
  let cs := path.name.toList.reverse
  let extension := cs.takeWhile (· ≠ '.')
  if extension = [] ∨ cs.length ≤ extension.length + 1 then "" else String.ofList ('.' :: extension.reverse)

/-- `path.as_posix()` -/
def asPosix (path : PosixPath) : String :=
  if path.root = "" ∧ path.parts = [] then "." else path.root ++ "/".intercalate path.parts

example : (normal ⟨"/", ["srv"]⟩ (parse "a/./../b//demo.deb")).asPosix = "/srv/b/demo.deb" := by decide +kernel

/-! ## Texts and parts -/

variable {part text : String} {parts : List String} {cs : List Char}

/-- The names that a path drops. -/
def IsNoise (part : String) : Prop := part = "" ∨ part = "."

instance (part : String) : Decidable (IsNoise part) := inferInstanceAs (Decidable (_ ∨ _))

theorem partsOf_eq (cs : List Char) :
    partsOf cs = ((cs.splitOn '/').map String.ofList).filter fun part => ¬ IsNoise part := by
  rw [partsOf, List.filter_map]
  congr 1
  apply List.filter_congr
  intro name _
  have hempty : String.ofList name = "" ↔ name = [] := String.ofList_eq_empty_iff
  have hdot : String.ofList name = "." ↔ name = ['.'] := String.ofList_inj
  simp [IsNoise, hempty, hdot]

theorem components_cons_slash (cs : List Char) :
    components (String.ofList ('/' :: cs)) = "" :: components (String.ofList cs) := by
  simp [components, List.splitOn_cons_eq_if_modifyHead]

/-- The parts of a path are the names that it does not drop. -/
theorem parts_parse (text : String) : (parse text).parts = (components text).filter fun part => ¬ IsNoise part := by
  obtain ⟨cs, rfl⟩ : ∃ cs, text = String.ofList cs := ⟨text.toList, by simp⟩
  have hdrop (cs : List Char) : (components (String.ofList ('/' :: cs))).filter (fun part => ¬ IsNoise part) =
      (components (String.ofList cs)).filter fun part => ¬ IsNoise part := by
    rw [components_cons_slash, List.filter_cons_of_neg (by simp [IsNoise])]
  have hparts (cs : List Char) : partsOf cs = (components (String.ofList cs)).filter fun part => ¬ IsNoise part := by
    rw [partsOf_eq, components, String.toList_ofList]
  unfold parse
  rw [String.toList_ofList]
  split
  · rw [hdrop, hdrop, hdrop]
    exact hparts _
  · rw [hdrop, hdrop]
    exact hparts _
  · rw [hdrop]
    exact hparts _
  · exact hparts _

theorem root_parse (h : text.toList.head? = some '/') : (parse text).root = "/" ∨ (parse text).root = "//" := by
  unfold parse
  split
  · exact .inl rfl
  · exact .inr rfl
  · exact .inl rfl
  · next hnone =>
    cases htext : text.toList with
    | nil => simp [htext] at h
    | cons c cs =>
        rw [htext, List.head?_cons, Option.some.injEq] at h
        exact absurd (h ▸ htext) (hnone cs)

theorem not_isNoise_of_mem_parse (h : part ∈ (parse text).parts) : ¬ IsNoise part := by
  rw [parts_parse, List.mem_filter] at h
  exact of_decide_eq_true h.2

theorem notMem_of_mem_splitOn {c : Char} {name : List Char} (h : name ∈ cs.splitOn c) : c ∉ name := by
  induction cs generalizing name with
  | nil =>
      rw [List.splitOn_nil, List.mem_singleton] at h
      simp [h]
  | cons head cs ih =>
      rw [List.splitOn_cons_eq_if_modifyHead] at h
      split at h
      · rcases List.mem_cons.1 h with rfl | h
        · exact List.not_mem_nil
        · exact ih h
      · next hne =>
        obtain ⟨first, rest, hsplit⟩ := List.exists_cons_of_ne_nil (List.splitOn_ne_nil c cs)
        rw [hsplit, List.modifyHead_cons] at h
        rcases List.mem_cons.1 h with rfl | h
        · rw [List.mem_cons, not_or]
          exact ⟨fun heq => hne (by simp [heq]), ih (hsplit ▸ List.mem_cons_self)⟩
        · exact ih (hsplit ▸ List.mem_cons_of_mem _ h)

theorem slash_notMem_of_mem_components (h : part ∈ components text) : '/' ∉ part.toList := by
  simp only [components, List.mem_map] at h
  obtain ⟨name, hname, rfl⟩ := h
  rw [String.toList_ofList]
  exact notMem_of_mem_splitOn hname

theorem components_intercalate (hne : parts ≠ []) (hslash : ∀ part ∈ parts, '/' ∉ part.toList) :
    components ("/".intercalate parts) = parts := by
  have hsplit : (['/'].intercalate (parts.map String.toList)).splitOn '/' = parts.map String.toList := by
    apply List.splitOn_intercalate '/'
    · intro name hname
      obtain ⟨part, hpart, rfl⟩ := List.mem_map.1 hname
      exact hslash part hpart
    · simpa using hne
  rw [components, String.toList_intercalate]
  have hslashes : "/".toList = ['/'] := rfl
  rw [hslashes, hsplit, List.map_map]
  simp [Function.comp_def]
/-- The absolute paths: one slash or two, and names that are no noise. -/
structure Absolute (path : PosixPath) : Prop where
  root : path.root = "/" ∨ path.root = "//"
  names : ∀ part ∈ path.parts, ¬ IsNoise part ∧ '/' ∉ part.toList

variable {path : PosixPath}

theorem Absolute.asPosix_eq (h : path.Absolute) : path.asPosix = path.root ++ "/".intercalate path.parts := by
  have hroot : path.root ≠ "" := by
    rcases h.root with hroot | hroot <;> simp [hroot]
  rw [asPosix, if_neg fun hempty => hroot hempty.1]

/-- Only the empty names of the root stand before the parts. -/
theorem Absolute.components_asPosix (h : path.Absolute) (hne : path.parts ≠ []) :
    components path.asPosix = path.root.toList.map (fun _ => "") ++ path.parts := by
  have hparts := components_intercalate hne fun part hpart => (h.names part hpart).2
  obtain ⟨cs, hcs⟩ : ∃ cs, "/".intercalate path.parts = String.ofList cs := ⟨_, (String.ofList_toList).symm⟩
  rw [hcs] at hparts
  rw [h.asPosix_eq, hcs]
  rcases h.root with hroot | hroot
  · have htext : "/" ++ String.ofList cs = String.ofList ('/' :: cs) := by
      rw [← String.toList_inj]
      simp
    rw [hroot, htext, components_cons_slash, hparts]
    rfl
  · have htext : "//" ++ String.ofList cs = String.ofList ('/' :: '/' :: cs) := by
      rw [← String.toList_inj]
      simp
    rw [hroot, htext, components_cons_slash, components_cons_slash, hparts]
    rfl

theorem Absolute.partsOf_intercalate (h : path.Absolute) : partsOf ("/".intercalate path.parts).toList = path.parts := by
  by_cases hnil : path.parts = []
  · rw [hnil]
    rfl
  · have hparts := components_intercalate hnil fun part hpart => (h.names part hpart).2
    rw [components] at hparts
    rw [partsOf_eq, hparts, List.filter_eq_self]
    intro part hpart
    simpa using (h.names part hpart).1

theorem Absolute.head_intercalate (h : path.Absolute) : ("/".intercalate path.parts).toList.head? ≠ some '/' := by
  cases hparts : path.parts with
  | nil => simp
  | cons part rest =>
      have hnames := h.names part (hparts ▸ List.mem_cons_self)
      cases hpart : part.toList with
      | nil => exact absurd (.inl (String.toList_eq_nil_iff.1 hpart)) hnames.1
      | cons c cs =>
          have hc : c ≠ '/' := fun heq => hnames.2 (by rw [hpart, heq]; exact List.mem_cons_self)
          cases rest with
          | nil => simpa [hpart] using hc
          | cons next rest => simpa [hpart, List.intercalate_cons_cons] using hc

/-- A path is read back from its text. -/
theorem parse_asPosix (h : path.Absolute) : parse path.asPosix = path := by
  have hparts := h.partsOf_intercalate
  have hhead := h.head_intercalate
  rw [h.asPosix_eq, parse, String.toList_append]
  generalize ("/".intercalate path.parts).toList = cs at hparts hhead
  obtain ⟨root, parts⟩ := path
  have hstart : ∀ rest, cs ≠ '/' :: rest := by
    rintro rest rfl
    exact hhead rfl
  have hroot : root = "/" ∨ root = "//" := h.root
  rcases hroot with rfl | rfl
  · have hslash : "/".toList = ['/'] := rfl
    rw [hslash, List.singleton_append]
    split
    · next heq => exact absurd (List.cons.inj heq).2 (hstart _)
    · next heq => exact absurd (List.cons.inj heq).2 (hstart _)
    · next heq =>
      rw [← (List.cons.inj heq).2, hparts]
    · next hnone => exact absurd rfl (hnone cs)
  · have hslash : "//".toList = ['/', '/'] := rfl
    rw [hslash, List.cons_append, List.singleton_append]
    split
    · next heq => exact absurd (List.cons.inj (List.cons.inj heq).2).2 (hstart _)
    · next heq =>
      rw [← (List.cons.inj (List.cons.inj heq).2).2, hparts]
    · next hnone heq => exact absurd heq (by rw [← (List.cons.inj heq).2] at hnone; exact fun _ => hnone cs rfl)
    · next hnone _ => exact absurd rfl (hnone cs)

/-- A text is its components with slashes between them. -/
theorem intercalate_components (text : String) : "/".intercalate (components text) = text := by
  rw [← String.toList_inj, String.toList_intercalate]
  simp only [components, List.map_map]
  have hid : (String.toList ∘ String.ofList) = (id : List Char → List Char) := by
    funext cs
    exact String.toList_ofList
  rw [hid, List.map_id]
  exact List.intercalate_splitOn '/'

theorem components_of_prefix {top : String} {rest : List Char} (htop : '/' ∉ top.toList)
    (h : text.toList = top.toList ++ '/' :: rest) : ∃ name names, components text = top :: name :: names := by
  have hsplit : text.toList.splitOn '/' = top.toList :: rest.splitOn '/' := by
    have hne : ∀ c ∈ top.toList, (c == '/') = false := by
      intro c hc
      rw [beq_eq_false_iff_ne]
      rintro rfl
      exact htop hc
    rw [h, List.splitOn_eq_splitOnP, List.splitOn_eq_splitOnP]
    exact List.splitOnP_append_cons_of_forall_mem hne '/' (by simp) rest
  cases hrest : rest.splitOn '/' with
  | nil => exact absurd hrest (List.splitOn_ne_nil _ _)
  | cons name names =>
      refine ⟨String.ofList name, names.map String.ofList, ?_⟩
      simp [components, hsplit, hrest]

end PosixPath
end Lib
