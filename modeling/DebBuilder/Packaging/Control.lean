import Mathlib
import DebBuilder.Lib.ControlRules
import DebBuilder.Source.Versions

/-!
# The generated control file

The control file of a package is written from its Recipe line by line.  Names and relations are
checked before; the description is free text, and each of its lines but the first goes on with the
field as it stands.

## Main definitions

* `generateControl` — the text of the control file.
* `Says` — the text, read by the rules of the format, is the one stanza that is meant.
* `Writable` — a description and dependencies that the lines can carry.

## Main results

* `control_says_iff` — the text says what the Recipe says exactly where these can be written.
-/

namespace DebBuilder.Packaging

open Lib Lib.ControlRules Recipe

-- Texts are decided along their characters, not over all characters there are.
attribute [local instance (2000)] List.decidableBAll List.decidableBEx

/-- `PackagingError` -/
structure PackagingError where
  code : String
  message : String
deriving DecidableEq

/-! ## Generation -/

/-- `row == "adduser" or row.startswith("adduser (")` -/
def isAdduser (row : String) : Bool := row = "adduser" || "adduser (".toList.isPrefixOf row.toList

/-- The relations of the package: those of the Recipe or those in effect, with the one that an
account needs. -/
def controlDependencies (recipe : CanonicalRecipe) (effective : Option (List String)) : List String :=
  let dependencies := effective.getD recipe.package.runtimeDependencies
  let account := recipe.install.account
  if (account.createUser.truthy || account.createGroup.truthy) && !dependencies.any isAdduser then
    dependencies ++ ["adduser"]
  else dependencies

/-- `description.replace("\r", "").split("\n")` -/
def descriptionLines (description : String) : List (List Char) := (description.toList.filter (· ≠ '\r')).splitOn '\n'

/-- The fields before the description, with their values. -/
def controlFields (package : Package) (version : String) (dependencies : List String) : List (List Char × List Char) :=
  [("Package".toList, package.name.toList), ("Version".toList, version.toList),
    ("Section".toList, (if package.section = "" then "misc" else package.section).toList),
    ("Priority".toList, (if package.priority = "" then "optional" else package.priority).toList),
    ("Architecture".toList, package.architecture.toList), ("Maintainer".toList, package.maintainer.toList)] ++
  if dependencies = [] then [] else [("Depends".toList, (", ".intercalate dependencies).toList)]

/-- `f"{key}: {value}"` -/
def fieldLine (field : List Char × List Char) : List Char := field.1 ++ ':' :: ' ' :: field.2

/-- `f" {line or '.'}"` -/
def furtherLine (line : List Char) : List Char := ' ' :: if line = [] then ['.'] else line

/-- `generate_control(recipe, version, effective_dependencies=effective)` -/
def generateControl (recipe : CanonicalRecipe) (version : String) (effective : Option (List String)) :
    Except PackagingError String := do
  refuse (recipe.package.maintainer = "") ⟨"invalid_debian_metadata", "Package maintainer is required"⟩
  refuse (recipe.package.description = "") ⟨"invalid_debian_metadata", "Package description is required"⟩
  let description := descriptionLines recipe.package.description
  let lines := (controlFields recipe.package version (controlDependencies recipe effective)).map fieldLine ++
    fieldLine ("Description".toList, description.headD []) :: description.tail.map furtherLine
  return String.ofList (['\n'].intercalate lines ++ ['\n'])

/-! ## What is meant -/

/-- A blank, or the return of a carriage. -/
def margin (c : Char) : Bool := blank c || c == '\r'

/-- The lines of a description as the Recipe has them. -/
def recipeLines (description : String) : List (List Char) := description.toList.splitOn '\n'

/-- The first line, without what surrounds it. -/
def synopsis (description : String) : List Char :=
  (((recipeLines description).headD []).dropWhile margin).rdropWhile margin

/-- The further lines, without what ends them. -/
def extended (description : String) : List (List Char) := (recipeLines description).tail.map (·.rdropWhile margin)

/-- The stanza that is meant. The blanks around a maintainer and around the relations mean nothing. -/
def intended (package : Package) (version : String) (dependencies : List String) : List Entry :=
  [⟨"Package".toList, [package.name.toList]⟩, ⟨"Version".toList, [version.toList]⟩,
    ⟨"Section".toList, [package.section.toList]⟩, ⟨"Priority".toList, [package.priority.toList]⟩,
    ⟨"Architecture".toList, [package.architecture.toList]⟩, ⟨"Maintainer".toList, [trim package.maintainer.toList]⟩] ++
  (if dependencies = [] then [] else [⟨"Depends".toList, [trim (", ".intercalate dependencies).toList]⟩]) ++
  [⟨"Description".toList, synopsis package.description :: extended package.description⟩]

/-- The text is one stanza, the one that is meant, and its synopsis is not empty. -/
def Says (recipe : CanonicalRecipe) (version : String) (effective : Option (List String)) : Prop :=
  ∀ text, generateControl recipe version effective = .ok text →
    readControl text = some [intended recipe.package version (controlDependencies recipe effective)] ∧
      synopsis recipe.package.description ≠ []

/-- A further line that can be written: nothing but returns, or a line with something on it that
is no lone dot and has no return before its end. -/
def WritableLine (line : List Char) : Prop :=
  (∀ c ∈ line, c = '\r') ∨
    (∃ c ∈ line, margin c = false) ∧ line.rdropWhile margin ≠ ['.'] ∧ '\r' ∉ line.rdropWhile margin

/-- What the lines can carry: a synopsis without returns, further lines that can be written, and
relations on one line. -/
structure Writable (recipe : CanonicalRecipe) (effective : Option (List String)) : Prop where
  synopsis : synopsis recipe.package.description ≠ [] ∧ '\r' ∉ synopsis recipe.package.description
  further : ∀ line ∈ (recipeLines recipe.package.description).tail, WritableLine line
  dependencies : ∀ row ∈ effective.getD [], '\n' ∉ row.toList

/-! ## Blanks and returns -/

variable {cs line : List Char} {c : Char}

theorem trim_eq_self (h : ∀ c ∈ cs, blank c = false) : trim cs = cs := by
  have hdrop : cs.dropWhile blank = cs := by
    cases cs with
    | nil => rfl
    | cons c cs => exact List.dropWhile_cons_of_neg (by simp [h c (by simp)])
  rw [trim, hdrop, List.rdropWhile_eq_self_iff]
  intro hne
  simp [h _ (List.getLast_mem hne)]

theorem trim_cons_space : trim (' ' :: cs) = trim cs := rfl

theorem mem_trim (hc : blank c = false) (h : c ∈ cs) : c ∈ trim cs := by
  have hdrop : c ∈ cs.dropWhile blank := by
    rw [← List.takeWhile_append_dropWhile (p := blank) (l := cs)] at h
    rcases List.mem_append.1 h with htake | hdrop
    · exact absurd (List.mem_takeWhile_imp htake) (by simp [hc])
    · exact hdrop
  rw [trim, List.rdropWhile, List.mem_reverse]
  rw [← List.mem_reverse, ← List.takeWhile_append_dropWhile (p := blank) (l := (cs.dropWhile blank).reverse)] at hdrop
  rcases List.mem_append.1 hdrop with htake | hrest
  · exact absurd (List.mem_takeWhile_imp htake) (by simp [hc])
  · exact hrest

/-- Taking the returns out and the blanks off the end is taking both off the end, and the other
returns out. -/
theorem rdropWhile_filter (cs : List Char) :
    (cs.filter (· ≠ '\r')).rdropWhile blank = (cs.rdropWhile margin).filter (· ≠ '\r') := by
  induction cs using List.reverseRecOn with
  | nil => rfl
  | append_singleton cs c ih =>
      by_cases hreturn : c = '\r'
      · subst hreturn
        rw [List.rdropWhile_concat_pos _ _ _ (by decide), List.filter_append, ← ih]
        simp
      · have hfilter : (cs ++ [c]).filter (· ≠ '\r') = cs.filter (· ≠ '\r') ++ [c] := by simp [hreturn]
        rw [hfilter]
        by_cases hblank : blank c = true
        · rw [List.rdropWhile_concat_pos _ _ _ hblank, List.rdropWhile_concat_pos _ _ _ (by simp [margin, hblank]), ih]
        · rw [List.rdropWhile_concat_neg _ _ _ (by simpa using hblank),
            List.rdropWhile_concat_neg _ _ _ (by simp [margin, hblank, hreturn]), hfilter]

theorem dropWhile_filter (cs : List Char) :
    (cs.filter (· ≠ '\r')).dropWhile blank = (cs.dropWhile margin).filter (· ≠ '\r') := by
  induction cs with
  | nil => rfl
  | cons c cs ih =>
      by_cases hreturn : c = '\r'
      · subst hreturn
        rw [List.dropWhile_cons_of_pos (by decide), ← ih]
        simp
      · have hfilter : (c :: cs).filter (· ≠ '\r') = c :: cs.filter (· ≠ '\r') := by simp [hreturn]
        rw [hfilter]
        by_cases hblank : blank c = true
        · rw [List.dropWhile_cons_of_pos hblank, List.dropWhile_cons_of_pos (by simp [margin, hblank]), ih]
        · rw [List.dropWhile_cons_of_neg (by simpa using hblank),
            List.dropWhile_cons_of_neg (by simp [margin, hblank, hreturn]), hfilter]

theorem filter_eq_self_iff : cs.filter (· ≠ '\r') = cs ↔ '\r' ∉ cs := by
  rw [List.filter_eq_self]
  constructor
  · intro h hmem
    simpa using h _ hmem
  · intro h c hc
    simpa using fun heq : c = '\r' => h (heq ▸ hc)

/-- The first line is written as it is meant when no return is left in it. -/
theorem trim_filter_iff (cs : List Char) :
    trim (cs.filter (· ≠ '\r')) = (cs.dropWhile margin).rdropWhile margin ↔
      '\r' ∉ (cs.dropWhile margin).rdropWhile margin := by
  rw [trim, dropWhile_filter, rdropWhile_filter, filter_eq_self_iff]

/-- A further line goes on with the description, and is read as it is meant, when it can be
written. -/
theorem furtherLine_iff (line : List Char) :
    (Continues (furtherLine (line.filter (· ≠ '\r'))) ∧
      unfolded (furtherLine (line.filter (· ≠ '\r'))) = line.rdropWhile margin) ↔ WritableLine line := by
  have hfilter := rdropWhile_filter line
  by_cases hnil : line.filter (· ≠ '\r') = []
  · have hreturns : ∀ c ∈ line, c = '\r' := by simpa [List.filter_eq_nil_iff] using hnil
    have hempty : line.rdropWhile margin = [] := by
      rw [List.rdropWhile_eq_nil_iff]
      intro c hc
      simp [hreturns c hc, margin]
    rw [hnil, hempty]
    exact iff_of_true ⟨⟨rfl, rfl⟩, rfl⟩ (.inl hreturns)
  · have hline : furtherLine (line.filter (· ≠ '\r')) = ' ' :: line.filter (· ≠ '\r') := by
      rw [furtherLine, if_neg hnil]
    have hcontinues : Continues (' ' :: line.filter (· ≠ '\r')) ↔ ∃ c ∈ line, margin c = false := by
      have hspace : blank ' ' = true := rfl
      simp only [Continues, List.head?_cons, Option.any_some, hspace, List.all_cons, Bool.true_and, true_and,
        List.all_eq_false, List.mem_filter, decide_eq_true_eq, margin, Bool.or_eq_false_iff, beq_eq_false_iff_ne]
      constructor
      · rintro ⟨c, ⟨hc, hreturn⟩, hblank⟩
        exact ⟨c, hc, by simpa using hblank, hreturn⟩
      · rintro ⟨c, hc, hblank, hreturn⟩
        exact ⟨c, ⟨hc, hreturn⟩, by simp [hblank]⟩
    have hnotall : ¬ ∀ c ∈ line, c = '\r' := by
      intro hall
      exact hnil (List.filter_eq_nil_iff.2 fun c hc => by simp [hall c hc])
    rw [hline, hcontinues, WritableLine, or_iff_right hnotall]
    apply and_congr_right'
    rw [unfolded, List.tail_cons, hfilter]
    constructor
    · intro h
      split at h
      · next hdot =>
        rw [← h] at hdot
        cases hdot
      · next hdot =>
        rw [h] at hdot
        exact ⟨hdot, filter_eq_self_iff.1 h⟩
    · rintro ⟨hdot, hreturn⟩
      rw [filter_eq_self_iff.2 hreturn, if_neg hdot]

/-! ## What is checked before -/

/-- A value that is read as it is written: no blank and no newline is in it. -/
def Plain (cs : List Char) : Prop := ∀ c ∈ cs, blank c = false ∧ c ≠ '\n'

theorem Plain.trim (h : Plain cs) : ControlRules.trim cs = cs := trim_eq_self fun c hc => (h c hc).1

theorem Plain.newline (h : Plain cs) : '\n' ∉ cs := fun hmem => (h _ hmem).2 rfl

theorem plain_of_safePackage {text : String} (h : safePackage text = true) : Plain text.toList := by
  intro c hc
  have hchar := (Source.fullMatch_eq_true h).2 c hc
  constructor
  · by_contra hblank
    simp only [blank, Bool.not_eq_false, Bool.or_eq_true, beq_iff_eq] at hblank
    rcases hblank with rfl | rfl <;> simp [lowerAlnum, Char.isDigit] at hchar
  · rintro rfl
    revert hchar
    decide

theorem plain_of_version {version : String} (h : (Source.matchDebianVersion version.toList).isSome = true) :
    Plain version.toList := by
  rw [Source.isSome_matchDebianVersion] at h
  intro c hc
  have hspace := Source.not_isSpace_of_upstreamChar (Source.upstreamChar_of_matchWithoutEpoch h c hc)
  constructor
  · by_contra hblank
    simp only [blank, Bool.not_eq_false, Bool.or_eq_true, beq_iff_eq] at hblank
    rcases hblank with rfl | rfl <;> revert hspace <;> decide
  · rintro rfl
    revert hspace
    decide

/-- What the Recipe checks of its package. -/
structure Accepted (package : Package) : Prop where
  name : Plain package.name.toList
  sectionName : Plain package.section.toList ∧ package.section ≠ ""
  priority : Plain package.priority.toList ∧ package.priority ≠ ""
  architecture : Plain package.architecture.toList
  maintainer : '\n' ∉ package.maintainer.toList
  dependencies : ∀ row ∈ package.runtimeDependencies, Plain row.toList

theorem accepted_of_validateRecipeMetadata {lib : Library} {workflow : Json.Fields} {recipe : CanonicalRecipe}
    (h : validateRecipeMetadata lib workflow = .ok recipe) : Accepted recipe.package := by
  obtain ⟨recipe', _, h⟩ := bind_eq_ok.1 h
  obtain ⟨_, hpackage, h⟩ := bind_eq_ok.1 h
  have hsame : recipe' = recipe := by
    iterate 5 obtain ⟨_, _, h⟩ := bind_eq_ok.1 h
    exact pure_eq_ok.1 h
  rw [← hsame]
  rw [validatePackage] at hpackage
  obtain ⟨_, _, hpackage⟩ := bind_eq_ok.1 hpackage
  obtain ⟨_, hname, hpackage⟩ := bind_eq_ok.1 hpackage
  obtain ⟨_, harchitecture, hpackage⟩ := bind_eq_ok.1 hpackage
  obtain ⟨_, hsection, hpackage⟩ := bind_eq_ok.1 hpackage
  obtain ⟨_, hpriority, hpackage⟩ := bind_eq_ok.1 hpackage
  obtain ⟨_, hmaintainer, hpackage⟩ := bind_eq_ok.1 hpackage
  obtain ⟨_, hdependencies, -⟩ := bind_eq_ok.1 hpackage
  rw [refuse_eq_ok] at hname harchitecture hsection hpriority hmaintainer hdependencies
  rw [Bool.not_eq_false] at hname hsection hmaintainer
  constructor
  · exact plain_of_safePackage hname
  · refine ⟨plain_of_safePackage hsection, fun hempty => ?_⟩
    rw [hempty] at hsection
    revert hsection
    decide
  · rw [not_not] at hpriority
    simp only [List.mem_cons, List.not_mem_nil, or_false] at hpriority
    rcases hpriority with heq | heq | heq | heq | heq <;> rw [heq] <;> refine ⟨?_, by decide +kernel⟩ <;> unfold Plain <;> decide +kernel
  · rw [not_not] at harchitecture
    simp only [List.mem_cons, List.not_mem_nil, or_false] at harchitecture
    rcases harchitecture with heq | heq | heq | heq <;> rw [heq] <;> unfold Plain <;> decide +kernel
  · intro hmem
    rw [singleLine, List.all_eq_true] at hmaintainer
    simpa using hmaintainer _ hmem
  · intro row hrow
    apply plain_of_safePackage
    by_contra hbad
    rw [List.any_eq_true] at hdependencies
    exact hdependencies ⟨row, hrow, by simpa using hbad⟩

/-! ## The generated text -/

theorem mem_intercalate {sep : List Char} {parts : List (List Char)} (hc : c ∉ sep) :
    c ∈ sep.intercalate parts ↔ ∃ part ∈ parts, c ∈ part := by
  induction parts with
  | nil => simp [List.intercalate]
  | cons part parts ih =>
      cases parts with
      | nil => simp [List.intercalate_singleton]
      | cons next parts => simp [List.intercalate_cons_cons, ih, hc]

variable {recipe : CanonicalRecipe} {package : Package} {version text : String} {effective : Option (List String)}
  {dependencies : List String}

/-- The relations are on one line when each of them is. -/
theorem newline_dependencies :
    '\n' ∈ (", ".intercalate dependencies).toList ↔ ∃ row ∈ dependencies, '\n' ∈ row.toList := by
  rw [String.toList_intercalate, mem_intercalate (by decide)]
  simp

theorem newline_controlDependencies (haccepted : Accepted recipe.package) :
    (∃ row ∈ controlDependencies recipe effective, '\n' ∈ row.toList) ↔ ∃ row ∈ effective.getD [], '\n' ∈ row.toList := by
  have hown : ∀ row ∈ effective.getD recipe.package.runtimeDependencies, '\n' ∈ row.toList → row ∈ effective.getD [] := by
    cases effective with
    | none => exact fun row hrow hmem => absurd hmem (haccepted.dependencies row hrow).newline
    | some rows => exact fun row hrow _ => hrow
  have hgiven : ∀ row ∈ effective.getD [], row ∈ effective.getD recipe.package.runtimeDependencies := by
    cases effective with
    | none => exact fun row hrow => nomatch hrow
    | some rows => exact fun row hrow => hrow
  have hadduser : '\n' ∉ "adduser".toList := by decide
  simp only [controlDependencies]
  constructor
  · rintro ⟨row, hrow, hmem⟩
    refine ⟨row, hown row ?_ hmem, hmem⟩
    split at hrow
    · rcases List.mem_append.1 hrow with hrow | hrow
      · exact hrow
      · exact absurd (List.mem_singleton.1 hrow ▸ hmem) hadduser
    · exact hrow
  · rintro ⟨row, hrow, hmem⟩
    refine ⟨row, ?_, hmem⟩
    split
    · exact List.mem_append_left _ (hgiven row hrow)
    · exact hgiven row hrow

section
variable (haccepted : Accepted package) (hversion : Plain version.toList)
include haccepted hversion

theorem newline_controlFields (hdependencies : ∀ row ∈ dependencies, '\n' ∉ row.toList) :
    ∀ field ∈ controlFields package version dependencies, '\n' ∉ fieldLine field := by
  have hrows : '\n' ∉ (", ".intercalate dependencies).toList := by
    rw [newline_dependencies]
    rintro ⟨row, hrow, hmem⟩
    exact hdependencies row hrow hmem
  have hline : ∀ name value : List Char, '\n' ∉ name → '\n' ∉ value → '\n' ∉ fieldLine (name, value) := by
    intro name value hname hvalue
    simp [fieldLine, hname, hvalue]
  intro field hfield
  simp only [controlFields, if_neg haccepted.sectionName.2, if_neg haccepted.priority.2, List.mem_append] at hfield
  rcases hfield with hfield | hfield
  · simp only [List.mem_cons, List.not_mem_nil, or_false] at hfield
    rcases hfield with rfl | rfl | rfl | rfl | rfl | rfl
    · exact hline _ _ (by decide) haccepted.name.newline
    · exact hline _ _ (by decide) hversion.newline
    · exact hline _ _ (by decide) haccepted.sectionName.1.newline
    · exact hline _ _ (by decide) haccepted.priority.1.newline
    · exact hline _ _ (by decide) haccepted.architecture.newline
    · exact hline _ _ (by decide) haccepted.maintainer
  · split at hfield
    · exact nomatch hfield
    · obtain rfl := List.mem_singleton.1 hfield
      exact hline _ _ (by decide) hrows

/-- The fields before the description are read as they are meant. -/
theorem intended_eq :
    intended package version dependencies =
      (controlFields package version dependencies).map (fun field => ⟨field.1, [trim field.2]⟩) ++
        [⟨"Description".toList, synopsis package.description :: extended package.description⟩] := by
  simp only [intended, controlFields, if_neg haccepted.sectionName.2, if_neg haccepted.priority.2, List.map_append,
    List.map_cons, List.map_nil, haccepted.name.trim, hversion.trim, haccepted.sectionName.1.trim,
    haccepted.priority.1.trim, haccepted.architecture.trim]
  split <;> rfl

end

theorem isName_controlFields : ∀ field ∈ controlFields package version dependencies, IsName field.1 := by
  intro field hfield
  simp only [controlFields, List.mem_append, List.mem_cons, List.not_mem_nil, or_false] at hfield
  rcases hfield with (rfl | rfl | rfl | rfl | rfl | rfl) | hfield
  · show IsName "Package".toList
    decide
  · show IsName "Version".toList
    decide
  · show IsName "Section".toList
    decide
  · show IsName "Priority".toList
    decide
  · show IsName "Architecture".toList
    decide
  · show IsName "Maintainer".toList
    decide
  · split at hfield
    · exact nomatch hfield
    · rw [List.mem_singleton.1 hfield]
      show IsName "Depends".toList
      decide

theorem readLines_fields {fields : List (List Char × List Char)} {stanzas : List (List Entry)} {current : List Entry}
    {rest : List (List Char)} (h : ∀ field ∈ fields, IsName field.1) :
    readLines stanzas current (fields.map fieldLine ++ rest) =
      readLines stanzas (current ++ fields.map fun field => ⟨field.1, [trim field.2]⟩) rest := by
  have hmap : fields.map fieldLine =
      (fields.map fun field => (field.1, ' ' :: field.2)).map fun field => field.1 ++ ':' :: field.2 := by
    rw [List.map_map]
    rfl
  have hnames : ∀ field ∈ fields.map fun field => (field.1, ' ' :: field.2), ControlRules.IsName field.1 := by
    intro field hfield
    obtain ⟨original, hmem, rfl⟩ := List.mem_map.1 hfield
    exact h original hmem
  rw [hmap, readLines_starts _ hnames, List.map_map]
  rfl

theorem intercalate_concat_nil {lines : List (List Char)} (hne : lines ≠ []) :
    ['\n'].intercalate (lines ++ [[]]) = ['\n'].intercalate lines ++ ['\n'] := by
  induction lines with
  | nil => exact absurd rfl hne
  | cons line lines ih =>
      cases lines with
      | nil => simp [List.intercalate_cons_cons, List.intercalate_singleton]
      | cons next lines => simpa [List.intercalate_cons_cons] using ih (by simp)

/-- The text, line by line: the fields, the synopsis, and the further lines. -/
theorem readControl_generateControl (haccepted : Accepted recipe.package) (hversion : Plain version.toList)
    (hdependencies : ∀ row ∈ controlDependencies recipe effective, '\n' ∉ row.toList)
    (htext : generateControl recipe version effective = .ok text) :
    readControl text =
      readLines [] ((controlFields recipe.package version (controlDependencies recipe effective)).map
          (fun field => ⟨field.1, [trim field.2]⟩) ++
        [⟨"Description".toList, [trim ((descriptionLines recipe.package.description).headD [])]⟩])
        ((descriptionLines recipe.package.description).tail.map furtherLine ++ [[]]) := by
  let description := descriptionLines recipe.package.description
  let fields := controlFields recipe.package version (controlDependencies recipe effective)
  have hlines : text.toList = ['\n'].intercalate (fields.map fieldLine ++
      fieldLine ("Description".toList, description.headD []) :: description.tail.map furtherLine) ++ ['\n'] := by
    simp only [generateControl, bind_eq_ok, refuse_eq_ok, pure_eq_ok] at htext
    obtain ⟨-, -, -, -, rfl⟩ := htext
    rw [String.toList_ofList]
  have hdescription : ∀ line ∈ description, '\n' ∉ line := fun line hline => PosixPath.notMem_of_mem_splitOn hline
  have hne : description ≠ [] := List.splitOn_ne_nil _ _
  have hfirst : '\n' ∉ fieldLine ("Description".toList, description.headD []) := by
    obtain ⟨first, further, hsplit⟩ := List.exists_cons_of_ne_nil hne
    have hnewline := hdescription first (hsplit ▸ List.mem_cons_self)
    rw [hsplit, List.headD_cons]
    simp [fieldLine, hnewline]
  have hfurther : ∀ line ∈ description.tail.map furtherLine, '\n' ∉ line := by
    intro line hline
    obtain ⟨further, hmem, rfl⟩ := List.mem_map.1 hline
    have hnewline := hdescription further (List.mem_of_mem_tail hmem)
    rw [furtherLine]
    split <;> simp [hnewline]
  have hsplit : text.toList.splitOn '\n' = (fields.map fieldLine ++
      fieldLine ("Description".toList, description.headD []) :: description.tail.map furtherLine) ++ [[]] := by
    rw [hlines, ← intercalate_concat_nil (by simp)]
    apply List.splitOn_intercalate
    · intro line hline
      simp only [List.mem_append, List.mem_cons, List.not_mem_nil, or_false] at hline
      rcases hline with (hline | rfl | hline) | rfl
      · obtain ⟨field, hfield, rfl⟩ := List.mem_map.1 hline
        exact newline_controlFields haccepted hversion hdependencies field hfield
      · exact hfirst
      · exact hfurther line hline
      · exact List.not_mem_nil
    · simp
  have hnames : ∀ field ∈ fields ++ [("Description".toList, description.headD [])], IsName field.1 := by
    intro field hfield
    rcases List.mem_append.1 hfield with hmem | hmem
    · exact isName_controlFields field hmem
    · rw [List.mem_singleton.1 hmem]
      show IsName "Description".toList
      decide
  have hjoin : (fields.map fieldLine ++ fieldLine ("Description".toList, description.headD []) ::
        description.tail.map furtherLine) ++ [[]] =
      (fields ++ [("Description".toList, description.headD [])]).map fieldLine ++
        (description.tail.map furtherLine ++ [[]]) := by
    simp only [List.map_append, List.map_cons, List.map_nil, List.append_assoc, List.cons_append, List.nil_append]
  rw [readControl, hsplit, hjoin, readLines_fields hnames, List.nil_append, List.map_append]
  rfl

theorem filter_intercalate {parts : List (List Char)} :
    (['\n'].intercalate parts).filter (· ≠ '\r') = ['\n'].intercalate (parts.map fun part => part.filter (· ≠ '\r')) := by
  induction parts with
  | nil => rfl
  | cons part parts ih =>
      cases parts with
      | nil => simp [List.intercalate_singleton]
      | cons next parts =>
          rw [List.intercalate_cons_cons, List.map_cons, List.map_cons, List.intercalate_cons_cons, List.filter_append,
            List.filter_append, ih, List.map_cons]
          rfl

/-- The lines that are written are those of the Recipe without their returns. -/
theorem descriptionLines_eq (description : String) :
    descriptionLines description = (recipeLines description).map fun line => line.filter (· ≠ '\r') := by
  have hjoin : description.toList = ['\n'].intercalate (recipeLines description) := (List.intercalate_splitOn '\n').symm
  rw [descriptionLines, hjoin, filter_intercalate]
  apply List.splitOn_intercalate
  · intro line hline
    obtain ⟨original, hmem, rfl⟩ := List.mem_map.1 hline
    intro hnewline
    exact PosixPath.notMem_of_mem_splitOn hmem (List.mem_filter.1 hnewline).1
  · simp [recipeLines, List.splitOn_ne_nil]

theorem headD_descriptionLines (description : String) :
    (descriptionLines description).headD [] = ((recipeLines description).headD []).filter (· ≠ '\r') := by
  rw [descriptionLines_eq]
  cases recipeLines description <;> rfl

theorem tail_descriptionLines (description : String) :
    (descriptionLines description).tail.map furtherLine =
      (recipeLines description).tail.map fun line => furtherLine (line.filter (· ≠ '\r')) := by
  rw [descriptionLines_eq, ← List.map_tail, List.map_map]
  rfl

/-- Relations that hold a newline are not read as they are meant. -/
theorem newline_of_reads (hread : readControl text = some [intended package version dependencies]) :
    ∀ row ∈ dependencies, '\n' ∉ row.toList := by
  intro row hrow hmem
  have hne : dependencies ≠ [] := List.ne_nil_of_mem hrow
  have hvalue : '\n' ∈ trim (", ".intercalate dependencies).toList :=
    mem_trim (by decide) (newline_dependencies.2 ⟨row, hrow, hmem⟩)
  apply newline_notMem_of_readControl hread _ (List.mem_singleton_self _)
    ⟨"Depends".toList, [trim (", ".intercalate dependencies).toList]⟩ _ _ (List.mem_singleton_self _) hvalue
  simp [intended, if_neg hne]

/-- The control file says what the Recipe says exactly where there is none, or where its
description and the relations can be written. -/
theorem control_says_iff {lib : Library} {workflow : Json.Fields} (h : validateRecipeMetadata lib workflow = .ok recipe)
    (hversion : (Source.matchDebianVersion version.toList).isSome = true) :
    Says recipe version effective ↔
      recipe.package.maintainer = "" ∨ recipe.package.description = "" ∨ Writable recipe effective := by
  have haccepted := accepted_of_validateRecipeMetadata h
  have hplain := plain_of_version hversion
  constructor
  · intro hmeant
    by_cases hmaintainer : recipe.package.maintainer = ""
    · exact .inl hmaintainer
    by_cases hdescription : recipe.package.description = ""
    · exact .inr (.inl hdescription)
    right
    right
    obtain ⟨text, htext⟩ : ∃ text, generateControl recipe version effective = .ok text :=
      ⟨_, bind_eq_ok.2 ⟨(), refuse_eq_ok.2 hmaintainer, bind_eq_ok.2 ⟨(), refuse_eq_ok.2 hdescription, rfl⟩⟩⟩
    obtain ⟨hread, hsynopsis⟩ := hmeant text htext
    have hrows := newline_of_reads hread
    rw [readControl_generateControl haccepted hplain hrows htext, intended_eq haccepted hplain, headD_descriptionLines,
      tail_descriptionLines] at hread
    have hlines : ∀ line ∈ (recipeLines recipe.package.description).tail.map fun line =>
        furtherLine (line.filter (· ≠ '\r')), line.head?.any blank = true := by
      intro line hline
      obtain ⟨original, -, rfl⟩ := List.mem_map.1 hline
      rfl
    have htruncated := readLines_truncated hlines hread
    simp only [List.cons.injEq, and_true, List.append_cancel_left_eq, Entry.mk.injEq, true_and, List.cons_append,
      List.nil_append] at htruncated
    obtain ⟨hfirst, hfurther⟩ := htruncated
    constructor
    · refine ⟨hsynopsis, ?_⟩
      rw [synopsis] at hfirst ⊢
      exact (trim_filter_iff _).1 hfirst.symm
    · -- every further line was read, so that none of them was blank
      have hlength := congrArg List.length hfurther
      simp only [extended, List.length_map] at hlength
      have hall : ((recipeLines recipe.package.description).tail.map fun line =>
            furtherLine (line.filter (· ≠ '\r'))).takeWhile (fun line => !line.all blank) =
          (recipeLines recipe.package.description).tail.map fun line => furtherLine (line.filter (· ≠ '\r')) := by
        apply (List.takeWhile_prefix _).eq_of_length
        rw [List.length_map]
        exact hlength.symm
      rw [hall, extended, List.map_map, List.map_inj_left] at hfurther
      rw [List.takeWhile_eq_self_iff] at hall
      intro line hline
      have hblank := hall _ (List.mem_map_of_mem hline)
      rw [Bool.not_eq_true'] at hblank
      exact (furtherLine_iff line).1 ⟨⟨rfl, hblank⟩, (hfurther line hline).symm⟩
    · intro row hrow hmem
      obtain ⟨row', hrow', hmem'⟩ := (newline_controlDependencies haccepted).2 ⟨row, hrow, hmem⟩
      exact hrows row' hrow' hmem'
  · rintro (hmaintainer | hdescription | hwritable) text htext
    · simp only [generateControl, bind_eq_ok, refuse_eq_ok] at htext
      obtain ⟨-, hne, -⟩ := htext
      exact absurd hmaintainer hne
    · simp only [generateControl, bind_eq_ok, refuse_eq_ok] at htext
      obtain ⟨-, -, -, hne, -⟩ := htext
      exact absurd hdescription hne
    · refine ⟨?_, hwritable.synopsis.1⟩
      have hrows : ∀ row ∈ controlDependencies recipe effective, '\n' ∉ row.toList := by
        intro row hrow hmem
        obtain ⟨row', hrow', hmem'⟩ := (newline_controlDependencies haccepted).1 ⟨row, hrow, hmem⟩
        exact hwritable.dependencies row' hrow' hmem'
      have hfirst := (trim_filter_iff ((recipeLines recipe.package.description).headD [])).2 hwritable.synopsis.2
      rw [readControl_generateControl haccepted hplain hrows htext, intended_eq haccepted hplain, headD_descriptionLines,
        tail_descriptionLines, readLines_continues, hfirst, List.map_map]
      · have hfurther : (recipeLines recipe.package.description).tail.map
              (unfolded ∘ fun line => furtherLine (line.filter (· ≠ '\r'))) = extended recipe.package.description := by
          rw [extended, List.map_inj_left]
          intro line hline
          exact ((furtherLine_iff line).2 (hwritable.further line hline)).2
        rw [hfurther]
        rfl
      · intro line hline
        obtain ⟨original, hmem, rfl⟩ := List.mem_map.1 hline
        exact ((furtherLine_iff original).2 (hwritable.further original hmem)).1

/-- None of these functions is needed for the sample. -/
def sampleLibrary : Library where
  intOf _ := none
  regexError _ := none
  urlsplit _ := none
  urlunsplit _ _ := ""
  isIpv6 _ := false
  decodedLength _ := none

def sampleWorkflow (description : String) : Json.Fields :=
  [("schema_version", .int 5), ("name", .str "demo"),
    ("package", .obj [("maintainer", .str "Me"), ("description", .str description)]),
    ("source", .obj [("repository", .str "o/n")]),
    ("build", .obj [("output", .obj [("mode", .str "path"), ("path", .str "x")])]),
    ("install", .obj [("destination", .str "/opt/demo")])]

theorem toOption_eq_some {ε α : Type} {x : Except ε α} {a : α} : x.toOption = some a ↔ x = .ok a := by
  cases x <;> simp [Except.toOption]

/-- A description with an empty line and an indented one. -/
theorem control_says_indented :
    ∃ recipe, validateRecipeMetadata sampleLibrary (sampleWorkflow "s\n\n t") = .ok recipe ∧ Says recipe "1.0-1" none := by
  have hread : (validateRecipeMetadata sampleLibrary (sampleWorkflow "s\n\n t")).toOption.map
      (fun recipe => recipe.package.description) = some "s\n\n t" := by decide +kernel
  obtain ⟨recipe, hoption, hdescription⟩ := Option.map_eq_some_iff.1 hread
  have hvalid := toOption_eq_some.1 hoption
  refine ⟨recipe, hvalid, (control_says_iff hvalid (by decide +kernel)).2 (.inr (.inr ?_))⟩
  have hlines : recipeLines recipe.package.description = [['s'], [], [' ', 't']] := by
    rw [hdescription]
    decide +kernel
  constructor
  · simp only [synopsis, hlines]
    decide +kernel
  · rw [hlines]
    intro line hline
    simp only [List.tail_cons, List.mem_cons, List.not_mem_nil, or_false] at hline
    rcases hline with rfl | rfl
    · exact .inl nofun
    · exact .inr (by decide +kernel)
  · exact nofun

/-- A line of the description with nothing but a space ends the stanza: the rest of the text has
no field to go on with. -/
theorem control_differs :
    ∃ recipe, validateRecipeMetadata sampleLibrary (sampleWorkflow "s\n \nt") = .ok recipe ∧ ¬ Says recipe "1.0-1" none := by
  have hread : ((validateRecipeMetadata sampleLibrary (sampleWorkflow "s\n \nt")).toOption.bind fun recipe =>
      (generateControl recipe "1.0-1" none).toOption.map readControl) = some none := by decide +kernel
  obtain ⟨recipe, hvalid, hgenerated⟩ := Option.bind_eq_some_iff.1 hread
  obtain ⟨text, htext, hnone⟩ := Option.map_eq_some_iff.1 hgenerated
  refine ⟨recipe, toOption_eq_some.1 hvalid, fun hmeant => ?_⟩
  have hone := (hmeant text (toOption_eq_some.1 htext)).1
  rw [hnone] at hone
  cases hone

end DebBuilder.Packaging
