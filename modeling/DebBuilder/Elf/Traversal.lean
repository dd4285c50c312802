import Mathlib
import DebBuilder.Elf.Resolver

/-!
# What the walk explains

Each file that the walk visits was inspected again, each library that it needs has one row,
and the files below it are visited too.  The exception is an entrypoint that an earlier one
bundles: it is not looked at again, and what was supplied for it is not compared.

## Main definitions

* `Fresh` — the inspection of the staged file itself.
* `Edge` — one file bundles the other.
* `Explained` — the rows, the libraries and the relations of a visited file.

## Main statements

* `walk_grows` — what one walk adds.
* `resolve_complete_iff` — when a successful resolution is complete.
-/

namespace DebBuilder.Elf
open Lib

variable {α : Type} {staging : Staging α}

/-! ## Files -/

/-- The inspection of the staged file itself. -/
def Fresh (staging : Staging α) (installed : String) (inspection : Inspection) : Prop :=
  ∃ file, staged staging.host staging.root installed = .ok file ∧ inspectElf staging.inspector file none = .ok inspection

variable {f g installed soname library relation : String} {I inspection child : Inspection} {path : List String}
  {expected : Option String} {row : Requirement} {s s' s'' : Walked}

theorem Fresh.unique {inspection' : Inspection} (h : Fresh staging installed inspection)
    (h' : Fresh staging installed inspection') : inspection = inspection' := by
  obtain ⟨file, hfile, hinspect⟩ := h
  obtain ⟨file', hfile', hinspect'⟩ := h'
  rw [hfile, Except.ok.injEq] at hfile'
  subst hfile'
  rw [hinspect, Except.ok.injEq] at hinspect'
  exact hinspect'

/-- An expected digest only makes the inspection fail. -/
theorem inspectElf_none {inspector : Inspector} (h : inspectElf inspector path expected = .ok inspection) :
    inspectElf inspector path none = .ok inspection := by
  simp only [inspectElf, bind_eq_ok, refuse_eq_ok] at h ⊢
  obtain ⟨_, -, digest, hdigest, _, -, hdescribe⟩ := h
  exact ⟨(), by simp, digest, hdigest, (), by simp, hdescribe⟩

theorem Fresh.needed_eq_nil (h : Fresh staging installed inspection) (hkind : inspection.kind ≠ .elf) :
    inspection.needed = [] := by
  obtain ⟨file, -, hinspect⟩ := h
  simp only [inspectElf, bind_eq_ok] at hinspect
  obtain ⟨_, -, digest, -, _, -, hdescribe⟩ := hinspect
  exact staging.inspector.plain file inspection hdescribe hkind

/-- The first file needs a library that is the other file. -/
def Edge (staging : Staging α) (f g : String) : Prop :=
  ∃ inspection soname, Fresh staging f inspection ∧ inspection.kind = .elf ∧ soname ∈ inspection.needed ∧
    bundled staging f inspection soname = .ok g ∧ g ≠ ""

/-- The files below one, and itself. -/
def Below (staging : Staging α) : String → String → Prop := Relation.ReflTransGen (Edge staging)

/-- The SONAMEs of a file that the Debian resolver has to explain. -/
def externalOf (staging : Staging α) (f : String) (I : Inspection) : List String :=
  I.needed.filter fun soname => (bundled staging f I soname).toOption = some "" ∧ (decisionFor staging soname).isNone

/-- The relations that are proposed for a file. -/
inductive Proposed (staging : Staging α) (f : String) (I : Inspection) : String → Prop
  | resolver {parsed : Parsed} {relation : String} : I.kind = .elf → I.linkage = some .dynamic →
      resolveOne staging.environment f (externalOf staging f I) = .ok parsed → relation ∈ parsed.depends →
      Proposed staging f I relation
  | manual {soname : String} {decision : Recipe.DependencyOverride} : soname ∈ I.needed →
      bundled staging f I soname = .ok "" → decisionFor staging soname = some decision → decision.action = "manual" →
      Proposed staging f I decision.relation

/-- The row that explains a library of a file. -/
inductive RowFor (staging : Staging α) (f : String) (I : Inspection) (soname : String) : Requirement → Prop
  | bundled {library : String} : bundled staging f I soname = .ok library → library ≠ "" →
      RowFor staging f I soname ⟨f, soname, library, "bundled", "", "", "", ""⟩
  | ignored {decision : Recipe.DependencyOverride} : Elf.bundled staging f I soname = .ok "" →
      decisionFor staging soname = some decision → decision.action = "ignore" →
      RowFor staging f I soname ⟨f, soname, "", "ignored_explicitly", "", "", "", decision.reason⟩
  | manual {decision : Recipe.DependencyOverride} {package : String} {bound : Option String} :
      Elf.bundled staging f I soname = .ok "" → decisionFor staging soname = some decision → decision.action = "manual" →
      dependency decision.relation = some (package, bound) →
      RowFor staging f I soname
        ⟨f, soname, "", "manually_resolved", package, decision.relation, "operator_mapping", decision.reason⟩
  | external {path package relation metadata : String} : Elf.bundled staging f I soname = .ok "" →
      RowFor staging f I soname ⟨f, soname, path, "resolved_external", package, relation, metadata, ""⟩

theorem RowFor.requester (h : RowFor staging f I soname row) : row.requester = f := by
  cases h <;> rfl

theorem RowFor.soname_eq (h : RowFor staging f I soname row) : row.soname = soname := by
  cases h <;> rfl

/-! ## What a walk adds -/

/-- The rows of one file. -/
def rowsOf (s : Walked) (f : String) : List Requirement := s.rows.filter fun row => row.requester = f

@[simp] theorem note_visited : (s.note row).visited = s.visited := rfl
@[simp] theorem note_active : (s.note row).active = s.active := rfl
@[simp] theorem note_depends : (s.note row).depends = s.depends := rfl

theorem rowsOf_note_self (h : row.requester = f) : rowsOf (s.note row) f = rowsOf s f ++ [row] := by
  simp [rowsOf, Walked.note, h]

theorem rowsOf_note_of_ne (h : row.requester ≠ f) : rowsOf (s.note row) f = rowsOf s f := by
  simp [rowsOf, Walked.note, h]

/-- Rows and active files belong to visited files. -/
structure Walking (s : Walked) : Prop where
  rows : ∀ row ∈ s.rows, row.requester ∈ s.visited
  active : ∀ f ∈ s.active, f ∈ s.visited

theorem Walking.rowsOf_eq_nil (h : Walking s) (hf : f ∉ s.visited) : rowsOf s f = [] := by
  rw [rowsOf, List.filter_eq_nil_iff]
  intro row hrow heq
  exact hf (of_decide_eq_true heq ▸ h.rows row hrow)

theorem Walking.note (h : Walking s) (hrow : row.requester ∈ s.visited) : Walking (s.note row) where
  rows row' hrow' := by
    rcases List.mem_append.1 hrow' with hrow' | hrow'
    · exact h.rows row' hrow'
    · exact List.mem_singleton.1 hrow' ▸ hrow
  active := h.active

/-- The rows of a visited file, the libraries it bundles and the relations proposed for it. -/
def Explained (staging : Staging α) (s : Walked) (f : String) : Prop :=
  ∃ I, Fresh staging f I ∧ List.Forall₂ (RowFor staging f I) I.needed (rowsOf s f) ∧
    (∀ soname ∈ I.needed, ∀ library, bundled staging f I soname = .ok library → library ≠ "" → library ∈ s.visited) ∧
    ∀ relation, Proposed staging f I relation → relation ∈ s.depends

/-- From one state to a later one, while the files `own` are being explained; what is visited in between is below
the files that `reach` holds of. -/
structure Grows (staging : Staging α) (own : List String) (reach : String → Prop) (s s' : Walked) : Prop where
  visited : ∀ g ∈ s.visited, g ∈ s'.visited
  active : s'.active = s.active
  depends : ∀ relation ∈ s.depends, relation ∈ s'.depends
  rows : ∀ g ∈ s.visited, g ∉ own → rowsOf s' g = rowsOf s g
  walking : Walking s → Walking s'
  explained : ∀ g ∈ s'.visited, g ∉ s.visited → Explained staging s' g
  reached : ∀ g ∈ s'.visited, g ∉ s.visited → reach g
  readable : (∀ relation ∈ s.depends, (dependency relation).isSome) → ∀ relation ∈ s'.depends, (dependency relation).isSome

variable {own : List String} {reach reach' : String → Prop}

theorem Grows.refl (s : Walked) : Grows staging own reach s s where
  visited _ h := h
  active := rfl
  depends _ h := h
  rows _ _ _ := rfl
  walking h := h
  explained _ h hnot := absurd h hnot
  reached _ h hnot := absurd h hnot
  readable h := h

/-- A file stays explained. -/
theorem Grows.keep (h : Grows staging own reach s s') (hg : g ∈ s.visited) (hown : g ∉ own)
    (hexplained : Explained staging s g) : Explained staging s' g := by
  obtain ⟨I, hfresh, hrows, hlibraries, hproposed⟩ := hexplained
  refine ⟨I, hfresh, ?_, ?_, ?_⟩
  · rw [h.rows g hg hown]
    exact hrows
  · intro soname hsoname library hlibrary hne
    exact h.visited library (hlibraries soname hsoname library hlibrary hne)
  · intro relation hrelation
    exact h.depends relation (hproposed relation hrelation)

theorem Grows.trans (h : Grows staging own reach s s') (h' : Grows staging own reach s' s'')
    (hown : ∀ g ∈ own, g ∈ s.visited) : Grows staging own reach s s'' where
  visited g hg := h'.visited g (h.visited g hg)
  active := h'.active.trans h.active
  depends relation hrelation := h'.depends relation (h.depends relation hrelation)
  rows g hg hnot := (h'.rows g (h.visited g hg) hnot).trans (h.rows g hg hnot)
  walking hwalking := h'.walking (h.walking hwalking)
  explained g hg hnot := by
    by_cases hmiddle : g ∈ s'.visited
    · exact h'.keep hmiddle (fun hmem => hnot (hown g hmem)) (h.explained g hmiddle hnot)
    · exact h'.explained g hg hmiddle
  reached g hg hnot := by
    by_cases hmiddle : g ∈ s'.visited
    · exact h.reached g hmiddle hnot
    · exact h'.reached g hg hmiddle
  readable hreadable := h'.readable (h.readable hreadable)

theorem Grows.mono (h : Grows staging [] reach s s') (himp : ∀ g, reach g → reach' g) : Grows staging own reach' s s' where
  visited := h.visited
  active := h.active
  depends := h.depends
  rows g hg _ := h.rows g hg List.not_mem_nil
  walking := h.walking
  explained := h.explained
  reached g hg hnot := himp g (h.reached g hg hnot)
  readable := h.readable

/-- A row of a file that is being explained. -/
theorem Grows.note (hrow : row.requester = f) (hf : f ∈ s.visited) : Grows staging [f] reach s (s.note row) where
  visited _ hg := hg
  active := rfl
  depends _ hrelation := hrelation
  rows _ _ hnot := rowsOf_note_of_ne fun heq => hnot (List.mem_singleton.2 (heq.symm.trans hrow))
  walking hwalking := hwalking.note (hrow ▸ hf)
  explained _ hg hnot := absurd hg hnot
  reached _ hg hnot := absurd hg hnot
  readable hreadable := hreadable

/-- Relations more. -/
theorem Grows.propose {relations : List String} (hread : ∀ relation ∈ relations, (dependency relation).isSome) :
    Grows staging own reach s { s with depends := relations ++ s.depends } where
  visited _ hg := hg
  active := rfl
  depends _ hrelation := List.mem_append_right _ hrelation
  rows _ _ _ := rfl
  walking hwalking := ⟨hwalking.rows, hwalking.active⟩
  explained _ hg hnot := absurd hg hnot
  reached _ hg hnot := absurd hg hnot
  readable hreadable relation hrelation := (List.mem_append.1 hrelation).elim (hread relation) (hreadable relation)

/-! ## One needed library -/

/-- What a call below gives. -/
def Descends (staging : Staging α) (descend : Walked → String → Inspection → Except Failure Walked) : Prop :=
  ∀ s s' library child, Walking s → descend s library child = .ok s' →
    Grows staging [] (Below staging library) s s' ∧ library ∈ s'.visited

/-- What the loop has done for some of the libraries of a file. -/
structure Handled (staging : Staging α) (f : String) (I : Inspection) (sonames : List String) (s s' : Walked) : Prop where
  grows : Grows staging [f] (Below staging f) s s'
  rows : ∃ rows, rowsOf s' f = rowsOf s f ++ rows ∧ List.Forall₂ (RowFor staging f I) sonames rows
  libraries : ∀ soname ∈ sonames, ∀ library, bundled staging f I soname = .ok library → library ≠ "" →
    library ∈ s'.visited
  manual : ∀ soname ∈ sonames, bundled staging f I soname = .ok "" → ∀ decision,
    decisionFor staging soname = some decision → decision.action = "manual" → decision.relation ∈ s'.depends

variable {descend : Walked → String → Inspection → Except Failure Walked} {parsed : Parsed} {locals : List (String × String)}
  {sonames : List String}

theorem Handled.nil (s : Walked) : Handled staging f I [] s s where
  grows := Grows.refl s
  rows := ⟨[], by simp, .nil⟩
  libraries _ h := absurd h List.not_mem_nil
  manual _ h := absurd h List.not_mem_nil

theorem Handled.append {sonames' : List String} (h : Handled staging f I sonames s s')
    (h' : Handled staging f I sonames' s' s'') (hf : f ∈ s.visited) : Handled staging f I (sonames ++ sonames') s s'' where
  grows := h.grows.trans h'.grows fun g hg => List.mem_singleton.1 hg ▸ hf
  rows := by
    obtain ⟨rows, hrows, hfor⟩ := h.rows
    obtain ⟨rows', hrows', hfor'⟩ := h'.rows
    exact ⟨rows ++ rows', by rw [hrows', hrows, List.append_assoc], List.rel_append hfor hfor'⟩
  libraries soname hsoname library hlibrary hne := by
    rcases List.mem_append.1 hsoname with hsoname | hsoname
    · exact h'.grows.visited library (h.libraries soname hsoname library hlibrary hne)
    · exact h'.libraries soname hsoname library hlibrary hne
  manual soname hsoname hnone decision hdecision haction := by
    rcases List.mem_append.1 hsoname with hsoname | hsoname
    · exact h'.grows.depends _ (h.manual soname hsoname hnone decision hdecision haction)
    · exact h'.manual soname hsoname hnone decision hdecision haction

/-- A row for a library that is not bundled, with the relation of a manual decision. -/
theorem Handled.single (relations : List String) (hf : f ∈ s.visited) (hbundled : bundled staging f I soname = .ok "")
    (hrow : RowFor staging f I soname row) (hread : ∀ relation ∈ relations, (dependency relation).isSome)
    (hmanual : ∀ decision, decisionFor staging soname = some decision → decision.action = "manual" →
      decision.relation ∈ relations) :
    Handled staging f I [soname] s (({ s with depends := relations ++ s.depends } : Walked).note row) where
  grows := by
    have hpropose : Grows staging [f] (Below staging f) s { s with depends := relations ++ s.depends } := Grows.propose hread
    exact hpropose.trans (Grows.note hrow.requester hf) fun g hg => List.mem_singleton.1 hg ▸ hf
  rows := ⟨[row], rowsOf_note_self hrow.requester, .cons hrow .nil⟩
  libraries soname' hsoname library hlibrary hne := by
    rw [List.mem_singleton.1 hsoname, hbundled, Except.ok.injEq] at hlibrary
    exact absurd hlibrary.symm hne
  manual soname' hsoname _ decision hdecision haction := by
    rw [List.mem_singleton.1 hsoname] at hdecision
    exact List.mem_append_left _ (hmanual decision hdecision haction)

theorem resolveExternal_eq_ok (h : resolveExternal staging f parsed s soname = .ok s') :
    ∃ path package relation metadata,
      s' = s.note ⟨f, soname, path, "resolved_external", package, relation, metadata, ""⟩ := by
  simp only [resolveExternal, bind_eq_ok, pure_eq_ok, Prod.exists] at h
  obtain ⟨_, metadata, path, -, _, -, _, -, _, -, _, -, _, -, relation, -, rfl⟩ := h
  exact ⟨path, _, relation, metadata, rfl⟩

theorem Handled.external (hf : f ∈ s.visited) (hbundled : bundled staging f I soname = .ok "")
    (haction : ∀ decision, decisionFor staging soname = some decision → decision.action ≠ "manual")
    (h : resolveExternal staging f parsed s soname = .ok s') : Handled staging f I [soname] s s' := by
  obtain ⟨path, package, relation, metadata, rfl⟩ := resolveExternal_eq_ok h
  have hrow : RowFor staging f I soname ⟨f, soname, path, "resolved_external", package, relation, metadata, ""⟩ :=
    .external hbundled
  exact Handled.single [] hf hbundled hrow (fun _ hmem => absurd hmem List.not_mem_nil)
    fun decision hdecision hmanual => absurd hmanual (haction decision hdecision)

/-- One library of a file: it gets its row, and the walk below it is done. -/
theorem resolveNeeded_handled (hdescend : Descends staging descend) (hwalking : Walking s) (hf : f ∈ s.visited)
    (hfresh : Fresh staging f I) (hkind : I.kind = .elf) (hmem : soname ∈ I.needed)
    (hlocal : bundled staging f I soname = .ok ((locals.lookup soname).getD ""))
    (h : resolveNeeded staging descend f parsed locals s soname = .ok s') : Handled staging f I [soname] s s' := by
  simp only [resolveNeeded, bind_eq_ok, refuse_eq_ok] at h
  obtain ⟨_, -, h⟩ := h
  generalize (locals.lookup soname).getD "" = library at hlocal h
  by_cases hlibrary : library = ""
  · subst hlibrary
    rw [if_neg (not_not.2 rfl)] at h
    cases hdecision : decisionFor staging soname with
    | none =>
        rw [hdecision] at h
        exact Handled.external hf hlocal (fun decision heq => by cases hdecision.symm.trans heq) h
    | some decision =>
        simp only [hdecision] at h
        by_cases hignore : decision.action = "ignore"
        · rw [if_pos hignore, pure_eq_ok] at h
          subst h
          apply Handled.single [] hf hlocal (RowFor.ignored hlocal hdecision hignore)
          · exact fun _ hmem => absurd hmem List.not_mem_nil
          · intro other heq hmanual
            rw [hdecision, Option.some.injEq] at heq
            rw [← heq, hignore] at hmanual
            exact absurd hmanual (by decide)
        · rw [if_neg hignore] at h
          by_cases hmanual : decision.action = "manual"
          · rw [if_pos hmanual] at h
            simp only [bind_eq_ok, demand_eq_ok, pure_eq_ok, Prod.exists] at h
            obtain ⟨package, bound, hread, rfl⟩ := h
            apply Handled.single [decision.relation] hf hlocal (RowFor.manual hlocal hdecision hmanual hread)
            · intro relation hrelation
              rw [List.mem_singleton.1 hrelation, hread]
              rfl
            · intro other heq _
              rw [hdecision, Option.some.injEq] at heq
              exact List.mem_singleton.2 (heq ▸ rfl)
          · rw [if_neg hmanual] at h
            refine Handled.external hf hlocal (fun other heq hother => ?_) h
            rw [hdecision, Option.some.injEq] at heq
            exact hmanual (heq ▸ hother)
  · rw [if_pos hlibrary] at h
    simp only [bind_eq_ok, refuse_eq_ok, mapError_eq_ok] at h
    obtain ⟨_, -, file, -, child, -, _, -, hbelow⟩ := h
    have hrow : RowFor staging f I soname ⟨f, soname, library, "bundled", "", "", "", ""⟩ := .bundled hlocal hlibrary
    have hedge : Edge staging f library := ⟨I, soname, hfresh, hkind, hmem, hlocal, hlibrary⟩
    have hnoted : Walking (s.note ⟨f, soname, library, "bundled", "", "", "", ""⟩) := hwalking.note hf
    obtain ⟨hgrows, hvisited⟩ := hdescend _ _ _ _ hnoted hbelow
    constructor
    · have hnote : Grows staging [f] (Below staging f) s (s.note ⟨f, soname, library, "bundled", "", "", "", ""⟩) :=
        Grows.note rfl hf
      exact hnote.trans (hgrows.mono fun g hg => Relation.ReflTransGen.head hedge hg) fun g hg => List.mem_singleton.1 hg ▸ hf
    · refine ⟨_, ?_, .cons hrow .nil⟩
      rw [hgrows.rows f hf List.not_mem_nil]
      exact rowsOf_note_self rfl
    · intro soname' hsoname library' hlibrary' _
      rw [List.mem_singleton.1 hsoname, hlocal, Except.ok.injEq] at hlibrary'
      exact hlibrary' ▸ hvisited
    · intro soname' hsoname hnone
      rw [List.mem_singleton.1 hsoname, hlocal, Except.ok.injEq] at hnone
      exact absurd hnone hlibrary

theorem handled_foldlM (hdescend : Descends staging descend) (hwalking : Walking s) (hf : f ∈ s.visited)
    (hfresh : Fresh staging f I) (hkind : I.kind = .elf) (hmem : ∀ soname ∈ sonames, soname ∈ I.needed)
    (hlocal : ∀ soname ∈ sonames, bundled staging f I soname = .ok ((locals.lookup soname).getD ""))
    (h : sonames.foldlM (resolveNeeded staging descend f parsed locals) s = .ok s') :
    Handled staging f I sonames s s' := by
  induction sonames generalizing s with
  | nil =>
      rw [List.foldlM_nil, pure_eq_ok] at h
      exact h ▸ Handled.nil s
  | cons soname sonames ih =>
      rw [List.foldlM_cons, bind_eq_ok] at h
      obtain ⟨next, hnext, hrest⟩ := h
      obtain ⟨hmem, hmems⟩ := List.forall_mem_cons.1 hmem
      obtain ⟨hlocal, hlocals⟩ := List.forall_mem_cons.1 hlocal
      have hfirst := resolveNeeded_handled hdescend hwalking hf hfresh hkind hmem hlocal hnext
      have hothers := ih (hfirst.grows.walking hwalking) (hfirst.grows.visited f hf) hmems hlocals hrest
      exact hfirst.append hothers hf

/-! ## One file -/

theorem lookup_locals
    (h : sonames.mapM (fun soname => do
      let selected ← bundled staging f I soname
      pure (soname, selected)) = .ok locals) (hmem : soname ∈ sonames) :
    bundled staging f I soname = .ok ((locals.lookup soname).getD "") := by
  have hall := mapM_eq_ok.1 h
  clear h
  induction hall with
  | nil => exact absurd hmem List.not_mem_nil
  | @cons first pair sonames locals hpair _ ih =>
      simp only [bind_eq_ok, pure_eq_ok] at hpair
      obtain ⟨selected, hselected, rfl⟩ := hpair
      by_cases heq : soname = first
      · subst heq
        simpa using hselected
      · rw [List.lookup_cons, beq_eq_false_iff_ne.2 heq]
        exact ih ((List.mem_cons.1 hmem).resolve_left heq)

theorem resolveFile_handled (hdescend : Descends staging descend) (hwalking : Walking s) (hf : f ∈ s.visited)
    (hfresh : Fresh staging f I) (hkind : I.kind = .elf) (h : resolveFile staging descend f I s = .ok s') :
    Handled staging f I I.needed s s' ∧ ∀ relation, Proposed staging f I relation → relation ∈ s'.depends := by
  simp only [resolveFile, bind_eq_ok, refuse_eq_ok] at h
  obtain ⟨_, -, locals, hlocals, parsed, hparsed, _, -, hloop⟩ := h
  have hlocal : ∀ soname ∈ I.needed, bundled staging f I soname = .ok ((locals.lookup soname).getD "") :=
    fun soname hmem => lookup_locals hlocals hmem
  have hexternal : (I.needed.filter fun soname =>
      (locals.lookup soname).getD "" = "" ∧ decisionFor staging soname = none) = externalOf staging f I := by
    apply List.filter_congr
    intro soname hmem
    simp [hlocal soname hmem, Except.toOption]
  rw [hexternal] at hparsed
  have hread : ∀ relation ∈ parsed.depends, (dependency relation).isSome := by
    intro relation hrelation
    rw [proposalFor] at hparsed
    split at hparsed
    · exact isSome_of_mem_proposed (mapError_eq_ok.1 hparsed) hrelation
    · rw [pure_eq_ok] at hparsed
      rw [← hparsed] at hrelation
      exact absurd hrelation List.not_mem_nil
  have hpropose : Grows staging [f] (Below staging f) s { s with depends := parsed.depends ++ s.depends } :=
    Grows.propose hread
  have hhandled := handled_foldlM hdescend (hpropose.walking hwalking) hf hfresh hkind (fun _ hmem => hmem) hlocal hloop
  constructor
  · constructor
    · exact hpropose.trans hhandled.grows fun g hg => List.mem_singleton.1 hg ▸ hf
    · exact hhandled.rows
    · exact hhandled.libraries
    · exact hhandled.manual
  · intro relation hproposed
    cases hproposed with
    | resolver _ hdynamic hone hrelation =>
        rw [proposalFor, if_pos hdynamic, mapError_eq_ok, hone, Except.ok.injEq] at hparsed
        exact hhandled.grows.depends relation (List.mem_append_left _ (hparsed ▸ hrelation))
    | manual hmem hnone hdecision haction => exact hhandled.manual _ hmem hnone _ hdecision haction

/-- A file that is no ELF file needs no library. -/
theorem explained_of_plain (hwalking : Walking s) (hf : f ∉ s.visited) (hfresh : Fresh staging f I) (hkind : I.kind ≠ .elf)
    (hrows : s'.rows = s.rows) : Explained staging s' f := by
  have hneeded := hfresh.needed_eq_nil hkind
  refine ⟨I, hfresh, ?_, ?_, ?_⟩
  · rw [rowsOf, hrows, ← rowsOf, hwalking.rowsOf_eq_nil hf, hneeded]
    exact .nil
  · rw [hneeded]
    exact fun _ h => absurd h List.not_mem_nil
  · intro relation hproposed
    cases hproposed with
    | resolver helf => exact absurd helf hkind
    | manual hmem =>
        rw [hneeded] at hmem
        exact absurd hmem List.not_mem_nil

/-- A file that is visited and done with. -/
theorem visit_grows (hf : f ∉ s.visited)
    (hexplained : Explained staging { s with visited := f :: s.visited } f) :
    Grows staging [] (Below staging f) s { s with visited := f :: s.visited } where
  visited _ hg := List.mem_cons_of_mem _ hg
  active := rfl
  depends _ hrelation := hrelation
  rows _ _ _ := rfl
  walking hwalking := ⟨fun row hrow => List.mem_cons_of_mem _ (hwalking.rows row hrow),
    fun g hg => List.mem_cons_of_mem _ (hwalking.active g hg)⟩
  explained g hg hnot := by
    rcases List.mem_cons.1 hg with rfl | hg
    · exact hexplained
    · exact absurd hg hnot
  reached g hg hnot := by
    rcases List.mem_cons.1 hg with rfl | hg
    · exact Relation.ReflTransGen.refl
    · exact absurd hg hnot
  readable hreadable := hreadable

/-- The state in which the libraries of a file are explained. -/
def Walked.start (s : Walked) (f : String) : Walked := ⟨s.rows, s.depends, f :: s.visited, f :: s.active⟩

theorem Walking.start (h : Walking s) (f : String) : Walking (s.start f) where
  rows row hrow := List.mem_cons_of_mem _ (h.rows row hrow)
  active g hg := by
    rcases List.mem_cons.1 hg with rfl | hg
    · exact List.mem_cons_self
    · exact List.mem_cons_of_mem _ (h.active g hg)

/-- A file whose libraries have been explained is done with. -/
theorem finish_grows (hwalking : Walking s) (hf : f ∉ s.visited) (hfresh : Fresh staging f I)
    (h : Handled staging f I I.needed (s.start f) s') (hproposed : ∀ relation, Proposed staging f I relation → relation ∈ s'.depends) :
    Grows staging [] (Below staging f) s { s' with active := s'.active.erase f } where
  visited g hg := h.grows.visited g (List.mem_cons_of_mem _ hg)
  active := by
    have hactive : s'.active = f :: s.active := h.grows.active
    simp [hactive]
  depends := h.grows.depends
  rows g hg _ := h.grows.rows g (List.mem_cons_of_mem _ hg) fun hmem => hf (List.mem_singleton.1 hmem ▸ hg)
  walking _ := by
    have hlast := h.grows.walking (hwalking.start f)
    exact ⟨hlast.rows, fun g hg => hlast.active g (List.mem_of_mem_erase hg)⟩
  explained g hg hnot := by
    by_cases heq : g = f
    · subst heq
      obtain ⟨rows, hrows, hfor⟩ := h.rows
      have hnone : rowsOf (s.start g) g = [] := hwalking.rowsOf_eq_nil hf
      rw [hnone, List.nil_append] at hrows
      exact ⟨I, hfresh, hrows ▸ hfor, h.libraries, hproposed⟩
    · exact h.grows.explained g hg fun hmem => (List.mem_cons.1 hmem).elim heq hnot
  reached g hg hnot := by
    by_cases heq : g = f
    · exact heq ▸ Relation.ReflTransGen.refl
    · exact h.grows.reached g hg fun hmem => (List.mem_cons.1 hmem).elim heq hnot
  readable := h.grows.readable

/-- What the visit of a new file adds. -/
theorem visit_grows_of_descends (hdescend : Descends staging descend) (hwalking : Walking s) (hnew : f ∉ s.visited)
    (h : visit staging descend s f I = .ok s') :
    Grows staging [] (Below staging f) s s' ∧ f ∈ s'.visited ∧ Fresh staging f I := by
  simp only [visit, bind_eq_ok, refuse_eq_ok, mapError_eq_ok, not_not] at h
  obtain ⟨_, -, file, hfile, verified, hverified, _, rfl, h⟩ := h
  have hfresh : Fresh staging f verified := ⟨file, hfile, inspectElf_none hverified⟩
  by_cases hplain : verified.kind = .notElf
  · rw [if_pos hplain, pure_eq_ok] at h
    subst h
    have hkind : verified.kind ≠ .elf := by
      rw [hplain]
      rintro ⟨⟩
    exact ⟨visit_grows hnew (explained_of_plain hwalking hnew hfresh hkind rfl), List.mem_cons_self, hfresh⟩
  · rw [if_neg hplain] at h
    simp only [bind_eq_ok, refuse_eq_ok, pure_eq_ok, not_not] at h
    obtain ⟨_, hkind, _, -, last, hlast, rfl⟩ := h
    obtain ⟨hhandled, hproposed⟩ : Handled staging f verified verified.needed (s.start f) last ∧ _ :=
      resolveFile_handled hdescend (hwalking.start f) List.mem_cons_self hfresh hkind hlast
    have hvisited : f ∈ last.visited := hhandled.grows.visited f List.mem_cons_self
    exact ⟨finish_grows hwalking hnew hfresh hhandled hproposed, hvisited, hfresh⟩

/-- What one walk adds: the file is visited, and all that is new is explained and below it. -/
theorem walk_grows (left : Nat) (hwalking : Walking s) (h : walk staging left s f I = .ok s') :
    Grows staging [] (Below staging f) s s' ∧ f ∈ s'.visited ∧ (f ∉ s.visited → Fresh staging f I) := by
  induction left generalizing s s' f I with
  | zero =>
      rw [walk, bind_eq_ok] at h
      obtain ⟨canonical, hrelative, h⟩ := h
      obtain ⟨rfl, -⟩ := relative_eq_ok hrelative
      by_cases hseen : canonical ∈ s.active ∨ canonical ∈ s.visited
      · rw [if_pos hseen, pure_eq_ok] at h
        have hvisited : canonical ∈ s.visited := hseen.elim (hwalking.active canonical) id
        exact h ▸ ⟨Grows.refl s, hvisited, fun hnot => absurd hvisited hnot⟩
      · rw [if_neg hseen] at h
        exact nomatch h
  | succ left ih =>
      rw [walk, bind_eq_ok] at h
      obtain ⟨canonical, hrelative, h⟩ := h
      obtain ⟨rfl, -⟩ := relative_eq_ok hrelative
      by_cases hseen : canonical ∈ s.active ∨ canonical ∈ s.visited
      · rw [if_pos hseen, pure_eq_ok] at h
        have hvisited : canonical ∈ s.visited := hseen.elim (hwalking.active canonical) id
        exact h ▸ ⟨Grows.refl s, hvisited, fun hnot => absurd hvisited hnot⟩
      · rw [if_neg hseen] at h
        have hdescend : Descends staging (walk staging left) := fun s s' library child hs hwalk =>
          ⟨(ih hs hwalk).1, (ih hs hwalk).2.1⟩
        obtain ⟨hgrows, hvisited, hfresh⟩ := visit_grows_of_descends hdescend hwalking (fun hmem => hseen (.inr hmem)) h
        exact ⟨hgrows, hvisited, fun _ => hfresh⟩

/-! ## All entrypoints -/

def walkEntry (staging : Staging α) (state : Walked) (entry : String × Inspection) : Except Failure Walked :=
  walk staging (maxDepth + 1) state entry.1 entry.2

/-- The state after some of the entrypoints. -/
structure Entered (staging : Staging α) (entries : List (String × Inspection)) (s : Walked) : Prop where
  walking : Walking s
  explained : ∀ g ∈ s.visited, Explained staging s g
  reached : ∀ g ∈ s.visited, ∃ entry ∈ entries, Below staging entry.1 g
  entered : ∀ entry ∈ entries, entry.1 ∈ s.visited
  fresh : ∀ before entry after, entries = before ++ entry :: after →
    Fresh staging entry.1 entry.2 ∨ ∃ earlier ∈ before, Below staging earlier.1 entry.1
  readable : ∀ relation ∈ s.depends, (dependency relation).isSome

variable {entries : List (String × Inspection)} {entry : String × Inspection}

theorem Entered.nil : Entered staging [] ⟨[], [], [], []⟩ where
  walking := ⟨fun _ h => absurd h List.not_mem_nil, fun _ h => absurd h List.not_mem_nil⟩
  explained _ h := absurd h List.not_mem_nil
  reached _ h := absurd h List.not_mem_nil
  entered _ h := absurd h List.not_mem_nil
  fresh before entry after h := by simp at h
  readable _ h := absurd h List.not_mem_nil

theorem Entered.step (h : Entered staging entries s) (hwalk : walkEntry staging s entry = .ok s') :
    Entered staging (entries ++ [entry]) s' := by
  obtain ⟨hgrows, hvisited, hfresh⟩ := walk_grows _ h.walking hwalk
  constructor
  · exact hgrows.walking h.walking
  · intro g hg
    by_cases hold : g ∈ s.visited
    · exact hgrows.keep hold List.not_mem_nil (h.explained g hold)
    · exact hgrows.explained g hg hold
  · intro g hg
    by_cases hold : g ∈ s.visited
    · obtain ⟨earlier, hmem, hbelow⟩ := h.reached g hold
      exact ⟨earlier, List.mem_append_left _ hmem, hbelow⟩
    · exact ⟨entry, by simp, hgrows.reached g hg hold⟩
  · intro other hmem
    rcases List.mem_append.1 hmem with hmem | hmem
    · exact hgrows.visited _ (h.entered other hmem)
    · exact List.mem_singleton.1 hmem ▸ hvisited
  · intro before other after heq
    rcases List.eq_nil_or_concat after with rfl | ⟨after, last, rfl⟩
    · obtain ⟨rfl, hlast⟩ := List.append_inj' heq rfl
      obtain rfl : entry = other := by simpa using hlast
      by_cases hold : entry.1 ∈ s.visited
      · exact .inr (h.reached entry.1 hold)
      · exact .inl (hfresh hold)
    · rw [List.concat_eq_append, ← List.cons_append, ← List.append_assoc] at heq
      exact h.fresh before other after (List.append_inj' heq rfl).1
  · exact hgrows.readable h.readable

theorem Entered.run {rest : List (String × Inspection)} (h : Entered staging entries s)
    (hrun : rest.foldlM (walkEntry staging) s = .ok s') : Entered staging (entries ++ rest) s' := by
  induction rest generalizing entries s with
  | nil =>
      rw [List.foldlM_nil, pure_eq_ok] at hrun
      rwa [List.append_nil, ← hrun]
  | cons entry rest ih =>
      rw [List.foldlM_cons, bind_eq_ok] at hrun
      obtain ⟨next, hnext, hrest⟩ := hrun
      have hall := ih (h.step hnext) hrest
      rwa [List.append_assoc] at hall

/-- What is below a visited file is visited. -/
theorem Entered.below (h : Entered staging entries s) (hg : g ∈ s.visited) (hbelow : Below staging g f) : f ∈ s.visited := by
  induction hbelow with
  | refl => exact hg
  | tail _ hedge ih =>
      obtain ⟨inspection, soname, hfresh, -, hmem, hbundled, hne⟩ := hedge
      obtain ⟨I, hfresh', -, hlibraries, -⟩ := h.explained _ ih
      obtain rfl := hfresh.unique hfresh'
      exact hlibraries soname hmem _ hbundled hne

/-- An entrypoint that an earlier one bundles, directly or through other libraries, is supplied as it is. -/
def Supplied (staging : Staging α) (entrypoints : Dict String Inspection) : Prop :=
  ∀ f I, entrypoints.lookup f = some I → (∃ earlier ∈ entrypoints, earlier < f ∧ Below staging earlier f) → Fresh staging f I

variable {entrypoints : Dict String Inspection}

theorem mem_sortedItems : entry ∈ sortedItems entrypoints ↔ entrypoints.lookup entry.1 = some entry.2 := by
  simp only [sortedItems, List.mem_filterMap, Option.map_eq_some_iff, mem_sorted]
  constructor
  · rintro ⟨installed, -, inspection, hlookup, rfl⟩
    exact hlookup
  · intro hlookup
    exact ⟨entry.1, List.mem_map_of_mem (Dict.mem_items.2 hlookup : entry ∈ entrypoints.items), entry.2, hlookup, rfl⟩

theorem pairwise_sortedItems (entrypoints : Dict String Inspection) :
    (sortedItems entrypoints).Pairwise fun a b => a.1 < b.1 := by
  apply List.Pairwise.filterMap _ _ (pairwise_sorted _)
  intro a b hlt e he e' he'
  obtain ⟨_, -, rfl⟩ := Option.map_eq_some_iff.1 he
  obtain ⟨_, -, rfl⟩ := Option.map_eq_some_iff.1 he'
  exact hlt

theorem Entered.forall_fresh_iff (h : Entered staging (sortedItems entrypoints) s) :
    (∀ f I, entrypoints.lookup f = some I → Fresh staging f I) ↔ Supplied staging entrypoints := by
  constructor
  · intro hall f I hlookup _
    exact hall f I hlookup
  · intro hsupplied f I hlookup
    have hmem : (f, I) ∈ sortedItems entrypoints := mem_sortedItems.2 hlookup
    obtain ⟨before, after, heq⟩ := List.append_of_mem hmem
    rcases h.fresh before (f, I) after heq with hfresh | ⟨earlier, hearlier, hbelow⟩
    · exact hfresh
    · have hpairwise := pairwise_sortedItems entrypoints
      rw [heq, List.pairwise_append] at hpairwise
      have hlt : earlier.1 < f := hpairwise.2.2 earlier hearlier (f, I) List.mem_cons_self
      have hkey : earlier.1 ∈ entrypoints := by
        rw [← AList.lookup_isSome, mem_sortedItems.1 (heq ▸ List.mem_append_left _ hearlier)]
        rfl
      exact hsupplied f I hlookup ⟨earlier.1, hkey, hlt, hbelow⟩

/-- Every supplied inspection is the one of the staged file, every library that an entrypoint or a library below it
needs has one row of that file, every decision is used, and the dependencies imply what was proposed. -/
structure Complete (staging : Staging α) (order : TotalPreorder String) (entrypoints : Dict String Inspection)
    (result : Resolution) : Prop where
  fresh : ∀ f I, entrypoints.lookup f = some I → Fresh staging f I
  explained : ∀ entry ∈ entrypoints, ∀ f, Below staging entry f → ∃ I, Fresh staging f I ∧
    List.Forall₂ (RowFor staging f I) I.needed (result.requirements.filter fun row => row.requester = f)
  used : ∀ decision ∈ staging.decisions, ∃ row ∈ result.requirements, row.soname = decision.soname
  implied : ∀ entry ∈ entrypoints, ∀ f I relation, Below staging entry f → Fresh staging f I → Proposed staging f I relation →
    ∀ installed, (∀ r ∈ result.depends, Satisfies order installed r) → Satisfies order installed relation

variable {order : TotalPreorder String} {environment : Environment}

/-- What the merged dependencies imply. -/
theorem satisfies_of_mergeDepends {relations merged : List String} (hcompares : Compares environment order)
    (hread : ∀ r ∈ relations, (dependency r).isSome) (h : mergeDepends environment relations = .ok merged)
    {installed : Set (String × String)} (hmerged : ∀ r ∈ merged, Satisfies order installed r) :
    ∀ r ∈ relations, Satisfies order installed r := by
  obtain ⟨selected, hrun, rfl⟩ := mergeDepends_eq_ok h
  have hdone := Merged.nil.run hcompares hrun
  rw [List.nil_append] at hdone
  have hall := (hdone.forall_satisfies_iff (fun r hr => hread r (mem_sorted.1 hr)) installed).1 hmerged
  exact fun r hr => hall r (mem_sorted.2 hr)

theorem Entered.complete_iff {result : Resolution} {merged : List String} (hcompares : Compares environment order)
    (h : Entered staging (sortedItems entrypoints) s)
    (hused : ∀ row ∈ staging.decisions, row.soname ∈ s.rows.map (·.soname))
    (hmerged : mergeDepends environment s.depends = .ok merged) (hrows : result.requirements = s.rows)
    (hdepends : result.depends = merged) : Complete staging order entrypoints result ↔ Supplied staging entrypoints := by
  have hentered : ∀ entry ∈ entrypoints, entry ∈ s.visited := by
    intro entry hentry
    obtain ⟨I, hI⟩ := Option.isSome_iff_exists.1 (AList.lookup_isSome.2 hentry)
    exact h.entered (entry, I) (mem_sortedItems.2 hI)
  constructor
  · exact fun hcomplete => h.forall_fresh_iff.1 hcomplete.fresh
  · intro hsupplied
    refine ⟨h.forall_fresh_iff.2 hsupplied, ?_, ?_, ?_⟩
    · intro entry hentry f hbelow
      obtain ⟨I, hfresh, hfor, -⟩ := h.explained f (h.below (hentered entry hentry) hbelow)
      exact ⟨I, hfresh, hrows ▸ hfor⟩
    · intro decision hdecision
      obtain ⟨row, hrow, heq⟩ := List.mem_map.1 (hused decision hdecision)
      exact ⟨row, hrows ▸ hrow, heq⟩
    · intro entry hentry f I relation hbelow hfresh hproposed installed hall
      obtain ⟨I', hfresh', -, -, hdepended⟩ := h.explained f (h.below (hentered entry hentry) hbelow)
      obtain rfl := hfresh.unique hfresh'
      rw [hdepends] at hall
      exact satisfies_of_mergeDepends hcompares h.readable hmerged hall relation (hdepended relation hproposed)

/-- A successful resolution is complete when what was supplied for the entrypoints that earlier ones bundle is as it is. -/
theorem resolve_complete_iff {host : FileTree α} {inspector : Inspector} {stagingRoot : List String}
    {distribution architecture : String} {overrides : List Json} {result : Resolution}
    (hcompares : Compares environment order)
    (h : resolveElfDependencies host inspector stagingRoot entrypoints distribution architecture (some environment)
      overrides = .ok result) (hsuccess : result.status = "success") :
    ∃ staging : Staging α, staging.host = host ∧ staging.inspector = inspector ∧ staging.environment = environment ∧
      stagingRootOf host environment stagingRoot = .ok staging.root ∧ readDecisions overrides = .ok staging.decisions ∧
      (Complete staging order entrypoints result ↔ Supplied staging entrypoints) := by
  rw [resolveElfDependencies] at h
  split at h
  · rw [Except.ok.injEq] at h
    rw [← h] at hsuccess
    exact absurd hsuccess (show "unsupported" ≠ "success" by decide)
  · simp only [bind_eq_ok, demand_eq_ok, refuse_eq_ok, pure_eq_ok, Option.some.injEq] at h
    obtain ⟨_, rfl, decisions, hdecisions, root, hroot, _, -, _, -, walked, hwalked, _, hused, merged, hmerged, rfl⟩ := h
    refine ⟨⟨host, root, inspector, environment, decisions⟩, rfl, rfl, rfl, hroot, hdecisions, ?_⟩
    have hentered : Entered ⟨host, root, inspector, environment, decisions⟩ ([] ++ sortedItems entrypoints) walked :=
      Entered.nil.run hwalked
    rw [List.nil_append] at hentered
    refine hentered.complete_iff hcompares ?_ hmerged rfl rfl
    intro row hrow
    by_contra hmissing
    exact hused ⟨row, hrow, hmissing⟩

/-! ## An application that bundles a library -/

/-- The target system, without libraries of its own. -/
def bookworm : Environment where
  execute
    | ["cat", _] => ⟨"VERSION_CODENAME=bookworm", "", false, some 0⟩
    | ["dpkg", "--print-architecture"] => ⟨"amd64", "", false, some 0⟩
    | ["dpkg", "--compare-versions", version, _, old] =>
        ⟨"", "", false, some (if old.length < version.length then 0 else 1)⟩
    | _ => ⟨"", "", false, some 0⟩
  filteredInstalled := []
  mountedRoot := none

theorem compares_bookworm : Compares bookworm lengthOrder := by
  intro version old newer hnewer
  have hanswer : bookworm.execute ["dpkg", "--compare-versions", version, "gt", old] =
      ⟨"", "", false, some (if old.length < version.length then 0 else 1)⟩ := rfl
  simp only [isNewer, hanswer, bind_eq_ok, pure_eq_ok] at hnewer
  obtain ⟨_, -, rfl⟩ := hnewer
  by_cases h : old.length < version.length <;> simp [h, lengthOrder]

/-- `/opt/app` needs the library next to it. -/
def appTree : FileTree Nat :=
  FileTree.ofEntries [(["stage"], .directory), (["stage", "DEBIAN"], .directory),
    (["stage", "DEBIAN", "control"], .file 0), (["stage", "opt"], .directory), (["stage", "opt", "app"], .file 1),
    (["stage", "opt", "libx.so.1"], .file 2)] (by decide +kernel)

/-- An inspection of a shared object whose digest is a digit 64 times. -/
def sharedObject (digit : Char) (soname : String) (needed runpath : List String) : Inspection where
  kind := .elf
  sha256 := String.ofList (List.replicate 64 digit)
  size := 16
  debianArchitecture := "amd64"
  linkage := some .dynamic
  soname
  needed
  runpath

def appInspection : Inspection := sharedObject 'a' "" ["libx.so.1"] ["$ORIGIN"]

def libraryInspection : Inspection := sharedObject 'b' "libx.so.1" [] []

def appInspector : Inspector where
  describe path := .ok (if path = ["stage", "opt", "app"] then appInspection else libraryInspection)
  digest path := .ok (if path = ["stage", "opt", "app"] then appInspection.sha256 else libraryInspection.sha256)
  plain path inspection h hkind := by
    rw [Except.ok.injEq] at h
    split at h <;> exact absurd (h ▸ rfl) hkind

def resolveApp (entrypoints : Dict String Inspection) : Except Failure Resolution :=
  resolveElfDependencies appTree appInspector ["stage"] entrypoints "bookworm" "amd64" (some bookworm) []

/-- The application alone. -/
def appEntrypoints : Dict String Inspection := (∅ : Dict String Inspection).set "/opt/app" appInspection

/-- The application, and its library with an inspection of other bytes. -/
def staleEntrypoints : Dict String Inspection := appEntrypoints.set "/opt/libx.so.1" (sharedObject 'c' "libx.so.1" [] [])

theorem resolveApp_success : (resolveApp appEntrypoints).toOption.map (·.status) = some "success" := by
  decide +kernel

theorem resolveApp_stale : (resolveApp staleEntrypoints).toOption.map (·.status) = some "success" := by
  decide +kernel

theorem resolve_complete_iff_app :
    ∃ result, resolveApp appEntrypoints = .ok result ∧ ∃ staging : Staging Nat, staging.host = appTree ∧
      Complete staging lengthOrder appEntrypoints result := by
  obtain ⟨result, hresult⟩ : ∃ result, resolveApp appEntrypoints = .ok result := by
    cases h : resolveApp appEntrypoints with
    | ok result => exact ⟨result, rfl⟩
    | error failure => exact nomatch h ▸ resolveApp_success
  have hsuccess := resolveApp_success
  rw [hresult] at hsuccess
  obtain ⟨staging, hhost, -, -, -, -, hcomplete⟩ :=
    resolve_complete_iff compares_bookworm hresult (Option.some.inj hsuccess)
  have honly : ∀ key ∈ appEntrypoints, key = "/opt/app" := by
    intro key hkey
    exact (Dict.mem_set.1 hkey).resolve_right (AList.notMem_empty key)
  refine ⟨result, hresult, staging, hhost, hcomplete.2 ?_⟩
  rintro f I hlookup ⟨earlier, hearlier, hlt, -⟩
  have hf : f ∈ appEntrypoints := AList.lookup_isSome.1 (hlookup ▸ rfl)
  rw [honly f hf, honly earlier hearlier] at hlt
  exact absurd hlt (lt_irrefl _)

/-- What is supplied for a library is not compared when the application has been walked before. -/
theorem resolve_stale : ¬ ∀ (entrypoints : Dict String Inspection) (result : Resolution),
    resolveApp entrypoints = .ok result → result.status = "success" →
      ∀ staging : Staging Nat, staging.host = appTree → staging.inspector = appInspector → staging.root = ["stage"] →
        Complete staging lengthOrder entrypoints result := by
  intro hall
  obtain ⟨result, hresult, hsuccess⟩ : ∃ result, resolveApp staleEntrypoints = .ok result ∧ result.status = "success" := by
    cases h : resolveApp staleEntrypoints with
    | ok result =>
        have hstatus := resolveApp_stale
        rw [h] at hstatus
        exact ⟨result, rfl, Option.some.inj hstatus⟩
    | error failure => exact nomatch h ▸ resolveApp_stale
  have hcomplete := hall _ result hresult hsuccess ⟨appTree, ["stage"], appInspector, bookworm, []⟩ rfl rfl rfl
  obtain ⟨file, hfile, hinspect⟩ := hcomplete.fresh "/opt/libx.so.1" _ (by rw [staleEntrypoints, Dict.lookup_set, if_pos rfl])
  have hfresh : (inspectElf appInspector file none).toOption.map (·.sha256) = some (sharedObject 'c' "" [] []).sha256 :=
    congrArg (fun answer => answer.toOption.map (·.sha256)) hinspect
  have hactual : staged appTree ["stage"] "/opt/libx.so.1" = .ok ["stage", "opt", "libx.so.1"] := by decide +kernel
  rw [hactual, Except.ok.injEq] at hfile
  subst hfile
  exact absurd hfresh (by decide +kernel)

end DebBuilder.Elf
