import Mathlib
import DebBuilder.Source.Changes

/-!
# What a source change changes

A text change is meant to replace the one place at which its search text stands, and to
leave every other byte of the file.  The search counts places that do not overlap, and the
file goes through a text stream that turns every line end into a line feed.

## Main definitions

* `TextEdit` — a text change of a file that holds text.
* `Exact` — the change does what it is meant to do.
* `Plain` — no place overlaps with all others, and no carriage return is in the way.
* `Meant` — what a list of changes is meant to do.

## Main statements

* `source_changes_exact` — text changes are exact when they are plain.
-/

namespace DebBuilder.Source
open Lib Function

/-! ## Text -/

theorem encode_append (a b : List Char) : encode (a ++ b) = encode a ++ encode b := by
  simp [encode]

theorem decode_encode (text : List Char) : decode (encode text) = some text := by
  simp [decode, encode]

theorem encode_injective {a b : List Char} (h : encode a = encode b) : a = b := by
  have hdecode := congrArg decode h
  rw [decode_encode, decode_encode] at hdecode
  exact Option.some.inj hdecode

theorem universalNewlines_eq_self {text : List Char} (h : '\r' ∉ text) : universalNewlines text = text := by
  fun_induction universalNewlines text with
  | case1 | case2 => simp at h
  | case3 c cs _ _ ih => rw [ih fun hmem => h (List.mem_cons_of_mem _ hmem)]
  | case4 => rfl

theorem not_mem_universalNewlines (text : List Char) : '\r' ∉ universalNewlines text := by
  fun_induction universalNewlines text with
  | case1 cs ih | case2 cs _ ih =>
      intro hmem
      rcases List.mem_cons.1 hmem with h | h
      · exact absurd h (by decide)
      · exact ih h
  | case3 c cs h1 h2 ih =>
      intro hmem
      rcases List.mem_cons.1 hmem with rfl | h
      · exact h2 rfl
      · exact ih h
  | case4 => exact nofun

/-! ## Text changes -/

/-- A text change of a file that is valid UTF-8. -/
structure TextEdit where
  tree : Tree
  change : Change
  index : Nat
  operation : Operation
  search : List Char
  target : List String
  text : List Char
  mode : Nat
  parsed : Operation.parse change.operation = some operation
  textual : operation ≠ .createFile ∧ operation ≠ .removeFile
  searched : change.search = some (String.ofList search)
  targeted : safeTarget tree change.path false = .ok target
  stored : tree target = some (.file (encode text) mode)
  parents : ∀ parent ∈ parentsOf target, tree parent = some .directory

namespace TextEdit

variable (edit : TextEdit)

/-- The text that takes the place of the search text. -/
def replacement : List Char := edit.operation.replacement edit.search edit.change.content.toList

/-- The tree in which the file holds another text. -/
def written (bytes : ByteArray) : Tree := update edit.tree edit.target (some (.file bytes (edit.mode % 0o1000)))

/-- The text as the stream reads it. -/
def read : List Char := universalNewlines edit.text

/-- The code finds one place. -/
def Found : Prop := edit.search ≠ [] ∧ Occurs edit.search edit.read ∧ ¬ OccursApart edit.search edit.read

theorem makeParents_eq : makeParents edit.tree edit.target = some edit.tree := by
  rw [makeParents, if_pos fun parent hmem => .inr (edit.parents parent hmem)]
  congr 1
  funext parts
  by_cases hmem : parts ∈ parentsOf edit.target
  · rw [if_pos hmem, edit.parents parts hmem]
  · rw [if_neg hmem]

theorem readText_eq : readText edit.tree edit.target edit.change.path = .ok (edit.read, edit.mode) := by
  simp only [readText, edit.stored, decode_encode, read]

theorem search_eq : (edit.change.search.getD "").toList = edit.search := by
  rw [edit.searched, Option.getD_some, String.toList_ofList]

/-- The outcome of the change before it is written. -/
theorem textChange_of_found (h : edit.Found) :
    textChange edit.tree edit.operation edit.change edit.target =
      .ok (Text.replaceFirst edit.search edit.replacement edit.read, edit.mode, 1) := by
  have hcount : Text.count edit.search edit.read = 1 := by
    have hzero := mt (Text.count_eq_zero h.1).1 (not_not.2 h.2.1)
    have hone := (Text.count_le_one h.1).2 h.2.2
    omega
  simp only [textChange, edit.search_eq, edit.readText_eq, refuse, if_neg h.1]
  simp only [Except.mapError, bind, Except.bind, hcount]
  rfl

theorem textChange_of_not_found (h : ¬ edit.Found) :
    ∃ error found, textChange edit.tree edit.operation edit.change edit.target = .error (error, found) := by
  by_cases hsearch : edit.search = []
  · simp only [textChange, edit.search_eq, refuse, if_pos hsearch]
    exact ⟨_, _, rfl⟩
  · by_cases hzero : Text.count edit.search edit.read = 0
    · simp only [textChange, edit.search_eq, edit.readText_eq, refuse, if_neg hsearch]
      simp only [Except.mapError, bind, Except.bind, if_pos hzero]
      exact ⟨_, _, rfl⟩
    · have hmany : Text.count edit.search edit.read > 1 := by
        by_contra hone
        refine h ⟨hsearch, ?_, (Text.count_le_one hsearch).1 (Nat.le_of_not_lt hone)⟩
        by_contra hoccurs
        exact hzero ((Text.count_eq_zero hsearch).2 hoccurs)
      simp only [textChange, edit.search_eq, edit.readText_eq, refuse, if_neg hsearch]
      simp only [Except.mapError, bind, Except.bind, if_neg hzero, if_pos hmany]
      exact ⟨_, _, rfl⟩

theorem applyChange_eq (fault : Bool) : applyChange fault edit.tree edit.change edit.index =
    match textChange edit.tree edit.operation edit.change edit.target with
    | .error (error, found) =>
        (.error (.change { error with
          index := some edit.index, details := some { detailsOf edit.change edit.index with found } }), edit.tree)
    | .ok (updated, mode, found) =>
        let (written, tree) := atomicWrite fault edit.tree edit.target updated (mode % 0o1000)
        (written.map fun _ => { detailsOf edit.change edit.index with found := some found }, tree) := by
  have hcreate : (edit.operation = .createFile) = False := eq_false edit.textual.1
  simp only [applyChange, edit.parsed, hcreate, decide_false, edit.targeted, applyTo]
  cases hoperation : edit.operation with
  | createFile => exact absurd hoperation edit.textual.1
  | removeFile => exact absurd hoperation edit.textual.2
  | replace | insertBefore | insertAfter | remove => rfl

theorem applyChange_of_found (h : edit.Found) (fault : Bool) :
    applyChange fault edit.tree edit.change edit.index =
      if fault then (.error .os, edit.tree)
      else (.ok { detailsOf edit.change edit.index with found := some 1 },
        edit.written (encode (Text.replaceFirst edit.search edit.replacement edit.read))) := by
  rw [edit.applyChange_eq, edit.textChange_of_found h]
  simp only [atomicWrite, edit.makeParents_eq]
  cases fault <;> rfl

theorem applyChange_of_not_found (h : ¬ edit.Found) (fault : Bool) :
    ∃ error, applyChange fault edit.tree edit.change edit.index = (.error (.change error), edit.tree) := by
  obtain ⟨error, found, hchange⟩ := edit.textChange_of_not_found h
  rw [edit.applyChange_eq, hchange]
  exact ⟨_, rfl⟩

/-- The change is applied when the search text stands at exactly one place, overlapping ones
counted; then that place has the new text and every other byte is as it was; and a change
that fails, for whatever reason, leaves the tree. -/
def Exact : Prop :=
  ((∃ details, (applyChange false edit.tree edit.change edit.index).1 = .ok details) ↔
      OccursOnce edit.search edit.text) ∧
    (∀ before after, OccursOnce edit.search edit.text → edit.text = before ++ edit.search ++ after →
      (applyChange false edit.tree edit.change edit.index).2 =
        edit.written (encode before ++ encode edit.replacement ++ encode after)) ∧
    ∀ fault error, (applyChange fault edit.tree edit.change edit.index).1 = .error error →
      (applyChange fault edit.tree edit.change edit.index).2 = edit.tree

/-- What keeps a change exact.  An empty search text is not taken for the one place of an
empty file; where places overlap, two of them are apart; and where the file has a carriage
return, the search text stands neither at one place of the file nor at one place, up to
overlaps, of what the stream makes of it. -/
def Plain : Prop :=
  (edit.search = [] → edit.text ≠ []) ∧
    (edit.search ≠ [] → '\r' ∉ edit.text → Occurs edit.search edit.text → ¬ OccursOnce edit.search edit.text →
      OccursApart edit.search edit.text) ∧
    (edit.search ≠ [] → '\r' ∈ edit.text → ¬ OccursOnce edit.search edit.text ∧
      (Occurs edit.search edit.read → OccursApart edit.search edit.read))

theorem unchanged_of_error (fault : Bool) (error : Raised)
    (h : (applyChange fault edit.tree edit.change edit.index).1 = .error error) :
    (applyChange fault edit.tree edit.change edit.index).2 = edit.tree := by
  by_cases hfound : edit.Found
  · rw [edit.applyChange_of_found hfound] at h ⊢
    cases fault with
    | true => rfl
    | false => exact nomatch h
  · obtain ⟨e, happly⟩ := edit.applyChange_of_not_found hfound fault
    rw [happly]

theorem applied_iff :
    (∃ details, (applyChange false edit.tree edit.change edit.index).1 = .ok details) ↔ edit.Found := by
  by_cases hfound : edit.Found
  · rw [edit.applyChange_of_found hfound]
    exact iff_of_true ⟨_, rfl⟩ hfound
  · obtain ⟨e, happly⟩ := edit.applyChange_of_not_found hfound false
    rw [happly]
    refine iff_of_false ?_ hfound
    rintro ⟨details, h⟩
    exact nomatch h

/-- The empty text stands at one place only in an empty text. -/
theorem occursOnce_nil {text : List Char} : OccursOnce [] text ↔ text = [] := by
  constructor
  · intro h
    have hsame := h.2 [] text text [] (by simp) (by simp)
    exact hsame.symm
  · rintro rfl
    refine ⟨⟨[], [], rfl⟩, ?_⟩
    intro before after before' after' h h'
    have hnil : ∀ a b : List Char, [] = a ++ [] ++ b → a = [] := by
      intro a b hab
      simp at hab
      exact hab.1
    rw [hnil _ _ h, hnil _ _ h']

/-- Without carriage returns the file is read as it is. -/
theorem exact_iff_of_not_mem (hsearch : edit.search ≠ []) (hcr : '\r' ∉ edit.text) :
    edit.Exact ↔ (Occurs edit.search edit.text → ¬ OccursOnce edit.search edit.text →
      OccursApart edit.search edit.text) := by
  have hread : edit.read = edit.text := universalNewlines_eq_self hcr
  constructor
  · intro hexact hoccurs honce
    by_contra hapart
    exact honce (hexact.1.1 (edit.applied_iff.2 ⟨hsearch, hread ▸ hoccurs, hread ▸ hapart⟩))
  · intro hapart
    have hfound : edit.Found ↔ OccursOnce edit.search edit.text := by
      rw [Found, hread]
      constructor
      · rintro ⟨-, hoccurs, hnot⟩
        by_contra honce
        exact hnot (hapart hoccurs honce)
      · intro honce
        exact ⟨hsearch, honce.1, honce.not_apart hsearch⟩
    refine ⟨edit.applied_iff.trans hfound, ?_, edit.unchanged_of_error⟩
    intro before after honce htext
    rw [edit.applyChange_of_found (hfound.2 honce), hread, Text.replaceFirst_of_once _ honce htext, encode_append,
      encode_append]
    rfl

/-- A carriage return is lost from a file that is written. -/
theorem exact_iff_of_mem (hsearch : edit.search ≠ []) (hcr : '\r' ∈ edit.text) :
    edit.Exact ↔ ¬ OccursOnce edit.search edit.text ∧
      (Occurs edit.search edit.read → OccursApart edit.search edit.read) := by
  constructor
  · intro hexact
    have hnot : ¬ OccursOnce edit.search edit.text := by
      intro honce
      have hfound := edit.applied_iff.1 (hexact.1.2 honce)
      obtain ⟨before, after, htext⟩ := honce.1
      have hwritten := hexact.2.1 before after honce htext
      rw [edit.applyChange_of_found hfound, ← encode_append, ← encode_append] at hwritten
      have hsame : Text.replaceFirst edit.search edit.replacement edit.read = before ++ edit.replacement ++ after := by
        have hnode := congrFun hwritten edit.target
        simp only [Bool.false_eq_true, if_false, written, update_self, Option.some.injEq, Node.file.injEq] at hnode
        exact encode_injective hnode.1
      -- the stream has no carriage return, so neither has the search text, which was found in it
      have hstream : edit.read.count '\r' = 0 := List.count_eq_zero.2 (not_mem_universalNewlines edit.text)
      have hfile : edit.text.count '\r' ≠ 0 := fun h => List.count_eq_zero.1 h hcr
      rw [Text.replaceFirst] at hsame
      cases hcut : Text.cut edit.search edit.read with
      | none => exact Text.cut_eq_none.1 hcut hfound.2.1
      | some parts =>
          have hplace := (Text.cut_eq_some hcut).1
          have hcount := congrArg (List.count '\r') hsame
          rw [hplace] at hstream
          rw [htext] at hfile
          simp only [hcut, List.count_append] at hcount hstream hfile
          omega
    refine ⟨hnot, fun hoccurs => ?_⟩
    by_contra hapart
    exact hnot (hexact.1.1 (edit.applied_iff.2 ⟨hsearch, hoccurs, hapart⟩))
  · rintro ⟨hnot, hapart⟩
    have hfound : ¬ edit.Found := fun h => h.2.2 (hapart h.2.1)
    refine ⟨edit.applied_iff.trans (iff_of_false hfound hnot), fun before after honce => absurd honce hnot,
      edit.unchanged_of_error⟩

theorem exact_iff : edit.Exact ↔ edit.Plain := by
  by_cases hsearch : edit.search = []
  · have hfound : ¬ edit.Found := fun h => h.1 hsearch
    simp only [Plain, hsearch, ne_eq, not_true_eq_false, false_implies, and_true, true_implies]
    constructor
    · intro hexact htext
      exact hfound (edit.applied_iff.1 (hexact.1.2 (by rw [hsearch]; exact occursOnce_nil.2 htext)))
    · intro htext
      have hnot : ¬ OccursOnce edit.search edit.text := by
        rw [hsearch]
        exact mt occursOnce_nil.1 htext
      exact ⟨edit.applied_iff.trans (iff_of_false hfound hnot), fun before after honce => absurd honce hnot,
        edit.unchanged_of_error⟩
  · by_cases hcr : '\r' ∈ edit.text
    · rw [edit.exact_iff_of_mem hsearch hcr]
      simp [Plain, hsearch, hcr]
    · rw [edit.exact_iff_of_not_mem hsearch hcr]
      simp [Plain, hsearch, hcr]

end TextEdit

/-! ## Lists of changes -/

theorem unchanged_of_atomicWrite (tree : Tree) (target : List String) (content : List Char) (mode : Nat) (error : Raised)
    (h : (atomicWrite false tree target content mode).1 = .error error) :
    (atomicWrite false tree target content mode).2 = tree := by
  rw [atomicWrite] at h ⊢
  cases hparents : makeParents tree target with
  | none => rfl
  | some made =>
      rw [hparents] at h
      exact nomatch h

theorem unchanged_of_applyTo (tree : Tree) (operation : Operation) (change : Change) (target : List String)
    (details : Details) (error : Raised) (h : (applyTo false tree operation change target details).1 = .error error) :
    (applyTo false tree operation change target details).2 = tree := by
  have hwrite : ∀ content mode (result : Details),
      (atomicWrite false tree target content mode).1.map (fun _ => result) = .error error →
        (atomicWrite false tree target content mode).2 = tree := by
    intro content mode result hmap
    cases hwritten : (atomicWrite false tree target content mode).1 with
    | ok u =>
        rw [hwritten] at hmap
        exact nomatch hmap
    | error e => exact unchanged_of_atomicWrite tree target content mode e hwritten
  cases operation with
  | createFile =>
      simp only [applyTo] at h ⊢
      by_cases hexists : tree target ≠ none
      · rw [if_pos hexists]
      · rw [if_neg hexists] at h ⊢
        exact hwrite _ _ _ h
  | removeFile =>
      simp only [applyTo] at h ⊢
      cases hnode : tree target with
      | none => rfl
      | some node =>
          cases node with
          | file bytes mode =>
              rw [hnode] at h
              exact nomatch h
          | directory | link | other => rfl
  | replace | insertBefore | insertAfter | remove =>
      simp only [applyTo] at h ⊢
      split at h
      · rfl
      · exact hwrite _ _ _ h

theorem unchanged_of_error (tree : Tree) (change : Change) (index : Nat) (error : Raised)
    (h : (applyChange false tree change index).1 = .error error) : (applyChange false tree change index).2 = tree := by
  rw [applyChange] at h ⊢
  cases hparse : Operation.parse change.operation with
  | none => rfl
  | some operation =>
      simp only [hparse] at h ⊢
      cases htarget : safeTarget tree change.path (decide (operation = .createFile)) with
      | error e => rfl
      | ok target =>
          simp only [htarget] at h ⊢
          exact unchanged_of_applyTo tree operation change target _ error h

/-- What one change is meant to do: a text change of a text file replaces the one place at
which the search text stands, and is refused where there is not one; the others are what
they are.  A tree comes out, or the change is refused. -/
inductive Meant : Tree → Change → Option Tree → Prop
  | replaced (edit : TextEdit) (before after : List Char) : OccursOnce edit.search edit.text →
      edit.text = before ++ edit.search ++ after →
      Meant edit.tree edit.change (some (edit.written (encode before ++ encode edit.replacement ++ encode after)))
  | refused (edit : TextEdit) : ¬ OccursOnce edit.search edit.text → Meant edit.tree edit.change none
  | other (tree : Tree) (change : Change) (index : Nat) : (∀ edit : TextEdit, ¬ (edit.tree = tree ∧ edit.change = change)) →
      Meant tree change (match applyChange false tree change index with
        | (.ok _, after) => some after
        | (.error _, _) => none)

/-- What a list of changes is meant to do: each is applied to what the ones before it left,
up to the first that is refused. -/
inductive MeantRun : Tree → List Change → Tree → Bool → Prop
  | done (tree : Tree) : MeantRun tree [] tree true
  | stopped {tree : Tree} {change : Change} (changes : List Change) : Meant tree change none →
      MeantRun tree (change :: changes) tree false
  | next {tree next last : Tree} {change : Change} {changes : List Change} {all : Bool} :
      Meant tree change (some next) → MeantRun next changes last all → MeantRun tree (change :: changes) last all

/-- The tree that one change leaves, when it is not refused. -/
def effect (tree : Tree) (change : Change) (index : Nat) : Option Tree :=
  match applyChange false tree change index with
  | (.ok _, after) => some after
  | (.error _, _) => none

theorem meant_effect (tree : Tree) (change : Change) (index : Nat)
    (h : ∀ edit : TextEdit, edit.tree = tree → edit.change = change → edit.Plain) :
    Meant tree change (effect tree change index) := by
  by_cases hedit : ∃ edit : TextEdit, edit.tree = tree ∧ edit.change = change
  · obtain ⟨edit, rfl, rfl⟩ := hedit
    let here : TextEdit := { edit with index }
    have hexact : here.Exact := here.exact_iff.2 (h here rfl rfl)
    by_cases honce : OccursOnce edit.search edit.text
    · obtain ⟨details, hok⟩ := hexact.1.2 honce
      obtain ⟨before, after, htext⟩ := honce.1
      have hwritten := hexact.2.1 before after honce htext
      have heffect : effect edit.tree edit.change index =
          some (here.written (encode before ++ encode here.replacement ++ encode after)) := by
        rw [effect, ← hwritten, show applyChange false edit.tree edit.change index =
          (.ok details, (applyChange false edit.tree edit.change index).2) from Prod.ext hok rfl]
      rw [heffect]
      exact .replaced here before after honce htext
    · have herror : ∃ error, (applyChange false edit.tree edit.change index).1 = .error error := by
        cases hresult : (applyChange false edit.tree edit.change index).1 with
        | error e => exact ⟨e, rfl⟩
        | ok details => exact absurd (hexact.1.1 ⟨details, hresult⟩) honce
      obtain ⟨error, herror⟩ := herror
      have heffect : effect edit.tree edit.change index = none := by
        rw [effect, show applyChange false edit.tree edit.change index =
          (.error error, (applyChange false edit.tree edit.change index).2) from Prod.ext herror rfl]
      rw [heffect]
      exact .refused here honce
  · exact .other tree change index fun edit hsame => hedit ⟨edit, hsame⟩

/-- Whether a list of changes was applied to its end. -/
def succeeded (outcome : Except ChangesRaised (List Details)) : Bool :=
  match outcome with
  | .ok _ => true
  | .error _ => false

/-- A run from any change on. -/
theorem meantRun_applyFrom (requested : Nat) (changes : List Change) (tree : Tree) (applied : List Details) (index : Nat)
    (h : ∀ done change rest met, changes = done ++ change :: rest → MeantRun tree done met true →
      ∀ edit : TextEdit, edit.tree = met → edit.change = change → edit.Plain) :
    MeantRun tree changes (applyFrom (fun _ => false) requested tree applied index changes).2
      (succeeded (applyFrom (fun _ => false) requested tree applied index changes).1) := by
  induction changes generalizing tree applied index with
  | nil => exact .done tree
  | cons change changes ih =>
      have hmeant := meant_effect tree change index (h [] change changes tree rfl (.done tree))
      rw [applyFrom]
      cases hresult : applyChange false tree change index with
      | mk result after =>
          have hunchanged := unchanged_of_error tree change index
          simp only [effect, hresult] at hmeant hunchanged
          cases result with
          | ok details =>
              refine .next hmeant (ih after _ _ ?_)
              intro done change' rest met hchanges hrun
              exact h (change :: done) change' rest met (by rw [hchanges]; rfl) (.next hmeant hrun)
          | error error =>
              obtain rfl := hunchanged error rfl
              cases error with
              | change e => exact .stopped changes hmeant
              | os => exact .stopped changes hmeant

/-- **Text changes are exact when they are plain**, and a list whose text changes are plain
wherever the run gets to them does what it is meant to do. -/
theorem source_changes_exact (tree : Tree) (changes : List Change) :
    (∀ edit : TextEdit, edit.Exact ↔ edit.Plain) ∧
      ((∀ done change rest met, changes = done ++ change :: rest → MeantRun tree done met true →
          ∀ edit : TextEdit, edit.tree = met → edit.change = change → edit.Plain) →
        MeantRun tree changes (applyChanges (fun _ => false) tree changes).2
          (succeeded (applyChanges (fun _ => false) tree changes).1)) :=
  ⟨TextEdit.exact_iff, fun h => meantRun_applyFrom changes.length changes tree [] 1 h⟩

/-- A source tree of one file. -/
def oneFile (text : String) : Tree := fun parts =>
  if parts = [] then some .directory
  else if parts = ["a.txt"] then some (.file (encode text.toList) 0o644) else none

/-- The one `a` of `ab` is replaced in a list of one change. -/
theorem source_changes_exact_single :
    MeantRun (oneFile "ab") [⟨"replace", "a.txt", some "a", "c"⟩]
      (applyChanges (fun _ => false) (oneFile "ab") [⟨"replace", "a.txt", some "a", "c"⟩]).2
      (succeeded (applyChanges (fun _ => false) (oneFile "ab") [⟨"replace", "a.txt", some "a", "c"⟩]).1) := by
  refine (source_changes_exact _ _).2 ?_
  intro done change rest met hchanges hrun edit htree hchange
  cases done with
  | nil =>
      cases hrun
      obtain ⟨rfl, -⟩ := List.cons.inj hchanges
      have hsearch : edit.search = ['a'] := by
        have hsearched := edit.searched
        rw [hchange] at hsearched
        simpa using (congrArg String.toList (Option.some.inj hsearched)).symm
      have htarget : edit.target = ["a.txt"] := by
        have htargeted := edit.targeted
        rw [htree, hchange] at htargeted
        exact (Except.ok.inj htargeted).symm
      have htext : edit.text = ['a', 'b'] := by
        have hstored := edit.stored
        rw [htree, htarget] at hstored
        exact (encode_injective (Node.file.inj (Option.some.inj hstored)).1).symm
      have honce : OccursOnce edit.search edit.text := by
        rw [hsearch, htext]
        decide
      refine ⟨?_, fun _ _ _ hnot => absurd honce hnot, fun _ hcr => ?_⟩
      · rw [htext]
        exact fun _ => nofun
      · rw [htext] at hcr
        exact absurd hcr (by decide)
  | cons first done =>
      have hlength := congrArg List.length hchanges
      simp at hlength

/-- The replacement of `aa` in `aaa`. -/
def overlapping : TextEdit where
  tree := oneFile "aaa"
  change := ⟨"replace", "a.txt", some "aa", "b"⟩
  index := 1
  operation := .replace
  search := "aa".toList
  target := ["a.txt"]
  text := "aaa".toList
  mode := 0o644
  parsed := rfl
  textual := by decide
  searched := by simp
  targeted := by rfl
  stored := rfl
  parents := by decide

/-- The two places of `aa` in `aaa` overlap, and the first one is replaced. -/
theorem overlapping_not_exact : ¬ ∀ edit : TextEdit, edit.Exact := by
  intro h
  have hplain := overlapping.exact_iff.1 (h overlapping)
  have hoccurs : Occurs overlapping.search overlapping.text := ⟨[], ['a'], rfl⟩
  have honce : ¬ OccursOnce overlapping.search overlapping.text := by
    decide
  have hcount : Text.count overlapping.search overlapping.text ≤ 1 := by
    rfl
  exact (Text.count_le_one (by decide)).1 hcount (hplain.2.1 (by decide) (by decide) hoccurs honce)

end DebBuilder.Source
