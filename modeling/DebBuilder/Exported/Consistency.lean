import Mathlib
import DebBuilder.Exported.Reader
import DebBuilder.Lib.Path

/-!
# Consistent reads of one index file

Whatever is replaced while a file is read, its bytes are used only if a walk from the pinned root
found it before, and another one finds it afterwards.

## Main definitions

* `ReadsAs` — a file that is found, read and found again.
* `Misses` — a walk that misses a name.

## Main results

* `readPinnedIndexFile_eq_payload` — a payload is that of such a file.
* `misses_of_readPinnedIndexFile` — a file is called missing when the walk to it misses a name.
-/

namespace DebBuilder.Exported

open Lib Publishing

/-- A name that can be handed to a system call. -/
def Clean (name : String) : Prop := Char.ofNat 0 ∉ name.toList

variable {ι : Type} {disk : Disk ι} {k limit : ℕ} {root d e object file parent : ι} {name : String}
  {parts dirs : List String}

/-! ## System calls -/

theorem isDirectory_tree : disk.tree.isDirectory d = true ↔ disk.kind d = .directory := by
  simp [Disk.tree]

theorem lookUp_of_clean (hname : Clean name) :
    disk.lookUp k d name =
      if disk.fault k then .error .os
      else match disk.entry (disk.clock k) d name with
        | none => .error .fileNotFound
        | some object => .ok object := if_neg hname

theorem lookUp_eq_ok (hname : Clean name) :
    disk.lookUp k d name = .ok object ↔ disk.fault k = false ∧ disk.entry (disk.clock k) d name = some object := by
  rw [lookUp_of_clean hname]
  by_cases hfault : disk.fault k = true
  · simp [hfault]
  · cases hentry : disk.entry (disk.clock k) d name <;> simp [hfault]

theorem lookUp_eq_fileNotFound (hname : Clean name) (h : disk.lookUp k d name = .error .fileNotFound) :
    disk.entry (disk.clock k) d name = none := by
  rw [lookUp_of_clean hname] at h
  by_cases hfault : disk.fault k = true
  · simp [hfault] at h
  · cases hentry : disk.entry (disk.clock k) d name with
    | none => rfl
    | some object => simp [hfault, hentry] at h

theorem openDirectory_eq_ok (hname : Clean name) :
    disk.openDirectory k d name = .ok object ↔
      disk.fault k = false ∧ disk.entry (disk.clock k) d name = some object ∧ disk.kind object = .directory := by
  rw [Disk.openDirectory, bind_eq_ok]
  simp only [lookUp_eq_ok hname]
  constructor
  · rintro ⟨found, ⟨hfault, hentry⟩, hkind⟩
    split at hkind
    · next hdir => exact ⟨hfault, Except.ok.inj hkind ▸ hentry, Except.ok.inj hkind ▸ hdir⟩
    · cases hkind
  · rintro ⟨hfault, hentry, hdir⟩
    exact ⟨object, ⟨hfault, hentry⟩, if_pos hdir⟩

theorem openFile_eq_ok (hname : Clean name) :
    disk.openFile k d name = .ok object ↔
      disk.fault k = false ∧ disk.entry (disk.clock k) d name = some object ∧ disk.kind object ≠ .link := by
  rw [Disk.openFile, bind_eq_ok]
  simp only [lookUp_eq_ok hname]
  constructor
  · rintro ⟨found, ⟨hfault, hentry⟩, hkind⟩
    split at hkind
    · cases hkind
    · next hlink => exact ⟨hfault, Except.ok.inj hkind ▸ hentry, Except.ok.inj hkind ▸ hlink⟩
  · rintro ⟨hfault, hentry, hlink⟩
    exact ⟨object, ⟨hfault, hentry⟩, if_neg hlink⟩

theorem stat_eq_ok (hname : Clean name) {info : Info ι} :
    disk.stat k d name = .ok info ↔
      disk.fault k = false ∧ ∃ object, disk.entry (disk.clock k) d name = some object ∧ info = disk.info k object := by
  rw [Disk.stat, map_eq_ok]
  simp only [lookUp_eq_ok hname]
  constructor
  · rintro ⟨object, ⟨hfault, hentry⟩, rfl⟩
    exact ⟨hfault, object, hentry, rfl⟩
  · rintro ⟨hfault, object, hentry, rfl⟩
    exact ⟨object, ⟨hfault, hentry⟩, rfl⟩

theorem fstat_eq_ok {info : Info ι} :
    disk.fstat k object = .ok info ↔ disk.fault k = false ∧ info = disk.info k object := by
  by_cases hfault : disk.fault k = true <;> simp [Disk.fstat, hfault, eq_comm]

/-! A name without a NUL raises no `ValueError`. -/

theorem raisesOnly_map {α β ε : Type} {P : ε → Prop} {x : Except ε α} {f : α → β} (h : RaisesOnly P x) :
    RaisesOnly P (f <$> x) := by
  intro e he
  cases x with
  | ok a => cases he
  | error e' => exact h e (by simpa using he)

theorem raisesOnly_lookUp (hname : Clean name) : RaisesOnly (· ≠ .value) (disk.lookUp k d name) := by
  rw [lookUp_of_clean hname]
  split
  · exact raisesOnly_error (by decide)
  · split
    · exact raisesOnly_error (by decide)
    · exact raisesOnly_ok

theorem raisesOnly_openDirectory (hname : Clean name) : RaisesOnly (· ≠ .value) (disk.openDirectory k d name) := by
  apply (raisesOnly_lookUp hname).bind
  intro object _
  split
  · exact raisesOnly_ok
  · exact raisesOnly_error (by decide)

theorem raisesOnly_openFile (hname : Clean name) : RaisesOnly (· ≠ .value) (disk.openFile k d name) := by
  apply (raisesOnly_lookUp hname).bind
  intro object _
  split
  · exact raisesOnly_error (by decide)
  · exact raisesOnly_ok

theorem raisesOnly_fstat : RaisesOnly (· ≠ .value) (disk.fstat k object) := by
  rw [Disk.fstat]
  split
  · exact raisesOnly_error (by decide)
  · exact raisesOnly_ok

theorem raisesOnly_walkParents (hdirs : ∀ name ∈ dirs, Clean name) :
    RaisesOnly (· ≠ .value) (disk.walkParents k d dirs) := by
  induction dirs generalizing k d with
  | nil => exact raisesOnly_ok
  | cons name dirs ih =>
      apply (raisesOnly_openDirectory (hdirs name (by simp))).bind
      intro child _
      exact ih fun n hn => hdirs n (by simp [hn])

/-! ## Walks -/

/-- No system call from `k` on raises by itself, for `n` calls. -/
def Quiet (disk : Disk ι) (k n : ℕ) : Prop := ∀ j < n, disk.fault (k + j) = false

theorem quiet_succ {n : ℕ} : Quiet disk k (n + 1) ↔ disk.fault k = false ∧ Quiet disk (k + 1) n := by
  constructor
  · intro h
    refine ⟨h 0 (by omega), fun j hj => ?_⟩
    rw [Nat.add_assoc, Nat.add_comm 1 j]
    exact h (j + 1) (by omega)
  · rintro ⟨hfirst, hrest⟩ j hj
    cases j with
    | zero => exact hfirst
    | succ j =>
        have h := hrest j (by omega)
        rwa [Nat.add_assoc, Nat.add_comm 1 j] at h

theorem quiet_add {m n : ℕ} : Quiet disk k (m + n) ↔ Quiet disk k m ∧ Quiet disk (k + m) n := by
  induction m generalizing k with
  | zero => simp [Quiet]
  | succ m ih =>
      have hshift : k + 1 + m = k + (m + 1) := by omega
      rw [Nat.add_right_comm, quiet_succ, ih, quiet_succ, hshift, and_assoc]

theorem quiet_concat {n : ℕ} : Quiet disk k (n + 1) ↔ Quiet disk k n ∧ disk.fault (k + n) = false := by
  rw [quiet_add, quiet_succ]
  simp [Quiet]

theorem walkParents_eq_ok (hroot : disk.kind root = .directory) (hnames : ∀ name ∈ dirs, Clean name) :
    disk.walkParents k root dirs = .ok d ↔
      disk.tree.Walks disk.clock k root dirs d ∧ disk.kind d = .directory ∧ Quiet disk k dirs.length := by
  induction dirs generalizing k root with
  | nil =>
      simp only [Disk.walkParents, Except.ok.injEq, LiveTree.Walks, List.length_nil]
      constructor
      · rintro rfl
        exact ⟨rfl, hroot, (by rintro _ ⟨⟩)⟩
      · exact And.left
  | cons name dirs ih =>
      simp only [Disk.walkParents, bind_eq_ok, openDirectory_eq_ok (hnames name (by simp)), LiveTree.Walks,
        List.length_cons, quiet_succ]
      constructor
      · rintro ⟨child, ⟨hfault, hentry, hdir⟩, hrest⟩
        obtain ⟨hwalks, hd, hquiet⟩ := (ih hdir fun n hn => hnames n (by simp [hn])).1 hrest
        exact ⟨⟨isDirectory_tree.2 hroot, child, hentry, hwalks⟩, hd, hfault, hquiet⟩
      · rintro ⟨⟨-, child, hentry, hwalks⟩, hd, hfault, hquiet⟩
        have hdir : disk.kind child = .directory := by
          cases dirs with
          | nil => exact hwalks ▸ hd
          | cons next dirs => exact isDirectory_tree.1 hwalks.1
        exact ⟨child, ⟨hfault, hentry, hdir⟩, (ih hdir fun n hn => hnames n (by simp [hn])).2 ⟨hwalks, hd, hquiet⟩⟩

/-- A walk that misses a name. -/
def Misses (disk : Disk ι) (k : ℕ) (root : ι) (path : List String) : Prop :=
  ∃ before name after d, path = before ++ name :: after ∧ disk.tree.Walks disk.clock k root before d ∧
    disk.tree.entry (disk.clock (k + before.length)) d name = none

theorem misses_of_walkParents (hroot : disk.kind root = .directory) (hnames : ∀ name ∈ dirs, Clean name)
    (h : disk.walkParents k root dirs = .error .fileNotFound) : Misses disk k root dirs := by
  induction dirs generalizing k root with
  | nil => cases h
  | cons name dirs ih =>
      have hname : Clean name := hnames name (by simp)
      rw [Disk.walkParents, bind_eq_error] at h
      cases h with
      | inl hopen =>
          rw [Disk.openDirectory, bind_eq_error] at hopen
          cases hopen with
          | inl hlook => exact ⟨[], name, dirs, root, rfl, rfl, lookUp_eq_fileNotFound hname hlook⟩
          | inr hkind =>
              obtain ⟨object, -, hkind⟩ := hkind
              split at hkind <;> cases hkind
      | inr hrest =>
          obtain ⟨child, hopen, hrest⟩ := hrest
          obtain ⟨-, hentry, hdir⟩ := (openDirectory_eq_ok hname).1 hopen
          obtain ⟨before, missing, after, d, rfl, hwalks, hnone⟩ := ih hdir (fun n hn => hnames n (by simp [hn])) hrest
          refine ⟨name :: before, missing, after, d, rfl, ⟨isDirectory_tree.2 hroot, child, hentry, hwalks⟩, ?_⟩
          rw [List.length_cons, ← Nat.add_assoc, Nat.add_right_comm]
          exact hnone

theorem revision_eq {j : ℕ} :
    (disk.info k object).revision = (disk.info j file).revision ↔
      object = file ∧ disk.mtime (disk.clock k) object = disk.mtime (disk.clock j) file := by
  simp only [Info.revision, Disk.info, Prod.mk.injEq]
  constructor
  · rintro ⟨hobject, -, hmtime⟩
    exact ⟨hobject, hmtime⟩
  · rintro ⟨rfl, hmtime⟩
    exact ⟨rfl, rfl, hmtime⟩

/-! ## One file -/

theorem flatten_readChunks (rest : List UInt8) (remaining : ℕ) :
    (readChunks rest remaining).flatten = rest.take remaining := by
  induction rest, remaining using readChunks.induct with
  | case1 rest remaining chunk h =>
      rw [readChunks, dif_pos h, List.flatten_nil]
      cases h with
      | inl hzero => simp [hzero]
      | inr hempty =>
          rw [List.take_eq_nil_iff] at hempty
          rcases hempty with hmin | rfl
          · have hzero : remaining = 0 := by omega
            simp [hzero]
          · simp
  | case2 rest remaining chunk h ih =>
      rw [readChunks, dif_neg h, List.flatten_cons, ih]
      have hle : chunk.length ≤ remaining := by
        simp only [chunk, List.length_take]
        omega
      have hchunk : chunk = rest.take chunk.length := by
        simp [chunk]
      have hsplit : remaining = chunk.length + (remaining - chunk.length) := by omega
      conv_rhs => rw [hsplit, List.take_add, ← hchunk]

/-- The file is found by a walk from the root, is a regular file with one name and not too large,
stands as it is while it is read, and is found again under its parent and by a second walk. -/
structure ReadsAs (disk : Disk ι) (k : ℕ) (root : ι) (dirs : List String) (name : String) (limit : ℕ) (file : ι) :
    Prop where
  regular : disk.kind file = .file (disk.bytes file)
  small : (disk.bytes file).length ≤ limit
  single : disk.links (disk.clock (k + dirs.length + 1)) file = 1
  before : disk.tree.Walks disk.clock k root (dirs ++ [name]) file
  kept : ∃ parent, disk.tree.Walks disk.clock k root dirs parent ∧
    disk.entry (disk.clock (k + dirs.length + 4)) parent name = some file
  after : disk.tree.Walks disk.clock (k + dirs.length + 5) root (dirs ++ [name]) file
  untouched : ∀ j ∈ [2, 3, dirs.length + 4],
    disk.mtime (disk.clock (k + dirs.length + 1 + j)) file = disk.mtime (disk.clock (k + dirs.length + 1)) file
  quiet : Quiet disk k (2 * dirs.length + 6)

theorem parent_unique {parent' : ι} (h : disk.tree.Walks disk.clock k root dirs parent)
    (h' : disk.tree.Walks disk.clock k root dirs parent') : parent = parent' := by
  induction dirs generalizing k root with
  | nil => exact h.symm.trans h'
  | cons name dirs ih =>
      obtain ⟨-, c, hc, hrest⟩ := h
      obtain ⟨-, c', hc', hrest'⟩ := h'
      obtain rfl : c = c' := Option.some.inj (hc.symm.trans hc')
      exact ih hrest hrest'

section
variable (hroot : disk.kind root = .directory) (hname : Clean name) (hdirs : ∀ name ∈ dirs, Clean name)
include hroot hname hdirs

theorem openIndex_eq_ok :
    openIndex disk k root (dirs ++ [name]) = .ok (parent, file) ↔
      (disk.tree.Walks disk.clock k root dirs parent ∧ disk.kind parent = .directory) ∧
        disk.entry (disk.clock (k + dirs.length)) parent name = some file ∧
        disk.kind file ≠ .link ∧ Quiet disk k (dirs.length + 1) := by
  simp only [openIndex, List.dropLast_concat, List.getLastD_concat, bind_eq_ok, map_eq_ok,
    walkParents_eq_ok hroot hdirs, openFile_eq_ok hname, Prod.mk.injEq, quiet_concat]
  constructor
  · rintro ⟨_, ⟨hwalks, hdir, hquiet⟩, _, ⟨hfault, hentry, hlink⟩, rfl, rfl⟩
    exact ⟨⟨hwalks, hdir⟩, hentry, hlink, hquiet, hfault⟩
  · rintro ⟨⟨hwalks, hdir⟩, hentry, hlink, hquiet, hfault⟩
    exact ⟨parent, ⟨hwalks, hdir, hquiet⟩, file, ⟨hfault, hentry, hlink⟩, rfl, rfl⟩

theorem misses_of_openIndex (h : openIndex disk k root (dirs ++ [name]) = .error .fileNotFound) :
    Misses disk k root (dirs ++ [name]) := by
  simp only [openIndex, List.dropLast_concat, List.getLastD_concat, bind_eq_error] at h
  cases h with
  | inl hwalk =>
      obtain ⟨before, missing, after, d, rfl, hwalks, hnone⟩ := misses_of_walkParents hroot hdirs hwalk
      exact ⟨before, missing, after ++ [name], d, by simp, hwalks, hnone⟩
  | inr hopen =>
      obtain ⟨parent, hwalk, hopen⟩ := hopen
      obtain ⟨hwalks, -, -⟩ := (walkParents_eq_ok hroot hdirs).1 hwalk
      refine ⟨dirs, name, [], parent, rfl, hwalks, ?_⟩
      cases hfile : disk.openFile (k + dirs.length) parent name with
      | ok file => simp [hfile] at hopen
      | error e =>
          rw [hfile] at hopen
          obtain rfl : e = .fileNotFound := by simpa using hopen
          rw [Disk.openFile, bind_eq_error] at hfile
          cases hfile with
          | inl hlook => exact lookUp_eq_fileNotFound hname hlook
          | inr hkind =>
              obtain ⟨object, -, hkind⟩ := hkind
              split at hkind <;> cases hkind

variable [DecidableEq ι]

theorem readStable_eq_payload {before : Info ι} {bytes : List UInt8} (hsmall : (disk.bytes file).length ≤ limit) :
    readStable disk k root (dirs ++ [name]) parent file limit before = .ok (.payload bytes) ↔
      bytes = disk.bytes file ∧ disk.entry (disk.clock (k + 2)) parent name = some file ∧
        disk.tree.Walks disk.clock (k + 3) root (dirs ++ [name]) file ∧
        before.revision = (disk.info (k + 1) file).revision ∧
        disk.mtime (disk.clock (k + 2)) file = disk.mtime (disk.clock (k + 1)) file ∧
        disk.mtime (disk.clock (k + 3 + dirs.length)) file = disk.mtime (disk.clock (k + 1)) file ∧
        Quiet disk k (dirs.length + 4) := by
  have hbytes : (readChunks (disk.bytes file) (limit + 1)).flatten = disk.bytes file := by
    rw [flatten_readChunks, List.take_of_length_le (by omega)]
  have hquiet : Quiet disk k (dirs.length + 4) ↔ disk.fault k = false ∧ disk.fault (k + 1) = false ∧
      disk.fault (k + 2) = false ∧ Quiet disk (k + 3) dirs.length ∧ disk.fault (k + 3 + dirs.length) = false := by
    rw [show dirs.length + 4 = (dirs.length + 1) + 1 + 1 + 1 by omega]
    simp only [quiet_succ (n := _ + 1), quiet_concat, Nat.add_assoc, Nat.reduceAdd]
  simp only [readStable, List.dropLast_concat, List.getLastD_concat, bind_eq_ok, refuse_eq_ok, fstat_eq_ok,
    stat_eq_ok hname, walkParents_eq_ok hroot hdirs, pure_eq_ok, hbytes, hquiet, LiveTree.walks_concat]
  constructor
  · rintro ⟨-, hread, after, ⟨hfstat, rfl⟩, current, ⟨hstat, found, hfound, rfl⟩, rooted, ⟨hwalks, hdir, hwalk⟩,
      rootedCurrent, ⟨hlast, again, hagain, rfl⟩, hreturn⟩
    split at hreturn
    · cases hreturn
    · next hsame =>
      push Not at hsame
      obtain ⟨-, hbefore, hcurrent, hrooted⟩ := hsame
      obtain ⟨rfl, hcurrent⟩ := revision_eq.1 hcurrent
      obtain ⟨rfl, hrooted⟩ := revision_eq.1 hrooted
      exact ⟨(Reading.payload.inj hreturn).symm, hfound, ⟨rooted, hwalks, isDirectory_tree.2 hdir, hagain⟩, hbefore,
        hcurrent.symm, hrooted.symm, by simpa using hread, hfstat, hstat, hwalk, hlast⟩
  · rintro ⟨rfl, hfound, ⟨rooted, hwalks, hdir, hagain⟩, hbefore, hcurrent, hrooted, hread, hfstat, hstat, hwalk, hlast⟩
    refine ⟨(), by simpa using hread, _, ⟨hfstat, rfl⟩, _, ⟨hstat, file, hfound, rfl⟩, rooted,
      ⟨hwalks, isDirectory_tree.1 hdir, hwalk⟩, _, ⟨hlast, file, hagain, rfl⟩, ?_⟩
    rw [if_neg]
    push Not
    exact ⟨hsmall, hbefore, revision_eq.2 ⟨rfl, hcurrent.symm⟩, revision_eq.2 ⟨rfl, hrooted.symm⟩⟩

omit hroot hname hdirs in
/-- A file that is open is not missing. -/
theorem readOpened_ne_missing : readOpened disk k root parts parent file limit ≠ .ok .missing := by
  intro h
  simp only [readOpened, bind_eq_ok] at h
  obtain ⟨before, -, hread⟩ := h
  split at hread
  · cases hread
  · simp only [readStable, bind_eq_ok, pure_eq_ok] at hread
    obtain ⟨_, -, _, -, _, -, _, -, _, -, hreturn⟩ := hread
    split at hreturn <;> cases hreturn

theorem readOpened_eq_payload {bytes : List UInt8} :
    readOpened disk k root (dirs ++ [name]) parent file limit = .ok (.payload bytes) ↔
      bytes = disk.bytes file ∧ disk.kind file = .file (disk.bytes file) ∧ (disk.bytes file).length ≤ limit ∧
        disk.links (disk.clock k) file = 1 ∧ disk.entry (disk.clock (k + 3)) parent name = some file ∧
        disk.tree.Walks disk.clock (k + 4) root (dirs ++ [name]) file ∧
        (∀ j ∈ [2, 3, dirs.length + 4], disk.mtime (disk.clock (k + j)) file = disk.mtime (disk.clock k) file) ∧
        Quiet disk k (dirs.length + 5) := by
  have hshift : k + 1 + 3 + dirs.length = k + (dirs.length + 4) := by omega
  simp only [readOpened, bind_eq_ok, fstat_eq_ok, List.mem_cons, List.not_mem_nil, or_false,
    forall_eq_or_imp, forall_eq]
  rw [quiet_succ (n := dirs.length + 4)]
  constructor
  · rintro ⟨before, ⟨hfault, rfl⟩, hread⟩
    split at hread
    · cases hread
    · next hgood =>
      simp only [not_or, Disk.info, decide_eq_false_iff_not, not_not, not_lt] at hgood
      obtain ⟨hkind, hlinks, hsmall⟩ := hgood
      obtain ⟨hbytes, hkept, hafter, hrevision, hcurrent, hrooted, hquiet⟩ :=
        (readStable_eq_payload hroot hname hdirs hsmall).1 hread
      obtain ⟨-, hmtime⟩ := revision_eq.1 hrevision
      rw [hshift] at hrooted
      have hnow : disk.mtime (disk.clock (k + 2)) file = disk.mtime (disk.clock k) file := hmtime.symm
      exact ⟨hbytes, hkind, hsmall, hlinks, hkept, hafter, ⟨hnow, hcurrent.trans hnow, hrooted.trans hnow⟩, hfault, hquiet⟩
  · rintro ⟨hbytes, hkind, hsmall, hlinks, hkept, hafter, ⟨hsecond, hthird, hlast⟩, hfault, hquiet⟩
    refine ⟨_, ⟨hfault, rfl⟩, ?_⟩
    rw [if_neg]
    · apply (readStable_eq_payload hroot hname hdirs hsmall).2
      rw [hshift]
      exact ⟨hbytes, hkept, hafter, revision_eq.2 ⟨rfl, hsecond.symm⟩, hthird.trans hsecond.symm,
        hlast.trans hsecond.symm, hquiet⟩
    · simp only [not_or, Disk.info, decide_eq_false_iff_not, not_not, not_lt]
      exact ⟨hkind, hlinks, hsmall⟩

omit [DecidableEq ι] hroot in
theorem raisesOnly_openIndex : RaisesOnly (· ≠ .value) (openIndex disk k root (dirs ++ [name])) := by
  rw [openIndex, List.dropLast_concat, List.getLastD_concat]
  exact (raisesOnly_walkParents hdirs).bind fun parent _ => raisesOnly_map (raisesOnly_openFile hname)

omit hroot in
theorem raisesOnly_readOpened :
    RaisesOnly (· ≠ .value) (readOpened disk k root (dirs ++ [name]) parent file limit) := by
  apply raisesOnly_fstat.bind
  intro before _
  split
  · exact raisesOnly_ok
  · rw [readStable, List.dropLast_concat, List.getLastD_concat]
    refine RaisesOnly.bind (raisesOnly_refuse (nofun : SysError.os ≠ .value)) ?_
    intro _ _
    apply raisesOnly_fstat.bind
    intro after _
    apply (raisesOnly_map (raisesOnly_lookUp hname)).bind
    intro current _
    apply (raisesOnly_walkParents hdirs).bind
    intro rooted _
    exact (raisesOnly_map (raisesOnly_lookUp hname)).bind fun _ _ => raisesOnly_pure

variable {relative : String} {compressed : Bool} (hrelative : safeRelativePath relative (some "dists") = .ok (dirs ++ [name]))
include hrelative

/-- A payload is that of a file which is found, read and found again. -/
theorem readPinnedIndexFile_eq_payload {bytes : List UInt8} :
    readPinnedIndexFile disk k root relative compressed = .ok (.payload bytes) ↔
      ∃ file, ReadsAs disk k root dirs name (maximum compressed) file ∧ bytes = disk.bytes file := by
  have hquiet : Quiet disk k (2 * dirs.length + 6) ↔
      Quiet disk k (dirs.length + 1) ∧ Quiet disk (k + (dirs.length + 1)) (dirs.length + 5) := by
    rw [← quiet_add]
    have hsum : 2 * dirs.length + 6 = dirs.length + 1 + (dirs.length + 5) := by omega
    rw [hsum]
  have hlength : (dirs ++ [name]).length = dirs.length + 1 := by simp
  simp only [readPinnedIndexFile, hrelative, bind_eq_ok, Except.ok.injEq, exists_eq_left']
  constructor
  · intro h
    cases hopen : openIndex disk k root (dirs ++ [name]) with
    | error e => cases e <;> simp [hopen] at h
    | ok found =>
        obtain ⟨parent, file⟩ := found
        simp only [hopen, hlength] at h
        cases hread : readOpened disk (k + (dirs.length + 1)) root (dirs ++ [name]) parent file (maximum compressed) with
        | error e => cases e <;> simp [hread] at h
        | ok reading =>
            rw [hread] at h
            obtain rfl := Except.ok.inj h
            obtain ⟨⟨hwalks, hdir⟩, hentry, -, hfirst⟩ := (openIndex_eq_ok hroot hname hdirs).1 hopen
            obtain ⟨hbytes, hkind, hsmall, hlinks, hkept, hafter, hmtimes, hsecond⟩ :=
              (readOpened_eq_payload hroot hname hdirs).1 hread
            refine ⟨file, ?_, hbytes⟩
            constructor
            · exact hkind
            · exact hsmall
            · exact hlinks
            · exact LiveTree.walks_concat.2 ⟨parent, hwalks, isDirectory_tree.2 hdir, hentry⟩
            · exact ⟨parent, hwalks, hkept⟩
            · exact hafter
            · exact hmtimes
            · exact hquiet.2 ⟨hfirst, hsecond⟩
  · rintro ⟨file, hreads, rfl⟩
    obtain ⟨parent, hwalks, hdir, hentry⟩ := LiveTree.walks_concat.1 hreads.before
    obtain ⟨parent', hwalks', hkept⟩ := hreads.kept
    obtain rfl := parent_unique hwalks hwalks'
    obtain ⟨hfirst, hsecond⟩ := hquiet.1 hreads.quiet
    have hlink : disk.kind file ≠ .link := by
      rw [hreads.regular]
      exact nofun
    have hopen := (openIndex_eq_ok hroot hname hdirs).2
      ⟨⟨hwalks, isDirectory_tree.1 hdir⟩, hentry, hlink, hfirst⟩
    have hread := (readOpened_eq_payload hroot hname hdirs (k := k + (dirs.length + 1))).2
      ⟨rfl, hreads.regular, hreads.small, hreads.single, hkept, hreads.after, hreads.untouched, hsecond⟩
    simp only [hopen, hlength, hread]

theorem misses_of_readPinnedIndexFile (h : readPinnedIndexFile disk k root relative compressed = .ok .missing) :
    Misses disk k root (dirs ++ [name]) := by
  simp only [readPinnedIndexFile, hrelative, bind_eq_ok, Except.ok.injEq, exists_eq_left'] at h
  cases hopen : openIndex disk k root (dirs ++ [name]) with
  | error e =>
      cases e with
      | fileNotFound => exact misses_of_openIndex hroot hname hdirs hopen
      | os => simp [hopen] at h
      | value => simp [hopen] at h
  | ok found =>
      cases hread : readOpened disk (k + (dirs ++ [name]).length) root (dirs ++ [name]) found.1 found.2 (maximum compressed) with
      | error e =>
          simp only [hopen, hread] at h
          cases e <;> cases h
      | ok reading =>
          simp only [hopen, hread, Except.ok.injEq] at h
          exact absurd (h ▸ hread) readOpened_ne_missing

omit hroot in
theorem readPinnedIndexFile_eq_ok : ∃ reading, readPinnedIndexFile disk k root relative compressed = .ok reading := by
  simp only [readPinnedIndexFile, hrelative, bind_eq_ok, Except.ok.injEq, exists_eq_left']
  cases hopen : openIndex disk k root (dirs ++ [name]) with
  | error e =>
      cases e with
      | fileNotFound => exact ⟨_, rfl⟩
      | os => exact ⟨_, rfl⟩
      | value => exact absurd rfl (raisesOnly_openIndex hname hdirs _ hopen)
  | ok found =>
      cases hread : readOpened disk (k + (dirs ++ [name]).length) root (dirs ++ [name]) found.1 found.2 (maximum compressed) with
      | error e =>
          cases e with
          | fileNotFound => exact ⟨.unusable, by simp only [hread]⟩
          | os => exact ⟨.unusable, by simp only [hread]⟩
          | value => exact absurd rfl (raisesOnly_readOpened hname hdirs _ hread)
      | ok reading => exact ⟨reading, by simp only [hread]⟩

end

end DebBuilder.Exported
