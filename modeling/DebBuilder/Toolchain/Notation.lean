import Mathlib
import DebBuilder.Toolchain.Ranges

/-!
# Reading the notation of version ranges

What the evaluation of a requirement finds in a text that is written in the notation: the
alternatives between the bars, the comparators between the separators, the operator of a
comparator, and its numbers before the first wildcard.

## Main statements

* `versionSatisfies_text` — a written range is evaluated comparator by comparator.
-/

namespace DebBuilder.Toolchain
open Lib SemVer

variable {d : Digits} {v : Version}

/-! ## Numbers -/

theorem mapM_decimal {cs : List Char} (h : ∀ c ∈ cs, c.isDigit = true) :
    cs.mapM d.decimal = some (cs.map fun c => c.toNat - '0'.toNat) := by
  induction cs with
  | nil => rfl
  | cons c cs ih =>
      have hc := d.decimal_ascii c (h c (List.mem_cons_self ..))
      have hcs := ih fun c hmem => h c (List.mem_cons_of_mem _ hmem)
      simp [List.mapM_cons, hc, hcs]

theorem int_toDigits (n : Nat) : int d (Nat.toDigits 10 n) = .ok n := by
  have hfold := Nat.ofDigitChars_ten_toDigits (n := n)
  rw [Nat.ofDigitChars_eq_foldl] at hfold
  rw [int, mapM_decimal fun c hc => isDigit_of_mem_toDigits hc, Option.map_some, List.foldl_map, demand, hfold]

theorem takeNumber_append {n : Nat} {rest : List Char} (h : ∀ c ∈ rest.head?, c.isDigit = false) :
    takeNumber (Nat.toDigits 10 n ++ rest) = some (n, rest) := by
  have hdigits : ∀ c ∈ Nat.toDigits 10 n, c.isDigit = true := fun c hc => isDigit_of_mem_toDigits hc
  have htake : rest.takeWhile Char.isDigit = [] := by
    cases rest with
    | nil => rfl
    | cons c rest => exact List.takeWhile_cons_of_neg (by simp [h c rfl])
  have hdrop : rest.dropWhile Char.isDigit = rest := by
    cases rest with
    | nil => rfl
    | cons c rest => exact List.dropWhile_cons_of_neg (by simp [h c rfl])
  simp only [takeNumber, List.takeWhile_append_of_pos hdigits, List.dropWhile_append_of_pos hdigits, htake, hdrop,
    List.append_nil]
  rw [if_neg Nat.toDigits_ne_nil, Nat.ofDigitChars_ten_toDigits]

/-! ## Versions -/

theorem version_text (v : Version) : version v.text = some v := by
  obtain ⟨major, minor, patch⟩ := v
  have hchars : ∀ c ∈ Version.text ⟨major, minor, patch⟩, InVersion c := by
    intro c hc
    simp only [Version.text, List.mem_append, List.mem_cons] at hc
    rcases hc with hc | rfl | hc | rfl | hc
    · exact .inl (isDigit_of_mem_toDigits hc)
    · exact .inr (by decide)
    · exact .inl (isDigit_of_mem_toDigits hc)
    · exact .inr (by decide)
    · exact .inl (isDigit_of_mem_toDigits hc)
  have hstrip : Text.strip (Version.text ⟨major, minor, patch⟩) = Version.text ⟨major, minor, patch⟩ :=
    strip_of_inVersion hchars
  have hhead : (Version.text ⟨major, minor, patch⟩).head?.any (· ∈ ['v', 'V']) = false := by
    cases htext : Version.text ⟨major, minor, patch⟩ with
    | nil => rfl
    | cons c rest =>
        have hc : InVersion c := hchars c (htext ▸ List.mem_cons_self ..)
        simp [hc.ne_v]
  have hdot : ∀ cs c, c ∈ ('.' :: cs).head? → c.isDigit = false := by
    rintro cs c ⟨⟩
    rfl
  have hlast : takeNumber (Nat.toDigits 10 patch ++ []) = some (patch, []) := takeNumber_append nofun
  rw [List.append_nil] at hlast
  have hmiddle : takeNumber (Nat.toDigits 10 minor ++ '.' :: Nat.toDigits 10 patch) = _ := takeNumber_append (hdot _)
  have hfirst : takeNumber (Version.text ⟨major, minor, patch⟩) = _ := takeNumber_append (hdot _)
  simp only [version, hstrip, hhead, hfirst, Option.bind_eq_bind, Option.bind_some, takeDotNumber, hmiddle, hlast,
    isSuffix, if_true, Bool.false_eq_true, if_false]

/-- The numbers before the first wildcard. -/
theorem readParts_text (parts : List Part) :
    ∃ wildcard, readParts d (parts.map Part.text) = .ok (some (numbersOf parts, wildcard)) ∧
      (wildcard = true → (numbersOf parts).length < parts.length) := by
  induction parts with
  | nil => exact ⟨false, rfl, nofun⟩
  | cons part parts ih =>
      cases part with
      | wild w => exact ⟨true, by cases w <;> rfl, fun _ => Nat.succ_pos _⟩
      | number n =>
          obtain ⟨wildcard, hread, hwild⟩ := ih
          have hdigits : ∀ c ∈ Nat.toDigits 10 n, c.isDigit = true := fun c hc => isDigit_of_mem_toDigits hc
          have hnumber : Text.lower (Nat.toDigits 10 n) ∉ [['x'], ['*']] := lower_toDigits n
          have hall : (Nat.toDigits 10 n).all d.isDigit = true := by
            rw [List.all_eq_true]
            intro c hc
            exact d.isDigit_of_decimal c _ (d.decimal_ascii c (hdigits c hc))
          refine ⟨wildcard, ?_, fun h => Nat.succ_lt_succ (hwild h)⟩
          simp only [List.map_cons, Part.text, readParts, if_neg hnumber, hall, Nat.toDigits_ne_nil, int_toDigits,
            hread]
          rfl

theorem partialVersion_text (p : Partial) :
    partialVersion d p.text = .ok (some (p.numbers, decide (p.numbers.length < 3))) := by
  obtain ⟨wildcard, hread, hwild⟩ := readParts_text (d := d) p.parts
  obtain ⟨c, rest, htext, hc⟩ := p.exists_text
  have hstrip : Text.strip p.text = p.text := strip_of_inVersion inVersion_of_mem_ofPart
  have hbare : p.text.dropWhile (· ∈ ['v', 'V']) = p.text := by
    rw [htext]
    exact List.dropWhile_cons_of_neg (by simp [hc.ne_v])
  have hsplit : p.text.splitOn '.' = p.parts.map Part.text := by
    refine List.splitOn_intercalate '.' ?_ (by simpa using p.nonempty)
    intro part hmem
    obtain ⟨part, -, rfl⟩ := List.mem_map.1 hmem
    exact part.dot_not_mem_text
  have hlength : 1 ≤ (p.parts.map Part.text).length ∧ (p.parts.map Part.text).length ≤ 3 := by
    rw [List.length_map]
    exact ⟨List.length_pos_of_ne_nil p.nonempty, p.short⟩
  have hpartial : (wildcard || decide ((numbersOf p.parts).length < 3)) = decide (p.numbers.length < 3) := by
    cases wildcard with
    | false => rfl
    | true =>
        have hshort : p.numbers.length < 3 := Nat.lt_of_lt_of_le (hwild rfl) p.short
        simp [hshort]
  simp only [partialVersion, hstrip, hbare, hsplit, if_pos hlength, hread]
  rw [← hpartial]
  rfl

/-! ## Comparators -/

/-- The operator of a comparator. -/
def operatorOf : Comparator → Option Operator
  | .plain _ => none
  | .caret _ => some .caret
  | .tilde _ => some .tilde
  | .compare .gt _ => some .gt
  | .compare .ge _ => some .ge
  | .compare .lt _ => some .lt
  | .compare .le _ => some .le
  | .compare .eq _ => some .eq

theorem exists_of_mem_operators :
    ∀ operator ∈ operators, ∃ y ∈ ['^', '~', '>', '<', '='], ∃ ys, operator.2 = y :: ys := by
  simp [operators]

theorem readOperator_text (c : Comparator) : readOperator c.text = (operatorOf c, c.base.text) := by
  obtain ⟨x, rest, htext, hx⟩ := c.base.exists_text
  -- what follows the operator is not the beginning of an operator
  have hne : ∀ y ∈ ['^', '~', '>', '<', '='], y ≠ x := by
    intro y hy
    simp only [List.mem_cons, List.not_mem_nil, or_false] at hy
    rcases hy with rfl | rfl | rfl | rfl | rfl <;> exact (hx.ne (by decide)).symm
  have hequals : '=' ≠ x := hne '=' (by decide)
  cases c with
  | plain p =>
      have hnone : operators.find? (fun operator => operator.2 <+: p.text && operator.2 ≠ p.text) = none := by
        rw [List.find?_eq_none]
        intro operator hmem
        obtain ⟨y, hy, ys, hoperator⟩ := exists_of_mem_operators operator hmem
        have hbase : p.text = x :: rest := htext
        simp [hoperator, hbase, hne y hy]
      rw [readOperator, Comparator.text, hnone]
      rfl
  | caret p =>
      have hbase : p.text = x :: rest := htext
      simp [readOperator, operators, Comparator.text, Comparator.base, operatorOf, hbase]
  | tilde p =>
      have hbase : p.text = x :: rest := htext
      simp [readOperator, operators, Comparator.text, Comparator.base, operatorOf, hbase]
  | compare r p =>
      have hbase : p.text = x :: rest := htext
      cases r <;>
        simp [readOperator, operators, Comparator.text, Relation.text, Comparator.base, operatorOf, hbase, hequals]

/-- The verdict on a comparator. -/
def verdictOn (v : Version) (c : Comparator) : Option Bool :=
  satisfied v (operatorOf c) c.base.numbers (decide (c.base.numbers.length < 3))

theorem tokenVerdict_text (c : Comparator) : tokenVerdict d v c.text = .ok (verdictOn v c) := by
  simp only [tokenVerdict, readOperator_text, partialVersion_text]
  rfl

/-- A conjunction is satisfied when all its comparators are. -/
theorem conjunction_text (cs : List Comparator) : ∃ verdict, conjunction d v (cs.map Comparator.text) = .ok verdict ∧
    (verdict = some true ↔ ∀ c ∈ cs, verdictOn v c = some true) := by
  induction cs with
  | nil => exact ⟨some true, rfl, by simp⟩
  | cons c cs ih =>
      obtain ⟨verdict, hverdict, hiff⟩ := ih
      simp only [List.map_cons, conjunction, tokenVerdict_text]
      cases hc : verdictOn v c with
      | none => exact ⟨none, rfl, by simp [hc]⟩
      | some holds =>
          cases holds with
          | false => exact ⟨some false, rfl, by simp [hc]⟩
          | true => exact ⟨verdict, hverdict, by simp [hc, hiff]⟩

/-! ## Alternatives -/

/-- The verdict on a hyphen range. -/
def hyphenHolds (v : Version) (low high : Partial) : Bool :=
  if high.numbers.length = 3 then padded low.numbers ≤ v && v ≤ padded high.numbers
  else between (padded low.numbers) (widened high.numbers (padded high.numbers)) v

theorem hyphenVerdict_text (low high : Partial) :
    hyphenVerdict d v low.text high.text = .ok (some (hyphenHolds v low high)) := by
  simp only [hyphenVerdict, partialVersion_text, hyphenHolds, bind, Except.bind]
  by_cases h : high.numbers.length = 3
  · simp only [if_pos h]
    rfl
  · simp only [if_neg h]
    rfl

/-- An alternative as the code reads it. -/
def Granted (v : Version) : Alternative → Prop
  | .hyphen low _ _ high => hyphenHolds v low high = true
  | .all first rest => ∀ c ∈ first :: rest.map Prod.snd, verdictOn v c = some true

theorem isSpace_of_mem_blanks {n : Nat} : ∀ c ∈ blanks n, Text.isSpace c = true := by
  intro c hc
  obtain rfl := List.eq_of_mem_replicate hc
  decide

theorem hyphen?_text (low high : Partial) (before after : Nat) :
    hyphen? (Alternative.hyphen low before after high).text = some (low.text, high.text) := by
  have hspace : ∀ p : Partial, ∀ c ∈ p.text, Text.isSpace c = false :=
    fun p c hc => (inVersion_of_mem_ofPart c hc).isSpace
  have hblank : ∀ n rest, ∀ c ∈ (blanks (n + 1) ++ rest).head?, Text.isSpace c = true := by
    rintro n rest c ⟨⟩
    decide
  have hend : Text.pieces Text.isSpace (high.text ++ []) = _ :=
    Text.pieces_append high.text_ne_nil (hspace high) nofun
  have hdash : Text.pieces Text.isSpace (['-'] ++ (blanks (after + 1) ++ high.text)) = _ :=
    Text.pieces_append nofun (List.forall_mem_singleton.2 rfl) (hblank after high.text)
  have hwords : Text.words (Alternative.hyphen low before after high).text = [low.text, ['-'], high.text] := by
    calc Text.pieces Text.isSpace (low.text ++ blanks (before + 1) ++ '-' :: (blanks (after + 1) ++ high.text))
        = low.text :: Text.pieces Text.isSpace (blanks (before + 1) ++ '-' :: (blanks (after + 1) ++ high.text)) := by
          rw [List.append_assoc, Text.pieces_append low.text_ne_nil (hspace low) (hblank before _)]
      _ = low.text :: Text.pieces Text.isSpace (['-'] ++ (blanks (after + 1) ++ high.text)) := by
          rw [Text.pieces_append_left isSpace_of_mem_blanks]
          rfl
      _ = [low.text, ['-'], high.text] := by
          rw [hdash, Text.pieces_append_left isSpace_of_mem_blanks, ← List.append_nil high.text, hend, Text.pieces_nil,
            List.append_nil]
  rw [hyphen?, hwords]
  rfl

theorem inConjunction_of_mem {first : Comparator} {rest : List (Separator × Comparator)} :
    ∀ c ∈ (Alternative.all first rest).text, InConjunction c := by
  intro c hc
  simp only [Alternative.text, List.mem_append] at hc
  rcases hc with hc | hc
  · exact .inl (inComparator_of_mem c hc)
  · exact inConjunction_of_mem_restText c hc

/-- A conjunction has no hyphen. -/
theorem hyphen?_all (first : Comparator) (rest : List (Separator × Comparator)) :
    hyphen? (Alternative.all first rest).text = none := by
  rw [hyphen?]
  split
  next low high hwords =>
    have hmem : ['-'] ∈ Text.pieces Text.isSpace (Alternative.all first rest).text := by
      show ['-'] ∈ Text.words _
      simp [hwords]
    have hdash : InConjunction '-' := inConjunction_of_mem _ (Text.mem_of_mem_pieces hmem '-' (by decide))
    rcases hdash with hdash | hdash | hdash
    · exact absurd rfl hdash.ne.2.2
    · exact absurd hdash (by decide)
    · exact absurd hdash (by decide)
  next => rfl

theorem tokens_text (first : Comparator) (rest : List (Separator × Comparator)) :
    tokens (Alternative.all first rest).text = (first :: rest.map Prod.snd).map Comparator.text := by
  have hword : ∀ c : Comparator, ∀ x ∈ c.text, (Text.isSpace x || decide (x = ',')) = false := by
    intro c x hx
    have hin := inComparator_of_mem x hx
    simp [hin.isSpace, hin.ne.1]
  have hseparator : ∀ s : Separator, ∀ x ∈ s.chars, (Text.isSpace x || decide (x = ',')) = true := by
    intro s x hx
    rcases s.only x hx with rfl | rfl <;> decide
  rw [tokens, Alternative.text]
  induction rest generalizing first with
  | nil =>
      have hlast := Text.pieces_append first.text_ne_nil (hword first) (nofun : ∀ x ∈ ([] : List Char).head?, _)
      rw [restText, hlast, Text.pieces_nil]
      rfl
  | cons next rest ih =>
      have hhead : ∀ x ∈ (restText (next :: rest)).head?, (Text.isSpace x || decide (x = ',')) = true := by
        obtain ⟨y, ys, hchars⟩ := List.exists_cons_of_ne_nil next.1.nonempty
        intro x hx
        simp only [restText, hchars, List.cons_append, List.head?_cons, Option.mem_some_iff] at hx
        exact hseparator next.1 x (hchars ▸ hx ▸ List.mem_cons_self ..)
      rw [Text.pieces_append first.text_ne_nil (hword first) hhead, restText, List.append_assoc,
        Text.pieces_append_left (hseparator next.1), ih next.2]
      rfl

theorem strip_text (branch : Branch) : Text.strip branch.text = branch.alternative.text := by
  have hbase : ∀ (p : Partial) (c : Char), c ∈ p.text → Text.isSpace c = false :=
    fun p c hc => (inVersion_of_mem_ofPart c hc).isSpace
  have hcomparator : ∀ (p : Comparator) (c : Char), c ∈ p.text → Text.isSpace c = false :=
    fun p c hc => (inComparator_of_mem c hc).isSpace
  refine Text.strip_append isSpace_of_mem_blanks isSpace_of_mem_blanks ?_ ?_
  · intro c hc
    cases halternative : branch.alternative with
    | hyphen low before after high =>
        rw [halternative, Alternative.text, List.append_assoc, List.head?_append_of_ne_nil _ low.text_ne_nil] at hc
        exact hbase low c (List.mem_of_mem_head? hc)
    | all first rest =>
        rw [halternative, Alternative.text, List.head?_append_of_ne_nil _ first.text_ne_nil] at hc
        exact hcomparator first c (List.mem_of_mem_head? hc)
  · intro c hc
    cases halternative : branch.alternative with
    | hyphen low before after high =>
        have htext : branch.alternative.text =
            (low.text ++ blanks (before + 1) ++ '-' :: blanks (after + 1)) ++ high.text := by
          simp [halternative, Alternative.text]
        rw [htext, List.getLast?_append_of_ne_nil _ high.text_ne_nil] at hc
        exact hbase high c (List.mem_of_getLast? hc)
    | all first rest =>
        obtain ⟨front, last, htext⟩ := restText_append first rest
        rw [halternative, Alternative.text, htext, List.getLast?_append_of_ne_nil _ last.text_ne_nil] at hc
        exact hcomparator last c (List.mem_of_getLast? hc)

theorem alternative_text_ne_nil (alternative : Alternative) : alternative.text ≠ [] := by
  cases alternative with
  | hyphen low before after high => simp [Alternative.text, low.text_ne_nil]
  | all first rest => simp [Alternative.text, first.text_ne_nil]

/-- An alternative is not blank. -/
theorem exists_notSpace (branch : Branch) : ∃ c ∈ branch.text, Text.isSpace c = false := by
  by_contra hall
  have hblank : Text.strip branch.text = [] := by
    rw [Text.strip_eq_nil]
    intro c hc
    by_contra hspace
    exact hall ⟨c, hc, by simpa using hspace⟩
  rw [strip_text] at hblank
  exact alternative_text_ne_nil _ hblank

theorem simpleRangeSatisfies_text (branch : Branch) :
    ∃ verdict, simpleRangeSatisfies d v branch.text = .ok verdict ∧
      (verdict = some true ↔ Granted v branch.alternative) := by
  rw [simpleRangeSatisfies, strip_text]
  cases branch.alternative with
  | hyphen low before after high =>
      refine ⟨some (hyphenHolds v low high), ?_, by simp [Granted]⟩
      simp only [hyphen?_text]
      exact hyphenVerdict_text low high
  | all first rest =>
      simp only [hyphen?_all, tokens_text]
      rw [if_neg (by simp)]
      exact conjunction_text _

/-! ## Ranges -/

theorem ne_bar_of_mem (branch : Branch) : ∀ c ∈ branch.text, c ≠ '|' := by
  have hblank : ∀ n, ∀ c ∈ blanks n, c ≠ '|' := by
    intro n c hc
    obtain rfl := List.eq_of_mem_replicate hc
    decide
  have halternative : ∀ c ∈ branch.alternative.text, c ≠ '|' := by
    intro c hc
    cases h : branch.alternative with
    | hyphen low before after high =>
        simp only [h, Alternative.text, List.mem_append, List.mem_cons] at hc
        rcases hc with (hc | hc) | rfl | hc | hc
        · exact (inVersion_of_mem_ofPart c hc).ne (by decide)
        · exact hblank _ c hc
        · decide
        · exact hblank _ c hc
        · exact (inVersion_of_mem_ofPart c hc).ne (by decide)
    | all first rest =>
        rw [h] at hc
        rcases inConjunction_of_mem c hc with hc | rfl | rfl
        · exact hc.ne.2.1
        · decide
        · decide
  intro c hc
  simp only [Branch.text, List.mem_append] at hc
  rcases hc with (hc | hc) | hc
  · exact hblank _ c hc
  · exact halternative c hc
  · exact hblank _ c hc

/-- The evaluation of alternatives that are written in the notation. -/
theorem mapM_simpleRangeSatisfies (range : Range) :
    ∃ verdicts, (range.map Branch.text).mapM (simpleRangeSatisfies d v) = .ok verdicts ∧
      (some true ∈ verdicts ↔ ∃ branch ∈ range, Granted v branch.alternative) := by
  induction range with
  | nil => exact ⟨[], rfl, by simp⟩
  | cons branch range ih =>
      obtain ⟨verdict, hverdict, hgranted⟩ := simpleRangeSatisfies_text (d := d) (v := v) branch
      obtain ⟨verdicts, hverdicts, hiff⟩ := ih
      refine ⟨verdict :: verdicts, ?_, ?_⟩
      · rw [List.map_cons, List.mapM_cons, hverdict, hverdicts]
        rfl
      · rw [List.mem_cons, hiff, eq_comm, hgranted]
        simp

/-- A written range is satisfied when an alternative is, comparator by comparator. -/
theorem versionSatisfies_text (range : Range) :
    ∃ verdict, versionSatisfies d (String.ofList v.text) (String.ofList range.text) = .ok verdict ∧
      (verdict = some true ↔ ∃ branch ∈ range, Granted v branch.alternative) := by
  simp only [versionSatisfies, String.toList_ofList, version_text]
  cases range with
  | nil => exact ⟨none, rfl, by simp⟩
  | cons branch range =>
      have hnotBlank : Text.strip (Range.text (branch :: range)) ≠ [] := by
        obtain ⟨c, hc, hspace⟩ := exists_notSpace branch
        intro hnil
        have hmem : c ∈ Range.text (branch :: range) :=
          List.mem_flatten.2 ⟨branch.text, by cases range <;> simp, hc⟩
        have hblank := Text.strip_eq_nil.1 hnil c hmem
        simp [hspace] at hblank
      have hsplit : Text.splitOn ['|', '|'] (Range.text (branch :: range)) = (branch :: range).map Branch.text := by
        refine Text.splitOn_intercalate nofun ?_
        intro part hmem
        obtain ⟨branch, -, rfl⟩ := List.mem_map.1 hmem
        exact ne_bar_of_mem branch
      obtain ⟨verdicts, hverdicts, hiff⟩ := mapM_simpleRangeSatisfies (d := d) (v := v) (branch :: range)
      rw [if_neg hnotBlank, hsplit, hverdicts]
      refine ⟨_, rfl, ?_⟩
      rw [← hiff]
      by_cases htrue : some true ∈ verdicts
      · simp [htrue]
      · by_cases hnone : none ∈ verdicts <;> simp [htrue, hnone]

end DebBuilder.Toolchain
