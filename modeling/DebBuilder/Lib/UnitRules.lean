import Mathlib
import DebBuilder.Lib.Text

/-!
# Reading unit files by the rules of systemd

A line that ends in a backslash of its own goes on in the next line, with a space for the
backslash.  What results is a section header, a directive with `=` between its key and its value,
or nothing.  The value of `Environment` is a row of words with quoting and escapes; in each word
`%` begins a specifier, and two of them stand for one.

## Main definitions

* `readUnit` — the headers and directives of a text.
* `words`, `expand`, `assignment` — the words of a value, their specifiers, and the variables
  they assign.
* `Carried` — a value that a line can carry.

## Main results

* `readLines_directive`, `readLines_not_carried` — a line is read with its value exactly where it
  can carry it.
* `words_quoted` — a word in quotes is read back.
* `expand_eq_self_iff` — the texts that stand for themselves, whatever the specifiers stand for.
-/

namespace Lib
namespace UnitRules

-- Texts are decided along their characters, not over all characters there are.
attribute [local instance (2000)] List.decidableBAll List.decidableBEx

/-! ## Lines -/

def margin (c : Char) : Bool := c == ' ' || c == '\t' || c == '\n' || c == '\r'

def trim (cs : List Char) : List Char := (cs.dropWhile margin).rdropWhile margin

/-- The line ends in a backslash that no other one escapes. -/
def goesOn (line : List Char) : Bool := line.foldl (fun escaped c => !escaped && c == '\\') false

/-- A line that is skipped. -/
def isComment (line : List Char) : Bool :=
  (line.dropWhile margin).head?.any fun c => c == '#' || c == ';'

/-- What a line says. -/
inductive Item where
  | header (name : List Char)
  | directive (key value : List Char)
  | unread (line : List Char)
deriving DecidableEq

/-- What a line says, without the blanks before it. -/
def itemOf : List Char → Option Item
  | [] => none
  | '[' :: cs => some (if cs.getLast? = some ']' then .header cs.dropLast else .unread ('[' :: cs))
  | c :: cs => some (match Text.cut ['='] (c :: cs) with
      | some (key, value) => .directive (trim key) (trim value)
      | none => .unread (c :: cs))

def item (line : List Char) : Option Item := itemOf (line.dropWhile margin)

/-- What the lines say, behind the beginning of a line that goes on. -/
def readLines (pending : List Char) : List (List Char) → List Item
  | [] => (item pending).toList
  | line :: rest =>
      if isComment line then readLines pending rest
      else if goesOn (pending ++ line) then readLines ((pending ++ line).dropLast ++ [' ']) rest
      else (item (pending ++ line)).toList ++ readLines [] rest

def readUnit (text : String) : List Item := readLines [] (text.toList.splitOn '\n')

/-! ## Words -/

def quotationMark (c : Char) : Bool := c == '"' || c == Char.ofNat 39

def hexValue (c : Char) : Option Nat :=
  if c.isDigit then some (c.toNat - '0'.toNat)
  else if 'a' ≤ c ∧ c ≤ 'f' then some (c.toNat - 'a'.toNat + 10)
  else if 'A' ≤ c ∧ c ≤ 'F' then some (c.toNat - 'A'.toNat + 10)
  else none

/-- The number that the digits stand for. -/
def number (base : Nat) (digits : List Char) : Option Nat :=
  digits.foldlM (fun value c => (hexValue c).bind fun digit =>
    if digit < base then some (value * base + digit) else none) 0

/-- The character that `length` digits stand for, below `bound`. -/
def numbered (base length bound : Nat) (cs : List Char) : Option Char :=
  if cs.length < length then none
  else (number base (cs.take length)).bind fun n => if 0 < n ∧ n < bound ∧ n.isValidChar then some (Char.ofNat n) else none

/-- What a backslash and the characters behind it stand for, and how many these are. Bytes above
the seven bits of ASCII are no characters. -/
def unescape : List Char → Option (Char × Nat)
  | [] => none
  | c :: cs =>
      if c = '\\' ∨ quotationMark c then some (c, 1)
      else match c with
        | 'a' => some (Char.ofNat 7, 1)
        | 'b' => some (Char.ofNat 8, 1)
        | 'f' => some (Char.ofNat 12, 1)
        | 'n' => some ('\n', 1)
        | 'r' => some ('\r', 1)
        | 't' => some ('\t', 1)
        | 'v' => some (Char.ofNat 11, 1)
        | 's' => some (' ', 1)
        | 'x' => (numbered 16 2 128 cs).map fun d => (d, 3)
        | 'u' => (numbered 16 4 0x110000 cs).map fun d => (d, 5)
        | 'U' => (numbered 16 8 0x110000 cs).map fun d => (d, 9)
        | c => (numbered 8 3 128 (c :: cs)).map fun d => (d, 3)

/-- The words that are left of a value: `skip` characters have been read with an escape, `quote` is
open, and `word` has begun. Behind an error nothing is read. -/
def wordsFrom (skip : Nat) (quote : Option Char) (word : Option (List Char)) : List Char → List (List Char)
  | [] => if quote.isSome then [] else word.toList
  | c :: rest =>
      if 0 < skip then wordsFrom (skip - 1) quote word rest
      else if c = '\\' then
        match unescape rest with
        | none => []
        | some (d, n) => wordsFrom n quote (some (word.getD [] ++ [d])) rest
      else match quote with
        | some q =>
            if c = q then wordsFrom 0 none (some (word.getD [])) rest
            else wordsFrom 0 (some q) (some (word.getD [] ++ [c])) rest
        | none =>
            if quotationMark c then wordsFrom 0 (some c) (some (word.getD [])) rest
            else if margin c then word.toList ++ wordsFrom 0 none none rest
            else wordsFrom 0 none (some (word.getD [] ++ [c])) rest

def words (value : List Char) : List (List Char) := wordsFrom 0 none none value

/-- The text with its specifiers resolved. An unknown one stays as it is. -/
def expand (specifier : Char → Option (List Char)) : List Char → List Char
  | '%' :: c :: cs =>
      if c = '%' then '%' :: expand specifier cs
      else match specifier c with
        | some text => text ++ expand specifier cs
        | none => '%' :: c :: expand specifier cs
  | c :: cs => c :: expand specifier cs
  | [] => []

def nameChar (c : Char) : Bool := c.isAlphanum || c == '_'

/-- A name that a variable can have. -/
def isName (name : List Char) : Bool := name.head?.any (fun c => !c.isDigit) && name.all nameChar

/-- The variable that a word assigns. -/
def assignment (word : List Char) : Option (List Char × List Char) :=
  (Text.cut ['='] word).bind fun parts => if isName parts.1 then some parts else none

/-- The variables that a value of `Environment` assigns. -/
def assignments (specifier : Char → Option (List Char)) (value : List Char) : List (List Char × List Char) :=
  (words value).filterMap fun word => assignment (expand specifier word)

example : words "\"A=b c\\\"\" D='e' f\\x41".toList = ["A=b c\"".toList, "D=e".toList, "fA".toList] := by decide +kernel

/-! ## Reading lines -/

variable {key value line name pending : List Char} {rest : List (List Char)}

theorem goesOn_concat (line : List Char) (c : Char) : goesOn (line ++ [c]) = (!goesOn line && c == '\\') := by
  rw [goesOn, List.foldl_append]
  rfl

theorem goesOn_space (line : List Char) : goesOn (line ++ [' ']) = false := by
  rw [goesOn_concat]
  exact Bool.and_false _

/-- Only what is behind another character counts. -/
theorem goesOn_append {c : Char} (hc : c ≠ '\\') : goesOn (line ++ c :: value) = goesOn value := by
  have hline : goesOn (line ++ [c]) = false := by
    rw [goesOn_concat, beq_false_of_ne hc]
    exact Bool.and_false _
  rw [List.append_cons, goesOn, List.foldl_append]
  exact congrArg (fun escaped => value.foldl _ escaped) hline

theorem getLast?_of_goesOn (h : goesOn value = true) : ∃ before, value = before ++ ['\\'] := by
  induction value using List.reverseRecOn with
  | nil => exact absurd h (by decide)
  | append_singleton before c _ =>
      rw [goesOn_concat, Bool.and_eq_true, beq_iff_eq] at h
      exact ⟨before, by rw [h.2]⟩

theorem trim_prefix (cs : List Char) : trim cs <+: cs.dropWhile margin := List.rdropWhile_prefix _ _

theorem margin_head_trim (cs : List Char) : (trim cs).head?.any margin = false := by
  obtain ⟨after, hafter⟩ := trim_prefix cs
  cases htrim : trim cs with
  | nil => rfl
  | cons c trimmed =>
      have hne : cs.dropWhile margin ≠ [] := by
        rw [← hafter, htrim]
        exact List.cons_ne_nil _ _
      have hhead := List.head_dropWhile_not margin hne
      simpa [← hafter, htrim] using hhead

theorem trim_eq_self (h : ∀ c ∈ value, margin c = false) : trim value = value := by
  have hdrop : value.dropWhile margin = value := by
    cases value with
    | nil => rfl
    | cons c cs => exact List.dropWhile_cons_of_neg (by simp [h c])
  rw [trim, hdrop, List.rdropWhile_eq_self_iff]
  intro hne
  simp [h _ (List.getLast_mem hne)]

/-- A key of letters and digits. -/
def IsKey (key : List Char) : Prop := key ≠ [] ∧ ∀ c ∈ key, c.isAlphanum = true

instance (key : List Char) : Decidable (IsKey key) := by unfold IsKey; infer_instance

theorem margin_of_isAlphanum {c : Char} (hc : c.isAlphanum = true) : margin c = false := by
  by_contra hmargin
  simp only [margin, Bool.not_eq_false, Bool.or_eq_true, beq_iff_eq] at hmargin
  obtain ((rfl | rfl) | rfl) | rfl := hmargin <;> revert hc <;> decide

theorem IsKey.exists_cons (hkey : IsKey key) : ∃ c cs, key = c :: cs ∧ c.isAlphanum = true := by
  obtain ⟨c, cs, rfl⟩ := List.exists_cons_of_ne_nil hkey.1
  exact ⟨c, cs, rfl, hkey.2 c List.mem_cons_self⟩

theorem dropWhile_key (hkey : IsKey key) : (key ++ value).dropWhile margin = key ++ value := by
  obtain ⟨c, cs, rfl, hc⟩ := hkey.exists_cons
  exact List.dropWhile_cons_of_neg (by simp [margin_of_isAlphanum hc])

theorem isComment_key (hkey : IsKey key) : isComment (key ++ value) = false := by
  rw [isComment, dropWhile_key hkey]
  obtain ⟨c, cs, rfl, hc⟩ := hkey.exists_cons
  by_contra hcomment
  simp only [List.cons_append, List.head?_cons, Option.any_some, Bool.not_eq_false, Bool.or_eq_true, beq_iff_eq] at hcomment
  rcases hcomment with rfl | rfl <;> revert hc <;> decide

/-- A line with a key before its first `=`. -/
theorem item_key (hkey : IsKey key) : item (key ++ '=' :: value) = some (.directive key (trim value)) := by
  have hcut : Text.cut ['='] (key ++ (['='] ++ value)) = some (key, value) := by
    apply Text.cut_append
    rintro c hc rfl
    exact absurd (hkey.2 _ hc) (by decide)
  have htrim : trim key = key := trim_eq_self fun c hc => margin_of_isAlphanum (hkey.2 c hc)
  rw [item, dropWhile_key hkey]
  change Text.cut ['='] (key ++ '=' :: value) = _ at hcut
  obtain ⟨c, cs, rfl, hc⟩ := hkey.exists_cons
  have hbracket : c ≠ '[' := by
    rintro rfl
    exact absurd hc (by decide)
  rw [List.cons_append] at hcut ⊢
  rw [itemOf, hcut]
  · exact congrArg (fun key => some (Item.directive key (trim value))) htrim
  · simpa using hbracket

theorem readLines_blank : readLines [] ([] :: rest) = readLines [] rest := rfl

theorem readLines_header :
    readLines [] (('[' :: name ++ [']']) :: rest) = .header name :: readLines [] rest := by
  have hgoes : goesOn ('[' :: name ++ [']']) = false := by
    rw [goesOn_concat]
    exact Bool.and_false _
  have hitem : item ('[' :: name ++ [']']) = some (.header name) := by
    rw [item, List.cons_append, List.dropWhile_cons_of_neg (by decide), itemOf, List.getLast?_concat, if_pos rfl,
      List.dropLast_concat]
  rw [readLines, List.nil_append, hgoes, hitem]
  rfl

/-- A value that a line can carry: no blanks around it, and no backslash of its own at its end. -/
def Carried (value : List Char) : Prop := goesOn value = false ∧ trim value = value

instance (value : List Char) : Decidable (Carried value) := by unfold Carried; infer_instance

theorem readLines_complete (hkey : IsKey key) (hgoes : goesOn value = false) :
    readLines [] ((key ++ '=' :: value) :: rest) = .directive key (trim value) :: readLines [] rest := by
  rw [readLines, isComment_key hkey, List.nil_append, goesOn_append (by decide), hgoes, item_key hkey]
  rfl

theorem readLines_directive (hkey : IsKey key) (hvalue : Carried value) :
    readLines [] ((key ++ '=' :: value) :: rest) = .directive key value :: readLines [] rest := by
  rw [readLines_complete hkey hvalue.1, hvalue.2]

/-- Neither a blank nor a backslash begins the line. -/
def PlainHead (line : List Char) : Prop := ∀ c ∈ line.head?, margin c = false ∧ c ≠ '\\'

theorem dropLast_line (hline : line ≠ []) :
    (key ++ '=' :: (value ++ line)).dropLast = key ++ '=' :: (value ++ line.dropLast) := by
  have happend : key ++ '=' :: (value ++ line) = (key ++ '=' :: value) ++ line := by simp
  rw [happend, List.dropLast_append_of_ne_nil hline]
  simp

/-- What is pending is read with the beginnings of the lines that follow. -/
theorem readLines_pending (hkey : IsKey key) (hvalue : goesOn value = false) (hrest : ∀ line ∈ rest, PlainHead line) :
    ∃ more items, readLines (key ++ '=' :: value) rest = .directive key (trim (value ++ more)) :: items ∧
      PlainHead more := by
  induction rest generalizing value with
  | nil =>
      refine ⟨[], [], ?_, nofun⟩
      rw [readLines, item_key hkey, List.append_nil]
      rfl
  | cons line rest ih =>
      have hlater : ∀ l ∈ rest, PlainHead l := fun l hl => hrest l (List.mem_cons_of_mem _ hl)
      rw [readLines]
      by_cases hcomment : isComment line = true
      · rw [if_pos hcomment]
        exact ih hvalue hlater
      have hline : key ++ '=' :: value ++ line = key ++ '=' :: (value ++ line) := by simp
      rw [if_neg hcomment, hline, goesOn_append (by decide)]
      by_cases hgoes : goesOn (value ++ line) = true
      · -- the line is not empty, and no lone backslash
        obtain ⟨c, cs, rfl⟩ : ∃ c cs, line = c :: cs := by
          apply List.exists_cons_of_ne_nil
          rintro rfl
          rw [List.append_nil, hvalue] at hgoes
          cases hgoes
        have hhead := hrest _ List.mem_cons_self c rfl
        obtain ⟨d, ds, rfl⟩ : ∃ d ds, cs = d :: ds := by
          apply List.exists_cons_of_ne_nil
          rintro rfl
          rw [goesOn_concat, Bool.and_eq_true, beq_iff_eq] at hgoes
          exact hhead.2 hgoes.2
        have hdrop : (key ++ '=' :: (value ++ c :: d :: ds)).dropLast ++ [' '] =
            key ++ '=' :: (value ++ c :: ((d :: ds).dropLast ++ [' '])) := by
          rw [dropLast_line (List.cons_ne_nil _ _)]
          simp
        have hspace : goesOn (value ++ c :: ((d :: ds).dropLast ++ [' '])) = false := by
          rw [← List.cons_append, ← List.append_assoc]
          exact goesOn_space _
        obtain ⟨more, items, hread, -⟩ := ih hspace hlater
        refine ⟨c :: ((d :: ds).dropLast ++ [' ']) ++ more, items, ?_, ?_⟩
        · rw [if_pos hgoes, hdrop, hread]
          simp
        · intro e he
          rwa [← Option.some.inj he]
      · rw [if_neg hgoes, item_key hkey]
        exact ⟨line, readLines [] rest, rfl, hrest line List.mem_cons_self⟩

/-- What a line cannot carry is read as another value. -/
theorem readLines_not_carried (hkey : IsKey key) (hvalue : ¬ Carried value) (hrest : ∀ line ∈ rest, PlainHead line) :
    ∃ value' items, readLines [] ((key ++ '=' :: value) :: rest) = .directive key value' :: items ∧ value' ≠ value := by
  by_cases hgoes : goesOn value = true
  · obtain ⟨before, rfl⟩ := getLast?_of_goesOn hgoes
    have hdrop : (key ++ '=' :: (before ++ ['\\'])).dropLast ++ [' '] = key ++ '=' :: (before ++ [' ']) := by
      rw [dropLast_line (List.cons_ne_nil _ _)]
      simp
    obtain ⟨more, items, hread, hmore⟩ := readLines_pending hkey (goesOn_space before) hrest
    refine ⟨trim (before ++ [' '] ++ more), items, ?_, ?_⟩
    · rw [readLines, isComment_key hkey, List.nil_append, goesOn_append (by decide), if_neg (by simp), if_pos hgoes, hdrop,
        hread]
    · intro heq
      have hprefix := trim_prefix (before ++ [' '] ++ more)
      have hhead := margin_head_trim (before ++ [' '] ++ more)
      rw [heq] at hprefix hhead
      cases before with
      | nil =>
          -- the space is dropped, and the next line would have to begin with the backslash
          rw [List.nil_append, List.nil_append, List.singleton_append, List.dropWhile_cons_of_pos (by decide)] at hprefix
          cases more with
          | nil => exact absurd hprefix (by decide)
          | cons c cs =>
              have hc := hmore c rfl
              rw [List.dropWhile_cons_of_neg (by simp [hc.1])] at hprefix
              exact hc.2 (List.cons_prefix_cons.1 hprefix).1.symm
      | cons c cs =>
          have hc : margin c = false := by simpa using hhead
          rw [List.cons_append, List.cons_append, List.cons_append, List.dropWhile_cons_of_neg (by simp [hc]),
            List.cons_prefix_cons, List.append_assoc, List.prefix_append_right_inj] at hprefix
          exact absurd (List.cons_prefix_cons.1 hprefix.2).1 (by decide)
  · rw [Bool.not_eq_true] at hgoes
    exact ⟨trim value, readLines [] rest, readLines_complete hkey hgoes, fun heq => hvalue ⟨hgoes, heq⟩⟩

/-! ## Reading words -/

variable {specifier : Char → Option (List Char)} {known : Char → Bool} {text : List Char}

/-- A backslash before what would end the word or begin an escape. -/
def escapeChar (c : Char) : List Char := if c = '\\' ∨ c = '"' then ['\\', c] else [c]

theorem wordsFrom_escaped (text word : List Char) :
    wordsFrom 0 (some '"') (some word) (text.flatMap escapeChar ++ ['"']) = [word ++ text] := by
  induction text generalizing word with
  | nil => simp [wordsFrom]
  | cons c cs ih =>
      rw [List.flatMap_cons, escapeChar]
      by_cases hc : c = '\\' ∨ c = '"'
      · rw [if_pos hc]
        have hunescape : unescape (c :: (cs.flatMap escapeChar ++ ['"'])) = some (c, 1) := by
          simp only [unescape]
          exact if_pos (hc.imp_right fun hquote => by rw [hquote]; rfl)
        simp only [List.cons_append, List.nil_append]
        rw [wordsFrom, if_neg (by decide), if_pos rfl, hunescape]
        simp only [Option.getD_some]
        rw [wordsFrom, if_pos (by decide), ih]
        simp
      · rw [if_neg hc]
        rw [not_or] at hc
        rw [List.singleton_append, List.cons_append, wordsFrom, if_neg (by decide), if_neg hc.1]
        simp only [if_neg hc.2, Option.getD_some]
        rw [ih]
        simp

/-- One word, in quotation marks. -/
theorem words_quoted (text : List Char) : words ('"' :: (text.flatMap escapeChar ++ ['"'])) = [text] := by
  rw [words, wordsFrom]
  exact wordsFrom_escaped text []

/-- No `%` of the text begins a specifier or stands before another. -/
def Literal (known : Char → Bool) (text : List Char) : Prop :=
  ∀ c, ['%', c] <:+: text → c ≠ '%' ∧ known c = false

/-- The specifiers, all standing for nothing. -/
def vanishing (known : Char → Bool) (c : Char) : Option (List Char) := if known c then some [] else none

theorem expand_cons {c : Char} (hc : c ≠ '%') (cs : List Char) : expand specifier (c :: cs) = c :: expand specifier cs := by
  rw [expand]
  intro d ds heq
  exact absurd heq hc

theorem expand_append (h : '%' ∉ text) (rest : List Char) : expand specifier (text ++ rest) = text ++ expand specifier rest := by
  induction text with
  | nil => rfl
  | cons c cs ih =>
      rw [List.mem_cons, not_or] at h
      rw [List.cons_append, expand_cons (Ne.symm h.1), ih h.2, List.cons_append]

theorem length_expand_le (h : ∀ c text, specifier c = some text → text = []) (text : List Char) :
    (expand specifier text).length ≤ text.length := by
  fun_induction expand specifier text with
  | case1 cs ih =>
      simp only [List.length_cons]
      omega
  | case2 c cs _ resolved hresolved ih =>
      simp only [h c resolved hresolved, List.nil_append, List.length_cons]
      omega
  | case3 c cs _ _ ih =>
      simp only [List.length_cons]
      omega
  | case4 c cs _ ih =>
      simp only [List.length_cons]
      omega
  | case5 => exact Nat.le_refl _

theorem Literal.of_cons {c : Char} {cs : List Char} (h : Literal known (c :: cs)) : Literal known cs :=
  fun d hd => h d (hd.trans (List.suffix_cons c cs).isInfix)

theorem expand_of_literal (hknown : ∀ c, (specifier c).isSome = known c) (h : Literal known text) :
    expand specifier text = text := by
  fun_induction expand specifier text with
  | case1 cs ih => exact absurd rfl (h '%' (List.prefix_append ['%', '%'] cs).isInfix).1
  | case2 c cs _ resolved hresolved ih =>
      have hfalse := (h c (List.prefix_append ['%', c] cs).isInfix).2
      rw [← hknown, hresolved] at hfalse
      cases hfalse
  | case3 c cs _ _ ih => rw [ih h.of_cons.of_cons]
  | case4 c cs _ ih => rw [ih h.of_cons]
  | case5 => rfl

/-- Where all specifiers stand for nothing, only a literal text is left as it is. -/
theorem literal_of_expand (hempty : ∀ c text, specifier c = some text → text = [])
    (hknown : ∀ c, (specifier c).isSome = known c) (h : expand specifier text = text) : Literal known text := by
  fun_induction expand specifier text with
  | case1 cs ih =>
      have hlength := congrArg List.length (List.cons.inj h).2
      have hle := length_expand_le hempty cs
      simp only [List.length_cons] at hlength
      omega
  | case2 c cs _ resolved hresolved ih =>
      rw [hempty c resolved hresolved, List.nil_append] at h
      have hlength := congrArg List.length h
      have hle := length_expand_le hempty cs
      simp only [List.length_cons] at hlength
      omega
  | case3 c cs hc hnone ih =>
      have hrest : Literal known cs := ih (List.cons.inj (List.cons.inj h).2).2
      intro d hd
      rcases List.infix_cons_iff.1 hd with hprefix | hd
      · obtain rfl := (List.cons_prefix_cons.1 (List.cons_prefix_cons.1 hprefix).2).1
        refine ⟨hc, ?_⟩
        rw [← hknown, hnone]
        rfl
      · rcases List.infix_cons_iff.1 hd with hprefix | hd
        · exact absurd (List.cons_prefix_cons.1 hprefix).1.symm hc
        · exact hrest d hd
  | case4 c cs hnot ih =>
      have hrest : Literal known cs := ih (List.cons.inj h).2
      intro d hd
      rcases List.infix_cons_iff.1 hd with hprefix | hd
      · obtain ⟨hc, hprefix⟩ := List.cons_prefix_cons.1 hprefix
        obtain ⟨ds, hds⟩ := hprefix
        exact absurd hds.symm (hnot d ds hc.symm)
      · exact hrest d hd
  | case5 =>
      intro d hd
      exact absurd (List.eq_nil_of_infix_nil hd) (List.cons_ne_nil _ _)

theorem isSome_vanishing (known : Char → Bool) (c : Char) : (vanishing known c).isSome = known c := by
  rw [vanishing]
  cases known c <;> rfl

/-- A text stands for itself, whatever the specifiers stand for, exactly when it is literal. -/
theorem expand_eq_self_iff :
    (∀ specifier, (∀ c, (specifier c).isSome = known c) → expand specifier text = text) ↔ Literal known text := by
  constructor
  · intro h
    refine literal_of_expand ?_ (isSome_vanishing known) (h _ (isSome_vanishing known))
    intro c resolved hresolved
    rw [vanishing] at hresolved
    split at hresolved
    · exact (Option.some.inj hresolved).symm
    · cases hresolved
  · intro h specifier hknown
    exact expand_of_literal hknown h

theorem literal_of_notMem (h : '%' ∉ text) : Literal known text :=
  fun _ hc => absurd (hc.subset List.mem_cons_self) h

/-! ## Reading variables -/

variable {key value : List Char}

theorem isName_of_assignment {word : List Char} (h : assignment word = some (key, value)) : isName key = true := by
  obtain ⟨parts, -, hparts⟩ := Option.bind_eq_some_iff.1 h
  split at hparts
  · next hname =>
    rw [Option.some.inj hparts] at hname
    exact hname
  · cases hparts

theorem assignment_of_isName (h : isName key = true) : assignment (key ++ '=' :: value) = some (key, value) := by
  have hcut : Text.cut ['='] (key ++ (['='] ++ value)) = some (key, value) := by
    apply Text.cut_append
    rintro c hc rfl
    rw [isName, Bool.and_eq_true, List.all_eq_true] at h
    exact absurd (h.2 _ hc) (by decide)
  change Text.cut ['='] (key ++ '=' :: value) = _ at hcut
  rw [assignment, hcut]
  exact if_pos h

theorem percent_notMem_of_isName (h : isName key = true) : '%' ∉ key := by
  rw [isName, Bool.and_eq_true, List.all_eq_true] at h
  intro hmem
  exact absurd (h.2 _ hmem) (by decide)

theorem escape_of_isName (h : isName key = true) : key.flatMap escapeChar = key := by
  rw [isName, Bool.and_eq_true, List.all_eq_true] at h
  have hall : ∀ c ∈ key, escapeChar c = [c] := by
    intro c hc
    rw [escapeChar, if_neg]
    rintro (rfl | rfl) <;> exact absurd (h.2 _ hc) (by decide)
  rw [List.flatMap_congr hall, List.flatMap_singleton']

theorem assignments_of_isName (h : isName key = true) :
    assignments specifier ('"' :: (key ++ '=' :: (value.flatMap escapeChar ++ ['"']))) = [(key, expand specifier value)] := by
  have hescape : key ++ '=' :: (value.flatMap escapeChar ++ ['"']) =
      (key ++ '=' :: value).flatMap escapeChar ++ ['"'] := by
    have hequals : escapeChar '=' = ['='] := rfl
    rw [List.flatMap_append, List.flatMap_cons, escape_of_isName h, hequals]
    simp
  have hexpand : expand specifier (key ++ '=' :: value) = key ++ '=' :: expand specifier value := by
    rw [expand_append (percent_notMem_of_isName h), expand_cons (by decide)]
  rw [assignments, hescape, words_quoted, List.filterMap_cons, hexpand, assignment_of_isName h]
  rfl

/-- One variable in quotation marks is assigned its value exactly when its name is one that a
variable can have and the specifiers leave the value as it is. -/
theorem assignments_quoted_iff :
    assignments specifier ('"' :: (key ++ '=' :: (value.flatMap escapeChar ++ ['"']))) = [(key, value)] ↔
      isName key = true ∧ expand specifier value = value := by
  constructor
  · intro h
    have hmem : (key, value) ∈ assignments specifier ('"' :: (key ++ '=' :: (value.flatMap escapeChar ++ ['"']))) := by
      rw [h]
      exact List.mem_singleton_self _
    obtain ⟨word, -, hword⟩ := List.mem_filterMap.1 hmem
    have hname := isName_of_assignment hword
    refine ⟨hname, ?_⟩
    rw [assignments_of_isName hname] at h
    exact (Prod.mk.inj (List.singleton_inj.1 h)).2
  · rintro ⟨hname, hvalue⟩
    rw [assignments_of_isName hname, hvalue]

end UnitRules
end Lib
