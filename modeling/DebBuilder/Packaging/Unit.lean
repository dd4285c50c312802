import Mathlib
import DebBuilder.Lib.Replace
import DebBuilder.Lib.UnitRules
import DebBuilder.Packaging.Control

/-!
# The generated systemd unit

The unit of a service is written from its Recipe, a directive for each value that is not empty.
Values are checked for line breaks only, and those of the environment are escaped.

## Main definitions

* `generateUnit` — the text of the unit.
* `SaysUnit` — the text, read by the rules of systemd, is what the Recipe has, whatever the
  specifiers stand for.
* `Expressible` — the values that the lines can carry.

## Main results

* `unit_says_iff` — the text says what the Recipe says exactly where its values are of this kind.
-/

namespace DebBuilder.Packaging

open Lib Lib.UnitRules Recipe

-- Texts are decided along their characters, not over all characters there are.
attribute [local instance (2000)] List.decidableBAll List.decidableBEx

/-! ## Generation -/

def lineEnd (c : Char) : Bool := c == '\n' || c == '\r' || c == Char.ofNat 0

/-- `_safe` -/
def safe (text : String) : Fallible String := do
  refuse (text.toList.any lineEnd = true) (.value "systemd directive values must be single-line strings")
  return text

def directive (key : String) (value : List Char) : List Char := key.toList ++ '=' :: value

/-- `_lines(key, values)` -/
def directiveLines (key : String) (values : List String) : Fallible (List (List Char)) :=
  (values.filter (· ≠ "")).mapM fun value => do
    let text ← safe value
    return directive key text.toList

/-- `f'Environment="{_safe(key)}={escaped}"'` -/
def environmentLine (entry : String × String) : Fallible (List Char) := do
  let value ← safe entry.2
  let escaped := Text.replace ['"'] ['\\', '"'] (Text.replace ['\\'] ['\\', '\\'] value.toList)
  let key ← safe entry.1
  return directive "Environment" ('"' :: (key.toList ++ '=' :: (escaped ++ ['"'])))

def ambientLines (capabilities : List String) : Fallible (List (List Char)) := do
  let texts ← capabilities.mapM safe
  return if capabilities = [] then [] else [directive "AmbientCapabilities" (" ".intercalate texts).toList]

/-- The directives of the unit, up to its sections. A single value is a list of one. -/
def unitSettings (service : Service) : List (String × List String) :=
  [("Description", [service.description]), ("Conflicts", service.conflicts), ("After", service.after),
    ("Wants", service.wants), ("Requires", service.requires)]

/-- The directives of the service before its environment. -/
def accountSettings (service : Service) : List (String × List String) :=
  [("Type", [service.type]), ("User", [service.user]), ("Group", [service.group]),
    ("WorkingDirectory", [service.workingDirectory]), ("EnvironmentFile", service.environmentFiles)]

/-- The directives of the service behind its environment. -/
def commandSettings (service : Service) : List (String × List String) :=
  [("ExecStartPre", service.execStartPre), ("ExecStart", [service.command]), ("ExecStartPost", service.execStartPost),
    ("ExecStop", service.execStop), ("LimitNOFILE", [service.limitNofile]), ("KillMode", [service.killMode]),
    ("Restart", [service.restart]), ("RestartSec", [service.restartSec]), ("TimeoutStartSec", [service.timeoutStartSec]),
    ("TimeoutStopSec", [service.timeoutStopSec]), ("KillSignal", [service.killSignal]),
    ("StandardOutput", [service.standardOutput]), ("StandardError", [service.standardError]),
    ("SyslogIdentifier", [service.syslogIdentifier])]

def settingLines (settings : List (String × List String)) : Fallible (List (List Char)) :=
  List.flatten <$> settings.mapM fun setting => directiveLines setting.1 setting.2

/-- `generate_unit(service)` -/
def generateUnit (service : Service) : Fallible String := do
  let unit ← settingLines (unitSettings service)
  let account ← settingLines (accountSettings service)
  let environment ← service.environment.mapM environmentLine
  let commands ← settingLines (commandSettings service)
  let ambient ← ambientLines service.ambientCapabilities
  let lines := "[Unit]".toList :: unit ++ ([[], "[Service]".toList] ++ account ++ environment ++ commands ++ ambient) ++
    [[], "[Install]".toList, "WantedBy=multi-user.target".toList, []]
  return String.ofList (['\n'].intercalate lines ++ ['\n'])

/-! ## What is meant -/

/-- What a unit says. -/
inductive Setting where
  | header (name : List Char)
  | directive (key value : List Char)
  | assigns (entries : List (List Char × List Char))
  | unread
deriving DecidableEq

/-- What an item says; the value of `Environment` assigns variables. -/
def meaningOf (specifier : Char → Option (List Char)) : Item → Setting
  | .header name => .header name
  | .directive key value =>
      if key = "Environment".toList then .assigns (assignments specifier value) else .directive key value
  | .unread _ => .unread

/-- What a line is written for. -/
inductive Row where
  | blank
  | header (name : String)
  | setting (key value : String)
  | assign (name value : String)

def Row.line : Row → List Char
  | blank => []
  | header name => '[' :: name.toList ++ [']']
  | setting key value => directive key value.toList
  | assign name value =>
      directive "Environment" ('"' :: (name.toList ++ '=' :: (value.toList.flatMap escapeChar ++ ['"'])))

def Row.meaning : Row → Option Setting
  | blank => none
  | header name => some (.header name.toList)
  | setting key value => some (.directive key.toList value.toList)
  | assign name value => some (.assigns [(name.toList, value.toList)])

/-- One directive for each value that is not empty. -/
def settingRows (settings : List (String × List String)) : List Row :=
  settings.flatMap fun setting => (setting.2.filter (· ≠ "")).map (Row.setting setting.1)

def ambientRows (capabilities : List String) : List Row :=
  if capabilities = [] then [] else [.setting "AmbientCapabilities" (" ".intercalate capabilities)]

/-- The unit, line by line. -/
def unitRows (service : Service) : List Row :=
  Row.header "Unit" :: settingRows (unitSettings service) ++ ([Row.blank, .header "Service"] ++
    settingRows (accountSettings service) ++ service.environment.map (fun entry => Row.assign entry.1 entry.2) ++
    settingRows (commandSettings service) ++ ambientRows service.ambientCapabilities) ++
  [Row.blank, .header "Install", .setting "WantedBy" "multi-user.target", .blank, .blank]

/-- What the Recipe has: one directive for each value, and one variable for each entry of the
environment, in order. -/
def intendedUnit (service : Service) : List Setting := (unitRows service).filterMap Row.meaning

/-- The text says what the Recipe has. On a host the specifiers `known` stand for something. -/
def SaysUnit (known : Char → Bool) (service : Service) (text : String) : Prop :=
  ∀ specifier : Char → Option (List Char), (∀ c, (specifier c).isSome = known c) →
    (readUnit text).map (meaningOf specifier) = intendedUnit service

/-- The values that the Recipe leaves open. -/
def freeValues (service : Service) : List String :=
  service.after ++ service.wants ++ service.requires ++ service.environmentFiles ++ service.execStartPre ++
    service.execStartPost ++ service.execStop ++ [service.description, service.command, service.restartSec,
      service.timeoutStartSec, service.timeoutStopSec, service.killSignal, service.standardOutput, service.standardError]

/-- What the lines can carry: values without blanks around them and without a backslash of their
own at the end, and variables with a proper name and no specifier in their value. -/
structure Expressible (known : Char → Bool) (service : Service) : Prop where
  values : ∀ value ∈ freeValues service, Carried value.toList
  environment : ∀ entry ∈ service.environment, isName entry.1.toList = true ∧ Literal known entry.2.toList

/-! ## The generated text -/

variable {service : Service} {text : String} {specifier : Char → Option (List Char)} {known : Char → Bool}
  {row : Row} {rows : List Row} {settings : List (String × List String)} {lines : List (List Char)}

theorem replace_singleton (a : Char) (new cs : List Char) :
    Text.replace [a] new cs = cs.flatMap fun c => if c = a then new else [c] := by
  induction cs with
  | nil => rfl
  | cons c cs ih =>
      rw [Text.replace, Text.replaceFrom, List.flatMap_cons]
      by_cases hc : c = a
      · subst hc
        have hprefix : [c] <+: c :: cs := List.prefix_append [c] cs
        rw [if_pos hprefix, if_pos rfl]
        exact congrArg (new ++ ·) ih
      · have hnot : ¬ [a] <+: c :: cs := fun hprefix => hc (List.cons_prefix_cons.1 hprefix).1.symm
        rw [if_neg hnot, if_neg hc]
        exact congrArg (c :: ·) ih

theorem replace_replace (cs : List Char) :
    Text.replace ['"'] ['\\', '"'] (Text.replace ['\\'] ['\\', '\\'] cs) = cs.flatMap escapeChar := by
  rw [replace_singleton, replace_singleton, List.flatMap_assoc]
  apply List.flatMap_congr
  intro c _
  rw [escapeChar]
  by_cases hbackslash : c = '\\'
  · subst hbackslash
    decide
  · by_cases hquote : c = '"'
    · subst hquote
      decide
    · rw [if_neg hbackslash, if_neg (not_or_intro hbackslash hquote)]
      simp [hquote]

theorem safe_eq_ok {value : String} : safe value = .ok text ↔ value.toList.any lineEnd = false ∧ value = text := by
  simp only [safe, bind_eq_ok, refuse_eq_ok, pure_eq_ok, Bool.not_eq_true, exists_const]

theorem newline_of_any {value : List Char} (h : value.any lineEnd = false) : '\n' ∉ value := by
  intro hmem
  rw [List.any_eq_false] at h
  exact h _ hmem rfl

/-- The keys of the tables. -/
def IsSetting (key : String) : Prop := IsKey key.toList ∧ key ≠ "Environment"

instance (key : String) : Decidable (IsSetting key) := by unfold IsSetting; infer_instance

theorem isSetting_unitSettings : ∀ key ∈ (unitSettings service).map Prod.fst, IsSetting key :=
  have hkeys : ∀ key ∈ ["Description", "Conflicts", "After", "Wants", "Requires"], IsSetting key := by decide +kernel
  hkeys

theorem isSetting_accountSettings : ∀ key ∈ (accountSettings service).map Prod.fst, IsSetting key :=
  have hkeys : ∀ key ∈ ["Type", "User", "Group", "WorkingDirectory", "EnvironmentFile"], IsSetting key := by decide +kernel
  hkeys

theorem isSetting_commandSettings : ∀ key ∈ (commandSettings service).map Prod.fst, IsSetting key :=
  have hkeys : ∀ key ∈ ["ExecStartPre", "ExecStart", "ExecStartPost", "ExecStop", "LimitNOFILE", "KillMode", "Restart",
      "RestartSec", "TimeoutStartSec", "TimeoutStopSec", "KillSignal", "StandardOutput", "StandardError",
      "SyslogIdentifier"], IsSetting key := by decide +kernel
  hkeys

theorem IsSetting.newline {key : String} (h : IsSetting key) : '\n' ∉ key.toList :=
  fun hmem => absurd (h.1.2 _ hmem) (by decide)

/-- A list whose elements are written alike. -/
theorem eq_map_of_mapM {ε α β : Type} {f : α → Except ε β} {g : α → β} {P : α → Prop} {xs : List α} {ys : List β}
    (hf : ∀ x y, f x = .ok y → y = g x ∧ P x) (h : xs.mapM f = .ok ys) : ys = xs.map g ∧ ∀ x ∈ xs, P x := by
  have hall := mapM_eq_ok.1 h
  clear h
  induction hall with
  | nil => exact ⟨rfl, by simp⟩
  | cons hxy _ ih =>
      obtain ⟨rfl, hx⟩ := hf _ _ hxy
      rw [ih.1]
      exact ⟨rfl, List.forall_mem_cons.2 ⟨hx, ih.2⟩⟩

/-- Rows that are written as they stand, without a line break in them. -/
def Written (rows : List Row) (lines : List (List Char)) : Prop := lines = rows.map Row.line ∧ ∀ line ∈ lines, '\n' ∉ line

theorem Written.append {rows' : List Row} {lines' : List (List Char)} (h : Written rows lines) (h' : Written rows' lines') :
    Written (rows ++ rows') (lines ++ lines') := by
  constructor
  · rw [h.1, h'.1, List.map_append]
  · intro line hline
    rcases List.mem_append.1 hline with hline | hline
    · exact h.2 line hline
    · exact h'.2 line hline

theorem newline_directive {key : String} {value : List Char} (hkey : '\n' ∉ key.toList) (hvalue : '\n' ∉ value) :
    '\n' ∉ directive key value := by
  rw [directive, List.mem_append, List.mem_cons]
  rintro (hmem | hmem | hmem)
  · exact hkey hmem
  · exact absurd hmem (by decide)
  · exact hvalue hmem

theorem written_directiveLines {key : String} {values : List String} (hkey : '\n' ∉ key.toList)
    (h : directiveLines key values = .ok lines) :
    Written ((values.filter (· ≠ "")).map (Row.setting key)) lines := by
  have hlines := eq_map_of_mapM (g := fun value => directive key value.toList) (P := fun value => '\n' ∉ value.toList) (by
    intro value line hline
    obtain ⟨text, htext, hline⟩ := bind_eq_ok.1 hline
    obtain ⟨hsafe, rfl⟩ := safe_eq_ok.1 htext
    exact ⟨(pure_eq_ok.1 hline).symm, newline_of_any hsafe⟩) h
  constructor
  · rw [hlines.1, List.map_map]
    rfl
  · rw [hlines.1]
    intro line hline
    obtain ⟨value, hvalue, rfl⟩ := List.mem_map.1 hline
    exact newline_directive hkey (hlines.2 value hvalue)

theorem written_settingLines (hkeys : ∀ key ∈ settings.map Prod.fst, IsSetting key)
    (h : settingLines settings = .ok lines) : Written (settingRows settings) lines := by
  obtain ⟨parts, hparts, rfl⟩ := map_eq_ok.1 h
  have hall := mapM_eq_ok.1 hparts
  clear h hparts
  induction hall with
  | nil => exact ⟨rfl, by simp⟩
  | cons hpart _ ih =>
      rw [List.map_cons, List.forall_mem_cons] at hkeys
      exact (written_directiveLines hkeys.1.newline hpart).append (ih hkeys.2)

theorem written_environment {entries : List (String × String)} (h : entries.mapM environmentLine = .ok lines) :
    Written (entries.map fun entry => .assign entry.1 entry.2) lines := by
  have hlines := eq_map_of_mapM (g := fun entry => (Row.assign entry.1 entry.2).line)
    (P := fun entry => '\n' ∉ entry.1.toList ∧ '\n' ∉ entry.2.toList) (by
      intro entry line hline
      obtain ⟨value, hvalue, hline⟩ := bind_eq_ok.1 hline
      obtain ⟨key, hkey, hline⟩ := bind_eq_ok.1 hline
      obtain ⟨hsafe, rfl⟩ := safe_eq_ok.1 hvalue
      obtain ⟨hname, rfl⟩ := safe_eq_ok.1 hkey
      refine ⟨?_, newline_of_any hname, newline_of_any hsafe⟩
      rw [← pure_eq_ok.1 hline, replace_replace]
      rfl) h
  constructor
  · rw [hlines.1, List.map_map]
    rfl
  · rw [hlines.1]
    intro line hline
    obtain ⟨entry, hentry, rfl⟩ := List.mem_map.1 hline
    obtain ⟨hkey, hvalue⟩ := hlines.2 entry hentry
    apply newline_directive (by decide)
    have hescaped : '\n' ∉ entry.2.toList.flatMap escapeChar := by
      intro hmem
      obtain ⟨c, hc, hmem⟩ := List.mem_flatMap.1 hmem
      rw [escapeChar] at hmem
      split at hmem
      · simp only [List.mem_cons, List.not_mem_nil, or_false] at hmem
        rcases hmem with hmem | rfl
        · exact absurd hmem (by decide)
        · exact hvalue hc
      · rw [List.mem_singleton.1 hmem] at hvalue
        exact hvalue hc
    simp [hkey, hescaped]

theorem written_ambientLines {capabilities : List String} (h : ambientLines capabilities = .ok lines) :
    Written (ambientRows capabilities) lines := by
  obtain ⟨texts, htexts, hlines⟩ := bind_eq_ok.1 h
  have hsame := eq_map_of_mapM (g := id) (P := fun value => '\n' ∉ value.toList) (by
    intro value text htext
    obtain ⟨hsafe, rfl⟩ := safe_eq_ok.1 htext
    exact ⟨rfl, newline_of_any hsafe⟩) htexts
  rw [List.map_id] at hsame
  obtain ⟨rfl, hnewline⟩ := hsame
  rw [← pure_eq_ok.1 hlines, ambientRows]
  by_cases hempty : texts = []
  · rw [if_pos hempty, if_pos hempty]
    exact ⟨rfl, by simp⟩
  · rw [if_neg hempty, if_neg hempty]
    refine ⟨rfl, ?_⟩
    intro line hline
    obtain rfl := List.mem_singleton.1 hline
    apply newline_directive (by decide)
    intro hmem
    rw [String.toList_intercalate, mem_intercalate (by decide)] at hmem
    obtain ⟨part, hpart, hmem⟩ := hmem
    obtain ⟨value, hvalue, rfl⟩ := List.mem_map.1 hpart
    exact hnewline value hvalue hmem

/-- The text is written row by row. -/
theorem splitOn_generateUnit (h : generateUnit service = .ok text) :
    text.toList.splitOn '\n' = (unitRows service).map Row.line := by
  obtain ⟨unit, hunit, h⟩ := bind_eq_ok.1 h
  obtain ⟨account, haccount, h⟩ := bind_eq_ok.1 h
  obtain ⟨environment, henvironment, h⟩ := bind_eq_ok.1 h
  obtain ⟨commands, hcommands, h⟩ := bind_eq_ok.1 h
  obtain ⟨ambient, hambient, h⟩ := bind_eq_ok.1 h
  have hhead : Written [.header "Unit"] ["[Unit]".toList] := by unfold Written; decide
  have hmiddle : Written [.blank, .header "Service"] [[], "[Service]".toList] := by unfold Written; decide
  have htail : Written [.blank, .header "Install", .setting "WantedBy" "multi-user.target", .blank, .blank]
      [[], "[Install]".toList, "WantedBy=multi-user.target".toList, [], []] := by unfold Written; decide
  have hbody := (((hmiddle.append (written_settingLines isSetting_accountSettings haccount)).append
    (written_environment henvironment)).append (written_settingLines isSetting_commandSettings hcommands)).append
    (written_ambientLines hambient)
  have hwritten := ((hhead.append (written_settingLines isSetting_unitSettings hunit)).append hbody).append htail
  have hrows : unitRows service = [Row.header "Unit"] ++ settingRows (unitSettings service) ++ ([Row.blank, .header "Service"] ++
      settingRows (accountSettings service) ++ service.environment.map (fun entry => Row.assign entry.1 entry.2) ++
      settingRows (commandSettings service) ++ ambientRows service.ambientCapabilities) ++
      [Row.blank, .header "Install", .setting "WantedBy" "multi-user.target", .blank, .blank] := by
    simp only [unitRows, List.append_assoc, List.cons_append, List.nil_append]
  rw [hrows, ← hwritten.1, ← pure_eq_ok.1 h, String.toList_ofList, ← intercalate_concat_nil (by simp)]
  have happend : ∀ xs : List (List Char), xs ++ [[], "[Install]".toList, "WantedBy=multi-user.target".toList, []] ++ [[]] =
      xs ++ [[], "[Install]".toList, "WantedBy=multi-user.target".toList, [], []] := by
    intro xs
    rw [List.append_assoc]
    rfl
  rw [happend]
  exact List.splitOn_intercalate _ hwritten.2 (by simp)

/-! ## Reading the rows -/

/-- A row whose key is one of the tables. -/
def Row.Proper : Row → Prop
  | .setting key _ => IsSetting key
  | _ => True

/-- What its line can carry. -/
def Row.Carried (specifier : Char → Option (List Char)) : Row → Prop
  | .setting _ value => UnitRules.Carried value.toList
  | .assign name value => isName name.toList = true ∧ expand specifier value.toList = value.toList
  | _ => True

theorem plainHead_line (h : row.Proper) : PlainHead row.line := by
  have hkey : ∀ {key : String} {value : List Char}, IsKey key.toList → PlainHead (directive key value) := by
    intro key value hkey c hc
    obtain ⟨d, ds, hd, halnum⟩ := hkey.exists_cons
    rw [directive, hd] at hc
    obtain rfl := Option.some.inj hc
    refine ⟨margin_of_isAlphanum halnum, ?_⟩
    rintro rfl
    exact absurd halnum (by decide)
  cases row with
  | blank => exact nofun
  | header name =>
      intro c hc
      obtain rfl := Option.some.inj hc
      decide
  | setting key value => exact hkey h.1
  | assign name value => exact hkey (by decide)

theorem carried_quoted (value : List Char) : Carried ('"' :: (value ++ ['"'])) := by
  constructor
  · rw [← List.cons_append, goesOn_concat]
    exact Bool.and_false _
  · rw [trim, List.dropWhile_cons_of_neg (by decide), ← List.cons_append, List.rdropWhile_concat_neg _ _ _ (by decide)]

/-- The rows are read as they are meant exactly when each line can carry its row: the first that
cannot is read as something else. -/
theorem readLines_rows (hrows : ∀ row ∈ rows, row.Proper) :
    (readLines [] (rows.map Row.line)).map (meaningOf specifier) = rows.filterMap Row.meaning ↔
      ∀ row ∈ rows, row.Carried specifier := by
  induction rows with
  | nil => exact iff_of_true rfl nofun
  | cons row rows ih =>
      rw [List.forall_mem_cons] at hrows
      have hrest := ih hrows.2
      have hplain : ∀ line ∈ rows.map Row.line, PlainHead line := by
        intro line hline
        obtain ⟨later, hlater, rfl⟩ := List.mem_map.1 hline
        exact plainHead_line (hrows.2 later hlater)
      rw [List.forall_mem_cons, List.map_cons]
      cases row with
      | blank =>
          have hmeaning : (Row.blank :: rows).filterMap Row.meaning = rows.filterMap Row.meaning := rfl
          rw [hmeaning, ← hrest]
          exact (and_iff_right trivial).symm
      | header name =>
          have hmeaning : (Row.header name :: rows).filterMap Row.meaning =
              .header name.toList :: rows.filterMap Row.meaning := rfl
          rw [hmeaning, Row.line, readLines_header, List.map_cons, meaningOf, List.cons.injEq, ← hrest]
          simp [Row.Carried]
      | setting key value =>
          have hmeaning : (Row.setting key value :: rows).filterMap Row.meaning =
              .directive key.toList value.toList :: rows.filterMap Row.meaning := rfl
          have hkey : key.toList ≠ "Environment".toList := fun heq => hrows.1.2 (String.toList_inj.1 heq)
          rw [hmeaning, Row.line, directive]
          by_cases hcarried : UnitRules.Carried value.toList
          · rw [readLines_directive hrows.1.1 hcarried, List.map_cons, meaningOf, if_neg hkey, List.cons.injEq, ← hrest]
            exact and_congr_left' (iff_of_true rfl hcarried)
          · obtain ⟨value', items, hread, hne⟩ := readLines_not_carried hrows.1.1 hcarried hplain
            rw [hread, List.map_cons, meaningOf, if_neg hkey, List.cons.injEq, Setting.directive.injEq]
            exact iff_of_false (fun h => hne h.1.2) (fun h => hcarried h.1)
      | assign name value =>
          have hmeaning : (Row.assign name value :: rows).filterMap Row.meaning =
              .assigns [(name.toList, value.toList)] :: rows.filterMap Row.meaning := rfl
          have hquoted : Carried ('"' :: (name.toList ++ '=' :: (value.toList.flatMap escapeChar ++ ['"']))) := by
            have happend := carried_quoted (name.toList ++ '=' :: value.toList.flatMap escapeChar)
            rwa [List.append_assoc] at happend
          rw [hmeaning, Row.line, directive, readLines_directive (by decide) hquoted, List.map_cons, meaningOf, if_pos rfl,
            List.cons.injEq, Setting.assigns.injEq, assignments_quoted_iff, hrest]
          exact Iff.rfl

theorem proper_settingRows (hkeys : ∀ key ∈ settings.map Prod.fst, IsSetting key) :
    ∀ row ∈ settingRows settings, row.Proper := by
  intro row hrow
  obtain ⟨setting, hsetting, hrow⟩ := List.mem_flatMap.1 hrow
  obtain ⟨value, -, rfl⟩ := List.mem_map.1 hrow
  exact hkeys _ (List.mem_map_of_mem hsetting)

theorem proper_unitRows : ∀ row ∈ unitRows service, row.Proper := by
  have hambient : IsSetting "AmbientCapabilities" := by decide +kernel
  have hwanted : IsSetting "WantedBy" := by decide +kernel
  have hassign : ∀ row ∈ service.environment.map fun entry => Row.assign entry.1 entry.2, row.Proper := by
    intro row hrow
    obtain ⟨entry, -, rfl⟩ := List.mem_map.1 hrow
    trivial
  have hcapabilities : ∀ row ∈ ambientRows service.ambientCapabilities, row.Proper := by
    intro row hrow
    rw [ambientRows] at hrow
    split at hrow
    · exact nomatch hrow
    · rw [List.mem_singleton.1 hrow]
      exact hambient
  have hunit := proper_settingRows (@isSetting_unitSettings service)
  have haccount := proper_settingRows (@isSetting_accountSettings service)
  have hcommands := proper_settingRows (@isSetting_commandSettings service)
  simp only [unitRows, List.forall_mem_append, List.forall_mem_cons]
  exact ⟨⟨⟨trivial, hunit⟩, ⟨⟨⟨⟨trivial, trivial, nofun⟩, haccount⟩, hassign⟩, hcommands⟩, hcapabilities⟩,
    trivial, trivial, hwanted, trivial, trivial, nofun⟩

/-! ## What is checked before -/
/-- Neither a blank nor a backslash. -/
def Safe (c : Char) : Prop := UnitRules.margin c = false ∧ c ≠ '\\'

instance (c : Char) : Decidable (Safe c) := by unfold Safe; infer_instance

theorem carried_of_safe {value : List Char} (h : ∀ c ∈ value, Safe c) : Carried value := by
  refine ⟨?_, UnitRules.trim_eq_self fun c hc => (h c hc).1⟩
  by_contra hgoes
  rw [Bool.not_eq_false] at hgoes
  obtain ⟨before, rfl⟩ := getLast?_of_goesOn hgoes
  exact (h '\\' (by simp)).2 rfl

theorem safe_of_isAlphanum {c : Char} (h : c.isAlphanum = true) : Safe c := by
  refine ⟨margin_of_isAlphanum h, ?_⟩
  rintro rfl
  exact absurd h (by decide)

theorem safe_of_contains {c : Char} {extra : String} (hextra : ∀ d ∈ extra.toList, Safe d)
    (h : (c.isAlphanum || extra.toList.contains c) = true) : Safe c := by
  rw [Bool.or_eq_true, List.contains_iff_mem] at h
  rcases h with h | h
  · exact safe_of_isAlphanum h
  · exact hextra c h

theorem safe_of_fullMatch {first rest : Char → Bool} {value : String} (hfirst : ∀ c, first c = true → Safe c)
    (hrest : ∀ c, rest c = true → Safe c) (h : fullMatch first rest value = true) : ∀ c ∈ value.toList, Safe c := by
  intro c hc
  rcases (Source.fullMatch_eq_true h).2 c hc with hchar | hchar
  · exact hfirst c hchar
  · exact hrest c hchar

theorem safe_of_begins {start value : String} {rest : Char → Bool} (hstart : ∀ c ∈ start.toList, Safe c)
    (hrest : ∀ c, rest c = true → Safe c) (h : begins start rest value = true) : ∀ c ∈ value.toList, Safe c := by
  rw [begins, Bool.and_eq_true, List.isPrefixOf_iff_prefix] at h
  obtain ⟨⟨after, hafter⟩, hmatch⟩ := h
  have hlater := safe_of_fullMatch hrest hrest hmatch
  rw [String.toList_ofList, ← hafter, ← String.length_toList, List.drop_left] at hlater
  intro c hc
  rw [← hafter] at hc
  rcases List.mem_append.1 hc with hc | hc
  · exact hstart c hc
  · exact hlater c hc

theorem safe_of_serviceName {value : String} (h : serviceName value = true) : ∀ c ∈ value.toList, Safe c := by
  have hsuffix : ∀ c ∈ ".service".toList, Safe c := by decide +kernel
  have hnames : ∀ c ∈ "_.@-".toList, Safe c := by decide +kernel
  rw [serviceName, Bool.and_eq_true, List.isSuffixOf_iff_suffix] at h
  obtain ⟨⟨before, hbefore⟩, hmatch⟩ := h
  have hearlier := safe_of_fullMatch (fun c => safe_of_contains hnames) (fun c => safe_of_contains hnames) hmatch
  have hlength : value.length - 8 = before.length := by
    rw [← String.length_toList, ← hbefore, List.length_append]
    exact Nat.add_sub_cancel _ _
  rw [String.toList_ofList, hlength, ← hbefore, List.take_left] at hearlier
  intro c hc
  rw [← hbefore] at hc
  rcases List.mem_append.1 hc with hc | hc
  · exact hearlier c hc
  · exact hsuffix c hc

/-- What the Recipe checks of its service. -/
structure CheckedService (service : Service) : Prop where
  scalars : ∀ value ∈ [service.type, service.user, service.group, service.workingDirectory, service.limitNofile,
    service.killMode, service.restart, service.syslogIdentifier], ∀ c ∈ value.toList, Safe c
  conflicts : ∀ value ∈ service.conflicts, ∀ c ∈ value.toList, Safe c
  capabilities : ∀ value ∈ service.ambientCapabilities, value ≠ "" ∧ ∀ c ∈ value.toList, Safe c

theorem safe_of_mem {members : List String} {value : String} (hmembers : ∀ member ∈ members, ∀ c ∈ member.toList, Safe c)
    (h : ¬ value ∉ members) : ∀ c ∈ value.toList, Safe c := hmembers value (not_not.1 h)

theorem safe_of_requireSafeName {value what : String} {u : Unit} (h : requireSafeName value what = .ok u) :
    ∀ c ∈ value.toList, Safe c := by
  have hnames : ∀ c ∈ "_.+-".toList, Safe c := by decide +kernel
  rw [requireSafeName, refuse_eq_ok, Bool.not_eq_false] at h
  exact safe_of_fullMatch (fun c => safe_of_contains hnames) (fun c => safe_of_contains hnames) h

/-- Where a value may be left empty, its check says the rest. -/
theorem safe_of_check {value : String} (h : value ≠ "" → ∀ c ∈ value.toList, Safe c) : ∀ c ∈ value.toList, Safe c := by
  by_cases hempty : value = ""
  · rw [hempty]
    exact nofun
  · exact h hempty

/-- Two branches with the same continuation. -/
theorem ite_bind_eq_ok {ε α β : Type} {p : Prop} [Decidable p] {x y : Except ε α} {f : α → Except ε β} {b : β} :
    (if p then x >>= f else y >>= f) = .ok b ↔ ∃ a, (if p then x else y) = .ok a ∧ f a = .ok b := by
  by_cases hp : p
  · rw [if_pos hp, if_pos hp, bind_eq_ok]
  · rw [if_neg hp, if_neg hp, bind_eq_ok]

theorem checked_of_validateService {u : Unit} (h : validateService service = .ok u)
    (hconfigured : service.configured = true) : CheckedService service := by
  have hpaths : ∀ c ∈ "._+/-".toList, Safe c := by decide +kernel
  have hidentifiers : ∀ c ∈ "_.@-".toList, Safe c := by decide +kernel
  rw [validateService] at h
  obtain ⟨_, -, h⟩ := bind_eq_ok.1 h
  obtain ⟨_, hkinds, h⟩ := bind_eq_ok.1 h
  obtain ⟨_, -, h⟩ := bind_eq_ok.1 h
  simp only [if_pos hconfigured] at h
  obtain ⟨_, hdirectory, h⟩ := bind_eq_ok.1 h
  obtain ⟨_, huser, h⟩ := ite_bind_eq_ok.1 h
  obtain ⟨_, hgroup, h⟩ := ite_bind_eq_ok.1 h
  obtain ⟨_, hconflicts, h⟩ := bind_eq_ok.1 h
  obtain ⟨_, hlimit, h⟩ := bind_eq_ok.1 h
  obtain ⟨_, hkill, h⟩ := bind_eq_ok.1 h
  obtain ⟨_, hidentifier, hcapabilities⟩ := bind_eq_ok.1 h
  rw [refuse_eq_ok] at hkinds hconflicts hlimit hkill hidentifier hcapabilities hdirectory
  simp only [hconfigured, true_and, not_or] at hkinds
  constructor
  · simp only [List.forall_mem_cons]
    refine ⟨?_, ?_, ?_, ?_, ?_, ?_, ?_, ?_, (by intros; contradiction)⟩
    · exact safe_of_mem (by decide +kernel) hkinds.1
    · apply safe_of_check
      intro hne
      rw [if_pos hne] at huser
      exact safe_of_requireSafeName huser
    · apply safe_of_check
      intro hne
      rw [if_pos hne] at hgroup
      exact safe_of_requireSafeName hgroup
    · apply safe_of_check
      intro hne
      have hbegins : begins "/" pathChar service.workingDirectory = true := by
        by_contra hbad
        exact hdirectory ⟨hne, .inl (Bool.eq_false_of_not_eq_true hbad)⟩
      exact safe_of_begins (by decide +kernel) (fun c => safe_of_contains hpaths) hbegins
    · apply safe_of_check
      intro hne
      by_cases hinfinity : service.limitNofile = "infinity"
      · rw [hinfinity]
        decide +kernel
      · have hdigits : fullMatch (fun c => '1' ≤ c && c ≤ '9') Char.isDigit service.limitNofile = true := by
          by_contra hbad
          exact hlimit ⟨hne, hinfinity, Bool.eq_false_of_not_eq_true hbad⟩
        have hdigit : ∀ c : Char, c.isDigit = true → Safe c := by
          intro c hc
          apply safe_of_isAlphanum
          rw [Char.isAlphanum, hc, Bool.or_true]
        apply safe_of_fullMatch _ hdigit hdigits
        intro c hc
        apply hdigit
        rw [Bool.and_eq_true, decide_eq_true_eq, decide_eq_true_eq] at hc
        rw [Char.isDigit, Bool.and_eq_true, decide_eq_true_eq, decide_eq_true_eq]
        exact ⟨Nat.le_trans (by decide) hc.1, hc.2⟩
    · exact safe_of_mem (by decide +kernel) hkill
    · exact safe_of_mem (by decide +kernel) hkinds.2
    · apply safe_of_check
      intro hne
      have hmatch := not_and.1 hidentifier hne
      rw [Bool.not_eq_false] at hmatch
      exact safe_of_fullMatch (fun c => safe_of_contains hidentifiers) (fun c => safe_of_contains hidentifiers) hmatch
  · intro value hvalue
    apply safe_of_serviceName
    by_contra hbad
    rw [List.any_eq_true] at hconflicts
    exact hconflicts ⟨value, hvalue, by simpa using hbad⟩
  · intro value hvalue
    have hbegins : begins "CAP_" (fun c => c.isUpper || c.isDigit || c == '_') value = true := by
      by_contra hbad
      rw [List.any_eq_true] at hcapabilities
      exact hcapabilities ⟨value, hvalue, by simpa using hbad⟩
    refine ⟨?_, safe_of_begins (by decide +kernel) ?_ hbegins⟩
    · rintro rfl
      exact absurd hbegins (by decide +kernel)
    intro c hc
    rw [Bool.or_eq_true, Bool.or_eq_true, beq_iff_eq] at hc
    obtain (hupper | hdigit) | rfl := hc
    · apply safe_of_isAlphanum
      simp [Char.isAlphanum, Char.isAlpha, hupper]
    · apply safe_of_isAlphanum
      rw [Char.isAlphanum, hdigit, Bool.or_true]
    · decide

/-! ## What can be written -/

theorem carried_settingRows_iff : (∀ row ∈ settingRows settings, row.Carried specifier) ↔
    ∀ value ∈ settings.flatMap Prod.snd, UnitRules.Carried value.toList := by
  constructor
  · intro h value hvalue
    obtain ⟨setting, hsetting, hvalue⟩ := List.mem_flatMap.1 hvalue
    by_cases hempty : value = ""
    · rw [hempty]
      decide
    · exact h (.setting setting.1 value) (List.mem_flatMap.2 ⟨setting, hsetting,
        List.mem_map_of_mem (List.mem_filter.2 ⟨hvalue, by simpa using hempty⟩)⟩)
  · intro h row hrow
    obtain ⟨setting, hsetting, hrow⟩ := List.mem_flatMap.1 hrow
    obtain ⟨value, hvalue, rfl⟩ := List.mem_map.1 hrow
    exact h value (List.mem_flatMap.2 ⟨setting, hsetting, (List.mem_filter.1 hvalue).1⟩)

theorem carried_of_ends {value : List Char} (hhead : ∀ c ∈ value.head?, Safe c) (hlast : ∀ c ∈ value.getLast?, Safe c) :
    UnitRules.Carried value := by
  constructor
  · by_contra hgoes
    rw [Bool.not_eq_false] at hgoes
    obtain ⟨before, rfl⟩ := getLast?_of_goesOn hgoes
    exact (hlast '\\' (by simp)).2 rfl
  · have hdrop : value.dropWhile UnitRules.margin = value := by
      cases value with
      | nil => rfl
      | cons c cs => exact List.dropWhile_cons_of_neg (by simp [(hhead c rfl).1])
    rw [trim, hdrop, List.rdropWhile_eq_self_iff]
    intro hne
    simp [(hlast _ (List.getLast?_eq_getLast_of_ne_nil hne)).1]

/-- The last character of parts that are not empty is one of the last part. -/
theorem mem_of_getLast?_intercalate {sep : List Char} {parts : List (List Char)} (hparts : ∀ part ∈ parts, part ≠ [])
    {c : Char} (h : c ∈ (sep.intercalate parts).getLast?) : ∃ part ∈ parts, c ∈ part := by
  induction parts with
  | nil => exact absurd h (by simp)
  | cons part parts ih =>
      rw [List.forall_mem_cons] at hparts
      cases parts with
      | nil =>
          rw [List.intercalate_singleton] at h
          exact ⟨part, List.mem_cons_self, List.mem_of_getLast? h⟩
      | cons next parts =>
          have hne : sep.intercalate (next :: parts) ≠ [] := by
            obtain ⟨d, ds, hnext⟩ := List.exists_cons_of_ne_nil (hparts.2 next List.mem_cons_self)
            rw [hnext]
            cases parts <;> simp [List.intercalate_cons_cons]
          rw [List.intercalate_cons_cons, List.getLast?_append_of_ne_nil _ hne] at h
          obtain ⟨later, hlater, hc⟩ := ih hparts.2 h
          exact ⟨later, List.mem_cons_of_mem _ hlater, hc⟩

theorem carried_ambientRows (hchecked : CheckedService service) :
    ∀ row ∈ ambientRows service.ambientCapabilities, row.Carried specifier := by
  intro row hrow
  rw [ambientRows] at hrow
  split at hrow
  · exact nomatch hrow
  · next hne =>
    rw [List.mem_singleton.1 hrow]
    have hparts : ∀ part ∈ service.ambientCapabilities.map String.toList, part ≠ [] ∧ ∀ c ∈ part, Safe c := by
      intro part hpart
      obtain ⟨value, hvalue, rfl⟩ := List.mem_map.1 hpart
      obtain ⟨hvalue, hsafe⟩ := hchecked.capabilities value hvalue
      exact ⟨fun heq => hvalue (String.toList_inj.1 heq), hsafe⟩
    rw [Row.Carried, String.toList_intercalate]
    apply carried_of_ends
    · obtain ⟨first, others, hfirst⟩ := List.exists_cons_of_ne_nil hne
      rw [hfirst, List.map_cons] at hparts ⊢
      obtain ⟨d, ds, hd⟩ := List.exists_cons_of_ne_nil (hparts _ List.mem_cons_self).1
      intro c hc
      apply (hparts _ List.mem_cons_self).2
      cases others with
      | nil => exact List.mem_of_mem_head? (by simpa using hc)
      | cons next others =>
          rw [List.map_cons, List.intercalate_cons_cons, hd] at hc
          rw [hd, ← Option.some.inj hc]
          exact List.mem_cons_self
    · intro c hc
      obtain ⟨part, hpart, hmem⟩ := mem_of_getLast?_intercalate (fun part hpart => (hparts part hpart).1) hc
      exact (hparts part hpart).2 c hmem

/-- The tables hold the values that the Recipe leaves open and those that it checks. -/
theorem carried_tables_iff (hchecked : CheckedService service) :
    (∀ value ∈ (unitSettings service).flatMap Prod.snd ++ (accountSettings service).flatMap Prod.snd ++
        (commandSettings service).flatMap Prod.snd, UnitRules.Carried value.toList) ↔
      ∀ value ∈ freeValues service, UnitRules.Carried value.toList := by
  have hscalars : ∀ value ∈ [service.type, service.user, service.group, service.workingDirectory, service.limitNofile,
      service.killMode, service.restart, service.syslogIdentifier], UnitRules.Carried value.toList :=
    fun value hvalue => carried_of_safe (hchecked.scalars value hvalue)
  have hconflicts : ∀ value ∈ service.conflicts, UnitRules.Carried value.toList :=
    fun value hvalue => carried_of_safe (hchecked.conflicts value hvalue)
  simp only [unitSettings, accountSettings, commandSettings, freeValues, List.flatMap_cons, List.flatMap_nil,
    List.forall_mem_append, List.forall_mem_cons, List.append_nil] at hscalars ⊢
  constructor
  · intro h
    tauto
  · intro h
    tauto

theorem carried_unitRows_iff (hchecked : CheckedService service) : (∀ row ∈ unitRows service, row.Carried specifier) ↔
    (∀ value ∈ freeValues service, UnitRules.Carried value.toList) ∧
      ∀ entry ∈ service.environment, isName entry.1.toList = true ∧ expand specifier entry.2.toList = entry.2.toList := by
  have hwanted : UnitRules.Carried "multi-user.target".toList := by decide +kernel
  have henvironment : (∀ row ∈ service.environment.map fun entry => Row.assign entry.1 entry.2, row.Carried specifier) ↔
      ∀ entry ∈ service.environment, isName entry.1.toList = true ∧ expand specifier entry.2.toList = entry.2.toList :=
    List.forall_mem_map
  have hambient : ∀ row ∈ ambientRows service.ambientCapabilities, row.Carried specifier := carried_ambientRows hchecked
  rw [← carried_tables_iff hchecked]
  simp only [unitRows, List.forall_mem_append, List.forall_mem_cons, carried_settingRows_iff, henvironment]
  constructor
  · rintro ⟨⟨⟨-, hunit⟩, ⟨⟨⟨-, haccount⟩, henv⟩, hcommands⟩, -⟩, -⟩
    exact ⟨⟨⟨hunit, haccount⟩, hcommands⟩, henv⟩
  · rintro ⟨⟨⟨hunit, haccount⟩, hcommands⟩, henv⟩
    exact ⟨⟨⟨trivial, hunit⟩, ⟨⟨⟨⟨trivial, trivial, nofun⟩, haccount⟩, henv⟩, hcommands⟩, hambient⟩,
      trivial, trivial, hwanted, trivial, trivial, nofun⟩

theorem validateService_of_validateRecipeMetadata {lib : Library} {workflow : Json.Fields} {recipe : CanonicalRecipe}
    (h : validateRecipeMetadata lib workflow = .ok recipe) : validateService recipe.service = .ok () := by
  obtain ⟨recipe', _, h⟩ := bind_eq_ok.1 h
  obtain ⟨_, _, h⟩ := bind_eq_ok.1 h
  obtain ⟨_, _, h⟩ := bind_eq_ok.1 h
  obtain ⟨_, _, h⟩ := bind_eq_ok.1 h
  obtain ⟨_, _, h⟩ := bind_eq_ok.1 h
  obtain ⟨_, _, h⟩ := bind_eq_ok.1 h
  obtain ⟨_, hservice, h⟩ := bind_eq_ok.1 h
  rw [← pure_eq_ok.1 h]
  exact hservice

/-- The unit of a configured service says what the Recipe has, on a host with the specifiers
`known`, exactly where its lines can carry the values that the Recipe leaves open. -/
theorem unit_says_iff {lib : Library} {workflow : Json.Fields} {recipe : CanonicalRecipe}
    (hvalid : validateRecipeMetadata lib workflow = .ok recipe) (hconfigured : recipe.service.configured = true)
    (hgenerated : generateUnit recipe.service = .ok text) :
    SaysUnit known recipe.service text ↔ Expressible known recipe.service := by
  have hchecked := checked_of_validateService (validateService_of_validateRecipeMetadata hvalid) hconfigured
  have hreads : ∀ specifier, (readUnit text).map (meaningOf specifier) = intendedUnit recipe.service ↔
      (∀ value ∈ freeValues recipe.service, UnitRules.Carried value.toList) ∧ ∀ entry ∈ recipe.service.environment,
        isName entry.1.toList = true ∧ expand specifier entry.2.toList = entry.2.toList := by
    intro specifier
    rw [readUnit, splitOn_generateUnit hgenerated, intendedUnit, readLines_rows proper_unitRows,
      carried_unitRows_iff hchecked]
  constructor
  · intro hmeant
    obtain ⟨hvalues, hentries⟩ := (hreads _).1 (hmeant _ (isSome_vanishing known))
    refine ⟨hvalues, fun entry hentry => ⟨(hentries entry hentry).1, ?_⟩⟩
    rw [← expand_eq_self_iff]
    intro specifier hspecifier
    exact (((hreads specifier).1 (hmeant specifier hspecifier)).2 entry hentry).2
  · intro hexpressible specifier hspecifier
    rw [hreads specifier]
    refine ⟨hexpressible.values, fun entry hentry => ?_⟩
    obtain ⟨hname, hliteral⟩ := hexpressible.environment entry hentry
    exact ⟨hname, expand_of_literal hspecifier hliteral⟩

/-- A Recipe with a service. -/
def sampleService (command value : String) : Json.Fields :=
  sampleWorkflow "d" ++ [("service", .obj [("name", .str "demo.service"), ("command", .str command),
    ("restart", .str "no"), ("environment", .obj [("A", .str value)])])]

def documentedSpecifier (c : Char) : Bool := "aAbBCdDEfgGhHiIjJlLmMnNopPqsStTuUvVwWyY".toList.contains c

/-- A variable with a quotation mark, a percent sign and a backslash at its end. -/
theorem unit_says_escaped :
    ∃ recipe text, validateRecipeMetadata sampleLibrary (sampleService "/bin/x" "5% \"\\") = .ok recipe ∧
      recipe.service.configured = true ∧ generateUnit recipe.service = .ok text ∧
      SaysUnit documentedSpecifier recipe.service text := by
  have hread : ((validateRecipeMetadata sampleLibrary (sampleService "/bin/x" "5% \"\\")).toOption.bind fun recipe =>
      (generateUnit recipe.service).toOption.map fun _ =>
        (recipe.service.configured, recipe.service.environment,
          decide (∀ value ∈ freeValues recipe.service, UnitRules.Carried value.toList))) =
      some (true, [("A", "5% \"\\")], true) := by decide +kernel
  obtain ⟨recipe, hvalid, hgenerated⟩ := Option.bind_eq_some_iff.1 hread
  obtain ⟨text, htext, hfacts⟩ := Option.map_eq_some_iff.1 hgenerated
  simp only [Prod.mk.injEq, decide_eq_true_eq] at hfacts
  obtain ⟨hconfigured, henvironment, hvalues⟩ := hfacts
  refine ⟨recipe, text, toOption_eq_some.1 hvalid, hconfigured, toOption_eq_some.1 htext, ?_⟩
  rw [unit_says_iff (toOption_eq_some.1 hvalid) hconfigured (toOption_eq_some.1 htext)]
  refine ⟨hvalues, ?_⟩
  rw [henvironment]
  intro entry hentry
  obtain rfl := List.mem_singleton.1 hentry
  refine ⟨by decide +kernel, ?_⟩
  -- the only percent sign stands before a space
  intro c hc
  have hspace : c = ' ' := by
    have hchars : ("5% \"\\" : String).toList = ['5', '%', ' ', '"', '\\'] := by decide +kernel
    rw [hchars] at hc
    simpa [List.infix_cons_iff] using hc
  rw [hspace]
  decide +kernel

/-- A command that ends in a backslash takes the next directive into its value. -/
theorem unit_differs :
    ∃ recipe text, validateRecipeMetadata sampleLibrary (sampleService "/bin/x \\" "1") = .ok recipe ∧
      recipe.service.configured = true ∧ generateUnit recipe.service = .ok text ∧
      ∀ known, ¬ SaysUnit known recipe.service text := by
  have hread : ((validateRecipeMetadata sampleLibrary (sampleService "/bin/x \\" "1")).toOption.bind fun recipe =>
      (generateUnit recipe.service).toOption.map fun text =>
        (recipe.service.configured, (readUnit text).length, (intendedUnit recipe.service).length)) =
      some (true, 8, 9) := by decide +kernel
  obtain ⟨recipe, hvalid, hgenerated⟩ := Option.bind_eq_some_iff.1 hread
  obtain ⟨text, htext, hfacts⟩ := Option.map_eq_some_iff.1 hgenerated
  simp only [Prod.mk.injEq] at hfacts
  obtain ⟨hconfigured, hitems, hintended⟩ := hfacts
  refine ⟨recipe, text, toOption_eq_some.1 hvalid, hconfigured, toOption_eq_some.1 htext, fun known hmeant => ?_⟩
  have hlength := congrArg List.length (hmeant _ (isSome_vanishing known))
  rw [List.length_map, hitems, hintended] at hlength
  cases hlength

end DebBuilder.Packaging
