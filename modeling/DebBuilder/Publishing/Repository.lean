import Mathlib
import DebBuilder.Lib.Dict
import DebBuilder.Lib.Fallible
import DebBuilder.Lib.Text

/-!
# The APT repository

What the program reads of a repository: the two configuration files, the listing of the
reprepro database, and the exported `Packages` files.  A file is known by what opening and
reading it comes to, since each way to fail has its own exception and only some of them
are handled.

## Main definitions

* `Raised` — the exceptions of the repository code.
* `File`, `ExportedIndex`, `Repository` — the repository on disk.
* `safeRelativePath`, `parsePackagesIndex`, `parseListing`, `selectRepreproDistribution` — the
  parsers.
* `indexRows`, `repositoryConfig` — the reads of the publication code.
-/

namespace DebBuilder.Publishing
open Lib

/-! ## Exceptions -/

/-- `details` of an error. -/
inductive ErrorDetails
  | none
  | path (path : String)
  | options (options : List String)
  | cause (code : String)
  | run (id : String)
  | remaining (database : Nat) (index : List (String × List String))
  deriving DecidableEq, Repr

/-- `PublicationError`, and `RepositoryLockError`, which has the same parts. -/
structure PublicationError where
  code : String
  message : String
  details : ErrorDetails := .none
  deriving DecidableEq, Repr

/-- The exceptions of the repository code, by class. -/
inductive Raised
  | publication (e : PublicationError)
  | repositoryLock (e : PublicationError)
  /-- `EOFError` -/
  | eof
  /-- `zlib.error` -/
  | zlib
  | os (message : String)
  | value (message : String)
  /-- `TypeError` -/
  | type
  /-- `AttributeError` -/
  | attribute
  /-- Any other exception, of a command that could not be run. -/
  | other (message : String)
  deriving DecidableEq, Repr

/-! ## Paths -/

/-- `safe_relative_path`, which validates and never normalises. -/
def safeRelativePath (raw : String) (requiredPrefix : Option String) : Except Raised (List String) :=
  let parts := raw.toList.splitOn '/'
  let invalid message := Raised.repositoryLock ⟨"repository_path_invalid", message, .path raw⟩
  if raw = "" || raw.toList.contains '\\' ||
      -- the path `.` has no parts, and is its own normal form
      (raw ≠ "." && parts.any (· ∈ [[], ['.'], ['.', '.']])) then
    .error (invalid "Repository path is not a normalized relative path")
  else
    let parts := if raw = "." then [] else parts.map String.ofList
    match requiredPrefix with
    | none => .ok parts
    | some required =>
        if parts.head? = some required then .ok parts
        else .error (invalid s!"Repository path must be below {required}/")

/-- `path.as_posix()` -/
def asPosix (parts : List String) : String := if parts = [] then "." else "/".intercalate parts

/-! ## Files -/

/-- The exceptions of reading an open file: `BadGzipFile` is an `OSError`, the two others of
a compressed stream are not. -/
inductive ReadError
  | os | eof | zlib
  deriving DecidableEq, Repr

/-- What was read. -/
inductive Payload
  | tooLarge
  | notUtf8
  | text (s : String)
  deriving DecidableEq, Repr

/-- A path of the repository, as `open_regular` and the read after it find it. -/
inductive File
  | missing
  /-- A symbolic link on the way, no regular file, or no permission. -/
  | blocked
  | regular (content : Except ReadError Payload)
  deriving DecidableEq

/-- The exported index of one architecture: `Packages.gz` and `Packages`. -/
structure ExportedIndex where
  compressed : File
  plain : File
  /-- A file that is not decompressed has no broken stream. -/
  plain_error : ∀ e, plain = .regular (.error e) → e = .os

/-! ## Packages indexes -/

/-- A paragraph of a `Packages` file. -/
abbrev IndexRow := Dict String String

/-- The paragraphs of the lines that are left, after those in `rows`; `row` is the current
one and `last` its last field. -/
def parseIndexLines (rows : List IndexRow) (row : IndexRow) (last : String) :
    List (List Char) → Except Raised (List IndexRow)
  | [] => .ok rows
  | raw :: rest =>
      if Text.strip raw = [] then
        if row.keys = [] then parseIndexLines rows row last rest else parseIndexLines (rows ++ [row]) ∅ "" rest
      else if raw.head?.any (· ∈ [' ', '\t']) && last ≠ "" then
        parseIndexLines rows (Dict.set row last ((row.lookup last).getD "" ++ "\n" ++ String.ofList raw.tail)) last rest
      else match Text.cut [':', ' '] raw with
        | some (key, value) =>
            if String.ofList key ∈ row then .error (.value s!"duplicate Packages field: {String.ofList key}")
            else parseIndexLines rows (row.insert (String.ofList key) (String.ofList value)) (String.ofList key) rest
        | none => .error (.value "malformed Packages index line")

/-- `parse_packages_index` -/
def parsePackagesIndex (text : String) : Except Raised (List IndexRow) :=
  parseIndexLines [] ∅ "" (Text.lines text ++ [[]])

/-- `_index_rows`: the rows of an exported index, `none` where there is no such file. -/
def indexRows : File → Except Raised (Option (List IndexRow))
  | .missing => .ok none
  | .blocked | .regular (.error .os) | .regular (.ok .notUtf8) => .error (.publication unreadable)
  | .regular (.ok .tooLarge) => .error (.publication ⟨"publication_proof_failed",
      "Exported Packages index exceeds the supported size limit", .none⟩)
  -- the two exceptions that the handler of the source does not name
  | .regular (.error .eof) => .error .eof
  | .regular (.error .zlib) => .error .zlib
  | .regular (.ok (.text s)) =>
      match parsePackagesIndex s with
      | .ok rows => .ok (some rows)
      | .error _ => .error (.publication unreadable)
where
  unreadable : PublicationError :=
    ⟨"publication_proof_failed", "Exported Packages index cannot be read safely", .none⟩

/-- The versions of a package in an index. -/
def versionsOf (package : String) (rows : List IndexRow) : List String :=
  ((rows.filter fun row => row.lookup "Package" = some package).filterMap fun row =>
    (row.lookup "Version").filter (· ≠ "")).dedup.insertionSort (· ≤ ·)

/-! ## The reprepro database -/

/-- A package that the database owns. -/
structure DatabaseRow where
  distribution : String
  component : String
  architecture : String
  package : String
  version : String
  deriving DecidableEq, Repr

/-- The part before the first `stop`, when it is not empty, and the part after it. -/
def until? (stop : Char) (cs : List Char) : Option (List Char × List Char) :=
  (Text.cut [stop] cs).filter fun parts => parts.1 ≠ []

/-- A line `codename|component|architecture: package version`. -/
def parseListingLine (line : List Char) : Option DatabaseRow := do
  let (distribution, rest) ← until? '|' (Text.strip line)
  let (component, rest) ← until? '|' rest
  let (architecture, rest) ← until? ':' rest
  match rest.head?.any Text.isSpace, Text.words rest with
  | true, [package, version] => some {
      distribution := String.ofList distribution
      component := String.ofList component
      architecture := String.ofList architecture
      package := String.ofList package
      version := String.ofList version }
  | _, _ => none

/-- The rows of `reprepro list`; other lines are passed over. -/
def parseListing (stdout : String) : List DatabaseRow := (Text.lines stdout).filterMap parseListingLine

/-- The result of a command. -/
structure CommandResult where
  status : String
  stdout : String
  stderr : String
  deriving DecidableEq, Repr

/-! ## Configuration -/

/-- What is used of a paragraph of `conf/distributions`. -/
structure DistributionConfig where
  suite : String
  codename : String
  architectures : List String
  components : List String
  exportOptions : List String
  deriving DecidableEq, Repr

/-- `_distribution_config` -/
def distributionConfig (data : Dict String String) : DistributionConfig :=
  let get key := (data.lookup key).getD ""
  let split key := (Text.words (get key).toList).map String.ofList
  { suite := get "suite"
    codename := get "codename"
    architectures := split "architectures"
    components := split "components"
    exportOptions := split "exportoptions" }

/-- The paragraphs of the lines that are left. -/
def parseDistributionLines (current : Dict String String) (last : String) :
    List (List Char) → List DistributionConfig
  | [] => []
  | raw :: rest =>
      if Text.strip raw = [] then
        if current.keys = [] then parseDistributionLines current last rest
        else distributionConfig current :: parseDistributionLines ∅ "" rest
      else if (Text.lstrip raw).head? = some '#' then parseDistributionLines current last rest
      else if raw.head?.any (· ∈ [' ', '\t']) && last ≠ "" then
        let value := (current.lookup last).getD "" ++ " " ++ String.ofList (Text.strip raw)
        parseDistributionLines (Dict.set current last value) last rest
      else match Text.cut [':'] raw with
        | some (key, value) =>
            let key := String.ofList (Text.lower (Text.strip key))
            parseDistributionLines (Dict.set current key (String.ofList (Text.strip value))) key rest
        | none => parseDistributionLines current last rest

/-- `parse_reprepro_distribution_stanzas` -/
def parseDistributionStanzas (text : String) : List DistributionConfig :=
  parseDistributionLines ∅ "" (Text.lines text ++ [[]])

/-- `select_reprepro_distribution` -/
def selectRepreproDistribution (text requested : String) : Except String DistributionConfig :=
  match (parseDistributionStanzas text).filter fun row => requested = row.codename || requested = row.suite with
  | [row] => .ok row
  | _ => .error
      s!"reprepro distribution {Text.quoted requested} must match exactly one configured codename or suite"

/-- `_option_name` -/
def optionName (line : List Char) : String :=
  let value := Text.strip line
  match value, Text.words value with
  | '#' :: _, _ | _, [] => ""
  | _, word :: _ =>
      String.ofList (Text.lower ((word.takeWhile (· ≠ '=')).dropWhile (· = '-')))

/-- `UNSUPPORTED_OPTION_NAMES` -/
def unsupportedOptionNames : List String :=
  ["basedir", "outdir", "confdir", "dbdir", "distdir", "listdir", "logdir", "morguedir", "methoddir",
    "gnupghome", "outhook", "endhook", "listhook"]

/-- A letter or digit of ASCII. -/
def isAlnum (c : Char) : Bool :=
  (48 ≤ c.toNat && c.toNat ≤ 57) || (65 ≤ c.toNat && c.toNat ≤ 90) || (97 ≤ c.toNat && c.toNat ≤ 122)

/-- `REPOSITORY_TOKEN_RE` -/
def isRepositoryToken (value : String) : Bool :=
  match value.toList with
  | [] => false
  | c :: cs => isAlnum c && cs.all fun c => isAlnum c || c ∈ ['+', '.', '_', '-']

/-- `PACKAGE_RE` -/
def isPackageName (value : String) : Bool :=
  let start c := isAlnum c && !(65 ≤ c.toNat && c.toNat ≤ 90)
  match value.toList with
  | c :: c' :: cs => start c && (c' :: cs).all fun c => start c || c ∈ ['+', '.', '-']
  | _ => false

/-! ## The repository -/

/-- A repository on disk. -/
structure Repository where
  /-- `conf/distributions` -/
  distributions : File
  /-- `conf/options` -/
  options : File
  /-- The children of the root that are real directories. -/
  directories : List String
  database : List DatabaseRow
  /-- The index of a codename, a component and an architecture. -/
  index : String → String → String → ExportedIndex

/-- `_read_repository_text` -/
def readRepositoryText (file : File) (relative : String) (required : Bool) : Except Raised String :=
  let unsupported message := Raised.publication ⟨"repository_configuration_unsupported", message, .none⟩
  match file with
  | .missing =>
      if required then .error (unsupported s!"Required repository file {relative} is missing") else .ok ""
  | .regular (.ok (.text s)) => .ok s
  | .regular (.ok .tooLarge) => .error (.publication ⟨"repository_file_too_large",
      "Repository metadata exceeds the supported size limit", .none⟩)
  | .blocked | .regular _ => .error (unsupported s!"Repository file {relative} cannot be read safely")

/-- `_repository_config` with `create_layout=False` -/
def repositoryConfig (repository : Repository) (requested : String) : Except Raised DistributionConfig := do
  let unsupported message details :=
    Raised.publication ⟨"repository_configuration_unsupported", message, details⟩
  let distributions ← readRepositoryText repository.distributions "conf/distributions" true
  let options ← readRepositoryText repository.options "conf/options" false
  let refused := ((((Text.lines options).map optionName).filter
    (· ∈ unsupportedOptionNames)).dedup).insertionSort (· ≤ ·)
  refuse (refused ≠ []) (unsupported
    "Repository path overrides and hooks are outside DebBuilder's supported layout" (.options refused))
  let config ← (selectRepreproDistribution distributions requested).mapError fun message =>
    Raised.publication ⟨"distribution_mismatch", message, .none⟩
  refuse (config.exportOptions.any fun value =>
      String.ofList (Text.lower value.toList) ∈ ["noexport", "never"])
    (unsupported "The selected distribution must export APT indices" .none)
  refuse (!isRepositoryToken config.codename) (unsupported "The selected Codename is unsafe" .none)
  refuse (!config.architectures.all isRepositoryToken)
    (unsupported "The selected Architectures contain an unsafe value" .none)
  match ["conf", "db", "dists", "pool", "lists", "logs", "morgue"].find? (· ∉ repository.directories) with
  | some name => .error (unsupported
      s!"Repository directory {name} must be a real directory below the pinned root" .none)
  | none => .ok config

end DebBuilder.Publishing
