import Mathlib
import DebBuilder.Recipe.Validate
import DebBuilder.Lib.JsonPath

/-!
# Stored Recipes

An imported document is normalised and validated. What normalisation discarded is then found
by a comparison of the document with its canonical form, and the canonical form is compacted.

## Main definitions

* `findUnknownField` — the comparison.
* `compactRecipe` — the persisted shape of a canonical Recipe.
* `recipeDocumentForStorage` — the boundary for imported and edited documents.
-/

namespace DebBuilder.Recipe
open Lib Json

/-- `SOURCE_CHANGE_FIELDS` -/
def sourceChangeFields : List String := ["content", "operation", "path", "search"]

/-- A source change is checked against its own fields, since it is copied unread. -/
def unknownChangeField (path : String) (item : Json) (itemPath : String) : Option String :=
  if path = "$.build.source_changes" then
    (item.fields?.bind fun fields => firstUnknown fields sourceChangeFields).map fun unknown => itemPath ++ "." ++ unknown
  else none

mutual

/-- `_find_unknown_field` -/
def findUnknownField : Json → Json → String → Option String
  | .obj fields, canonical, path => match canonical with
      | .obj results => match firstUnknown fields (results.map Prod.fst) with
          | some unknown => some (path ++ "." ++ unknown)
          | none => findUnknownIn fields results path
      | _ => none
  | .arr values, canonical, path => match canonical with
      | .arr results => findUnknownAll values results path 0
      | _ => none
  | _, _, _ => none

def findUnknownIn : List (String × Json) → Fields → String → Option String
  | [], _, _ => none
  | (key, value) :: fields, results, path =>
      match findUnknownField value (get results key) (path ++ "." ++ key) with
      | some found => some found
      | none => findUnknownIn fields results path

/-- The elements from an index on, as far as both lists go. -/
def findUnknownAll : List Json → List Json → String → Nat → Option String
  | [], _, _, _ => none
  | item :: items, results, path, index => match results with
      | [] => none
      | normalized :: results =>
          let itemPath := path ++ "[" ++ toString index ++ "]"
          match unknownChangeField path item itemPath with
          | some found => some found
          | none => match findUnknownField item normalized itemPath with
              | some found => some found
              | none => findUnknownAll items results path (index + 1)

end

/-- `_compact_recipe` -/
def compactRecipe (r : CanonicalRecipe) : Json :=
  let json := r.toJson
  let json := if r.build.output.mode ≠ "path" then json.without ["build", "output", "path"] else json
  let json := if r.build.ensureDirectories = [] then json.without ["build", "ensure_directories"] else json
  let json := if r.artifact.mode ≠ "upstream_archive" then json.without ["artifact", "payload"] else json
  json.without ["service", "configured"]

/-- The code and the path of a `ValueError` of the automation section, or of any other. -/
def valueErrorDocument (message : String) : RecipeError :=
  if message = "automation.enabled must be a boolean" then
    .at "invalid_automation_enabled" message "$.automation.enabled"
  else if message = "automation.policy is unsupported" then
    .at "invalid_automation_policy" message "$.automation.policy"
  else if message = "automation must be an object" then
    .at "invalid_automation_configuration" message "$.automation"
  else match Text.cut [':'] message.toList with
    | some (start, field) =>
        if start = "unknown automation field".toList then
          .at "invalid_automation_configuration" message ("$.automation." ++ String.ofList (Text.strip field))
        else .at "invalid_recipe" message "$"
    | none => .at "invalid_recipe" message "$"

/-- The `except` clauses of `recipe_document_for_storage`. -/
def documentError : RecipeError → RecipeError
  | .document code message path source target => .document code message path source target
  | .resourceLimit code message path => .at code message path
  | .value message => valueErrorDocument message
  | .type message | .regex message => .at "invalid_recipe" message "$"
  | .overflow message => .overflow message

/-- A document without an id is refused before it is read. -/
def requireName (workflow : Fields) : Fallible Unit :=
  refuse (((get workflow "name").str?.map strip).getD "" = "")
    (.at "missing_id" "Recipe JSON must contain a non-empty string name" "$.name")

def recipeDocumentForStorage (lib : Library) (workflow : Json) : Fallible Json := do
  let fields ← demand (.at "invalid_root" "Recipe JSON root must be an object" "$") workflow.fields?
  requireName fields
  let normalized ← (validateRecipeMetadata lib fields).mapError documentError
  match findUnknownField workflow normalized.toJson "$" with
  | some unknown => .error (.at "unknown_field" ("Unknown Recipe field: " ++ unknown) unknown)
  | none => return compactRecipe normalized

end DebBuilder.Recipe
