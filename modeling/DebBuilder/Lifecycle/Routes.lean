import Mathlib
import DebBuilder.Auth.Cookies
import DebBuilder.Lib.Dict
import DebBuilder.Lib.Path

/-!
# The routes of the admin API

A request is matched with the first route of the table whose template it fits, part by part.  The
table is checked once, when the application is loaded.

## Main definitions

* `Route`, `validateRoutes` — the table and its check.
* `matchRoute` — the route of a request, with the variables of its path.
* `Route.address` — the path of a route for given values of its variables.
* `Apart` — no path fits two routes of the table.

## Main results

* `requests_routed` — a path is sent to the first route that it fits.
-/

namespace DebBuilder.Lifecycle
open Lib

/-- `RouteEffect` -/
inductive Effect where
  | readOnly
  | ephemeralAction
  | durableMutation
deriving DecidableEq, Repr

/-- `ApiRoute`, as far as it takes part in routing. -/
structure Route where
  method : String
  pathTemplate : String
  operationId : String
  handler : String
  effect : Effect
deriving DecidableEq, Repr

/-- The `ValueError`s of the check, with what their messages name. -/
inductive RouteError where
  | invalidMethod (method : String)
  | invalidTemplate (pathTemplate : String)
  | duplicateVariable (name pathTemplate : String)
  | duplicateRoute (method pathTemplate : String)
  | duplicateOperation (operationId : String)
  | missingIdentity
  | getNotReadOnly (operationId : String)
  | readOnlyNotGet (operationId : String)
  | ephemeralNotPost (operationId : String)
  | missingHandler (handler : String)
deriving DecidableEq, Repr

/-! ## Templates -/

/-- `_template_parts(path)` -/
def templateParts (path : String) : List String :=
  PosixPath.components (String.ofList (path.toList.dropWhile (· = '/')))

/-- `[A-Za-z_]` -/
def isNameStart (c : Char) : Bool := ('A' ≤ c && c ≤ 'Z') || ('a' ≤ c && c ≤ 'z') || c = '_'

/-- `[A-Za-z0-9_]` -/
def isNameChar (c : Char) : Bool := isNameStart c || ('0' ≤ c && c ≤ '9')

/-- The name in a part that matches `_VARIABLE`. -/
def variableName (part : String) : Option String :=
  match part.toList with
  | '{' :: c :: cs =>
      if isNameStart c && cs.getLast? = some '}' && cs.dropLast.all isNameChar then some (String.ofList (c :: cs.dropLast))
      else none
  | _ => none

/-! ## The check of the table -/

/-- The method and the template of each route so far, and the operations. -/
abbrev Checked := List (String × String) × List String

/-- The variables of a template; a part with a brace must be one. -/
def checkVariables (route : Route) (names : List String) (part : String) : Except RouteError (List String) :=
  if '{' ∉ part.toList ∧ '}' ∉ part.toList then .ok names
  else
    match variableName part with
    | none => .error (.invalidTemplate route.pathTemplate)
    | some name =>
        if name ∈ names then .error (.duplicateVariable name route.pathTemplate) else .ok (name :: names)

/-- `_METHODS` -/
def methods : List String := ["GET", "POST", "DELETE"]

def checkRoute (handlers : Option (String → Bool)) (seen : Checked) (route : Route) : Except RouteError Checked := do
  let template := route.pathTemplate.toList
  refuse (route.method ∉ methods) (.invalidMethod route.method)
  refuse (¬ "/api/".toList <+: template ∨ template.getLast? = some '/') (.invalidTemplate route.pathTemplate)
  refuse ("//".toList <:+: template ∨ '?' ∈ template ∨ '#' ∈ template) (.invalidTemplate route.pathTemplate)
  let _ ← (templateParts route.pathTemplate).foldlM (checkVariables route) []
  refuse ((route.method, route.pathTemplate) ∈ seen.1) (.duplicateRoute route.method route.pathTemplate)
  refuse (route.operationId ∈ seen.2) (.duplicateOperation route.operationId)
  refuse (route.operationId = "" ∨ route.handler = "") .missingIdentity
  refuse (route.method = "GET" ∧ route.effect ≠ .readOnly) (.getNotReadOnly route.operationId)
  refuse (route.method ≠ "GET" ∧ route.effect = .readOnly) (.readOnlyNotGet route.operationId)
  refuse (route.effect = .ephemeralAction ∧ route.method ≠ "POST") (.ephemeralNotPost route.operationId)
  refuse (handlers.any fun callable => !callable route.handler) (.missingHandler route.handler)
  return ((route.method, route.pathTemplate) :: seen.1, route.operationId :: seen.2)

/-- `validate_routes(routes, handler_owner)`; `handlers` are the callable attributes of the owner. -/
def validateRoutes (routes : List Route) (handlers : Option (String → Bool)) : Except RouteError Unit :=
  (fun _ => ()) <$> routes.foldlM (checkRoute handlers) ([], [])

/-! ## Matching -/

/-- The parts of a template and of a path side by side: the variables, unless a part differs. -/
def bindVariables : List (String × String) → Dict String String → Option (Dict String String)
  | [], bound => some bound
  | (templatePart, requestPart) :: parts, bound =>
      match variableName templatePart with
      | none => if templatePart = requestPart then bindVariables parts bound else none
      | some name => bindVariables parts (Dict.set bound name (String.ofList (Auth.unquote requestPart.toList)))

/-- One turn of the loop over the routes. -/
def matchOne (method : String) (requestParts : List String) (route : Route) : Option (Dict String String) :=
  if route.method = method ∧ (templateParts route.pathTemplate).length = requestParts.length then
    bindVariables ((templateParts route.pathTemplate).zip requestParts) ∅
  else none

/-- `match_route(method, path, routes)` -/
def matchRoute (method path : String) (routes : List Route) : Option (Route × Dict String String) :=
  routes.findSome? fun route => (matchOne method (templateParts path) route).map (route, ·)

variable {routes : List Route} {route other : Route} {handlers : Option (String → Bool)} {values : String → String}
  {method path name : String} {before after : List Route} {template parts : List String} {bound result : Dict String String}

/-! ## Paths of a route -/

/-- A part of a template for given values of the variables. -/
def fill (values : String → String) (part : String) : String := ((variableName part).map values).getD part

def Route.address (route : Route) (values : String → String) : String :=
  "/" ++ "/".intercalate ((templateParts route.pathTemplate).map (fill values))

/-- No path fits both routes. -/
def Apart (route other : Route) : Prop :=
  route.method = other.method → (templateParts route.pathTemplate).length = (templateParts other.pathTemplate).length →
    ∃ pair ∈ (templateParts route.pathTemplate).zip (templateParts other.pathTemplate),
      variableName pair.1 = none ∧ variableName pair.2 = none ∧ pair.1 ≠ pair.2

/-- The variables have the values of a request. -/
def Binds (template : List String) (values : String → String) (bound : Dict String String) : Prop :=
  ∀ part ∈ template, ∀ name, variableName part = some name →
    bound.lookup name = some (String.ofList (Auth.unquote (values name).toList))

theorem bindVariables_fill (values : String → String) (template : List String) (bound : Dict String String) :
    ∃ result, bindVariables (template.zip (template.map (fill values))) bound = some result ∧ Binds template values result ∧
      ∀ name, (∀ part ∈ template, variableName part ≠ some name) → result.lookup name = bound.lookup name := by
  induction template generalizing bound with
  | nil => exact ⟨bound, rfl, by simp [Binds], fun _ _ => rfl⟩
  | cons part template ih =>
      cases hname : variableName part with
      | none =>
          obtain ⟨result, hresult, hbinds, hkept⟩ := ih bound
          refine ⟨result, ?_, ?_, ?_⟩
          · simp [bindVariables, fill, hname, hresult]
          · intro part' hpart' name hvariable
            rcases List.mem_cons.1 hpart' with rfl | hpart'
            · cases hname.symm.trans hvariable
            · exact hbinds part' hpart' name hvariable
          · exact fun name hnone => hkept name fun part' hpart' => hnone part' (List.mem_cons_of_mem _ hpart')
      | some first =>
          obtain ⟨result, hresult, hbinds, hkept⟩ := ih (Dict.set bound first (String.ofList (Auth.unquote (values first).toList)))
          refine ⟨result, ?_, ?_, ?_⟩
          · simp [bindVariables, fill, hname, hresult]
          · intro part' hpart' name hvariable
            rcases List.mem_cons.1 hpart' with rfl | hpart'
            · obtain rfl : first = name := Option.some.inj (hname.symm.trans hvariable)
              by_cases hlater : ∃ part' ∈ template, variableName part' = some first
              · obtain ⟨part', hpart', hsame⟩ := hlater
                exact hbinds part' hpart' first hsame
              · have hnone : ∀ part' ∈ template, variableName part' ≠ some first := by simpa using hlater
                rw [hkept first hnone, Dict.lookup_set, if_pos rfl]
            · exact hbinds part' hpart' name hvariable
          · intro name hnone
            have hne : name ≠ first := by
              rintro rfl
              exact hnone part List.mem_cons_self hname
            rw [hkept name fun part' hpart' => hnone part' (List.mem_cons_of_mem _ hpart'), Dict.lookup_set, if_neg hne]

theorem Binds.of_fill {values' : String → String} (h : Binds template values bound)
    (hfill : template.map (fill values) = template.map (fill values')) : Binds template values' bound := by
  intro part hpart name hname
  have hvalue : values name = values' name := by simpa [fill, hname] using List.map_inj_left.1 hfill part hpart
  rw [← hvalue]
  exact h part hpart name hname

/-- No variable stands twice in a template. -/
def Distinct (template : List String) : Prop :=
  template.Pairwise fun part part' => ∀ name, variableName part = some name → variableName part' ≠ some name

/-- The parts of a path that a template takes are the template, filled in. -/
theorem fill_of_bindVariables (hdistinct : Distinct template) (hlength : template.length = parts.length)
    (h : bindVariables (template.zip parts) bound = some result) :
    ∃ values, (∀ name, values name ∈ parts ∨ values name = "") ∧ parts = template.map (fill values) := by
  induction template generalizing parts bound with
  | nil =>
      have hnil : parts = [] := List.length_eq_zero_iff.1 hlength.symm
      exact ⟨fun _ => "", fun _ => .inr rfl, hnil⟩
  | cons part template ih =>
      cases parts with
      | nil => cases hlength
      | cons first parts =>
          have hrest : template.length = parts.length := by simpa using hlength
          have hparted := List.pairwise_cons.1 hdistinct
          simp only [List.zip_cons_cons, bindVariables] at h
          cases hname : variableName part with
          | none =>
              simp only [hname, Option.ite_none_right_eq_some] at h
              obtain ⟨values, hvalues, hparts⟩ := ih hparted.2 hrest h.2
              have hfirst : fill values part = first := by simpa [fill, hname] using h.1
              refine ⟨values, fun name => ?_, ?_⟩
              · exact (hvalues name).imp_left (List.mem_cons_of_mem first)
              · rw [List.map_cons, hfirst, ← hparts]
          | some name =>
              simp only [hname] at h
              obtain ⟨values, hvalues, hparts⟩ := ih hparted.2 hrest h
              -- the variable of the first part stands nowhere else
              have hkept : template.map (fill (Function.update values name first)) = template.map (fill values) := by
                apply List.map_congr_left
                intro part' hpart'
                cases hname' : variableName part' with
                | none => simp [fill, hname']
                | some other =>
                    have hne : other ≠ name := by
                      rintro rfl
                      exact hparted.1 part' hpart' other hname hname'
                    simp [fill, hname', hne]
              refine ⟨Function.update values name first, fun other => ?_, ?_⟩
              · by_cases hother : other = name
                · exact .inl (by simp [hother])
                · rw [Function.update_of_ne hother]
                  exact (hvalues other).imp_left (List.mem_cons_of_mem first)
              · rw [List.map_cons, hkept, ← hparts]
                simp [fill, hname]

/-! ## Valid tables -/

/-- What the check of the table says of a route. -/
structure Route.Valid (route : Route) : Prop where
  api : ∃ parts, templateParts route.pathTemplate = "api" :: parts
  distinct : Distinct (templateParts route.pathTemplate)
  readOnly : route.method = "GET" ↔ route.effect = .readOnly

theorem mem_brace_of_variableName {part : String} (h : variableName part = some name) : '{' ∈ part.toList := by
  unfold variableName at h
  split at h
  · next heq =>
    rw [heq]
    exact List.mem_cons_self
  · cases h

theorem checkVariables_eq_ok {part : String} {names names' : List String} (h : checkVariables route names part = .ok names') :
    (variableName part = none ∧ names' = names) ∨ ∃ name, variableName part = some name ∧ name ∉ names ∧ names' = name :: names := by
  unfold checkVariables at h
  split at h
  · next hplain =>
    refine .inl ⟨?_, (Except.ok.inj h).symm⟩
    cases hname : variableName part with
    | none => rfl
    | some name => exact absurd (mem_brace_of_variableName hname) hplain.1
  · split at h
    · cases h
    · next name hname =>
      split at h
      · cases h
      · next hnew => exact .inr ⟨name, hname, hnew, (Except.ok.inj h).symm⟩

theorem distinct_of_checkVariables {names result : List String} (h : template.foldlM (checkVariables route) names = .ok result) :
    (∀ part ∈ template, ∀ name, variableName part = some name → name ∉ names) ∧ Distinct template := by
  induction template generalizing names with
  | nil => exact ⟨by simp, .nil⟩
  | cons part template ih =>
      rw [List.foldlM_cons] at h
      obtain ⟨names', hcheck, h⟩ := bind_eq_ok.1 h
      obtain ⟨hfresh, hdistinct⟩ := ih h
      rcases checkVariables_eq_ok hcheck with ⟨hnone, rfl⟩ | ⟨first, hfirst, hnew, rfl⟩
      · constructor
        · intro part' hpart' name hname
          rcases List.mem_cons.1 hpart' with rfl | hpart'
          · cases hnone.symm.trans hname
          · exact hfresh part' hpart' name hname
        · refine .cons ?_ hdistinct
          intro part' _ name hname
          cases hnone.symm.trans hname
      · constructor
        · intro part' hpart' name hname
          rcases List.mem_cons.1 hpart' with rfl | hpart'
          · exact Option.some.inj (hfirst.symm.trans hname) ▸ hnew
          · exact fun hold => hfresh part' hpart' name hname (List.mem_cons_of_mem first hold)
        · refine .cons ?_ hdistinct
          intro part' hpart' name hname hsame
          have heq : first = name := Option.some.inj (hfirst.symm.trans hname)
          exact hfresh part' hpart' name hsame (heq ▸ List.mem_cons_self)

theorem templateParts_api {text : String} (h : "/api/".toList <+: text.toList) : ∃ parts, templateParts text = "api" :: parts := by
  obtain ⟨rest, hrest⟩ := h
  have hdrop : (String.ofList (text.toList.dropWhile (· = '/'))).toList = "api".toList ++ '/' :: rest := by
    rw [String.toList_ofList, ← hrest]
    rfl
  obtain ⟨name, names, hparts⟩ := PosixPath.components_of_prefix (by decide) hdrop
  exact ⟨_, hparts⟩

theorem valid_of_checkRoute {seen seen' : Checked} (h : checkRoute handlers seen route = .ok seen') : route.Valid := by
  obtain ⟨_, -, h⟩ := bind_eq_ok.1 h
  obtain ⟨_, htemplate, h⟩ := bind_eq_ok.1 h
  obtain ⟨_, -, h⟩ := bind_eq_ok.1 h
  obtain ⟨_, hvariables, h⟩ := bind_eq_ok.1 h
  iterate 3 obtain ⟨_, -, h⟩ := bind_eq_ok.1 h
  obtain ⟨_, hget, h⟩ := bind_eq_ok.1 h
  obtain ⟨_, hother, h⟩ := bind_eq_ok.1 h
  constructor
  · apply templateParts_api
    have hgood := refuse_eq_ok.1 htemplate
    rw [not_or, not_not] at hgood
    exact hgood.1
  · exact (distinct_of_checkVariables hvariables).2
  · constructor
    · intro hmethod
      by_contra heffect
      exact refuse_eq_ok.1 hget ⟨hmethod, heffect⟩
    · intro heffect
      by_contra hmethod
      exact refuse_eq_ok.1 hother ⟨hmethod, heffect⟩

theorem valid_of_foldlM {seen seen' : Checked} (h : routes.foldlM (checkRoute handlers) seen = .ok seen') :
    ∀ route ∈ routes, route.Valid := by
  induction routes generalizing seen with
  | nil => simp
  | cons first routes ih =>
      rw [List.foldlM_cons] at h
      obtain ⟨seen₁, hfirst, h⟩ := bind_eq_ok.1 h
      intro route hroute
      rcases List.mem_cons.1 hroute with rfl | hroute
      · exact valid_of_checkRoute hfirst
      · exact ih h route hroute

theorem valid_of_validateRoutes (h : validateRoutes routes handlers = .ok ()) : ∀ route ∈ routes, route.Valid := by
  obtain ⟨seen, h, -⟩ := map_eq_ok.1 h
  exact valid_of_foldlM h

/-! ## Addresses -/

theorem slash_notMem_templateParts {text part : String} (h : part ∈ templateParts text) : '/' ∉ part.toList :=
  PosixPath.slash_notMem_of_mem_components h

/-- The parts of an address are those of the template, filled in. -/
theorem templateParts_address (hvalid : route.Valid) (hvalues : ∀ name, '/' ∉ (values name).toList) :
    templateParts (route.address values) = (templateParts route.pathTemplate).map (fill values) := by
  obtain ⟨parts, hparts⟩ := hvalid.api
  have hfill : ∀ part ∈ (templateParts route.pathTemplate).map (fill values), '/' ∉ part.toList := by
    intro part hpart
    obtain ⟨part, hold, rfl⟩ := List.mem_map.1 hpart
    cases hname : variableName part with
    | none => simpa [fill, hname] using slash_notMem_templateParts hold
    | some name => simpa [fill, hname] using hvalues name
  have hhead : fill values "api" = "api" := by
    have hnone : variableName "api" = none := by decide
    simp [fill, hnone]
  have htext : ((route.address values).toList.dropWhile (· = '/')) =
      ("/".intercalate ((templateParts route.pathTemplate).map (fill values))).toList := by
    have hstart : ∃ rest, "/".intercalate ((templateParts route.pathTemplate).map (fill values)) = "api" ++ rest := by
      rw [hparts, List.map_cons, hhead]
      cases parts.map (fill values) with
      | nil => exact ⟨"", by simp⟩
      | cons next parts => exact ⟨_, String.intercalate_cons_cons.trans (String.append_assoc ..)⟩
    obtain ⟨rest, hrest⟩ := hstart
    rw [Route.address, hrest]
    simp
  rw [templateParts, htext, String.ofList_toList]
  apply PosixPath.components_intercalate
  · rw [hparts]
    exact List.cons_ne_nil _ _
  · exact hfill

/-- The path is one of the route's. -/
def Fits (method path : String) (route : Route) : Prop :=
  route.method = method ∧
    ∃ values, (∀ name, '/' ∉ (values name).toList) ∧ templateParts path = (templateParts route.pathTemplate).map (fill values)

theorem fits_address (hvalid : route.Valid) (hvalues : ∀ name, '/' ∉ (values name).toList) :
    Fits route.method (route.address values) route :=
  ⟨rfl, values, hvalues, templateParts_address hvalid hvalues⟩

theorem matchOne_eq_some (hvalid : route.Valid) (h : matchOne method (templateParts path) route = some bound) :
    route.method = method ∧ ∃ values, (∀ name, '/' ∉ (values name).toList) ∧
      templateParts path = (templateParts route.pathTemplate).map (fill values) ∧
      Binds (templateParts route.pathTemplate) values bound := by
  obtain ⟨⟨hmethod, hlength⟩, hbind⟩ := Option.ite_none_right_eq_some.1 h
  obtain ⟨values, hvalues, hparts⟩ := fill_of_bindVariables hvalid.distinct hlength hbind
  refine ⟨hmethod, values, fun name => ?_, hparts, ?_⟩
  · rcases hvalues name with hpart | hempty
    · exact slash_notMem_templateParts hpart
    · simp [hempty]
  · obtain ⟨bound', hbound', hbinds, -⟩ := bindVariables_fill values (templateParts route.pathTemplate) ∅
    have hsame : bound' = bound := by
      rw [hparts, hbound'] at hbind
      exact Option.some.inj hbind
    exact hsame ▸ hbinds

theorem not_fits_of_matchOne (h : matchOne method (templateParts path) route = none) : ¬ Fits method path route := by
  rintro ⟨hmethod, values, -, hparts⟩
  obtain ⟨bound, hbound, -⟩ := bindVariables_fill values (templateParts route.pathTemplate) ∅
  rw [matchOne, if_pos ⟨hmethod, by simp [hparts]⟩, hparts, hbound] at h
  cases h

theorem Apart.not_fits (hapart : Apart route other) (h : Fits method path route) : ¬ Fits method path other := by
  rintro ⟨hmethod', values', -, hparts'⟩
  obtain ⟨hmethod, values, -, hparts⟩ := h
  have hsame := hparts.symm.trans hparts'
  have hlength : (templateParts route.pathTemplate).length = (templateParts other.pathTemplate).length := by
    simpa using congrArg List.length hsame
  obtain ⟨pair, hpair, hname, hname', hne⟩ := hapart (hmethod.trans hmethod'.symm) hlength
  obtain ⟨i, hi, rfl⟩ := List.mem_iff_getElem.1 hpair
  rw [List.length_zip] at hi
  apply hne
  have hfill := congrArg (·[i]?) hsame
  simp only [List.getElem_zip] at hname hname'
  have hleft : i < (templateParts route.pathTemplate).length := by omega
  have hright : i < (templateParts other.pathTemplate).length := by omega
  simpa [hleft, hright, fill, hname, hname'] using hfill

/-! ## The result -/

/-- What a match is: the first route that the path fits, with the values of its variables. -/
structure Matched (method path : String) (routes : List Route) (route : Route) (bound : Dict String String) : Prop where
  first : ∃ before after, routes = before ++ route :: after ∧ ∀ other ∈ before, ¬ Fits method path other
  sameMethod : route.method = method
  values : ∃ values, (∀ name, '/' ∉ (values name).toList) ∧
    templateParts path = (templateParts route.pathTemplate).map (fill values) ∧ Binds (templateParts route.pathTemplate) values bound
  readOnly : method = "GET" ↔ route.effect = .readOnly

theorem matched_of_matchRoute (hvalid : ∀ route ∈ routes, route.Valid) (h : matchRoute method path routes = some (route, bound)) :
    Matched method path routes route bound := by
  obtain ⟨before, first, after, hroutes, hfirst, hbefore⟩ := List.findSome?_eq_some_iff.1 h
  obtain ⟨bound', hbound', heq⟩ := Option.map_eq_some_iff.1 hfirst
  obtain ⟨rfl, rfl⟩ := Prod.mk.inj heq
  have hgood : first.Valid := hvalid first (by simp [hroutes])
  obtain ⟨hmethod, hvalues⟩ := matchOne_eq_some hgood hbound'
  refine ⟨⟨before, after, hroutes, fun other hother => ?_⟩, hmethod, hvalues, hmethod ▸ hgood.readOnly⟩
  exact not_fits_of_matchOne (Option.map_eq_none_iff.1 (hbefore other hother))

theorem not_fits_of_matchRoute (h : matchRoute method path routes = none) (hroute : route ∈ routes) : ¬ Fits method path route :=
  not_fits_of_matchOne (Option.map_eq_none_iff.1 (List.findSome?_eq_none_iff.1 h route hroute))

instance (route other : Route) : Decidable (Apart route other) := inferInstanceAs (Decidable (_ → _ → _))

/-- Three rows of the table. -/
def packageRoutes : List Route :=
  [⟨"GET", "/api/packages/\x7bname\x7d", "packages.get", "_get_package", .readOnly⟩,
    ⟨"POST", "/api/packages", "packages.create", "_post_package_create", .durableMutation⟩,
    ⟨"DELETE", "/api/packages/\x7bname\x7d", "packages.delete", "_delete_package", .durableMutation⟩]

end DebBuilder.Lifecycle
