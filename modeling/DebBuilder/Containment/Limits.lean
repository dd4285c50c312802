import Mathlib
import DebBuilder.Recipe.Values

/-!
# Resource limits of a Run

The limits of the settings and of a Recipe are resolved to the effective ones, which are
sealed in a contract when a Run is admitted.  A contract that is read back is resolved
again and compared.

## Main definitions

* `resolvePolicy` — the effective limits and where they are from.
* `admissionContract`, `validateContract` — the contract of a Run.

## Main statements

* `contract_exact_iff` — the effective limits are the least ones, a contract validates to itself, and the effective
  limits of an accepted contract are the resolved ones.
-/

namespace DebBuilder.Containment
open Lib Json Recipe

/-! ## The contract -/

def policySchemaVersion : Int := 1
def policyScope : String := "each_command_cgroup"

/-- `CONTROL_FOR_FIELD[field]` -/
def controlForField (field : String) : String :=
  if field = "memory_max_bytes" then "memory"
  else if field = "tasks_max" then "tasks"
  else if field = "cpu_quota_percent" then "cpu"
  else if field = "io_read_bandwidth_max_bytes_per_sec" then "io_read"
  else "io_write"

/-- `policy[field]` -/
def limitOf (policy : Policy) (field : String) : Option Int := (policy.lookup field).join

/-- The members of `policy`. -/
def fieldsOf (policy : Policy) : Fields := policy.map fun limit => (limit.1, optionalInt limit.2)

/-- The effective limit of one control, and where it is from. -/
def resolveLimit : Option Int → Option Int → Option Int × String
  | none, none => (none, "unset")
  | none, some recipeValue => (some recipeValue, "recipe")
  | some globalValue, none => (some globalValue, "global")
  | some globalValue, some recipeValue =>
      if globalValue < recipeValue then (some globalValue, "global")
      else if recipeValue < globalValue then (some recipeValue, "recipe")
      else (some globalValue, "global_and_recipe")

/-- Where the effective limits are from. -/
abbrev Origins := List (String × String)

/-- `effective` after the loop of `resolve_policy` -/
def effectiveOf (globalLimits recipeLimits : Policy) : Policy :=
  policyFields.map fun field => (field, (resolveLimit (limitOf globalLimits field) (limitOf recipeLimits field)).1)

/-- `origins` after the loop of `resolve_policy` -/
def originsOf (globalLimits recipeLimits : Policy) : Origins :=
  policyFields.map fun field => (field, (resolveLimit (limitOf globalLimits field) (limitOf recipeLimits field)).2)

/-- `resolve_policy(global_policy, recipe_policy)` -/
def resolvePolicy (globalPolicy recipePolicy : Json) : Fallible (Policy × Origins) := do
  let globalLimits ← normalizePolicy globalPolicy "$.settings.resource_limits"
  let recipeLimits ← normalizePolicy recipePolicy "$.recipe.resource_limits"
  return (effectiveOf globalLimits recipeLimits, originsOf globalLimits recipeLimits)

/-- The controls of the limits that are set. -/
def controlsOf (canonical : Policy) : List String :=
  (policyFields.filter fun field => (limitOf canonical field).isSome).map controlForField

/-- `requested_controls(policy)` -/
def requestedControls (policy : Json) : Fallible (List String) := do
  let canonical ← normalizePolicy policy "$.resource_limits"
  return controlsOf canonical

/-- `enforcement_required(policy)` -/
def enforcementRequired (policy : Json) : Fallible Bool := do
  let controls ← requestedControls policy
  return controls ≠ []

/-- The members of a contract. -/
def contractOf (globalLimits recipeLimits effective : Policy) (origins : Origins) (required : Bool) (capability : Json) :
    Fields :=
  [("policy_schema_version", .int policySchemaVersion), ("scope", .str policyScope), ("global", globalLimits.toJson),
    ("recipe", recipeLimits.toJson), ("effective", effective.toJson), ("origins", environmentJson origins),
    ("enforcement_required", .bool required), ("admission_capability", capability)]

/-- `admission_contract(global_policy, recipe_policy, capability)` -/
def admissionContract (globalPolicy recipePolicy capability : Json) : Fallible Json := do
  let globalLimits ← normalizePolicy globalPolicy "$.settings.resource_limits"
  let recipeLimits ← normalizePolicy recipePolicy "$.recipe.resource_limits"
  let (effective, origins) ← resolvePolicy globalLimits.toJson recipeLimits.toJson
  let required ← enforcementRequired effective.toJson
  return .obj (contractOf globalLimits recipeLimits effective origins required capability)

/-- `set(fields) == known` -/
def sameKeys (fields : Fields) (known : List String) : Prop :=
  (∀ field ∈ fields, field.1 ∈ known) ∧ ∀ key ∈ known, key ∈ fields.map Prod.fst

instance (fields : Fields) (known : List String) : Decidable (sameKeys fields known) := inferInstanceAs (Decidable (_ ∧ _))

def contractFault (message path : String) : RecipeError := .resourceLimit "invalid_resource_contract" message path

/-- The capability that a contract holds. -/
structure Capability where
  backend : String
  available : Bool
  requestedControls : Json
  reason : String

/-- The checks of a capability by itself. -/
def readCapability (value : Json) (path : String) : Fallible Capability := do
  let fault := contractFault "Run admission capability is invalid" (path ++ ".admission_capability")
  let fields ← demand fault value.fields?
  refuse (¬ sameKeys fields ["backend", "available", "requested_controls", "reason"]) fault
  let known ← inSet (get fields "backend") ["systemd_cgroup", "process_group", "not_evaluated"]
  refuse (known = false) fault
  let available ← demand fault (bool? (get fields "available"))
  let reason ← demand fault (get fields "reason").str?
  refuse (500 < reason.length) fault
  return ⟨strOf (get fields "backend"), available, get fields "requested_controls", reason⟩

def contractFields : List String :=
  ["policy_schema_version", "scope", "global", "recipe", "effective", "origins", "enforcement_required",
    "admission_capability"]

/-- `validate_contract(value, path=path)` -/
def validateContract (value : Json) (path : String) : Fallible Json := do
  let fields ← demand (contractFault "Run resource policy must be an object" path) value.fields?
  refuse (¬ sameKeys fields contractFields) (contractFault "Run resource policy has invalid fields" path)
  refuse ((get fields "policy_schema_version").equals (.int policySchemaVersion) = false ∨
    (get fields "scope").equals (.str policyScope) = false)
    (contractFault "Run resource policy version or scope is unsupported" path)
  let _ ← ["global", "recipe", "effective"].mapM fun policyField =>
    demand (contractFault "Run resource policies must be objects" (path ++ "." ++ policyField)) (get fields policyField).fields?
  let globalLimits ← normalizePolicy (get fields "global") (path ++ ".global")
  let recipeLimits ← normalizePolicy (get fields "recipe") (path ++ ".recipe")
  let (effective, origins) ← resolvePolicy globalLimits.toJson recipeLimits.toJson
  refuse ((get fields "effective").equals effective.toJson = false ∨
    (get fields "origins").equals (environmentJson origins) = false)
    (contractFault "Run effective resource policy does not match its inputs" path)
  let required ← enforcementRequired effective.toJson
  refuse (bool? (get fields "enforcement_required") ≠ some required)
    (contractFault "Run resource enforcement requirement is inconsistent" path)
  let capability ← readCapability (get fields "admission_capability") path
  refuse (required = true ∧ capability.available = false)
    (contractFault "A finite Run policy lacks admission capability" path)
  refuse (required = true ∧ capability.backend ≠ "systemd_cgroup")
    (contractFault "A finite Run policy requires authenticated systemd/cgroup admission capability"
      (path ++ ".admission_capability.backend"))
  let controls ← requestedControls effective.toJson
  refuse (capability.requestedControls.equals (texts controls) = false)
    (contractFault "Run admission capability does not match the effective resource policy"
      (path ++ ".admission_capability.requested_controls"))
  return value

/-! ## Normalised limits -/

variable {policy globalLimits recipeLimits effective : Policy} {origins : Origins} {value globalPolicy recipePolicy : Json}
  {path path' field : String} {fields : Fields}

/-- A limit that a control may have. -/
def Allowed (field : String) (limit : Option Int) : Prop := ∀ n ∈ limit, 0 < n ∧ n ≤ policyMaximum field

theorem normalizeLimit_eq_ok {row : String × Option Int} :
    normalizeLimit fields path field = .ok row ↔
      row.1 = field ∧ get fields field = optionalInt row.2 ∧ Allowed field row.2 := by
  obtain ⟨name, limit⟩ := row
  rw [normalizeLimit]
  cases get fields field with
  | null => cases limit <;> simp [optionalInt, Allowed, eq_comm]
  | int n =>
      simp only [bind_eq_ok, refuse_eq_ok, pure_eq_ok, exists_const, Prod.mk.injEq]
      cases limit with
      | none => simp [optionalInt]
      | some m =>
          simp only [optionalInt, Json.int.injEq, Allowed, Option.mem_some_iff, forall_eq', Option.some.injEq]
          constructor
          · rintro ⟨hpositive, hmaximum, rfl, rfl⟩
            exact ⟨rfl, rfl, by omega, by omega⟩
          · rintro ⟨rfl, rfl, hpositive, hmaximum⟩
            exact ⟨by omega, by omega, rfl, rfl⟩
  | bool | float | str | arr | obj => cases limit <;> simp [optionalInt]

/-- A policy that names each control once, in order, with a limit that it may have. -/
structure Canonical (policy : Policy) : Prop where
  rows : policy = policyFields.map fun field => (field, limitOf policy field)
  allowed : ∀ field ∈ policyFields, Allowed field (limitOf policy field)

theorem lookup_map_self {β : Type} {f : String → β} {keys : List String} (h : field ∈ keys) :
    (keys.map fun key => (key, f key)).lookup field = some (f field) := by
  induction keys with
  | nil => exact absurd h List.not_mem_nil
  | cons key keys ih =>
      rw [List.map_cons, List.lookup_cons]
      by_cases heq : field = key
      · simp [heq]
      · rw [beq_eq_false_iff_ne.2 heq]
        exact ih ((List.mem_cons.1 h).resolve_left heq)

theorem limitOf_map {f : String → Option Int} (h : field ∈ policyFields) :
    limitOf (policyFields.map fun field => (field, f field)) field = f field := by
  rw [limitOf, lookup_map_self h]
  rfl

/-- A policy with the given limits. -/
theorem canonical_map {f : String → Option Int} (h : ∀ field ∈ policyFields, Allowed field (f field)) :
    Canonical (policyFields.map fun field => (field, f field)) where
  rows := List.map_congr_left fun field hfield => by rw [limitOf_map hfield]
  allowed field hfield := (limitOf_map hfield).symm ▸ h field hfield

/-- The members of a value that is read as a policy. -/
def Reads (value : Json) (fields : Fields) : Prop := value = .null ∧ fields = [] ∨ value = .obj fields

/-- The rows of a table with one row for each key. -/
theorem forall₂_rows {β : Type} [Inhabited β] {keys : List String} {rows : List (String × β)} {P : String → β → Prop} (hnodup : keys.Nodup) :
    List.Forall₂ (fun key row => row.1 = key ∧ P key row.2) keys rows ↔
      ∃ f : String → β, rows = keys.map (fun key => (key, f key)) ∧ ∀ key ∈ keys, P key (f key) := by
  constructor
  · intro h
    induction h with
    | nil => exact ⟨fun _ => default, rfl, nofun⟩
    | @cons key row keys rows hrow _ ih =>
        obtain ⟨hkey, hnodup⟩ := List.nodup_cons.1 hnodup
        obtain ⟨f, rfl, hf⟩ := ih hnodup
        have hother : ∀ other ∈ keys, (if other = key then row.2 else f other) = f other := by
          intro other hother
          exact if_neg (ne_of_mem_of_not_mem hother hkey)
        refine ⟨fun other => if other = key then row.2 else f other, ?_, ?_⟩
        · have hrest : keys.map (fun other => (other, if other = key then row.2 else f other)) =
              keys.map fun other => (other, f other) :=
            List.map_congr_left fun other hmem => by rw [hother other hmem]
          obtain ⟨name, value⟩ := row
          obtain rfl : name = key := hrow.1
          rw [List.map_cons, hrest]
          simp
        · intro other hmem
          rcases List.mem_cons.1 hmem with rfl | hmem
          · simpa using hrow.2
          · simpa only [hother other hmem] using hf other hmem
  · rintro ⟨f, rfl, hf⟩
    rw [List.forall₂_map_right_iff, List.forall₂_same]
    exact fun key hkey => ⟨rfl, hf key hkey⟩

theorem normalizePolicy_eq_ok : normalizePolicy value path = .ok policy ↔
    ∃ fields, Reads value fields ∧ (∀ e ∈ fields, e.1 ∈ policyFields) ∧
      ∃ f : String → Option Int, policy = policyFields.map (fun field => (field, f field)) ∧
        ∀ field ∈ policyFields, get fields field = optionalInt (f field) ∧ Allowed field (f field) := by
  have hrows (fields : Fields) : policyFields.mapM (normalizeLimit fields path) = .ok policy ↔
      ∃ f : String → Option Int, policy = policyFields.map (fun field => (field, f field)) ∧
        ∀ field ∈ policyFields, get fields field = optionalInt (f field) ∧ Allowed field (f field) := by
    simp only [mapM_eq_ok, normalizeLimit_eq_ok]
    exact @forall₂_rows _ _ _ _ (fun field limit => get fields field = optionalInt limit ∧ Allowed field limit) (by decide)
  have hknown {value : Json} {fields : Fields} (hvalue : value = .null ∧ fields = [] ∨ value = .obj fields) :
      normalizePolicy value path = .ok policy ↔
        (∀ e ∈ fields, e.1 ∈ policyFields) ∧ policyFields.mapM (normalizeLimit fields path) = .ok policy := by
    rw [← firstUnknown_eq_none]
    rcases hvalue with ⟨rfl, rfl⟩ | rfl
    · unfold normalizePolicy
      simp only [bind, Except.bind]
      cases firstUnknown [] policyFields <;> simp
    · unfold normalizePolicy
      simp only [bind, Except.bind]
      cases firstUnknown fields policyFields <;> simp
  cases value with
  | null =>
      apply (hknown (.inl ⟨rfl, rfl⟩)).trans
      rw [hrows]
      simp [Reads]
  | obj fields =>
      apply (hknown (.inr rfl)).trans
      rw [hrows]
      simp [Reads]
  | bool | int | float | str | arr => simp [normalizePolicy, Reads, bind, Except.bind]

theorem canonical_of_normalizePolicy (h : normalizePolicy value path = .ok policy) : Canonical policy := by
  obtain ⟨_, -, -, f, rfl, hall⟩ := normalizePolicy_eq_ok.1 h
  exact canonical_map fun field hfield => (hall field hfield).2

/-- The path is for messages only. -/
theorem normalizePolicy_path (h : normalizePolicy value path = .ok policy) : normalizePolicy value path' = .ok policy :=
  normalizePolicy_eq_ok.2 (normalizePolicy_eq_ok.1 h)

theorem Canonical.fieldsOf_eq (h : Canonical policy) :
    fieldsOf policy = policyFields.map fun field => (field, optionalInt (limitOf policy field)) := by
  rw [fieldsOf]
  conv_lhs => rw [h.rows]
  rw [List.map_map]
  rfl

/-- Limits that are normalised are read back as they are. -/
theorem Canonical.normalizePolicy_toJson (h : Canonical policy) (path : String) :
    normalizePolicy policy.toJson path = .ok policy := by
  rw [normalizePolicy_eq_ok]
  refine ⟨policyFields.map fun field => (field, optionalInt (limitOf policy field)), ?_, ?_, limitOf policy, h.rows, ?_⟩
  · exact .inr (congrArg Json.obj h.fieldsOf_eq)
  · intro e he
    obtain ⟨field, hfield, rfl⟩ := List.mem_map.1 he
    exact hfield
  · intro field hfield
    rw [Json.get, lookup_map_self hfield]
    exact ⟨rfl, h.allowed field hfield⟩

/-! ## Resolution -/

/-- A limit among all, where no limit is the largest. -/
def restriction : Option Int → WithTop Int
  | none => ⊤
  | some n => n

/-- Where the least of two limits is from. -/
inductive Origin : WithTop Int → WithTop Int → String → Prop
  | unset : Origin ⊤ ⊤ "unset"
  | global {a b : WithTop Int} (h : a < b) : Origin a b "global"
  | recipe {a b : WithTop Int} (h : b < a) : Origin a b "recipe"
  | both {a : WithTop Int} (h : a ≠ ⊤) : Origin a a "global_and_recipe"

theorem restriction_resolveLimit (a b : Option Int) :
    restriction (resolveLimit a b).1 = min (restriction a) (restriction b) := by
  cases a with
  | none => cases b <;> simp [resolveLimit, restriction]
  | some m =>
      cases b with
      | none => simp [resolveLimit, restriction]
      | some n =>
          rw [resolveLimit]
          by_cases hlt : m < n
          · rw [if_pos hlt]
            exact (min_eq_left (WithTop.coe_le_coe.2 hlt.le)).symm
          · rw [if_neg hlt]
            by_cases hgt : n < m
            · rw [if_pos hgt]
              exact (min_eq_right (WithTop.coe_le_coe.2 hgt.le)).symm
            · rw [if_neg hgt]
              obtain rfl : m = n := by omega
              simp

theorem origin_resolveLimit (a b : Option Int) : Origin (restriction a) (restriction b) (resolveLimit a b).2 := by
  cases a with
  | none =>
      cases b with
      | none => exact .unset
      | some n => exact .recipe (WithTop.coe_lt_top n)
  | some m =>
      cases b with
      | none => exact .global (WithTop.coe_lt_top m)
      | some n =>
          rw [resolveLimit]
          by_cases hlt : m < n
          · rw [if_pos hlt]
            exact .global (WithTop.coe_lt_coe.2 hlt)
          · rw [if_neg hlt]
            by_cases hgt : n < m
            · rw [if_pos hgt]
              exact .recipe (WithTop.coe_lt_coe.2 hgt)
            · rw [if_neg hgt]
              obtain rfl : m = n := by omega
              exact .both (WithTop.coe_ne_top)

theorem allowed_resolveLimit {a b : Option Int} (ha : Allowed field a) (hb : Allowed field b) :
    Allowed field (resolveLimit a b).1 := by
  cases a with
  | none => cases b <;> assumption
  | some m =>
      cases b with
      | none => exact ha
      | some n =>
          rw [resolveLimit]
          split
          · exact ha
          · split
            · exact hb
            · exact ha

/-- The effective limits are the least ones, and each origin says which policy has it. -/
structure Resolved (globalLimits recipeLimits effective : Policy) (origins : Origins) : Prop where
  least : ∀ field ∈ policyFields, restriction (limitOf effective field) =
    min (restriction (limitOf globalLimits field)) (restriction (limitOf recipeLimits field))
  origin : ∀ field ∈ policyFields, ∃ origin, origins.lookup field = some origin ∧
    Origin (restriction (limitOf globalLimits field)) (restriction (limitOf recipeLimits field)) origin

theorem resolvePolicy_eq (hglobal : normalizePolicy globalPolicy path = .ok globalLimits)
    (hrecipe : normalizePolicy recipePolicy path' = .ok recipeLimits) :
    resolvePolicy globalPolicy recipePolicy =
      .ok (effectiveOf globalLimits recipeLimits, originsOf globalLimits recipeLimits) := by
  simp only [resolvePolicy, bind_eq_ok, pure_eq_ok]
  exact ⟨globalLimits, normalizePolicy_path hglobal, recipeLimits, normalizePolicy_path hrecipe, rfl⟩

theorem canonical_effectiveOf (hglobal : Canonical globalLimits) (hrecipe : Canonical recipeLimits) :
    Canonical (effectiveOf globalLimits recipeLimits) :=
  canonical_map fun field hfield => allowed_resolveLimit (hglobal.allowed field hfield) (hrecipe.allowed field hfield)

theorem resolved_effectiveOf (globalLimits recipeLimits : Policy) :
    Resolved globalLimits recipeLimits (effectiveOf globalLimits recipeLimits) (originsOf globalLimits recipeLimits) where
  least field hfield := by
    rw [effectiveOf, limitOf_map hfield]
    exact restriction_resolveLimit _ _
  origin field hfield := ⟨_, lookup_map_self hfield, origin_resolveLimit _ _⟩

theorem Canonical.requestedControls_toJson (h : Canonical policy) : requestedControls policy.toJson = .ok (controlsOf policy) := by
  simp only [requestedControls, bind_eq_ok, pure_eq_ok]
  exact ⟨policy, h.normalizePolicy_toJson _, rfl⟩

theorem Canonical.enforcementRequired_toJson (h : Canonical policy) :
    enforcementRequired policy.toJson = .ok (decide (controlsOf policy ≠ [])) := by
  simp only [enforcementRequired, bind_eq_ok, pure_eq_ok]
  exact ⟨controlsOf policy, h.requestedControls_toJson, rfl⟩

/-! ## Contracts that were built -/

def Capability.toJson (capability : Capability) : Json :=
  .obj [("backend", .str capability.backend), ("available", .bool capability.available),
    ("requested_controls", capability.requestedControls), ("reason", .str capability.reason)]

/-- A capability that fits the effective limits. -/
structure Capability.Fits (capability : Capability) (effective : Policy) : Prop where
  backend : capability.backend ∈ ["systemd_cgroup", "process_group", "not_evaluated"]
  controls : capability.requestedControls = texts (controlsOf effective)
  reason : capability.reason.length ≤ 500
  enforced : controlsOf effective ≠ [] → capability.available = true ∧ capability.backend = "systemd_cgroup"

theorem equalsAll_texts (values : List String) : equalsAll (values.map .str) (values.map .str) = true := by
  induction values with
  | nil => rfl
  | cons value values ih => simp [equalsAll, equals, ih]

@[simp] theorem equals_texts (values : List String) : equals (texts values) (texts values) = true := by
  rw [texts, equals]
  exact equalsAll_texts values

theorem equals_optionalInt (limit : Option Int) : equals (optionalInt limit) (optionalInt limit) = true := by
  cases limit <;> simp [optionalInt, equals, sameNumber, number?]

/-- A table with distinct keys equals itself. -/
theorem equalsFields_map {f : String → Json} (hrefl : ∀ key, equals (f key) (f key) = true) {keys all : List String}
    (hsub : ∀ key ∈ keys, key ∈ all) :
    equalsFields (keys.map fun key => (key, f key)) (all.map fun key => (key, f key)) = true := by
  induction keys with
  | nil => rfl
  | cons key keys ih =>
      obtain ⟨hkey, hkeys⟩ := List.forall_mem_cons.1 hsub
      rw [List.map_cons, equalsFields, lookup_map_self hkey]
      simp [hrefl, ih hkeys]

theorem readCapability_toJson {capability : Capability} (h : capability.Fits effective) (path : String) :
    readCapability capability.toJson path = .ok capability := by
  obtain ⟨hbackend, -, hreason, -⟩ := h
  obtain ⟨backend, available, controls, reason⟩ := capability
  have hknown : inSet (.str backend) ["systemd_cgroup", "process_group", "not_evaluated"] = .ok true := by
    simpa [inSet, hashable, bind, Except.bind, pure, Except.pure] using hbackend
  simp only [readCapability, bind_eq_ok, demand_eq_ok, refuse_eq_ok, pure_eq_ok]
  refine ⟨_, rfl, (), ?_, true, hknown, (), by simp, available, rfl, reason, rfl, (), by simpa using hreason, rfl⟩
  simp [sameKeys]

theorem equals_toJson (h : Canonical policy) : policy.toJson.equals policy.toJson = true := by
  have hfields : policy.toJson = .obj (policyFields.map fun field => (field, optionalInt (limitOf policy field))) :=
    congrArg Json.obj h.fieldsOf_eq
  rw [hfields, equals, equalsFields_map (fun key => equals_optionalInt _) fun _ hkey => hkey]
  simp

theorem equals_originsOf (globalLimits recipeLimits : Policy) :
    (environmentJson (originsOf globalLimits recipeLimits)).equals (environmentJson (originsOf globalLimits recipeLimits)) = true := by
  have hfields : environmentJson (originsOf globalLimits recipeLimits) = .obj (policyFields.map fun field =>
      (field, .str (resolveLimit (limitOf globalLimits field) (limitOf recipeLimits field)).2)) := by
    rw [environmentJson, originsOf, List.map_map]
    rfl
  rw [hfields, equals, equalsFields_map (fun key => equals_str.2 rfl) fun _ hkey => hkey]
  simp

theorem admissionContract_eq {capability : Json} (hglobal : normalizePolicy globalPolicy path = .ok globalLimits)
    (hrecipe : normalizePolicy recipePolicy path' = .ok recipeLimits) :
    admissionContract globalPolicy recipePolicy capability = .ok (.obj (contractOf globalLimits recipeLimits
      (effectiveOf globalLimits recipeLimits) (originsOf globalLimits recipeLimits)
      (decide (controlsOf (effectiveOf globalLimits recipeLimits) ≠ [])) capability)) := by
  have hg := canonical_of_normalizePolicy hglobal
  have hr := canonical_of_normalizePolicy hrecipe
  simp only [admissionContract, bind_eq_ok, pure_eq_ok]
  exact ⟨globalLimits, normalizePolicy_path hglobal, recipeLimits, normalizePolicy_path hrecipe, _,
    resolvePolicy_eq (hg.normalizePolicy_toJson "") (hr.normalizePolicy_toJson ""), _,
    (canonical_effectiveOf hg hr).enforcementRequired_toJson, rfl⟩

/-- A contract with a capability that fits is accepted as it is. -/
theorem validateContract_contractOf {capability : Capability} (hglobal : Canonical globalLimits)
    (hrecipe : Canonical recipeLimits) (h : capability.Fits (effectiveOf globalLimits recipeLimits)) (path : String) :
    validateContract (.obj (contractOf globalLimits recipeLimits (effectiveOf globalLimits recipeLimits)
      (originsOf globalLimits recipeLimits) (decide (controlsOf (effectiveOf globalLimits recipeLimits) ≠ []))
      capability.toJson)) path = .ok (.obj (contractOf globalLimits recipeLimits (effectiveOf globalLimits recipeLimits)
      (originsOf globalLimits recipeLimits) (decide (controlsOf (effectiveOf globalLimits recipeLimits) ≠ []))
      capability.toJson)) := by
  have heffective := canonical_effectiveOf hglobal hrecipe
  simp only [validateContract, bind_eq_ok, demand_eq_ok, refuse_eq_ok, pure_eq_ok]
  refine ⟨_, rfl, (), ?_, (), ?_, [globalLimits, recipeLimits, effectiveOf globalLimits recipeLimits].map fieldsOf, rfl, globalLimits, hglobal.normalizePolicy_toJson _, recipeLimits,
    hrecipe.normalizePolicy_toJson _, _, resolvePolicy_eq (hglobal.normalizePolicy_toJson "") (hrecipe.normalizePolicy_toJson ""),
    (), ?_, _, heffective.enforcementRequired_toJson, (), ?_, capability, readCapability_toJson h path, (), ?_, (), ?_, _,
    heffective.requestedControls_toJson, (), ?_, trivial⟩
  · simp [sameKeys, contractFields, contractOf]
  · simp [contractOf, Json.get, List.lookup, equals, sameNumber, number?]
  · simp [contractOf, Json.get, List.lookup, equals_toJson heffective, equals_originsOf]
  · simp [contractOf, Json.get, List.lookup, bool?]
  · rintro ⟨hrequired, hmissing⟩
    rw [(h.enforced (of_decide_eq_true hrequired)).1] at hmissing
    cases hmissing
  · rintro ⟨hrequired, hother⟩
    exact hother (h.enforced (of_decide_eq_true hrequired)).2
  · rw [h.controls, equals_texts]
    rintro ⟨⟩

/-! ## Contracts that are accepted -/

/-- The same dictionary, whatever the order of its keys. -/
def SameDict (a b : Fields) : Prop := a.length = b.length ∧ ∀ pair ∈ a, b.lookup pair.1 = some pair.2

/-- The value is written neither as a boolean nor as a float. -/
def writtenPlainly : Json → Bool
  | .bool _ | .float _ _ => false
  | _ => true

theorem equals_obj {a b : Fields} : equals (.obj a) (.obj b) = true ↔
    a.length = b.length ∧ ∀ pair ∈ a, ∃ value, b.lookup pair.1 = some value ∧ equals pair.2 value = true := by
  have hfields : equalsFields a b = true ↔ ∀ pair ∈ a, ∃ value, b.lookup pair.1 = some value ∧ equals pair.2 value = true := by
    induction a with
    | nil => simp [equalsFields]
    | cons pair a ih =>
        rw [equalsFields, Bool.and_eq_true, ih, List.forall_mem_cons]
        cases b.lookup pair.1 <;> simp
  simp [equals, hfields]

/-- Only a dictionary equals a dictionary. -/
theorem exists_of_equals_obj {b : Fields} (h : equals value (.obj b) = true) : ∃ a, value = .obj a := by
  cases value with
  | obj a => exact ⟨a, rfl⟩
  | int n | bool b | float v shown => simp [equals, sameNumber, number?] at h
  | null | str s | arr values => simp [equals] at h

theorem eq_str_of_equals {text : String} (h : equals value (.str text) = true) : value = .str text := by
  cases value with
  | str s => exact equals_str.1 h ▸ rfl
  | int n | bool b | float v shown => simp [equals, sameNumber, number?] at h
  | null | arr values | obj fields => simp [equals] at h

theorem exists_of_lookup_map {β : Type} {f : β → Json} {rows : List (String × β)}
    (h : (rows.map fun row => (row.1, f row.2)).lookup field = some value) : ∃ b, value = f b := by
  induction rows with
  | nil => exact nomatch h
  | cons row rows ih =>
      rw [List.map_cons, List.lookup_cons] at h
      by_cases heq : field = row.1
      · rw [beq_iff_eq.2 heq, Option.some.injEq] at h
        exact ⟨row.2, h.symm⟩
      · rw [beq_eq_false_iff_ne.2 heq] at h
        exact ih h

/-- A value that equals a limit is that limit, unless it is a boolean or a float. -/
theorem eq_optionalInt_iff {limit : Option Int} (h : equals value (optionalInt limit) = true) :
    value = optionalInt limit ↔ writtenPlainly value = true := by
  cases value with
  | null => cases limit <;> simp [optionalInt, equals, writtenPlainly] at h ⊢
  | int n => cases limit <;> simp [optionalInt, equals, sameNumber, number?, writtenPlainly] at h ⊢; exact h
  | bool b => cases limit <;> simp [optionalInt, writtenPlainly]
  | float v shown => cases limit <;> simp [optionalInt, writtenPlainly]
  | str s => cases limit <;> simp [optionalInt, equals] at h
  | arr values => cases limit <;> simp [optionalInt, equals] at h
  | obj fields => cases limit <;> simp [optionalInt, equals] at h

/-- What the parts of an accepted contract resolve to, and what its `effective` and `origins` equal. -/
theorem validateContract_spec {result : Json} (h : validateContract value path = .ok result) :
    result = value ∧ ∃ fields globalLimits recipeLimits, value = .obj fields ∧
      normalizePolicy (get fields "global") path = .ok globalLimits ∧
      normalizePolicy (get fields "recipe") path = .ok recipeLimits ∧
      equals (get fields "effective") (.obj (fieldsOf (effectiveOf globalLimits recipeLimits))) = true ∧
      equals (get fields "origins") (environmentJson (originsOf globalLimits recipeLimits)) = true := by
  simp only [validateContract, bind_eq_ok, demand_eq_ok, refuse_eq_ok, pure_eq_ok] at h
  obtain ⟨fields, hfields, _, -, _, -, _, -, globalLimits, hglobal, recipeLimits, hrecipe, resolved, hresolved,
    _, hequal, _, -, _, -, _, -, _, -, _, -, _, -, _, -, rfl⟩ := h
  have hg := canonical_of_normalizePolicy hglobal
  have hr := canonical_of_normalizePolicy hrecipe
  rw [resolvePolicy_eq (hg.normalizePolicy_toJson "") (hr.normalizePolicy_toJson ""), Except.ok.injEq] at hresolved
  subst hresolved
  rw [not_or, Bool.not_eq_false, Bool.not_eq_false] at hequal
  have hvalue : value = .obj fields := by
    cases value with
    | obj members => exact congrArg Json.obj (Option.some.inj hfields)
    | null | bool | int | float | str | arr => exact nomatch hfields
  exact ⟨rfl, fields, globalLimits, recipeLimits, hvalue, normalizePolicy_path hglobal, normalizePolicy_path hrecipe, hequal⟩

/-- Limits that equal others are the same exactly when no boolean and no float is among them. -/
theorem sameDict_limits_iff {members : Fields} (h : equals (.obj members) (.obj (fieldsOf policy)) = true) :
    SameDict members (fieldsOf policy) ↔ ∀ pair ∈ members, writtenPlainly pair.2 = true := by
  obtain ⟨hlength, hall⟩ := equals_obj.1 h
  have hpair : ∀ pair ∈ members, ((fieldsOf policy).lookup pair.1 = some pair.2 ↔ writtenPlainly pair.2 = true) := by
    intro pair hmem
    obtain ⟨limit, hlookup, hequal⟩ := hall pair hmem
    obtain ⟨row, rfl⟩ := exists_of_lookup_map hlookup
    rw [hlookup, Option.some.injEq, eq_comm]
    exact eq_optionalInt_iff hequal
  rw [SameDict, and_iff_right hlength]
  exact forall₂_congr hpair

/-- Origins that equal others are the same. -/
theorem sameDict_origins {members : Fields} (h : equals (.obj members) (environmentJson origins) = true) :
    SameDict members (origins.map fun row => (row.1, .str row.2)) := by
  obtain ⟨hlength, hall⟩ := equals_obj.1 h
  refine ⟨hlength, fun pair hmem => ?_⟩
  obtain ⟨origin, hlookup, hequal⟩ := hall pair hmem
  obtain ⟨text, rfl⟩ := exists_of_lookup_map hlookup
  rw [hlookup, eq_str_of_equals hequal]

/-- The effective limits are the most restrictive ones, a contract that was built for a capability that fits is accepted
as it is, and the effective limits of an accepted contract are those that its parts resolve to exactly when none of them
is written as a boolean or a float. -/
theorem contract_exact_iff (globalPolicy recipePolicy value : Json) (path : String) :
    (∀ path' globalLimits recipeLimits,
      normalizePolicy globalPolicy path = .ok globalLimits → normalizePolicy recipePolicy path' = .ok recipeLimits →
      ∃ effective origins, resolvePolicy globalPolicy recipePolicy = .ok (effective, origins) ∧
        Resolved globalLimits recipeLimits effective origins ∧
        ∀ capability : Capability, capability.Fits effective →
          ∃ contract, admissionContract globalPolicy recipePolicy capability.toJson = .ok contract ∧
            ∀ path, validateContract contract path = .ok contract) ∧
    ∀ result, validateContract value path = .ok result →
      result = value ∧ ∃ fields members originMembers effective origins, value = .obj fields ∧
        get fields "effective" = .obj members ∧ get fields "origins" = .obj originMembers ∧
        resolvePolicy (get fields "global") (get fields "recipe") = .ok (effective, origins) ∧
        SameDict originMembers (origins.map fun row => (row.1, .str row.2)) ∧
        (SameDict members (fieldsOf effective) ↔ ∀ pair ∈ members, writtenPlainly pair.2 = true) := by
  constructor
  · intro path' globalLimits recipeLimits hglobal hrecipe
    have hg := canonical_of_normalizePolicy hglobal
    have hr := canonical_of_normalizePolicy hrecipe
    refine ⟨_, _, resolvePolicy_eq hglobal hrecipe, resolved_effectiveOf globalLimits recipeLimits, ?_⟩
    intro capability hfits
    exact ⟨_, admissionContract_eq hglobal hrecipe, validateContract_contractOf hg hr hfits⟩
  · intro result h
    obtain ⟨rfl, fields, globalLimits, recipeLimits, hvalue, hglobal, hrecipe, hlimits, horigins⟩ := validateContract_spec h
    obtain ⟨members, hmembers⟩ := exists_of_equals_obj hlimits
    obtain ⟨originMembers, horiginMembers⟩ := exists_of_equals_obj horigins
    rw [hmembers] at hlimits
    rw [horiginMembers] at horigins
    exact ⟨rfl, fields, members, originMembers, _, _, hvalue, hmembers, horiginMembers, resolvePolicy_eq hglobal hrecipe,
      sameDict_origins horigins, sameDict_limits_iff hlimits⟩

/-- One process at most, from the settings. -/
def oneTask : Json := .obj [("tasks_max", .int 1)]

def oneTaskLimits : Policy := policyFields.map fun field => (field, if field = "tasks_max" then some 1 else none)

def cgroupCapability : Capability where
  backend := "systemd_cgroup"
  available := true
  requestedControls := texts ["tasks"]
  reason := "verified"

theorem contract_exact_iff_oneTask :
    ∃ contract, admissionContract oneTask .null cgroupCapability.toJson = .ok contract ∧
      ∀ path, validateContract contract path = .ok contract := by
  have hglobal : normalizePolicy oneTask "" = .ok oneTaskLimits := by rfl
  have hrecipe : normalizePolicy .null "" = .ok (policyFields.map fun field => (field, none)) := by rfl
  obtain ⟨effective, origins, hresolved, -, hbuilt⟩ :=
    (contract_exact_iff oneTask .null .null "").1 "" oneTaskLimits _ hglobal hrecipe
  have heffective : resolvePolicy oneTask .null = .ok (oneTaskLimits, originsOf oneTaskLimits []) := by rfl
  rw [hresolved, Except.ok.injEq, Prod.mk.injEq] at heffective
  apply hbuilt cgroupCapability
  rw [heffective.1]
  exact ⟨by decide, by rfl, by decide, fun _ => ⟨rfl, rfl⟩⟩

/-- A contract whose effective limit is `True`. -/
def flaggedContract : Fields :=
  [("policy_schema_version", .int 1), ("scope", .str policyScope), ("global", oneTask), ("recipe", .obj []),
    ("effective", .obj (policyFields.map fun field => (field, if field = "tasks_max" then .bool true else .null))),
    ("origins", environmentJson (policyFields.map fun field => (field, if field = "tasks_max" then "global" else "unset"))),
    ("enforcement_required", .bool true), ("admission_capability", cgroupCapability.toJson)]

/-- It is accepted. -/
theorem flaggedContract_accepted : ¬ ∀ fields path result, validateContract (.obj fields) path = .ok result →
    ∃ members effective origins, get fields "effective" = .obj members ∧
      resolvePolicy (get fields "global") (get fields "recipe") = .ok (effective, origins) ∧
      SameDict members (fieldsOf effective) := by
  intro hall
  have haccepted : validateContract (.obj flaggedContract) "$" = .ok (.obj flaggedContract) := by rfl
  obtain ⟨members, effective, origins, hmembers, hresolved, -, hsame⟩ := hall flaggedContract "$" _ haccepted
  have heffective : resolvePolicy (get flaggedContract "global") (get flaggedContract "recipe") =
      .ok (oneTaskLimits, originsOf oneTaskLimits []) := by rfl
  rw [hresolved, Except.ok.injEq, Prod.mk.injEq] at heffective
  have htrue : ("tasks_max", Json.bool true) ∈ members := by
    rw [← Json.obj.inj hmembers]
    exact List.mem_map.2 ⟨"tasks_max", by decide, rfl⟩
  have hlimit := hsame _ htrue
  rw [heffective.1] at hlimit
  have hone : (fieldsOf oneTaskLimits).lookup "tasks_max" = some (.int 1) := by rfl
  rw [hone] at hlimit
  exact nomatch hlimit

end DebBuilder.Containment
