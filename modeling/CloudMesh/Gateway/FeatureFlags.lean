import CloudMesh.JsonText
import CloudMesh.Routing
import Mathlib.Data.Fintype.Defs

/-!
# Feature flags

`apps/gateway/src/lib/featureFlags.ts`: what `coerce` makes of the JSON in
`organizations.feature_flags`, the copy of it that Redis keeps, and what a request decides by
either. Routing is here as the code has it, with a preset that is only a name: a name that every
object inherits is found in `ROUTING_PRESETS`, without weights.

## Main definitions

- `coerce`, `getOrgFeatureFlags` — the flags of an organization
- `decisions` — what the chat route reads of them
- `resolveModelWithFallback` — routing by the name of a preset
- `flagsHold_iff` — which stored values the flags are in order for
-/

namespace CloudMesh.FeatureFlags

/-! ## Objects -/

/-- `value[key]`, for a key that no object inherits. -/
def field (value : Option Json) (key : String) : Option Json :=
  match value with
  | some (.object fields) => fields.lookup (utf16 key)
  | _ => none

section

-- the units of a key are looked at, not all code units
attribute [-instance] Fintype.decidableForallFintype

/-- The number that a key is the numeral of, if it is an array index. -/
def arrayIndex (key : JsString) : Option ℕ :=
  let n := key.foldl (fun n unit => 10 * n + (unit.toNat - 0x30)) 0
  if key ≠ [] ∧ (∀ unit ∈ key, 0x30 ≤ unit.toNat ∧ unit.toNat ≤ 0x39) ∧
      (key.head? = some 0x30 → key.length = 1) ∧ n < 4294967295 then some n
  else none

end

def isArrayIndex (entry : JsString × Json) : Bool := (arrayIndex entry.1).isSome

/-- Array indices in ascending order. -/
def IndexLe (a b : JsString × Json) : Prop := (arrayIndex a.1).getD 0 ≤ (arrayIndex b.1).getD 0

instance : DecidableRel IndexLe := fun _ _ => Nat.decLe _ _

instance : Std.Total IndexLe := ⟨fun _ _ => Nat.le_total _ _⟩

instance : IsTrans (JsString × Json) IndexLe := ⟨fun _ _ _ => Nat.le_trans⟩

/-- `Object.entries`: the array indices come first. -/
def ownEntries (fields : List (JsString × Json)) : List (JsString × Json) :=
  (fields.filter isArrayIndex).insertionSort IndexLe ++ fields.filter fun e => !isArrayIndex e

/-- `Object.fromEntries`. -/
def fromEntries (entries : List (JsString × Json)) : List (JsString × Json) :=
  entries.foldl (fun fields entry => Json.insertField entry.1 entry.2 fields) []

/-! ## Flags -/

/-- `undefined` is `none`. -/
structure OrgFeatureFlags where
  semanticCache : Bool
  requestDedup : Bool
  cacheTtlDays : Option Json
  billingEnforcement : Bool
  routingPreset : JsString
  abConfig : Option (List (JsString × Json))

/-- The names in `ROUTING_PRESETS`. -/
def presetName : RoutingPreset → JsString
  | .costOptimized => utf16 "cost_optimized"
  | .latencyOptimized => utf16 "latency_optimized"
  | .balanced => utf16 "balanced"

def presetNamed (name : JsString) : Option RoutingPreset :=
  [.costOptimized, .latencyOptimized, .balanced].find? fun preset => presetName preset = name

/-- Every object has a property of this name. -/
def IsInherited (name : JsString) : Prop := name ∈ inheritedProperties.map utf16

instance : DecidablePred IsInherited := fun _ => inferInstanceAs (Decidable (_ ∈ _))

/-- `typeof value === "string" && value in ROUTING_PRESETS`. -/
def isRoutingPresetName : Option Json → Bool
  | some (.string name) => (presetNamed name).isSome || IsInherited name
  | _ => false

/-- `DEFAULTS`. -/
def OrgFeatureFlags.defaults : OrgFeatureFlags :=
  ⟨false, false, none, false, presetName defaultRoutingPreset, none⟩

def abConfigMaxVariants : ℕ := 10

def abConfigMaxWeight : ℚ := 1000000

/-- The filter of `coerceAbConfig`; an infinity is not finite. -/
def isVariant (entry : JsString × Json) : Bool :=
  match entry.2 with
  | .number w => 0 < w ∧ w ≤ abConfigMaxWeight ∧ entry.1 ≠ []
  | _ => false

def coerceAbConfig : Option Json → Option (List (JsString × Json))
  | some (.object fields) =>
    -- variants beyond the tenth are dropped, and so is one with a bad weight
    let entries := (ownEntries fields).filter isVariant
    if entries.isEmpty then none else some (fromEntries (entries.take abConfigMaxVariants))
  | _ => none

/-- A positive number, `Infinity` included. -/
def isPositive : Json → Bool
  | .number x => 0 < x
  | .infinity negative => !negative
  | _ => false

/-- `value === true`. -/
def isTrue : Option Json → Bool
  | some (.bool b) => b
  | _ => false

/-- The flags of an object; an array has none of the keys. -/
def coerceObject (obj : Json) : OrgFeatureFlags where
  semanticCache := isTrue (field obj "semantic_cache")
  requestDedup := isTrue (field obj "request_dedup")
  cacheTtlDays := (field obj "cache_ttl_days").filter isPositive
  billingEnforcement := isTrue (field obj "billing_enforcement")
  routingPreset :=
    match field obj "routing_preset" with
    | some (.string name) =>
      if isRoutingPresetName (some (.string name)) then name else presetName defaultRoutingPreset
    | _ => presetName defaultRoutingPreset
  abConfig := coerceAbConfig (field obj "ab_config")

def coerce : Option Json → OrgFeatureFlags
  | some (.object fields) => coerceObject (.object fields)
  | some (.array items) => coerceObject (.array items)
  | _ => .defaults

/-- The flags as an object of JavaScript. -/
def OrgFeatureFlags.toObject (flags : OrgFeatureFlags) : Json :=
  .object ([(utf16 "semantic_cache", .bool flags.semanticCache),
    (utf16 "request_dedup", .bool flags.requestDedup)] ++
    flags.cacheTtlDays.toList.map (utf16 "cache_ttl_days", ·) ++
    [(utf16 "billing_enforcement", .bool flags.billingEnforcement),
      (utf16 "routing_preset", .string flags.routingPreset)] ++
    flags.abConfig.toList.map fun variants => (utf16 "ab_config", .object variants))

/-- `JSON.stringify(flags)`, which writes the variants in the order of `Object.keys`. -/
def OrgFeatureFlags.stringified (flags : OrgFeatureFlags) : Json :=
  Json.serialized { flags with abConfig := flags.abConfig.map ownEntries }.toObject

/-- The flags that a request gets from what Redis holds and the row, and what Redis holds then. The
JSON text stands for what it parses to. -/
def getOrgFeatureFlags (cached featureFlags : Option Json) : Json × Option Json :=
  match cached with
  -- a hit is not coerced again
  | some flags => (flags, cached)
  | none => ((coerce featureFlags).toObject, some (coerce featureFlags).stringified)

/-! ## What the flags decide -/

/-- `RoutingOptions`, with the name of a preset. -/
structure RoutingOptions where
  preset : JsString
  abConfig : Option AbConfig

/-- What the chat route reads of the flags: the days that a semantic cache is asked for, if one is
asked, and the options of routing. -/
structure Decisions where
  lookupTtlDays : Option Json
  requestDedup : Bool
  billingEnforcement : Bool
  routing : RoutingOptions

/-- Whether `if (value)` takes its branch. -/
def isTruthy : Option Json → Bool
  | none | some .null => false
  | some (.bool b) => b
  | some (.number x) => x ≠ 0
  | some (.string s) => s ≠ []
  | some (.infinity _) | some (.array _) | some (.object _) => true

/-- `value ?? fallback`. -/
def orElse (value : Option Json) (fallback : Json) : Json :=
  match value with
  | none | some .null => fallback
  | some value => value

/-- A weight, which the type says is a number. -/
def weight : Json → ℚ
  | .number w => w
  | _ => 0

/-- The variants in the order of `Object.keys`. A name from the database holds no half of a
character. -/
def variants (fields : List (JsString × Json)) : AbConfig :=
  (ownEntries fields).map fun entry => (String.ofList (ofUtf16 entry.1), weight entry.2)

def routingOptions (flags : Json) : RoutingOptions where
  preset :=
    match field flags "routing_preset" with
    | some (.string name) => name
    | _ => []
  abConfig :=
    match field flags "ab_config" with
    | some (.object fields) => some (variants fields)
    | _ => none

def decisions (env : Env) (flags : Json) : Decisions where
  lookupTtlDays :=
    if isTruthy (field flags "semantic_cache") then
      some (orElse (field flags "cache_ttl_days") (.number (env.semanticCacheTtlDays : ℕ)))
    else none
  requestDedup := isTruthy (field flags "request_dedup")
  billingEnforcement := isTruthy (field flags "billing_enforcement")
  routing := routingOptions flags

/-! ### Days -/

/-- `make_interval(days => x::int)`, if the number is one of an `integer`. -/
def makeInterval : Json → Option ℤ
  | .number x =>
    let days := Json.roundHalfEven x
    if -2 ^ 31 ≤ days ∧ days < 2 ^ 31 then some days else none
  | _ => none

/-- The Julian day of `now() - make_interval(days => x::int)`; the database has no timestamp before
day 0. -/
def cutoff (today : ℕ) (x : Json) : Option ℤ :=
  (makeInterval x).bind fun days => if 0 ≤ today - days then some (today - days) else none

def UsableAsInterval (today : ℕ) (x : Json) : Prop := (cutoff today x).isSome

/-! ### Routing -/

inductive RouteReason
  | explicit
  | abVariant
  | scored
  deriving DecidableEq, Repr

structure RouteDecision where
  resolved : ResolvedModel
  reason : RouteReason
  presetUsed : Option JsString
  abVariant : Option (String × ℚ)
  candidatesConsidered : Option (List (String × Option ℚ))

def readingWeights : Thrown := .error "Cannot read properties of undefined (reading 'weights')"

def readingLatency : Thrown := .error "Cannot read properties of undefined (reading 'latency')"

section Code

variable {m : Type → Type} [Monad m] [MonadExceptOf Thrown m] (toDouble : ℚ → ℚ)
  (registry : ModelRegistry) (redis : RoutingRedis m)

/-- `ROUTING_PRESETS[presetName].weights`, which is `undefined` of what every object inherits. -/
def presetWeights (name : JsString) : m (Option RoutingWeights) :=
  match presetNamed name with
  | some preset => pure (some preset.weights)
  | none => if IsInherited name then pure none else throw readingWeights

def scoreAll (weights : Option RoutingWeights) :
    List (String × ResolvedModel) → m (List ScoredCandidate)
  | [] => pure []
  | c :: available => do
    let stats ← redis.getProviderStats c.2.provider.name
    match weights with
    | none => throw readingLatency
    | some w => do
      let scored ← scoreAll weights available
      pure (scoreOne toDouble w c stats :: scored)

def scoreCandidates (candidateModels : List String) (name : JsString) :
    m (List ScoredCandidate) := do
  let available ← resolveOpenCandidates registry redis candidateModels
  let weights ← presetWeights name
  let scored ← scoreAll toDouble redis weights available
  pure (scored.insertionSort ScoredCandidate.NotWorse)

variable (env : Env)

def routeScored (modelName : String) (name : JsString) : m RouteDecision := do
  let scored ← scoreCandidates toDouble registry redis env.candidateModels name
  match scored with
  | [] =>
    if env.candidateModels.any fun model => (registry.resolve model).isSome then
      throw (.app allProvidersUnavailableError)
    else throw (.app (validationError ("Unknown model: " ++ modelName)))
  | best :: _ =>
    pure ⟨best.resolved, .scored, some name, none, some (scored.map fun s => (s.model, s.score))⟩

def resolveModelWithFallback (random : m ℚ) (modelName : String) (routing : RoutingOptions) :
    m RouteDecision :=
  if modelName ≠ "auto" then
    match registry.resolve modelName with
    | none => throw (.app (validationError ("Unknown model: " ++ modelName)))
    | some resolved => pure ⟨resolved, .explicit, none, none, none⟩
  else
    match routing.abConfig with
    | none => routeScored toDouble registry redis env modelName routing.preset
    | some abConfig => do
      let variant ← selectAbVariant toDouble registry redis abConfig random
      match variant with
      | some v => pure ⟨v.resolved, .abVariant, none, some (v.model, v.normalizedWeight), none⟩
      | none => routeScored toDouble registry redis env modelName routing.preset

end Code

/-! ## What the flags have to be -/

/-- Every error of `x` is one of `P`. -/
def ThrowsOnly {σ α : Type} (P : Thrown → Prop) (x : StateT σ (Except Thrown) α) : Prop :=
  ∀ s e, x s = .error e → P e

/-- Redis and the source of random numbers answer, whatever it is and whatever changes meanwhile. -/
structure Answers {σ : Type} (redis : RoutingRedis (StateT σ (Except Thrown)))
    (random : StateT σ (Except Thrown) ℚ) : Prop where
  state : ∀ name, ThrowsOnly (fun _ => False) (redis.hgetState name)
  stats : ∀ name, ThrowsOnly (fun _ => False) (redis.getProviderStats name)
  random : ThrowsOnly (fun _ => False) random

/-- A `ValidationError` or an `AllProvidersUnavailableError`. -/
def IsRoutingError (e : Thrown) : Prop :=
  ∃ err, e = .app err ∧ (err.cls = .validation ∨ err.cls = .allProvidersUnavailable)

/-- One to ten variants with names and finite weights. -/
structure AbConfigValid (fields : List (JsString × Json)) : Prop where
  nonempty : 1 ≤ fields.length
  few : fields.length ≤ 10
  entries : ∀ entry ∈ fields, entry.1 ≠ [] ∧ ∃ w, entry.2 = .number w ∧ 0 < w ∧ w ≤ 10 ^ 6

/-- The flags that are made of `featureFlags` are well formed, routing on them fails in no other
way than it may, and the copy in Redis decides the same. -/
structure FlagsHold (today : ℕ) (featureFlags : Option Json) : Prop where
  preset : ∃ preset, (coerce featureFlags).routingPreset = presetName preset
  abConfig : ∀ fields ∈ (coerce featureFlags).abConfig, AbConfigValid fields
  cacheTtlDays : ∀ days ∈ (coerce featureFlags).cacheTtlDays, UsableAsInterval today days
  routes : ∀ (σ : Type) toDouble env registry (redis : RoutingRedis (StateT σ (Except Thrown)))
    random, Answers redis random → ThrowsOnly IsRoutingError
      (resolveModelWithFallback toDouble registry redis env random "auto"
        (routingOptions (getOrgFeatureFlags none featureFlags).1))
  cached : ∀ env later,
    decisions env (getOrgFeatureFlags (getOrgFeatureFlags none featureFlags).2 later).1 =
      decisions env (getOrgFeatureFlags none featureFlags).1

/-- The stored preset is no name that every object inherits, and the stored days, if they are
positive, are days that can be counted back from today. -/
structure Harmless (today : ℕ) (featureFlags : Option Json) : Prop where
  preset : ∀ name, field featureFlags "routing_preset" = some (.string name) → ¬IsInherited name
  finite : field featureFlags "cache_ttl_days" ≠ some (.infinity false)
  days : ∀ x, field featureFlags "cache_ttl_days" = some (.number x) →
    Json.roundHalfEven x ≤ min (today : ℤ) (2 ^ 31 - 1)

/-! ## Entries -/

section Entries

variable {key : JsString} {value : Json} {entry : JsString × Json}
  {fields entries : List (JsString × Json)}

theorem length_insertField_le :
    (Json.insertField key value fields).length ≤ fields.length + 1 := by
  induction fields with
  | nil => exact le_rfl
  | cons field fields ih =>
    rw [Json.insertField]
    by_cases h : field.1 = key
    · rw [if_pos h]
      exact Nat.le_succ _
    · rw [if_neg h]
      exact Nat.succ_le_succ ih

theorem length_insertField_pos : 0 < (Json.insertField key value fields).length := by
  cases fields with
  | nil => exact Nat.one_pos
  | cons field fields =>
    rw [Json.insertField]
    by_cases h : field.1 = key
    · rw [if_pos h]
      exact Nat.succ_pos _
    · rw [if_neg h]
      exact Nat.succ_pos _

theorem mem_insertField (h : entry ∈ Json.insertField key value fields) :
    entry = (key, value) ∨ entry ∈ fields := by
  induction fields with
  | nil => exact .inl (List.mem_singleton.mp h)
  | cons field fields ih =>
    rw [Json.insertField] at h
    by_cases hkey : field.1 = key
    · rw [if_pos hkey, List.mem_cons] at h
      exact h.imp_right (List.mem_cons_of_mem _)
    · rw [if_neg hkey, List.mem_cons] at h
      obtain rfl | h := h
      · exact .inr List.mem_cons_self
      · exact (ih h).imp_right (List.mem_cons_of_mem _)

/-- What the entries of a list are, its object has, and never more of them. -/
theorem foldl_insertField (p : JsString × Json → Prop) (hp : ∀ entry ∈ entries, p entry)
    (hfields : ∀ entry ∈ fields, p entry) :
    let object := entries.foldl (fun fields entry => Json.insertField entry.1 entry.2 fields) fields
    (∀ entry ∈ object, p entry) ∧ object.length ≤ fields.length + entries.length ∧
      (fields ≠ [] ∨ entries ≠ [] → object ≠ []) := by
  induction entries generalizing fields with
  | nil => exact ⟨hfields, le_rfl, fun h => h.resolve_right fun hnil => hnil rfl⟩
  | cons entry entries ih =>
    have hnext : ∀ other ∈ Json.insertField entry.1 entry.2 fields, p other := by
      intro other hother
      obtain rfl | hother := mem_insertField hother
      · exact hp _ List.mem_cons_self
      · exact hfields other hother
    obtain ⟨hall, hlen, hne⟩ := ih (fun other h => hp other (List.mem_cons_of_mem _ h)) hnext
    refine ⟨hall, hlen.trans ?_, fun _ => hne (.inl ?_)⟩
    · have := @length_insertField_le entry.1 entry.2 fields
      simp only [List.length_cons]
      omega
    · exact List.length_pos_iff.mp length_insertField_pos

theorem abConfigValid_of_coerceAbConfig {raw : Option Json}
    (h : coerceAbConfig raw = some fields) : AbConfigValid fields := by
  unfold coerceAbConfig at h
  split at h
  · rename_i stored
    set kept := (ownEntries stored).filter isVariant with hkept
    by_cases hnil : kept.isEmpty
    · simp [hnil] at h
    · simp only [hnil, Bool.false_eq_true, if_false, Option.some.injEq] at h
      have hne : kept.take abConfigMaxVariants ≠ [] := by
        cases hcases : kept with
        | nil => simp [hcases] at hnil
        | cons entry rest => simp [abConfigMaxVariants]
      obtain ⟨hall, hlen, hobject⟩ := @foldl_insertField [] (kept.take abConfigMaxVariants)
        (fun entry => isVariant entry = true)
        (fun entry hentry => (List.mem_filter.mp (List.mem_of_mem_take hentry)).2)
        (fun _ hentry => absurd hentry List.not_mem_nil)
      rw [← h]
      refine ⟨List.length_pos_iff.mpr (hobject (.inr hne)), ?_, fun entry hentry => ?_⟩
      · refine hlen.trans ?_
        simp only [List.length_nil, List.length_take, abConfigMaxVariants]
        omega
      · have hvariant := hall entry hentry
        unfold isVariant at hvariant
        split at hvariant
        · rename_i w hw
          have hbounds := of_decide_eq_true hvariant
          refine ⟨hbounds.2.2, w, hw, hbounds.1, hbounds.2.1.trans ?_⟩
          norm_num [abConfigMaxWeight]
        · cases hvariant
  · cases h

/-- An object keeps its order when it is written and read. -/
theorem ownEntries_ownEntries (fields : List (JsString × Json)) :
    ownEntries (ownEntries fields) = ownEntries fields := by
  set indices := (fields.filter isArrayIndex).insertionSort IndexLe with hindices
  set others := fields.filter fun e => !isArrayIndex e with hothers
  have hsorted : indices.Pairwise IndexLe := List.pairwise_insertionSort IndexLe _
  have hindex : ∀ e ∈ indices, isArrayIndex e = true := fun e he =>
    (List.mem_filter.mp ((List.mem_insertionSort IndexLe).mp he)).2
  have hother : ∀ e ∈ others, (!isArrayIndex e) = true := fun e he => (List.mem_filter.mp he).2
  have hfirst : (indices ++ others).filter isArrayIndex = indices := by
    rw [List.filter_append, List.filter_eq_self.mpr hindex,
      List.filter_eq_nil_iff.mpr fun e he => by simpa using hother e he, List.append_nil]
  have hrest : (indices ++ others).filter (fun e => !isArrayIndex e) = others := by
    rw [List.filter_append, List.filter_eq_self.mpr hother,
      List.filter_eq_nil_iff.mpr fun e he => by simp [hindex e he], List.nil_append]
  show ((indices ++ others).filter isArrayIndex).insertionSort IndexLe ++
    (indices ++ others).filter (fun e => !isArrayIndex e) = indices ++ others
  rw [hfirst, hrest, hsorted.insertionSort_eq]

theorem mem_ownEntries : entry ∈ ownEntries fields ↔ entry ∈ fields := by
  unfold ownEntries
  rw [List.mem_append, List.mem_insertionSort, List.mem_filter, List.mem_filter]
  by_cases h : isArrayIndex entry <;> simp [h]

end Entries

/-! ## The copy in Redis -/

section Copy

variable {flags : OrgFeatureFlags}

theorem lookup_serializedFields (key : JsString) (fields : List (JsString × Json)) :
    (Json.serializedFields fields).lookup key = (fields.lookup key).map Json.serialized := by
  induction fields with
  | nil => rfl
  | cons field fields ih =>
    obtain ⟨k, v⟩ := field
    rw [Json.serializedFields, Json.serializedField, List.lookup_cons, List.lookup_cons, ih]
    cases key == k <;> rfl

theorem field_serialized (value : Json) (key : String) :
    field value.serialized key = (field value key).map Json.serialized := by
  cases value with
  | object fields => exact lookup_serializedFields _ _
  | _ => rfl

theorem field_semanticCache :
    field flags.toObject "semantic_cache" = some (.bool flags.semanticCache) := rfl

theorem field_requestDedup :
    field flags.toObject "request_dedup" = some (.bool flags.requestDedup) := rfl

theorem field_cacheTtlDays : field flags.toObject "cache_ttl_days" = flags.cacheTtlDays := by
  obtain ⟨_, _, _ | _, _, _, _ | _⟩ := flags <;> rfl

theorem field_billingEnforcement :
    field flags.toObject "billing_enforcement" = some (.bool flags.billingEnforcement) := by
  obtain ⟨_, _, _ | _, _, _, _ | _⟩ := flags <;> rfl

theorem field_routingPreset :
    field flags.toObject "routing_preset" = some (.string flags.routingPreset) := by
  obtain ⟨_, _, _ | _, _, _, _ | _⟩ := flags <;> rfl

theorem field_abConfig : field flags.toObject "ab_config" = flags.abConfig.map .object := by
  obtain ⟨_, _, _ | _, _, _, _ | _⟩ := flags <;> rfl

theorem routingOptions_toObject : routingOptions flags.toObject =
    ⟨flags.routingPreset, flags.abConfig.map variants⟩ := by
  unfold routingOptions
  rw [field_routingPreset, field_abConfig]
  cases flags.abConfig <;> rfl

theorem routingOptions_stringified
    (hab : ∀ fields ∈ flags.abConfig, AbConfigValid fields) :
    routingOptions flags.stringified = routingOptions flags.toObject := by
  have hcopy : field flags.stringified "ab_config" =
      flags.abConfig.map fun fields => .object (ownEntries fields) := by
    rw [OrgFeatureFlags.stringified, field_serialized, field_abConfig]
    cases h : flags.abConfig with
    | none => rfl
    | some fields =>
      refine congrArg (fun fields => some (Json.object fields)) (Json.serializedFields_eq ?_)
      intro entry hentry
      obtain ⟨-, w, hw, -⟩ := (hab fields h).entries entry (mem_ownEntries.mp hentry)
      rw [hw]
      rfl
  have hpreset : field flags.stringified "routing_preset" =
      some (.string flags.routingPreset) := by
    rw [OrgFeatureFlags.stringified, field_serialized, field_routingPreset]
    rfl
  rw [routingOptions_toObject]
  unfold routingOptions
  rw [hcopy, hpreset]
  cases flags.abConfig with
  | none => rfl
  | some fields =>
    simp only [Option.map_some, variants, ownEntries_ownEntries]

/-- Only the days of the copy can differ. -/
theorem decisions_stringified (env : Env) (hab : ∀ fields ∈ flags.abConfig, AbConfigValid fields)
    (hdays : ∀ days ∈ flags.cacheTtlDays, days.serialized = days) :
    decisions env flags.stringified = decisions env flags.toObject := by
  have hcopy : ∀ key, field flags.stringified key = (field
      { flags with abConfig := flags.abConfig.map ownEntries }.toObject key).map
        Json.serialized := fun key => field_serialized _ key
  have hsame : flags.cacheTtlDays.map Json.serialized = flags.cacheTtlDays := by
    cases h : flags.cacheTtlDays with
    | none => rfl
    | some days => exact congrArg some (hdays days h)
  unfold decisions
  rw [routingOptions_stringified hab, hcopy, hcopy, hcopy, hcopy]
  simp only [field_semanticCache, field_requestDedup, field_cacheTtlDays,
    field_billingEnforcement, hsame]
  rfl

end Copy

/-! ## Errors of routing -/

section Errors

variable {σ α β : Type} {P Q : Thrown → Prop} {x : StateT σ (Except Thrown) α}

theorem ThrowsOnly.mono (h : ThrowsOnly P x) (hPQ : ∀ e, P e → Q e) : ThrowsOnly Q x :=
  fun s e he => hPQ e (h s e he)

theorem throwsOnly_pure (a : α) : ThrowsOnly P (pure a : StateT σ (Except Thrown) α) := by
  intro s e he
  cases he

theorem throwsOnly_throw {e : Thrown} (h : P e) :
    ThrowsOnly P (throw e : StateT σ (Except Thrown) α) := by
  intro s e' he
  cases he
  exact h

theorem ThrowsOnly.bind {f : α → StateT σ (Except Thrown) β} (hx : ThrowsOnly P x)
    (hf : ∀ a, ThrowsOnly P (f a)) : ThrowsOnly P (x >>= f) := by
  intro s e he
  have hbind : (x >>= f) s = x s >>= fun r => f r.1 r.2 := rfl
  rw [hbind] at he
  cases hs : x s with
  | error e' =>
    rw [hs] at he
    cases he
    exact hx s e hs
  | ok r =>
    rw [hs] at he
    exact hf r.1 r.2 e he

variable {toDouble : ℚ → ℚ} {registry : ModelRegistry}
  {redis : RoutingRedis (StateT σ (Except Thrown))}
  {random : StateT σ (Except Thrown) ℚ}

theorem throwsOnly_resolveOpenCandidates (h : ∀ name, ThrowsOnly P (redis.hgetState name))
    (candidateModels : List String) :
    ThrowsOnly P (resolveOpenCandidates registry redis candidateModels) := by
  induction candidateModels with
  | nil => exact throwsOnly_pure _
  | cons model candidateModels ih =>
    rw [resolveOpenCandidates]
    cases registry.resolve model with
    | none => exact ih
    | some r =>
      refine ThrowsOnly.bind ((h r.provider.name).bind fun _ => throwsOnly_pure _) fun state => ?_
      exact ih.bind fun _ => throwsOnly_pure _

theorem throwsOnly_scoreAll (h : ∀ name, ThrowsOnly P (redis.getProviderStats name))
    (weights : RoutingWeights) (available : List (String × ResolvedModel)) :
    ThrowsOnly P (scoreAll toDouble redis (some weights) available) := by
  induction available with
  | nil => exact throwsOnly_pure _
  | cons c available ih =>
    rw [scoreAll]
    exact (h _).bind fun stats => ih.bind fun scored => throwsOnly_pure _

theorem throwsOnly_selectAbVariant (h : ∀ name, ThrowsOnly P (redis.hgetState name))
    (hrandom : ThrowsOnly P random) (abConfig : AbConfig) :
    ThrowsOnly P (selectAbVariant toDouble registry redis abConfig random) := by
  refine (throwsOnly_resolveOpenCandidates h _).bind fun available => ?_
  cases available with
  | nil => exact throwsOnly_pure _
  | cons first rest => exact hrandom.bind fun r => throwsOnly_pure _

theorem presetNamed_presetName (preset : RoutingPreset) :
    presetNamed (presetName preset) = some preset := by
  cases preset <;> rfl

theorem presetName_of_presetNamed {name : JsString} {preset : RoutingPreset}
    (h : presetNamed name = some preset) : presetName preset = name := by
  simpa using List.find?_some h

theorem throwsOnly_routeScored (hstate : ∀ name, ThrowsOnly P (redis.hgetState name))
    (hstats : ∀ name, ThrowsOnly P (redis.getProviderStats name))
    (hrouting : ∀ e, IsRoutingError e → P e) (env : Env) (modelName : String)
    (preset : RoutingPreset) :
    ThrowsOnly P (routeScored toDouble registry redis env modelName (presetName preset)) := by
  refine ThrowsOnly.bind ?_ fun scored => ?_
  · refine (throwsOnly_resolveOpenCandidates hstate _).bind fun available => ?_
    rw [presetWeights, presetNamed_presetName]
    simp only [pure_bind]
    exact (throwsOnly_scoreAll hstats _ _).bind fun scored => throwsOnly_pure _
  · cases scored with
    | nil =>
      by_cases hany : env.candidateModels.any fun model => (registry.resolve model).isSome
      · simp only [hany, if_true]
        exact throwsOnly_throw (hrouting _ ⟨_, rfl, .inr rfl⟩)
      · simp only [hany, Bool.false_eq_true, if_false]
        exact throwsOnly_throw (hrouting _ ⟨_, rfl, .inl rfl⟩)
    | cons best rest => exact throwsOnly_pure _

theorem throwsOnly_resolveModelWithFallback (h : Answers redis random) (env : Env)
    (preset : RoutingPreset) (abConfig : Option AbConfig) : ThrowsOnly IsRoutingError
      (resolveModelWithFallback toDouble registry redis env random "auto"
        ⟨presetName preset, abConfig⟩) := by
  have hstate : ∀ name, ThrowsOnly IsRoutingError (redis.hgetState name) := fun name =>
    (h.state name).mono fun _ => False.elim
  have hstats : ∀ name, ThrowsOnly IsRoutingError (redis.getProviderStats name) := fun name =>
    (h.stats name).mono fun _ => False.elim
  have hscored : ThrowsOnly IsRoutingError
      (routeScored toDouble registry redis env "auto" (presetName preset)) :=
    throwsOnly_routeScored hstate hstats (fun _ he => he) env "auto" preset
  rw [resolveModelWithFallback, if_neg (by simp)]
  cases abConfig with
  | none => exact hscored
  | some abConfig =>
    refine ThrowsOnly.bind ?_ fun variant => ?_
    · exact throwsOnly_selectAbVariant hstate (h.random.mono fun _ => False.elim) abConfig
    · cases variant with
      | none => exact hscored
      | some v => exact throwsOnly_pure _

end Errors

/-! ## Routing by a preset and by its name -/

/-- A decision of the routing that is typed by the presets. -/
def RouteDecision.named (decision : CloudMesh.RouteDecision) : RouteDecision :=
  match decision.reason with
  | .explicit => ⟨decision.resolved, .explicit, none, none, none⟩
  | .abVariant model normalizedWeight =>
    ⟨decision.resolved, .abVariant, none, some (model, normalizedWeight), none⟩
  | .scored presetUsed candidatesConsidered =>
    ⟨decision.resolved, .scored, some (presetName presetUsed), none, some candidatesConsidered⟩

section Named

variable {σ : Type} {toDouble : ℚ → ℚ} {registry : ModelRegistry}
  {redis : RoutingRedis (StateT σ (Except Thrown))}
  {random : StateT σ (Except Thrown) ℚ}

theorem scoreAll_some (weights : RoutingWeights) (available : List (String × ResolvedModel)) :
    scoreAll toDouble redis (some weights) available =
      CloudMesh.scoreAll toDouble redis weights available := by
  induction available with
  | nil => rfl
  | cons c available ih => simp only [scoreAll, CloudMesh.scoreAll, ih]

theorem scoreCandidates_presetName (candidateModels : List String) (preset : RoutingPreset) :
    scoreCandidates toDouble registry redis candidateModels (presetName preset) =
      CloudMesh.scoreCandidates toDouble registry redis candidateModels preset := by
  simp only [scoreCandidates, CloudMesh.scoreCandidates, presetWeights, presetNamed_presetName,
    pure_bind, scoreAll_some]

theorem routeScored_presetName (env : Env) (modelName : String) (preset : RoutingPreset) :
    routeScored toDouble registry redis env modelName (presetName preset) =
      RouteDecision.named <$>
        CloudMesh.routeScored toDouble registry redis env modelName preset := by
  rw [routeScored, CloudMesh.routeScored, scoreCandidates_presetName, map_bind]
  congr 1
  funext scored
  cases scored with
  | nil =>
    by_cases hany : env.candidateModels.any fun model => (registry.resolve model).isSome
    · simp only [hany, if_true]
      rfl
    · simp only [hany, Bool.false_eq_true, if_false]
      rfl
  | cons best rest => rfl

/-- By the name of a preset, the code routes as the typed routing does. -/
theorem resolveModelWithFallback_presetName (env : Env) (modelName : String)
    (preset : RoutingPreset) (abConfig : Option AbConfig) :
    resolveModelWithFallback toDouble registry redis env random modelName
        ⟨presetName preset, abConfig⟩ =
      RouteDecision.named <$> CloudMesh.resolveModelWithFallback toDouble registry redis env random
        modelName ⟨preset, abConfig⟩ := by
  unfold resolveModelWithFallback CloudMesh.resolveModelWithFallback
  by_cases hauto : modelName ≠ "auto"
  · rw [if_pos hauto, if_pos hauto]
    cases registry.resolve modelName <;> rfl
  · rw [if_neg hauto, if_neg hauto]
    cases abConfig with
    | none => exact routeScored_presetName env modelName preset
    | some abConfig =>
      dsimp only
      rw [map_bind]
      congr 1
      funext variant
      cases variant with
      | none => exact routeScored_presetName env modelName preset
      | some v => rfl

end Named

theorem not_isInherited_presetName (preset : RoutingPreset) :
    ¬IsInherited (presetName preset) := by
  cases preset <;> decide

/-- With a preset that every object inherits, the first candidate that is scored is the end. -/
theorem resolveModelWithFallback_isInherited {name : JsString} (h : IsInherited name)
    {toDouble : ℚ → ℚ} {registry : ModelRegistry} {env : Env}
    {circuits : String → CircuitBreaker.CircuitKey}
    (stats : String → ProviderStats) (random : ℚ)
    (hopen : env.candidateModels.filterMap (openCandidate registry circuits) ≠ []) :
    resolveModelWithFallback toDouble registry (redisAt circuits stats) env (.ok random) "auto"
      ⟨name, none⟩ = .error readingLatency := by
  have hnone : presetNamed name = none := by
    cases hown : presetNamed name with
    | none => rfl
    | some preset =>
      exact absurd (presetName_of_presetNamed hown ▸ h) (not_isInherited_presetName preset)
  rw [resolveModelWithFallback, if_neg (by simp)]
  dsimp only
  rw [routeScored, scoreCandidates, resolveOpenCandidates_redisAt, ok_bind, presetWeights, hnone]
  simp only [if_pos h]
  cases havailable : env.candidateModels.filterMap (openCandidate registry circuits) with
  | nil => exact absurd havailable hopen
  | cons c available => rfl

/-! ## Which stored values the flags are in order for -/

section Holds

variable {today : ℕ} {featureFlags : Option Json}

theorem roundHalfEven_nonneg {x : ℚ} (hx : 0 ≤ x) : 0 ≤ Json.roundHalfEven x := by
  unfold Json.roundHalfEven
  split
  · exact Int.floor_nonneg.mpr hx
  · rw [round_eq]
    exact Int.floor_nonneg.mpr (by linarith)

theorem roundHalfEven_nonpos {x : ℚ} (hx : x ≤ 0) : Json.roundHalfEven x ≤ 0 := by
  unfold Json.roundHalfEven
  split
  · exact Int.floor_nonpos hx
  · rw [round_eq, ← Int.lt_add_one_iff, Int.floor_lt]
    push_cast
    linarith

theorem usableAsInterval_number_iff {x : ℚ} (hx : 0 < x) :
    UsableAsInterval today (.number x) ↔
      Json.roundHalfEven x ≤ min (today : ℤ) (2 ^ 31 - 1) := by
  have hnonneg := roundHalfEven_nonneg hx.le
  unfold UsableAsInterval cutoff makeInterval
  dsimp only
  by_cases hrange : -2 ^ 31 ≤ Json.roundHalfEven x ∧ Json.roundHalfEven x < 2 ^ 31
  · rw [if_pos hrange, Option.bind_some]
    by_cases hday : 0 ≤ (today : ℤ) - Json.roundHalfEven x
    · simp only [if_pos hday, Option.isSome_some, true_iff]
      omega
    · simp only [if_neg hday, Option.isSome_none, Bool.false_eq_true, false_iff]
      omega
  · rw [if_neg hrange, Option.bind_none]
    simp only [Option.isSome_none, Bool.false_eq_true, false_iff]
    omega

theorem coerce_cacheTtlDays : (coerce featureFlags).cacheTtlDays =
    (field featureFlags "cache_ttl_days").filter isPositive := by
  cases featureFlags with
  | none => rfl
  | some value => cases value <;> rfl

theorem coerce_abConfig :
    (coerce featureFlags).abConfig = coerceAbConfig (field featureFlags "ab_config") := by
  cases featureFlags with
  | none => rfl
  | some value => cases value <;> rfl

theorem coerce_routingPreset : (coerce featureFlags).routingPreset =
    match field featureFlags "routing_preset" with
    | some (.string name) =>
      if isRoutingPresetName (some (.string name)) then name else presetName defaultRoutingPreset
    | _ => presetName defaultRoutingPreset := by
  cases featureFlags with
  | none => rfl
  | some value => cases value <;> rfl

/-- A name that every object inherits passes for a preset. -/
theorem routingPreset_of_isInherited {name : JsString}
    (hfield : field featureFlags "routing_preset" = some (.string name)) (h : IsInherited name) :
    (coerce featureFlags).routingPreset = name := by
  rw [coerce_routingPreset, hfield]
  exact if_pos (by simp [isRoutingPresetName, h])

theorem routingPreset_of_not_isInherited
    (h : ∀ name, field featureFlags "routing_preset" = some (.string name) → ¬IsInherited name) :
    ∃ preset, (coerce featureFlags).routingPreset = presetName preset := by
  rw [coerce_routingPreset]
  split
  · rename_i name hname
    cases hown : presetNamed name with
    | some preset =>
      refine ⟨preset, ?_⟩
      rw [presetName_of_presetNamed hown]
      exact if_pos (by simp [isRoutingPresetName, hown])
    | none => exact ⟨_, if_neg (by simp [isRoutingPresetName, hown, h name hname])⟩
  · exact ⟨_, rfl⟩

/-- A stored number is kept if it is positive. -/
theorem mem_cacheTtlDays_iff {days : Json} : days ∈ (coerce featureFlags).cacheTtlDays ↔
    field featureFlags "cache_ttl_days" = some days ∧ isPositive days = true := by
  rw [coerce_cacheTtlDays, Option.mem_def, Option.filter_eq_some_iff]

/-- Infinitely many days are kept, and the copy in Redis has forgotten them. -/
theorem lookupTtlDays_of_infinity (env : Env) (later : Option Json)
    (hdays : field featureFlags "cache_ttl_days" = some (.infinity false))
    (hcache : (coerce featureFlags).semanticCache = true) :
    (decisions env (getOrgFeatureFlags none featureFlags).1).lookupTtlDays =
        some (.infinity false) ∧
      (decisions env (getOrgFeatureFlags (getOrgFeatureFlags none featureFlags).2 later).1
        ).lookupTtlDays = some (.number (env.semanticCacheTtlDays : ℕ)) := by
  have hkept : (coerce featureFlags).cacheTtlDays = some (.infinity false) :=
    mem_cacheTtlDays_iff.mpr ⟨hdays, rfl⟩
  constructor
  · show (decisions env (coerce featureFlags).toObject).lookupTtlDays = _
    simp [decisions, field_semanticCache, field_cacheTtlDays, hcache, hkept, isTruthy, orElse]
  · show (decisions env (coerce featureFlags).stringified).lookupTtlDays = _
    simp [decisions, OrgFeatureFlags.stringified, field_serialized, field_semanticCache,
      field_cacheTtlDays, hcache, hkept, isTruthy, orElse, Json.serialized]

theorem harmless_of_flagsHold (h : FlagsHold today featureFlags) :
    Harmless today featureFlags := by
  refine ⟨fun name hname hinherited => ?_, fun hfield => ?_, fun x hx => ?_⟩
  · obtain ⟨preset, hpreset⟩ := h.preset
    rw [routingPreset_of_isInherited hname hinherited] at hpreset
    exact not_isInherited_presetName preset (hpreset ▸ hinherited)
  · cases h.cacheTtlDays _ (mem_cacheTtlDays_iff.mpr ⟨hfield, rfl⟩)
  · by_cases hpos : 0 < x
    · exact (usableAsInterval_number_iff hpos).mp
        (h.cacheTtlDays _ (mem_cacheTtlDays_iff.mpr ⟨hx, decide_eq_true hpos⟩))
    · have := roundHalfEven_nonpos (not_lt.mp hpos)
      omega

theorem flagsHold_of_harmless (h : Harmless today featureFlags) :
    FlagsHold today featureFlags := by
  obtain ⟨preset, hpreset⟩ := routingPreset_of_not_isInherited h.preset
  have hab : ∀ fields ∈ (coerce featureFlags).abConfig, AbConfigValid fields :=
    fun fields hfields => abConfigValid_of_coerceAbConfig (coerce_abConfig ▸ hfields)
  have hdays : ∀ days ∈ (coerce featureFlags).cacheTtlDays,
      ∃ x, days = .number x ∧ UsableAsInterval today (.number x) := by
    intro days hmem
    obtain ⟨hfield, hpos⟩ := mem_cacheTtlDays_iff.mp hmem
    cases days with
    | number x =>
      exact ⟨x, rfl, (usableAsInterval_number_iff (of_decide_eq_true hpos)).mpr (h.days x hfield)⟩
    | infinity negative =>
      cases negative with
      | true => cases hpos
      | false => exact absurd hfield h.finite
    | _ => cases hpos
  refine ⟨⟨preset, hpreset⟩, hab, fun days hmem => ?_,
    fun σ toDouble env registry redis random hanswers => ?_, fun env later => ?_⟩
  · obtain ⟨x, rfl, husable⟩ := hdays days hmem
    exact husable
  · show ThrowsOnly _ (resolveModelWithFallback _ _ _ _ _ _
      (routingOptions (coerce featureFlags).toObject))
    rw [routingOptions_toObject, hpreset]
    exact throwsOnly_resolveModelWithFallback hanswers env preset _
  · refine decisions_stringified env hab fun days hmem => ?_
    obtain ⟨x, rfl, -⟩ := hdays days hmem
    rfl

end Holds

/-- The flags are in order exactly if the stored value names no inherited property as its preset,
and no days that cannot be counted back from today. -/
theorem flagsHold_iff (today : ℕ) (featureFlags : Option Json) :
    FlagsHold today featureFlags ↔ Harmless today featureFlags :=
  ⟨harmless_of_flagsHold, flagsHold_of_harmless⟩

/-- `toString` is in `ROUTING_PRESETS`, as it is in every object. -/
theorem flagsHold_fails : ¬∀ today featureFlags, FlagsHold today featureFlags := by
  intro h
  let featureFlags : Json := .object [(utf16 "routing_preset", .string (utf16 "toString"))]
  obtain ⟨preset, hpreset⟩ := (h 2451545 featureFlags).preset
  have hname : (coerce featureFlags).routingPreset = utf16 "toString" := by decide
  rw [hname] at hpreset
  cases preset <;> revert hpreset <;> decide

end CloudMesh.FeatureFlags
