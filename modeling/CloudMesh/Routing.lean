import CloudMesh.CircuitBreaker.HalfOpen
import CloudMesh.Env
import CloudMesh.Pricing
import Mathlib.Data.List.Sort

/-!
# Automatic routing

`apps/gateway/src/lib/routing.ts` and `lib/resolveModel.ts`: which provider answers a request for
`model: "auto"`. Routing reads the stored state of a circuit, which stays `"open"` until an attempt
moves it on, while the gate also looks at the clock; the two agree as long as no circuit that has
cooled down is still stored as open. `toDouble` is the rounding of JavaScript's numbers.

## Main definitions

- `resolveOpenCandidates`, `scoreCandidates`, `selectAbVariant` — the candidates
- `resolveModelWithFallback` — the routing decision
- `RoutingAgrees` — routing and the gate agree at one moment
-/

namespace CloudMesh

open CircuitBreaker

/-- What routing reads from Redis, in the monad of the caller. -/
structure RoutingRedis (m : Type → Type) where
  hgetState : String → m (Option CircuitState)
  getProviderStats : String → m ProviderStats

/-- Weighted model variants, in the order of `Object.keys`. -/
abbrev AbConfig := List (String × ℚ)

structure RoutingOptions where
  preset : RoutingPreset
  abConfig : Option AbConfig

structure ScoredCandidate where
  model : String
  resolved : ResolvedModel
  score : Option ℚ

structure AbSelection where
  model : String
  resolved : ResolvedModel
  weight : ℚ
  normalizedWeight : ℚ

inductive RouteReason
  | explicit
  | abVariant (model : String) (normalizedWeight : ℚ)
  | scored (presetUsed : RoutingPreset) (candidatesConsidered : List (String × Option ℚ))

structure RouteDecision where
  resolved : ResolvedModel
  reason : RouteReason

section Code

variable {m : Type → Type} [Monad m] (toDouble : ℚ → ℚ) (registry : ModelRegistry)
  (redis : RoutingRedis m)

/-- A read-only peek at the stored state. -/
def getCircuitState (name : String) : m CircuitState := do
  let state ← redis.hgetState name
  pure (state.getD .closed)

def resolveOpenCandidates : List String → m (List (String × ResolvedModel))
  | [] => pure []
  | model :: candidateModels =>
    match registry.resolve model with
    | none => resolveOpenCandidates candidateModels
    | some r => do
      let state ← getCircuitState redis r.provider.name
      let resolved ← resolveOpenCandidates candidateModels
      pure (if state ≠ .opened then (model, r) :: resolved else resolved)

def scoreOne (weights : RoutingWeights) (c : String × ResolvedModel) (stats : ProviderStats) :
    ScoredCandidate :=
  ⟨c.1, c.2,
    computeRoutingScore toDouble stats (getBlendedCostPer1k toDouble c.2.providerModel) weights⟩

def scoreAll (weights : RoutingWeights) : List (String × ResolvedModel) → m (List ScoredCandidate)
  | [] => pure []
  | c :: available => do
    let stats ← redis.getProviderStats c.2.provider.name
    let scored ← scoreAll weights available
    pure (scoreOne toDouble weights c stats :: scored)

/-- The comparator of `sort((a, b) => b.score - a.score)`; with `NaN` it calls two candidates
equal. -/
def ScoredCandidate.NotWorse (a b : ScoredCandidate) : Prop :=
  match a.score, b.score with
  | some x, some y => y ≤ x
  | _, _ => True

instance : DecidableRel ScoredCandidate.NotWorse := fun a b =>
  match ha : a.score, hb : b.score with
  | some x, some y => decidable_of_iff (y ≤ x) (by simp [ScoredCandidate.NotWorse, ha, hb])
  | none, _ => isTrue (by simp [ScoredCandidate.NotWorse, ha])
  | some _, none => isTrue (by simp [ScoredCandidate.NotWorse, ha, hb])

def scoreCandidates (candidateModels : List String) (preset : RoutingPreset) :
    m (List ScoredCandidate) := do
  let available ← resolveOpenCandidates registry redis candidateModels
  let scored ← scoreAll toDouble redis preset.weights available
  pure (scored.insertionSort ScoredCandidate.NotWorse)

/-- The variant at which `roll` drops to zero. -/
def rollVariant (abConfig : AbConfig) :
    ℚ → List (String × ResolvedModel) → Option (String × ResolvedModel)
  | _, [] => none
  | roll, (model, resolved) :: available =>
    let roll := toDouble (roll - (abConfig.lookup model).getD 0)
    if roll ≤ 0 then some (model, resolved) else rollVariant abConfig roll available

def selectAbVariant (abConfig : AbConfig) (random : m ℚ) : m (Option AbSelection) := do
  let available ← resolveOpenCandidates registry redis (abConfig.map Prod.fst)
  match available with
  | [] => pure none
  | first :: rest =>
    let weightOf := fun model => (abConfig.lookup model).getD 0
    let totalWeight := available.foldl (fun sum c => toDouble (sum + weightOf c.1)) 0
    let r ← random
    let roll := toDouble (r * totalWeight)
    let (model, resolved) := (rollVariant toDouble abConfig roll available).getD
      ((first :: rest).getLast (List.cons_ne_nil _ _))
    pure (some ⟨model, resolved, weightOf model, toDouble (weightOf model / totalWeight)⟩)

variable [MonadExceptOf Thrown m] (env : Env)

/-- The candidates ranked best-first; an empty ranking is an outage only if some candidate resolves
to a provider. -/
def routeScored (modelName : String) (preset : RoutingPreset) : m RouteDecision := do
  let scored ← scoreCandidates toDouble registry redis env.candidateModels preset
  match scored with
  | [] =>
    if env.candidateModels.any fun model => (registry.resolve model).isSome then
      throw (.app allProvidersUnavailableError)
    else throw (.app (validationError ("Unknown model: " ++ modelName)))
  | best :: _ =>
    pure ⟨best.resolved, .scored preset (scored.map fun s => (s.model, s.score))⟩

def resolveModelWithFallback (random : m ℚ) (modelName : String) (routing : RoutingOptions) :
    m RouteDecision :=
  if modelName ≠ "auto" then
    match registry.resolve modelName with
    | none => throw (.app (validationError ("Unknown model: " ++ modelName)))
    | some resolved => pure ⟨resolved, .explicit⟩
  else
    match routing.abConfig with
    | none => routeScored toDouble registry redis env modelName routing.preset
    | some abConfig => do
      let variant ← selectAbVariant toDouble registry redis abConfig random
      match variant with
      | some v => pure ⟨v.resolved, .abVariant v.model v.normalizedWeight⟩
      | none => routeScored toDouble registry redis env modelName routing.preset

end Code

/-! ## Routing at one moment -/

/-- Redis at one moment. -/
def redisAt (circuits : String → CircuitKey) (stats : String → ProviderStats) :
    RoutingRedis (Except Thrown) where
  hgetState name := .ok (circuits name).hash.state
  getProviderStats name := .ok (stats name)

/-- An `ATTEMPT_SCRIPT` executed at `now` would admit the call. -/
def GateAdmits (config : CircuitBreakerConfig) (now : ℤ) (key : CircuitKey) : Prop :=
  (attemptScript config now now key).1.1 = true

/-- The circuit is stored as open although its cool-down is over. -/
def CooledDown (config : CircuitBreakerConfig) (now : ℤ) (key : CircuitKey) : Prop :=
  key.state = .opened ∧ now - key.openedAt ≥ config.openDurationMs

/-- Routing drops no provider whose gate would admit a call, reports an outage only if every gate
would refuse, and sends the traffic to a cooled-down provider if no other can take it. -/
structure RoutingAgrees (env : Env) (registry : ModelRegistry) (circuits : String → CircuitKey)
    (now : ℤ) : Prop where
  keeps : ∀ stats candidateModels model r, model ∈ candidateModels →
    registry.resolve model = some r → GateAdmits env.circuitConfig now (circuits r.provider.name) →
      ∃ available, resolveOpenCandidates registry (redisAt circuits stats) candidateModels =
        .ok available ∧ (model, r) ∈ available
  outage : ∀ toDouble stats random routing,
    resolveModelWithFallback toDouble registry (redisAt circuits stats) env (.ok random) "auto"
      routing = .error (.app allProvidersUnavailableError) →
    ∀ model ∈ env.candidateModels, ∀ r, registry.resolve model = some r →
      ¬GateAdmits env.circuitConfig now (circuits r.provider.name)
  probed : ∀ toDouble stats random preset, ∀ model ∈ env.candidateModels, ∀ r,
    registry.resolve model = some r →
    CooledDown env.circuitConfig now (circuits r.provider.name) →
    (∀ other ∈ env.candidateModels, ∀ r', registry.resolve other = some r' →
      r'.provider = r.provider ∨ ¬GateAdmits env.circuitConfig now (circuits r'.provider.name)) →
    ∃ decision, resolveModelWithFallback toDouble registry (redisAt circuits stats) env
      (.ok random) "auto" ⟨preset, none⟩ = .ok decision ∧ decision.resolved.provider = r.provider

section Agreement

variable {env : Env} {registry : ModelRegistry} {circuits : String → CircuitKey} {now : ℤ}
  {stats : String → ProviderStats} {toDouble : ℚ → ℚ}

@[simp] theorem ok_bind {ε α β : Type} (a : α) (f : α → Except ε β) :
    ((.ok a : Except ε α) >>= f) = f a := rfl

theorem gateAdmits_of_cooledDown {config : CircuitBreakerConfig} {key : CircuitKey}
    (h : CooledDown config now key) : GateAdmits config now key := by
  simp [GateAdmits, attemptScript, h.1, h.2]

/-- The gate refuses an open circuit unless it has cooled down. -/
theorem cooledDown_of_gateAdmits {config : CircuitBreakerConfig} {key : CircuitKey}
    (h : GateAdmits config now key) (hs : key.state = .opened) : CooledDown config now key := by
  refine ⟨hs, ?_⟩
  by_contra hcool
  simp [GateAdmits, attemptScript, hs, hcool] at h

/-- The candidate for one model name, if it is not dropped. -/
def openCandidate (registry : ModelRegistry) (circuits : String → CircuitKey) (model : String) :
    Option (String × ResolvedModel) :=
  (registry.resolve model).bind fun r =>
    if (circuits r.provider.name).state ≠ .opened then some (model, r) else none

theorem resolveOpenCandidates_redisAt (candidateModels : List String) :
    resolveOpenCandidates registry (redisAt circuits stats) candidateModels =
      .ok (candidateModels.filterMap (openCandidate registry circuits)) := by
  induction candidateModels with
  | nil => rfl
  | cons model candidateModels ih =>
    cases hr : registry.resolve model with
    | none => simp [resolveOpenCandidates, openCandidate, hr, ih]
    | some r =>
      have hstate : getCircuitState (redisAt circuits stats) r.provider.name =
          .ok (circuits r.provider.name).state := rfl
      simp only [resolveOpenCandidates, hr, hstate, ih, openCandidate, List.filterMap_cons,
        Option.bind_some]
      show Except.ok (if (circuits r.provider.name).state ≠ .opened then _ else _) = _
      by_cases hs : (circuits r.provider.name).state = .opened <;> simp [hs, openCandidate]

theorem scoreAll_redisAt (weights : RoutingWeights) (available : List (String × ResolvedModel)) :
    ∃ scored, scoreAll toDouble (redisAt circuits stats) weights available = .ok scored ∧
      scored.length = available.length := by
  induction available with
  | nil => exact ⟨[], rfl, rfl⟩
  | cons c available ih =>
    obtain ⟨scored, h, hlen⟩ := ih
    refine ⟨scoreOne toDouble weights c (stats c.2.provider.name) :: scored, ?_,
      congrArg (· + 1) hlen⟩
    simp only [scoreAll, h]
    rfl

/-- Nothing is ranked only if every candidate was dropped. -/
theorem scoreCandidates_redisAt (candidateModels : List String) (preset : RoutingPreset) :
    ∃ scored, scoreCandidates toDouble registry (redisAt circuits stats) candidateModels preset =
      .ok scored ∧ scored.length =
        (candidateModels.filterMap (openCandidate registry circuits)).length := by
  obtain ⟨scored, h, hlen⟩ := @scoreAll_redisAt circuits stats toDouble preset.weights
    (candidateModels.filterMap (openCandidate registry circuits))
  refine ⟨scored.insertionSort ScoredCandidate.NotWorse, ?_, by simp [hlen]⟩
  rw [scoreCandidates, resolveOpenCandidates_redisAt, ok_bind, h, ok_bind]
  rfl

/-- The ranking reports an outage only if every candidate was dropped. -/
theorem routeScored_redisAt {modelName : String} {preset : RoutingPreset}
    (h : routeScored toDouble registry (redisAt circuits stats) env modelName preset =
      .error (.app allProvidersUnavailableError)) :
    env.candidateModels.filterMap (openCandidate registry circuits) = [] := by
  obtain ⟨scored, hs, hlen⟩ :=
    @scoreCandidates_redisAt registry circuits stats toDouble env.candidateModels preset
  rw [routeScored, hs, ok_bind] at h
  cases scored with
  | nil => exact List.length_eq_zero_iff.mp hlen.symm
  | cons best rest => cases h

theorem selectAbVariant_redisAt (abConfig : AbConfig) (random : ℚ) :
    ∃ variant, selectAbVariant toDouble registry (redisAt circuits stats) abConfig (.ok random) =
      .ok variant := by
  rw [selectAbVariant, resolveOpenCandidates_redisAt, ok_bind]
  cases (abConfig.map Prod.fst).filterMap (openCandidate registry circuits) with
  | nil => exact ⟨none, rfl⟩
  | cons first rest => exact ⟨_, rfl⟩

/-- `"auto"` raises the outage error only if every candidate was dropped. -/
theorem resolveModelWithFallback_redisAt {random : ℚ} {routing : RoutingOptions}
    (h : resolveModelWithFallback toDouble registry (redisAt circuits stats) env (.ok random) "auto"
      routing =
      .error (.app allProvidersUnavailableError)) :
    env.candidateModels.filterMap (openCandidate registry circuits) = [] := by
  rw [resolveModelWithFallback, if_neg (by simp)] at h
  cases hab : routing.abConfig with
  | none =>
    rw [hab] at h
    exact routeScored_redisAt h
  | some abConfig =>
    obtain ⟨variant, hv⟩ :=
      @selectAbVariant_redisAt registry circuits stats toDouble abConfig random
    rw [hab] at h
    simp only [hv, ok_bind] at h
    cases variant with
    | none => exact routeScored_redisAt h
    | some v => cases h

theorem openCandidate_eq_some {model : String} {r : ResolvedModel}
    (hr : registry.resolve model = some r) (hs : (circuits r.provider.name).state ≠ .opened) :
    openCandidate registry circuits model = some (model, r) := by
  simp [openCandidate, hr, hs]

/-- Routing drops a provider that has cooled down, whose gate would admit a call. -/
theorem not_cooledDown_of_routingAgrees (h : RoutingAgrees env registry circuits now)
    {model : String} {r : ResolvedModel} (hr : registry.resolve model = some r) :
    ¬CooledDown env.circuitConfig now (circuits r.provider.name) := by
  intro hcool
  obtain ⟨available, hopen, hmem⟩ := h.keeps (fun _ => ⟨0, 0, 0, 0, 0⟩) [model] model r
    (List.mem_singleton_self _) hr (gateAdmits_of_cooledDown hcool)
  rw [resolveOpenCandidates_redisAt] at hopen
  cases hopen
  simp [openCandidate, hr, hcool.1] at hmem

end Agreement

/-- Routing and the gate agree exactly if no circuit of a provider that some model resolves to is
stored as open although its cool-down is over. -/
theorem routingAgrees_iff (env : Env) (registry : ModelRegistry) (circuits : String → CircuitKey)
    (now : ℤ) : RoutingAgrees env registry circuits now ↔
      ∀ model r, registry.resolve model = some r →
        ¬CooledDown env.circuitConfig now (circuits r.provider.name) := by
  constructor
  · exact fun h model r hr => not_cooledDown_of_routingAgrees h hr
  · intro h
    have hopen : ∀ model r, registry.resolve model = some r →
        GateAdmits env.circuitConfig now (circuits r.provider.name) →
        (circuits r.provider.name).state ≠ .opened :=
      fun model r hr hg hs => h model r hr (cooledDown_of_gateAdmits hg hs)
    refine ⟨fun stats candidateModels model r hmem hr hg => ?_,
      fun toDouble stats random routing herr model hmem r hr hg => ?_,
      fun toDouble stats random preset model hmem r hr hcool => absurd hcool (h model r hr)⟩
    · refine ⟨_, resolveOpenCandidates_redisAt candidateModels, ?_⟩
      exact List.mem_filterMap.mpr ⟨model, hmem, openCandidate_eq_some hr (hopen model r hr hg)⟩
    · have hnone := List.filterMap_eq_nil_iff.mp (resolveModelWithFallback_redisAt herr) model hmem
      rw [openCandidate_eq_some hr (hopen model r hr hg)] at hnone
      cases hnone

/-- Call 0 trips the circuit at 0; at 30000 the gate would let a probe through, and `"auto"`
reports an outage. -/
theorem routingAgrees_fails : ¬∀ env ls c,
    (breaker fun _ => env.circuitConfig).run (.init .empty) ls = some c →
      RoutingAgrees env env.registry c.world.shared.circuits c.world.shared.clock := by
  intro h
  let env : Env := { Env.defaults with circuitFailureThreshold := 1 }
  have hrun : ((breaker fun _ => env.circuitConfig).run (.init .empty)
      (attemptLabels "openai" 0 ++ failLabels 0 ++ [.drift 30000])).map (fun c =>
        ((c.world.shared.circuits "openai").hash.state, (c.world.shared.circuits "openai").openedAt,
          c.world.shared.clock)) = some (some .opened, 0, 30000) := rfl
  obtain ⟨c, hc, hkey⟩ := Option.map_eq_some_iff.mp hrun
  simp only [Prod.mk.injEq] at hkey
  obtain ⟨hs, ho, hclock⟩ := hkey
  have hr : env.registry.resolve "gpt-4o-mini" = some ⟨⟨"openai"⟩, "gpt-4o-mini"⟩ := by decide
  refine not_cooledDown_of_routingAgrees (h env _ c hc) hr ⟨by simp [CircuitKey.state, hs], ?_⟩
  rw [ho, hclock]
  decide

end CloudMesh
