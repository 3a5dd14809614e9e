import CloudMesh.Gateway.AbSplit

/-!
# The specification of model resolution

`resolveModelWithFallback` of `apps/gateway/src/lib/resolveModel.ts`, for any rules, candidates and
stored circuits, and for any rounding of the numbers that are computed. The head of a stable sort by
descending score is the first candidate with the greatest score; what else is decided is decided by
which names resolve and which circuits are open.

## Main definitions

- `FirstBest` — the first of the greatest
- `Available` — a model that routing may choose
- `MeetsSpecification` — what each request is resolved to
-/

namespace CloudMesh.Resolution

open CircuitBreaker AbSplit

/-! ## The first of the greatest -/

section FirstBest

variable {α K : Type} [LinearOrder K]

/-- The `i`-th element is the first of those with the greatest key. -/
structure FirstBest (key : α → K) (xs : List α) (i : ℕ) (x : α) : Prop where
  get : xs[i]? = some x
  le : ∀ y ∈ xs, key y ≤ key x
  lt : ∀ j < i, ∀ y, xs[j]? = some y → key y < key x

variable {key : α → K} {xs : List α} {i : ℕ} {x y : α}

theorem FirstBest.singleton (x : α) : FirstBest key [x] 0 x where
  get := rfl
  le _ hy := List.mem_singleton.mp hy ▸ le_rfl
  lt j hj := absurd hj (Nat.not_lt_zero j)

/-- An element in front that is as good is the first. -/
theorem FirstBest.cons_of_le (h : FirstBest key xs i x) (hle : key x ≤ key y) :
    FirstBest key (y :: xs) 0 y where
  get := rfl
  le z hz := by
    rcases List.mem_cons.mp hz with rfl | hz
    · exact le_rfl
    · exact (h.le z hz).trans hle
  lt j hj := absurd hj (Nat.not_lt_zero j)

theorem FirstBest.cons_of_lt (h : FirstBest key xs i x) (hlt : key y < key x) :
    FirstBest key (y :: xs) (i + 1) x where
  get := h.get
  le z hz := by
    rcases List.mem_cons.mp hz with rfl | hz
    · exact hlt.le
    · exact h.le z hz
  lt j hj z hz := by
    cases j with
    | zero => exact Option.some.inj hz ▸ hlt
    | succ j => exact h.lt j (Nat.lt_of_succ_lt_succ hj) z hz

theorem FirstBest.of_map {β : Type} {f : β → α} {ys : List β} {key' : β → K}
    (h : FirstBest key (ys.map f) i x) (hkey : ∀ y ∈ ys, key (f y) = key' y) :
    ∃ y, f y = x ∧ FirstBest key' ys i y := by
  have hget := h.get
  rw [List.getElem?_map] at hget
  obtain ⟨y, hy, rfl⟩ := Option.map_eq_some_iff.mp hget
  have hmem := List.mem_of_getElem? hy
  refine ⟨y, rfl, hy, fun z hz => ?_, fun j hj z hz => ?_⟩
  · rw [← hkey z hz, ← hkey y hmem]
    exact h.le _ (List.mem_map_of_mem hz)
  · rw [← hkey z (List.mem_of_getElem? hz), ← hkey y hmem]
    exact h.lt j hj _ (by rw [List.getElem?_map, hz, Option.map_some])

/-- A stable sort by descending keys begins with the first of the greatest. -/
theorem exists_firstBest (r : α → α → Prop) [DecidableRel r]
    (hr : ∀ x ∈ xs, ∀ y ∈ xs, r x y ↔ key y ≤ key x) (hne : xs ≠ []) :
    ∃ i x rest, xs.insertionSort r = x :: rest ∧ FirstBest key xs i x := by
  induction xs with
  | nil => exact absurd rfl hne
  | cons y xs ih =>
    rw [List.insertionSort_cons]
    by_cases hnil : xs = []
    · subst hnil
      exact ⟨0, y, [], rfl, .singleton y⟩
    · obtain ⟨i, x, rest, hsort, hbest⟩ := ih (fun a ha b hb =>
        hr a (List.mem_cons_of_mem _ ha) b (List.mem_cons_of_mem _ hb)) hnil
      have hx : x ∈ xs := List.mem_of_getElem? hbest.get
      have hcompare := hr y List.mem_cons_self x (List.mem_cons_of_mem _ hx)
      rw [hsort]
      by_cases hle : key x ≤ key y
      · rw [List.orderedInsert_cons_of_le r rest (hcompare.mpr hle)]
        exact ⟨0, y, x :: rest, rfl, hbest.cons_of_le hle⟩
      · rw [List.orderedInsert_of_not_le r rest fun hryx => hle (hcompare.mp hryx)]
        exact ⟨i + 1, x, rest.orderedInsert r y, rfl, hbest.cons_of_lt (not_le.mp hle)⟩

end FirstBest

/-! ## The specification -/

section Specification

variable (toDouble : ℚ → ℚ) (registry : ModelRegistry) (circuits : String → CircuitKey)
  (stats : String → ProviderStats) (env : Env) (random : ℚ) (routing : RoutingOptions)

/-- The model resolves, and its circuit is not stored as open. -/
structure Available (model : String) (resolved : ResolvedModel) : Prop where
  resolves : registry.resolve model = some resolved
  closed : (circuits resolved.provider.name).state ≠ .opened

/-- The available candidates, in their order. -/
def candidates : List (String × ResolvedModel) :=
  env.candidateModels.filterMap (openCandidate registry circuits)

def scored (candidate : String × ResolvedModel) : ScoredCandidate :=
  scoreOne toDouble routing.preset.weights candidate (stats candidate.2.provider.name)

def scoreOf (candidate : String × ResolvedModel) : Option ℚ :=
  (scored toDouble stats routing candidate).score

def resolve (modelName : String) : Except Thrown RouteDecision :=
  resolveModelWithFallback toDouble registry (redisAt circuits stats) env (.ok random) modelName
    routing

/-- There is no A/B configuration, or none of its variants is available. -/
def NoVariant : Prop :=
  ∀ abConfig, routing.abConfig = some abConfig → ∀ variant ∈ abConfig, ∀ resolved,
    ¬Available registry circuits variant.1 resolved

/-- What a request is resolved to, for scores that are the numbers of `score`. -/
structure MeetsSpecification (score : String × ResolvedModel → ℚ) : Prop where
  /-- An explicit name is resolved to itself, at the provider of the first rule that matches. -/
  explicit : ∀ modelName ≠ "auto", ∀ rule,
    registry.rules.find? (fun rule => rule.isMatch modelName) = some rule →
      resolve toDouble registry circuits stats env random routing modelName =
        .ok ⟨⟨rule.provider, modelName⟩, .explicit⟩
  rejected : ∀ modelName ≠ "auto", (∀ rule ∈ registry.rules, ¬rule.isMatch modelName) →
    resolve toDouble registry circuits stats env random routing modelName =
      .error (.app (validationError ("Unknown model: " ++ modelName)))
  variant : ∀ abConfig, routing.abConfig = some abConfig → ¬NoVariant registry circuits routing →
    ∃ model resolved share, model ∈ abConfig.map Prod.fst ∧
      Available registry circuits model resolved ∧
      resolve toDouble registry circuits stats env random routing "auto" =
        .ok ⟨resolved, .abVariant model share⟩
  scored : NoVariant registry circuits routing → candidates registry circuits env ≠ [] →
    ∃ i candidate considered,
      FirstBest score (candidates registry circuits env) i candidate ∧
      resolve toDouble registry circuits stats env random routing "auto" =
        .ok ⟨candidate.2, .scored routing.preset considered⟩
  outage_iff : NoVariant registry circuits routing →
    (resolve toDouble registry circuits stats env random routing "auto" =
        .error (.app allProvidersUnavailableError) ↔
      (∃ model ∈ env.candidateModels, ∃ resolved, registry.resolve model = some resolved) ∧
        ∀ model ∈ env.candidateModels, ∀ resolved, registry.resolve model = some resolved →
          (circuits resolved.provider.name).state = .opened)
  unknown_iff : NoVariant registry circuits routing →
    (resolve toDouble registry circuits stats env random routing "auto" =
        .error (.app (validationError ("Unknown model: " ++ "auto"))) ↔
      ∀ model ∈ env.candidateModels, registry.resolve model = none)

end Specification

/-! ## The candidates -/

section Candidates

variable {registry : ModelRegistry} {circuits : String → CircuitKey}
  {stats : String → ProviderStats} {env : Env} {random : ℚ} {routing : RoutingOptions}
  {toDouble : ℚ → ℚ} {score : String × ResolvedModel → ℚ}
  {available : List (String × ResolvedModel)}

theorem openCandidate_iff {model : String} {candidate : String × ResolvedModel} :
    openCandidate registry circuits model = some candidate ↔
      candidate.1 = model ∧ Available registry circuits model candidate.2 :=
  openCandidate_eq_some_iff.trans ⟨fun h => ⟨h.1, h.2.1, h.2.2⟩, fun h => ⟨h.1, h.2.1, h.2.2⟩⟩

theorem candidates_eq_nil_iff : candidates registry circuits env = [] ↔
    ∀ model ∈ env.candidateModels, ∀ resolved, registry.resolve model = some resolved →
      (circuits resolved.provider.name).state = .opened := by
  rw [candidates, List.filterMap_eq_nil_iff]
  constructor
  · intro h model hmodel resolved hresolved
    by_contra hopen
    have hsome : openCandidate registry circuits model = some (model, resolved) :=
      openCandidate_iff.mpr ⟨rfl, hresolved, hopen⟩
    exact Option.some_ne_none _ (hsome.symm.trans (h model hmodel))
  · intro h model hmodel
    rw [Option.eq_none_iff_forall_ne_some]
    intro candidate hcandidate
    obtain ⟨-, havailable⟩ := openCandidate_iff.mp hcandidate
    exact havailable.closed (h model hmodel _ havailable.resolves)

theorem scoreAll_eq (weights : RoutingWeights) (available : List (String × ResolvedModel)) :
    scoreAll toDouble (redisAt circuits stats) weights available =
      .ok (available.map fun c => scoreOne toDouble weights c (stats c.2.provider.name)) := by
  induction available with
  | nil => rfl
  | cons c available ih =>
    simp only [scoreAll, ih]
    rfl

theorem scoreCandidates_eq :
    scoreCandidates toDouble registry (redisAt circuits stats) env.candidateModels routing.preset =
      .ok (((candidates registry circuits env).map (scored toDouble stats routing)).insertionSort
        ScoredCandidate.NotWorse) := by
  rw [scoreCandidates, resolveOpenCandidates_redisAt, ok_bind, scoreAll_eq, ok_bind]
  rfl

/-- The ranking begins with the first candidate of the greatest score. -/
theorem exists_best (hscore : ∀ c ∈ available,
      scoreOf toDouble stats routing c = some (score c)) (hne : available ≠ []) :
    ∃ i candidate rest,
      (available.map (scored toDouble stats routing)).insertionSort ScoredCandidate.NotWorse =
        scored toDouble stats routing candidate :: rest ∧
      FirstBest score available i candidate := by
  have hcompare : ∀ a ∈ available.map (scored toDouble stats routing), ∀ b ∈ available.map
      (scored toDouble stats routing), a.NotWorse b ↔ b.score.getD 0 ≤ a.score.getD 0 := by
    intro a ha b hb
    obtain ⟨c, hc, rfl⟩ := List.mem_map.mp ha
    obtain ⟨d, hd, rfl⟩ := List.mem_map.mp hb
    have hcscore : (scored toDouble stats routing c).score = some (score c) := hscore c hc
    have hdscore : (scored toDouble stats routing d).score = some (score d) := hscore d hd
    simp only [ScoredCandidate.NotWorse, hcscore, hdscore, Option.getD_some]
  -- the sort is stable, so that of equal scores the first one stays ahead
  obtain ⟨i, best, rest, hsort, hbest⟩ :=
    exists_firstBest ScoredCandidate.NotWorse hcompare (List.map_eq_nil_iff.not.mpr hne)
  obtain ⟨candidate, rfl, hfirst⟩ := hbest.of_map fun c hc => by
    show (scoreOf toDouble stats routing c).getD 0 = score c
    rw [hscore c hc, Option.getD_some]
  exact ⟨i, candidate, rest, hsort, hfirst⟩

/-! ### The branches -/

theorem routeScored_of_cons {best : ScoredCandidate} {rest : List ScoredCandidate}
    (h : ((candidates registry circuits env).map (scored toDouble stats routing)).insertionSort
      ScoredCandidate.NotWorse = best :: rest) :
    routeScored toDouble registry (redisAt circuits stats) env "auto" routing.preset =
      .ok ⟨best.resolved, .scored routing.preset
        ((best :: rest).map fun s => (s.model, s.score))⟩ := by
  rw [routeScored, scoreCandidates_eq, ok_bind, h]
  rfl

/-- Without a candidate it matters whether any name resolves. -/
theorem routeScored_of_nil (h : candidates registry circuits env = []) :
    routeScored toDouble registry (redisAt circuits stats) env "auto" routing.preset =
      if env.candidateModels.any fun model => (registry.resolve model).isSome then
        .error (.app allProvidersUnavailableError)
      else .error (.app (validationError ("Unknown model: " ++ "auto"))) := by
  rw [routeScored, scoreCandidates_eq, ok_bind, h]
  rfl

theorem resolve_of_noVariant (h : NoVariant registry circuits routing) :
    resolve toDouble registry circuits stats env random routing "auto" =
      routeScored toDouble registry (redisAt circuits stats) env "auto" routing.preset := by
  rw [resolve, resolveModelWithFallback, if_neg (by simp)]
  cases hab : routing.abConfig with
  | none => rfl
  | some abConfig =>
    have hnil : (abConfig.map Prod.fst).filterMap (openCandidate registry circuits) = [] := by
      rw [List.filterMap_eq_nil_iff]
      intro model hmodel
      obtain ⟨variant, hvariant, rfl⟩ := List.mem_map.mp hmodel
      rw [Option.eq_none_iff_forall_ne_some]
      intro candidate hcandidate
      exact h abConfig hab variant hvariant _ (openCandidate_iff.mp hcandidate).2
    have hnone : selectAbVariant toDouble registry (redisAt circuits stats) abConfig (.ok random) =
        .ok none := by
      rw [selectAbVariant, resolveOpenCandidates_redisAt, ok_bind, hnil]
      rfl
    simp only [hnone, ok_bind]

/-! ### Variants -/

theorem mem_of_rollVariant {abConfig : AbConfig} {roll : ℚ} {c : String × ResolvedModel}
    (h : rollVariant toDouble abConfig roll available = some c) : c ∈ available := by
  induction available generalizing roll with
  | nil => cases h
  | cons first available ih =>
    rw [rollVariant] at h
    split at h
    · exact Option.some.inj h ▸ List.mem_cons_self
    · exact List.mem_cons_of_mem _ (ih h)

/-- Whatever the weights and the random number, an available variant is selected. -/
theorem exists_selected (toDouble : ℚ → ℚ) (stats : String → ProviderStats) (random : ℚ)
    {abConfig : AbConfig}
    (hne : (abConfig.map Prod.fst).filterMap (openCandidate registry circuits) ≠ []) :
    ∃ c ∈ (abConfig.map Prod.fst).filterMap (openCandidate registry circuits), ∃ weight share,
      selectAbVariant toDouble registry (redisAt circuits stats) abConfig (.ok random) =
        .ok (some ⟨c.1, c.2, weight, share⟩) := by
  rw [selectAbVariant, resolveOpenCandidates_redisAt, ok_bind]
  cases hvariants : (abConfig.map Prod.fst).filterMap (openCandidate registry circuits) with
  | nil => exact absurd hvariants hne
  | cons first rest =>
    simp only [ok_bind]
    refine ⟨_, ?_, _, _, rfl⟩
    cases hroll : rollVariant toDouble abConfig (toDouble (random *
        List.foldl (fun (sum : ℚ) (c : String × ResolvedModel) =>
          toDouble (sum + (abConfig.lookup c.1).getD 0)) 0 (first :: rest))) (first :: rest) with
    -- behind the last weight the code takes the last candidate
    | none => exact List.getLast_mem _
    | some c => exact mem_of_rollVariant hroll

theorem variants_ne_nil {abConfig : AbConfig} (hab : routing.abConfig = some abConfig)
    (h : ¬NoVariant registry circuits routing) :
    (abConfig.map Prod.fst).filterMap (openCandidate registry circuits) ≠ [] := by
  intro hnil
  refine h fun other hother variant hvariant resolved havailable => ?_
  obtain rfl := Option.some.inj (hab.symm.trans hother)
  have hnone := List.filterMap_eq_nil_iff.mp hnil variant.1 (List.mem_map_of_mem hvariant)
  have hsome : openCandidate registry circuits variant.1 = some (variant.1, resolved) :=
    openCandidate_iff.mpr ⟨rfl, havailable⟩
  exact Option.some_ne_none _ (hsome.symm.trans hnone)

/-! ### Errors -/

theorem any_resolves_iff :
    (env.candidateModels.any fun model => (registry.resolve model).isSome) = true ↔
      ∃ model ∈ env.candidateModels, ∃ resolved, registry.resolve model = some resolved := by
  rw [List.any_eq_true]
  simp only [Option.isSome_iff_exists]

theorem none_resolves_iff :
    ¬(env.candidateModels.any fun model => (registry.resolve model).isSome) = true ↔
      ∀ model ∈ env.candidateModels, registry.resolve model = none := by
  simp

theorem outage_ne_unknown :
    (.error (.app allProvidersUnavailableError) : Except Thrown RouteDecision) ≠
      .error (.app (validationError ("Unknown model: " ++ "auto"))) := by
  intro h
  simp [allProvidersUnavailableError, validationError] at h

/-- `"auto"` fails in the two ways, and succeeds if there is a candidate. -/
theorem routeScored_cases (hscore : ∀ c ∈ candidates registry circuits env,
      scoreOf toDouble stats routing c = some (score c)) :
    (∃ i candidate considered, FirstBest score (candidates registry circuits env) i candidate ∧
        routeScored toDouble registry (redisAt circuits stats) env "auto" routing.preset =
          .ok ⟨candidate.2, .scored routing.preset considered⟩) ∨
      candidates registry circuits env = [] := by
  by_cases hnil : candidates registry circuits env = []
  · exact .inr hnil
  · obtain ⟨i, candidate, rest, hsort, hbest⟩ := exists_best hscore hnil
    exact .inl ⟨i, candidate, _, hbest, routeScored_of_cons hsort⟩

end Candidates

/-- Every request is resolved as specified. -/
theorem resolveModelWithFallback_meets (toDouble : ℚ → ℚ) (registry : ModelRegistry)
    (circuits : String → CircuitKey) (stats : String → ProviderStats) (env : Env) (random : ℚ)
    (routing : RoutingOptions) (score : String × ResolvedModel → ℚ)
    (hscore : ∀ c ∈ candidates registry circuits env,
      scoreOf toDouble stats routing c = some (score c)) :
    MeetsSpecification toDouble registry circuits stats env random routing score where
  explicit modelName hname rule hrule := by
    have hresolve : registry.resolve modelName = some ⟨rule.provider, modelName⟩ := by
      rw [ModelRegistry.resolve, if_neg hname, hrule, Option.map_some]
    rw [resolve, resolveModelWithFallback, if_pos hname, hresolve]
    rfl
  rejected modelName hname hrules := by
    have hresolve : registry.resolve modelName = none := by
      rw [ModelRegistry.resolve, if_neg hname, List.find?_eq_none.mpr hrules, Option.map_none]
    rw [resolve, resolveModelWithFallback, if_pos hname, hresolve]
    rfl
  variant abConfig hab hvariant := by
    obtain ⟨c, hc, weight, share, hselect⟩ :=
      exists_selected toDouble stats random (variants_ne_nil hab hvariant)
    obtain ⟨model, hmodel, hcandidate⟩ := List.mem_filterMap.mp hc
    obtain ⟨rfl, havailable⟩ := openCandidate_iff.mp hcandidate
    refine ⟨c.1, c.2, share, hmodel, havailable, ?_⟩
    rw [resolve, resolveModelWithFallback, if_neg (by simp), hab]
    simp only [hselect, ok_bind]
    rfl
  scored hno hne := by
    obtain ⟨i, candidate, considered, hbest, hroute⟩ :=
      (routeScored_cases hscore).resolve_right hne
    exact ⟨i, candidate, considered, hbest, (resolve_of_noVariant hno).trans hroute⟩
  outage_iff hno := by
    rw [resolve_of_noVariant hno, ← any_resolves_iff, ← candidates_eq_nil_iff]
    rcases routeScored_cases hscore with ⟨i, candidate, considered, hbest, hroute⟩ | hnil
    · rw [hroute]
      -- with a candidate the request succeeds
      refine iff_of_false (fun h => by cases h) fun h => ?_
      rw [h.2] at hbest
      cases hbest.get
    · rw [routeScored_of_nil hnil, and_iff_left hnil]
      split
      · next hany => exact iff_of_true rfl hany
      · next hany => exact iff_of_false outage_ne_unknown.symm hany
  unknown_iff hno := by
    rw [resolve_of_noVariant hno, ← none_resolves_iff]
    rcases routeScored_cases hscore with ⟨i, candidate, considered, hbest, hroute⟩ | hnil
    · obtain ⟨model, hmodel, hcandidate⟩ :=
        List.mem_filterMap.mp (List.mem_of_getElem? hbest.get)
      have hany := any_resolves_iff.mpr
        ⟨model, hmodel, _, (openCandidate_iff.mp hcandidate).2.resolves⟩
      rw [hroute]
      exact iff_of_false (fun h => by cases h) fun h => h hany
    · rw [routeScored_of_nil hnil]
      split
      · next hany => exact iff_of_false outage_ne_unknown fun h => h hany
      · next hany => exact iff_of_true rfl hany

/-- The double next to a number that is not beyond the largest one. -/
def nearestDouble (x : ℚ) : ℚ :=
  match Json.ofDecimal x with
  | .number y => y
  | _ => 0

/-- Two free models, the first of them a millisecond in a minute slower. -/
def slowStats (provider : String) : ProviderStats :=
  ⟨1, 60000, if provider = "ollama" then 60001 else 60000, 1, 1⟩

/-- Their scores are the same double, and the first one is chosen. -/
theorem resolveModelWithFallback_meets_tie :
    MeetsSpecification nearestDouble (buildRegistry "llama3" true) (fun _ => .missing) slowStats
      { Env.defaults with defaultModel := "llama3", autoFallbackModels := ["mock-small"] } 0
      ⟨.costOptimized, none⟩
      (fun c => (scoreOf nearestDouble slowStats ⟨.costOptimized, none⟩ c).getD 0) :=
  resolveModelWithFallback_meets _ _ _ _ _ _ _ _ (by decide +kernel)

end CloudMesh.Resolution
