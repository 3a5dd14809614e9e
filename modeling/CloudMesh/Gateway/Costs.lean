import CloudMesh.Gateway.ProviderStats
import CloudMesh.Quantize

/-!
# Costs

What `computeCostUsd` and `computeRoutingScore` return for the name of a model. Of a name that every
object has, `PRICING[model]` is not the price of a model but the inherited property, and neither
function returns a number.

## Main definitions

- `IsCostOf` — the cost of a response by the table
- `WellPriced` — a model has a cost and a score
-/

namespace CloudMesh.Costs

open Quantize Stats

/-- The prices of the table; what is not in it is free. -/
def tablePricing (model : String) : ModelPricing := (PRICING.lookup model).getD FREE

/-- Before it is rounded. -/
def exactCost (model : String) (usage : Usage) : ℚ :=
  usage.promptTokens * ((tablePricing model).inputPerMillion / 1000000) +
    usage.completionTokens * ((tablePricing model).outputPerMillion / 1000000)

/-- The tokens of two responses. -/
def total (u v : Usage) : Usage :=
  ⟨u.promptTokens + v.promptTokens, u.completionTokens + v.completionTokens⟩

structure IsCostOf (model : String) (cost : Usage → ℚ) : Prop where
  computed : ∀ usage, computeCostUsd model usage = some (cost usage)
  /-- Not negative, and a multiple of a millionth. -/
  multiple : ∀ usage, ∃ n : ℕ, cost usage = n / 1000000
  near : ∀ usage, |cost usage - exactCost model usage| ≤ 1 / 2 / 1000000
  free : PRICING.lookup model = none → ∀ usage, cost usage = 0
  mono : ∀ u v : Usage, u.promptTokens ≤ v.promptTokens →
    u.completionTokens ≤ v.completionTokens → cost u ≤ cost v
  additive : ∀ u v, |cost (total u v) - cost u - cost v| ≤ 3 / 2 / 1000000

/-- The model has a cost, and a positive score under every preset and all statistics. The numbers
are exact. -/
structure WellPriced (model : String) : Prop where
  cost : ∃ cost, IsCostOf model cost
  score : ∀ (events : List Event) (now : ℤ) (preset : RoutingPreset), ∃ score,
    computeRoutingScore id (getProviderStats now (after events)).1 (getBlendedCostPer1k id model)
      preset.weights = some score ∧ 0 < score

variable {model : String} {usage u v : Usage}

/-! ## Prices -/

theorem getModelPricing_of_notMem (h : model ∉ inheritedProperties) :
    getModelPricing model = some (tablePricing model) := if_neg h

theorem getModelPricing_of_mem (h : model ∈ inheritedProperties) : getModelPricing model = none :=
  if_pos h

theorem tablePricing_nonneg (model : String) : 0 ≤ (tablePricing model).inputPerMillion ∧
    0 ≤ (tablePricing model).outputPerMillion := lookup_PRICING_nonneg model

/-! ## The exact cost -/

theorem exactCost_mono (hprompt : u.promptTokens ≤ v.promptTokens)
    (hcompletion : u.completionTokens ≤ v.completionTokens) :
    exactCost model u ≤ exactCost model v := by
  obtain ⟨hinput, houtput⟩ := tablePricing_nonneg model
  unfold exactCost
  gcongr

theorem exactCost_nonneg (model : String) (usage : Usage) : 0 ≤ exactCost model usage := by
  obtain ⟨hinput, houtput⟩ := tablePricing_nonneg model
  unfold exactCost
  positivity

theorem exactCost_total (model : String) (u v : Usage) :
    exactCost model (total u v) = exactCost model u + exactCost model v := by
  simp only [exactCost, total]
  push_cast
  ring

theorem exactCost_of_lookup_eq_none (h : PRICING.lookup model = none) :
    exactCost model usage = 0 := by
  have hfree : tablePricing model = FREE := by
    rw [tablePricing, h, Option.getD_none]
  rw [exactCost, hfree]
  simp [FREE]

/-! ## The cost -/

/-- The cost is the exact one to the nearest millionth. -/
theorem computeCostUsd_eq (h : model ∉ inheritedProperties) :
    computeCostUsd model usage = some (quantize 1000000 (exactCost model usage)) := by
  have hcost : (usage.promptTokens : ℚ) / 1000000 * (tablePricing model).inputPerMillion +
      (usage.completionTokens : ℚ) / 1000000 * (tablePricing model).outputPerMillion =
      exactCost model usage := by
    rw [exactCost]
    ring
  rw [computeCostUsd, getModelPricing_of_notMem h, Option.map_some]
  dsimp only
  rw [hcost, mathRound, quantize, round_eq]

theorem isCostOf_quantize (h : model ∉ inheritedProperties) :
    IsCostOf model fun usage => quantize 1000000 (exactCost model usage) where
  computed _ := computeCostUsd_eq h
  multiple usage := exists_quantize_eq (by norm_num) (exactCost_nonneg model usage)
  near _ := abs_quantize_sub_le (by norm_num)
  free hlookup usage := by rw [exactCost_of_lookup_eq_none hlookup, quantize_zero]
  mono _ _ hprompt hcompletion := quantize_mono (by norm_num) (exactCost_mono hprompt hcompletion)
  additive u v := by
    rw [exactCost_total]
    exact abs_quantize_add_le (by norm_num)

theorem computeCostUsd_of_mem (h : model ∈ inheritedProperties) :
    computeCostUsd model usage = none := by
  rw [computeCostUsd, getModelPricing_of_mem h, Option.map_none]

/-! ## The score -/

theorem successRate_nonneg (now : ℤ) (set : Option SampleSet) :
    0 ≤ (getProviderStats now set).1.successRate := by
  by_cases hnil : zremrangebyscore (now - statsWindowMs) (entriesOf (alive now set)) = []
  · rw [getProviderStats_of_nil hnil]
  · rw [getProviderStats_of_ne_nil hnil rfl]
    dsimp only
    positivity

theorem weights_pos (preset : RoutingPreset) : 0 < preset.weights.latency ∧
    0 < preset.weights.cost ∧ 0 < preset.weights.reliability := by
  cases preset <;> norm_num [RoutingPreset.weights]

/-- The floors keep the reciprocals finite. -/
theorem computeRoutingScore_pos {stats : ProviderStats} (hrate : 0 ≤ stats.successRate)
    (preset : RoutingPreset) (costPer1kTokens : ℚ) :
    ∃ score, computeRoutingScore id stats (some costPer1kTokens) preset.weights = some score ∧
      0 < score := by
  obtain ⟨hlatency, hcost, hreliability⟩ := weights_pos preset
  refine ⟨_, rfl, ?_⟩
  simp only [id_eq]
  -- neither reciprocal is one of zero, with samples or without
  have hp99 : 0 < if stats.sampleCount > 0 then max stats.p99Ms 1 else 1000 := by
    split
    · exact lt_max_of_lt_right one_pos
    · norm_num
  have hsuccess : 0 ≤ if stats.sampleCount > 0 then stats.successRate else 95 / 100 := by
    split
    · exact hrate
    · norm_num
  have hfloor : 0 < max costPer1kTokens (1 / 1000000) := lt_max_of_lt_right (by norm_num)
  positivity

/-! ## All models -/

/-- Exactly the names that every object has are no models with a price. -/
theorem wellPriced_iff (model : String) : WellPriced model ↔ model ∉ inheritedProperties := by
  constructor
  · rintro ⟨⟨cost, hcost⟩, -⟩ hmem
    have hcomputed := hcost.computed ⟨0, 0⟩
    rw [computeCostUsd_of_mem hmem] at hcomputed
    cases hcomputed
  · intro h
    refine ⟨⟨_, isCostOf_quantize h⟩, fun events now preset => ?_⟩
    rw [getBlendedCostPer1k, getModelPricing_of_notMem h, Option.map_some]
    exact computeRoutingScore_pos (successRate_nonneg now _) preset _

/-- `PRICING["constructor"]` is the function `Object`, which has no prices. -/
theorem wellPriced_fails : computeCostUsd "constructor" ⟨7, 12⟩ = none ∧
    ¬ ∀ model, WellPriced model := by
  have hnan : computeCostUsd "constructor" ⟨7, 12⟩ = none := by decide
  refine ⟨hnan, fun h => ?_⟩
  obtain ⟨cost, hcost⟩ := (h "constructor").cost
  have hcomputed := hcost.computed ⟨7, 12⟩
  rw [hnan] at hcomputed
  cases hcomputed

end CloudMesh.Costs
