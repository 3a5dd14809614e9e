import CloudMesh.Providers
import Mathlib.Data.Rat.Floor
import Mathlib.Algebra.Order.Field.Rat

/-!
# Prices and routing scores

`apps/gateway/src/lib/pricing.ts` over the rationals, and `lib/routingScoring.ts` for any rounding
of the numbers that it writes and computes. A price that is looked up under a name that every
JavaScript object inherits is neither in the table nor `undefined`: its fields are missing, and
every number computed from it is `NaN`, which is `none` here.

## Main definitions

- `getModelPricing`, `computeCostUsd` — what a response costs
- `computeRoutingScore` — what candidates are compared by
-/

namespace CloudMesh

structure ModelPricing where
  inputPerMillion : ℚ
  outputPerMillion : ℚ
  deriving DecidableEq

def PRICING : List (String × ModelPricing) :=
  [("gpt-4o", ⟨5, 15⟩), ("gpt-4o-mini", ⟨15 / 100, 6 / 10⟩),
    ("claude-3-5-sonnet-20241022", ⟨3, 15⟩), ("claude-3-5-haiku-20241022", ⟨8 / 10, 4⟩),
    ("gemini-1.5-pro", ⟨125 / 100, 5⟩), ("gemini-1.5-flash", ⟨75 / 1000, 3 / 10⟩)]

def FREE : ModelPricing := ⟨0, 0⟩

/-- The properties of `Object.prototype`. -/
def inheritedProperties : List String :=
  ["constructor", "__defineGetter__", "__defineSetter__", "hasOwnProperty", "__lookupGetter__",
    "__lookupSetter__", "isPrototypeOf", "propertyIsEnumerable", "toString", "valueOf",
    "__proto__", "toLocaleString"]

/-- `PRICING[model] ?? FREE`. -/
def getModelPricing (model : String) : Option ModelPricing :=
  if model ∈ inheritedProperties then none else some ((PRICING.lookup model).getD FREE)

/-- `Math.round`, which rounds halves up. -/
def mathRound (x : ℚ) : ℤ := ⌊x + 1 / 2⌋

def getBlendedCostPer1k (toDouble : ℚ → ℚ) (model : String) : Option ℚ :=
  (getModelPricing model).map fun pricing =>
    let sum := toDouble (toDouble pricing.inputPerMillion + toDouble pricing.outputPerMillion)
    toDouble (toDouble (sum / 2) / 1000)

def computeCostUsd (model : String) (usage : Usage) : Option ℚ :=
  (getModelPricing model).map fun pricing =>
    let cost : ℚ := (usage.promptTokens : ℚ) / 1000000 * pricing.inputPerMillion +
      (usage.completionTokens : ℚ) / 1000000 * pricing.outputPerMillion
    (mathRound (cost * 1000000) : ℚ) / 1000000

/-- No price is negative. -/
theorem lookup_PRICING_nonneg (model : String) :
    0 ≤ ((PRICING.lookup model).getD FREE).inputPerMillion ∧
      0 ≤ ((PRICING.lookup model).getD FREE).outputPerMillion := by
  have hprices : ∀ entry ∈ PRICING,
      0 ≤ entry.2.inputPerMillion ∧ 0 ≤ entry.2.outputPerMillion := by decide +kernel
  cases hlookup : PRICING.lookup model with
  | none => exact ⟨le_rfl, le_rfl⟩
  | some found =>
    obtain ⟨before, later, heq, -⟩ := List.lookup_eq_some_iff.mp hlookup
    exact hprices (model, found) (heq ▸ List.mem_append_right _ List.mem_cons_self)

theorem getModelPricing_nonneg {model : String} {pricing : ModelPricing}
    (h : getModelPricing model = some pricing) :
    0 ≤ pricing.inputPerMillion ∧ 0 ≤ pricing.outputPerMillion := by
  unfold getModelPricing at h
  split at h
  · cases h
  · cases h
    exact lookup_PRICING_nonneg model

theorem mathRound_nonneg {x : ℚ} (hx : 0 ≤ x) : 0 ≤ mathRound x :=
  Int.floor_nonneg.mpr (add_nonneg hx (by decide +kernel))

/-! ## Scores -/

structure ProviderStats where
  sampleCount : ℕ
  p50Ms : ℚ
  p99Ms : ℚ
  successRate : ℚ
  rpmCurrent : ℕ
  deriving DecidableEq

structure RoutingWeights where
  latency : ℚ
  cost : ℚ
  reliability : ℚ

inductive RoutingPreset
  | costOptimized
  | latencyOptimized
  | balanced
  deriving DecidableEq, Repr

/-- `ROUTING_PRESETS`. -/
def RoutingPreset.weights : RoutingPreset → RoutingWeights
  | .costOptimized => ⟨2 / 10, 6 / 10, 2 / 10⟩
  | .latencyOptimized => ⟨6 / 10, 1 / 10, 3 / 10⟩
  | .balanced => ⟨3 / 10, 4 / 10, 3 / 10⟩

def defaultRoutingPreset : RoutingPreset := .costOptimized

/-- `score = (1/p99)*latency + (1/cost)*cost + successRate*reliability`; what has no sample yet is
scored as an average performer. -/
def computeRoutingScore (toDouble : ℚ → ℚ) (stats : ProviderStats) (costPer1kTokens : Option ℚ)
    (weights : RoutingWeights) : Option ℚ :=
  let p99Ms := if stats.sampleCount > 0 then max stats.p99Ms 1 else 1000
  let successRate := if stats.sampleCount > 0 then stats.successRate else toDouble (95 / 100)
  costPer1kTokens.map fun costPer1kTokens =>
    let cost := max costPer1kTokens (toDouble (1 / 1000000))
    let latency := toDouble (toDouble (1 / p99Ms) * toDouble weights.latency)
    let price := toDouble (toDouble (1 / cost) * toDouble weights.cost)
    toDouble (toDouble (latency + price) +
      toDouble (successRate * toDouble weights.reliability))

end CloudMesh
