import CloudMesh.CircuitBreaker.Scripts
import CloudMesh.Providers
import Mathlib.Data.PNat.Defs

/-!
# The gateway's environment

The variables of `apps/gateway/src/env.ts` that the modelled code reads, as the schema's coercions
and bounds leave them. Durations are in the unit of the variable's name.
-/

namespace CloudMesh

structure Env where
  defaultModel : String
  autoFallbackModels : List String
  enableMockProvider : Bool
  idempotencyTtlSeconds : ℕ+
  circuitFailureThreshold : ℕ+
  circuitFailureWindowMs : ℕ+
  circuitOpenDurationMs : ℕ+
  retryMaxAttempts : ℕ+
  retryBaseDelayMs : ℕ+
  semanticCacheSimilarityThreshold : ℚ
  semanticCacheTtlDays : ℕ+
  dedupLeaderTtlSeconds : ℕ+
  dedupFollowerWaitMs : ℕ+
  billingLockTtlMs : ℕ+
  billingLockRetries : ℕ
  billingLockRetryDelayMs : ℕ+
  budgetConstrainedModel : Option String

namespace Env

/-- The defaults of the schema. -/
def defaults : Env where
  defaultModel := "gpt-4o-mini"
  autoFallbackModels := []
  enableMockProvider := false
  idempotencyTtlSeconds := 86400
  circuitFailureThreshold := 5
  circuitFailureWindowMs := 60000
  circuitOpenDurationMs := 30000
  retryMaxAttempts := 4
  retryBaseDelayMs := 1000
  semanticCacheSimilarityThreshold := 92 / 100
  semanticCacheTtlDays := 7
  dedupLeaderTtlSeconds := 30
  dedupFollowerWaitMs := 10000
  billingLockTtlMs := 5000
  billingLockRetries := 3
  billingLockRetryDelayMs := 50
  budgetConstrainedModel := none

/-- The configuration that every provider's circuit is called with. -/
def circuitConfig (env : Env) : CircuitBreaker.CircuitBreakerConfig :=
  ⟨env.circuitFailureThreshold, env.circuitFailureWindowMs, env.circuitOpenDurationMs⟩

/-- The candidates of `model: "auto"`. -/
def candidateModels (env : Env) : List String := env.defaultModel :: env.autoFallbackModels

def registry (env : Env) : ModelRegistry := buildRegistry env.defaultModel env.enableMockProvider

end Env

end CloudMesh
