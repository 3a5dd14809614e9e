import Mathlib.Data.Rat.Defs

/-!
# Providers and the model registry

The unified request and response types of `apps/gateway/src/providers/types.ts`, the registry of
`providers/registry.ts` and the rules of `providers/index.ts`. A provider is known by its name;
what it answers is an event of a run.

## Main definitions

- `ChatRequest`, `ChatResponse`, `ChatChunk` — the unified types
- `ModelRegistry.resolve` — the first rule that matches
-/

namespace CloudMesh

inductive Role
  | system
  | user
  | assistant
  deriving DecidableEq, Repr

def Role.text : Role → String
  | .system => "system"
  | .user => "user"
  | .assistant => "assistant"

structure Message where
  role : Role
  content : String
  deriving DecidableEq, Repr

structure ChatRequest where
  model : String
  messages : List Message
  stream : Option Bool
  maxTokens : Option ℕ
  temperature : Option ℚ
  deriving DecidableEq

structure Usage where
  promptTokens : ℕ
  completionTokens : ℕ
  deriving DecidableEq, Repr

inductive FinishReason
  | stop
  | length
  | contentFilter
  | error
  deriving DecidableEq, Repr

structure ChatResponse where
  id : String
  provider : String
  model : String
  message : Message
  finishReason : FinishReason
  usage : Usage
  deriving DecidableEq, Repr

/-- One increment of a streamed response. -/
structure ChatChunk where
  id : String
  provider : String
  model : String
  delta : String
  done : Bool
  finishReason : Option FinishReason
  usage : Option Usage
  deriving DecidableEq, Repr

structure Provider where
  name : String
  deriving DecidableEq, Repr

structure ResolvedModel where
  provider : Provider
  providerModel : String
  deriving DecidableEq, Repr

structure ProviderRule where
  provider : Provider
  isMatch : String → Bool

structure ModelRegistry where
  rules : List ProviderRule
  defaultModel : String

/-- First match wins. -/
def ModelRegistry.resolve (registry : ModelRegistry) (modelName : String) :
    Option ResolvedModel :=
  let target := if modelName = "auto" then registry.defaultModel else modelName
  (registry.rules.find? fun r => r.isMatch target).map fun rule => ⟨rule.provider, target⟩

/-- `String.prototype.startsWith`. -/
def startsWith (s pre : String) : Bool := pre.toList.isPrefixOf s.toList

/-- The registry of `buildRegistry`; Ollama is the catch-all and stays last. -/
def buildRegistry (defaultModel : String) (enableMockProvider : Bool) : ModelRegistry where
  rules :=
    [⟨⟨"openai"⟩, fun m => ["gpt-", "o1", "o3", "o4"].any (startsWith m)⟩,
      ⟨⟨"anthropic"⟩, fun m => startsWith m "claude-"⟩,
      ⟨⟨"gemini"⟩, fun m => startsWith m "gemini-"⟩] ++
    (if enableMockProvider then [⟨⟨"mock"⟩, fun m => startsWith m "mock-"⟩] else []) ++
    [⟨⟨"ollama"⟩, fun _ => true⟩]
  defaultModel := defaultModel

/-- Every model name resolves: the catch-all takes what no prefix claims. -/
theorem isSome_resolve_buildRegistry (defaultModel modelName : String) (mock : Bool) :
    ((buildRegistry defaultModel mock).resolve modelName).isSome := by
  simp [ModelRegistry.resolve, buildRegistry]

end CloudMesh
