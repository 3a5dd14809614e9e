import CloudMesh.Providers
import CloudMesh.Streams.Generators
import CloudMesh.Streams.Lines
import CloudMesh.Text

/-!
# The adapters' streams

`lib/sse.ts` and `chatStream` of the adapters in `providers`. The body of a response is given by the
text of its reads, already decoded, and the error of the last one, if it fails. What `JSON.parse`
makes of a payload is a parameter: a value of the type that the adapter declares, or an error.

## Main definitions

- `parseSSELines`, `parseNDJSONLines` — the payloads of a body
- `Adapter` — what an adapter does with one payload
- `openai`, `anthropic`, `gemini`, `ollama` — the four adapters
- `ProviderStream` — every stream that a provider can yield
-/

namespace CloudMesh

open Streams

/-! ## `sse.ts` -/

structure StreamBody where
  reads : List String
  failure : Option String

def StreamBody.lines (body : StreamBody) : List (List Char) :=
  feed '\n' [] (body.reads.map String.toList)

/-- What follows `data:` on a line. -/
def dataOf (line : List Char) : Option String :=
  if "data:".toList.isPrefixOf (trim line) then
    some (String.ofList (trim ((trim line).drop "data:".length)))
  else none

def parseSSELines (body : StreamBody) : Generated String String :=
  ⟨body.lines.filterMap dataOf, body.failure⟩

def parseNDJSONLines (body : StreamBody) : Generated String String :=
  ⟨body.lines.filterMap fun line =>
    if trim line = [] then none else some (String.ofList (trim line)), body.failure⟩

/-- Reads that end earlier have fewer lines, but no others. -/
theorem StreamBody.lines_prefix {body body' : StreamBody}
    (h : (body.reads.map String.toList).flatten <+: (body'.reads.map String.toList).flatten) :
    body.lines <+: body'.lines := by
  unfold StreamBody.lines
  rw [feed_eq_drain rfl, feed_eq_drain rfl]
  exact drain_prefix h

/-! ## Payloads -/

structure OpenAIChoice where
  content : Option String
  finishReason : Option String
  deriving DecidableEq

structure OpenAIStreamChunk where
  id : Option String
  choices : List OpenAIChoice
  usage : Option Usage
  deriving DecidableEq

structure AnthropicMessageStart where
  id : Option String
  inputTokens : Option ℕ
  deriving DecidableEq

structure AnthropicDelta where
  type : Option String
  text : Option String
  stopReason : Option String
  deriving DecidableEq

structure AnthropicEvent where
  type : String
  message : Option AnthropicMessageStart
  delta : Option AnthropicDelta
  outputTokens : Option ℕ
  deriving DecidableEq

structure GeminiCandidate where
  parts : List (Option String)
  finishReason : Option String
  deriving DecidableEq

structure GeminiUsage where
  promptTokenCount : Option ℕ
  candidatesTokenCount : Option ℕ
  deriving DecidableEq

structure GeminiResponse where
  candidates : List GeminiCandidate
  usageMetadata : Option GeminiUsage
  deriving DecidableEq

structure OllamaChatResponse where
  content : String
  done : Bool
  promptEvalCount : Option ℕ
  evalCount : Option ℕ
  deriving DecidableEq

/-- `JSON.parse(payload) as T`; what is not of the type counts as an error. -/
structure JsonParse where
  openai : String → Except String OpenAIStreamChunk
  anthropic : String → Except String AnthropicEvent
  gemini : String → Except String GeminiResponse
  ollama : String → Except String OllamaChatResponse

/-! ## `chatStream` -/

/-- The loop of an adapter, and of what kind each payload is for it. -/
structure Adapter where
  State : Type
  init : State
  payloads : StreamBody → Generated String String
  turn : State → String → Turn String State ChatChunk
  kind : String → Kind
  turn_isOf : ∀ state payload, (turn state payload).IsOf ChatChunk.done (kind payload)

namespace Adapter

variable (adapter : Adapter) (body : StreamBody)

def chatStream : Generated String ChatChunk :=
  forAwait adapter.turn (adapter.payloads body).failure adapter.init (adapter.payloads body).items

/-- The kinds of the payloads of a body. -/
def kinds : List Kind := (adapter.payloads body).items.map adapter.kind

/-- The body breaks off without an error, after some text and before its final event. -/
def Severed : Prop := Streams.Severed (adapter.kinds body) (adapter.payloads body).failure.isSome

instance : Decidable (adapter.Severed body) :=
  inferInstanceAs (Decidable (Streams.Severed _ _))

theorem severed_iff : adapter.Severed body ↔ (adapter.chatStream body).failure = none ∧
    (adapter.chatStream body).items ≠ [] ∧
      ∀ chunk ∈ (adapter.chatStream body).items, chunk.done = false :=
  (severed_forAwait adapter.turn_isOf _ _).symm

end Adapter

section Adapters

variable (json : JsonParse) (model id : String)

/-! ### OpenAI -/

namespace OpenAI

def mapFinishReason (reason : String) : FinishReason :=
  match reason with
  | "stop" => .stop
  | "length" => .length
  | "content_filter" => .contentFilter
  | _ => .stop

def toChunk (chunk : OpenAIStreamChunk) (choice : OpenAIChoice) : ChatChunk where
  id := chunk.id.getD id
  provider := "openai"
  model := model
  delta := choice.content.getD ""
  done := choice.finishReason.isSome
  finishReason := choice.finishReason.map mapFinishReason
  usage := chunk.usage

def turn (_ : Unit) (payload : String) : Turn String Unit ChatChunk :=
  if payload = "[DONE]" then .ret none
  else
    match json.openai payload with
    | .error err => .throw err
    -- a chunk without choices is skipped, whatever usage it has
    | .ok chunk => .next () (chunk.choices.head?.map (toChunk model id chunk))

/-- A chunk is final if its choice has a reason to finish. -/
def kind (payload : String) : Kind :=
  if payload = "[DONE]" then .closing
  else
    match json.openai payload with
    | .error _ => .broken
    | .ok chunk =>
      match chunk.choices.head? with
      | none => .silent
      | some choice => if choice.finishReason.isSome then .final else .delta

theorem turn_isOf (state : Unit) (payload : String) :
    (turn json model id state payload).IsOf ChatChunk.done (kind json payload) := by
  unfold turn kind
  split
  · exact .closing
  · split
    · exact .broken _
    · rename_i chunk _
      cases hchoice : chunk.choices.head? with
      | none => exact .silent _
      | some choice =>
        simp only [Option.map_some]
        split
        · exact .final _ _ ‹_›
        · exact .delta _ _ (Bool.eq_false_iff.mpr ‹_›)

end OpenAI

def openai : Adapter where
  State := Unit
  init := ()
  payloads := parseSSELines
  turn := OpenAI.turn json model id
  kind := OpenAI.kind json
  turn_isOf := OpenAI.turn_isOf json model id

/-! ### Anthropic -/

namespace Anthropic

def mapFinishReason (reason : Option String) : FinishReason :=
  match reason with
  | some "end_turn" => .stop
  | some "stop_sequence" => .stop
  | some "max_tokens" => .length
  | _ => .stop

/-- What the loop keeps. -/
structure State where
  id : String
  promptTokens : ℕ
  completionTokens : ℕ
  stopReason : Option String

def textOf (event : AnthropicEvent) : Option String :=
  event.delta.bind fun delta =>
    if delta.type = some "text_delta" then delta.text.filter (· ≠ "") else none

def turn (state : State) (payload : String) : Turn String State ChatChunk :=
  match json.anthropic payload with
  | .error err => .throw err
  | .ok event =>
    match event.type with
    | "message_start" => .next { state with
        id := (event.message.bind AnthropicMessageStart.id).getD state.id
        promptTokens := (event.message.bind AnthropicMessageStart.inputTokens).getD 0 } none
    | "content_block_delta" => .next state ((textOf event).map fun text =>
        ⟨state.id, "anthropic", model, text, false, none, none⟩)
    | "message_delta" => .next { state with
        stopReason := (event.delta.bind AnthropicDelta.stopReason).or state.stopReason
        completionTokens := event.outputTokens.getD state.completionTokens } none
    | "message_stop" => .ret (some ⟨state.id, "anthropic", model, "", true,
        some (mapFinishReason state.stopReason), some ⟨state.promptTokens, state.completionTokens⟩⟩)
    | _ => .next state none

/-- `message_stop` is final; an `error` event says nothing. -/
def kind (payload : String) : Kind :=
  match json.anthropic payload with
  | .error _ => .broken
  | .ok event =>
    match event.type with
    | "content_block_delta" => if (textOf event).isSome then .delta else .silent
    | "message_stop" => .final
    | _ => .silent

theorem turn_isOf (state : State) (payload : String) :
    (turn json model state payload).IsOf ChatChunk.done (kind json payload) := by
  unfold turn kind
  split
  · exact .broken _
  · rename_i event _
    split
    · rename_i htype
      simp only [htype]
      cases textOf event with
      | none => exact .silent _
      | some text => exact .delta _ _ rfl
    · rename_i htype
      simp only [htype]
      exact .last _ rfl
    · rename_i hdelta hstop
      split
      · exact .silent _
      · exact absurd ‹_› hdelta
      · exact .silent _
      · exact absurd ‹_› hstop
      · exact .silent _

end Anthropic

def anthropic : Adapter where
  State := Anthropic.State
  init := ⟨"", 0, 0, none⟩
  payloads := parseSSELines
  turn := Anthropic.turn json model
  kind := Anthropic.kind json
  turn_isOf := Anthropic.turn_isOf json model

/-! ### Gemini -/

namespace Gemini

def mapFinishReason (reason : String) : FinishReason :=
  match reason with
  | "STOP" => .stop
  | "MAX_TOKENS" => .length
  | "SAFETY" => .contentFilter
  | "RECITATION" => .contentFilter
  | _ => .stop

/-- An empty reason counts as none. -/
def reasonOf (candidate : GeminiCandidate) : Option String := candidate.finishReason.filter (· ≠ "")

def toChunk (chunk : GeminiResponse) (candidate : GeminiCandidate) : ChatChunk where
  id := id
  provider := "gemini"
  model := model
  delta := String.join (candidate.parts.map fun text => text.getD "")
  done := (reasonOf candidate).isSome
  finishReason := (reasonOf candidate).map mapFinishReason
  usage := (reasonOf candidate).map fun _ =>
    ⟨(chunk.usageMetadata.bind GeminiUsage.promptTokenCount).getD 0,
      (chunk.usageMetadata.bind GeminiUsage.candidatesTokenCount).getD 0⟩

def turn (_ : Unit) (payload : String) : Turn String Unit ChatChunk :=
  match json.gemini payload with
  | .error err => .throw err
  | .ok chunk => .next () (chunk.candidates.head?.map (toChunk model id chunk))

def kind (payload : String) : Kind :=
  match json.gemini payload with
  | .error _ => .broken
  | .ok chunk =>
    match chunk.candidates.head? with
    | none => .silent
    | some candidate => if (reasonOf candidate).isSome then .final else .delta

theorem turn_isOf (state : Unit) (payload : String) :
    (turn json model id state payload).IsOf ChatChunk.done (kind json payload) := by
  unfold turn kind
  split
  · exact .broken _
  · rename_i chunk _
    cases hcandidate : chunk.candidates.head? with
    | none => exact .silent _
    | some candidate =>
      simp only [Option.map_some]
      split
      · exact .final _ _ ‹_›
      · exact .delta _ _ (Bool.eq_false_iff.mpr ‹_›)

end Gemini

def gemini : Adapter where
  State := Unit
  init := ()
  payloads := parseSSELines
  turn := Gemini.turn json model id
  kind := Gemini.kind json
  turn_isOf := Gemini.turn_isOf json model id

/-! ### Ollama -/

namespace Ollama

def toChunk (chunk : OllamaChatResponse) : ChatChunk where
  id := id
  provider := "ollama"
  model := model
  delta := chunk.content
  done := chunk.done
  finishReason := if chunk.done then some .stop else none
  usage := if chunk.done then some ⟨chunk.promptEvalCount.getD 0, chunk.evalCount.getD 0⟩ else none

def turn (_ : Unit) (line : String) : Turn String Unit ChatChunk :=
  match json.ollama line with
  | .error err => .throw err
  | .ok chunk => .next () (some (toChunk model id chunk))

def kind (line : String) : Kind :=
  match json.ollama line with
  | .error _ => .broken
  | .ok chunk => if chunk.done then .final else .delta

theorem turn_isOf (state : Unit) (line : String) :
    (turn json model id state line).IsOf ChatChunk.done (kind json line) := by
  unfold turn kind
  split
  · exact .broken _
  · split
    · exact .final _ _ ‹_›
    · exact .delta _ _ (Bool.eq_false_iff.mpr ‹_›)

end Ollama

def ollama : Adapter where
  State := Unit
  init := ()
  payloads := parseNDJSONLines
  turn := Ollama.turn json model id
  kind := Ollama.kind json
  turn_isOf := Ollama.turn_isOf json model id

/-! ### Mock -/

namespace Mock

def reply (req : ChatRequest) : String :=
  "echo: " ++ ((req.messages.reverse.find? fun m => m.role = .user).map Message.content).getD ""

def words (text : String) : List String := (split ' ' text.toList).map String.ofList

def chatStream (req : ChatRequest) : Generated String ChatChunk where
  items :=
    (words (reply req)).map (fun word => ⟨id, "mock", req.model, word ++ " ", false, none, none⟩) ++
      [⟨id, "mock", req.model, "", true, some .stop,
        some ⟨req.messages.length, (words (reply req)).length⟩⟩]
  failure := none

theorem exists_done (req : ChatRequest) : ∃ chunk ∈ (chatStream id req).items, chunk.done = true :=
  ⟨_, List.mem_append_right _ List.mem_cons_self, rfl⟩

end Mock

end Adapters

/-! ## All streams -/

/-- The providers that are asked over the network. -/
inductive Upstream
  | openai
  | anthropic
  | gemini
  | ollama
  deriving DecidableEq, Repr

def Upstream.adapter (json : JsonParse) (model id : String) : Upstream → Adapter
  | .openai => CloudMesh.openai json model id
  | .anthropic => CloudMesh.anthropic json model
  | .gemini => CloudMesh.gemini json model id
  | .ollama => CloudMesh.ollama json model id

/-- A response that is cut off yields fewer chunks, but no others, however it has been read. -/
theorem chatStream_prefix (json : JsonParse) (model id : String) (provider : Upstream)
    {body body' : StreamBody}
    (h : (body.reads.map String.toList).flatten <+: (body'.reads.map String.toList).flatten) :
    ((provider.adapter json model id).chatStream body).items <+:
      ((provider.adapter json model id).chatStream body').items := by
  have hlines := StreamBody.lines_prefix h
  cases provider with
  | openai | anthropic | gemini | ollama => exact forAwait_prefix _ _ _ _ (hlines.filterMap _)

/-- What a stream is made from; `id` is the id that an adapter draws. -/
inductive Source
  | network (provider : Upstream) (id : String) (body : StreamBody)
  | mock (id : String)

namespace Source

variable (json : JsonParse) (req : ChatRequest)

def chatStream : Source → Generated String ChatChunk
  | .network provider id body => (provider.adapter json req.model id).chatStream body
  | .mock id => Mock.chatStream id req

/-- The body breaks off without an error, after some text and before its final event. -/
def Severed : Source → Prop
  | .network provider id body => (provider.adapter json req.model id).Severed body
  | .mock _ => False

theorem severed_iff (source : Source) : source.Severed json req ↔
    (source.chatStream json req).failure = none ∧ (source.chatStream json req).items ≠ [] ∧
      ∀ chunk ∈ (source.chatStream json req).items, chunk.done = false := by
  cases source with
  | network provider id body => exact Adapter.severed_iff _ body
  | mock id =>
    refine iff_of_false not_false fun h => ?_
    obtain ⟨chunk, hmem, hdone⟩ := Mock.exists_done id req
    exact Bool.false_ne_true ((h.2.2 chunk hmem).symm.trans hdone)

end Source

end CloudMesh
