import CloudMesh.Gateway.Metering
import CloudMesh.JsonText

/-!
# Usage that is not asked for

OpenAI reports the usage of a streamed completion only if the request sets
`stream_options.include_usage`, and then in one more chunk that has no choice. The adapter does not
set it, so its streamed calls are billed at nothing. A call that is not streamed is answered with
its usage.

## Main definitions

- `OpenAI.chatBody`, `OpenAI.chatStreamBody` — the two requests of the adapter
- `OpenAI.toResponse` — the answer to the first one
- `Conforming` — the chunks that OpenAI sends for a request
- `openai_bills_iff` — when a streamed call is billed what it used
-/

namespace CloudMesh

open Streams

namespace OpenAI

/-! ## The requests -/

/-- An object; a value that is `undefined` is not written. -/
def objectOf (fields : List (String × Option Json)) : Json :=
  .object (fields.filterMap fun field => field.2.map (utf16 field.1, ·))

def messageBody (message : Message) : Json :=
  objectOf [("role", some (.string (utf16 message.role.text))),
    ("content", some (.string (utf16 message.content)))]

/-- The fields of both requests. -/
def commonFields (req : ChatRequest) : List (String × Option Json) :=
  [("model", some (.string (utf16 req.model))),
    ("messages", some (.array (req.messages.map messageBody))),
    ("max_tokens", req.maxTokens.map fun n => .number n),
    ("temperature", req.temperature.map .number)]

/-- The body of the request of `chat`. -/
def chatBody (req : ChatRequest) : Json := objectOf (commonFields req)

/-- The body of the request of `chatStream`. -/
def chatStreamBody (req : ChatRequest) : Json :=
  objectOf (commonFields req ++ [("stream", some (.bool true))])

/-! ## The answers -/

structure CompletionChoice where
  content : String
  finishReason : Option String

structure ChatCompletion where
  id : String
  choices : List CompletionChoice
  usage : Option Usage

/-- What `chat` returns; a response without choices is an error. -/
def toResponse (model : String) (body : ChatCompletion) : Except String ChatResponse :=
  match body.choices with
  | [] => .error "OpenAI response had no choices"
  | choice :: _ => .ok {
      id := body.id
      provider := "openai"
      model := model
      message := ⟨.assistant, choice.content⟩
      finishReason := (choice.finishReason.map mapFinishReason).getD .stop
      usage := ⟨(body.usage.map Usage.promptTokens).getD 0,
        (body.usage.map Usage.completionTokens).getD 0⟩ }

/-- The response of a call that is not streamed has the usage of the completion. -/
theorem usage_of_toResponse {model : String} {body : ChatCompletion} {response : ChatResponse}
    (h : toResponse model body = .ok response) : response.usage = body.usage.getD ⟨0, 0⟩ := by
  unfold toResponse at h
  split at h
  · cases h
  · cases h
    cases body.usage <;> rfl

/-! ## The chunks -/

def field (key : String) : Json → Option Json
  | .object fields => fields.lookup (utf16 key)
  | _ => none

/-- The request sets `stream_options.include_usage`. -/
def includesUsage (request : Json) : Bool :=
  match (field "stream_options" request).bind (field "include_usage") with
  | some (.bool b) => b
  | _ => false

/-- The chunks of an answer: all have a choice, none has a usage, and the last one is finished. -/
structure Answer (chunks : List OpenAIStreamChunk) : Prop where
  choices : ∀ chunk ∈ chunks, chunk.choices ≠ []
  usage : ∀ chunk ∈ chunks, chunk.usage = none
  finished : ∃ chunk choice, chunks.getLast? = some chunk ∧ chunk.choices.head? = some choice ∧
    choice.finishReason.isSome = true

/-- What OpenAI sends for the request: an answer, and then the usage if it is asked for. -/
def Conforming (request : Json) (usage : Usage) (chunks : List OpenAIStreamChunk) : Prop :=
  ∃ answer id, Answer answer ∧
    chunks = answer ++ if includesUsage request then [⟨id, [], some usage⟩] else []

theorem includesUsage_chatStreamBody (req : ChatRequest) :
    includesUsage (chatStreamBody req) = false := by
  have hkeys : ∀ key ∈ ["model", "messages", "max_tokens", "temperature", "stream"],
      utf16 "stream_options" ≠ utf16 key := by decide
  have hnone : field "stream_options" (chatStreamBody req) = none := by
    refine List.lookup_eq_none_iff.mpr fun entry hentry => ?_
    obtain ⟨pair, hpair, hvalue⟩ := List.mem_filterMap.mp hentry
    obtain ⟨v, -, rfl⟩ := Option.map_eq_some_iff.mp hvalue
    refine bne_iff_ne.mpr (hkeys pair.1 ?_)
    simp only [commonFields, List.cons_append, List.nil_append, List.mem_cons,
      List.not_mem_nil, or_false] at hpair
    rcases hpair with rfl | rfl | rfl | rfl | rfl <;> simp
  rw [includesUsage, hnone]
  rfl

end OpenAI

namespace Sse

/-! ## Events on the wire -/

/-- Each payload as an event of its own. -/
def wire (payloads : List String) : List Char :=
  payloads.flatMap fun payload => (writeSSE payload).toList

theorem drain_wire {payloads : List String} (h : ∀ payload ∈ payloads, Bracketed payload) :
    (drain '\n' (wire payloads)).1 =
      payloads.flatMap fun payload => [("data: " ++ payload).toList, []] := by
  induction payloads with
  | nil => rfl
  | cons payload payloads ih =>
    have hnot : '\n' ∉ ("data: " ++ payload).toList := by
      rw [String.toList_append, List.mem_append, not_or]
      exact ⟨by decide, (h payload List.mem_cons_self).oneLine⟩
    have hwire : wire (payload :: payloads) =
        ("data: " ++ payload).toList ++ '\n' :: '\n' :: wire payloads := by
      rw [wire, List.flatMap_cons, writeSSE, String.toList_append, List.append_assoc]
      rfl
    rw [hwire, drain_append_of_notMem hnot, drain_cons_self, drain_cons_self,
      ih fun p hp => h p (List.mem_cons_of_mem _ hp)]
    simp

theorem dataOf_event {payload : String} (h : Bracketed payload) :
    dataOf ("data: " ++ payload).toList = some payload := by
  have hline : ("data: " ++ payload).toList = 'd' :: ("ata: ".toList ++ payload.toList) := by
    rw [String.toList_append]
    rfl
  have htrim : trim ("data: " ++ payload).toList = ("data: " ++ payload).toList := by
    have hends : trim ('d' :: ("ata: ".toList ++ payload.toList) ++ []) =
        'd' :: ("ata: ".toList ++ payload.toList) :=
      h.stripEnds_line isWhiteSpace_bracket (by decide) (List.forall_mem_nil _)
    rwa [List.append_nil, ← hline] at hends
  have hrest : trim (' ' :: payload.toList) = payload.toList :=
    h.stripEnds_payload isWhiteSpace_bracket isWhiteSpace_blank
  have hdrop : ("data: " ++ payload).toList.drop "data:".length = ' ' :: payload.toList := by
    rw [String.toList_append]
    rfl
  rw [dataOf, htrim, if_pos, hdrop, hrest, String.ofList_toList]
  rw [List.isPrefixOf_iff_prefix, String.toList_append]
  exact ⟨' ' :: payload.toList, rfl⟩

theorem filterMap_dataOf {payloads : List String}
    (h : ∀ payload ∈ payloads, Bracketed payload) :
    (payloads.flatMap fun payload => [("data: " ++ payload).toList, []]).filterMap dataOf =
      payloads := by
  induction payloads with
  | nil => rfl
  | cons payload payloads ih =>
    have hempty : dataOf [] = none := rfl
    rw [List.flatMap_cons, List.cons_append, List.cons_append, List.nil_append,
      List.filterMap_cons_some (dataOf_event (h payload List.mem_cons_self)),
      List.filterMap_cons_none hempty, ih fun p hp => h p (List.mem_cons_of_mem _ hp)]

/-- What is written as events is read back, however it is read. -/
theorem parseSSELines_wire {payloads : List String} {reads : List (List UInt8)}
    (hpayloads : ∀ payload ∈ payloads, Bracketed payload)
    (h : reads.flatten = Utf8.encode (wire payloads)) :
    CloudMesh.parseSSELines (decoded ⟨reads, none⟩) = ⟨payloads, none⟩ := by
  have hlines : (decoded ⟨reads, none⟩).lines =
      payloads.flatMap fun payload => [("data: " ++ payload).toList, []] := by
    rw [lines_decoded, terminatedLines_decode, h, ← drain_wire hpayloads]
    cases payloads with
    | nil => rfl
    | cons payload payloads =>
      have hhead : ∃ text, wire (payload :: payloads) = 'd' :: text :=
        ⟨_, by
          rw [wire, List.flatMap_cons, writeSSE, String.toList_append, String.toList_append]
          rfl⟩
      obtain ⟨text, htext⟩ := hhead
      rw [htext, decodeRead, Utf8.TextDecoder.scan_step_encode (by decide)]
  rw [CloudMesh.parseSSELines, hlines, filterMap_dataOf hpayloads]
  rfl

end Sse

namespace Gateway

open OpenAI

/-! ## A streamed call -/

/-- The JSON text of a chunk, with what it stands for. -/
structure ChunkText (json : JsonParse) where
  text : String
  value : OpenAIStreamChunk
  parsed : json.openai text = .ok value
  bracketed : Bracketed text
  ne_done : text ≠ doneSentinel

section Chunks

variable {json : JsonParse} {chunks : List (ChunkText json)} {reads : List (List UInt8)}

/-- The bytes of a streamed response. -/
def streamedBytes (chunks : List (ChunkText json)) : List UInt8 :=
  Utf8.encode (Sse.wire (chunks.map ChunkText.text ++ [doneSentinel]))

/-- What the adapter yields for a chunk: nothing if it has no choice. -/
def chunkOf (model id : String) (chunk : OpenAIStreamChunk) : Option ChatChunk :=
  chunk.choices.head?.map (toChunk model id chunk)

/-- The chunks of a streamed response. -/
theorem chatStream_of_chunks (h : reads.flatten = streamedBytes chunks) (model id : String) :
    (openai json model id).chatStream (Sse.decoded ⟨reads, none⟩) =
      ⟨(chunks.map ChunkText.value).filterMap (chunkOf model id), none⟩ := by
  have hpayloads : ∀ payload ∈ chunks.map ChunkText.text ++ [doneSentinel], Bracketed payload := by
    intro payload hpayload
    rcases List.mem_append.mp hpayload with hmem | hmem
    · obtain ⟨chunk, -, rfl⟩ := List.mem_map.mp hmem
      exact chunk.bracketed
    · obtain rfl := List.mem_singleton.mp hmem
      exact bracketed_doneSentinel
  have hturn : ∀ chunk ∈ chunks, turn json model id () chunk.text =
      .next () (chunkOf model id chunk.value) := by
    intro chunk _
    have hne : chunk.text ≠ "[DONE]" := chunk.ne_done
    rw [turn, if_neg hne, chunk.parsed]
    rfl
  rw [Adapter.chatStream]
  show forAwait (turn json model id) (parseSSELines _).failure () (parseSSELines _).items = _
  rw [Sse.parseSSELines_wire hpayloads h]
  have hdone : forAwait (turn json model id) none () [doneSentinel] = ⟨[], none⟩ := by
    have hret : turn json model id () doneSentinel = .ret none := if_pos rfl
    rw [forAwait, hret]
    rfl
  clear h hpayloads
  induction chunks with
  | nil => exact hdone
  | cons chunk chunks ih =>
    have hrest := ih fun c hc => hturn c (List.mem_cons_of_mem _ hc)
    simp only [List.map_cons, List.cons_append, forAwait, hturn chunk List.mem_cons_self,
      List.filterMap_cons]
    simp only at hrest
    rw [hrest]
    cases chunkOf model id chunk.value <;> rfl

/-- No chunk of an answer reports a usage, and one of them comes. -/
theorem usageOf_answer {answer : List OpenAIStreamChunk} (h : Answer answer) (model id : String) :
    (∃ first rest, answer.filterMap (chunkOf model id) = first :: rest) ∧
      usageOf (answer.filterMap (chunkOf model id)) = ⟨0, 0⟩ := by
  constructor
  · obtain ⟨chunk, choice, hlast, hchoice, -⟩ := h.finished
    refine List.exists_cons_of_ne_nil fun hnil => ?_
    have hnone := List.filterMap_eq_nil_iff.mp hnil chunk (List.mem_of_getLast? hlast)
    simp [chunkOf, hchoice] at hnone
  · have husage : ∀ chunk ∈ answer.filterMap (chunkOf model id), chunk.usage = none := by
      intro chunk hchunk
      obtain ⟨source, hsource, hof⟩ := List.mem_filterMap.mp hchunk
      obtain ⟨choice, -, rfl⟩ := Option.map_eq_some_iff.mp hof
      exact h.usage source hsource
    have hnil : ((answer.filterMap (chunkOf model id)).filter ChatChunk.done).filterMap
        ChatChunk.usage = [] :=
      List.filterMap_eq_nil_iff.mpr fun chunk hchunk => husage chunk (List.mem_filter.mp hchunk).1
    rw [usageOf, hnil]
    rfl

end Chunks

/-- A request that is answered by the stream is billed at the usage of the completion, as a call
that is not streamed is. -/
def BilledAsUsed (deps : Deps) (orgId : OrgId) (input : ChatInput) (r : Routed)
    (stream : Generated String ChatChunk) (completion : ChatCompletion) : Prop :=
  Charges deps orgId input r stream (completion.usage.getD ⟨0, 0⟩) ∧
    ∀ response, toResponse r.resolved.providerModel completion = .ok response →
      response.usage = completion.usage.getD ⟨0, 0⟩

/-- A streamed call of OpenAI is billed at what its completion used if and only if that is
nothing. -/
theorem openai_bills_iff (deps : Deps) (orgId : OrgId) (input : ChatInput) (r : Routed)
    (json : JsonParse) (id : String) (completion : ChatCompletion) (chunks : List (ChunkText json))
    (hconf : Conforming (chatStreamBody (providerReq input r)) (completion.usage.getD ⟨0, 0⟩)
      (chunks.map ChunkText.value))
    (reads : List (List UInt8)) (h : reads.flatten = streamedBytes chunks) :
    BilledAsUsed deps orgId input r
      ((Source.network .openai id (Sse.decoded ⟨reads, none⟩)).chatStream json
        (providerReq input r)) completion ↔ completion.usage.getD ⟨0, 0⟩ = ⟨0, 0⟩ := by
  obtain ⟨answer, extra, hanswer, hchunks⟩ := hconf
  rw [includesUsage_chatStreamBody, if_neg Bool.false_ne_true, List.append_nil] at hchunks
  have hstream : (Source.network .openai id (Sse.decoded ⟨reads, none⟩)).chatStream json
      (providerReq input r) =
      ⟨answer.filterMap (chunkOf (providerReq input r).model id), none⟩ := by
    rw [← hchunks]
    exact chatStream_of_chunks h _ id
  obtain ⟨⟨first, rest, hitems⟩, husage⟩ := usageOf_answer hanswer (providerReq input r).model id
  rw [hitems] at husage
  rw [BilledAsUsed, hstream, hitems, charges_iff, husage]
  exact ⟨fun hbilled => hbilled.1.symm, fun hnothing => ⟨hnothing.symm, fun response =>
    usage_of_toResponse⟩⟩

/-! ### One chunk -/

def chunkText : String :=
  "\x7b\"id\":\"chatcmpl-1\",\"choices\":[\x7b\"delta\":\x7b\"content\":\"Hi\"\x7d," ++
    "\"finish_reason\":\"stop\"\x7d]\x7d"

def chunkValue : OpenAIStreamChunk := ⟨some "chatcmpl-1", [⟨some "Hi", some "stop"⟩], none⟩

/-- `JSON.parse` of this text. -/
def oneText : JsonParse where
  openai payload := if payload = chunkText then .ok chunkValue else .error "Unexpected token"
  anthropic _ := .error "Unexpected token"
  gemini _ := .error "Unexpected token"
  ollama _ := .error "Unexpected token"

def onlyChunkText : ChunkText oneText where
  text := chunkText
  value := chunkValue
  parsed := by decide
  bracketed := ⟨by decide, '\x7b', (chunkText.toList.drop 1).dropLast, '\x7d', by decide,
    by decide, by decide⟩
  ne_done := by decide

def gptRouted : Routed := ⟨⟨⟨"openai"⟩, "gpt-4o-mini"⟩, OrgFeatureFlags.defaults⟩

/-- The stream of the chunk in one read. -/
def chunkStream : Generated String ChatChunk :=
  (Source.network .openai "" (Sse.decoded ⟨[streamedBytes [onlyChunkText]], none⟩)).chatStream
    oneText (providerReq streamed gptRouted)

def completionOf (usage : Usage) : ChatCompletion :=
  ⟨"chatcmpl-1", [⟨"Hi", some "stop"⟩], some usage⟩

theorem conforming_onlyChunkText (usage : Usage) :
    Conforming (chatStreamBody (providerReq streamed gptRouted))
      ((completionOf usage).usage.getD ⟨0, 0⟩) ([onlyChunkText].map ChunkText.value) := by
  refine ⟨[chunkValue], none, ⟨by decide, by decide, chunkValue, _, rfl, rfl, rfl⟩, ?_⟩
  rw [includesUsage_chatStreamBody]
  rfl

/-- A completion that has used nothing. -/
theorem openai_bills_iff_nothing :
    BilledAsUsed plainDeps tenantA streamed gptRouted chunkStream (completionOf ⟨0, 0⟩) :=
  (openai_bills_iff plainDeps tenantA streamed gptRouted oneText "" (completionOf ⟨0, 0⟩)
    [onlyChunkText] (conforming_onlyChunkText _) _ List.flatten_singleton).mpr rfl

/-- A completion that has used 7 tokens and 12 is billed at nothing. -/
theorem openai_bills_fails :
    Conforming (chatStreamBody (providerReq streamed gptRouted))
      ((completionOf ⟨7, 12⟩).usage.getD ⟨0, 0⟩) ([onlyChunkText].map ChunkText.value) ∧
    Charges plainDeps tenantA streamed gptRouted chunkStream ⟨0, 0⟩ ∧
    ¬BilledAsUsed plainDeps tenantA streamed gptRouted chunkStream (completionOf ⟨7, 12⟩) := by
  have hstream : chunkStream = ⟨[OpenAI.toChunk "gpt-4o-mini" "" chunkValue
      ⟨some "Hi", some "stop"⟩], none⟩ :=
    chatStream_of_chunks (show [_].flatten = streamedBytes [onlyChunkText] from
      List.flatten_singleton) _ _
  refine ⟨conforming_onlyChunkText _, ?_, fun h => ?_⟩
  · rw [hstream, charges_iff]
    rfl
  · have hbilled := h.1
    rw [hstream, charges_iff] at hbilled
    exact absurd hbilled (by decide)

end Gateway

end CloudMesh
