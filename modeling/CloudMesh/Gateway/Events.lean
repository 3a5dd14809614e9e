import CloudMesh.Json
import CloudMesh.Providers
import CloudMesh.Streams.Generators
import CloudMesh.Streams.Utf8
import CloudMesh.Text

/-!
# Server-sent events of a chat

What the chat route writes of a provider's stream: every chunk with `writeSSE`, the message of the
error if the stream throws, and `[DONE]` at the end of both. A payload is a JSON text without white
space, so it is one line and begins and ends with a bracket.

## Main definitions

- `stringifyObject` — `JSON.stringify` of an object
- `ChatChunk.stringify` — the payload of a chunk
- `chatEvents` — what the route writes, in order
- `chatWire` — the bytes of the response
-/

namespace CloudMesh

open Streams

/-! ## Payloads -/

/-- An object whose values are JSON texts already. -/
def stringifyObject (fields : List (String × String)) : String :=
  "\x7b" ++ String.intercalate "," (fields.map fun field => quote field.1 ++ ":" ++ field.2) ++
    "\x7d"

def FinishReason.text : FinishReason → String
  | .stop => "stop"
  | .length => "length"
  | .contentFilter => "content_filter"
  | .error => "error"

def Usage.stringify (usage : Usage) : String :=
  stringifyObject [("promptTokens", toString usage.promptTokens),
    ("completionTokens", toString usage.completionTokens)]

/-- Fields that are `undefined` are left out. -/
def ChatChunk.stringify (chunk : ChatChunk) : String :=
  stringifyObject (
    [("id", quote chunk.id), ("provider", quote chunk.provider), ("model", quote chunk.model),
      ("delta", quote chunk.delta), ("done", if chunk.done then "true" else "false")] ++
    chunk.finishReason.toList.map (fun reason => ("finishReason", quote reason.text)) ++
    chunk.usage.toList.map fun usage => ("usage", usage.stringify))

/-- The payload that says what the stream has thrown. -/
def stringifyError (message : String) : String := stringifyObject [("error", quote message)]

/-- The payload at the end of every response. -/
def doneSentinel : String := "[DONE]"

/-! ## The response -/

def writeSSE (payload : String) : String := "data: " ++ payload ++ "\n\n"

inductive ChatEvent
  | chunk (chunk : ChatChunk)
  | error (message : String)
  | done
  deriving DecidableEq, Repr

def ChatEvent.payload : ChatEvent → String
  | .chunk c => c.stringify
  | .error message => stringifyError message
  | .done => doneSentinel

/-- The loop over the chunks, its `catch`, and the end, which is the same for both. -/
def chatEvents (stream : Generated String ChatChunk) : List ChatEvent :=
  stream.items.map .chunk ++ stream.failure.toList.map .error ++ [.done]

/-- The bytes of the response. -/
def chatWire (stream : Generated String ChatChunk) : List UInt8 :=
  Utf8.encode ((chatEvents stream).flatMap fun event => (writeSSE event.payload).toList)

/-! ## The shape of a payload -/

/-- One line in brackets. -/
structure Bracketed (payload : String) : Prop where
  oneLine : '\n' ∉ payload.toList
  brackets : ∃ c mid d, payload.toList = c :: (mid ++ [d]) ∧ c ∈ ['\x7b', '['] ∧ d ∈ ['\x7d', ']']

theorem isWhiteSpace_bracket : ∀ c ∈ ['\x7b', '[', '\x7d', ']'], isWhiteSpace c = false := by
  simp [isWhiteSpace]

theorem isWhiteSpace_blank : ∀ c ∈ [' '], isWhiteSpace c = true := by
  simp [isWhiteSpace]

/-- A payload has nothing to strip but what stands before it. -/
theorem Bracketed.stripEnds_payload {p : Char → Bool} {payload : String} {before : List Char}
    (h : Bracketed payload) (hp : ∀ c ∈ ['\x7b', '[', '\x7d', ']'], p c = false)
    (hbefore : ∀ c ∈ before, p c = true) :
    stripEnds p (before ++ payload.toList) = payload.toList := by
  obtain ⟨c, mid, d, hpayload, hc, hd⟩ := h.brackets
  have hopen : ['\x7b', '['] ⊆ ['\x7b', '[', '\x7d', ']'] := by simp
  have hclose : ['\x7d', ']'] ⊆ ['\x7b', '[', '\x7d', ']'] := by simp
  have hself : stripEnds p payload.toList = payload.toList := by
    rw [hpayload]
    exact stripEnds_cons_concat (hp c (hopen hc)) (hp d (hclose hd)) mid
  have hends := stripEnds_append hbefore (List.forall_mem_nil _) hself
  rwa [List.append_nil] at hends

/-- A line that ends with a payload has nothing to strip but what follows it. -/
theorem Bracketed.stripEnds_line {p : Char → Bool} {payload : String} {start : Char}
    {front after : List Char} (h : Bracketed payload)
    (hp : ∀ c ∈ ['\x7b', '[', '\x7d', ']'], p c = false) (hstart : p start = false)
    (hafter : ∀ c ∈ after, p c = true) :
    stripEnds p (start :: (front ++ payload.toList) ++ after) =
      start :: (front ++ payload.toList) := by
  obtain ⟨c, mid, d, hpayload, -, hd⟩ := h.brackets
  have hclose : ['\x7d', ']'] ⊆ ['\x7b', '[', '\x7d', ']'] := by simp
  have hself : stripEnds p (start :: (front ++ payload.toList)) =
      start :: (front ++ payload.toList) := by
    have hconcat : front ++ payload.toList = front ++ c :: mid ++ [d] := by
      rw [hpayload, List.append_assoc, List.cons_append]
    rw [hconcat]
    exact stripEnds_cons_concat hstart (hp d (hclose hd)) (front ++ c :: mid)
  exact stripEnds_append (List.forall_mem_nil _) hafter hself

theorem newline_notMem_escape (c : Char) : '\n' ∉ escape c := by
  have hdigit : ∀ n < 16, hexDigit n ≠ '\n' := by decide
  unfold escape
  split_ifs with h1 h2 h3 h4 h5 h6 h7 h8
  all_goals try decide
  · have hhi : hexDigit (c.toNat / 16) ≠ '\n' := hdigit _ (by omega)
    have hlo : hexDigit (c.toNat % 16) ≠ '\n' := hdigit _ (by omega)
    simp [hhi.symm, hlo.symm]
  · simpa using Ne.symm h5

theorem newline_notMem_quote (s : String) : '\n' ∉ (quote s).toList := by
  have hescaped : '\n' ∉ s.toList.flatMap escape := by
    rw [List.mem_flatMap]
    rintro ⟨c, -, hc⟩
    exact newline_notMem_escape c hc
  simp [quote, hescaped]

theorem newline_notMem_toString (n : ℕ) : '\n' ∉ (toString n).toList := by
  intro h
  have hdigit : ('\n').isDigit :=
    Nat.isDigit_of_mem_toDigits (b := 10) (n := n) (by decide) (by decide) (by simpa using h)
  exact absurd hdigit (by decide)

theorem newline_notMem_intercalate {parts : List String} (h : ∀ part ∈ parts, '\n' ∉ part.toList) :
    '\n' ∉ (String.intercalate "," parts).toList := by
  induction parts with
  | nil => simp
  | cons part parts ih =>
    have hpart : '\n' ∉ part.toList := h part List.mem_cons_self
    have hparts := ih fun other hother => h other (List.mem_cons_of_mem _ hother)
    cases parts with
    | nil => simpa using hpart
    | cons next parts =>
      rw [String.intercalate_cons_cons, String.toList_append, String.toList_append]
      simp only [List.mem_append, not_or]
      exact ⟨⟨hpart, by decide⟩, hparts⟩

theorem bracketed_stringifyObject {fields : List (String × String)}
    (h : ∀ field ∈ fields, '\n' ∉ field.2.toList) : Bracketed (stringifyObject fields) where
  oneLine := by
    have hfields : '\n' ∉ (String.intercalate ","
        (fields.map fun field => quote field.1 ++ ":" ++ field.2)).toList := by
      apply newline_notMem_intercalate
      intro part hpart
      obtain ⟨field, hfield, rfl⟩ := List.mem_map.mp hpart
      simp [newline_notMem_quote field.1, h field hfield]
    simp only [stringifyObject, String.toList_append, List.mem_append, not_or]
    exact ⟨⟨by decide, hfields⟩, by decide⟩
  brackets := ⟨'\x7b', _, '\x7d', by
    simp only [stringifyObject, String.toList_append, List.append_assoc]
    rfl, by decide, by decide⟩

theorem newline_notMem_usage (usage : Usage) : '\n' ∉ usage.stringify.toList := by
  apply (bracketed_stringifyObject _).oneLine
  simp only [List.mem_cons, List.not_mem_nil, or_false, forall_eq_or_imp, forall_eq]
  exact ⟨newline_notMem_toString _, newline_notMem_toString _⟩

theorem bracketed_stringify (chunk : ChatChunk) : Bracketed chunk.stringify := by
  apply bracketed_stringifyObject
  intro field hfield
  rw [List.mem_append, List.mem_append] at hfield
  rcases hfield with (hfield | hfield) | hfield
  · have hdone : '\n' ∉ (if chunk.done then "true" else "false").toList := by
      split <;> decide
    simp only [List.mem_cons, List.not_mem_nil, or_false] at hfield
    rcases hfield with rfl | rfl | rfl | rfl | rfl
    · exact newline_notMem_quote chunk.id
    · exact newline_notMem_quote chunk.provider
    · exact newline_notMem_quote chunk.model
    · exact newline_notMem_quote chunk.delta
    · exact hdone
  · obtain ⟨reason, -, rfl⟩ := List.mem_map.mp hfield
    exact newline_notMem_quote reason.text
  · obtain ⟨usage, -, rfl⟩ := List.mem_map.mp hfield
    exact newline_notMem_usage usage

theorem bracketed_stringifyError (message : String) : Bracketed (stringifyError message) := by
  apply bracketed_stringifyObject
  simpa using newline_notMem_quote message

theorem bracketed_doneSentinel : Bracketed doneSentinel :=
  ⟨by decide, '[', "DONE".toList, ']', by decide, by decide, by decide⟩

theorem ChatEvent.bracketed (event : ChatEvent) : Bracketed event.payload := by
  cases event with
  | chunk c => exact bracketed_stringify c
  | error message => exact bracketed_stringifyError message
  | done => exact bracketed_doneSentinel

end CloudMesh
