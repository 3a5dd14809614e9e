import CloudMesh.Gateway.Events
import CloudMesh.Gateway.Sse
import CloudMesh.Gateway.Streaming

/-!
# What a stream is billed at

The streamed branch of `POST /v1/chat` records the usage that the final chunks of the stream report.
Ollama reports it in its last record, one JSON text on a line; the parser never hands out what
follows the last newline, so a body whose last record is not ended by one loses that record.

## Main definitions

- `usageOf` — the usage that a stream is recorded with
- `Charges` — a request that is answered by the stream records this usage
- `charges_iff` — exactly that of the final chunks
- `OllamaDelivers` — every record of a body becomes a chunk, and the last one is billed
- `ollamaDelivers_iff` — when a body is delivered
-/

namespace CloudMesh.Gateway

open Concurrent Streams

/-! ## The usage of a stream -/

/-- What the final chunks report last. -/
def usageOf (chunks : List ChatChunk) : Usage :=
  (((chunks.filter ChatChunk.done).filterMap ChatChunk.usage).getLast?).getD ⟨0, 0⟩

/-- A request that has been given this stream records no other usage. -/
def Meters (stream : Generated String ChatChunk) (usage : Usage) (t : Transcript sig) (c : Cmd) :
    Prop :=
  StreamedFrom stream t → ∀ params cost, c = .insertUsage params cost → params.usage = usage

/-- A usage record has been written. -/
def UsageWritten (t : Transcript sig) : Prop :=
  ∃ params cost a, (⟨.insertUsage params cost, a⟩ : Exchange sig) ∈ t

/-- If a whole answer has come, its usage has been recorded. -/
def Charged (t : Transcript sig) : Prop := answers t ≠ [] → UsageWritten t

/-- A streamed request that is answered by this stream records this usage. -/
def Charges (deps : Deps) (orgId : OrgId) (input : ChatInput) (r : Routed)
    (stream : Generated String ChatChunk) (usage : Usage) : Prop :=
  (streamChat deps orgId input r).run.Follows (Meters stream usage) (fun _ => Charged) []

section Charges

variable {deps : Deps} {orgId : OrgId} {input : ChatInput} {r : Routed}
  {stream : Generated String ChatChunk} {usage : Usage}

theorem meters_of_ne {t : Transcript sig} {c : Cmd}
    (h : ∀ params cost, c ≠ .insertUsage params cost) : Meters stream usage t c :=
  fun _ params cost heq => absurd heq (h params cost)

theorem meters_of_isRoutine {t : Transcript sig} {c : Cmd} (h : c.isRoutine = true) :
    Meters stream usage t c := by
  refine meters_of_ne fun params cost heq => ?_
  subst heq
  cases h

theorem charged_of_nil {t : Transcript sig} (h : answers t = []) : Charged t :=
  fun hne => absurd h hne

theorem usageWritten_self {params : RecordUsageParams} {cost : Option ℚ}
    {a : sig.Ans (.insertUsage params cost)} {t : Transcript sig} :
    UsageWritten (⟨.insertUsage params cost, a⟩ :: t) :=
  ⟨params, cost, a, List.mem_cons_self⟩

theorem UsageWritten.cons {t : Transcript sig} (h : UsageWritten t) (e : Exchange sig) :
    UsageWritten (e :: t) := by
  obtain ⟨params, cost, a, hmem⟩ := h
  exact ⟨params, cost, a, List.mem_cons_of_mem _ hmem⟩

theorem storeReplay_meters (response : ChatResponse) :
    Handler.Triple (Meters stream usage) UsageWritten (storeReplay deps orgId input response)
      (fun _ => UsageWritten) fun _ => Charged := by
  unfold storeReplay
  split
  · exact .pure fun _ h => h
  · exact command_triple (fun _ _ => meters_of_ne fun _ _ heq => by cases heq)
      (fun _ _ h => h.cons _) fun _ _ h _ => h.cons _

/-- The stream is open, and no answer has come. -/
def Listening (provider : Provider) (req : ChatRequest) (a : Option ChatChunk)
    (t : Transcript sig) : Prop :=
  Opened provider req a t ∧ answers t = []

theorem listening_retried (provider : Provider) (req : ChatRequest) :
    Retried (fun t => answers t = []) (Listening provider req) :=
  ⟨stable_answers (· = []),
    fun _ t c _ h hc => ⟨List.mem_cons_of_mem _ h.1, stable_answers (· = []) t c _ h.2 hc⟩,
    fun _ t c _ h _ hc => stable_answers (· = []) t c _ h.2 hc⟩

theorem listen_triple (name : String) (provider : Provider) (req : ChatRequest) :
    Handler.Triple (Meters stream usage) (fun t => answers t = [])
      (callProviderResilientWithStats deps.env name (command (.streamOpen provider req)))
      (Listening provider req) fun _ t => answers t = [] := by
  refine callProviderResilientWithStats_triple (fun _ _ => meters_of_isRoutine)
    (listening_retried provider req) (command_triple (fun _ _ => ?_) (fun t a h => ?_) ?_) name
  · exact meters_of_ne fun _ _ heq => by cases heq
  · exact ⟨List.mem_cons_self, stable_answers (· = []) t _ _ h rfl⟩
  · exact fun t err h => stable_answers (· = []) t _ _ h rfl

/-- The record of a stream that has been heard has its usage. -/
theorem streamChat_charges (husage : usageOf stream.items = usage) :
    Charges deps orgId input r stream usage := by
  have htriple : Handler.Triple (Meters stream usage) (fun t => answers t = [])
      (streamChat deps orgId input r) (fun _ => Charged) fun _ => Charged := by
    refine Handler.Triple.bind (settle_triple (listen_triple _ _ _)) fun first => ?_
    rcases first with err | _ | first
    · dsimp only
      split
      · exact .throw fun _ h => charged_of_nil h
      · exact .pure fun _ h => charged_of_nil h
    · exact .pure fun _ h => charged_of_nil h.2
    refine Handler.Triple.bind (Q := fun answer t =>
      (answer.2 = none → Heard r.resolved.provider (providerReq input r) first answer.1 t) ∧
        (answer.2 ≠ none → answers t = []))
      (command_triple (fun _ _ => meters_of_ne fun _ _ heq => by cases heq) (fun t answer h => ?_)
        fun t err h => ?_) fun answer => ?_
    · obtain ⟨rest, error⟩ := answer
      refine ⟨fun hend => ?_, fun hend => ?_⟩
      · cases hend
        exact ⟨List.mem_cons_of_mem _ h.1, List.mem_cons_self⟩
      · cases error with
        | none => exact absurd rfl hend
        | some error => exact answers_cons.trans h.2
    · refine charged_of_nil ?_
      rw [answers_cons, answerOf_error]
      exact h.2
    obtain ⟨rest, error⟩ := answer
    cases error with
    | some error => exact .pure fun _ h => charged_of_nil (h.2 (by simp))
    | none =>
      refine Handler.Triple.bind (Q := fun _ => UsageWritten) (command_triple (fun t h => ?_)
        (fun t a _ => usageWritten_self) fun t err _ _ => usageWritten_self) fun _ => ?_
      · intro hfrom params cost heq
        cases heq
        have hstream := (h.1 rfl).stream_eq hfrom
        rw [← husage, hstream]
        rfl
      · exact (storeReplay_meters _).bind fun _ => .pure fun _ h _ => h
  exact (htriple [] rfl).mono (fun _ _ h => h) fun a t h => by cases a <;> exact h

/-- A stream that ends without an error is billed at what its final chunks report, and at nothing
else. -/
theorem charges_iff {first : ChatChunk} {rest : List ChatChunk} :
    Charges deps orgId input r ⟨first :: rest, none⟩ usage ↔ usageOf (first :: rest) = usage := by
  constructor
  · intro h
    obtain ⟨t, hfrom, -, cost, hrule⟩ := exists_record h
    exact hrule hfrom _ _ rfl
  · intro h
    have hitems : usageOf (⟨first :: rest, none⟩ : Generated String ChatChunk).items = usage := h
    exact streamChat_charges hitems

end Charges

/-! ## Ollama's records -/

/-- A JSON text on one line, with what it stands for. -/
structure Record (json : JsonParse) where
  text : String
  value : OllamaChatResponse
  parsed : json.ollama text = .ok value
  bracketed : Bracketed text

variable {json : JsonParse}

/-- The text of a body; `terminated` says whether a newline ends its last record. -/
def ndjson (terminated : Bool) : List (Record json) → List Char
  | [] => []
  | [record] => record.text.toList ++ if terminated then ['\n'] else []
  | record :: record' :: records =>
    record.text.toList ++ '\n' :: ndjson terminated (record' :: records)

/-- Every record is yielded, and a request that is answered by them is billed at the counts of the
last one that is done. -/
structure OllamaDelivers (records : List (Record json)) (body : ByteStream) : Prop where
  chunks : ∀ model id, (ollama json model id).chatStream (Sse.decoded body) =
    ⟨records.map fun record => Ollama.toChunk model id record.value, none⟩
  billed : ∀ deps orgId input r id before last after, records = before ++ last :: after →
    last.value.done = true → (∀ record ∈ after, record.value.done = false) →
    Charges deps orgId input r
      ((Source.network .ollama id (Sse.decoded body)).chatStream json (providerReq input r))
      ⟨last.value.promptEvalCount.getD 0, last.value.evalCount.getD 0⟩

section Records

variable {records : List (Record json)} {terminated : Bool} {reads : List (List UInt8)}

/-- The lines of a body are the texts of its records, without the last one if it is not ended. -/
theorem drain_ndjson (records : List (Record json)) :
    (drain '\n' (ndjson terminated records)).1 =
      (if terminated then records else records.dropLast).map fun record => record.text.toList := by
  induction records using ndjson.induct with
  | case1 => cases terminated <;> rfl
  | case2 record =>
    rw [ndjson, drain_append_of_notMem record.bracketed.oneLine]
    cases terminated <;> simp [drain]
  | case3 record record' records ih =>
    rw [ndjson, drain_append_of_notMem record.bracketed.oneLine, drain_cons_self, ih]
    cases terminated <;> simp

theorem head_ndjson (hne : records ≠ []) : ∃ c text, ndjson terminated records = c :: text ∧
    c ≠ Utf8.TextDecoder.byteOrderMark := by
  have hopen : ∀ x ∈ ['\x7b', '['], x ≠ Utf8.TextDecoder.byteOrderMark := by
    intro x hx
    rcases List.mem_pair.mp hx with rfl | rfl <;> decide
  cases records with
  | nil => exact absurd rfl hne
  | cons record records =>
    obtain ⟨c, mid, d, htext, hc, -⟩ := record.bracketed.brackets
    cases records with
    | nil => exact ⟨c, _, by rw [ndjson, htext]; rfl, hopen c hc⟩
    | cons => exact ⟨c, _, by rw [ndjson, htext]; rfl, hopen c hc⟩

/-- The lines that come out of the reads of a body. -/
theorem lines_of_reads (h : reads.flatten = Utf8.encode (ndjson terminated records)) :
    (Sse.decoded ⟨reads, none⟩).lines =
      (if terminated then records else records.dropLast).map fun record => record.text.toList := by
  rw [Sse.lines_decoded, Sse.terminatedLines_decode, h, ← drain_ndjson]
  by_cases hne : records = []
  · subst hne
    rfl
  · obtain ⟨c, text, htext, hc⟩ : ∃ c text, ndjson terminated records = c :: text ∧
        c ≠ Utf8.TextDecoder.byteOrderMark := head_ndjson hne
    rw [htext, Sse.decodeRead, Utf8.TextDecoder.scan_step_encode hc]

theorem payloads_of_lines (records : List (Record json)) :
    (records.map fun record => record.text.toList).filterMap (fun line =>
      if trim line = [] then none else some (String.ofList (trim line))) =
      records.map Record.text := by
  induction records with
  | nil => rfl
  | cons record records ih =>
    have hne : record.text.toList ≠ [] := by
      obtain ⟨c, mid, d, htext, -⟩ := record.bracketed.brackets
      simp [htext]
    have htrim : trim record.text.toList = record.text.toList :=
      record.bracketed.stripEnds_payload isWhiteSpace_bracket (List.forall_mem_nil _)
    rw [List.map_cons, List.filterMap_cons, htrim, if_neg hne, ih, String.ofList_toList]
    rfl

theorem turn_text (model id : String) (record : Record json) (state : Unit) :
    Ollama.turn json model id state record.text =
      .next state (some (Ollama.toChunk model id record.value)) := by
  rw [Ollama.turn, record.parsed]

/-- The chunks of a body: those of its records, without the last one if it is not ended. -/
theorem chatStream_of_reads (h : reads.flatten = Utf8.encode (ndjson terminated records))
    (model id : String) : (ollama json model id).chatStream (Sse.decoded ⟨reads, none⟩) =
      ⟨(if terminated then records else records.dropLast).map fun record =>
        Ollama.toChunk model id record.value, none⟩ := by
  have hitems : parseNDJSONLines (Sse.decoded ⟨reads, none⟩) =
      ⟨(if terminated then records else records.dropLast).map Record.text, none⟩ := by
    rw [parseNDJSONLines, lines_of_reads h, payloads_of_lines]
    rfl
  generalize (if terminated then records else records.dropLast) = kept at hitems ⊢
  let step (state : Unit) (record : Record json) : Turn String Unit ChatChunk :=
    .next state (some (Ollama.toChunk model id record.value))
  have hnext : ∀ record ∈ kept, step () record =
      .next () (some (Ollama.toChunk model id record.value)) := fun _ _ => rfl
  have hturns := forAwait_of_next step hnext none []
  rw [List.append_nil] at hturns
  rw [Adapter.chatStream]
  show forAwait (Ollama.turn json model id) (parseNDJSONLines _).failure ()
    (parseNDJSONLines _).items = _
  rw [hitems, forAwait_map fun record _ state => turn_text model id record state, hturns]
  simp [forAwait, List.filterMap_eq_map']

/-- The last of the final chunks reports the usage. -/
theorem usageOf_append {before after : List ChatChunk} {last : ChatChunk} {usage : Usage}
    (hdone : last.done = true) (husage : last.usage = some usage)
    (hafter : ∀ chunk ∈ after, chunk.done = false) :
    usageOf (before ++ last :: after) = usage := by
  have hnone : after.filter ChatChunk.done = [] :=
    List.filter_eq_nil_iff.mpr fun chunk hchunk => by simp [hafter chunk hchunk]
  simp [usageOf, hdone, husage, hnone]

theorem delivers_of_all {body : ByteStream}
    (h : ∀ model id, (ollama json model id).chatStream (Sse.decoded body) =
      ⟨records.map fun record => Ollama.toChunk model id record.value, none⟩) :
    OllamaDelivers records body := by
  refine ⟨h, fun deps orgId input r id before last after hrecords hdone hafter => ?_⟩
  refine streamChat_charges ?_
  rw [Source.chatStream, Upstream.adapter, h, hrecords, List.map_append, List.map_cons]
  refine usageOf_append hdone (if_pos hdone) fun chunk hchunk => ?_
  obtain ⟨record, hrecord, rfl⟩ := List.mem_map.mp hchunk
  exact hafter record hrecord

end Records

/-- However it is read, a body is delivered if and only if a newline ends its last record, or it has
none. -/
theorem ollamaDelivers_iff (json : JsonParse) (records : List (Record json)) (terminated : Bool)
    (reads : List (List UInt8)) (h : reads.flatten = Utf8.encode (ndjson terminated records)) :
    OllamaDelivers records ⟨reads, none⟩ ↔ terminated = true ∨ records = [] := by
  constructor
  · intro hdelivers
    have hchunks := (hdelivers.chunks "" "").symm.trans (chatStream_of_reads h "" "")
    cases terminated with
    | true => exact .inl rfl
    | false =>
      have hlength := congrArg (fun stream => stream.items.length) hchunks
      simp only [Bool.false_eq_true, if_false, List.length_map, List.length_dropLast] at hlength
      exact .inr (List.length_eq_zero_iff.mp (by omega))
  · intro hended
    refine delivers_of_all fun model id => ?_
    rw [chatStream_of_reads h]
    rcases hended with rfl | rfl
    · rfl
    · cases terminated <;> rfl

/-! ### An answer of two records -/

def greetingText : String :=
  "\x7b\"message\":\x7b\"role\":\"assistant\",\"content\":\"Hi\"\x7d,\"done\":false\x7d"

def countsText : String :=
  "\x7b\"message\":\x7b\"role\":\"assistant\",\"content\":\"\"\x7d,\"done\":true," ++
    "\"prompt_eval_count\":7,\"eval_count\":12\x7d"

/-- `JSON.parse` of these two texts. -/
def twoTexts : JsonParse where
  openai _ := .error "Unexpected token"
  anthropic _ := .error "Unexpected token"
  gemini _ := .error "Unexpected token"
  ollama payload :=
    if payload = greetingText then .ok ⟨"Hi", false, none, none⟩
    else if payload = countsText then .ok ⟨"", true, some 7, some 12⟩
    else .error "Unexpected token"

def greetingRecord : Record twoTexts where
  text := greetingText
  value := ⟨"Hi", false, none, none⟩
  parsed := by decide
  bracketed := ⟨by decide, '\x7b', (greetingText.toList.drop 1).dropLast, '\x7d', by decide,
    by decide, by decide⟩

def countsRecord : Record twoTexts where
  text := countsText
  value := ⟨"", true, some 7, some 12⟩
  parsed := by decide
  bracketed := ⟨by decide, '\x7b', (countsText.toList.drop 1).dropLast, '\x7d', by decide,
    by decide, by decide⟩

/-- The body of both in one read. -/
def twoRecords (terminated : Bool) : ByteStream :=
  ⟨[Utf8.encode (ndjson terminated [greetingRecord, countsRecord])], none⟩

/-- With a newline at its end it is delivered. -/
theorem ollamaDelivers_iff_terminated :
    OllamaDelivers [greetingRecord, countsRecord] (twoRecords true) :=
  (ollamaDelivers_iff twoTexts [greetingRecord, countsRecord] true _
    (List.flatten_singleton)).mpr (.inl rfl)

/-- Without it the counts are lost, and the answer is billed at nothing. -/
theorem ollamaDelivers_fails :
    ¬OllamaDelivers [greetingRecord, countsRecord] (twoRecords false) ∧
      ∀ deps orgId input r id, Charges deps orgId input r
        ((Source.network .ollama id (Sse.decoded (twoRecords false))).chatStream twoTexts
          (providerReq input r)) ⟨0, 0⟩ := by
  have hchunks : ∀ model id, (ollama twoTexts model id).chatStream
      (Sse.decoded (twoRecords false)) = ⟨[Ollama.toChunk model id greetingRecord.value], none⟩ :=
    chatStream_of_reads List.flatten_singleton
  constructor
  · intro h
    have hlength := congrArg (fun stream => stream.items.length)
      ((h.chunks "" "").symm.trans (hchunks "" ""))
    simp at hlength
  · intro deps orgId input r id
    refine streamChat_charges ?_
    rw [Source.chatStream, Upstream.adapter, hchunks]
    rfl

end CloudMesh.Gateway
