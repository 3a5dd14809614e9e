import CloudMesh.Gateway.Adapters
import CloudMesh.Gateway.Requests

/-!
# Streams that break off

The streamed branch of `POST /v1/chat` takes the end of a stream for the end of the answer: a stream
that has failed is one whose iterator throws. An adapter ends its stream with that of the body,
whether or not the provider has sent its final event, so a body that breaks off without an error is
recorded as a whole answer.

## Main definitions

- `StreamedFrom` — what the provider has answered is such a stream
- `Finished` — a final chunk has come, and the iterator has not thrown
- `booked_finished_iff` — when only whole answers are recorded
-/

namespace CloudMesh.Gateway

open Concurrent Streams

/-- The command writes a usage record or stores a result for replays. -/
def Cmd.books : Cmd → Bool
  | .insertUsage .. | .redisSet _ (.record _) _ => true
  | _ => false

/-- What the provider answers is this stream, if it answers. -/
def isFrom (stream : Generated String ChatChunk) : Exchange sig → Bool
  | ⟨.streamOpen .., .ok first⟩ =>
    first = stream.items.head? ∧ (first = none → stream.failure = none)
  | ⟨.streamRest .., .ok rest⟩ => rest = (stream.items.tail, stream.failure)
  | _ => true

/-- Every attempt that opens a stream opens this one. -/
def StreamedFrom (stream : Generated String ChatChunk) (t : Transcript sig) : Prop :=
  ∀ e ∈ t, isFrom stream e = true

/-- The iterator has ended without an error, and a final chunk has come. -/
def finishes : Exchange sig → Bool
  | ⟨.streamRest _ _ first, .ok (rest, none)⟩ => (first :: rest).any ChatChunk.done
  | _ => false

def Finished (t : Transcript sig) : Prop := ∃ e ∈ t, finishes e = true

instance (stream : Generated String ChatChunk) (t : Transcript sig) :
    Decidable (StreamedFrom stream t) :=
  inferInstanceAs (Decidable (∀ e ∈ t, _))

instance (t : Transcript sig) : Decidable (Finished t) :=
  inferInstanceAs (Decidable (∃ e ∈ t, _))

/-- Only whole answers are booked. -/
def BooksFinished (stream : Generated String ChatChunk) (t : Transcript sig) (c : Cmd) : Prop :=
  StreamedFrom stream t → c.books = true → Finished t

section Streaming

variable {stream : Generated String ChatChunk} {t : Transcript sig} {c : Cmd}

theorem booksFinished_of_isRoutine (h : c.isRoutine = true) : BooksFinished stream t c := by
  intro _ hbooks
  unfold Cmd.books at hbooks
  split at hbooks
  · cases h
  · cases h
  · cases hbooks

theorem booksFinished_of_not_books (h : c.books = false) : BooksFinished stream t c :=
  fun _ hbooks => absurd (hbooks.symm.trans h) (by simp)

section Forward

variable {deps : Deps} {orgId : OrgId} {input : ChatInput} {r : Routed}

/-- A call of the provider has been answered with `a`. -/
def Opened (provider : Provider) (req : ChatRequest) (a : Option ChatChunk) (t : Transcript sig) :
    Prop :=
  (⟨.streamOpen provider req, .ok a⟩ : Exchange sig) ∈ t

theorem opened_retried (provider : Provider) (req : ChatRequest) :
    Retried (fun _ => True) (Opened provider req) :=
  ⟨fun _ _ _ _ _ => trivial, fun _ _ _ _ h _ => List.mem_cons_of_mem _ h,
    fun _ _ _ _ _ _ _ => trivial⟩

theorem openStream_triple (name : String) (provider : Provider) (req : ChatRequest) :
    Handler.Triple (BooksFinished stream) (fun _ => True)
      (callProviderResilientWithStats deps.env name (command (.streamOpen provider req)))
      (Opened provider req) fun _ _ => True :=
  callProviderResilientWithStats_triple (fun _ _ => booksFinished_of_isRoutine)
    (opened_retried provider req)
    (command_triple (fun _ _ => booksFinished_of_not_books rfl)
      (fun _ _ _ => List.mem_cons_self) fun _ _ _ => trivial) _

/-- The stream has been opened with `first`, and it has ended with `rest`. -/
structure Heard (provider : Provider) (req : ChatRequest) (first : ChatChunk)
    (rest : List ChatChunk) (t : Transcript sig) : Prop where
  opened : Opened provider req (some first) t
  ended : (⟨.streamRest provider req first, .ok (rest, none)⟩ : Exchange sig) ∈ t

theorem Heard.cons {provider : Provider} {req : ChatRequest} {first : ChatChunk}
    {rest : List ChatChunk} (h : Heard provider req first rest t) (e : Exchange sig) :
    Heard provider req first rest (e :: t) :=
  ⟨List.mem_cons_of_mem _ h.opened, List.mem_cons_of_mem _ h.ended⟩

/-- What has been heard is the stream. -/
theorem Heard.stream_eq {provider : Provider} {req : ChatRequest} {first : ChatChunk}
    {rest : List ChatChunk} (h : Heard provider req first rest t) (hfrom : StreamedFrom stream t) :
    stream = ⟨first :: rest, none⟩ := by
  have hhead := (of_decide_eq_true (hfrom _ h.opened)).1
  obtain ⟨htail, hend⟩ := Prod.mk.inj (of_decide_eq_true (hfrom _ h.ended))
  have hitems : stream.items = first :: rest := by
    rw [htail]
    exact List.eq_cons_of_mem_head? hhead.symm
  rw [← hitems, hend]

/-- A stream that has a final chunk whenever it ends without an error is finished when it has been
heard. -/
theorem Heard.finished {provider : Provider} {req : ChatRequest} {first : ChatChunk}
    {rest : List ChatChunk} (h : Heard provider req first rest t) (hfrom : StreamedFrom stream t)
    (hsound : stream.failure = none → stream.items ≠ [] →
      ∃ chunk ∈ stream.items, chunk.done = true) : Finished t := by
  have hstream := h.stream_eq hfrom
  obtain ⟨chunk, hchunk, hdone⟩ := hsound (by rw [hstream]) (by simp [hstream])
  rw [hstream] at hchunk
  exact ⟨_, h.ended, List.any_eq_true.mpr ⟨chunk, hchunk, hdone⟩⟩

/-- A stream that is not severed is booked only when it is finished. -/
theorem streamChat_booksFinished (hsound : stream.failure = none → stream.items ≠ [] →
    ∃ chunk ∈ stream.items, chunk.done = true) : Handler.Triple (BooksFinished stream)
      (fun _ => True) (streamChat deps orgId input r) (fun _ _ => True) fun _ _ => True := by
  refine (settle_triple (openStream_triple _ _ _)).bind fun first => ?_
  rcases first with err | _ | first
  · dsimp only
    split
    · exact .throw fun _ _ => trivial
    · exact .pure fun _ _ => trivial
  · exact .pure fun _ _ => trivial
  refine Handler.Triple.bind (Q := fun answer t => answer.2 = none →
      Heard r.resolved.provider (providerReq input r) first answer.1 t)
    (command_triple (fun _ _ => booksFinished_of_not_books rfl) (fun t answer h hend => ?_)
      fun _ _ _ => trivial) fun answer => ?_
  · obtain ⟨rest, error⟩ := answer
    cases hend
    exact ⟨List.mem_cons_of_mem _ h, List.mem_cons_self⟩
  obtain ⟨rest, error⟩ := answer
  cases error with
  | some error => exact .pure fun _ _ => trivial
  | none =>
    -- whatever is issued from here on, the stream has been heard to its end
    refine Handler.Triple.conseq (P := Heard r.resolved.provider (providerReq input r) first rest)
      (.of_every (C := fun _ => True) (Program.every_of_forall (fun _ => trivial) _)
        (fun t c ht _ hfrom _ => ht.finished hfrom hsound) fun t c a ht _ => ht.cons _)
      (fun _ h => h rfl) (fun _ _ _ => trivial) fun _ _ _ => trivial

end Forward

section Backward

theorem command_ends (c : sig.Cmd) (a : Res c) (t : Transcript sig) :
    (command c).Ends t a (⟨c, .ok a⟩ :: t) :=
  .issue (.ok a) (.done _ _)

theorem settle_ends {α : Type} {x : Prog α} {a : α} {t t' : Transcript sig} (h : x.Ends t a t') :
    (settle x).Ends t (.ok a) t' := by
  refine Handler.Ends.tryCatch (h.bind ?_)
  exact Handler.ends_pure

/-- A call that succeeds at once is returned, with nothing but the commands around it. -/
theorem callProvider_ends {α : Type} {fn : Prog α} {a : α} {e : Exchange sig} (env : Env)
    (name : String) (hfn : ∀ t, fn.Ends t a (e :: t)) : ∃ t : Transcript sig,
      (callProviderResilientWithStats env name fn).Ends [] a t ∧
        ∀ x ∈ t, x = e ∨ x.1.isResilience = true := by
  have hthrough (t : Transcript sig) : (callThroughBreaker env name fn).Ends t a
      (⟨.evalReport name 0 true env.circuitConfig, .ok .closed⟩ :: e ::
        ⟨.evalAttempt name 0 env.circuitConfig, .ok (true, .closed)⟩ ::
          ⟨.dateNow, .ok 0⟩ :: t) := by
    refine (command_ends .dateNow 0 t).bind ((command_ends (.evalAttempt name 0 env.circuitConfig)
      (true, .closed) _).bind (Handler.Ends.tryCatch ((hfn _).bind ?_)))
    exact Handler.Ends.bind (command_ends (.evalReport name 0 true env.circuitConfig) .closed _)
      Handler.ends_pure
  have hcall (t : Transcript sig) : (callProviderResilient env name fn).Ends t a
      (⟨.evalReport name 0 true env.circuitConfig, .ok .closed⟩ :: e ::
        ⟨.evalAttempt name 0 env.circuitConfig, .ok (true, .closed)⟩ ::
          ⟨.dateNow, .ok 0⟩ :: t) := by
    refine Handler.Ends.tryCatch ?_
    unfold withRetry
    cases (env.retryMaxAttempts : ℕ) - 1 with
    | zero => exact hthrough t
    | succ n => exact (hthrough t).tryCatch
  have hrecord (t : Transcript sig) :
      Handler.Ends (do command (.recordProviderOutcome name (0 - 0) true); pure a) t a
        (⟨.recordProviderOutcome name (0 - 0) true, .ok ()⟩ :: t) :=
    Handler.Ends.bind (command_ends _ () t) Handler.ends_pure
  exact ⟨_, (command_ends .dateNow 0 []).bind (Handler.Ends.tryCatch ((hcall _).bind
    ((command_ends .dateNow 0 _).bind (hrecord _)))), by simp [Cmd.isResilience]⟩

variable {deps : Deps} {orgId : OrgId} {input : ChatInput} {r : Routed} {first : ChatChunk}
  {rest : List ChatChunk}

/-- A stream that ends without an error can be heard to its end, and then its usage is recorded. -/
theorem exists_record {M : Transcript sig → Cmd → Prop}
    {Q : Except Thrown Reply → Transcript sig → Prop}
    (h : (streamChat deps orgId input r).run.Follows M Q []) :
    ∃ t, StreamedFrom ⟨first :: rest, none⟩ t ∧
      (∀ e ∈ t, finishes e = true →
        e = ⟨.streamRest r.resolved.provider (providerReq input r) first, .ok (rest, none)⟩) ∧
      ∃ cost, M t (.insertUsage (usageParams orgId input r
        (assemble r.resolved.provider.name r.resolved.providerModel (first :: rest))) cost) := by
  obtain ⟨t, hends, hquiet⟩ := callProvider_ends deps.env r.resolved.provider.name
    (command_ends (.streamOpen r.resolved.provider (providerReq input r)) (some first))
  have hopened := Handler.follows_of_ends (t := []) (x := settle _) h (settle_ends hends)
  have hrest := Handler.follows_of_ends (x := command _) hopened
    (command_ends (.streamRest r.resolved.provider (providerReq input r) first) (rest, none) _)
  refine ⟨_, fun e he => ?_, fun e he hfinishes => ?_, _, hrest.1⟩
  · rcases List.mem_cons.mp he with rfl | he
    · exact decide_eq_true rfl
    · rcases hquiet e he with rfl | hres
      · exact decide_eq_true ⟨rfl, fun heq => by cases heq⟩
      · obtain ⟨c, a⟩ := e
        cases c <;> first | rfl | cases hres
  · rcases List.mem_cons.mp he with rfl | he
    · rfl
    · rcases hquiet e he with rfl | hres
      · cases hfinishes
      · obtain ⟨c, a⟩ := e
        cases c <;> first | exact absurd hfinishes Bool.false_ne_true | cases hres

/-- A stream that ends without an error can be booked. -/
theorem done_of_booksFinished (h : (streamChat deps orgId input r).run.Follows
      (BooksFinished ⟨first :: rest, none⟩) (fun _ _ => True) []) :
    ∃ chunk ∈ first :: rest, chunk.done = true := by
  obtain ⟨t, hfrom, honly, cost, hrule⟩ := exists_record h
  obtain ⟨e, he, hfinishes⟩ := hrule hfrom rfl
  obtain rfl := honly e he hfinishes
  exact List.any_eq_true.mp hfinishes

end Backward

end Streaming

/-- A streamed request records its answer or stores it for replays only if a final chunk has come
and the iterator has not thrown, if and only if the body does not break off silently. -/
theorem booked_finished_iff (deps : Deps) (json : JsonParse) (orgId : OrgId) (input : ChatInput)
    (r : Routed) (source : Source) :
    (streamChat deps orgId input r).run.Follows
      (BooksFinished (source.chatStream json (providerReq input r))) (fun _ _ => True) [] ↔
    ¬source.Severed json (providerReq input r) := by
  rw [Source.severed_iff]
  constructor
  · rintro h ⟨hend, hsome, hdelta⟩
    obtain ⟨first, rest, hitems⟩ := List.exists_cons_of_ne_nil hsome
    have hstream : source.chatStream json (providerReq input r) = ⟨first :: rest, none⟩ := by
      rw [← hitems, ← hend]
    rw [hstream] at h hdelta
    obtain ⟨chunk, hchunk, hdone⟩ := done_of_booksFinished h
    exact Bool.false_ne_true ((hdelta chunk hchunk).symm.trans hdone)
  · intro h
    refine (streamChat_booksFinished (fun hend hsome => ?_) [] trivial).mono (fun _ _ h => h)
      fun _ _ _ => trivial
    by_contra hnone
    refine h ⟨hend, hsome, fun chunk hchunk => ?_⟩
    cases hdone : chunk.done with
    | false => rfl
    | true => exact absurd ⟨chunk, hchunk, hdone⟩ hnone

/-! ### A provider that is overloaded -/

def messageStart : String :=
  "\x7b\"type\":\"message_start\",\"message\":\x7b\"id\":\"msg_1\"," ++
    "\"usage\":\x7b\"input_tokens\":10\x7d\x7d\x7d"

def textDelta : String :=
  "\x7b\"type\":\"content_block_delta\"," ++
    "\"delta\":\x7b\"type\":\"text_delta\",\"text\":\"Hel\"\x7d\x7d"

def errorEvent : String :=
  "\x7b\"type\":\"error\",\"error\":\x7b\"type\":\"overloaded_error\"\x7d\x7d"

/-- `JSON.parse` of these three payloads. -/
def threeEvents : JsonParse where
  openai _ := .error "Unexpected token"
  anthropic payload :=
    if payload = messageStart then .ok ⟨"message_start", some ⟨some "msg_1", some 10⟩, none, none⟩
    else if payload = textDelta then
      .ok ⟨"content_block_delta", none, some ⟨some "text_delta", some "Hel", none⟩, none⟩
    else if payload = errorEvent then .ok ⟨"error", none, none, none⟩
    else .error "Unexpected token"
  gemini _ := .error "Unexpected token"
  ollama _ := .error "Unexpected token"

/-- An error event, after which the body ends. -/
def overloaded : Source := .network .anthropic "" ⟨
  ["event: message_start\ndata: " ++ messageStart ++ "\n\n",
    "event: content_block_delta\ndata: " ++ textDelta ++ "\n\n",
    "event: error\ndata: " ++ errorEvent ++ "\n\n"], none⟩

def streamed : ChatInput :=
  ⟨⟨"claude-3-5-haiku-20241022", [⟨.user, "hello"⟩], some true, none, none⟩, tenantA,
    some "order-1"⟩

/-- The only chunk of the stream. -/
def onlyChunk : ChatChunk :=
  ⟨"msg_1", "anthropic", "claude-3-5-haiku-20241022", "Hel", false, none, none⟩

/-- A streamed request from its start to its end. -/
def brokenOff : List GatewayLabel :=
  .start ⟨tenantA, 0⟩ (.chat streamed) :: steps ⟨tenantA, 0⟩
    [.nothing, .nothing, .nothing, .nothing, .nothing, .nothing, .attempt (true, .closed),
      .streamOpen (.ok (some onlyChunk)), .report .closed, .nothing, .nothing, .streamRest [] none,
      .nothing, .nothing]

/-- What is billed and stored has no final chunk. -/
theorem booked_finished_fails :
    ∃ c, (gateway plainDeps).run (.init (.fresh (fun _ => none) fun _ => none)) brokenOff = some c ∧
      StreamedFrom (overloaded.chatStream threeEvents streamed.request)
        (transcript ⟨tenantA, 0⟩ c.world.history) ∧
      (∃ row ∈ c.world.shared.usageRecords, row.params.requestId = "msg_1") ∧
      c.world.shared.value (idempotencyKey tenantA "order-1") = some (.record ⟨200, ⟨"msg_1",
        "anthropic", "claude-3-5-haiku-20241022", ⟨.assistant, "Hel"⟩, .stop, ⟨0, 0⟩⟩⟩) ∧
      ¬Finished (transcript ⟨tenantA, 0⟩ c.world.history) := by
  have hstream : overloaded.chatStream threeEvents streamed.request = ⟨[onlyChunk], none⟩ := by
    decide
  have hres : ((gateway plainDeps).run (.init (.fresh (fun _ => none) fun _ => none)) brokenOff).map
      (fun c => decide (StreamedFrom ⟨[onlyChunk], none⟩
          (transcript ⟨tenantA, 0⟩ c.world.history) ∧
        (∃ row ∈ c.world.shared.usageRecords, row.params.requestId = "msg_1") ∧
        c.world.shared.value (idempotencyKey tenantA "order-1") = some (.record ⟨200, ⟨"msg_1",
          "anthropic", "claude-3-5-haiku-20241022", ⟨.assistant, "Hel"⟩, .stop, ⟨0, 0⟩⟩⟩) ∧
        ¬Finished (transcript ⟨tenantA, 0⟩ c.world.history))) = some true := by
    decide +kernel
  obtain ⟨c, hrun, hc⟩ := Option.map_eq_some_iff.mp hres
  exact ⟨c, hrun, hstream ▸ of_decide_eq_true hc⟩

end CloudMesh.Gateway
