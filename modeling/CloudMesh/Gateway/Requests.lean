import CloudMesh.Gateway.Confinement

/-!
# What a chat request does

The rule of a `POST /v1/chat` request: what it has been answered when it publishes a result, records
usage or stores its idempotency record, and what is true of its own exchanges when it ends. The
rule is proved of the route by following its code once, with every command failing or not.

## Main definitions

- `answerOf`, `answers` — the whole answers of a provider in a transcript
- `Obtained` — how a request has come by the response it bills
- `Permitted`, `Rule`, `Ended` — the rule and its postcondition
- `obeys` — every process follows the rule
-/

namespace CloudMesh.Gateway

open Concurrent

/-! ## Exchanges -/

/-- The whole answer of a provider, with the request. -/
def answerOf : Exchange sig → Option (ChatRequest × ChatResponse)
  | ⟨.chat _ req, .ok response⟩ => some (req, response)
  | ⟨.streamRest provider req first, .ok (rest, none)⟩ =>
    some (req, assemble provider.name req.model (first :: rest))
  | _ => none

def answers (t : Transcript sig) : List (ChatRequest × ChatResponse) := t.filterMap answerOf

/-- The bytes of a text that always fits an entry of a unique index. A longer one does if Postgres
can compress it, and is refused otherwise. -/
def indexedBytes : ℕ := 2692

/-- `usage_records` and its unique index take the values. -/
def isStorable (model requestId : String) (usage : Usage) (costUsd : Option ℚ) : Bool :=
  (storedCost model requestId usage costUsd).isOk && decide (requestId.utf8ByteSize ≤ indexedBytes)

/-- The answer can be billed. -/
def isBillable (req : ChatRequest) (response : ChatResponse) : Bool :=
  isStorable req.model response.id response.usage (computeCostUsd req.model response.usage)

/-- The commands that are the gateway's own infrastructure: everything but the providers, and but
the insert of values that Postgres refuses. -/
def Cmd.isInfrastructure : Cmd → Bool
  | .chat .. | .streamOpen .. | .streamRest .. | .embed _ => false
  | .insertUsage params costUsd => isStorable params.model params.requestId params.usage costUsd
  | _ => true

/-- Some command of the infrastructure has failed. -/
def Faulted (t : Transcript sig) : Prop :=
  ∃ c err, (⟨c, .error err⟩ : Exchange sig) ∈ t ∧ c.isInfrastructure = true

/-- No idempotency record has been stored. -/
def Unrecorded (t : Transcript sig) : Prop := ∀ e ∈ t, e.1.storesRecord = false

/-- Commands that are neither answered by a provider nor store a record. -/
def Cmd.isQuiet : Cmd → Bool
  | .chat .. | .streamRest .. | .redisSet _ (.record _) _ | .redisSetNx _ (.record _) _ => false
  | _ => true

/-- Routine work makes no provider answer and stores no record. -/
theorem isQuiet_of_isRoutine {c : Cmd} (h : c.isRoutine = true) : c.isQuiet = true := by
  unfold Cmd.isQuiet
  split
  · cases h
  · cases h
  · cases h
  · cases h
  · rfl

/-- A quiet command stores no record. -/
theorem storesRecord_of_isQuiet {c : Cmd} (h : c.isQuiet = true) : c.storesRecord = false := by
  unfold Cmd.storesRecord
  split
  · cases h
  · cases h
  · rfl

theorem answers_cons {e : Exchange sig} {t : Transcript sig} :
    answers (e :: t) = (answerOf e).toList ++ answers t := by
  cases h : answerOf e <;> simp [answers, h]

theorem answerOf_eq_none {c : Cmd} {r : sig.Ans c} (h : c.isQuiet = true) :
    answerOf ⟨c, r⟩ = none := by
  cases c <;> first | rfl | cases h

/-- The answers of a transcript do not change with a quiet command. -/
theorem answers_cons_of_isQuiet {c : Cmd} {r : sig.Ans c} {t : Transcript sig}
    (h : c.isQuiet = true) : answers (⟨c, r⟩ :: t) = answers t := by
  rw [answers_cons, answerOf_eq_none h, Option.toList_none, List.nil_append]

theorem Faulted.cons {t : Transcript sig} (h : Faulted t) (e : Exchange sig) :
    Faulted (e :: t) := by
  obtain ⟨c, err, hmem, hc⟩ := h
  exact ⟨c, err, List.mem_cons_of_mem _ hmem, hc⟩

/-- A failed command of the infrastructure is a fault. -/
theorem faulted_of_error {c : Cmd} {err : Thrown} {t : Transcript sig}
    (h : c.isInfrastructure = true) : Faulted (⟨c, .error err⟩ :: t) :=
  ⟨c, err, List.mem_cons_self, h⟩

/-- Without a new record, none is stored still. -/
theorem Unrecorded.cons {c : Cmd} {r : sig.Ans c} {t : Transcript sig} (h : Unrecorded t)
    (hc : c.storesRecord = false) : Unrecorded (⟨c, r⟩ :: t) := by
  intro e he
  rcases List.mem_cons.mp he with rfl | he
  · exact hc
  · exact h e he

/-! ## The rule -/

section Rule

variable (deps : Deps) (orgId : OrgId) (input : ChatInput)

/-- What identical prompts of the org are coalesced by. -/
def coalescedBy (model : String) (messages : List Message) : String :=
  dedupName orgId (computePromptHash deps model messages)

/-- The response comes from the provider, from the stored result or from the leader's message. -/
inductive Obtained (model : String) (response : ChatResponse) (t : Transcript sig) : Prop
  | answered (req : ChatRequest) (hm : req.model = model)
      (hms : req.messages = input.request.messages) (h : (req, response) ∈ answers t)
  | stored (h : ⟨.redisGet (dedupKey (coalescedBy deps orgId model input.request.messages)),
      .ok (some (.response response))⟩ ∈ t)
  | told (since : ℕ) (h : ⟨.awaitMessage
      (resultChannel (coalescedBy deps orgId model input.request.messages)) since,
        .ok (some (some response))⟩ ∈ t)

/-- The provider has answered the request with the response, and the request was for `name`. -/
def AnsweredFor (name : String) (response : ChatResponse) (t : Transcript sig) : Prop :=
  ∃ req, (req, response) ∈ answers t ∧ name = coalescedBy deps orgId req.model req.messages

/-- What a request has done when it issues a command. -/
def Permitted (t : Transcript sig) : Cmd → Prop
  | .chat _ req | .streamRest _ req _ => req.messages = input.request.messages ∧ Unrecorded t
  | .redisSet key (.response response) _ =>
    ∃ name, key = dedupKey name ∧ AnsweredFor deps orgId name response t
  | .publish channel (some response) =>
    ∃ name, channel = resultChannel name ∧ AnsweredFor deps orgId name response t
  | .redisSet key (.record record) _ =>
    (∃ k, input.idempotencyKey = some k ∧ key = idempotencyKey orgId k) ∧ Unrecorded t ∧
      (answers t = [] ∨ ∃ req, (req, record.body) ∈ answers t)
  | .redisSetNx _ (.response _) _ | .redisSetNx _ (.record _) _
  | .writeOutboxEvent (.usageRecorded ..) => False
  | .insertUsage params costUsd =>
    params.orgId = orgId ∧ costUsd = computeCostUsd params.model params.usage ∧
      ∃ response, params.requestId = response.id ∧ params.usage = response.usage ∧
        Obtained deps orgId input params.model response t
  | _ => True

/-- The check for a record has found none, if the request has a key. -/
def Checked (t : Transcript sig) : Prop :=
  ∀ k, input.idempotencyKey = some k → ⟨.redisGet (idempotencyKey orgId k), .ok none⟩ ∈ t

/-- The check comes first. -/
def ChatRule (t : Transcript sig) (c : Cmd) : Prop :=
  Permitted deps orgId input t c ∧ (Checked orgId input t ∨
    t = [] ∧ ∃ k, input.idempotencyKey = some k ∧ c = .redisGet (idempotencyKey orgId k))

end Rule

def Rule (deps : Deps) (p : Pid) : Op → Transcript sig → Cmd → Prop
  | .chat input, t, c => ChatRule deps p.orgId input t c
  | _, _, c => c.storesRecord = false

/-- The result that a successful reply brings; a stream that breaks is none. -/
def Reply.result (reply : Reply) : Option ChatResponse :=
  if reply.statusCode = 200 then
    match reply.body with
    | .response response | .stream response _ => some response
    | _ => none
  else none

/-- A provider's answer has been billed, if it can be. -/
def Settled (t : Transcript sig) : Prop :=
  Faulted t ∨ answers t = [] ∨ ∃ req response, answers t = [(req, response)] ∧
    (isBillable req response = false ∨ ∃ params cost recorded, params.requestId = response.id ∧
      (⟨.insertUsage params (some cost), .ok recorded⟩ : Exchange sig) ∈ t)

/-- The result is a replay of the stored record, or the request's own, which it has stored if it
has a key. -/
inductive Result (orgId : OrgId) (input : ChatInput) (response : ChatResponse)
    (t : Transcript sig) : Prop
  | replayed (key : String) (statusCode : ℕ) (hkey : input.idempotencyKey = some key)
      (h : ⟨.redisGet (idempotencyKey orgId key),
        .ok (some (.record ⟨statusCode, response⟩))⟩ ∈ t)
  | executed (hstored : ∀ key, input.idempotencyKey = some key → ∃ record ttlMs answer,
        ⟨.redisSet (idempotencyKey orgId key) (.record record) ttlMs, answer⟩ ∈ t ∧
          record.body = response)

/-- What is true of the exchanges of a request that has come to its end. -/
def ChatEnded (orgId : OrgId) (input : ChatInput) (outcome : Outcome) (t : Transcript sig) : Prop :=
  Settled t ∧ ∀ reply response, outcome = .ok (some reply) → reply.result = some response →
    Result orgId input response t

def Ended (p : Pid) : Op → Outcome → Transcript sig → Prop
  | .chat input, outcome, t => ChatEnded p.orgId input outcome t
  | _, _, _ => True

/-! ## Following the code -/

section Triples

variable {deps : Deps} {orgId : OrgId} {input : ChatInput} {α : Type}
  {P Q E : Transcript sig → Prop}

/-- Quiet commands do not touch the condition. -/
def Stable (P : Transcript sig → Prop) : Prop :=
  ∀ t c r, P t → c.isQuiet = true → P (⟨c, r⟩ :: t)

/-- Nothing is asked of a request before a routine command. -/
theorem permitted_of_isRoutine {c : Cmd} {t : Transcript sig} (h : c.isRoutine = true) :
    Permitted deps orgId input t c := by
  unfold Permitted
  split <;> trivial

/-- A routine program follows the rule and keeps every stable condition, whether it returns or
throws. -/
theorem routine_triple {x : Prog α} (hx : Handler.Every (Routine orgId) x) (hP : Stable P) :
    Handler.Triple (Permitted deps orgId input) P x (fun _ => P) fun _ => P :=
  .of_every hx (fun _ _ _ hc => permitted_of_isRoutine hc.2)
    fun t c r ht hc => hP t c r ht (isQuiet_of_isRoutine hc.2)

/-- One routine command keeps a stable condition when it is answered; what holds when it fails is
left to the caller. -/
theorem routine_command_triple {c : Cmd} (hc : c.isRoutine = true) (hP : Stable P)
    (hE : ∀ t err, P t → E (⟨c, .error err⟩ :: t)) :
    Handler.Triple (Permitted deps orgId input) P (command c) (fun _ => P) fun _ => E :=
  command_triple (fun _ _ => permitted_of_isRoutine hc)
    (fun t _ ht => hP t c _ ht (isQuiet_of_isRoutine hc)) hE

/-! ### Provider calls -/

/-- The conditions before and after a call that is retried; a failure of the infrastructure after
the call leads back to the one before. -/
structure Retried (S : Transcript sig → Prop) (H : α → Transcript sig → Prop) : Prop where
  before : Stable S
  after : ∀ a, Stable (H a)
  spoiled : ∀ a t c err, H a t → c.isInfrastructure = true → c.isQuiet = true →
    S (⟨c, .error err⟩ :: t)

section Resilience

variable {M : Transcript sig → sig.Cmd → Prop} {S : Transcript sig → Prop}
  {H : α → Transcript sig → Prop} {env : Env} {fn : Prog α}
  (hM : ∀ t, ∀ c : Cmd, c.isRoutine = true → M t c) (hr : Retried S H)
  (hfn : Handler.Triple M S fn H fun _ => S)

include hM hr

/-- Before the call, a command that fails leaves the condition as it was. -/
theorem before_triple {c : Cmd} (hc : c.isRoutine = true) :
    Handler.Triple M S (command c) (fun _ => S) fun _ => S :=
  command_triple (fun t _ => hM t c hc)
    (fun t _ ht => hr.before t c _ ht (isQuiet_of_isRoutine hc))
    fun t _ ht => hr.before t c _ ht (isQuiet_of_isRoutine hc)

/-- After the call, a command that fails leads back to the condition before it. -/
theorem after_triple {c : Cmd} (a : α) (hc : c.isRoutine = true)
    (hi : c.isInfrastructure = true) :
    Handler.Triple M (H a) (command c) (fun _ => H a) fun _ => S :=
  command_triple (fun t _ => hM t c hc)
    (fun t _ ht => hr.after a t c _ ht (isQuiet_of_isRoutine hc))
    fun t err ht => hr.spoiled a t c err ht hi (isQuiet_of_isRoutine hc)

include hfn

/-- The breaker refuses, or it reports what the call has come to. -/
theorem callThroughBreaker_triple (name : String) :
    Handler.Triple M S (callThroughBreaker env name fn) H
      fun _ => S := by
  refine (before_triple hM hr rfl).bind fun now => (before_triple hM hr rfl).bind fun answer => ?_
  obtain ⟨allowed, state⟩ := answer
  cases allowed with
  | false => exact .throw fun _ h => h
  | true =>
    refine Handler.Triple.tryCatch (hfn.bind fun a => ?_) fun err => ?_
    · exact (after_triple hM hr a rfl rfl).bind fun _ => .pure fun _ h => h
    · exact (before_triple hM hr rfl).bind fun _ => .throw fun _ h => h

/-- Every attempt starts in the condition that the failure of the last one has left. -/
theorem retryFrom_triple (shouldRetry : Thrown → Bool) (attempt attemptsLeft : ℕ) :
    Handler.Triple M S
      (retryFrom env fn shouldRetry attempt attemptsLeft) H fun _ => S := by
  induction attemptsLeft generalizing attempt with
  | zero => exact hfn
  | succ attemptsLeft ih =>
    refine hfn.tryCatch fun err => ?_
    split
    · exact (before_triple hM hr rfl).bind fun _ => (before_triple hM hr rfl).bind fun _ => ih _
    · exact .throw fun _ h => h

/-- **The resilience layer** keeps the specification of the call it wraps. -/
theorem callProviderResilientWithStats_triple (name : String) :
    Handler.Triple M S
      (callProviderResilientWithStats env name fn) H fun _ => S := by
  refine (before_triple hM hr rfl).bind fun start =>
    Handler.Triple.tryCatch (F := fun _ => S) ?_ fun err => ?_
  · refine Handler.Triple.bind (Q := H) ?_ fun a => ?_
    · refine (retryFrom_triple hM hr (callThroughBreaker_triple hM hr hfn name) _ _ _).tryCatch
        fun err => ?_
      split <;> exact .throw fun _ h => h
    · exact (after_triple hM hr a rfl rfl).bind fun _ =>
        (after_triple hM hr a rfl rfl).bind fun _ => .pure fun _ h => h
  · split
    · exact .throw fun _ h => h
    · exact (before_triple hM hr rfl).bind fun _ => (before_triple hM hr rfl).bind fun _ =>
        .throw fun _ h => h

end Resilience

/-! ### What a request knows -/

/-- No provider has answered yet. -/
def Idle (t : Transcript sig) : Prop := answers t = [] ∧ Unrecorded t

/-- A provider can have answered only if something failed afterwards. -/
def Failed (t : Transcript sig) : Prop := (Faulted t ∨ answers t = []) ∧ Unrecorded t

/-- The request holds the answer of its own call. -/
def Holding (req : ChatRequest) (response : ChatResponse) (t : Transcript sig) : Prop :=
  (req, response) ∈ answers t ∧ (Faulted t ∨ answers t = [(req, response)]) ∧ Unrecorded t

section States

variable {req : ChatRequest} {response : ChatResponse} {model : String}

theorem Idle.failed {t : Transcript sig} (h : Idle t) : Failed t := ⟨.inr h.1, h.2⟩

theorem Stable.and {P Q : Transcript sig → Prop} (hP : Stable P) (hQ : Stable Q) :
    Stable fun t => P t ∧ Q t :=
  fun t c r h hc => ⟨hP t c r h.1 hc, hQ t c r h.2 hc⟩

theorem Stable.or {P Q : Transcript sig → Prop} (hP : Stable P) (hQ : Stable Q) :
    Stable fun t => P t ∨ Q t :=
  fun t c r h hc => h.imp (fun h => hP t c r h hc) fun h => hQ t c r h hc

theorem stable_unrecorded : Stable Unrecorded :=
  fun _ _ _ h hc => h.cons (storesRecord_of_isQuiet hc)

theorem stable_faulted : Stable Faulted := fun _ _ _ h _ => h.cons _

theorem stable_answers (A : List (ChatRequest × ChatResponse) → Prop) :
    Stable fun t => A (answers t) :=
  fun t c r h hc => by simpa only [answers_cons_of_isQuiet hc] using h

theorem stable_idle : Stable Idle := (stable_answers (· = [])).and stable_unrecorded

theorem stable_failed : Stable Failed :=
  (stable_faulted.or (stable_answers (· = []))).and stable_unrecorded

theorem stable_holding : Stable (Holding req response) :=
  (stable_answers ((req, response) ∈ ·)).and
    ((stable_faulted.or (stable_answers (· = [(req, response)]))).and stable_unrecorded)

/-- How a response has been come by is not forgotten. -/
theorem stable_obtained : Stable (Obtained deps orgId input model response) := by
  intro t c r h hc
  cases h with
  | answered req hm hms h =>
    exact .answered req hm hms (by rwa [answers_cons_of_isQuiet hc])
  | stored h => exact .stored (List.mem_cons_of_mem _ h)
  | told since h => exact .told since (List.mem_cons_of_mem _ h)

/-- A fault after the answer spoils it, but stores no record. -/
theorem failed_of_error {t : Transcript sig} {c : Cmd} {err : Thrown} (h : Unrecorded t)
    (hi : c.isInfrastructure = true) (hc : c.isQuiet = true) : Failed (⟨c, .error err⟩ :: t) :=
  ⟨.inl (faulted_of_error hi), stable_unrecorded t c _ h hc⟩

/-- A whole answer may be retried: the failure that leads to it is a fault. -/
theorem retried_holding (req : ChatRequest) : Retried Failed (Holding req) :=
  ⟨stable_failed, fun _ => stable_holding, fun _ _ _ _ h hi hc => failed_of_error h.2.2 hi hc⟩

/-- The start of a stream answers nothing, so that a retry finds it as it was. -/
theorem retried_idle (α : Type) : Retried Idle fun _ : α => Idle :=
  ⟨stable_idle, fun _ => stable_idle, fun _ t c _ h _ hc => stable_idle t c _ h hc⟩

theorem answerOf_error {c : Cmd} {err : Thrown} : answerOf ⟨c, .error err⟩ = none := by
  cases c <;> rfl

/-- A provider's answer is held by the request that asked for it. -/
theorem chat_triple (provider : Provider) (hms : req.messages = input.request.messages) :
    Handler.Triple (Permitted deps orgId input) Failed (command (.chat provider req))
      (Holding req) fun _ => Failed := by
  refine command_triple (fun t h => ⟨hms, h.2⟩) (fun t response h => ?_) fun t err h => ?_
  · have hanswers : answers (⟨.chat provider req, .ok response⟩ :: t) =
        (req, response) :: answers t := answers_cons
    refine ⟨hanswers ▸ List.mem_cons_self, ?_, h.2.cons rfl⟩
    rcases h.1 with hf | hnil
    · exact .inl (hf.cons _)
    · exact .inr (by rw [hanswers, hnil])
  · refine ⟨?_, h.2.cons rfl⟩
    rw [answers_cons, answerOf_error]
    exact h.1.imp (fun hf => hf.cons _) id

end States

/-! ### Coalescing -/

/-- The request holds a response that it has come by, its own or a coalesced one. -/
def Has (deps : Deps) (orgId : OrgId) (input : ChatInput) (req : ChatRequest)
    (response : ChatResponse) (t : Transcript sig) : Prop :=
  (Holding req response t ∨ Idle t) ∧ Obtained deps orgId input req.model response t

/-- A response that a request has stays with it. -/
theorem stable_has {req : ChatRequest} {response : ChatResponse} :
    Stable (Has deps orgId input req response) :=
  (stable_holding.or stable_idle).and stable_obtained

/-- What a read decodes was stored under its key. -/
theorem getAs_triple {decode : RedisValue → Option α} {key : String} (hP : Stable P) :
    Handler.Triple (Permitted deps orgId input) P (getAs decode key)
      (fun a t => P t ∧ ∀ value, a = some value → ∃ v, decode v = some value ∧
        ⟨.redisGet key, .ok (some v)⟩ ∈ t)
      fun _ => P := by
  refine Handler.Triple.bind (Q := fun cached t => P t ∧ ⟨.redisGet key, .ok cached⟩ ∈ t) ?_
    fun cached => ?_
  · exact command_triple (fun _ _ => trivial) (fun t r h => ⟨hP t _ _ h rfl, List.mem_cons_self⟩)
      fun t _ h => hP t _ _ h rfl
  · cases cached with
    | none => exact .pure fun t h => ⟨h.1, nofun⟩
    | some v =>
      dsimp only
      split
      · refine .pure fun t h => ⟨h.1, fun value heq => ⟨v, ?_, h.2⟩⟩
        cases heq
        assumption
      · exact .throw fun t h => h.1

section Dedup

variable {req : ChatRequest} {env : Env} {fn : Prog ChatResponse}

/-- A result found under the key was stored there. -/
theorem getDedupResult_triple (name : String) :
    Handler.Triple (Permitted deps orgId input) Idle (getDedupResult name)
      (fun existing t => Idle t ∧ ∀ response, existing = some response →
        ⟨.redisGet (dedupKey name), .ok (some (.response response))⟩ ∈ t)
      fun _ => Idle := by
  refine (getAs_triple stable_idle).bind fun existing => .pure fun t h => ⟨h.1, ?_⟩
  rintro response heq
  obtain ⟨v, hv, hmem⟩ := h.2 _ (Option.join_eq_some_iff.mp heq)
  split at hv
  · cases hv
  · cases hv
    exact hmem
  · cases hv

variable (hms : req.messages = input.request.messages)
  (hfn : Handler.Triple (Permitted deps orgId input) Failed fn (Holding req) fun _ => Failed)

include hms

theorem Holding.has {response : ChatResponse} {t : Transcript sig} (h : Holding req response t) :
    Has deps orgId input req response t :=
  ⟨.inl h, .answered req rfl hms h.1⟩

include hfn

/-- A follower has the stored result, the leader's message or, when both fail, an answer of its own.
-/
theorem waitForLeader_triple :
    Handler.Triple (Permitted deps orgId input) Idle
      (waitForLeader (coalescedBy deps orgId req.model input.request.messages) fn)
      (Has deps orgId input req) fun _ => Failed := by
  refine Handler.Triple.tryCatch (F := fun _ => Idle) ?_ fun err => ?_
  · refine (routine_command_triple rfl stable_idle fun t _ h => stable_idle t _ _ h rfl).bind
      fun since => (getDedupResult_triple _).bind fun recheck => ?_
    cases recheck with
    | some response => exact .pure fun t h => ⟨.inr h.1, .stored (h.2 response rfl)⟩
    | none =>
      refine Handler.Triple.bind (Q := fun message t => Idle t ∧
        ⟨.awaitMessage (resultChannel (coalescedBy deps orgId req.model input.request.messages))
          since, .ok message⟩ ∈ t) ?_ fun message => ?_
      · exact command_triple (fun _ _ => trivial)
          (fun t r h => ⟨stable_idle t _ _ h.1 rfl, List.mem_cons_self⟩)
          fun t _ h => stable_idle t _ _ h.1 rfl
      · rcases message with _ | _ | response
        · exact .throw fun t h => h.1
        · exact .throw fun t h => h.1
        · exact .pure fun t h => ⟨.inr h.1, .told since h.2⟩
  · exact hfn.conseq (fun t h => h.failed) (fun _ _ h => h.has hms) fun _ _ h => h

/-- **Coalescing**: a leader publishes only what its own provider has answered, and everyone comes
by their response. -/
theorem withRequestDedup_triple :
    Handler.Triple (Permitted deps orgId input) Idle
      (withRequestDedup env (coalescedBy deps orgId req.model input.request.messages) fn)
      (Has deps orgId input req) fun _ => Failed := by
  have hname : coalescedBy deps orgId req.model input.request.messages =
      coalescedBy deps orgId req.model req.messages := by rw [hms]
  refine Handler.Triple.bind (Q := fun _ => Idle) ?_ fun claimed => ?_
  · exact routine_command_triple rfl stable_idle fun t _ h => (stable_idle t _ _ h rfl).failed
  · cases claimed with
    | true =>
      refine Handler.Triple.tryCatch (F := fun _ => Failed) ?_ fun err => ?_
      · refine (hfn.conseq (fun t h => h.failed) (fun _ _ h => h) fun _ _ h => h).bind
          fun response => ?_
        refine Handler.Triple.bind (Q := fun _ => Holding req response) ?_ fun _ =>
          Handler.Triple.bind (Q := fun _ => Holding req response) ?_ fun _ =>
            .pure fun _ h => h.has hms
        · exact command_triple (fun t h => ⟨_, rfl, req, h.1, hname⟩)
            (fun t _ h => stable_holding t _ _ h rfl)
            fun t _ h => failed_of_error h.2.2 rfl rfl
        · exact command_triple (fun t h => ⟨_, rfl, req, h.1, hname⟩)
            (fun t _ h => stable_holding t _ _ h rfl)
            fun t _ h => failed_of_error h.2.2 rfl rfl
      · refine Handler.Triple.bind (Q := fun _ => Failed) ?_ fun _ =>
          Handler.Triple.bind (Q := fun _ => Failed) ?_ fun _ => .throw fun _ h => h
        · exact routine_command_triple rfl stable_failed fun t _ h => stable_failed t _ _ h rfl
        · exact command_triple (fun _ _ => trivial) (fun t _ h => stable_failed t _ _ h rfl)
            fun t _ h => stable_failed t _ _ h rfl
    | false =>
      refine ((getDedupResult_triple _).conseq (fun _ h => h) (fun _ _ h => h)
        fun _ t h => h.failed).bind fun existing => ?_
      cases existing with
      | some response => exact .pure fun t h => ⟨.inr h.1, .stored (h.2 response rfl)⟩
      | none =>
        exact (waitForLeader_triple hms hfn).conseq (fun t h => h.1) (fun _ _ h => h)
          fun _ _ h => h

end Dedup

/-! ### The route -/

section Routed

variable {r : Routed}

/-- With coalescing or without, the request comes by its response. -/
theorem runChat_triple : Handler.Triple (Permitted deps orgId input) Idle
    (runChat deps orgId input r) (Has deps orgId input (providerReq input r)) fun _ => Failed := by
  have hms : (providerReq input r).messages = input.request.messages := rfl
  have hcall : Handler.Triple (Permitted deps orgId input) Failed
      (callProviderResilientWithStats deps.env r.resolved.provider.name
        (command (.chat r.resolved.provider (providerReq input r))))
      (Holding (providerReq input r)) fun _ => Failed :=
    callProviderResilientWithStats_triple (fun _ _ => permitted_of_isRoutine) (retried_holding _)
      (chat_triple _ hms) _
  have hdedup : Handler.Triple (Permitted deps orgId input) Idle
      (withRequestDedup deps.env
        (coalescedBy deps orgId (providerReq input r).model input.request.messages)
        (callProviderResilientWithStats deps.env r.resolved.provider.name
          (command (.chat r.resolved.provider (providerReq input r)))))
      (Has deps orgId input (providerReq input r)) fun _ => Failed :=
    withRequestDedup_triple hms hcall
  unfold runChat
  dsimp only
  split
  · exact hdedup
  · exact hcall.conseq (fun _ h => h.failed) (fun _ _ h => h.has hms) fun _ _ h => h

/-- A response from the cache is nobody's answer; any other one the request has come by. -/
def AnsweredBy (deps : Deps) (orgId : OrgId) (input : ChatInput) (req : ChatRequest)
    (answer : ChatResponse × Bool) (t : Transcript sig) : Prop :=
  if answer.2 = true then Idle t else Has deps orgId input req answer.1 t

/-- The response is a cached one, or the request has come by it. -/
theorem answerChat_triple : Handler.Triple (Permitted deps orgId input) Idle
    (answerChat deps orgId input r) (AnsweredBy deps orgId input (providerReq input r))
      fun _ => Failed := by
  have hidle : ∀ {β : Type} {x : Prog β}, Handler.Every (Routine orgId) x →
      Handler.Triple (Permitted deps orgId input) Idle x (fun _ => Idle) fun _ => Failed :=
    fun hx => (routine_triple hx stable_idle).conseq (fun _ h => h) (fun _ _ h => h)
      fun _ _ h => h.failed
  unfold answerChat
  split
  · refine (hidle (Ordinary.routine orgId (lookupCache_ordinary orgId deps _ _ _ _))).bind
      fun cached => ?_
    cases cached with
    | hit response =>
      exact (hidle (Ordinary.routine orgId (recordCacheOutcome_ordinary orgId _))).bind
        fun _ => .pure fun _ h => h
    | miss embedding =>
      refine (hidle (Ordinary.routine orgId (recordCacheOutcome_ordinary orgId _))).bind fun _ => ?_
      refine runChat_triple.bind fun response => ?_
      refine Handler.Triple.bind (Q := fun _ => Has deps orgId input (providerReq input r) response)
        ?_ fun _ => .pure fun _ h => h
      -- whether the entry is written or not, the response is there
      refine Handler.Triple.tryCatch
        (F := fun _ => Has deps orgId input (providerReq input r) response) ?_
        fun _ => .pure fun _ h => h
      exact routine_command_triple rfl stable_has fun t _ h => stable_has t _ _ h rfl
  · exact runChat_triple.bind fun response => .pure fun _ h => h

/-- The request holds its result, and its answer has been billed. -/
def Billed (response : ChatResponse) (t : Transcript sig) : Prop :=
  Settled t ∧ Unrecorded t ∧ (answers t = [] ∨ ∃ req, (req, response) ∈ answers t)

theorem Failed.settled {t : Transcript sig} (h : Failed t) : Settled t :=
  h.1.imp id .inl

/-- A request is settled once the response it has is billed, or cannot be. -/
theorem Has.settled {req : ChatRequest} {response : ChatResponse} {t : Transcript sig}
    (h : Has deps orgId input req response t)
    (hbill : isBillable req response = false ∨ ∃ params cost recorded,
      params.requestId = response.id ∧ ⟨.insertUsage params (some cost), .ok recorded⟩ ∈ t) :
    Settled t := by
  rcases h.1 with ⟨-, hf | hans, -⟩ | ⟨hnil, -⟩
  · exact .inl hf
  · exact .inr (.inr ⟨req, response, hans, hbill⟩)
  · exact .inr (.inl hnil)

/-- A settled request bills the response that it has. -/
theorem Has.billed {req : ChatRequest} {response : ChatResponse} {t : Transcript sig}
    (h : Has deps orgId input req response t) (hs : Settled t) : Billed response t := by
  rcases h.1 with ⟨hmem, -, hun⟩ | ⟨hnil, hun⟩
  · exact ⟨hs, hun, .inr ⟨req, hmem⟩⟩
  · exact ⟨hs, hun, .inl hnil⟩

/-- What can be stored has a cost. -/
theorem exists_cost_of_isStorable {model requestId : String} {usage : Usage} {costUsd : Option ℚ}
    (h : isStorable model requestId usage costUsd = true) : ∃ cost, costUsd = some cost := by
  cases costUsd with
  | none => cases h
  | some cost => exact ⟨cost, rfl⟩

/-- **Billing**: the row is for the org, for a response that the request has, at the model's price.
-/
theorem recordUsage_triple {req : ChatRequest} {response : ChatResponse}
    {params : RecordUsageParams} (horg : params.orgId = orgId) (hmodel : params.model = req.model)
    (hid : params.requestId = response.id) (husage : params.usage = response.usage) :
    Handler.Triple (Permitted deps orgId input) (Has deps orgId input req response)
      (recordUsageAndOutbox params) (fun _ => Billed response) fun _ => Settled := by
  unfold recordUsageAndOutbox
  have hbillable : isStorable params.model params.requestId params.usage
      (computeCostUsd params.model params.usage) = isBillable req response := by
    rw [hmodel, hid, husage, isBillable]
  refine command_triple (fun t h => ⟨horg, rfl, response, hid, husage, hmodel ▸ h.2⟩) ?_ ?_
  all_goals generalize computeCostUsd params.model params.usage = cost at hbillable
  · intro t recorded h
    have hhas := stable_has t (.insertUsage params cost) (.ok recorded) h rfl
    refine hhas.billed (hhas.settled ?_)
    cases hcan : isBillable req response with
    | false => exact .inl rfl
    | true =>
      obtain ⟨cost, rfl⟩ := exists_cost_of_isStorable (hbillable.trans hcan)
      exact .inr ⟨params, cost, recorded, hid, List.mem_cons_self⟩
  · intro t err h
    have hhas := stable_has t (.insertUsage params cost) (.error err) h rfl
    cases hcan : isBillable req response with
    | false => exact hhas.settled (.inl hcan)
    | true => exact .inl (faulted_of_error (hbillable.trans hcan))

/-- The record is stored last, and only under a key that the request brings. -/
theorem storeReplay_triple (response : ChatResponse) :
    Handler.Triple (Permitted deps orgId input) (Billed response)
      (storeReplay deps orgId input response)
      (fun _ t => Settled t ∧ Result orgId input response t) fun _ => Settled := by
  have hsettled : ∀ {t : Transcript sig} {key record ttlMs answer}, Settled t →
      Settled (⟨.redisSet key (.record record) ttlMs, answer⟩ :: t) := by
    intro t key record ttlMs answer h
    refine h.imp (fun hf => hf.cons _) fun h => h.imp id ?_
    rintro ⟨req, response, hans, hbill⟩
    refine ⟨req, response, hans, hbill.imp id ?_⟩
    rintro ⟨params, cost, recorded, hid, hmem⟩
    exact ⟨params, cost, recorded, hid, List.mem_cons_of_mem _ hmem⟩
  unfold storeReplay
  split
  · rename_i hkey
    exact .pure fun t h => ⟨h.1, .executed fun key hk => nomatch hkey.symm.trans hk⟩
  · rename_i key hkey
    refine command_triple (fun t h => ⟨⟨key, hkey, rfl⟩, h.2⟩) (fun t _ h => ⟨hsettled h.1, ?_⟩)
      fun t err h => hsettled h.1
    refine .executed fun k hk => ?_
    cases hkey.symm.trans hk
    exact ⟨_, _, _, List.mem_cons_self, rfl⟩

/-- What is true when the route replies or throws. -/
def Replied (orgId : OrgId) (input : ChatInput) (reply : Reply) (t : Transcript sig) : Prop :=
  Settled t ∧ ∀ response, reply.result = some response → Result orgId input response t

/-- A reply without a result owes nothing but a settled bill. -/
theorem replied_of_no_result {reply : Reply} {t : Transcript sig} (h : Settled t)
    (hnone : reply.result = none) : Replied orgId input reply t :=
  ⟨h, fun _ hr => nomatch hnone.symm.trans hr⟩

/-- The reply to a failed provider brings no result. -/
theorem result_providerFailureReply (err : AppError) :
    (providerFailureReply err).result = none := by
  unfold Reply.result
  split <;> rfl

/-- A whole answer is replied with, billed and recorded, in the order of the route. -/
theorem completeChat_triple : Handler.Triple (Permitted deps orgId input) Idle
    (completeChat deps orgId input r) (Replied orgId input) fun _ => Settled := by
  refine (settle_triple answerChat_triple).bind fun answer => ?_
  cases answer with
  | error err =>
    dsimp only
    split
    · exact .throw fun _ h => h.settled
    · refine Handler.Triple.bind (Q := fun _ => Failed) ?_ fun _ => .pure fun _ h =>
        replied_of_no_result h.settled (result_providerFailureReply _)
      exact (routine_triple (Ordinary.routine orgId (emitProviderDegradedEvent_ordinary orgId _ _))
        stable_failed).conseq
        (fun _ h => h) (fun _ _ h => h) fun _ _ h => h.settled
  | ok answer =>
    obtain ⟨response, fromCache⟩ := answer
    refine Handler.Triple.bind (Q := fun _ => Billed response) ?_ fun _ =>
      (storeReplay_triple response).bind fun _ => .pure fun t h => ⟨h.1, ?_⟩
    · cases fromCache with
      | true => exact .pure fun t h => ⟨.inr (.inl h.1), h.2, .inl h.1⟩
      | false =>
        have hrecord : Handler.Triple (Permitted deps orgId input)
            (Has deps orgId input (providerReq input r) response)
            (recordUsageAndOutbox (usageParams orgId input r response))
            (fun _ => Billed response) fun _ => Settled :=
          recordUsage_triple rfl rfl rfl rfl
        exact hrecord.bind fun _ => .pure fun _ h => h
    · rintro response' heq
      cases heq
      exact h.2

/-- The last chunk completes the answer. -/
theorem streamRest_triple {req : ChatRequest} (provider : Provider) (first : ChatChunk)
    (hms : req.messages = input.request.messages) :
    Handler.Triple (Permitted deps orgId input) Idle (command (.streamRest provider req first))
      (fun answer t => match answer.2 with
        | some _ => Idle t
        | none => Has deps orgId input req
            (assemble provider.name req.model (first :: answer.1)) t)
      fun _ => Settled := by
  refine command_triple (fun t h => ⟨hms, h.2⟩) (fun t answer h => ?_) fun t err h => ?_
  · obtain ⟨rest, error⟩ := answer
    cases error with
    | some error =>
      have hnone : answers (⟨.streamRest provider req first, .ok (rest, some error)⟩ :: t) = [] :=
        answers_cons.trans h.1
      exact ⟨hnone, h.2.cons rfl⟩
    | none =>
      have hanswers : answers (⟨.streamRest provider req first, .ok (rest, none)⟩ :: t) =
          [(req, assemble provider.name req.model (first :: rest))] :=
        answers_cons.trans (congrArg _ h.1)
      have hmem : (req, assemble provider.name req.model (first :: rest)) ∈
          answers (⟨.streamRest provider req first, .ok (rest, none)⟩ :: t) := by
        rw [hanswers]
        exact List.mem_singleton_self _
      exact Holding.has hms ⟨hmem, .inr hanswers, h.2.cons rfl⟩
  · refine .inr (.inl ?_)
    rw [answers_cons, answerOf_error]
    exact h.1

/-- A stream that breaks is neither billed nor recorded; one that ends is, like a whole answer. -/
theorem streamChat_triple : Handler.Triple (Permitted deps orgId input) Idle
    (streamChat deps orgId input r) (Replied orgId input) fun _ => Settled := by
  have hms : (providerReq input r).messages = input.request.messages := rfl
  have hfirst : Handler.Triple (Permitted deps orgId input) Idle
      (command (.streamOpen r.resolved.provider (providerReq input r)))
      (fun _ => Idle) fun _ => Idle :=
    command_triple (fun _ _ => trivial) (fun t _ h => stable_idle t _ _ h rfl)
      fun t _ h => stable_idle t _ _ h rfl
  have hopen : Handler.Triple (Permitted deps orgId input) Idle
      (callProviderResilientWithStats deps.env r.resolved.provider.name
        (command (.streamOpen r.resolved.provider (providerReq input r))))
      (fun _ => Idle) fun _ => Idle :=
    callProviderResilientWithStats_triple (fun _ _ => permitted_of_isRoutine) (retried_idle _)
      hfirst _
  refine (settle_triple hopen).bind fun first => ?_
  rcases first with err | _ | chunk
  · dsimp only
    split
    · exact .throw fun _ h => h.failed.settled
    · exact .pure fun _ h =>
        replied_of_no_result h.failed.settled (result_providerFailureReply _)
  · exact .pure fun _ h => replied_of_no_result h.failed.settled rfl
  · refine (streamRest_triple r.resolved.provider chunk hms).bind fun answer => ?_
    obtain ⟨rest, error⟩ := answer
    cases error with
    | some error => exact .pure fun _ h => replied_of_no_result h.failed.settled rfl
    | none =>
      have hrecord : Handler.Triple (Permitted deps orgId input)
          (Has deps orgId input (providerReq input r)
            (assemble r.resolved.provider.name r.resolved.providerModel (chunk :: rest)))
          (recordUsageAndOutbox (usageParams orgId input r
            (assemble r.resolved.provider.name r.resolved.providerModel (chunk :: rest))))
          (fun _ => Billed
            (assemble r.resolved.provider.name r.resolved.providerModel (chunk :: rest)))
          fun _ => Settled :=
        recordUsage_triple rfl rfl rfl rfl
      refine hrecord.bind fun _ => (storeReplay_triple _).bind fun _ => .pure fun t h => ⟨h.1, ?_⟩
      rintro response' heq
      cases heq
      exact h.2

end Routed

/-- Routing issues routine commands only, and its decision is streamed or completed. -/
theorem answerRequest_triple : Handler.Triple (Permitted deps orgId input) Idle
    (answerRequest deps orgId input) (Replied orgId input) fun _ => Settled := by
  refine Handler.Triple.bind (Q := fun _ => Idle) ?_ fun r => ?_
  · exact (routine_triple (routeRequest_routine orgId deps input) stable_idle).conseq
      (fun _ h => h) (fun _ _ h => h) fun _ _ h => h.failed.settled
  · split
    · exact streamChat_triple
    · exact completeChat_triple

/-- A check that was made stays made. -/
theorem Checked.cons {t : Transcript sig} (h : Checked orgId input t) (e : Exchange sig) :
    Checked orgId input (e :: t) :=
  fun k hk => List.mem_cons_of_mem _ (h k hk)

/-- What follows the check follows the rule. -/
theorem answerRequest_rule {t : Transcript sig} (hi : Idle t) (hc : Checked orgId input t) :
    (answerRequest deps orgId input).run.Follows (ChatRule deps orgId input)
      (fun r t => match r with
        | .ok reply => Replied orgId input reply t
        | .error _ => Settled t) t := by
  have hanswer : Handler.Triple (Permitted deps orgId input) Idle
      (answerRequest deps orgId input) (Replied orgId input) fun _ => Settled :=
    answerRequest_triple
  have hframe := hanswer.frame (F := Checked orgId input) (N := ChatRule deps orgId input)
    (fun _ _ h => h.cons _) (fun _ _ hm hf => ⟨hm, .inl hf⟩) t ⟨hi, hc⟩
  refine hframe.mono (fun _ _ h => h) fun r t h => ?_
  cases r with
  | ok reply => exact h.1
  | error err => exact h.1

theorem follows_command_bind {M : Transcript sig → sig.Cmd → Prop} {t : Transcript sig} {c : Cmd}
    {f : Res c → Prog α} {Q : Except Thrown α → Transcript sig → Prop} (hM : M t c)
    (hok : ∀ r, (f r).run.Follows M Q (⟨c, .ok r⟩ :: t))
    (herr : ∀ err, Q (.error err) (⟨c, .error err⟩ :: t)) :
    (command c >>= f).run.Follows M Q t := by
  refine ⟨hM, fun r => ?_⟩
  cases r with
  | ok r => exact hok r
  | error err => exact herr err

variable (deps orgId input) in
/-- **The route follows its rule**: the check for a record comes first, and a request that finds
none is answered, billed and recorded. -/
theorem chat_rule : (chat deps orgId input).run.Follows (ChatRule deps orgId input)
    (fun r t => match r with
      | .ok reply => Replied orgId input reply t
      | .error _ => Settled t) [] := by
  have hidle : Idle [] := ⟨rfl, fun _ h => absurd h List.not_mem_nil⟩
  cases hkey : input.idempotencyKey with
  | none =>
    simp only [chat, hkey]
    exact answerRequest_rule hidle fun k hk => nomatch hkey.symm.trans hk
  | some key =>
    simp only [chat, hkey, getIdempotentReplay, getAs, bind_assoc]
    refine follows_command_bind ⟨trivial, .inr ⟨rfl, key, hkey, rfl⟩⟩ (fun cached => ?_)
      fun err => .inr (.inl rfl)
    have hchecked : cached = none → Checked orgId input
        [⟨.redisGet (idempotencyKey orgId key), .ok cached⟩] := by
      rintro rfl k hk
      cases hkey.symm.trans hk
      exact List.mem_cons_self
    cases cached with
    | none => exact answerRequest_rule (stable_idle _ _ _ hidle rfl) (hchecked rfl)
    | some value =>
      cases value with
      | record record =>
        refine ⟨.inr (.inl rfl), fun response heq => ?_⟩
        have hbody : record.body = response := by
          unfold Reply.result at heq
          split at heq
          · exact Option.some.inj heq
          · cases heq
        exact hbody ▸ .replayed key record.statusCode hkey List.mem_cons_self
      | text | count | flags | processing | response => exact .inr (.inl rfl)

end Triples

/-- Every process follows its rule. -/
theorem obeys (deps : Deps) : (gateway deps).Obeys (Rule deps) Ended := by
  intro p op
  have hother : (∀ input, op ≠ .chat input) →
      (handler deps p.orgId op).run.Follows (fun _ (c : Cmd) => c.storesRecord = false)
        (fun _ _ => True) [] := by
    intro hop
    refine (Program.Triple.of_every (P := fun _ => True)
      (handler_recordless p.orgId deps op hop) (fun _ _ _ hc => hc.2) fun _ _ _ _ _ => trivial)
      [] trivial
  cases op with
  | chat input =>
    show (some <$> chat deps p.orgId input).run.Follows _ _ _
    rw [map_eq_pure_bind]
    refine (chat_rule deps p.orgId input).bind fun r t h => ?_
    cases r with
    | ok reply =>
      refine ⟨h.1, ?_⟩
      rintro reply' response heq hresult
      cases heq
      exact h.2 response hresult
    | error err => exact ⟨h, fun _ _ heq => nomatch heq⟩
  | cacheStats | deleteCache | abStats | createJob | listJobs | getJob | replayJob | processJob =>
    exact hother fun _ heq => nomatch heq

end CloudMesh.Gateway
