import CloudMesh.Gateway.Lib

/-!
# The gateway's routes and its worker

`modules/chat/routes.ts`, `modules/jobs/routes.ts`, the job handlers and the worker of
`packages/jobs`. A request comes with its API key resolved, within its rate limit and as its schema
leaves it; what a route throws is answered by the error handler.

## Main definitions

- `chat` — `POST /v1/chat`
- `createJob`, `replayJob`, `processJob` — the life of a job
- `gateway` — the system of all operations
-/

namespace CloudMesh.Gateway

open Concurrent

/-! ## `POST /v1/chat` -/

structure ChatInput where
  request : ChatRequest
  apiKeyId : Uuid
  idempotencyHeader : Option String
  deriving DecidableEq

/-- An empty header counts as none. -/
def ChatInput.idempotencyKey (input : ChatInput) : Option String :=
  input.idempotencyHeader.filter fun key => key ≠ ""

/-- The bodies of the replies. -/
inductive Body
  | response (response : ChatResponse)
  | failure (error code : String) (provider : Option String)
  | stream (response : ChatResponse) (chunks : List ChatChunk)
  | brokenStream (chunks : List ChatChunk) (error : String)
  | deleted (n : ℕ)
  | cacheStats (stats : CacheStats)
  | abStats (counts : List (String × ℕ))
  | accepted (jobId : Uuid) (status : JobStatus) (type : String) (priority : ℕ)
  | replayed (jobId : Uuid) (status : JobStatus)
  | job (row : JobRow)
  | jobs (rows : List JobRow)

structure Reply where
  statusCode : ℕ
  headers : List (String × String)
  body : Body

def promptText (messages : List Message) : String :=
  String.intercalate "\n" (messages.map fun m => m.role.text ++ ": " ++ m.content)

/-- `ProviderError` and `ServiceUnavailableError` are answered by the route itself. -/
def providerFailure (err : Thrown) : Option AppError :=
  match err with
  | .app err => if err.isProvider ∨ err.isServiceUnavailable then some err else none
  | _ => none

def providerFailureReply (err : AppError) : Reply :=
  ⟨err.statusCode, err.headers, .failure err.message err.code
    (match err.cls with
      | .provider provider => some provider
      | _ => none)⟩

/-- The response that a whole stream amounts to: the last id, all text, and what the final chunks
report. -/
def assemble (provider model : String) (chunks : List ChatChunk) : ChatResponse :=
  let final := chunks.filter fun chunk => chunk.done
  { id := (chunks.getLast?.map ChatChunk.id).getD ""
    provider := provider
    model := model
    message := ⟨.assistant, String.join (chunks.map ChatChunk.delta)⟩
    finishReason := (final.getLast?.bind ChatChunk.finishReason).getD .stop
    usage := ((final.filterMap ChatChunk.usage).getLast?).getD ⟨0, 0⟩ }

/-- Where a request is sent, and the flags of its org. -/
structure Routed where
  resolved : ResolvedModel
  flags : OrgFeatureFlags

section Code

variable (deps : Deps)

section Chat

variable (orgId : OrgId) (input : ChatInput)

/-- The model that "auto" is sent to when the budget is nearly spent, else the requested one. -/
def effectiveModelName (flags : OrgFeatureFlags) (budgetStatus : Option BudgetStatus) : String :=
  match budgetStatus, deps.env.budgetConstrainedModel with
  | some status, some constrained =>
    if flags.billingEnforcement ∧ input.request.model = "auto" ∧
        status.remainingFraction < 5 / 100 ∧ constrained ≠ "" then constrained
    else input.request.model
  | _, _ => input.request.model

/-- Everything before the provider is called. -/
def routeRequest : Prog Routed := do
  let flags ← getOrgFeatureFlags orgId
  let budgetStatus ← (if flags.billingEnforcement then do
      pure (some (← enforceBudget deps.env orgId))
    else pure none : Prog (Option BudgetStatus))
  let decision ← resolveModelWithFallback deps.toDouble deps.env.registry routingRedis deps.env
    (command .random) (effectiveModelName deps input flags budgetStatus)
    ⟨flags.routingPreset, flags.abConfig⟩
  -- counted before the provider has answered
  (match decision.reason with
    | .abVariant model _ => recordAbSelection orgId model
    | _ => pure () : Prog Unit)
  (match budgetStatus with
    | some status => maybePublishBudgetWarning orgId status
    | none => pure () : Prog Unit)
  pure ⟨decision.resolved, flags⟩

variable (r : Routed)

def providerReq : ChatRequest := { input.request with model := r.resolved.providerModel }

def promptHashOf : String :=
  computePromptHash deps r.resolved.providerModel input.request.messages

/-- The provider call, coalesced with identical ones if the org has asked for it. -/
def runChat : Prog ChatResponse :=
  let doCall := callProviderResilientWithStats deps.env r.resolved.provider.name
    (command (.chat r.resolved.provider (providerReq input r)))
  if r.flags.requestDedup then
    withRequestDedup deps.env (dedupName orgId (promptHashOf deps input r)) doCall
  else doCall

/-- The response, and whether it is from the cache. -/
def cachedChat : Prog (ChatResponse × Bool) := do
  let promptHash := promptHashOf deps input r
  let model := r.resolved.providerModel
  let cached ← lookupCache deps orgId model promptHash (promptText input.request.messages)
    (r.flags.cacheTtlDays.getD deps.env.semanticCacheTtlDays)
  match cached with
  | .hit response =>
    recordCacheOutcome orgId "hit"
    pure (response, true)
  | .miss embedding =>
    recordCacheOutcome orgId "miss"
    let response ← runChat deps orgId input r
    -- a failed write means no caching this time
    tryCatch (storeCache orgId model promptHash embedding response) fun _ => pure ()
    pure (response, false)

def answerChat : Prog (ChatResponse × Bool) :=
  if r.flags.semanticCache then cachedChat deps orgId input r
  else do pure (← runChat deps orgId input r, false)

def usageParams (response : ChatResponse) : RecordUsageParams :=
  ⟨orgId, input.apiKeyId, r.resolved.providerModel, response.usage, response.id⟩

/-- The record of a successful request, if it has an idempotency key. -/
def storeReplay (response : ChatResponse) : Prog Unit :=
  match input.idempotencyKey with
  | none => pure ()
  | some key => storeIdempotentResult orgId key ⟨200, response⟩ deps.env.idempotencyTtlSeconds

def completeChat : Prog Reply := do
  let answer ← settle (answerChat deps orgId input r)
  match answer with
  | .error err =>
    match providerFailure err with
    | none => throw err
    | some failure =>
      emitProviderDegradedEvent orgId r.resolved.providerModel failure.code
      pure (providerFailureReply failure)
  | .ok (response, fromCache) =>
    -- a cache hit is no new provider cost
    (if fromCache then pure () else do
      let _ ← recordUsageAndOutbox (usageParams orgId input r response)
      pure () : Prog Unit)
    storeReplay deps orgId input response
    pure ⟨200, [], .response response⟩

/-- The streamed branch: the first chunk is awaited before the reply is begun, and a stream that
breaks later is neither recorded nor stored. -/
def streamChat : Prog Reply := do
  let req := providerReq input r
  let first ← settle (callProviderResilientWithStats deps.env r.resolved.provider.name
    (command (.streamOpen r.resolved.provider req)))
  match first with
  | .error err =>
    match providerFailure err with
    | none => throw err
    | some failure => pure (providerFailureReply failure)
  | .ok none => pure ⟨502, [], .failure "Provider returned an empty stream" "PROVIDER_ERROR" none⟩
  | .ok (some chunk) =>
    -- the headers have been sent: from here on the status is 200
    let (rest, error) ← command (.streamRest r.resolved.provider req chunk)
    let chunks := chunk :: rest
    match error with
    | some error => pure ⟨200, [], .brokenStream chunks error⟩
    | none =>
      let response := assemble r.resolved.provider.name r.resolved.providerModel chunks
      let _ ← recordUsageAndOutbox (usageParams orgId input r response)
      storeReplay deps orgId input response
      pure ⟨200, [], .stream response chunks⟩

def answerRequest : Prog Reply := do
  let r ← routeRequest deps orgId input
  if input.request.stream = some true then streamChat deps orgId input r
  else completeChat deps orgId input r

def chat : Prog Reply :=
  match input.idempotencyKey with
  | none => answerRequest deps orgId input
  | some key => do
    let replay ← getIdempotentReplay orgId key
    match replay with
    | some record =>
      pure ⟨record.statusCode, [("idempotent-replay", "true")], .response record.body⟩
    | none => answerRequest deps orgId input

end Chat

/-! ## `modules/chat/routes.ts`: the other routes -/

def cacheStats (orgId : OrgId) : Prog Reply := do
  let stats ← getCacheStats orgId
  pure ⟨200, [], .cacheStats stats⟩

def deleteCache (orgId : OrgId) (keepModel : Option String) : Prog Reply := do
  let deleted ← flushCache orgId keepModel
  pure ⟨200, [], .deleted deleted⟩

def abStats (orgId : OrgId) : Prog Reply := do
  let flags ← getOrgFeatureFlags orgId
  match flags.abConfig with
  | none => pure ⟨200, [], .abStats []⟩
  | some abConfig =>
    let counts ← getAbStats orgId abConfig
    pure ⟨200, [], .abStats counts⟩

/-! ## `packages/jobs/src/service.ts` and `modules/jobs/routes.ts` -/

inductive JobPriorityName
  | critical
  | high
  | normal
  | low
  deriving DecidableEq, Repr

/-- `JOB_PRIORITIES`. -/
def JobPriorityName.value : JobPriorityName → ℕ
  | .critical => 1
  | .high => 5
  | .normal => 10
  | .low => 20

def toPriorityValue (name : Option JobPriorityName) : ℕ := (name.getD .normal).value

/-- An `update` of one row, which throws if there is no such row. -/
def updateRow (orgId : OrgId) (id : Uuid) (update : JobUpdate) : Prog Unit := do
  let found ← command (.updateJob orgId id update)
  if found then pure () else throw (.error "No record was found for an update.")

def enqueue (orgId : OrgId) (id : Uuid) (type : String) (priority : ℕ) : Prog Unit := do
  let bullJobId ← command (.queueAdd ⟨id, orgId, type⟩ priority)
  updateRow orgId id (.enqueued bullJobId)

structure CreateJobInput where
  apiKeyId : Uuid
  payload : JobPayload
  priority : Option JobPriorityName

def createJob (orgId : OrgId) (input : CreateJobInput) : Prog Reply := do
  let flags ← getOrgFeatureFlags orgId
  (if flags.billingEnforcement then do
    let _ ← enforceBudget deps.env orgId
    pure () else pure () : Prog Unit)
  let priority := toPriorityValue input.priority
  -- the row is there before the queue knows of the job
  let id ← command (.createJobRow orgId input.apiKeyId input.payload priority)
  enqueue orgId id input.payload.type priority
  pure ⟨202, [], .accepted id .queued input.payload.type priority⟩

def listJobs (orgId : OrgId) (status : Option JobStatus) (limit : Option ℕ) : Prog Reply := do
  let rows ← command (.findJobs orgId status (min (limit.getD 50) 200))
  pure ⟨200, [], .jobs rows⟩

def getJob (orgId : OrgId) (id : Uuid) : Prog JobRow := do
  let job ← command (.findJob orgId id)
  match job with
  | none => throw (.app (notFoundError "Job not found"))
  | some row => pure row

def showJob (orgId : OrgId) (id : Uuid) : Prog Reply := do
  let row ← getJob orgId id
  pure ⟨200, [], .job row⟩

/-- The route has looked the job up before `replayJob` does; a job that is gone by then is not
replayed and not reported. -/
def replayJob (orgId : OrgId) (id : Uuid) : Prog Reply := do
  let _ ← getJob orgId id
  let job ← command (.findJob orgId id)
  match job with
  | none => pure ⟨202, [], .replayed id .queued⟩
  | some job =>
    if job.status ≠ .deadLetter then
      throw (.app (validationError
        ("Only DEAD_LETTER jobs can be replayed (job is " ++ job.status.text ++ ")")))
    else
      updateRow orgId job.id .requeued
      enqueue orgId job.id job.payload.type job.priority
      pure ⟨202, [], .replayed id .queued⟩

/-! ## `packages/jobs/src/queue.ts` and `modules/jobs/handlers.ts` -/

structure JobHandlerContext where
  jobRecordId : Uuid
  orgId : OrgId
  apiKeyId : Option Uuid

/-- Between 0 and 100, rounded down. -/
def normalizeProgress (percent : ℚ) : ℕ := (max 0 (min 100 ⌊percent⌋)).toNat

def markJobRunning (id : Uuid) (orgId : OrgId) (attempt : ℕ) : Prog Unit := do
  let _ ← command (.updateJob orgId id (.running attempt))
  command (.publishJobProgress ⟨id, 0, .running, none⟩)

def updateJobProgress (id : Uuid) (orgId : OrgId) (percent : ℚ) : Prog Unit := do
  let progress := normalizeProgress percent
  let _ ← command (.updateJob orgId id (.progress progress))
  command (.publishJobProgress ⟨id, progress, .running, none⟩)

def markJobCompleted (id : Uuid) (orgId : OrgId) (result : JobResult) : Prog Unit := do
  updateRow orgId id (.completed result)
  command (.publishJobProgress ⟨id, 100, .completed, none⟩)

def markJobFailed (id : Uuid) (orgId : OrgId) (message : String) (isFinalAttempt : Bool) :
    Prog Unit := do
  let _ ← command (.updateJob orgId id (.failed message isFinalAttempt))
  command (.publishJobProgress
    ⟨id, 0, if isFinalAttempt then .deadLetter else .failed, some message⟩)

/-- `reportProgress((done / total) * 100)`. -/
def reportProgress (ctx : JobHandlerContext) (done total : ℕ) : Prog Unit :=
  updateJobProgress ctx.jobRecordId ctx.orgId
    (deps.toDouble (deps.toDouble ((done : ℚ) / total) * 100))

/-- The texts from number `i` on, of `total` ones. -/
def embedFrom (ctx : JobHandlerContext) (total : ℕ) : ℕ → List String → Prog (List (List ℚ))
  | _, [] => pure []
  | i, text :: texts => do
    let vector ← command (.embed text)
    reportProgress deps ctx (i + 1) total
    let vectors ← embedFrom ctx total (i + 1) texts
    pure (vector :: vectors)

/-- The id of the usage record of a prompt is the same in every attempt of the job. -/
def jobRequestId (jobRecordId : Uuid) (promptIndex : ℕ) : String :=
  "job:" ++ jobRecordId.text ++ ":" ++ toString promptIndex

def billJobUsage (ctx : JobHandlerContext) (model : String) (promptIndex : ℕ) (usage : Usage) :
    Prog Unit :=
  match ctx.apiKeyId with
  | none => pure ()
  | some apiKeyId => do
    let _ ← recordUsageAndOutbox
      ⟨ctx.orgId, apiKeyId, model, usage, jobRequestId ctx.jobRecordId promptIndex⟩
    pure ()

/-- The prompts from number `i` on, of `total` ones. -/
def chatFrom (ctx : JobHandlerContext) (resolved : ResolvedModel) (total : ℕ) :
    ℕ → List String → Prog (List String)
  | _, [] => pure []
  | i, prompt :: prompts => do
    let res ← command (.chat resolved.provider
      ⟨resolved.providerModel, [⟨.user, prompt⟩], some false, none, none⟩)
    -- billed before the next prompt, so that a failed attempt has been billed for these
    billJobUsage ctx resolved.providerModel i res.usage
    reportProgress deps ctx (i + 1) total
    let responses ← chatFrom ctx resolved total (i + 1) prompts
    pure (res.message.content :: responses)

def runHandler (ctx : JobHandlerContext) : JobPayload → Prog JobResult
  | .batchEmbeddings texts => do
    let vectors ← embedFrom deps ctx texts.length 0 texts
    pure (.embedded vectors.length (vectors.head?.map List.length |>.getD 0))
  | .bulkChat model prompts =>
    match deps.env.registry.resolve model with
    | none => throw (.app (validationError ("Unknown model: " ++ model)))
    | some resolved => do
      let responses ← chatFrom deps ctx resolved prompts.length 0 prompts
      pure (.responses responses)

def runJob (entry : QueueEntry) : Prog Unit := do
  let orgId := entry.data.orgId
  let id := entry.data.jobRecordId
  -- `updateMany` of no row is no error: a job without a row fails only below
  markJobRunning id orgId (entry.attemptsMade + 1)
  let row ← command (.findJob orgId id)
  match row with
  | none => throw (.error ("Job record " ++ id.text ++ " not found for org"))
  | some row =>
    let result ← runHandler deps ⟨id, orgId, row.apiKeyId⟩ row.payload
    markJobCompleted id orgId result

/-- One run of the worker, for a job of `orgId`: a job that fails goes back to the queue while it
has attempts left, and the listener of failures marks its row, which nobody waits for. -/
def processJob (orgId : OrgId) : Prog Unit := do
  let ⟨entry, _⟩ ← command (.queueTake orgId)
  let result ← settle (runJob deps entry)
  match result with
  | .ok () => command (.queueComplete entry)
  | .error err =>
    command (.queueFail entry)
    let isFinalAttempt := decide (maxJobAttempts ≤ entry.attemptsMade + 1)
    -- a failed write is only logged
    let _ ← settle
      (markJobFailed entry.data.jobRecordId entry.data.orgId err.message isFinalAttempt)
    pure ()

/-! ## The system -/

inductive Op
  | chat (input : ChatInput)
  | cacheStats
  | deleteCache (keepModel : Option String)
  | abStats
  | createJob (input : CreateJobInput)
  | listJobs (status : Option JobStatus) (limit : Option ℕ)
  | getJob (id : Uuid)
  | replayJob (id : Uuid)
  | processJob

/-- The reply to a request; the worker has none. -/
abbrev Outcome := Except Thrown (Option Reply)

/-- The program of an operation of one org. -/
def handler (orgId : OrgId) : Op → Prog (Option Reply)
  | .chat input => some <$> chat deps orgId input
  | .cacheStats => some <$> cacheStats orgId
  | .deleteCache keepModel => some <$> deleteCache orgId keepModel
  | .abStats => some <$> abStats orgId
  | .createJob input => some <$> createJob deps orgId input
  | .listJobs status limit => some <$> listJobs orgId status limit
  | .getJob id => some <$> showJob orgId id
  | .replayJob id => some <$> replayJob orgId id
  | .processJob => do
    processJob deps orgId
    pure none

def gateway : System sig Pid Store Input Drift Op Outcome where
  exec := exec deps.similarity
  drift := drift
  code p op := (handler deps p.orgId op).run

abbrev GatewayWorld := World sig Pid Store

abbrev GatewayEvent := Event sig Pid

abbrev GatewayConfig := Config sig Pid Store Op Outcome

abbrev GatewayLabel := Label Pid Input Drift Op

/-- The reply or the error of a process that has ended. -/
def outcomeOf (c : GatewayConfig) (p : Pid) : Option Outcome :=
  (c.procs p).bind fun P => P.prog.returned

end Code

/-! ### Two tenants -/

def tenantA : OrgId := ⟨"00000000-0000-0000-0000-00000000000a", by decide⟩

def tenantB : OrgId := ⟨"00000000-0000-0000-0000-00000000000b", by decide⟩

/-- Nothing is looked up by similarity, and no prompt is hashed. -/
def plainDeps : Deps := ⟨.defaults, id, fun _ _ => 0, id⟩

def greeting (model : String) (idempotencyHeader : Option String) : ChatInput :=
  ⟨⟨model, [⟨.user, "hello"⟩], none, none, none⟩, tenantA, idempotencyHeader⟩

def greeted (id : String) : ChatResponse :=
  ⟨id, "openai", "gpt-4o-mini", ⟨.assistant, "hi"⟩, .stop, ⟨10, 5⟩⟩

/-- The next commands of one process, none of which fails. -/
def steps (p : Pid) (choices : List Choice) : List GatewayLabel :=
  choices.map fun choice => .step p ⟨choice, none⟩

/-- The provider call of a request that finds the circuit closed: from its start to its report. -/
def calling (answer : Except Thrown ChatResponse) : List Choice :=
  [.nothing, .nothing, .attempt (true, .closed), .chat answer, .report .closed, .nothing, .nothing]

end CloudMesh.Gateway
