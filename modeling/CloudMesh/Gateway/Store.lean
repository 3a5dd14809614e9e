import CloudMesh.Concurrent.System
import CloudMesh.Env
import CloudMesh.Json
import CloudMesh.Pricing
import CloudMesh.Routing
import CloudMesh.Tenant

/-!
# The gateway's Redis and Postgres

What the gateway's processes share, with one atomic command for each Redis command and each
statement or transaction on Postgres. What comes from outside is decided by the environment: the
providers' answers, the embeddings, random numbers, drawn ids, the circuits and the provider
statistics, which all tenants share on purpose, and whether a command fails. A command that fails
may have been executed all the same.

## Main definitions

- `Store`, `Cmd`, `sig` — the shared state and the commands
- `Store.perform` — what one command does
- `exec` — a command that may also fail
-/

namespace CloudMesh.Gateway

open Concurrent CircuitBreaker

/-! ## What is stored -/

structure OrgFeatureFlags where
  semanticCache : Bool
  requestDedup : Bool
  cacheTtlDays : Option ℕ
  billingEnforcement : Bool
  routingPreset : RoutingPreset
  abConfig : Option AbConfig
  deriving DecidableEq

/-- `DEFAULTS`. -/
def OrgFeatureFlags.defaults : OrgFeatureFlags :=
  ⟨false, false, none, false, defaultRoutingPreset, none⟩

structure IdempotentRecord where
  statusCode : ℕ
  body : ChatResponse
  deriving DecidableEq

/-- What a Redis key can hold. The JSON texts stand for what they parse to. -/
inductive RedisValue
  | text (s : String)
  | count (n : ℕ)
  | flags (flags : OrgFeatureFlags)
  | record (record : IdempotentRecord)
  | processing
  | response (response : ChatResponse)
  deriving DecidableEq

/-- A value and the clock at which it expires, if it does. -/
structure Entry where
  value : RedisValue
  expireAt : Option ℤ

/-- What the gateway reads of a row of `organizations`. -/
structure OrgRow where
  plan : String
  monthlyBudgetOverrideUsd : Option ℚ
  featureFlags : OrgFeatureFlags

structure RecordUsageParams where
  orgId : OrgId
  apiKeyId : Uuid
  model : String
  usage : Usage
  requestId : String
  deriving DecidableEq

/-- A text of Postgres has no U+0000. -/
def isText (s : String) : Bool := !s.toList.contains '\x00'

/-- The cost as `usage_records` holds it, or why its columns refuse the values: texts, `INTEGER`
counts and a `DECIMAL(12, 6)`, to which a cost that is not a number is a null. -/
def storedCost (model requestId : String) (usage : Usage) : Option ℚ → Except String ℚ
  | none => .error "null value in column \"cost_usd\" violates not-null constraint"
  | some cost =>
    if !isText model || !isText requestId then
      .error "invalid byte sequence for encoding \"UTF8\": 0x00"
    else if 2 ^ 31 ≤ usage.promptTokens ∨ 2 ^ 31 ≤ usage.completionTokens then
      .error "integer out of range"
    else if 1000000 ≤ cost + 1 / 2000000 then .error "numeric field overflow"
    else .ok cost

/-- What the columns hold is the cost that they have been given. -/
theorem eq_some_of_storedCost {model requestId : String} {usage : Usage} {costUsd : Option ℚ}
    {cost : ℚ} (h : storedCost model requestId usage costUsd = .ok cost) : costUsd = some cost := by
  unfold storedCost at h
  split at h
  · cases h
  · split at h
    · cases h
    · split at h
      · cases h
      · split at h <;> cases h
        rfl

/-- A row of `usage_records`. -/
structure UsageRow where
  params : RecordUsageParams
  costUsd : ℚ
  createdAt : ℤ
  deriving DecidableEq

/-- A row of `semantic_cache`. -/
structure CacheRow where
  orgId : OrgId
  model : String
  promptHash : String
  embedding : List ℚ
  response : ChatResponse
  createdAt : ℤ

inductive JobStatus
  | queued
  | running
  | completed
  | failed
  | deadLetter
  deriving DecidableEq, Repr

def JobStatus.text : JobStatus → String
  | .queued => "QUEUED"
  | .running => "RUNNING"
  | .completed => "COMPLETED"
  | .failed => "FAILED"
  | .deadLetter => "DEAD_LETTER"

/-- The payloads of the two job types. -/
inductive JobPayload
  | batchEmbeddings (texts : List String)
  | bulkChat (model : String) (prompts : List String)
  deriving DecidableEq, Repr

def JobPayload.type : JobPayload → String
  | .batchEmbeddings _ => "batch_embeddings"
  | .bulkChat .. => "bulk_chat"

inductive JobResult
  | embedded (count dimensions : ℕ)
  | responses (responses : List String)
  deriving DecidableEq, Repr

/-- A row of `jobs`. -/
structure JobRow where
  id : Uuid
  orgId : OrgId
  apiKeyId : Option Uuid
  bullJobId : Option String
  status : JobStatus
  priority : ℕ
  payload : JobPayload
  progress : ℕ
  result : Option JobResult
  error : Option String
  attempts : ℕ
  createdAt : ℤ
  startedAt : Option ℤ
  finishedAt : Option ℤ
  deriving DecidableEq

structure JobData where
  jobRecordId : Uuid
  orgId : OrgId
  type : String
  deriving DecidableEq

/-- What is published to the WebSockets of a job. -/
structure JobProgressEvent where
  jobId : Uuid
  progress : ℕ
  status : JobStatus
  error : Option String
  deriving DecidableEq

/-- A job in the queue. -/
structure QueueEntry where
  bullJobId : String
  data : JobData
  priority : ℕ
  attemptsMade : ℕ
  deriving DecidableEq

def maxJobAttempts : ℕ := 3

/-- The entry after a failed attempt, if it has another one left. -/
def QueueEntry.retried (entry : QueueEntry) : Option QueueEntry :=
  if entry.attemptsMade + 1 < maxJobAttempts then
    some { entry with attemptsMade := entry.attemptsMade + 1 }
  else none

theorem QueueEntry.data_retried {entry e : QueueEntry} (h : entry.retried = some e) :
    e.data = entry.data := by
  unfold QueueEntry.retried at h
  split at h <;> cases h
  rfl

/-- A row of `outbox_events`. -/
inductive OutboxEvent
  | usageRecorded (params : RecordUsageParams) (costUsd : ℚ)
  | budgetExceeded (orgId : OrgId) (spentUsd : ℚ) (budgetUsd : Option ℚ) (remainingUsd : ℚ)
  | budgetWarning (orgId : OrgId) (spentUsd : ℚ) (budgetUsd : Option ℚ) (remainingFraction : ℚ)
  | providerDegraded (orgId : OrgId) (provider reason : String) (occurredAt : ℤ)
  | jobCompleted (orgId : OrgId) (jobId : Uuid) (type : String)
  | jobFailed (orgId : OrgId) (jobId : Uuid) (type error : String)
  deriving DecidableEq

/-- The `orgId` of the payload. -/
def OutboxEvent.orgId : OutboxEvent → OrgId
  | .usageRecorded params _ => params.orgId
  | .budgetExceeded orgId .. | .budgetWarning orgId .. | .providerDegraded orgId ..
  | .jobCompleted orgId .. | .jobFailed orgId .. => orgId

def OutboxEvent.eventType : OutboxEvent → String
  | .usageRecorded .. => "usage.recorded"
  | .budgetExceeded .. => "budget.exceeded"
  | .budgetWarning .. => "budget.warning"
  | .providerDegraded .. => "provider.degraded"
  | .jobCompleted .. => "job.completed"
  | .jobFailed .. => "job.failed"

structure Store where
  clock : ℤ
  redis : String → Option Entry
  /-- The messages of each channel, the first one first; `none` is the signal of a failed leader. -/
  published : String → List (Option ChatResponse)
  organizations : OrgId → Option OrgRow
  billingPlans : String → Option ℚ
  usageRecords : List UsageRow
  semanticCache : List CacheRow
  jobs : List JobRow
  /-- The jobs that wait or are delayed. -/
  queue : List QueueEntry
  /-- The jobs that a worker has taken. -/
  active : List QueueEntry
  outbox : List OutboxEvent
  /-- The orgs of the jobs that have been added to the queue, the last one first. -/
  added : List OrgId
  /-- Every id that has been drawn. -/
  drawn : List String

/-- A store in which nothing has happened yet. -/
def Store.fresh (organizations : OrgId → Option OrgRow) (billingPlans : String → Option ℚ) :
    Store :=
  ⟨0, fun _ => none, fun _ => [], organizations, billingPlans, [], [], [], [], [], [], [], []⟩

/-! ## Keys -/

/-- The keys that belong to one org, by their encoders. -/
def idempotencyKey (orgId : OrgId) (key : String) : String :=
  "idempotency:" ++ orgId.text ++ ":" ++ key

def dedupKey (key : String) : String := "dedup:" ++ key

def resultChannel (key : String) : String := "dedup_result:" ++ key

def flagsKey (orgId : OrgId) : String := "feature_flags:" ++ orgId.text

def lockKeyFor (name : String) : String := "billing:lock:" ++ name

def statsKey (orgId : OrgId) (outcome : String) : String :=
  "cache_stats:" ++ orgId.text ++ ":" ++ outcome

def abCountKey (orgId : OrgId) (model : String) : String :=
  "routing:ab:" ++ orgId.text ++ ":" ++ model

def degradedKey (orgId : OrgId) (provider : String) : String :=
  "events:degraded:" ++ orgId.text ++ ":" ++ provider

/-- What a request is coalesced by: the org and the prompt. -/
def dedupName (orgId : OrgId) (promptHash : String) : String := orgId.text ++ ":" ++ promptHash

/-! ## Commands -/

/-- The updates of one row of `jobs`. -/
inductive JobUpdate
  | enqueued (bullJobId : String)
  | running (attempt : ℕ)
  | progress (percent : ℕ)
  | completed (result : JobResult)
  | failed (message : String) (isFinalAttempt : Bool)
  | requeued
  deriving DecidableEq

inductive Cmd
  | dateNow
  | random
  | sleep (ms : ℚ)
  | randomUUID
  | redisGet (key : String)
  | redisMGet (keys : List String)
  | redisSet (key : String) (value : RedisValue) (ttlMs : ℕ)
  | redisSetNx (key : String) (value : RedisValue) (ttlMs : ℕ)
  | redisDel (key : String)
  | redisIncr (key : String)
  | evalRelease (key token : String)
  | publish (channel : String) (message : Option ChatResponse)
  | subscribe (channel : String)
  | awaitMessage (channel : String) (since : ℕ)
  | evalAttempt (name : String) (now : ℤ) (config : CircuitBreakerConfig)
  | evalReport (name : String) (now : ℤ) (success : Bool) (config : CircuitBreakerConfig)
  | hgetState (name : String)
  | getProviderStats (name : String)
  | recordProviderOutcome (provider : String) (latencyMs : ℤ) (success : Bool)
  | findOrganization (orgId : OrgId)
  | findBillingPlan (planTier : String)
  | sumUsage (orgId : OrgId) (since : ℤ)
  | insertUsage (params : RecordUsageParams) (costUsd : Option ℚ)
  | writeOutboxEvent (event : OutboxEvent)
  | findExact (orgId : OrgId) (model promptHash : String) (ttlDays : ℕ)
  | findNearest (orgId : OrgId) (model : String) (embedding : List ℚ) (ttlDays : ℕ)
  | insertCache (orgId : OrgId) (model promptHash : String) (embedding : List ℚ)
      (response : ChatResponse)
  | deleteCache (orgId : OrgId) (keepModel : Option String)
  | createJobRow (orgId : OrgId) (apiKeyId : Uuid) (payload : JobPayload) (priority : ℕ)
  | findJob (orgId : OrgId) (id : Uuid)
  | findJobs (orgId : OrgId) (status : Option JobStatus) (take : ℕ)
  | updateJob (orgId : OrgId) (id : Uuid) (update : JobUpdate)
  | queueAdd (data : JobData) (priority : ℕ)
  | queueTake (orgId : OrgId)
  | queueComplete (entry : QueueEntry)
  | queueFail (entry : QueueEntry)
  | publishJobProgress (event : JobProgressEvent)
  | embed (text : String)
  | chat (provider : Provider) (req : ChatRequest)
  | streamOpen (provider : Provider) (req : ChatRequest)
  | streamRest (provider : Provider) (req : ChatRequest) (first : ChatChunk)
  deriving DecidableEq

/-- What a command answers if it does not fail. -/
abbrev Res : Cmd → Type
  | .dateNow => ℤ
  | .random => ℚ
  | .randomUUID => Uuid
  | .redisGet _ => Option RedisValue
  | .redisMGet _ => List (Option RedisValue)
  | .redisSetNx .. => Bool
  | .redisIncr _ => ℕ
  | .subscribe _ => ℕ
  | .awaitMessage .. => Option (Option ChatResponse)
  | .evalAttempt .. => Bool × CircuitState
  | .evalReport .. => CircuitState
  | .hgetState _ => Option CircuitState
  | .getProviderStats _ => ProviderStats
  | .findOrganization _ => Option OrgRow
  | .findBillingPlan _ => Option ℚ
  | .sumUsage .. => ℚ
  | .insertUsage .. => Bool
  | .findExact .. => Option ChatResponse
  | .findNearest .. => Option (ChatResponse × ℚ)
  | .deleteCache .. => ℕ
  | .createJobRow .. => Uuid
  | .findJob .. => Option JobRow
  | .findJobs .. => List JobRow
  | .updateJob .. => Bool
  | .queueAdd .. => String
  | .queueTake orgId => { entry : QueueEntry // entry.data.orgId = orgId }
  | .embed _ => List ℚ
  | .chat .. => ChatResponse
  | .streamOpen .. => Option ChatChunk
  | .streamRest .. => List ChatChunk × Option String
  | .sleep _ | .redisSet .. | .redisDel _ | .evalRelease .. | .publish ..
  | .recordProviderOutcome .. | .writeOutboxEvent _ | .insertCache .. | .queueComplete _
  | .queueFail _ | .publishJobProgress _ => Unit

abbrev sig : Signature where
  Cmd := Cmd
  Ans c := Except Thrown (Res c)

/-! ## What the commands do -/

/-- What the environment decides about one command. -/
inductive Choice
  | nothing
  | id (id : Uuid)
  | random (r : ℚ)
  | attempt (answer : Bool × CircuitState)
  | report (state : CircuitState)
  | state (state : Option CircuitState)
  | stats (stats : ProviderStats)
  | message (index : Option ℕ)
  | index (i : ℕ)
  | vector (v : List ℚ)
  | chat (answer : Except Thrown ChatResponse)
  | streamOpen (answer : Except Thrown (Option ChatChunk))
  | streamRest (chunks : List ChatChunk) (error : Option String)

/-- The environment's part of a step: its choice, and the error of a command that fails, with
whether the command has been executed all the same. -/
structure Input where
  choice : Choice
  fault : Option (Thrown × Bool)

def msPerDay : ℤ := 86400000

namespace JobUpdate

def apply (now : ℤ) (row : JobRow) : JobUpdate → JobRow
  | .enqueued bullJobId => { row with bullJobId := some bullJobId }
  | .running attempt =>
    { row with status := .running, attempts := attempt, startedAt := some now, progress := 0 }
  | .progress percent => { row with progress := percent }
  | .completed result =>
    { row with
      status := .completed, progress := 100, result := some result, finishedAt := some now
      error := none }
  | .failed message isFinalAttempt =>
    { row with
      status := if isFinalAttempt then .deadLetter else .failed
      error := some message
      finishedAt := if isFinalAttempt then some now else row.finishedAt }
  | .requeued =>
    { row with
      status := .queued, error := none, progress := 0, attempts := 0, startedAt := none
      finishedAt := none }

/-- The outbox event in the transaction of the update. -/
def event (row : JobRow) : JobUpdate → Option OutboxEvent
  | .completed _ => some (.jobCompleted row.orgId row.id row.payload.type)
  | .failed message true => some (.jobFailed row.orgId row.id row.payload.type message)
  | _ => none

theorem orgId_apply (update : JobUpdate) (now : ℤ) (row : JobRow) :
    (update.apply now row).orgId = row.orgId := by
  cases update <;> rfl

theorem orgId_event {update : JobUpdate} {row : JobRow} {event : OutboxEvent}
    (h : update.event row = some event) : event.orgId = row.orgId := by
  unfold JobUpdate.event at h
  split at h <;> cases h <;> rfl

end JobUpdate

namespace Store

variable (s : Store)

def setKey (key : String) (entry : Option Entry) : Store :=
  { s with redis := Function.update s.redis key entry }

/-- The value of a key, as `GET` answers it. -/
def value (key : String) : Option RedisValue := (s.redis key).map Entry.value

def expiry (ttlMs : ℕ) : Option ℤ := some (s.clock + ttlMs)

/-- `INCR`: the new count and the entry, which keeps its expiry. -/
def incremented (key : String) : Except Thrown (ℕ × Entry) :=
  match s.redis key with
  | none => .ok (1, ⟨.count 1, none⟩)
  | some ⟨.count n, expireAt⟩ => .ok (n + 1, ⟨.count (n + 1), expireAt⟩)
  | some _ => .error (.error "ERR value is not an integer or out of range")

/-- The entries of the semantic cache that a lookup of the org and model may find. -/
def liveCache (orgId : OrgId) (model : String) (ttlDays : ℕ) : List CacheRow :=
  s.semanticCache.filter fun row => row.orgId = orgId ∧ row.model = model ∧
    s.clock - ttlDays * msPerDay < row.createdAt

/-- The rows of `jobs` that an org can see. -/
def jobsOf (orgId : OrgId) : List JobRow := s.jobs.filter fun row => row.orgId = orgId

/-- `ON CONFLICT (request_id)`: the index is on all rows, those of other orgs as well. -/
def hasUsage (requestId : String) : Prop := ∃ row ∈ s.usageRecords, row.params.requestId = requestId

instance (requestId : String) : Decidable (s.hasUsage requestId) :=
  inferInstanceAs (Decidable (∃ row ∈ s.usageRecords, _))

/-- The insert of a usage record and its outbox event, which are one transaction. -/
def insertUsage (params : RecordUsageParams) (costUsd : Option ℚ) : Except Thrown Bool × Store :=
  match storedCost params.model params.requestId params.usage costUsd with
  | .error message => (.error (.error message), s)
  | .ok cost =>
    if s.hasUsage params.requestId then (.ok false, s)
    else (.ok true, { s with
      usageRecords := s.usageRecords ++ [⟨params, cost, s.clock⟩]
      outbox := s.outbox ++ [.usageRecorded params cost] })

/-- The update of one row that the org can see. -/
def updateJob (orgId : OrgId) (id : Uuid) (update : JobUpdate) : Bool × Store :=
  match (s.jobsOf orgId).find? fun row => row.id = id with
  | none => (false, s)
  | some row => (true, { s with
      jobs := s.jobs.map fun r =>
        if r.orgId = orgId ∧ r.id = id then update.apply s.clock r else r
      outbox := s.outbox ++ (update.event row).toList })

/-- A new row of `jobs`, with the defaults of the schema. -/
def newJob (id : Uuid) (orgId : OrgId) (apiKeyId : Uuid) (payload : JobPayload) (priority : ℕ) :
    JobRow where
  id := id
  orgId := orgId
  apiKeyId := some apiKeyId
  bullJobId := none
  status := .queued
  priority := priority
  payload := payload
  progress := 0
  result := none
  error := none
  attempts := 0
  createdAt := s.clock
  startedAt := none
  finishedAt := none

/-- BullMQ numbers the jobs of a queue, which are those of all orgs. -/
def nextBullJobId : String := toString (s.added.length + 1)

/-- The jobs of one org in the queue. -/
def queueOf (orgId : OrgId) : List { entry : QueueEntry // entry.data.orgId = orgId } :=
  s.queue.filterMap fun entry => if h : entry.data.orgId = orgId then some ⟨entry, h⟩ else none

/-- What a command answers and does if it does not fail; `none` if the environment cannot decide
so. -/
def perform (similarity : List ℚ → List ℚ → ℚ) (c : sig.Cmd) (choice : Choice) :
    Option (sig.Ans c × Store) :=
  match c with
  | .dateNow => some (.ok s.clock, s)
  | .random =>
    match choice with
    | .random r => some (.ok r, s)
    | _ => none
  | .sleep _ => some (.ok (), s)
  | .randomUUID =>
    match choice with
    | .id id =>
      if id.text ∈ s.drawn then none else some (.ok id, { s with drawn := id.text :: s.drawn })
    | _ => none
  | .redisGet key => some (.ok (s.value key), s)
  | .redisMGet keys => some (.ok (keys.map s.value), s)
  | .redisSet key value ttlMs => some (.ok (), s.setKey key (some ⟨value, s.expiry ttlMs⟩))
  | .redisSetNx key value ttlMs =>
    match s.redis key with
    | some _ => some (.ok false, s)
    | none => some (.ok true, s.setKey key (some ⟨value, s.expiry ttlMs⟩))
  | .redisDel key => some (.ok (), s.setKey key none)
  | .redisIncr key =>
    match s.incremented key with
    | .ok (n, entry) => some (.ok n, s.setKey key (some entry))
    | .error err => some (.error err, s)
  | .evalRelease key token =>
    -- the script deletes the key only if it still holds the token
    match s.redis key with
    | some ⟨.text t, _⟩ => some (.ok (), if t = token then s.setKey key none else s)
    | _ => some (.ok (), s)
  | .publish channel message => some (.ok (), { s with
      published := Function.update s.published channel (s.published channel ++ [message]) })
  | .subscribe channel => some (.ok (s.published channel).length, s)
  | .awaitMessage channel since =>
    match choice with
    | .message none => some (.ok none, s)
    | .message (some i) =>
      match (s.published channel)[since + i]? with
      | some message => some (.ok (some message), s)
      | none => none
    | _ => none
  | .evalAttempt .. =>
    match choice with
    | .attempt answer => some (.ok answer, s)
    | _ => none
  | .evalReport .. =>
    match choice with
    | .report state => some (.ok state, s)
    | _ => none
  | .hgetState _ =>
    match choice with
    | .state state => some (.ok state, s)
    | _ => none
  | .getProviderStats _ =>
    match choice with
    | .stats stats => some (.ok stats, s)
    | _ => none
  | .recordProviderOutcome .. => some (.ok (), s)
  | .findOrganization id => some (.ok (s.organizations id), s)
  | .findBillingPlan planTier => some (.ok (s.billingPlans planTier), s)
  | .sumUsage id since =>
    let rows := s.usageRecords.filter fun row => row.params.orgId = id ∧ since ≤ row.createdAt
    some (.ok (rows.map UsageRow.costUsd).sum, s)
  | .insertUsage params costUsd => some (s.insertUsage params costUsd)
  | .writeOutboxEvent event => some (.ok (), { s with outbox := s.outbox ++ [event] })
  | .findExact id model promptHash ttlDays =>
    let rows := (s.liveCache id model ttlDays).filter fun row => row.promptHash = promptHash
    -- the rows are in the order of their creation
    some (.ok (rows.getLast?.map CacheRow.response), s)
  | .findNearest id model embedding ttlDays =>
    match choice with
    | .index i =>
      -- the index is approximate: which of the rows it finds is given
      some (.ok ((s.liveCache id model ttlDays)[i]?.map fun row =>
        (row.response, similarity row.embedding embedding)), s)
    | _ => none
  | .insertCache id model promptHash embedding response => some (.ok (), { s with
      semanticCache := s.semanticCache ++ [⟨id, model, promptHash, embedding, response, s.clock⟩] })
  | .deleteCache id keepModel =>
    -- without a model to keep, every row of the org goes
    let doomed := fun row : CacheRow => decide (row.orgId = id ∧ some row.model ≠ keepModel)
    some (.ok (s.semanticCache.filter doomed).length,
      { s with semanticCache := s.semanticCache.filter fun row => !doomed row })
  | .createJobRow id apiKeyId payload priority =>
    match choice with
    | .id jobId =>
      if jobId.text ∈ s.drawn then none
      else some (.ok jobId, { s with
        jobs := s.jobs ++ [s.newJob jobId id apiKeyId payload priority]
        drawn := jobId.text :: s.drawn })
    | _ => none
  | .findJob id jobId => some (.ok ((s.jobsOf id).find? fun row => row.id = jobId), s)
  | .findJobs id status take =>
    let rows := (s.jobsOf id).filter fun row => status.all fun st => row.status = st
    let latestFirst := rows.insertionSort fun a b => b.createdAt ≤ a.createdAt
    some (.ok (latestFirst.take take), s)
  | .updateJob id jobId update =>
    let out := s.updateJob id jobId update
    some (.ok out.1, out.2)
  | .queueAdd data priority => some (.ok s.nextBullJobId, { s with
      queue := s.queue ++ [⟨s.nextBullJobId, data, priority, 0⟩]
      added := data.orgId :: s.added })
  | .queueTake id =>
    match choice with
    | .index i =>
      match (s.queueOf id)[i]? with
      | some entry => some (.ok entry, { s with
        queue := s.queue.erase entry.1
        active := s.active ++ [entry.1] })
      | none => none
    | _ => none
  | .queueComplete entry => some (.ok (), { s with active := s.active.erase entry })
  | .queueFail entry => some (.ok (), { s with
      active := s.active.erase entry
      queue := s.queue ++ entry.retried.toList })
  | .publishJobProgress _ => some (.ok (), s)
  | .embed _ =>
    match choice with
    | .vector v => some (.ok v, s)
    | _ => none
  | .chat .. =>
    match choice with
    | .chat answer => some (answer, s)
    | _ => none
  | .streamOpen .. =>
    match choice with
    | .streamOpen answer => some (answer, s)
    | _ => none
  | .streamRest .. =>
    match choice with
    | .streamRest chunks error => some (.ok (chunks, error), s)
    | _ => none

/-- Everything that one command can change. -/
inductive Effect : Cmd → Store → Prop
  | same (c : Cmd) : Effect c s
  | draw (id : Uuid) : Effect .randomUUID { s with drawn := id.text :: s.drawn }
  | set (key : String) (value : RedisValue) (ttlMs : ℕ) :
      Effect (.redisSet key value ttlMs) (s.setKey key (some ⟨value, s.expiry ttlMs⟩))
  | setNx (key : String) (value : RedisValue) (ttlMs : ℕ) (h : s.redis key = none) :
      Effect (.redisSetNx key value ttlMs) (s.setKey key (some ⟨value, s.expiry ttlMs⟩))
  | del (key : String) : Effect (.redisDel key) (s.setKey key none)
  | release (key token : String) (h : s.value key = some (.text token)) :
      Effect (.evalRelease key token) (s.setKey key none)
  | incr (key : String) (n : ℕ) (expireAt : Option ℤ)
      (h : ∀ v, s.value key = some v → ∃ m, v = .count m) :
      Effect (.redisIncr key) (s.setKey key (some ⟨.count n, expireAt⟩))
  | publish (channel : String) (message : Option ChatResponse) : Effect (.publish channel message)
      { s with published :=
        Function.update s.published channel (s.published channel ++ [message]) }
  | insertUsage (params : RecordUsageParams) (cost : ℚ) (h : ¬s.hasUsage params.requestId) :
      Effect (.insertUsage params (some cost)) { s with
        usageRecords := s.usageRecords ++ [⟨params, cost, s.clock⟩]
        outbox := s.outbox ++ [.usageRecorded params cost] }
  | writeOutboxEvent (event : OutboxEvent) :
      Effect (.writeOutboxEvent event) { s with outbox := s.outbox ++ [event] }
  | insertCache (orgId : OrgId) (model promptHash : String) (embedding : List ℚ)
      (response : ChatResponse) : Effect (.insertCache orgId model promptHash embedding response)
      { s with semanticCache :=
        s.semanticCache ++ [⟨orgId, model, promptHash, embedding, response, s.clock⟩] }
  | deleteCache (orgId : OrgId) (keepModel : Option String) : Effect (.deleteCache orgId keepModel)
      { s with semanticCache := s.semanticCache.filter fun row =>
        !decide (row.orgId = orgId ∧ some row.model ≠ keepModel) }
  | createJobRow (id : Uuid) (orgId : OrgId) (apiKeyId : Uuid) (payload : JobPayload)
      (priority : ℕ) : Effect (.createJobRow orgId apiKeyId payload priority)
      { s with
        jobs := s.jobs ++ [s.newJob id orgId apiKeyId payload priority]
        drawn := id.text :: s.drawn }
  | updateJob (orgId : OrgId) (id : Uuid) (update : JobUpdate) :
      Effect (.updateJob orgId id update) (s.updateJob orgId id update).2
  | queueAdd (data : JobData) (priority : ℕ) : Effect (.queueAdd data priority)
      { s with
        queue := s.queue ++ [⟨s.nextBullJobId, data, priority, 0⟩]
        added := data.orgId :: s.added }
  | queueTake (entry : QueueEntry) : Effect (.queueTake entry.data.orgId)
      { s with
        queue := s.queue.erase entry
        active := s.active ++ [entry] }
  | queueComplete (entry : QueueEntry) :
      Effect (.queueComplete entry) { s with active := s.active.erase entry }
  | queueFail (entry : QueueEntry) : Effect (.queueFail entry)
      { s with
        active := s.active.erase entry
        queue := s.queue ++ entry.retried.toList }

variable {s} {s₁ : Store} {similarity : List ℚ → List ℚ → ℚ} {c : sig.Cmd} {choice : Choice}
  {r : sig.Ans c}

theorem effect_of_perform (h : s.perform similarity c choice = some (r, s₁)) : s.Effect c s₁ := by
  cases c with
  | dateNow | sleep | redisGet | redisMGet | subscribe | recordProviderOutcome | findOrganization
  | findBillingPlan | sumUsage | findExact | findJob | findJobs | publishJobProgress =>
    cases h
    exact .same _
  | random | evalAttempt | evalReport | hgetState | getProviderStats | findNearest | embed | chat
  | streamOpen | streamRest =>
    cases choice <;> cases h
    exact .same _
  | randomUUID =>
    cases choice with
    | id id =>
      simp only [perform] at h
      split at h <;> cases h
      exact .draw id
    | _ => cases h
  | redisSet key value ttlMs =>
    cases h
    exact .set key value ttlMs
  | redisSetNx key value ttlMs =>
    simp only [perform] at h
    split at h <;> cases h
    · exact .same _
    · exact .setNx key value ttlMs ‹_›
  | redisDel key =>
    cases h
    exact .del key
  | redisIncr key =>
    simp only [perform, incremented] at h
    split at h
    · rename_i heq
      split at heq <;> cases heq <;> cases h
      · exact .incr key _ _ (by simp [value, ‹s.redis key = none›])
      · exact .incr key _ _ (by simp [value, *])
    · cases h
      exact .same _
  | evalRelease key token =>
    simp only [perform] at h
    split at h <;> cases h
    · rename_i t expireAt heq
      split
      · rename_i htoken
        exact .release key token (by simp [value, heq, htoken])
      · exact .same _
    · exact .same _
  | publish channel message =>
    cases h
    exact .publish channel message
  | awaitMessage channel since =>
    simp only [perform] at h
    split at h
    · cases h
      exact .same _
    · split at h <;> cases h
      exact .same _
    · cases h
  | insertUsage params costUsd =>
    simp only [perform, Store.insertUsage] at h
    split at h
    · cases h
      exact .same _
    · rename_i cost hcost
      obtain rfl := eq_some_of_storedCost hcost
      split at h <;> cases h
      · exact .same _
      · exact .insertUsage params cost ‹_›
  | writeOutboxEvent event =>
    cases h
    exact .writeOutboxEvent event
  | insertCache orgId model promptHash embedding response =>
    cases h
    exact .insertCache orgId model promptHash embedding response
  | deleteCache orgId keepModel =>
    cases h
    exact .deleteCache orgId keepModel
  | createJobRow orgId apiKeyId payload priority =>
    cases choice with
    | id id =>
      simp only [perform] at h
      split at h <;> cases h
      exact .createJobRow id orgId apiKeyId payload priority
    | _ => cases h
  | updateJob orgId id update =>
    cases h
    exact .updateJob orgId id update
  | queueAdd data priority =>
    cases h
    exact .queueAdd data priority
  | queueTake orgId =>
    cases choice with
    | index i =>
      simp only [perform] at h
      split at h <;> cases h
      rename_i entry _
      obtain ⟨entry, rfl⟩ := entry
      exact .queueTake entry
    | _ => cases h
  | queueComplete entry =>
    cases h
    exact .queueComplete entry
  | queueFail entry =>
    cases h
    exact .queueFail entry

end Store

/-- Processes are known by the org they work for and a number. -/
structure Pid where
  orgId : OrgId
  n : ℕ
  deriving DecidableEq

/-- The commands that do not leave the process. -/
def Cmd.isLocal : Cmd → Bool
  | .dateNow | .random | .sleep _ | .randomUUID => true
  | _ => false

/-- A command is performed, or it fails. -/
def exec (similarity : List ℚ → List ℚ → ℚ) (_ : Pid) (c : sig.Cmd) (i : Input) (s : Store) :
    Option (sig.Ans c × Store) :=
  match i.fault with
  | none => s.perform similarity c i.choice
  | some (err, applied) =>
    if c.isLocal then none
    else if applied then (s.perform similarity c i.choice).map fun out => (.error err, out.2)
    else some (.error err, s)

theorem effect_of_exec {similarity : List ℚ → List ℚ → ℚ} {p : Pid} {c : sig.Cmd} {i : Input}
    {s s₁ : Store} {r : sig.Ans c} (h : exec similarity p c i s = some (r, s₁)) :
    s.Effect c s₁ := by
  unfold exec at h
  split at h
  · exact Store.effect_of_perform h
  · split at h
    · cases h
    · split at h
      · obtain ⟨out, hout, heq⟩ := Option.map_eq_some_iff.mp h
        cases heq
        exact Store.effect_of_perform hout
      · cases h
        exact .same _

/-- What an answer says of the execution of a command. -/
theorem exec_cases {similarity : List ℚ → List ℚ → ℚ} {p : Pid} {cmd : sig.Cmd} {i : Input}
    {s s' : Store} {r : sig.Ans cmd} (h : exec similarity p cmd i s = some (r, s')) :
    s.perform similarity cmd i.choice = some (r, s') ∨ ∃ err, r = .error err ∧
      (s' = s ∨ ∃ r', s.perform similarity cmd i.choice = some (r', s')) := by
  unfold exec at h
  split at h
  · exact .inl h
  · rename_i err applied hfault
    split at h
    · cases h
    · split at h
      · obtain ⟨out, hout, heq⟩ := Option.map_eq_some_iff.mp h
        cases heq
        exact .inr ⟨err, rfl, .inr ⟨out.1, hout⟩⟩
      · cases h
        exact .inr ⟨err, rfl, .inl rfl⟩

/-- Time passes, or somebody changes an org or the plans. -/
inductive Drift
  | tick (d : ℕ)
  | setOrganization (orgId : OrgId) (row : Option OrgRow)
  | setBillingPlan (planTier : String) (monthlyBudgetUsd : Option ℚ)

def drift : Drift → Store → Option Store
  | .tick d, s => some { s with
      clock := s.clock + d
      redis := fun key => (s.redis key).filter fun entry =>
        entry.expireAt.all fun expireAt => s.clock + d < expireAt }
  | .setOrganization orgId row, s =>
    some { s with organizations := Function.update s.organizations orgId row }
  | .setBillingPlan planTier budget, s =>
    some { s with billingPlans := Function.update s.billingPlans planTier budget }

/-! ## Values -/

theorem value_setKey {s : Store} {k k' : String} {v : RedisValue} {entry : Option Entry}
    (h : (s.setKey k entry).value k' = some v) :
    k' = k ∧ entry.map Entry.value = some v ∨ s.value k' = some v := by
  by_cases hk : k' = k
  · subst hk
    exact .inl ⟨rfl, by simpa [Store.value, Store.setKey] using h⟩
  · exact .inr (by simpa [Store.value, Store.setKey, hk] using h)

/-- Where the value of a key after a command comes from. -/
theorem value_of_effect {s s' : Store} {cmd : Cmd} {k : String} {v : RedisValue}
    (h : s.Effect cmd s') (hv : s'.value k = some v) : s.value k = some v ∨
      (∃ ttlMs, cmd = .redisSet k v ttlMs) ∨ (∃ ttlMs, cmd = .redisSetNx k v ttlMs) ∨
      ∃ n, v = .count n := by
  cases h with
  | set k' value ttlMs =>
    rcases value_setKey hv with ⟨rfl, hval⟩ | hold
    · cases hval
      exact .inr (.inl ⟨ttlMs, rfl⟩)
    · exact .inl hold
  | setNx k' value ttlMs =>
    rcases value_setKey hv with ⟨rfl, hval⟩ | hold
    · cases hval
      exact .inr (.inr (.inl ⟨ttlMs, rfl⟩))
    · exact .inl hold
  | incr k' n expireAt =>
    rcases value_setKey hv with ⟨rfl, hval⟩ | hold
    · cases hval
      exact .inr (.inr (.inr ⟨n, rfl⟩))
    · exact .inl hold
  | del | release =>
    rcases value_setKey hv with ⟨rfl, hval⟩ | hold
    · cases hval
    · exact .inl hold
  | updateJob =>
    refine .inl ?_
    unfold Store.updateJob at hv
    split at hv <;> exact hv
  | _ => exact .inl hv

/-- A command that is answered has been performed. -/
theorem perform_of_exec {similarity : List ℚ → List ℚ → ℚ} {p : Pid} {c : sig.Cmd} {i : Input}
    {s s' : Store} {r : Res c} (h : exec similarity p c i s = some (.ok r, s')) :
    s.perform similarity c i.choice = some (.ok r, s') := by
  rcases exec_cases h with hperform | ⟨err, heq, -⟩
  · exact hperform
  · cases heq

theorem value_of_redisGet {similarity : List ℚ → List ℚ → ℚ} {p : Pid} {k : String} {i : Input}
    {s s' : Store} {v : Option RedisValue}
    (h : exec similarity p (.redisGet k) i s = some (.ok v, s')) : s.value k = v := by
  cases perform_of_exec h
  rfl

/-- Only a `PUBLISH` adds a message. -/
theorem published_of_effect {s s' : Store} {cmd : Cmd} {channel : String}
    {message : Option ChatResponse} (h : s.Effect cmd s') (hm : message ∈ s'.published channel) :
    message ∈ s.published channel ∨ cmd = .publish channel message := by
  cases h with
  | publish channel' message' =>
    by_cases hch : channel = channel'
    · subst hch
      simp only [Function.update_self, List.mem_append, List.mem_singleton] at hm
      exact hm.imp id fun heq => by rw [heq]
    · exact .inl (by simpa [hch] using hm)
  | updateJob =>
    refine .inl ?_
    unfold Store.updateJob at hm
    split at hm <;> exact hm
  | _ => exact .inl hm

theorem published_of_awaitMessage {similarity : List ℚ → List ℚ → ℚ} {p : Pid} {channel : String}
    {since : ℕ} {i : Input} {s s' : Store} {message : Option ChatResponse}
    (h : exec similarity p (.awaitMessage channel since) i s = some (.ok (some message), s')) :
    message ∈ s.published channel := by
  have hperform := perform_of_exec h
  simp only [Store.perform] at hperform
  split at hperform
  · cases hperform
  · split at hperform
    · rename_i heq
      cases hperform
      exact List.mem_of_getElem? heq
    · cases hperform
  · cases hperform

theorem value_of_drift {e : Drift} {s s' : Store} {k : String} {v : RedisValue}
    (h : drift e s = some s') (hv : s'.value k = some v) : s.value k = some v := by
  cases e with
  | tick n =>
    cases h
    obtain ⟨entry, hentry, rfl⟩ := Option.map_eq_some_iff.mp hv
    exact Option.map_eq_some_iff.mpr ⟨entry, (Option.filter_eq_some_iff.mp hentry).1, rfl⟩
  | setOrganization | setBillingPlan =>
    cases h
    exact hv

end CloudMesh.Gateway
