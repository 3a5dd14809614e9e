import CloudMesh.Concurrent.Transcript
import CloudMesh.Outbox.Table

/-!
# The webhook dispatch subscriber

`dispatchWebhookEvent` of `packages/webhooks/src/service.ts`, with the handler of
`startWebhookDispatchSubscriber` around it and the loop of `subscribe` around that. Every write is a
transaction of its own. Nothing that is written names the event of the bus; here each row of
`webhook_deliveries` is kept together with the process that has written it, which no command reads.

## Main definitions

- `Store`, `Cmd`, `sig`, `exec` — the tables and the queue, and the commands on them
- `dispatchWebhookEvent` — the fan-out of one event
- `pump` — one delivery of a message of the bus
-/

namespace CloudMesh.Webhooks.Dispatch

open Concurrent

abbrev Pid := ℕ

/-! ## Tables -/

inductive WebhookEventType
  | jobCompleted
  | jobFailed
  | budgetWarning
  | budgetExceeded
  | apiKeyCreated
  | apiKeyRevoked
  | requestRateLimited
  | providerDegraded
  deriving DecidableEq

namespace WebhookEventType

def name : WebhookEventType → String
  | .jobCompleted => "job.completed"
  | .jobFailed => "job.failed"
  | .budgetWarning => "budget.warning"
  | .budgetExceeded => "budget.exceeded"
  | .apiKeyCreated => "api_key.created"
  | .apiKeyRevoked => "api_key.revoked"
  | .requestRateLimited => "request.rate_limited"
  | .providerDegraded => "provider.degraded"

/-- `WEBHOOK_EVENT_TYPES`. -/
def all : List WebhookEventType :=
  [.jobCompleted, .jobFailed, .budgetWarning, .budgetExceeded, .apiKeyCreated, .apiKeyRevoked,
    .requestRateLimited, .providerDegraded]

/-- `isWebhookEventType`, with the type. -/
def ofName? (s : String) : Option WebhookEventType := all.find? fun eventType => eventType.name = s

end WebhookEventType

/-- The types of an endpoint are checked when it is registered. -/
structure WebhookEndpoint where
  id : String
  orgId : String
  url : String
  secret : String
  eventTypes : List WebhookEventType
  isActive : Bool
  deriving DecidableEq

structure WebhookEvent where
  id : String
  orgId : String
  eventType : WebhookEventType
  payload : String
  deriving DecidableEq

structure WebhookDelivery where
  id : String
  orgId : String
  webhookEndpointId : String
  webhookEventId : String
  deriving DecidableEq

structure WebhookJobData where
  deliveryId : String
  orgId : String
  endpointId : String
  eventId : String
  url : String
  secret : String
  eventType : WebhookEventType
  payload : String
  deriving DecidableEq

/-- The tables and the queue. The deliveries are kept with their writers, and the ids of deleted
endpoints are not used again. -/
structure Store where
  endpoints : List WebhookEndpoint
  deleted : List String
  webhookEvents : List WebhookEvent
  webhookDeliveries : List (Pid × WebhookDelivery)
  queue : List WebhookJobData
  nodup : (endpoints.map WebhookEndpoint.id).Nodup

namespace Store

def empty : Store := ⟨[], [], [], [], [], List.nodup_nil⟩

variable (s : Store)

/-- `registerWebhookEndpoint`. -/
def register (endpoint : WebhookEndpoint) : Option Store :=
  if h : endpoint.id ∉ s.endpoints.map WebhookEndpoint.id then
    if endpoint.id ∈ s.deleted then none
    else some { s with
      endpoints := endpoint :: s.endpoints
      nodup := List.nodup_cons.mpr ⟨h, s.nodup⟩ }
  else none

/-- `deleteWebhookEndpoint`; the deliveries of the endpoint go with it. -/
def delete (endpointId : String) : Store where
  endpoints := s.endpoints.filter fun endpoint => endpoint.id ≠ endpointId
  deleted := endpointId :: s.deleted
  webhookEvents := s.webhookEvents
  webhookDeliveries := s.webhookDeliveries.filter fun row => row.2.webhookEndpointId ≠ endpointId
  queue := s.queue
  nodup := s.nodup.sublist (List.filter_sublist.map _)

def subscribed (orgId : String) (eventType : WebhookEventType) : List WebhookEndpoint :=
  s.endpoints.filter fun endpoint =>
    endpoint.orgId = orgId ∧ endpoint.isActive = true ∧ eventType ∈ endpoint.eventTypes

end Store

/-! ## Commands -/

inductive Cmd
  | createEvent (orgId : String) (eventType : WebhookEventType) (payload : String)
  | findEndpoints (orgId : String) (eventType : WebhookEventType)
  | createDelivery (orgId webhookEndpointId webhookEventId : String)
  | queueAdd (job : WebhookJobData)
  | ack
  | nak
  | term
  | onError (err : String)
  deriving DecidableEq

abbrev Res : Cmd → Type
  | .createEvent .. | .createDelivery .. => String
  | .findEndpoints .. => List WebhookEndpoint
  | .queueAdd _ | .ack | .nak | .term | .onError _ => Unit

/-- A command may fail with a message. -/
abbrev sig : Signature where
  Cmd := Cmd
  Ans c := Except String (Res c)

abbrev Prog (α : Type) := Handler sig String α

def command (c : sig.Cmd) : Prog (Res c) := ExceptT.mk (.call c)

/-- The command goes to no database. -/
def Cmd.isLocal : Cmd → Bool
  | .ack | .nak | .term | .onError _ => true
  | _ => false

/-- What the environment decides: the id that is drawn, and whether the command fails, which it may
do before or after it has been performed. -/
structure Input where
  id : String
  fault : Option (String × Bool)

def Store.perform (s : Store) (p : Pid) : (c : sig.Cmd) → String → Option (sig.Ans c × Store)
  | .createEvent orgId eventType payload, id =>
    some (.ok id, { s with webhookEvents := ⟨id, orgId, eventType, payload⟩ :: s.webhookEvents })
  | .findEndpoints orgId eventType, _ => some (.ok (s.subscribed orgId eventType), s)
  | .createDelivery orgId endpointId eventId, id =>
    if endpointId ∈ s.endpoints.map WebhookEndpoint.id then
      some (.ok id, { s with
        webhookDeliveries := (p, ⟨id, orgId, endpointId, eventId⟩) :: s.webhookDeliveries })
    else some (.error "Foreign key constraint violated", s)
  | .queueAdd job, _ => some (.ok (), { s with queue := job :: s.queue })
  | .ack, _ | .nak, _ | .term, _ | .onError _, _ => some (.ok (), s)

def exec (p : Pid) (c : sig.Cmd) (i : Input) (s : Store) : Option (sig.Ans c × Store) :=
  match i.fault with
  | none => s.perform p c i.id
  | some (err, applied) =>
    if c.isLocal then none
    else if applied then (s.perform p c i.id).map fun out => (.error err, out.2)
    else some (.error err, s)

/-! ## The subscriber -/

structure DispatchResult where
  eventId : String
  deliveryCount : ℕ

/-- One round of the loop. -/
def dispatchTo (orgId : String) (eventType : WebhookEventType) (payload eventId : String)
    (endpoint : WebhookEndpoint) : Prog Unit := do
  let deliveryId ← command (.createDelivery orgId endpoint.id eventId)
  command (.queueAdd ⟨deliveryId, orgId, endpoint.id, eventId, endpoint.url, endpoint.secret,
    eventType, payload⟩)

def dispatchAll (orgId : String) (eventType : WebhookEventType) (payload eventId : String) :
    List WebhookEndpoint → Prog Unit
  | [] => pure ()
  | endpoint :: endpoints => do
    dispatchTo orgId eventType payload eventId endpoint
    dispatchAll orgId eventType payload eventId endpoints

def dispatchWebhookEvent (orgId : String) (eventType : WebhookEventType) (payload : String) :
    Prog DispatchResult := do
  let eventId ← command (.createEvent orgId eventType payload)
  let endpoints ← command (.findEndpoints orgId eventType)
  dispatchAll orgId eventType payload eventId endpoints
  pure ⟨eventId, endpoints.length⟩

/-- What `parseEvent` makes of a message; `orgId` is read from the payload. -/
structure Message where
  envelope : Outbox.EventEnvelope
  orgId : Option String
  deriving DecidableEq

/-- The handler of `startWebhookDispatchSubscriber`. -/
def webhookDispatchHandler (message : Message) : Prog Unit :=
  match WebhookEventType.ofName? message.envelope.eventType, message.orgId with
  | some eventType, some orgId =>
    if orgId = "" then pure ()
    else do let _ ← dispatchWebhookEvent orgId eventType message.envelope.payload
  | _, _ => pure ()

/-- One round of the loop of `subscribe`; a message that cannot be parsed is never delivered
again. -/
def pump : Option Message → Prog Unit
  | none => do
    command .term
    command (.onError "InvalidEventError")
  | some message =>
    tryCatch (do
      webhookDispatchHandler message
      command .ack) fun err => do
        command .nak
        command (.onError err)

end CloudMesh.Webhooks.Dispatch
