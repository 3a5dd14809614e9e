import CloudMesh.Concurrent.Transcript
import CloudMesh.Json
import Mathlib.Data.List.Nodup

/-!
# The outbox

`packages/outbox/src/outbox.ts` and the publish side of `packages/events/src/bus.ts`. The rows of
`outbox_events` are written by the transactions of others and only marked here; a scan of the
pending rows is ordered by `createdAt`, and the database chooses the order of rows that were created
at the same time.

## Main definitions

- `OutboxEvent`, `Table` — the rows, whose ids differ
- `Cmd`, `sig`, `exec` — what a poller does, and what it does to the table
- `EventPublisher` — a publisher does not touch the table
- `pollOutbox`, `startOutboxPoller` — the pollers
-/

namespace CloudMesh.Outbox

open Concurrent

/-! ## Rows -/

/-- A row of `outbox_events`; the payload is given by its JSON text. -/
structure OutboxEvent where
  id : String
  eventType : String
  payload : String
  publishedAt : Option ℤ
  createdAt : ℤ
  deriving DecidableEq

namespace OutboxEvent

/-- The row as it was written. -/
def written (row : OutboxEvent) : OutboxEvent := { row with publishedAt := none }

@[simp] theorem written_id (row : OutboxEvent) : row.written.id = row.id := rfl

theorem written_eq {row : OutboxEvent} (h : row.publishedAt = none) : row.written = row := by
  cases row
  cases h
  rfl

/-- `update({ where: { id }, data: { publishedAt } })` on one row. -/
def marked (id : String) (publishedAt : ℤ) (row : OutboxEvent) : OutboxEvent :=
  if row.id = id then { row with publishedAt := some publishedAt } else row

variable {id : String} {publishedAt : ℤ} {row : OutboxEvent}

@[simp] theorem marked_written : (row.marked id publishedAt).written = row.written := by
  unfold marked
  split <;> rfl

@[simp] theorem marked_id : (row.marked id publishedAt).id = row.id := by
  rw [← written_id, marked_written, written_id]

theorem marked_of_ne (h : row.id ≠ id) : row.marked id publishedAt = row := if_neg h

end OutboxEvent

/-- `outbox_events`, in the order of the inserts. -/
structure Table where
  rows : List OutboxEvent
  nodup : (rows.map OutboxEvent.id).Nodup

namespace Table

def empty : Table := ⟨[], List.nodup_nil⟩

variable (s : Table)

def pending : List OutboxEvent := s.rows.filter fun row => row.publishedAt = none

def mark (id : String) (publishedAt : ℤ) : Table where
  rows := s.rows.map (OutboxEvent.marked id publishedAt)
  nodup := by
    have hids : (s.rows.map (OutboxEvent.marked id publishedAt)).map OutboxEvent.id =
        s.rows.map OutboxEvent.id := by simp [Function.comp_def]
    rw [hids]
    exact s.nodup

/-- An insert of a pending row with an id that no row has. -/
def insert (row : OutboxEvent) : Option Table :=
  if h : row.id ∉ s.rows.map OutboxEvent.id then
    some ⟨s.rows ++ [row.written], by
      rw [List.map_append, List.nodup_append]
      refine ⟨s.nodup, List.nodup_singleton _, ?_⟩
      rintro id hid id' hid' rfl
      exact h (List.mem_singleton.mp hid' ▸ hid)⟩
  else none

/-- What the rows were written with. -/
def contents : List OutboxEvent := s.rows.map OutboxEvent.written

variable {s}

theorem mem_pending {row : OutboxEvent} :
    row ∈ s.pending ↔ row ∈ s.rows ∧ row.publishedAt = none := by
  simp [pending]

theorem eq_of_id {row row' : OutboxEvent} (h : row ∈ s.rows) (h' : row' ∈ s.rows)
    (hid : row.id = row'.id) : row = row' :=
  List.inj_on_of_nodup_map s.nodup h h' hid

@[simp] theorem contents_mark (id : String) (publishedAt : ℤ) :
    (s.mark id publishedAt).contents = s.contents := by
  simp [contents, mark, Function.comp_def]

theorem rows_of_insert {row : OutboxEvent} {s' : Table} (h : s.insert row = some s') :
    s'.rows = s.rows ++ [row.written] := by
  unfold insert at h
  split at h
  · cases h
    rfl
  · cases h

end Table

/-! ## Commands -/

inductive Cmd
  | findMany (take : ℕ)
  | update (id : String) (publishedAt : ℤ)
  | dateNow
  /-- `js.publish` with its `msgID`. -/
  | jsPublish (subject data msgID : String)
  | log (msg eventType eventId payload : String)
  | onError (err : String)
  deriving DecidableEq

abbrev Res : Cmd → Type
  | .findMany _ => List OutboxEvent
  | .dateNow => ℤ
  | .update .. | .jsPublish .. | .log .. | .onError _ => Unit

/-- A command may fail with a message. -/
abbrev sig : Signature where
  Cmd := Cmd
  Ans c := Except String (Res c)

abbrev Prog (α : Type) := Handler sig String α

def command (c : sig.Cmd) : Prog (Res c) := ExceptT.mk (.call c)

/-- The command is on the table. -/
def Cmd.onTable : Cmd → Bool
  | .findMany _ | .update .. => true
  | _ => false

/-- What the environment decides: the clock, the order of a scan, and whether the command fails,
which it may do before or after it has been performed. -/
inductive Choice
  | nothing
  | now (time : ℤ)
  | arranged (rows : List OutboxEvent)

structure Input where
  choice : Choice
  fault : Option (String × Bool)

/-- The command has been performed, whatever the process is told. -/
def Input.isPerformed (i : Input) : Bool :=
  match i.fault with
  | none => true
  | some (_, applied) => applied

/-- The pending rows in an order by `createdAt`. -/
def Table.Arranges (s : Table) (rows : List OutboxEvent) : Prop :=
  rows.Perm s.pending ∧ rows.Pairwise fun a b => a.createdAt ≤ b.createdAt

instance (s : Table) (rows : List OutboxEvent) : Decidable (s.Arranges rows) :=
  inferInstanceAs (Decidable (_ ∧ _))

def Table.perform (s : Table) : (c : sig.Cmd) → Choice → Option (sig.Ans c × Table)
  | .findMany take, .arranged rows =>
    if s.Arranges rows then some (.ok (rows.take take), s) else none
  | .update id publishedAt, .nothing =>
    some (if id ∈ s.rows.map OutboxEvent.id then (.ok (), s.mark id publishedAt)
      else (.error "No record was found for an update.", s))
  | .dateNow, .now time => some (.ok time, s)
  | .jsPublish .., .nothing | .log .., .nothing | .onError _, .nothing => some (.ok (), s)
  | _, _ => none

/-- The table belongs to all processes. -/
def exec (c : sig.Cmd) (i : Input) (s : Table) : Option (sig.Ans c × Table) :=
  match i.fault with
  | none => s.perform c i.choice
  | some (err, applied) =>
    if applied then (s.perform c i.choice).map fun out => (.error err, out.2)
    else some (.error err, s)

/-- What is answered has been performed. -/
theorem isPerformed_of_exec {c : sig.Cmd} {i : Input} {s s' : Table} {a : Res c}
    (h : exec c i s = some (.ok a, s')) : i.isPerformed = true := by
  unfold exec at h
  unfold Input.isPerformed
  split at h
  · rfl
  · split at h
    · assumption
    · cases h

/-! ## Publishers -/

/-- A publisher leaves the table alone. -/
structure EventPublisher where
  publish : (eventType payload eventId : String) → Prog Unit
  foreign : ∀ eventType payload eventId,
    Handler.Every (fun c : Cmd => c.onTable = false) (publish eventType payload eventId)

def eventSubjectPrefix : String := "cloudmesh"

def subjectFor (eventType : String) : String := eventSubjectPrefix ++ "." ++ eventType

structure EventEnvelope where
  eventId : String
  eventType : String
  timestamp : String
  payload : String
  deriving DecidableEq

/-- `JSON.stringify` of the envelope. -/
def EventEnvelope.encode (envelope : EventEnvelope) : String :=
  "\x7b\"eventId\":" ++ quote envelope.eventId ++ ",\"eventType\":" ++ quote envelope.eventType ++
    ",\"timestamp\":" ++ quote envelope.timestamp ++ ",\"payload\":" ++ envelope.payload ++ "\x7d"

/-- `publish` of `connectEventBus`; `Date.prototype.toISOString` is a parameter. -/
def publish (toISOString : ℤ → String) (eventType payload eventId : String) : Prog Unit := do
  let now ← command .dateNow
  let envelope : EventEnvelope := ⟨eventId, eventType, toISOString now, payload⟩
  command (.jsPublish (subjectFor eventType) envelope.encode eventId)

def natsEventPublisher (toISOString : ℤ → String) : EventPublisher where
  publish := publish toISOString
  foreign _ _ _ := ⟨rfl, fun
    | .ok _ => ⟨rfl, fun _ => trivial⟩
    | .error _ => trivial⟩

def logEventPublisher : EventPublisher where
  publish eventType payload eventId := command
    (.log "outbox: publishing to log sink (no event bus configured)" eventType eventId payload)
  foreign _ _ _ := ⟨rfl, fun _ => trivial⟩

/-! ## `pollOutbox` -/

structure PollResult where
  attempted : ℕ
  published : ℕ
  deriving DecidableEq

section Code

variable (publisher : EventPublisher)

/-- One round of the loop: whether the row has been published and marked. -/
def publishEvent (event : OutboxEvent) : Prog Bool :=
  tryCatch (do
    publisher.publish event.eventType event.payload event.id
    let now ← command .dateNow
    command (.update event.id now)
    pure true) fun _ => pure false

def publishAll : List OutboxEvent → Prog ℕ
  | [] => pure 0
  | event :: pending => do
    let published ← publishEvent publisher event
    let rest ← publishAll pending
    pure (if published then rest + 1 else rest)

def pollOutbox (batchSize : ℕ) : Prog PollResult := do
  let pending ← command (.findMany batchSize)
  let published ← publishAll publisher pending
  pure ⟨pending.length, published⟩

def defaultBatchSize : ℕ := 50

/-- The poller until it is stopped after so many ticks. -/
def startOutboxPoller : ℕ → Prog Unit
  | 0 => pure ()
  | ticks + 1 => do
    (tryCatch (do let _ ← pollOutbox publisher defaultBatchSize) fun err => command (.onError err) :
      Prog Unit)
    startOutboxPoller ticks

end Code

end CloudMesh.Outbox
