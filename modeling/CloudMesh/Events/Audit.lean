import CloudMesh.Concurrent.Transcript
import CloudMesh.Events.Bus
import CloudMesh.Rows

/-!
# The audit log

`startAuditSubscriber` of `apps/gateway/src/modules/events/subscribers.ts`. A delivery is a process:
the pump parses its message, the handler inserts one row in a transaction, and the outcome settles
the message. Any number of deliveries of any events run at once, each for as long as it is let. The
database keeps the ids of committed rows and of rows in open transactions apart.

## Main definitions

- `auditHandler`, `deliver` — the code of one delivery
- `deliveries` — the deliveries against one database
- `AuditEvent` — an event that can be attributed to an org
- `ExactlyOnce` — one row for an event that has been acknowledged
- `exactlyOnce_run` — every run keeps to it, with the payload that the schema has left
-/

namespace CloudMesh.Events.Audit

open Concurrent

/-! ## The database -/

structure AuditLog where
  orgId : JsString
  eventId : JsString
  eventType : JsString
  payload : Json

/-- A UUID as Postgres spells it. -/
def canonicalUuid (s : JsString) : JsString :=
  s.map fun c => if 0x41 ≤ c && c ≤ 0x46 then c + 0x20 else c

/-- A row as it is read back. -/
def AuditLog.stored (row : AuditLog) : AuditLog := { row with orgId := canonicalUuid row.orgId }

/-- The statements of a transaction. -/
inductive Query
  | begin
  | setConfig (orgId : JsString)
  | create (row : AuditLog)
  | commit
  | rollback

inductive Cmd
  | query (q : Query)
  | settle (settlement : Settlement)

abbrev sig : Signature where
  Cmd := Cmd
  Ans
    | .query _ => Except JsError Unit
    | .settle _ => Unit

abbrev Prog (α : Type) := Handler sig JsError α

def query (q : Query) : Prog Unit := ExceptT.mk (@Program.call sig (.query q))

def settle (settlement : Settlement) : Program sig Unit := @Program.call sig (.settle settlement)

/-- A unique constraint is violated. -/
def P2002 : JsError := .prisma "P2002"

/-! ## The code -/

/-- `prisma.$transaction`; the error of a rollback is dropped. -/
def transaction (fn : Prog Unit) : Prog Unit := do
  query .begin
  tryCatch fn fun err => do
    tryCatch (query .rollback) fun _ => pure ()
    throw err
  query .commit

/-- `UUID_RE`. -/
def uuidRe (s : JsString) : Bool :=
  matchesPattern (.replicate 8 isHexDigit ++ isHyphen :: .replicate 4 isHexDigit ++
    isHyphen :: .replicate 4 isHexDigit ++ isHyphen :: .replicate 4 isHexDigit ++
    isHyphen :: .replicate 12 isHexDigit) s

def invalidOrgId (orgId : JsString) : JsError :=
  .other (utf16 "withTenant: orgId is not a valid UUID: " ++ orgId)

/-- What is no string is refused by the test or by the database. -/
def withTenant (orgId : Json) (fn : JsString → Prog Unit) : Prog Unit :=
  match orgId with
  | .string s =>
    if uuidRe s then
      transaction do
        query (.setConfig s)
        fn s
    else throw (invalidOrgId s)
  | _ => throw (invalidOrgId [])

def isTruthy : Json → Bool
  | .null => false
  | .bool b => b
  | .number x => x ≠ 0
  | .string s => s ≠ []
  | .infinity _ | .array _ | .object _ => true

/-- `(payload as { orgId?: string }).orgId`. -/
def orgIdOf : Option Json → Except JsError (Option Json)
  | none | some .null => .error .typeError
  | some (.object fields) => .ok (fields.lookup (utf16 "orgId"))
  | some _ => .ok none

def auditHandler (event : ParsedEvent) : Prog Unit :=
  match orgIdOf event.payload with
  | .error err => throw err
  | .ok orgId =>
    match orgId.filter isTruthy, event.payload with
    | some orgId, some payload =>
      tryCatch
        (withTenant orgId fun s => query (.create
          ⟨s, event.envelope.eventId, event.envelope.eventType, payload.serialized⟩))
        fun err => if err = P2002 then pure () else throw err
    | _, _ => pure ()

/-- The body of the pump, for one message. -/
def deliver (zod : Zod) (data : List UInt8) : Program sig Unit :=
  match receive zod data with
  | .error err => (caught err none).settlements.forM settle
  | .ok event => do
    let outcome ← (auditHandler event).run
    (handleMessage zod (fun _ => outcome) data).settlements.forM settle

/-! ## The deliveries -/

/-- What is committed, and what an open transaction has inserted. -/
structure AuditDb where
  rows : List AuditLog
  pending : List (ℕ × AuditLog)

def AuditDb.empty : AuditDb := ⟨[], []⟩

/-- The transaction of a process is over, its row is in no table. -/
def AuditDb.drop (db : AuditDb) (p : ℕ) : AuditDb :=
  { db with pending := db.pending.filter fun entry => entry.1 ≠ p }

/-- The row of an open transaction is committed. -/
def AuditDb.keep (db : AuditDb) (p : ℕ) (row : AuditLog) : AuditDb :=
  ⟨db.rows ++ [row], (db.drop p).pending⟩

/-- A row that is inserted by an open transaction; `none` where the insert would have to wait for
another one, or is refused. -/
def AuditDb.insert (db : AuditDb) (p : ℕ) (row : AuditLog) : Option AuditDb :=
  if row.eventId ∈ db.rows.map AuditLog.eventId ++ db.pending.map (·.2.eventId) then none
  else some { db with pending := (p, row.stored) :: db.pending }

/-- How a statement comes back: with what the database says, with an error before it has had an
effect, or with an error although it has had it. -/
inductive Reply
  | ok
  | refused (message : JsString)
  | lost (message : JsString)

/-- An insert violates the constraint on the event id, waits for the open transaction that has
inserted the id, or is pending. A commit finds the row, unless the database has given up the
transaction. -/
def exec (p : ℕ) (c : Cmd) (reply : Reply) (db : AuditDb) : Option (sig.Ans c × AuditDb) :=
  match c, reply with
  | .settle _, .ok => some ((), db)
  | .query (.create row), .ok =>
    if ∃ other ∈ db.rows, other.eventId = row.eventId then some (.error P2002, db)
    else (db.insert p row).map fun db => (.ok (), db)
  | .query (.create row), .lost message =>
    (db.insert p row).map fun db => (.error (.other message), db)
  | .query .commit, .ok => (db.pending.lookup p).map fun row => (.ok (), db.keep p row)
  | .query .commit, .lost message =>
    (db.pending.lookup p).map fun row => (.error (.other message), db.keep p row)
  | .query .commit, .refused message => some (.error (.other message), db.drop p)
  | .query .rollback, .ok => some (.ok (), db.drop p)
  | .query .begin, .ok | .query (.setConfig _), .ok => some (.ok (), db)
  | .query _, .refused message => some (.error (.other message), db)
  | _, _ => none

/-- An event with its bytes, that can be attributed to an org. -/
structure AuditEvent where
  data : List UInt8
  fields : List (JsString × Json)
  parsed : Json.parse (decode data) = some (.object fields)
  eventId : JsString
  hasEventId : fields.lookup (utf16 "eventId") = some (.string eventId)
  eventType : JsString
  hasEventType : fields.lookup (utf16 "eventType") = some (.string eventType)
  payload : List (JsString × Json)
  hasPayload : fields.lookup (utf16 "payload") = some (.object payload)
  orgId : JsString
  hasOrgId : payload.lookup (utf16 "orgId") = some (.string orgId)
  attributed : orgId ≠ []

/-- The event of a message, if it can be attributed. -/
def AuditEvent.ofData (data : List UInt8) : Option AuditEvent :=
  match hparsed : Json.parse (decode data) with
  | some (.object fields) =>
    match hid : fields.lookup (utf16 "eventId"), htype : fields.lookup (utf16 "eventType"),
      hpayload : fields.lookup (utf16 "payload") with
    | some (.string eventId), some (.string eventType), some (.object payload) =>
      match horg : payload.lookup (utf16 "orgId") with
      | some (.string orgId) =>
        if h : orgId ≠ [] then
          some ⟨data, fields, hparsed, eventId, hid, eventType, htype, payload, hpayload, orgId,
            horg, h⟩
        else none
      | _ => none
    | _, _, _ => none
  | _ => none

variable {ι : Type} (zod : Zod) (events : ι → AuditEvent)

/-- A delivery of one of the events is a process; it may be left at any point. The database may give
up an open transaction at any time. -/
def deliveries : System sig ℕ AuditDb Reply ℕ ι Unit where
  exec := exec
  drift p db := some (db.drop p)
  code _ i := deliver zod (events i).data

abbrev Conf (ι : Type) := Config sig ℕ AuditDb ι Unit

/-! ## One row for each event -/

/-- The row that carries the event's own fields. -/
def AuditEvent.ownRow (event : AuditEvent) : AuditLog :=
  ⟨canonicalUuid event.orgId, event.eventId, event.eventType, .serialized (.object event.payload)⟩

/-- What the schema of the event's type, if it has one, leaves of the payload. -/
def AuditEvent.parsedPayload (event : AuditEvent) : List (JsString × Json) :=
  match payloadSchema event.eventType with
  | none => event.payload
  | some (_, shape) => shape.pick event.payload

def AuditEvent.row (event : AuditEvent) : AuditLog :=
  { event.ownRow with payload := .serialized (.object event.parsedPayload) }

def rowsOf (c : Conf ι) (event : AuditEvent) : List AuditLog :=
  c.world.shared.rows.filter fun row => row.eventId = event.eventId

def Acked (c : Conf ι) (p : ℕ) : Prop := ⟨p, .settle .ack, ()⟩ ∈ c.world.history

/-- No two rows have the same event id, an event of which a delivery has been acknowledged has one
row, every row is that of an event, and a delivery changes no rows but those of its event. -/
structure ExactlyOnce (row : AuditEvent → AuditLog) (c : Conf ι) : Prop where
  unique : (c.world.shared.rows.map AuditLog.eventId).Nodup
  acked : ∀ p P, c.procs p = some P → Acked c p →
    rowsOf c (events P.op) = [row (events P.op)]
  own : ∀ r ∈ c.world.shared.rows, ∃ i, r = row (events i)
  frame : ∀ p P reply a d, c.procs p = some P →
    (deliveries zod events).next c (.step p reply) = some (a, d) →
    ∀ i, i ≠ P.op → rowsOf d (events i) = rowsOf c (events i)

/-! ## What is parsed of an event -/

theorem payloadSchema_orgId : ∀ entry ∈ PAYLOAD_SCHEMAS,
    ("orgId", .uuid) ∈ entry.2 ∧ (entry.2.map fun field => utf16 field.1).Nodup := by
  decide

section Parsed

variable {zod} {event : AuditEvent} {envelope : EventEnvelope} {parsed : ParsedEvent}

theorem envelope_of_parseEnvelope (h : parseEnvelope zod (.object event.fields) = .ok envelope) :
    envelope.eventId = event.eventId ∧ envelope.eventType = event.eventType ∧
      envelope.payload = some (.object event.payload) := by
  unfold parseEnvelope at h
  split at h
  · cases h
  · rename_i fields hparse
    cases h
    obtain ⟨fields', hraw, -, rfl⟩ := safeParse_eq_ok_iff.mp hparse
    cases hraw
    rw [ofFields_pick]
    refine ⟨?_, ?_, event.hasPayload⟩
    · show stringField _ _ = _
      rw [stringField, event.hasEventId]
    · show stringField _ _ = _
      rw [stringField, event.hasEventType]

theorem payload_of_parsePayload {payload : Option Json}
    (htype : envelope.eventType = event.eventType)
    (hpayload : envelope.payload = some (.object event.payload))
    (h : parsePayload zod envelope = .ok payload) :
    payload = some (.object event.parsedPayload) := by
  rw [parsePayload] at h
  by_cases hinherited : envelope.Inherited
  · rw [if_pos hinherited] at h
    cases h
  · rw [if_neg hinherited, htype, hpayload] at h
    rw [AuditEvent.parsedPayload]
    cases hschema : payloadSchema event.eventType with
    | none =>
      rw [hschema] at h
      cases h
      rfl
    | some entry =>
      obtain ⟨name, shape⟩ := entry
      rw [hschema] at h
      dsimp only at h
      cases hparse : shape.safeParse zod (some (.object event.payload)) with
      | error message =>
        rw [hparse] at h
        cases h
      | ok fields =>
        rw [hparse] at h
        cases h
        obtain ⟨fields', hraw, -, rfl⟩ := safeParse_eq_ok_iff.mp hparse
        cases hraw
        rfl

/-- An event that is accepted is handed over with its own id and type, and the payload that its
schema has left. -/
theorem parsed_of_receive (h : receive zod event.data = .ok parsed) :
    parsed.envelope.eventId = event.eventId ∧ parsed.envelope.eventType = event.eventType ∧
      parsed.payload = some (.object event.parsedPayload) := by
  simp only [receive, event.parsed, parseEvent] at h
  cases henvelope : parseEnvelope zod (.object event.fields) with
  | error err =>
    rw [henvelope] at h
    cases h
  | ok envelope =>
    rw [henvelope] at h
    obtain ⟨hid, htype, hpayload⟩ := envelope_of_parseEnvelope henvelope
    cases hparsed : parsePayload zod envelope with
    | error err =>
      simp only [hparsed, bind, Except.bind] at h
      cases h
    | ok payload =>
      simp only [hparsed, bind, Except.bind, pure, Except.pure] at h
      cases h
      exact ⟨hid, htype, payload_of_parsePayload htype hpayload hparsed⟩

/-- No schema drops the org. -/
theorem orgId_parsedPayload (event : AuditEvent) :
    event.parsedPayload.lookup (utf16 "orgId") = some (.string event.orgId) := by
  unfold AuditEvent.parsedPayload
  split
  · exact event.hasOrgId
  · rename_i name shape hsome
    obtain ⟨horg, hnodup⟩ := payloadSchema_orgId _ (List.mem_of_find?_eq_some hsome)
    exact (lookup_pick hnodup _ horg).trans event.hasOrgId

/-- What the handler does with an event. -/
theorem auditHandler_eq (h : receive zod event.data = .ok parsed) :
    auditHandler parsed = tryCatch
      (withTenant (.string event.orgId) fun s =>
        query (.create ⟨s, event.eventId, event.eventType, event.row.payload⟩))
      fun err => if err = P2002 then pure () else throw err := by
  obtain ⟨hid, htype, hpayload⟩ := parsed_of_receive h
  have horg : orgIdOf (some (.object event.parsedPayload)) =
      .ok (some (.string event.orgId)) := by
    rw [orgIdOf, orgId_parsedPayload]
  have htruthy : isTruthy (.string event.orgId) = true := by
    simpa [isTruthy] using event.attributed
  simp only [auditHandler, hpayload, horg, Option.filter_some, htruthy, if_true, hid, htype]
  rfl

end Parsed

/-! ## What a delivery does -/

/-- The database has said that the row is there. -/
def Audited (t : Transcript sig) : Prop :=
  ⟨.query .commit, .ok ()⟩ ∈ t ∨ ∃ q, ⟨.query q, .error P2002⟩ ∈ t

/-- An error of the constraint comes from a statement. -/
def Raised (err : JsError) (t : Transcript sig) : Prop :=
  err = P2002 → ∃ q, (⟨.query q, .error P2002⟩ : Exchange sig) ∈ t

/-- The rule of a delivery: it inserts the row of its event only, and acknowledges the message when
the row is there. -/
def rule (_ : ℕ) (i : ι) (t : Transcript sig) : Cmd → Prop
  | .query (.create row) => row.stored = (events i).row
  | .settle .ack => Audited t
  | _ => True

section Rule

variable {events} {p : ℕ} {i : ι}

theorem query_spec {q : Query} (h : ∀ t, rule events p i t (.query q)) :
    Handler.Triple (rule events p i) (fun _ => True) (query q)
      (fun _ t => ⟨.query q, .ok ()⟩ ∈ t) Raised := by
  refine fun t _ => ⟨h t, fun r => ?_⟩
  cases r with
  | ok u => exact List.mem_cons_self
  | error err =>
    rintro rfl
    exact ⟨q, List.mem_cons_self⟩

theorem Raised.cons {err : JsError} {t : Transcript sig} (h : Raised err t) (e : Exchange sig) :
    Raised err (e :: t) := by
  intro herr
  obtain ⟨q, hq⟩ := h herr
  exact ⟨q, List.mem_cons_of_mem _ hq⟩

theorem statement_spec {q : Query} (h : ∀ t, rule events p i t (.query q)) :
    Handler.Triple (rule events p i) (fun _ => True) (query q) (fun _ _ => True) Raised :=
  (query_spec h).conseq (fun _ h => h) (fun _ _ _ => trivial) fun _ _ h => h

theorem transaction_spec {fn : Prog Unit}
    (h : Handler.Triple (rule events p i) (fun _ => True) fn (fun _ _ => True) Raised) :
    Handler.Triple (rule events p i) (fun _ => True) (transaction fn)
      (fun _ t => ⟨.query .commit, .ok ()⟩ ∈ t) Raised := by
  have hbegin : Handler.Triple (rule events p i) (fun _ => True) (query .begin)
      (fun _ _ => True) Raised := statement_spec fun _ => trivial
  have hcommit : Handler.Triple (rule events p i) (fun _ => True) (query .commit)
      (fun _ t => ⟨.query .commit, .ok ()⟩ ∈ t) Raised := query_spec fun _ => trivial
  have hrollback : Handler.Triple (rule events p i) (fun _ => True)
      (tryCatch (query .rollback) fun _ => pure ()) (fun _ _ => True) Raised :=
    Handler.Triple.tryCatch (statement_spec fun _ => trivial) fun _ =>
      Handler.Triple.pure fun _ _ => trivial
  refine Handler.Triple.bind hbegin fun _ =>
    Handler.Triple.bind (Handler.Triple.tryCatch h fun err => ?_) fun _ => hcommit
  -- the error that is thrown on has been raised before the rollback
  have hkept := hrollback.frame (F := Raised err) (fun t e h => h.cons e) fun _ _ h _ => h
  exact Handler.Triple.bind (hkept.conseq (fun _ h => ⟨trivial, h⟩) (fun _ _ h => h)
    fun _ _ h => h.1) fun _ => Handler.Triple.throw fun _ h => h.2

theorem withTenant_spec {orgId : JsString} {fn : JsString → Prog Unit}
    (h : Handler.Triple (rule events p i) (fun _ => True) (fn orgId) (fun _ _ => True) Raised) :
    Handler.Triple (rule events p i) (fun _ => True) (withTenant (.string orgId) fn)
      (fun _ t => ⟨.query .commit, .ok ()⟩ ∈ t) Raised := by
  simp only [withTenant]
  split
  · have hconfig : Handler.Triple (rule events p i) (fun _ => True) (query (.setConfig orgId))
        (fun _ _ => True) Raised := statement_spec fun _ => trivial
    exact transaction_spec (Handler.Triple.bind hconfig fun _ => h)
  · apply Handler.Triple.throw
    intro t _ herr
    cases herr

/-- The handler resolves only if the database has said that the row is there. -/
theorem auditHandler_spec {parsed : ParsedEvent}
    (h : receive zod (events i).data = .ok parsed) :
    Handler.Triple (rule events p i) (fun _ => True) (auditHandler parsed)
      (fun _ => Audited) fun _ _ => True := by
  rw [auditHandler_eq h]
  have hcreate : Handler.Triple (rule events p i) (fun _ => True)
      (query (.create ⟨(events i).orgId, (events i).eventId, (events i).eventType,
        (events i).row.payload⟩)) (fun _ _ => True) Raised := statement_spec fun _ => rfl
  refine Handler.Triple.tryCatch ((withTenant_spec hcreate).conseq (fun _ h => h)
    (fun _ _ h => .inl h) fun _ _ h => h) fun err => ?_
  split
  · rename_i herr
    exact Handler.Triple.pure fun t ht => .inr (ht herr)
  · exact Handler.Triple.throw fun _ _ => trivial

theorem follows_settle {settlement : Settlement} {t : Transcript sig}
    (h : settlement = .ack → Audited t) :
    ([settlement].forM settle).Follows (rule events p i) (fun _ _ => True) t := by
  refine ⟨?_, fun _ => trivial⟩
  cases settlement with
  | ack => exact h rfl
  | nak => trivial
  | term => trivial

theorem obeys : (deliveries zod events).Obeys (rule events) fun _ _ _ _ => True := by
  intro p i
  have hne : ∀ err : JsError, (if err.isPoison then Settlement.term else .nak) ≠ .ack := by
    intro err
    split <;> decide
  show (deliver zod (events i).data).Follows _ _ _
  unfold deliver
  split
  · exact follows_settle fun hack => absurd hack (hne _)
  · rename_i parsed hparsed
    refine (auditHandler_spec zod hparsed [] trivial).bind fun outcome t hout => ?_
    cases outcome with
    | ok u =>
      rw [settlements_of_resolve zod hparsed rfl]
      exact follows_settle fun _ => hout
    | error err =>
      rw [settlements_of_reject zod hparsed rfl]
      exact follows_settle fun hack => absurd hack (hne _)

end Rule

/-! ## What the database does -/

/-- The effect of a statement of process `p`, with the answer. -/
inductive Effect (p : ℕ) (db : AuditDb) : Exchange sig → AuditDb → Prop
  | quiet {e : Exchange sig} (hcommit : e ≠ ⟨.query .commit, .ok ()⟩)
      (hduplicate : ∀ q, e ≠ ⟨.query q, .error P2002⟩) : Effect p db e db
  | duplicate {row other : AuditLog} (h : other ∈ db.rows) (hid : other.eventId = row.eventId) :
      Effect p db ⟨.query (.create row), .error P2002⟩ db
  | insert {row : AuditLog} {r : Except JsError Unit} {db' : AuditDb} (hr : r ≠ .error P2002)
      (h : db.insert p row = some db') : Effect p db ⟨.query (.create row), r⟩ db'
  | keep {row : AuditLog} {r : Except JsError Unit} (hr : r ≠ .error P2002)
      (h : db.pending.lookup p = some row) : Effect p db ⟨.query .commit, r⟩ (db.keep p row)
  | drop {e : Exchange sig} (hcommit : e ≠ ⟨.query .commit, .ok ()⟩)
      (hduplicate : ∀ q, e ≠ ⟨.query q, .error P2002⟩) : Effect p db e (db.drop p)

theorem effect_of_exec {p : ℕ} {c : Cmd} {reply : Reply} {db db' : AuditDb} {r : sig.Ans c}
    (h : exec p c reply db = some (r, db')) : Effect p db ⟨c, r⟩ db' := by
  cases c with
  | settle s =>
    cases reply with
    | ok =>
      cases h
      exact .quiet (by simp) (by simp)
    | refused message => cases h
    | lost message => cases h
  | query q =>
    cases q with
    | begin =>
      cases reply with
      | ok =>
        cases h
        exact .quiet (by simp) (by simp)
      | refused message =>
        cases h
        exact .quiet (by simp) (by simp [P2002])
      | lost message => cases h
    | setConfig orgId =>
      cases reply with
      | ok =>
        cases h
        exact .quiet (by simp) (by simp)
      | refused message =>
        cases h
        exact .quiet (by simp) (by simp [P2002])
      | lost message => cases h
    | create row =>
      cases reply with
      | ok =>
        simp only [exec] at h
        split at h
        · rename_i hother
          obtain ⟨other, hmem, hid⟩ := hother
          cases h
          exact .duplicate hmem hid
        · obtain ⟨db'', hinsert, heq⟩ := Option.map_eq_some_iff.mp h
          cases heq
          exact .insert (by simp) hinsert
      | refused message =>
        cases h
        exact .quiet (by simp) (by simp [P2002])
      | lost message =>
        -- the row has been inserted although the client is told of an error
        obtain ⟨db'', hinsert, heq⟩ := Option.map_eq_some_iff.mp h
        cases heq
        exact .insert (by simp [P2002]) hinsert
    | commit =>
      cases reply with
      | ok =>
        obtain ⟨row, hrow, heq⟩ := Option.map_eq_some_iff.mp h
        cases heq
        exact .keep (by simp) hrow
      | refused message =>
        cases h
        exact .drop (by simp) (by simp [P2002])
      | lost message =>
        -- committed, although the client is told of an error
        obtain ⟨row, hrow, heq⟩ := Option.map_eq_some_iff.mp h
        cases heq
        exact .keep (by simp [P2002]) hrow
    | rollback =>
      cases reply with
      | ok =>
        cases h
        exact .drop (by simp) (by simp)
      | refused message =>
        cases h
        exact .quiet (by simp) (by simp [P2002])
      | lost message => cases h

/-- No event id stands twice, in the table and in open transactions together. -/
def AuditDb.Distinct (db : AuditDb) : Prop :=
  (db.rows.map AuditLog.eventId ++ db.pending.map (·.2.eventId)).Nodup

theorem AuditDb.Distinct.drop {db : AuditDb} (h : db.Distinct) (p : ℕ) : (db.drop p).Distinct := by
  have hsub : (db.drop p).pending.Sublist db.pending := List.filter_sublist
  exact List.Nodup.sublist (List.Sublist.append_left (hsub.map _) _) h

theorem AuditDb.Distinct.insert {db db' : AuditDb} (hdb : db.Distinct) {p : ℕ} {row : AuditLog}
    (h : db.insert p row = some db') : db'.Distinct := by
  unfold AuditDb.insert at h
  split at h
  · cases h
  · rename_i hfresh
    cases h
    show (_ ++ (row.eventId :: _)).Nodup
    rw [List.perm_middle.nodup_iff]
    exact List.nodup_cons.mpr ⟨hfresh, hdb⟩

theorem AuditDb.Distinct.keep {db : AuditDb} (hdb : db.Distinct) {p : ℕ} {row : AuditLog}
    (h : db.pending.lookup p = some row) : (db.keep p row).Distinct := by
  obtain ⟨before, after, hsplit⟩ := List.append_of_mem (mem_of_lookup h)
  have hdrop : (db.drop p).pending.Sublist (before ++ after) := by
    show (db.pending.filter fun entry => entry.1 ≠ p).Sublist _
    rw [hsplit, List.filter_append, List.filter_cons_of_neg (by simp), ← List.filter_append]
    exact List.filter_sublist
  have hnodup : (db.rows.map AuditLog.eventId ++
      row.eventId :: (before ++ after).map (·.2.eventId)).Nodup := by
    have hperm : (db.pending.map (·.2.eventId)).Perm
        (row.eventId :: (before ++ after).map (·.2.eventId)) := by
      rw [hsplit]
      exact List.perm_middle.map _
    exact (hperm.append_left _).nodup_iff.mp hdb
  show ((db.rows ++ [row]).map AuditLog.eventId ++ _).Nodup
  rw [List.map_append, List.append_assoc]
  refine List.Nodup.sublist (List.Sublist.append_left ?_ _) hnodup
  exact List.Sublist.cons_cons _ (hdrop.map _)

/-- Where the rows come from, and what the answers have said of them. -/
structure Consistent (w : World sig ℕ AuditDb) : Prop where
  distinct : w.shared.Distinct
  pending : ∀ p row, (p, row) ∈ w.shared.pending →
    ∃ data r, ⟨p, .query (.create data), r⟩ ∈ w.history ∧ row = data.stored
  rows : ∀ row ∈ w.shared.rows,
    ∃ p data r, ⟨p, .query (.create data), r⟩ ∈ w.history ∧ row = data.stored
  committed : ∀ p, ⟨p, .query .commit, .ok ()⟩ ∈ w.history →
    ∃ data r, ⟨p, .query (.create data), r⟩ ∈ w.history ∧ data.stored ∈ w.shared.rows
  duplicate : ∀ p q, ⟨p, .query q, .error P2002⟩ ∈ w.history →
    ∃ data, q = .create data ∧ ∃ row ∈ w.shared.rows, row.eventId = data.eventId

theorem consistent_init : Consistent ⟨AuditDb.empty, []⟩ where
  distinct := List.nodup_nil
  pending p row h := by cases h
  rows row h := by cases h
  committed p h := by cases h
  duplicate p q h := by cases h

theorem Consistent.drop {w : World sig ℕ AuditDb} (h : Consistent w) (p : ℕ) :
    Consistent ⟨w.shared.drop p, w.history⟩ where
  distinct := h.distinct.drop p
  pending q row hmem := h.pending q row (List.mem_of_mem_filter hmem)
  rows := h.rows
  committed := h.committed
  duplicate := h.duplicate

/-- One more answer: rows are only added, from open transactions, and what the answer says of them
holds. -/
theorem Consistent.cons {w : World sig ℕ AuditDb} (h : Consistent w) {e : Event sig ℕ}
    {db : AuditDb} (hdistinct : db.Distinct)
    (hpending : ∀ p row, (p, row) ∈ db.pending → (p, row) ∈ w.shared.pending ∨
      ∃ data r, e = ⟨p, .query (.create data), r⟩ ∧ row = data.stored)
    (hkept : w.shared.rows ⊆ db.rows)
    (hrows : ∀ row ∈ db.rows, row ∈ w.shared.rows ∨ ∃ p, (p, row) ∈ w.shared.pending)
    (hcommit : ∀ p, e = ⟨p, .query .commit, .ok ()⟩ →
      ∃ row, (p, row) ∈ w.shared.pending ∧ row ∈ db.rows)
    (hduplicate : ∀ p q, e = ⟨p, .query q, .error P2002⟩ →
      ∃ data, q = .create data ∧ ∃ row ∈ w.shared.rows, row.eventId = data.eventId) :
    Consistent ⟨db, e :: w.history⟩ where
  distinct := hdistinct
  pending p row hmem := by
    rcases hpending p row hmem with hold | ⟨data, r, rfl, hrow⟩
    · obtain ⟨data, r, hcreate, hrow⟩ := h.pending p row hold
      exact ⟨data, r, List.mem_cons_of_mem _ hcreate, hrow⟩
    · exact ⟨data, r, List.mem_cons_self, hrow⟩
  rows row hmem := by
    rcases hrows row hmem with hold | ⟨p, hold⟩
    · obtain ⟨p, data, r, hcreate, hrow⟩ := h.rows row hold
      exact ⟨p, data, r, List.mem_cons_of_mem _ hcreate, hrow⟩
    · obtain ⟨data, r, hcreate, hrow⟩ := h.pending p row hold
      exact ⟨p, data, r, List.mem_cons_of_mem _ hcreate, hrow⟩
  committed p hmem := by
    rcases List.mem_cons.mp hmem with heq | hmem
    · obtain ⟨row, hpending, hrow⟩ := hcommit p heq.symm
      obtain ⟨data, r, hcreate, rfl⟩ := h.pending p row hpending
      exact ⟨data, r, List.mem_cons_of_mem _ hcreate, hrow⟩
    · obtain ⟨data, r, hcreate, hrow⟩ := h.committed p hmem
      exact ⟨data, r, List.mem_cons_of_mem _ hcreate, hkept hrow⟩
  duplicate p q hmem := by
    have hold : ∃ data, q = .create data ∧
        ∃ row ∈ w.shared.rows, row.eventId = data.eventId := by
      rcases List.mem_cons.mp hmem with heq | hmem
      · exact hduplicate p q heq.symm
      · exact h.duplicate p q hmem
    obtain ⟨data, hq, row, hrow, hid⟩ := hold
    exact ⟨data, hq, row, hkept hrow, hid⟩

theorem consistent_command {w : World sig ℕ AuditDb} (h : Consistent w) {p : ℕ} {c : Cmd}
    {r : sig.Ans c} {db : AuditDb} (heffect : Effect p w.shared ⟨c, r⟩ db) :
    Consistent ⟨db, ⟨p, c, r⟩ :: w.history⟩ := by
  generalize he : (⟨c, r⟩ : Exchange sig) = e at heffect
  cases heffect with
  | quiet hcommit hduplicate =>
    refine h.cons h.distinct (fun _ _ => .inl) (List.Subset.refl _) (fun _ => .inl)
      (fun q heq => ?_) fun q s heq => ?_
    · cases heq
      exact absurd he.symm hcommit
    · cases heq
      exact absurd he.symm (hduplicate s)
  | drop hcommit hduplicate =>
    refine h.cons (h.distinct.drop p) (fun _ _ hmem => .inl (List.mem_of_mem_filter hmem))
      (List.Subset.refl _) (fun _ => .inl) (fun q heq => ?_) fun q s heq => ?_
    · cases heq
      exact absurd he.symm hcommit
    · cases heq
      exact absurd he.symm (hduplicate s)
  | @duplicate row other hother hid =>
    cases he
    refine h.cons h.distinct (fun _ _ => .inl) (List.Subset.refl _) (fun _ => .inl)
      (fun q heq => ?_) fun q s heq => ?_
    · cases heq
    · cases heq
      exact ⟨row, rfl, other, hother, hid⟩
  | @insert row r' db' hr hinsert =>
    cases he
    have hdistinct := h.distinct.insert hinsert
    unfold AuditDb.insert at hinsert
    split at hinsert
    · cases hinsert
    · cases hinsert
      refine h.cons hdistinct (fun q other hmem => ?_) (List.Subset.refl _) (fun _ => .inl)
        (fun q heq => ?_) fun q s heq => ?_
      · rcases List.mem_cons.mp hmem with heq | hmem
        · cases heq
          exact .inr ⟨row, _, rfl, rfl⟩
        · exact .inl hmem
      · cases heq
      · cases heq
        exact absurd rfl hr
  | @keep row r' hr hrow =>
    cases he
    refine h.cons (h.distinct.keep hrow) (fun q other hmem => .inl (List.mem_of_mem_filter hmem))
      (List.subset_append_left _ _) (fun other hmem => ?_) (fun q heq => ?_) fun q s heq => ?_
    · rcases List.mem_append.mp hmem with hmem | hmem
      · exact .inl hmem
      · cases List.mem_singleton.mp hmem
        exact .inr ⟨p, mem_of_lookup hrow⟩
    · cases heq
      exact ⟨row, mem_of_lookup hrow, List.mem_append_right _ (List.mem_singleton_self row)⟩
    · cases heq
      exact absurd rfl hr

theorem consistent_run {ls : List (Label ℕ Reply ℕ ι)} {c : Conf ι}
    (hrun : (deliveries zod events).run (.init .empty) ls = some c) : Consistent c.world := by
  refine System.run_induction (I := fun c : Conf ι => Consistent c.world)
    (fun c a d hc (_ : True) hst => ?_) consistent_init hrun
    (System.along_of_forall (fun _ _ => trivial) _ _)
  cases hst with
  | start hp => exact hc
  | command hp hk hx => exact consistent_command hc (effect_of_exec hx)
  | drift hx =>
    cases hx
    exact hc.drop _

/-! ## Every run -/

section Run

variable {events} {ls : List (Label ℕ Reply ℕ ι)} {c : Conf ι}

/-- A row that has been inserted is that of the event of the process. -/
theorem stored_eq_row (hconf : System.Conforms (rule events) (fun _ _ _ _ => True) c) {p : ℕ}
    {data : AuditLog} {r : Except JsError Unit}
    (h : ⟨p, .query (.create data), r⟩ ∈ c.world.history) :
    ∃ P, c.procs p = some P ∧ data.stored = (events P.op).row := by
  obtain ⟨P, hist, hP, -, hrule⟩ := hconf.exists_of_mem h
  exact ⟨P, hP, hrule⟩

theorem row_mem_of_audited (hids : Function.Injective fun i => (events i).eventId)
    (hconf : System.Conforms (rule events) (fun _ _ _ _ => True) c)
    (hcons : Consistent c.world) {p : ℕ} {P : Proc sig ℕ ι Unit} (hP : c.procs p = some P)
    (h : Audited (transcript p c.world.history)) :
    (events P.op).row ∈ c.world.shared.rows := by
  rcases h with hcommit | ⟨q, hduplicate⟩
  · obtain ⟨data, r, hcreate, hrow⟩ := hcons.committed p (mem_transcript.mp hcommit)
    obtain ⟨P', hP', heq⟩ := stored_eq_row hconf hcreate
    cases hP.symm.trans hP'
    exact heq ▸ hrow
  · have hrefused := mem_transcript.mp hduplicate
    obtain ⟨data, rfl, row, hrow, hid⟩ := hcons.duplicate p q hrefused
    obtain ⟨P', hP', heq⟩ := stored_eq_row hconf hrefused
    cases hP.symm.trans hP'
    -- the row that is there is that of an event with the same id
    obtain ⟨q, data', r, hcreate, rfl⟩ := hcons.rows row hrow
    obtain ⟨Q, -, heq'⟩ := stored_eq_row hconf hcreate
    have hsame : (events Q.op).eventId = (events P.op).eventId := by
      have hP := congrArg AuditLog.eventId heq
      have hQ := congrArg AuditLog.eventId heq'
      exact hQ.symm.trans (hid.trans hP)
    rw [← hids hsame, ← heq']
    exact hrow

/-- The audit log is exactly-once, with the payloads as the schemas leave them. -/
theorem exactlyOnce_run (hids : Function.Injective fun i => (events i).eventId)
    (hrun : (deliveries zod events).run (.init .empty) ls = some c) :
    ExactlyOnce zod events AuditEvent.row c := by
  have hconf := System.conforms_run (obeys zod) hrun
  have hcons := consistent_run zod events hrun
  have hunique : (c.world.shared.rows.map AuditLog.eventId).Nodup :=
    (List.nodup_append.mp hcons.distinct).1
  refine ⟨hunique, fun p P hP hack => ?_, fun row hrow => ?_, fun p P reply a d hP hnext i hi => ?_⟩
  · obtain ⟨Q, hist, hQ, hsuf, haudited⟩ := hconf.exists_of_mem hack
    cases hP.symm.trans hQ
    have hsub := transcript_suffix (p := p) ((List.suffix_cons _ _).trans hsuf)
    refine filter_eq_singleton hunique (row_mem_of_audited hids hconf hcons hP ?_) rfl
    exact haudited.imp (fun h => hsub.mem h) fun ⟨q, h⟩ => ⟨q, hsub.mem h⟩
  · obtain ⟨q, data, r, hcreate, rfl⟩ := hcons.rows row hrow
    obtain ⟨Q, -, heq⟩ := stored_eq_row hconf hcreate
    exact ⟨Q.op, heq⟩
  · obtain ⟨P', cmd, k, r, db, hP', hk, hx, rfl, rfl⟩ := System.next_step_eq_some.mp hnext
    cases hP.symm.trans hP'
    have heffect := effect_of_exec hx
    generalize (⟨cmd, r⟩ : Exchange sig) = e at heffect
    cases heffect with
    | quiet => rfl
    | duplicate => rfl
    | drop => rfl
    | insert hr hinsert =>
      unfold AuditDb.insert at hinsert
      split at hinsert
      · cases hinsert
      · cases hinsert
        rfl
    | @keep row r' hr hrow =>
      obtain ⟨data, s, hcreate, rfl⟩ := hcons.pending p row (mem_of_lookup hrow)
      obtain ⟨Q, hQ, heq⟩ := stored_eq_row hconf hcreate
      cases hP.symm.trans hQ
      have hne : data.stored.eventId ≠ (events i).eventId := by
        rw [heq]
        exact fun hsame => hi (hids hsame).symm
      show (c.world.shared.rows ++ [data.stored]).filter _ = _
      rw [List.filter_append, List.filter_cons_of_neg (by simpa using hne), List.filter_nil,
        List.append_nil]
      rfl

end Run

/-! ### A key that the schema does not know -/

def budgetMessage : List UInt8 := Streams.Utf8.encode
  ("\x7b\"eventId\":\"1\",\"eventType\":\"budget.warning\",".toList ++
    "\"timestamp\":\"2026\",\"payload\":\x7b\"orgId\":".toList ++
    "\"11111111-1111-4111-8111-111111111111\",\"spentUsd\":1,".toList ++
    "\"budgetUsd\":null,\"remainingFraction\":0,\"note\":true\x7d\x7d".toList)

def budgetEvent : AuditEvent := (AuditEvent.ofData budgetMessage).get (by decide +kernel)

def anyZod : Zod := ⟨fun _ => none, true⟩

/-- The commit of one delivery comes back with an error; the other one finds the row and
acknowledges the message. -/
def redelivery : List (Label ℕ Reply ℕ Unit) :=
  [.start 0 (), .start 1 (), .step 0 .ok, .step 1 .ok, .step 0 .ok, .step 1 .ok, .step 0 .ok,
    .step 0 (.lost []), .step 1 .ok, .step 1 .ok, .step 1 .ok, .step 0 .ok]

def hasNote : Json → Bool
  | .object fields => (fields.lookup (utf16 "note")).isSome
  | _ => false

/-- There is one row, without the key. -/
theorem notes_redelivery :
    ((deliveries anyZod fun _ => budgetEvent).run (.init .empty) redelivery).map
      (fun c => c.world.shared.rows.map fun row => hasNote row.payload) = some [false] := by
  decide +kernel

theorem exactlyOnce_run_redelivery :
    ∃ c, (deliveries anyZod fun _ => budgetEvent).run (.init .empty) redelivery = some c ∧
      ExactlyOnce anyZod (fun _ => budgetEvent) AuditEvent.row c := by
  obtain ⟨c, hc, -⟩ := Option.map_eq_some_iff.mp notes_redelivery
  exact ⟨c, hc, exactlyOnce_run anyZod (fun _ _ _ => rfl) hc⟩

theorem exactlyOnce_fails : ¬∀ (events : Unit → AuditEvent) (ls : List (Label ℕ Reply ℕ Unit))
    (c : Conf Unit), Function.Injective (fun i => (events i).eventId) →
    (deliveries anyZod events).run (.init .empty) ls = some c →
    ExactlyOnce anyZod events AuditEvent.ownRow c := by
  intro h
  have hown : hasNote budgetEvent.ownRow.payload = true := by decide +kernel
  obtain ⟨c, hc, hrows⟩ := Option.map_eq_some_iff.mp notes_redelivery
  obtain ⟨row, hrow⟩ := List.length_eq_one_iff.mp (by simpa using congrArg List.length hrows)
  obtain ⟨i, hi⟩ := (h _ _ c (fun _ _ _ => rfl) hc).own row (by simp [hrow])
  rw [hrow, hi] at hrows
  simp [hown] at hrows

end CloudMesh.Events.Audit
