import CloudMesh.Events.Audit
import CloudMesh.JsonReads
import CloudMesh.Outbox.Poller

/-!
# From the outbox to the audit log

The pollers of the outbox, the stream, and the deliveries of its messages to the audit subscriber,
as one system. A row may be published by several pollers and any number of times, a publish may be
in the stream although the poller is told of an error, one that the bus refuses is not, the bus may
recognise a message by its id and not store it again, and the stream may deliver a message any
number of times, to deliveries that run at once.

## Main definitions

- `messageData` — the bytes of an envelope
- `auditRow` — what the log is to have of a row of the outbox
- `Pipeline`, `Pipeline.run` — the system
- `EndToEnd` — what the log has of the outbox
- `endToEnd_run` — in every state of every run
-/

namespace CloudMesh.Events

open Concurrent Outbox Audit Streams

/-! ## The messages -/

/-- `codec.encode(JSON.stringify(envelope))`. -/
def messageData (text : String) : List UInt8 := Utf8.encode text.toList

/-- The byte order mark makes no difference to what is still expected. -/
theorem utf8_scan_step (decoder : Utf8.TextDecoder) (bytes : List UInt8) :
    (scan Utf8.TextDecoder.step decoder bytes).2.utf8 = (scan Utf8.step decoder.utf8 bytes).2 := by
  induction bytes generalizing decoder with
  | nil => rfl
  | cons byte bytes ih =>
    have hstep : (Utf8.TextDecoder.step decoder byte).2.utf8 =
        (Utf8.step decoder.utf8 byte).2 := by
      unfold Utf8.TextDecoder.step
      dsimp only
      split
      · rfl
      · split <;> rfl
    show (scan Utf8.TextDecoder.step (Utf8.TextDecoder.step decoder byte).2 bytes).2.utf8 = _
    rw [ih, hstep]
    rfl

theorem decode_encode {c : Char} (hc : c ≠ Utf8.TextDecoder.byteOrderMark) (text : List Char) :
    decode (Utf8.encode (c :: text)) = c :: text := by
  have htext := Utf8.TextDecoder.scan_step_encode hc text
  have hstate := utf8_scan_step Utf8.TextDecoder.new (Utf8.encode (c :: text))
  rw [show Utf8.TextDecoder.new.utf8 = Utf8.start from rfl, Utf8.scan_step_encode] at hstate
  show (scan Utf8.TextDecoder.step _ _).1 ++ (if (scan Utf8.TextDecoder.step _ _).2.utf8.needed = 0
    then [] else [Utf8.replacement]) = _
  rw [htext, hstate]
  exact List.append_nil _

/-- The fields of a message. -/
def wireFields (envelope : Outbox.EventEnvelope) (payload : Json) : List (JsString × Json) :=
  [(utf16 "eventId", .string (utf16 envelope.eventId)),
    (utf16 "eventType", .string (utf16 envelope.eventType)),
    (utf16 "timestamp", .string (utf16 envelope.timestamp)), (utf16 "payload", payload)]

theorem toList_encode (envelope : Outbox.EventEnvelope) : envelope.encode.toList =
    Json.objectText [("eventId", (quote envelope.eventId).toList),
      ("eventType", (quote envelope.eventType).toList),
      ("timestamp", (quote envelope.timestamp).toList), ("payload", envelope.payload.toList)] := by
  have hid : "\x7b\"eventId\":".toList = '\x7b' :: ((quote "eventId").toList ++ [':']) := by decide
  have htype : ",\"eventType\":".toList = ',' :: ((quote "eventType").toList ++ [':']) := by decide
  have htime : ",\"timestamp\":".toList = ',' :: ((quote "timestamp").toList ++ [':']) := by decide
  have hpayload : ",\"payload\":".toList = ',' :: ((quote "payload").toList ++ [':']) := by decide
  have hend : "\x7d".toList = ['\x7d'] := by decide
  unfold Outbox.EventEnvelope.encode
  rw [String.toList_append, String.toList_append, String.toList_append, String.toList_append,
    String.toList_append, String.toList_append, String.toList_append, String.toList_append,
    hid, htype, htime, hpayload, hend]
  simp only [Json.objectText, Json.memberText, List.map_cons, List.map_nil,
    List.intercalate_cons_cons, List.intercalate_singleton, List.append_assoc, List.cons_append,
    List.nil_append]

theorem parse_encode {envelope : Outbox.EventEnvelope} {payload : Json}
    (h : Json.parse envelope.payload.toList = some payload) :
    Json.parse envelope.encode.toList = some (.object (wireFields envelope payload)) := by
  rw [toList_encode]
  apply Json.parse_objectText
  · exact .cons (Json.isMember_quote _ _) (.cons (Json.isMember_quote _ _)
      (.cons (Json.isMember_quote _ _) (.cons (Json.isMember_of_parse _ h) .nil)))
  · show (List.map utf16 ["eventId", "eventType", "timestamp", "payload"]).Nodup
    decide

theorem parse_messageData {envelope : Outbox.EventEnvelope} {payload : Json}
    (h : Json.parse envelope.payload.toList = some payload) :
    Json.parse (decode (messageData envelope.encode)) =
      some (.object (wireFields envelope payload)) := by
  rw [← parse_encode h, messageData, toList_encode, Json.objectText, decode_encode (by decide)]

/-! ## The rows -/

/-- The payload as the schema of the event's type leaves it. -/
def pickedPayload (eventType : JsString) (payload : List (JsString × Json)) :
    List (JsString × Json) :=
  match payloadSchema eventType with
  | none => payload
  | some (_, shape) => shape.pick payload

/-- What the log is to have of a row of the outbox, if it can be attributed to an org. -/
def auditRow (row : OutboxEvent) : Option AuditLog :=
  match Json.parse row.payload.toList with
  | some (.object payload) =>
    match payload.lookup (utf16 "orgId") with
    | some (.string orgId) =>
      if orgId ≠ [] then
        some ⟨canonicalUuid orgId, utf16 row.id, utf16 row.eventType,
          .serialized (.object (pickedPayload (utf16 row.eventType) payload))⟩
      else none
    | _ => none
  | _ => none

/-- What the log is to have of a message. -/
def loggedRow (data : List UInt8) : Option AuditLog := (AuditEvent.ofData data).map AuditEvent.row

theorem data_of_ofData {data : List UInt8} {event : AuditEvent}
    (h : AuditEvent.ofData data = some event) : event.data = data := by
  unfold AuditEvent.ofData at h
  split at h
  · split at h
    · split at h
      · split at h
        · cases h
          rfl
        · cases h
      · cases h
    · cases h
  · cases h

/-- A message has one event. -/
theorem AuditEvent.ext_data {event other : AuditEvent} (h : event.data = other.data) :
    event = other := by
  obtain ⟨data, fields, hparsed, id, hid, type, htype, payload, hpayload, orgId, horg, _⟩ := event
  obtain ⟨data', fields', hparsed', id', hid', type', htype', payload', hpayload', orgId', horg',
    _⟩ := other
  cases h
  cases hparsed.symm.trans hparsed'
  cases hid.symm.trans hid'
  cases htype.symm.trans htype'
  cases hpayload.symm.trans hpayload'
  cases horg.symm.trans horg'
  rfl

theorem ofData_data (event : AuditEvent) : AuditEvent.ofData event.data = some event := by
  cases h : AuditEvent.ofData event.data with
  | some other => rw [AuditEvent.ext_data (data_of_ofData h)]
  | none =>
    -- each match takes the branch that the event names
    unfold AuditEvent.ofData at h
    split at h
    · rename_i fields hparsed
      cases event.parsed.symm.trans hparsed
      split at h
      · rename_i id type payload hid htype hpayload
        cases event.hasPayload.symm.trans hpayload
        split at h
        · rename_i orgId horg
          cases event.hasOrgId.symm.trans horg
          rw [dif_pos event.attributed] at h
          cases h
        · rename_i hno
          exact absurd event.hasOrgId (hno _)
      · rename_i hno
        exact absurd event.hasPayload (hno _ _ _ event.hasEventId event.hasEventType)
    · rename_i hno
      exact absurd event.parsed (hno _)

section Logged

variable {envelope : Outbox.EventEnvelope} {payload : Json}

theorem wireFields_eventId : (wireFields envelope payload).lookup (utf16 "eventId") =
    some (.string (utf16 envelope.eventId)) := rfl

theorem wireFields_eventType : (wireFields envelope payload).lookup (utf16 "eventType") =
    some (.string (utf16 envelope.eventType)) := rfl

theorem wireFields_payload : (wireFields envelope payload).lookup (utf16 "payload") =
    some payload := rfl

end Logged

/-- A message of a row is logged as the row, whenever it has been published. -/
theorem loggedRow_messageData {row : OutboxEvent} (timestamp : String)
    (h : (Json.parse row.payload.toList).isSome) :
    loggedRow (messageData (Outbox.EventEnvelope.encode
      ⟨row.id, row.eventType, timestamp, row.payload⟩)) = auditRow row := by
  obtain ⟨payload, hpayload⟩ := Option.isSome_iff_exists.mp h
  have hparsed := @parse_messageData ⟨row.id, row.eventType, timestamp, row.payload⟩ payload
    hpayload
  ext r
  constructor
  · intro hlogged
    obtain ⟨event, hevent, rfl⟩ := Option.map_eq_some_iff.mp hlogged
    have hfields : event.fields =
        wireFields ⟨row.id, row.eventType, timestamp, row.payload⟩ payload := by
      have heq := event.parsed
      rw [data_of_ofData hevent, hparsed] at heq
      exact (Json.object.inj (Option.some.inj heq)).symm
    have hid := hfields ▸ event.hasEventId
    have htype := hfields ▸ event.hasEventType
    have hobject := hfields ▸ event.hasPayload
    rw [wireFields_eventId] at hid
    rw [wireFields_eventType] at htype
    rw [wireFields_payload] at hobject
    rw [auditRow, hpayload, Option.some.inj hobject]
    simp only [event.hasOrgId, if_pos event.attributed]
    rw [Json.string.inj (Option.some.inj hid), Json.string.inj (Option.some.inj htype)]
    rfl
  · intro hrow
    unfold auditRow at hrow
    rw [hpayload] at hrow
    split at hrow
    · rename_i fields hfields
      cases hfields
      split at hrow
      · rename_i orgId horg
        split at hrow
        · rename_i hne
          cases hrow
          have hevent := ofData_data ⟨_, _, hparsed, _, wireFields_eventId, _,
            wireFields_eventType, fields, wireFields_payload, orgId, horg, hne⟩
          rw [loggedRow, hevent]
          rfl
        · cases hrow
      · cases hrow
    · cases hrow

/-! ## The deliveries -/

/-- A delivery of any message is a process. -/
def auditors (zod : Zod) : System Audit.sig ℕ AuditDb Reply ℕ (List UInt8) Unit where
  exec := Audit.exec
  drift p db := some (db.drop p)
  code _ data := deliver zod data

/-- The rule of a delivery: it inserts the row of its message only, and acknowledges a message that
has one when the row is there. -/
def auditorRule (_ : ℕ) (data : List UInt8) (t : Transcript Audit.sig) : Audit.Cmd → Prop
  | .query (.create row) => loggedRow data = some row.stored
  | .settle .ack => loggedRow data ≠ none → Audited t
  | _ => True

section Silent

variable {zod : Zod} {data : List UInt8} {parsed : ParsedEvent}

theorem string_of_accepts {min : ℕ} {max : Option ℕ} {input : Option Json}
    (h : (FieldSchema.string min max).accepts zod input = true) :
    ∃ s, input = some (.string s) := by
  cases input with
  | none => cases h
  | some x =>
    cases x with
    | string s => exact ⟨s, rfl⟩
    | null | bool | number | infinity | array | object => cases h

/-- A message that is parsed is an object with the fields of an envelope. -/
theorem exists_fields_of_receive (h : receive zod data = .ok parsed) :
    ∃ fields id type, Json.parse (decode data) = some (.object fields) ∧
      fields.lookup (utf16 "eventId") = some (.string id) ∧
      fields.lookup (utf16 "eventType") = some (.string type) ∧
      parsePayload zod (.ofFields fields) = .ok parsed.payload := by
  unfold receive at h
  split at h
  · cases h
  · rename_i raw hraw
    cases henvelope : parseEnvelope zod raw with
    | error err =>
      simp only [parseEvent, henvelope, bind, Except.bind] at h
      cases h
    | ok envelope =>
      simp only [parseEvent, henvelope, bind, Except.bind] at h
      cases hpayload : parsePayload zod envelope with
      | error err =>
        rw [hpayload] at h
        cases h
      | ok payload =>
        rw [hpayload] at h
        cases h
        unfold parseEnvelope at henvelope
        split at henvelope
        · cases henvelope
        · rename_i out hparse
          cases henvelope
          obtain ⟨fields, hobject, haccepts, rfl⟩ := safeParse_eq_ok_iff.mp hparse
          cases hobject
          obtain ⟨id, hid⟩ := string_of_accepts (haccepts ("eventId", .string 1 (some 200))
            (by decide))
          obtain ⟨type, htype⟩ := string_of_accepts (haccepts ("eventType", .string 1 (some 100))
            (by decide))
          rw [ofFields_pick] at hpayload
          exact ⟨fields, id, type, hraw, hid, htype, hpayload⟩

/-- A schema adds no org. -/
theorem exists_payload_of_parsePayload {envelope : EventEnvelope}
    {payload : List (JsString × Json)} {orgId : Json}
    (h : parsePayload zod envelope = .ok (some (.object payload)))
    (horg : payload.lookup (utf16 "orgId") = some orgId) :
    ∃ raw, envelope.payload = some (.object raw) ∧ raw.lookup (utf16 "orgId") = some orgId := by
  unfold parsePayload at h
  split at h
  · cases h
  · split at h
    · exact ⟨payload, Except.ok.inj h, horg⟩
    · rename_i name shape hschema
      split at h
      · cases h
      · rename_i out hparse
        cases h
        obtain ⟨raw, hraw, -, rfl⟩ := safeParse_eq_ok_iff.mp hparse
        obtain ⟨hmem, hnodup⟩ := payloadSchema_orgId _ (List.mem_of_find?_eq_some hschema)
        exact ⟨raw, hraw, (lookup_pick hnodup _ hmem).symm.trans horg⟩

theorem object_of_orgIdOf {payload : Option Json} {orgId : Json}
    (h : orgIdOf payload = .ok (some orgId)) :
    ∃ fields, payload = some (.object fields) ∧ fields.lookup (utf16 "orgId") = some orgId := by
  unfold orgIdOf at h
  split at h
  · cases h
  · cases h
  · rename_i fields
    exact ⟨fields, rfl, Except.ok.inj h⟩
  · cases h

/-- The handler of a message without an event asks nothing of the database. -/
theorem auditHandler_every (hnone : AuditEvent.ofData data = none)
    (h : receive zod data = .ok parsed) :
    Handler.Every (fun _ => False) (auditHandler parsed) := by
  obtain ⟨fields, id, type, hparsed, hid, htype, hpayload⟩ := exists_fields_of_receive h
  unfold auditHandler
  split
  · exact Handler.every_throw _
  · rename_i orgId horg
    split
    · rename_i orgId payload htruthy hsome
      refine Handler.Every.tryCatch ?_ fun err => ?_
      · -- an org that could be tried would make the message an event
        unfold withTenant
        split
        · rename_i s
          obtain ⟨rfl, hs⟩ := Option.filter_eq_some_iff.mp htruthy
          obtain ⟨picked, hpicked, hlookup⟩ := object_of_orgIdOf horg
          rw [hpicked] at hpayload
          obtain ⟨raw, hraw, hrawOrg⟩ := exists_payload_of_parsePayload hpayload hlookup
          have hne : s ≠ [] := by simpa [isTruthy] using hs
          have hevent := ofData_data ⟨data, fields, hparsed, id, hid, type, htype, raw, hraw, s,
            hrawOrg, hne⟩
          rw [hnone] at hevent
          cases hevent
        · exact Handler.every_throw _
      · split
        · exact Handler.every_pure _
        · exact Handler.every_throw _
    · exact Handler.every_pure _

end Silent

theorem obeys_auditorRule (zod : Zod) :
    (auditors zod).Obeys auditorRule fun _ _ _ _ => True := by
  intro p data
  show (deliver zod data).Follows _ _ _
  cases hevent : AuditEvent.ofData data with
  | some event =>
    obtain rfl := data_of_ofData hevent
    have hlogged : loggedRow event.data = some event.row := by rw [loggedRow, hevent]; rfl
    refine (@Audit.obeys Unit zod (fun _ => event) p ()).mono (fun t c hrule => ?_)
      fun _ _ _ => trivial
    cases c with
    | settle settlement =>
      cases settlement with
      | ack => exact fun _ => hrule
      | nak | term => trivial
    | query q =>
      cases q with
      | create row => exact hlogged.trans (congrArg some hrule.symm)
      | begin | setConfig | commit | rollback => trivial
  | none =>
    have hlogged : loggedRow data = none := by rw [loggedRow, hevent]; rfl
    have hsettle : ∀ (settlements : List Settlement) (t : Transcript Audit.sig),
        (settlements.forM settle).Follows (auditorRule p data) (fun _ _ => True) t := by
      intro settlements
      induction settlements with
      | nil => exact fun _ => trivial
      | cons settlement settlements ih =>
        refine fun t => ⟨?_, fun _ => ih _⟩
        cases settlement with
        | ack => exact fun hsome => absurd hlogged hsome
        | nak | term => trivial
    unfold deliver
    split
    · exact hsettle _ []
    · rename_i parsed hparsed
      have hquiet := Program.Triple.of_every (P := fun _ => True) (M := auditorRule p data)
        (auditHandler_every hevent hparsed) (fun _ _ _ hfalse => hfalse.elim)
        fun _ _ _ _ _ => trivial
      exact (hquiet [] trivial).bind fun outcome t _ => hsettle _ t

theorem consistent_auditors {zod : Zod} {ls : List (Label ℕ Reply ℕ (List UInt8))}
    {c : Conf (List UInt8)} (hrun : (auditors zod).run (.init .empty) ls = some c) :
    Consistent c.world := by
  refine System.run_induction (I := fun c : Conf (List UInt8) => Consistent c.world)
    (fun c a d hc (_ : True) hst => ?_) consistent_init hrun
    (System.along_of_forall (fun _ _ => trivial) _ _)
  cases hst with
  | start hp => exact hc
  | command hp hk hx => exact consistent_command hc (effect_of_exec hx)
  | drift hx =>
    cases hx
    exact hc.drop _

/-! ## The system -/

/-- The outbox and the audit log, each with its processes, and between them the messages that the
bus has stored, with their ids. -/
structure Pipeline where
  outbox : PollConfig
  stored : List (String × List UInt8)
  audit : Conf (List UInt8)

/-- A row is inserted by some transaction, a poller is started or goes on (and the bus knows the id
of what it publishes or not), a message is delivered, a delivery goes on, or the database gives its
transaction up. -/
inductive Act
  | insert (row : OutboxEvent)
  | poller (p : Pid) (ticks : ℕ)
  | poll (p : Pid) (i : Input) (known : Bool)
  | deliver (p : ℕ) (data : List UInt8)
  | handle (p : ℕ) (reply : Reply)
  | abort (p : ℕ)

namespace Pipeline

def init : Pipeline := ⟨.init .empty, [], .init .empty⟩

/-- What the bus has stored. -/
def stream (s : Pipeline) : List (List UInt8) := s.stored.map Prod.snd

/-- What the bus has stored after a command that it has performed. It stores a message, unless it
knows the id from a message that it has stored. -/
def store (stored : List (String × List UInt8)) (known : Bool) :
    Outbox.Cmd → Option (List (String × List UInt8))
  | .jsPublish _ text msgID =>
    if !known then some ((msgID, messageData text) :: stored)
    else if msgID ∈ stored.map Prod.fst then some stored
    else none
  | _ => some stored

variable (zod : Zod) (toISOString : ℤ → String)

def onOutbox (s : Pipeline) (l : Label Pid Input OutboxEvent Task) : Option Pipeline :=
  (pollers.next s.outbox l).map fun out => { s with outbox := out.2 }

/-- A poller goes on. -/
def onPoll (s : Pipeline) (p : Pid) (i : Input) (known : Bool) : Option Pipeline :=
  (pollers.next s.outbox (.step p i)).bind fun out =>
    match out.1 with
    | .command e =>
      (if i.isPerformed then store s.stored known e.cmd else some s.stored).map fun stored =>
        { s with outbox := out.2, stored := stored }
    | _ => none

def onAudit (s : Pipeline) (l : Label ℕ Reply ℕ (List UInt8)) : Option Pipeline :=
  ((auditors zod).next s.audit l).map fun out => { s with audit := out.2 }

/-- The column of the payloads has JSON in it, and what is delivered is in the stream. -/
def next (s : Pipeline) : Act → Option Pipeline
  | .insert row => if (Json.parse row.payload.toList).isSome then s.onOutbox (.drift row) else none
  | .poller p ticks => s.onOutbox (.start p (.poller (natsEventPublisher toISOString) ticks))
  | .poll p i known => s.onPoll p i known
  | .deliver p data => if data ∈ s.stream then s.onAudit zod (.start p data) else none
  | .handle p reply => s.onAudit zod (.step p reply)
  | .abort p => s.onAudit zod (.drift p)

def run : Pipeline → List Act → Option Pipeline
  | s, [] => some s
  | s, a :: as => (s.next zod toISOString a).bind fun s => s.run as

end Pipeline

/-- The message carries the row. -/
def Carries (toISOString : ℤ → String) (data : List UInt8) (row : OutboxEvent) : Prop :=
  ∃ now, data = messageData (Outbox.EventEnvelope.encode
    ⟨row.id, row.eventType, toISOString now, row.payload⟩)

/-- However often rows are published and messages are delivered: no two rows of the log have the
same event id, the log has rows of the outbox only, a row of the outbox is marked only if a message
with it has been stored, a message carries a row, and once it has been acknowledged the log has that
row once. -/
structure EndToEnd (toISOString : ℤ → String) (s : Pipeline) : Prop where
  unique : (s.audit.world.shared.rows.map AuditLog.eventId).Nodup
  origin : ∀ r ∈ s.audit.world.shared.rows,
    ∃ row ∈ s.outbox.world.shared.rows, auditRow row = some r
  published : ∀ row ∈ s.outbox.world.shared.rows, row.publishedAt ≠ none →
    ∃ data ∈ s.stream, Carries toISOString data row
  carried : ∀ data ∈ s.stream, ∃ row ∈ s.outbox.world.shared.rows, Carries toISOString data row
  logged : ∀ p P, s.audit.procs p = some P → Acked s.audit p →
    ∃ row ∈ s.outbox.world.shared.rows, Carries toISOString P.op row ∧
      ∀ r, auditRow row = some r →
        s.audit.world.shared.rows.filter (fun other => other.eventId = utf16 row.id) = [r]

/-! ## The invariant -/

/-- Both sides are reached by runs of their own, all publishers publish to the bus, payloads are
JSON, what the bus has stored has been published under its id, what it has acknowledged is stored
under its id, and what has been delivered is in the stream. -/
structure Linked (zod : Zod) (toISOString : ℤ → String) (s : Pipeline) : Prop where
  outbox : ∃ ls, pollers.run (.init .empty) ls = some s.outbox
  audit : ∃ ls, (auditors zod).run (.init .empty) ls = some s.audit
  nats : ∀ p P, s.outbox.procs p = some P → P.op.publisher = natsEventPublisher toISOString
  json : ∀ row ∈ s.outbox.world.shared.contents, (Json.parse row.payload.toList).isSome
  sent : ∀ m ∈ s.stored, ∃ p subject text r,
    (⟨p, .jsPublish subject text m.1, r⟩ : Event Outbox.sig Pid) ∈ s.outbox.world.history ∧
      messageData text = m.2
  kept : ∀ p subject text msgID,
    (⟨p, .jsPublish subject text msgID, .ok ()⟩ : Event Outbox.sig Pid) ∈
      s.outbox.world.history → msgID ∈ s.stored.map Prod.fst
  delivered : ∀ p P, s.audit.procs p = some P → P.op ∈ s.stream

section Linked

variable {zod : Zod} {toISOString : ℤ → String} {s s' : Pipeline} {a : Act}

theorem linked_init : Linked zod toISOString .init where
  outbox := ⟨[], rfl⟩
  audit := ⟨[], rfl⟩
  nats p P h := nomatch h
  json row h := by cases h
  sent m h := by cases h
  kept p subject text msgID h := by cases h
  delivered p P h := nomatch h

/-- The operation of a process is the one that it was started with. -/
theorem op_of_next {S : Signature} {σ ι η Op α : Type} {sys : System S ℕ σ ι η Op α}
    {c d : Config S ℕ σ Op α} {l : Label ℕ ι η Op} {a : Action S ℕ η Op}
    (h : sys.next c l = some (a, d)) {p : ℕ} {P : Proc S ℕ Op α} (hP : d.procs p = some P) :
    (∃ Q, c.procs p = some Q ∧ Q.op = P.op) ∨ l = .start p P.op := by
  cases l with
  | start q op =>
    obtain ⟨-, -, rfl⟩ := System.next_start_eq_some.mp h
    by_cases hpq : p = q
    · subst hpq
      cases Option.some.inj ((Function.update_self p _ c.procs).symm.trans hP)
      exact .inr rfl
    · exact .inl ⟨P, (Function.update_of_ne hpq _ c.procs).symm.trans hP, rfl⟩
  | step q i =>
    obtain ⟨Q, cmd, k, r, s, hQ, -, -, -, rfl⟩ := System.next_step_eq_some.mp h
    by_cases hpq : p = q
    · subst hpq
      cases Option.some.inj ((Function.update_self p _ c.procs).symm.trans hP)
      exact .inl ⟨Q, hQ, rfl⟩
    · exact .inl ⟨P, (Function.update_of_ne hpq _ c.procs).symm.trans hP, rfl⟩
  | drift e =>
    obtain ⟨s, -, -, rfl⟩ := System.next_drift_eq_some.mp h
    exact .inl ⟨P, hP, rfl⟩

/-- The side of the outbox after a step of its system. -/
theorem Linked.outbox_step (h : Linked zod toISOString s) {l : Label Pid Input OutboxEvent Task}
    {action : Action Outbox.sig Pid OutboxEvent Task} {c : PollConfig}
    (hstart : ∀ p task, l = .start p task → task.publisher = natsEventPublisher toISOString)
    (hinsert : ∀ row, l = .drift row → (Json.parse row.payload.toList).isSome)
    (hc : pollers.next s.outbox l = some (action, c)) :
    (∃ ls, pollers.run (.init .empty) ls = some c) ∧
      (∀ p P, c.procs p = some P → P.op.publisher = natsEventPublisher toISOString) ∧
      ∀ row ∈ c.world.shared.contents, (Json.parse row.payload.toList).isSome := by
  obtain ⟨ls, hls⟩ := h.outbox
  refine ⟨⟨ls ++ [l], ?_⟩, fun p P hP => ?_, fun row hrow => ?_⟩
  · exact System.run_append.mpr ⟨_, hls, System.run_cons.mpr ⟨action, c, hc, rfl⟩⟩
  · rcases op_of_next hc hP with ⟨Q, hQ, hop⟩ | hl
    · rw [← hop]
      exact h.nats p Q hQ
    · exact hstart p P.op hl
  · have hcontents : c.world.shared.contents = s.outbox.world.shared.contents ++ inserts [l] :=
      contents_run (System.run_cons.mpr ⟨action, c, hc, rfl⟩)
    rw [hcontents] at hrow
    rcases List.mem_append.mp hrow with hrow | hrow
    · exact h.json row hrow
    · obtain ⟨l', hl', hwritten⟩ := List.mem_filterMap.mp hrow
      cases List.mem_singleton.mp hl'
      cases l with
      | drift inserted =>
        cases hwritten
        exact hinsert inserted rfl
      | start | step => cases hwritten

/-- A step that is no command of a poller publishes nothing. -/
theorem Linked.onOutbox (h : Linked zod toISOString s) {l : Label Pid Input OutboxEvent Task}
    (hstart : ∀ p task, l = .start p task → task.publisher = natsEventPublisher toISOString)
    (hinsert : ∀ row, l = .drift row → (Json.parse row.payload.toList).isSome)
    (hcommand : ∀ p i, l ≠ .step p i) (hnext : s.onOutbox l = some s') :
    Linked zod toISOString s' := by
  obtain ⟨⟨action, c⟩, hc, rfl⟩ := Option.map_eq_some_iff.mp hnext
  obtain ⟨houtbox, hnats, hjson⟩ := h.outbox_step hstart hinsert hc
  have hhistory : c.world.history = s.outbox.world.history := by
    cases l with
    | start p task =>
      obtain ⟨-, -, rfl⟩ := System.next_start_eq_some.mp hc
      rfl
    | drift row =>
      obtain ⟨table, -, -, rfl⟩ := System.next_drift_eq_some.mp hc
      rfl
    | step p i => exact absurd rfl (hcommand p i)
  refine ⟨houtbox, h.audit, hnats, hjson, ?_, ?_, h.delivered⟩
  · show ∀ m ∈ s.stored, ∃ p subject text r, _ ∈ c.world.history ∧ _
    rw [hhistory]
    exact h.sent
  · show ∀ p subject text msgID, _ ∈ c.world.history → _
    rw [hhistory]
    exact h.kept

section Stored

variable {stored stored' : List (String × List UInt8)} {known : Bool} {cmd : Outbox.Cmd}

theorem subset_of_store (h : Pipeline.store stored known cmd = some stored') :
    stored ⊆ stored' := by
  unfold Pipeline.store at h
  split at h
  · split_ifs at h
    · cases h
      exact List.subset_cons_self _ _
    · cases h
      exact fun _ hm => hm
  · cases h
    exact fun _ hm => hm

/-- What is new in the stream is what the command publishes. -/
theorem mem_of_store (h : Pipeline.store stored known cmd = some stored')
    {m : String × List UInt8} (hm : m ∈ stored') :
    m ∈ stored ∨ ∃ subject text, cmd = .jsPublish subject text m.1 ∧ messageData text = m.2 := by
  unfold Pipeline.store at h
  split at h
  · split_ifs at h
    · cases h
      rcases List.mem_cons.mp hm with rfl | hm
      · exact .inr ⟨_, _, rfl, rfl⟩
      · exact .inl hm
    · cases h
      exact .inl hm
  · cases h
    exact .inl hm

/-- What the command publishes is stored under its id, now or before. -/
theorem mem_ids_of_store {subject text msgID : String}
    (h : Pipeline.store stored known (.jsPublish subject text msgID) = some stored') :
    msgID ∈ stored'.map Prod.fst := by
  unfold Pipeline.store at h
  dsimp only at h
  split_ifs at h with hnew hmem
  · cases h
    exact List.mem_cons_self
  · cases h
    exact hmem

end Stored

theorem Linked.onPoll (h : Linked zod toISOString s) {p : Pid} {i : Input} {known : Bool}
    (hnext : s.onPoll p i known = some s') : Linked zod toISOString s' := by
  obtain ⟨⟨action, c⟩, hc, hstored⟩ := Option.bind_eq_some_iff.mp hnext
  obtain ⟨houtbox, hnats, hjson⟩ :=
    h.outbox_step (fun _ _ heq => by cases heq) (fun _ heq => by cases heq) hc
  obtain ⟨P, cmd, k, r, table, -, -, hx, rfl, rfl⟩ := System.next_step_eq_some.mp hc
  dsimp only at hstored
  obtain ⟨stored, hstore, rfl⟩ := Option.map_eq_some_iff.mp hstored
  have hsub : s.stored ⊆ stored := by
    split_ifs at hstore
    · exact subset_of_store hstore
    · cases hstore
      exact fun _ hm => hm
  refine ⟨houtbox, h.audit, hnats, hjson, fun m hm => ?_, fun q subject text msgID he => ?_,
    fun q Q hQ => List.map_subset _ hsub (h.delivered q Q hQ)⟩
  · have hcases : m ∈ s.stored ∨
        ∃ subject text, cmd = .jsPublish subject text m.1 ∧ messageData text = m.2 := by
      split_ifs at hstore
      · exact mem_of_store hstore hm
      · cases hstore
        exact .inl hm
    rcases hcases with hold | ⟨subject, text, rfl, hdata⟩
    · obtain ⟨q, subject, text, answer, he, hdata⟩ := h.sent m hold
      exact ⟨q, subject, text, answer, List.mem_cons_of_mem _ he, hdata⟩
    · exact ⟨p, subject, text, r, List.mem_cons_self, hdata⟩
  · rcases List.mem_cons.mp he with heq | he
    · -- the publish is the command of this step, and has been performed
      cases heq
      rw [if_pos (isPerformed_of_exec hx)] at hstore
      exact mem_ids_of_store hstore
    · exact List.map_subset _ hsub (h.kept q subject text msgID he)

theorem Linked.onAudit (h : Linked zod toISOString s) {l : Label ℕ Reply ℕ (List UInt8)}
    (hstart : ∀ p data, l = .start p data → data ∈ s.stream)
    (hnext : s.onAudit zod l = some s') : Linked zod toISOString s' := by
  obtain ⟨⟨a, c⟩, hc, rfl⟩ := Option.map_eq_some_iff.mp hnext
  obtain ⟨ls, hls⟩ := h.audit
  refine ⟨h.outbox, ⟨ls ++ [l], ?_⟩, h.nats, h.json, h.sent, h.kept, fun p P hP => ?_⟩
  · exact System.run_append.mpr ⟨_, hls, System.run_cons.mpr ⟨a, c, hc, rfl⟩⟩
  · rcases op_of_next hc hP with ⟨Q, hQ, hop⟩ | hl
    · rw [← hop]
      exact h.delivered p Q hQ
    · exact hstart p P.op hl

theorem linked_next (h : Linked zod toISOString s) (hnext : s.next zod toISOString a = some s') :
    Linked zod toISOString s' := by
  cases a with
  | insert row =>
    simp only [Pipeline.next] at hnext
    split at hnext
    · rename_i hjson
      refine h.onOutbox (fun _ _ heq => by cases heq) (fun row' heq => ?_)
        (fun _ _ heq => by cases heq) hnext
      cases heq
      exact hjson
    · cases hnext
  | poller p ticks =>
    refine h.onOutbox (fun q task heq => ?_) (fun _ heq => by cases heq)
      (fun _ _ heq => by cases heq) hnext
    cases heq
    rfl
  | poll p i known => exact h.onPoll hnext
  | deliver p data =>
    simp only [Pipeline.next] at hnext
    split at hnext
    · rename_i hsent
      refine h.onAudit (fun q data' heq => ?_) hnext
      cases heq
      exact hsent
    · cases hnext
  | handle p reply => exact h.onAudit (fun _ _ heq => by cases heq) hnext
  | abort p => exact h.onAudit (fun _ _ heq => by cases heq) hnext

theorem linked_run {as : List Act} (h : Linked zod toISOString s)
    (hrun : s.run zod toISOString as = some s') : Linked zod toISOString s' := by
  induction as generalizing s with
  | nil =>
    cases hrun
    exact h
  | cons a as ih =>
    obtain ⟨t, hnext, hrest⟩ := Option.bind_eq_some_iff.mp hrun
    exact ih (linked_next h hnext) hrest

end Linked

/-! ## What is published -/

section Published

variable {toISOString : ℤ → String} {row : OutboxEvent} {c : PollConfig}

theorem sound_run {ls : List (Label Pid Input OutboxEvent Task)}
    (hrun : pollers.run (.init .empty) ls = some c) : PollConforms c ∧ Sound c :=
  ⟨System.conforms_run obeys_pollRule hrun, System.invariant_run obeys_pollRule
    (fun _ _ _ hconf hi (_ : True) hstep => sound_step hconf hi hstep) (System.conforms_init _)
    sound_init hrun (System.along_of_forall (fun _ _ => trivial) _ _)⟩

/-- A publish that resolves has been sent to the bus. -/
theorem jsPublish_of_resolved {t : Transcript Outbox.sig}
    (h : Resolved (natsEventPublisher toISOString) row t) :
    ∃ now, (⟨.jsPublish (Outbox.subjectFor row.eventType) (Outbox.EventEnvelope.encode
      ⟨row.id, row.eventType, toISOString now, row.payload⟩) row.id, .ok ()⟩ :
        Exchange Outbox.sig) ∈ t := by
  obtain ⟨t₀, t₁, hsuf, hends⟩ := h
  have hpublish : Handler.Triple (fun _ _ => True) (fun _ => True)
      (publish toISOString row.eventType row.payload row.id)
      (fun _ t => ∃ now, (⟨.jsPublish (Outbox.subjectFor row.eventType)
        (Outbox.EventEnvelope.encode ⟨row.id, row.eventType, toISOString now, row.payload⟩) row.id,
          .ok ()⟩ : Exchange Outbox.sig) ∈ t) fun _ _ => True := by
    refine Handler.Triple.bind (Q := fun _ _ => True) ?_ fun now => ?_
    · refine Program.Triple.call (fun _ _ => trivial) fun t r _ => ?_
      cases r <;> trivial
    · refine Program.Triple.call (fun _ _ => trivial) fun t r _ => ?_
      cases r with
      | error err => trivial
      | ok u => exact ⟨now, List.mem_cons_self⟩
  obtain ⟨now, hmem⟩ := (hpublish t₀ trivial).ends hends
  exact ⟨now, hsuf.mem hmem⟩

end Published

section Runs

variable {zod : Zod} {toISOString : ℤ → String} {s : Pipeline}

theorem Linked.json_row (h : Linked zod toISOString s) {row : OutboxEvent}
    (hrow : row ∈ s.outbox.world.shared.rows) : (Json.parse row.payload.toList).isSome :=
  h.json row.written (List.mem_map.mpr ⟨row, hrow, rfl⟩)

/-- A message that is stored carries the row that has its id. -/
theorem Linked.carries (h : Linked zod toISOString s) {m : String × List UInt8}
    (hm : m ∈ s.stored) : ∃ row ∈ s.outbox.world.shared.rows,
      row.id = m.1 ∧ Carries toISOString m.2 row := by
  obtain ⟨msgID, data⟩ := m
  obtain ⟨p, subject, text, r, he, hdata⟩ := h.sent _ hm
  obtain ⟨ls, hrun⟩ := h.outbox
  obtain ⟨hconf, hsound⟩ := sound_run hrun
  obtain ⟨P, hP, row, hrow, hissues⟩ := identified_of_conforms hconf hsound he rfl
  rw [h.nats p P hP] at hissues
  rcases hissues.of_every (publish_every toISOString row.eventType row.payload row.id) with
    hcmd | ⟨now, hcmd⟩
  · cases hcmd
  · cases hcmd
    exact ⟨row, hrow, rfl, now, hdata.symm⟩

theorem Linked.carried (h : Linked zod toISOString s) {data : List UInt8}
    (hdata : data ∈ s.stream) :
    ∃ row ∈ s.outbox.world.shared.rows, Carries toISOString data row := by
  obtain ⟨m, hm, rfl⟩ := List.mem_map.mp hdata
  obtain ⟨row, hrow, -, hcarries⟩ := h.carries hm
  exact ⟨row, hrow, hcarries⟩

/-- A row is marked after a publish that the bus has acknowledged. -/
theorem Linked.published (h : Linked zod toISOString s) {row : OutboxEvent}
    (hrow : row ∈ s.outbox.world.shared.rows) (hmark : row.publishedAt ≠ none) :
    ∃ data ∈ s.stream, Carries toISOString data row := by
  obtain ⟨ls, hrun⟩ := h.outbox
  obtain ⟨p, P, hP, hresolved⟩ := (sound_run hrun).2.marked row hrow hmark
  rw [h.nats p P hP] at hresolved
  obtain ⟨now, hmem⟩ := jsPublish_of_resolved hresolved
  obtain ⟨m, hm, hid⟩ := List.mem_map.mp (h.kept _ _ _ _ (mem_transcript.mp hmem))
  -- the bus may have known the id from an earlier publish of the row
  obtain ⟨other, hother, hsame, hcarries⟩ := h.carries hm
  obtain rfl := Table.eq_of_id hother hrow (hsame.trans hid)
  exact ⟨m.2, List.mem_map_of_mem hm, hcarries⟩

/-- What a delivery inserts is a row of the outbox. -/
theorem Linked.logged (h : Linked zod toISOString s) {p : ℕ}
    {P : Proc Audit.sig ℕ (List UInt8) Unit} (hP : s.audit.procs p = some P) :
    ∃ row ∈ s.outbox.world.shared.rows,
      Carries toISOString P.op row ∧ loggedRow P.op = auditRow row := by
  obtain ⟨row, hrow, now, hdata⟩ := h.carried (h.delivered p P hP)
  refine ⟨row, hrow, ⟨now, hdata⟩, ?_⟩
  rw [hdata]
  exact loggedRow_messageData _ (h.json_row hrow)

theorem eventId_of_auditRow {row : OutboxEvent} {r : AuditLog} (h : auditRow row = some r) :
    r.eventId = utf16 row.id := by
  unfold auditRow at h
  split at h
  · split at h
    · split at h
      · cases h
        rfl
      · cases h
    · cases h
  · cases h

/-- A row of the outbox is found by the event id of its log row. -/
theorem auditRow_inj {t : Table} {row row' : OutboxEvent} {r r' : AuditLog} (hrow : row ∈ t.rows)
    (hrow' : row' ∈ t.rows) (hr : auditRow row = some r) (hr' : auditRow row' = some r')
    (hid : r.eventId = r'.eventId) : r = r' := by
  rw [eventId_of_auditRow hr, eventId_of_auditRow hr'] at hid
  obtain rfl := Table.eq_of_id hrow hrow' (utf16_injective hid)
  exact Option.some.inj (hr.symm.trans hr')

abbrev AuditConforms (c : Conf (List UInt8)) : Prop :=
  System.Conforms auditorRule (fun _ _ _ _ => True) c

/-- What a delivery has inserted is the row of its message. -/
theorem Linked.created (h : Linked zod toISOString s) (hconf : AuditConforms s.audit) {p : ℕ}
    {data : AuditLog} {r : Except JsError Unit}
    (hmem : ⟨p, .query (.create data), r⟩ ∈ s.audit.world.history) :
    ∃ P, s.audit.procs p = some P ∧ ∃ row ∈ s.outbox.world.shared.rows,
      Carries toISOString P.op row ∧ auditRow row = some data.stored := by
  obtain ⟨P, hist, hP, -, hrule⟩ := hconf.exists_of_mem hmem
  obtain ⟨row, hrow, hcarries, hlogged⟩ := h.logged hP
  exact ⟨P, hP, row, hrow, hcarries, hlogged.symm.trans hrule⟩

/-- The row of a message that the database has said to be there is there. -/
theorem Linked.mem_of_audited (h : Linked zod toISOString s) (hconf : AuditConforms s.audit)
    (hcons : Consistent s.audit.world) {p : ℕ} {P : Proc Audit.sig ℕ (List UInt8) Unit}
    (hP : s.audit.procs p = some P) {r : AuditLog} (hr : loggedRow P.op = some r)
    (haudited : Audited (transcript p s.audit.world.history)) :
    r ∈ s.audit.world.shared.rows := by
  have hown : ∀ {data : AuditLog} {answer : Except JsError Unit},
      ⟨p, .query (.create data), answer⟩ ∈ s.audit.world.history → data.stored = r := by
    intro data answer hmem
    obtain ⟨Q, hist, hQ, -, hrule⟩ := hconf.exists_of_mem hmem
    cases hP.symm.trans hQ
    exact Option.some.inj (hrule.symm.trans hr)
  obtain ⟨row, hrow, -, hlogged⟩ := h.logged hP
  rcases haudited with hcommit | ⟨q, hduplicate⟩
  · obtain ⟨data, answer, hcreate, hmem⟩ := hcons.committed p (mem_transcript.mp hcommit)
    exact hown hcreate ▸ hmem
  · have hrefused := mem_transcript.mp hduplicate
    obtain ⟨data, rfl, other, hother, hid⟩ := hcons.duplicate p q hrefused
    -- the row that is there is that of a row of the outbox with the same id
    obtain ⟨q, data', answer, hcreate, rfl⟩ := hcons.rows other hother
    obtain ⟨-, -, row', hrow', -, hstored⟩ := h.created hconf hcreate
    have hsame : data'.stored.eventId = r.eventId := by
      rw [← hown hrefused]
      exact hid
    rw [← auditRow_inj hrow' hrow hstored (hlogged.symm.trans hr) hsame]
    exact hother

/-- However rows are published and messages delivered, the log has what is promised in every state
of every run. -/
theorem endToEnd_run (zod : Zod) (toISOString : ℤ → String) (as : List Act) (s : Pipeline)
    (hrun : Pipeline.init.run zod toISOString as = some s) : EndToEnd toISOString s := by
  have h := linked_run linked_init hrun
  obtain ⟨ls, haudit⟩ := h.audit
  have hconf : AuditConforms s.audit := System.conforms_run (obeys_auditorRule zod) haudit
  have hcons := consistent_auditors haudit
  have hunique : (s.audit.world.shared.rows.map AuditLog.eventId).Nodup :=
    (List.nodup_append.mp hcons.distinct).1
  refine ⟨hunique, fun r hr => ?_, fun row hrow hmark => h.published hrow hmark,
    fun data hdata => h.carried hdata, fun p P hP hack => ?_⟩
  · obtain ⟨p, data, answer, hcreate, rfl⟩ := hcons.rows r hr
    obtain ⟨-, -, row, hrow, -, hstored⟩ := h.created hconf hcreate
    exact ⟨row, hrow, hstored⟩
  · obtain ⟨row, hrow, hcarries, hlogged⟩ := h.logged hP
    refine ⟨row, hrow, hcarries, fun r hr => ?_⟩
    obtain ⟨Q, hist, hQ, hsuf, hrule⟩ := hconf.exists_of_mem hack
    cases hP.symm.trans hQ
    have hloggedRow := hlogged.trans hr
    have hsub := transcript_suffix (p := p) ((List.suffix_cons _ _).trans hsuf)
    have haudited : Audited (transcript p s.audit.world.history) :=
      (hrule (by rw [hloggedRow]; exact Option.some_ne_none r)).imp (fun h => hsub.mem h)
        fun ⟨q, h⟩ => ⟨q, hsub.mem h⟩
    refine filter_eq_singleton hunique
      (h.mem_of_audited hconf hcons hP hloggedRow haudited) (eventId_of_auditRow hr)

end Runs

/-! ### Two replicas and two deliveries -/

def revoked : OutboxEvent where
  id := "1"
  eventType := "api_key.revoked"
  payload := "\x7b\"orgId\":\"11111111-1111-4111-8111-111111111111\"\x7d"
  publishedAt := none
  createdAt := 1

def epoch (_ : ℤ) : String := "1970"

def revokedData : List UInt8 := messageData
  (Outbox.EventEnvelope.encode ⟨revoked.id, revoked.eventType, epoch 0, revoked.payload⟩)

/-- The bus refuses the first publish of the row, and knows the id of the last one, which is not
answered; the commit of one delivery comes back with an error, and the other one finds the row. -/
def replicas : List Act :=
  [.insert revoked, .poller 0 2, .poller 1 1, .poll 0 ⟨.arranged [revoked], none⟩ false,
    .poll 1 ⟨.arranged [revoked], none⟩ false, .poll 0 ⟨.now 9, none⟩ false,
    .poll 0 ⟨.nothing, some ("no responders", false)⟩ false,
    .poll 0 ⟨.arranged [revoked], none⟩ false, .poll 0 ⟨.now 10, none⟩ false,
    .poll 0 ⟨.nothing, none⟩ false, .poll 1 ⟨.now 11, none⟩ false,
    .poll 1 ⟨.nothing, some ("timeout", true)⟩ true, .poll 0 ⟨.now 12, none⟩ false,
    .poll 0 ⟨.nothing, none⟩ false, .deliver 0 revokedData, .deliver 1 revokedData, .handle 0 .ok,
    .handle 1 .ok, .handle 0 .ok, .handle 1 .ok, .handle 0 .ok, .handle 0 (.lost []),
    .handle 1 .ok, .handle 1 .ok, .handle 1 .ok, .handle 0 .ok]

theorem endToEnd_run_replicas : ∃ s, Pipeline.init.run anyZod epoch replicas = some s ∧
    s.stream.length = 1 ∧ s.audit.world.shared.rows.length = 1 ∧
    EndToEnd epoch s := by
  have hres : (Pipeline.init.run anyZod epoch replicas).map (fun s =>
      (s.stream.length, s.audit.world.shared.rows.length)) = some (1, 1) := by
    decide +kernel
  obtain ⟨s, hrun, hs⟩ := Option.map_eq_some_iff.mp hres
  exact ⟨s, hrun, congrArg Prod.fst hs, congrArg Prod.snd hs,
    endToEnd_run anyZod epoch replicas s hrun⟩

end CloudMesh.Events
