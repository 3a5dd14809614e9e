import CloudMesh.Events.Schema
import CloudMesh.Gateway.Adapters
import CloudMesh.Gateway.Routes
import CloudMesh.Rows
import Mathlib.Data.List.Forall2

/-!
# Producers and consumers

The rows that `recordUsageAndOutbox` and `maybePublishBudgetWarning` of
`apps/gateway/src/lib/billing.ts` write to the outbox, the envelope that `publish` of
`packages/events/src/bus.ts` makes of a row, and what `parseEvent` makes of the envelope. Token
counts are the numbers that a provider has sent. A payload comes back from the database with its
keys in another order.

## Main definitions

- `recordUsageAndOutbox`, `maybePublishBudgetWarning` — the rows
- `rowOf` — the rows of the gateway's own events
- `envelope` — the message of a row
- `Received` — a row is accepted, with the payload that was written
- `received_iff` — which rows are
-/

namespace CloudMesh.Events.Producers

/-! ## The producers -/

structure OutboxRow where
  eventType : String
  payload : List (JsString × Json)

structure RecordUsageParams where
  orgId : String
  apiKeyId : String
  model : String
  promptTokens : ℚ
  completionTokens : ℚ
  requestId : String

def computeCostUsd (params : RecordUsageParams) : Option ℚ :=
  (getModelPricing params.model).map fun pricing =>
    let cost : ℚ := params.promptTokens / 1000000 * pricing.inputPerMillion +
      params.completionTokens / 1000000 * pricing.outputPerMillion
    (mathRound (cost * 1000000) : ℚ) / 1000000

def text (s : String) : Json := .string (utf16 s)

def usagePayload (params : RecordUsageParams) (costUsd : ℚ) : List (JsString × Json) :=
  [(utf16 "orgId", text params.orgId), (utf16 "apiKeyId", text params.apiKeyId),
    (utf16 "model", text params.model), (utf16 "promptTokens", .number params.promptTokens),
    (utf16 "completionTokens", .number params.completionTokens),
    (utf16 "costUsd", .number costUsd), (utf16 "requestId", text params.requestId)]

/-- The row that the transaction writes; `inserts` is whether the `INSERT` has affected a row. A
cost that is `NaN` is refused by the column. -/
def recordUsageAndOutbox (inserts : RecordUsageParams → ℚ → Bool) (params : RecordUsageParams) :
    Option OutboxRow :=
  match computeCostUsd params with
  | none => none
  | some costUsd =>
    if inserts params costUsd then some ⟨"usage.recorded", usagePayload params costUsd⟩ else none

def budgetPayload (orgId : String) (spentUsd budgetUsd remainingFraction : ℚ) :
    List (JsString × Json) :=
  [(utf16 "orgId", text orgId), (utf16 "spentUsd", .number spentUsd),
    (utf16 "budgetUsd", .number budgetUsd), (utf16 "remainingFraction", .number remainingFraction)]

def maybePublishBudgetWarning (orgId : String) (status : Gateway.BudgetStatus) :
    Option OutboxRow :=
  match status.budgetUsd with
  | none => none
  | some budgetUsd =>
    if status.remainingFraction ≥ 1 / 10 then none
    else some ⟨"budget.warning",
      budgetPayload orgId status.spentUsd budgetUsd status.remainingFraction⟩

/-! ### The gateway's own events -/

/-- The parameters of the routes and of the jobs, where tokens are counted. -/
def ofGateway (params : Gateway.RecordUsageParams) : RecordUsageParams where
  orgId := params.orgId.text
  apiKeyId := params.apiKeyId.text
  model := params.model
  promptTokens := params.usage.promptTokens
  completionTokens := params.usage.completionTokens
  requestId := params.requestId

theorem computeCostUsd_ofGateway (params : Gateway.RecordUsageParams) :
    computeCostUsd (ofGateway params) = CloudMesh.computeCostUsd params.model params.usage := rfl

/-- The row of an event that the gateway writes, if it is one of the two producers'. -/
def rowOf : Gateway.OutboxEvent → Option OutboxRow
  | .usageRecorded params costUsd =>
    some ⟨"usage.recorded", usagePayload (ofGateway params) costUsd⟩
  | .budgetWarning orgId spentUsd (some budgetUsd) remainingFraction =>
    some ⟨"budget.warning", budgetPayload orgId.text spentUsd budgetUsd remainingFraction⟩
  | _ => none

/-- The `INSERT` has affected a row. -/
def isInserted : Except Thrown Bool → Bool
  | .ok inserted => inserted
  | .error _ => false

/-- The transaction of the gateway writes the row of this module, if its `INSERT` affects a row. -/
theorem recordUsageAndOutbox_gateway (s : Gateway.Store) (params : Gateway.RecordUsageParams) :
    ∃ costUsd, Gateway.recordUsageAndOutbox params = Gateway.command (.insertUsage params costUsd) ∧
      (s.insertUsage params costUsd).2.outbox.filterMap rowOf = s.outbox.filterMap rowOf ++
        (recordUsageAndOutbox (fun _ _ => isInserted (s.insertUsage params costUsd).1)
          (ofGateway params)).toList := by
  refine ⟨_, rfl, ?_⟩
  rw [recordUsageAndOutbox, computeCostUsd_ofGateway, Gateway.Store.insertUsage]
  cases hstored : Gateway.storedCost params.model params.requestId params.usage
      (CloudMesh.computeCostUsd params.model params.usage) with
  | error message =>
    dsimp only [isInserted]
    split <;> simp
  | ok costUsd =>
    rw [Gateway.eq_some_of_storedCost hstored]
    dsimp only
    -- a request id that is taken inserts nothing
    split <;> simp [isInserted, rowOf]

/-- The gateway writes an event with the row of this module, or nothing where there is none. -/
theorem maybePublishBudgetWarning_gateway (orgId : OrgId) (status : Gateway.BudgetStatus) :
    match maybePublishBudgetWarning orgId.text status with
    | none => Gateway.maybePublishBudgetWarning orgId status = pure ()
    | some row => ∃ event, rowOf event = some row ∧
        Gateway.maybePublishBudgetWarning orgId status =
          Gateway.command (.writeOutboxEvent event) := by
  rw [Gateway.maybePublishBudgetWarning, maybePublishBudgetWarning]
  cases hbudget : status.budgetUsd with
  | none => simp
  | some budgetUsd =>
    by_cases hleft : status.remainingFraction ≥ 1 / 10
    · rw [if_pos (.inr hleft)]
      simp only [hleft, if_true]
    · rw [if_neg (not_or.mpr ⟨nofun, hleft⟩)]
      simp only [hleft, if_false]
      exact ⟨_, rfl, rfl⟩

/-! ## The message -/

/-- The id of a row of the outbox. -/
abbrev EventId : Type := { id : JsString // isUuid id = true }

/-- What `toISOString` returns. -/
abbrev Timestamp : Type := { s : JsString // s ≠ [] }

/-- The envelope of `publish`, as it is read again. -/
def envelope (id : EventId) (timestamp : Timestamp) (eventType : String)
    (payload : List (JsString × Json)) : Json :=
  Json.serialized (.object [(utf16 "eventId", .string id.val), (utf16 "eventType", text eventType),
    (utf16 "timestamp", .string timestamp.val), (utf16 "payload", .object payload)])

/-- However the database has ordered the keys, the message is accepted with the payload that was
written. -/
def Received (zod : Zod) (row : OutboxRow) : Prop :=
  ∀ id timestamp stored, stored.Perm row.payload →
    ∃ event, parseEvent zod (envelope id timestamp row.eventType stored) = .ok event ∧
      event.payload = some (.object row.payload)

/-! ## Fields -/

theorem length_of_matchesPattern {ps : List (UInt16 → Bool)} {s : JsString}
    (h : matchesPattern ps s = true) : s.length = ps.length := by
  induction ps generalizing s with
  | nil =>
    cases s with
    | nil => rfl
    | cons c s => simp [matchesPattern] at h
  | cons p ps ih =>
    cases s with
    | nil => simp [matchesPattern] at h
    | cons c s =>
      simp only [matchesPattern, Bool.and_eq_true] at h
      rw [List.length_cons, List.length_cons, ih h.2]

theorem length_of_isUuid {s : JsString} (h : isUuid s = true) : s.length = 36 := by
  simp only [isUuid, Bool.or_eq_true, decide_eq_true_eq] at h
  rcases h with (h | rfl) | rfl
  · exact length_of_matchesPattern h
  · decide
  · decide

/-! ## Payloads with the keys of their schema -/

section Keys

variable {zod : Zod} {shape : Shape} {fields stored : List (JsString × Json)}

/-- The fields are those of the shape, in its order, and no two have the same key. -/
structure Keyed (shape : Shape) (fields : List (JsString × Json)) : Prop where
  keys : fields.map Prod.fst = shape.map fun field => utf16 field.1
  nodup : (fields.map Prod.fst).Nodup

theorem pick_of_lookup (hkeys : fields.map Prod.fst = shape.map fun field => utf16 field.1)
    (hlookup : ∀ field ∈ fields, stored.lookup field.1 = some field.2) :
    Shape.pick shape stored = fields := by
  induction shape generalizing fields with
  | nil =>
    rw [List.map_eq_nil_iff.mp (hkeys.trans rfl)]
    rfl
  | cons field shape ih =>
    cases fields with
    | nil => cases hkeys
    | cons entry fields =>
      obtain ⟨hkey, hkeys⟩ := List.cons.inj hkeys
      have hentry : (stored.lookup (utf16 field.1)).map (utf16 field.1, ·) = some entry := by
        rw [show utf16 field.1 = entry.1 from hkey.symm, hlookup entry List.mem_cons_self]
        rfl
      have hrest := ih hkeys fun other hother => hlookup other (List.mem_cons_of_mem _ hother)
      rw [pick_cons, hentry, hrest]
      rfl

theorem lookup_of_perm (h : Keyed shape fields) (hperm : stored.Perm fields) :
    ∀ field ∈ fields, stored.lookup field.1 = some field.2 := fun field hfield =>
  (lookup_perm h.nodup hperm field.1).trans (lookup_of_mem h.nodup hfield)

/-- Nothing is lost of a payload that has the keys of its schema. -/
theorem pick_of_perm (h : Keyed shape fields) (hperm : stored.Perm fields) :
    Shape.pick shape stored = fields :=
  pick_of_lookup h.keys (lookup_of_perm h hperm)

theorem accepts_iff_forall₂ (h : Keyed shape fields) (hperm : stored.Perm fields) :
    Shape.Accepts zod shape stored ↔
      List.Forall₂ (fun field entry => field.2.accepts zod (some entry.2) = true) shape fields := by
  have hlookup := lookup_of_perm h hperm
  have hkeys := h.keys
  clear h hperm
  induction shape generalizing fields with
  | nil =>
    rw [List.map_eq_nil_iff.mp (hkeys.trans rfl)]
    simp [Shape.Accepts]
  | cons field shape ih =>
    cases fields with
    | nil => cases hkeys
    | cons entry fields =>
      obtain ⟨hkey, hkeys⟩ := List.cons.inj hkeys
      have hentry : stored.lookup (utf16 field.1) = some entry.2 := by
        rw [show utf16 field.1 = entry.1 from hkey.symm, hlookup entry List.mem_cons_self]
      have hrest := ih (fun other hother => hlookup other (List.mem_cons_of_mem _ hother)) hkeys
      unfold Shape.Accepts at hrest ⊢
      rw [List.forall_mem_cons, hentry, List.forall₂_cons]
      exact and_congr Iff.rfl hrest

end Keys

/-! ## Envelopes -/

section Envelope

variable {zod : Zod} {id : EventId} {timestamp : Timestamp} {name : String} {shape : Shape}
  {payload : List (JsString × Json)}

theorem known_eventType : ∀ entry ∈ PAYLOAD_SCHEMAS,
    1 ≤ (utf16 entry.1).length ∧ (utf16 entry.1).length ≤ 100 ∧
      utf16 entry.1 ∉ inheritedProperties.map utf16 ∧
        payloadSchema (utf16 entry.1) = some entry := by
  decide

def envelopeFields (id : EventId) (timestamp : Timestamp) (name : String)
    (payload : List (JsString × Json)) : List (JsString × Json) :=
  [(utf16 "eventId", .string id.val), (utf16 "eventType", text name),
    (utf16 "timestamp", .string timestamp.val), (utf16 "payload", .object payload)]

theorem keyed_envelopeFields :
    Keyed eventEnvelopeSchema (envelopeFields id timestamp name payload) :=
  ⟨rfl, show (eventEnvelopeSchema.map fun field => utf16 field.1).Nodup by decide⟩

theorem envelope_eq (h : ∀ field ∈ payload, field.2.serialized = field.2) :
    envelope id timestamp name payload =
      .object (envelopeFields id timestamp name payload) := by
  show Json.object [_, _, _, (_, .object (Json.serializedFields payload))] = _
  rw [Json.serializedFields_eq h]
  rfl

/-- Every field of the envelope is as the schema wants it. -/
theorem accepts_envelopeFields
    (hname : 1 ≤ (utf16 name).length ∧ (utf16 name).length ≤ 100) :
    eventEnvelopeSchema.Accepts zod (envelopeFields id timestamp name payload) := by
  have hid := length_of_isUuid id.property
  have htimestamp := List.length_pos_iff.mpr timestamp.property
  rw [accepts_iff_forall₂ keyed_envelopeFields (List.Perm.refl _)]
  simp only [eventEnvelopeSchema, envelopeFields, List.forall₂_cons, FieldSchema.accepts, text, hid,
    List.forall₂_nil_right_iff]
  simp [hname]
  omega

theorem parseEnvelope_envelopeFields
    (hname : 1 ≤ (utf16 name).length ∧ (utf16 name).length ≤ 100) :
    parseEnvelope zod (.object (envelopeFields id timestamp name payload)) =
      .ok ⟨id.val, utf16 name, timestamp.val, some (.object payload)⟩ := by
  have hkeyed : Keyed eventEnvelopeSchema (envelopeFields id timestamp name payload) :=
    keyed_envelopeFields
  have hparse : eventEnvelopeSchema.safeParse zod
      (some (.object (envelopeFields id timestamp name payload))) =
        .ok (envelopeFields id timestamp name payload) :=
    safeParse_eq_ok_iff.mpr ⟨_, rfl, accepts_envelopeFields hname,
      pick_of_perm hkeyed (List.Perm.refl _)⟩
  have hlookup : ∀ key value, (key, value) ∈ envelopeFields id timestamp name payload →
      (envelopeFields id timestamp name payload).lookup key = some value :=
    fun _ _ => lookup_of_mem hkeyed.nodup
  simp only [parseEnvelope, hparse, EventEnvelope.ofFields, stringField,
    hlookup (utf16 "eventId") (.string id.val) (by simp [envelopeFields]),
    hlookup (utf16 "eventType") (text name) (by simp [envelopeFields]), text,
    hlookup (utf16 "timestamp") (.string timestamp.val) (by simp [envelopeFields]),
    hlookup (utf16 "payload") (.object payload) (by simp [envelopeFields])]

/-- The payload of a known type is what its schema makes of it. -/
theorem parsePayload_eq_ok_iff {envelope : EventEnvelope} {out : Option Json}
    (hshape : (name, shape) ∈ PAYLOAD_SCHEMAS) (hname : envelope.eventType = utf16 name) :
    parsePayload zod envelope = .ok out ↔
      ∃ fields, shape.safeParse zod envelope.payload = .ok fields ∧
        some (.object fields) = out := by
  obtain ⟨-, -, hinherited, hschema⟩ := known_eventType _ hshape
  rw [← hname] at hinherited hschema
  unfold parsePayload
  rw [if_neg (show ¬envelope.Inherited from hinherited), hschema]
  dsimp only
  cases shape.safeParse zod envelope.payload with
  | error message => simp
  | ok fields => simp

theorem parseEvent_envelope (hshape : (name, shape) ∈ PAYLOAD_SCHEMAS)
    (h : ∀ field ∈ payload, field.2.serialized = field.2) :
    parseEvent zod (envelope id timestamp name payload) =
      (parsePayload zod ⟨id.val, utf16 name, timestamp.val, some (.object payload)⟩).map
        fun parsed => ⟨⟨id.val, utf16 name, timestamp.val, some (.object payload)⟩, parsed⟩ := by
  obtain ⟨hpos, hmax, -, -⟩ := known_eventType _ hshape
  rw [envelope_eq h]
  simp only [parseEvent, parseEnvelope_envelopeFields ⟨hpos, hmax⟩, bind, Except.bind, Except.map]
  cases parsePayload zod ⟨id.val, utf16 name, timestamp.val, some (.object payload)⟩ with
  | error err => rfl
  | ok parsed => rfl

/-- A row of a known type is received if and only if its schema accepts the fields that have been
written. -/
theorem received_iff_forall₂ (hshape : (name, shape) ∈ PAYLOAD_SCHEMAS)
    (hkeyed : Keyed shape payload)
    (hserialized : ∀ field ∈ payload, field.2.serialized = field.2) :
    Received zod ⟨name, payload⟩ ↔
      List.Forall₂ (fun field entry => field.2.accepts zod (some entry.2) = true)
        shape payload := by
  constructor
  · intro h
    rw [← accepts_iff_forall₂ hkeyed (List.Perm.refl payload)]
    have hnil : isUuid (utf16 "00000000-0000-0000-0000-000000000000") = true := by decide
    obtain ⟨event, hevent, -⟩ := h ⟨_, hnil⟩ ⟨[0x30], by decide⟩ payload (List.Perm.refl _)
    dsimp only at hevent
    rw [parseEvent_envelope hshape hserialized] at hevent
    cases hparsed : parsePayload zod ⟨_, utf16 name, [0x30], some (.object payload)⟩ with
    | error err =>
      rw [hparsed] at hevent
      cases hevent
    | ok parsed =>
      obtain ⟨fields, hsafe, -⟩ := (parsePayload_eq_ok_iff hshape rfl).mp hparsed
      obtain ⟨fields', hfields, haccepts, -⟩ := safeParse_eq_ok_iff.mp hsafe
      cases hfields
      exact haccepts
  · intro h id timestamp stored hperm
    have hsafe : shape.safeParse zod (some (.object stored)) = .ok payload :=
      safeParse_eq_ok_iff.mpr ⟨stored, rfl, (accepts_iff_forall₂ hkeyed hperm).mpr h,
        pick_of_perm hkeyed hperm⟩
    have hpayload : parsePayload zod
        ⟨id.val, utf16 name, timestamp.val, some (.object stored)⟩ = .ok (some (.object payload)) :=
      (parsePayload_eq_ok_iff hshape rfl).mpr ⟨payload, hsafe, rfl⟩
    have hparse : parseEvent zod (envelope id timestamp name stored) =
        .ok ⟨⟨id.val, utf16 name, timestamp.val, some (.object stored)⟩,
          some (.object payload)⟩ := by
      rw [parseEvent_envelope hshape fun field hfield =>
        hserialized field (hperm.mem_iff.mp hfield), hpayload]
      rfl
    exact ⟨_, hparse, rfl⟩

end Envelope

/-! ## Agreement -/

/-- What the schema of `usage.recorded` wants of the parameters. -/
structure Admissible (params : RecordUsageParams) : Prop where
  orgId : isUuid (utf16 params.orgId) = true
  apiKeyId : isUuid (utf16 params.apiKeyId) = true
  model : 1 ≤ (utf16 params.model).length ∧ (utf16 params.model).length ≤ 200
  promptTokens : isSafeInteger params.promptTokens = true ∧ 0 ≤ params.promptTokens
  completionTokens : isSafeInteger params.completionTokens = true ∧ 0 ≤ params.completionTokens
  requestId : 1 ≤ (utf16 params.requestId).length ∧ (utf16 params.requestId).length ≤ 200

/-- Tokens cost nothing less than nothing. -/
theorem computeCostUsd_nonneg {params : RecordUsageParams} {costUsd : ℚ}
    (hprompt : 0 ≤ params.promptTokens) (hcompletion : 0 ≤ params.completionTokens)
    (h : computeCostUsd params = some costUsd) : 0 ≤ costUsd := by
  obtain ⟨pricing, hpricing, rfl⟩ := Option.map_eq_some_iff.mp h
  obtain ⟨hinput, houtput⟩ := getModelPricing_nonneg hpricing
  have hround : 0 ≤ mathRound ((params.promptTokens / 1000000 * pricing.inputPerMillion +
      params.completionTokens / 1000000 * pricing.outputPerMillion) * 1000000) :=
    mathRound_nonneg (by positivity)
  exact div_nonneg (Int.cast_nonneg hround) (by norm_num)

theorem received_usage_iff {zod : Zod} {params : RecordUsageParams} {costUsd : ℚ}
    (h : computeCostUsd params = some costUsd) :
    Received zod ⟨"usage.recorded", usagePayload params costUsd⟩ ↔ Admissible params := by
  have hshape : ("usage.recorded", usageRecordedSchema) ∈ PAYLOAD_SCHEMAS := by decide
  have hkeyed : Keyed usageRecordedSchema (usagePayload params costUsd) :=
    ⟨rfl, show (usageRecordedSchema.map fun field => utf16 field.1).Nodup by decide⟩
  rw [received_iff_forall₂ hshape hkeyed (by simp [usagePayload, text, Json.serialized])]
  simp only [usageRecordedSchema, usagePayload, text, List.forall₂_cons, FieldSchema.accepts,
    List.forall₂_nil_right_iff, Bool.not_true, Bool.false_or, Bool.not_false, Bool.true_or,
    Bool.true_and, Option.all_some, Bool.and_eq_true, decide_eq_true_eq, and_true]
  constructor
  · rintro ⟨horg, hkey, hmodel, hprompt, hcompletion, -, hrequest⟩
    exact ⟨horg, hkey, hmodel, hprompt, hcompletion, hrequest⟩
  · intro ha
    exact ⟨ha.orgId, ha.apiKeyId, ha.model, ha.promptTokens, ha.completionTokens,
      computeCostUsd_nonneg ha.promptTokens.2 ha.completionTokens.2 h, ha.requestId⟩

theorem received_budget_iff {zod : Zod} {orgId : String} {spentUsd budgetUsd fraction : ℚ} :
    Received zod ⟨"budget.warning", budgetPayload orgId spentUsd budgetUsd fraction⟩ ↔
      isUuid (utf16 orgId) = true ∧ 0 ≤ spentUsd ∧ 0 ≤ budgetUsd := by
  have hshape : ("budget.warning", budgetWarningSchema) ∈ PAYLOAD_SCHEMAS := by decide
  have hkeyed : Keyed budgetWarningSchema (budgetPayload orgId spentUsd budgetUsd fraction) :=
    ⟨rfl, show (budgetWarningSchema.map fun field => utf16 field.1).Nodup by decide⟩
  rw [received_iff_forall₂ hshape hkeyed (by simp [budgetPayload, text, Json.serialized])]
  simp [budgetWarningSchema, budgetPayload, text, FieldSchema.accepts]

/-- A row that has been written is received if and only if its schema wants the parameters. -/
theorem received_iff (zod : Zod) :
    (∀ inserts params row, recordUsageAndOutbox inserts params = some row →
      (Received zod row ↔ Admissible params)) ∧
    ∀ orgId status row, maybePublishBudgetWarning orgId status = some row →
      (Received zod row ↔ isUuid (utf16 orgId) = true ∧ 0 ≤ status.spentUsd ∧
        ∀ budgetUsd ∈ status.budgetUsd, 0 ≤ budgetUsd) := by
  constructor
  · intro inserts params row h
    unfold recordUsageAndOutbox at h
    split at h
    · cases h
    · rename_i costUsd hcost
      split at h
      · cases h
        exact received_usage_iff hcost
      · cases h
  · intro orgId status row h
    unfold maybePublishBudgetWarning at h
    split at h
    · cases h
    · rename_i budgetUsd hbudget
      split at h
      · cases h
      · cases h
        rw [received_budget_iff, hbudget]
        simp

/-! ### A stream without its first event -/

def plainZod : Zod := ⟨fun _ => none, true⟩

def org : Uuid := ⟨"11111111-1111-4111-8111-111111111111", by decide⟩

def key : Uuid := ⟨"22222222-2222-4222-8222-222222222222", by decide⟩

def paidParams : RecordUsageParams := ofGateway ⟨org, key, "gpt-4o", ⟨342, 218⟩, "chatcmpl-1"⟩

def nearlySpent : Gateway.BudgetStatus := ⟨91 / 10, some 10, some (9 / 10), 9 / 100⟩

theorem received_iff_paid :
    (∃ row, recordUsageAndOutbox (fun _ _ => true) paidParams = some row ∧ Received plainZod row) ∧
    ∃ row, maybePublishBudgetWarning org.text nearlySpent = some row ∧ Received plainZod row := by
  constructor
  · have hwritten : (recordUsageAndOutbox (fun _ _ => true) paidParams).isSome = true := by
      decide
    obtain ⟨row, hrow⟩ := Option.isSome_iff_exists.mp hwritten
    refine ⟨row, hrow, ((received_iff plainZod).1 _ _ row hrow).mpr ?_⟩
    constructor <;> decide
  · have hwritten : (maybePublishBudgetWarning org.text nearlySpent).isSome = true := by
      decide +kernel
    obtain ⟨row, hrow⟩ := Option.isSome_iff_exists.mp hwritten
    refine ⟨row, hrow, ((received_iff plainZod).2 _ _ row hrow).mpr ⟨by decide, ?_, ?_⟩⟩
    · decide +kernel
    · decide

def textPayload : String :=
  "\x7b\"type\":\"content_block_delta\"," ++
    "\"delta\":\x7b\"type\":\"text_delta\",\"text\":\"Hi\"\x7d\x7d"

def stopPayload : String := "\x7b\"type\":\"message_stop\"\x7d"

/-- `JSON.parse` of the two payloads. -/
def twoEvents : JsonParse where
  openai _ := .error "Unexpected token"
  anthropic payload :=
    if payload = textPayload then
      .ok ⟨"content_block_delta", none, some ⟨some "text_delta", some "Hi", none⟩, none⟩
    else if payload = stopPayload then .ok ⟨"message_stop", none, none, none⟩
    else .error "Unexpected token"
  gemini _ := .error "Unexpected token"
  ollama _ := .error "Unexpected token"

/-- The body of a response that has no `message_start`. -/
def headless : StreamBody :=
  ⟨["data: " ++ textPayload ++ "\n\n", "data: " ++ stopPayload ++ "\n\n"], none⟩

def headlessResponse : ChatResponse := Gateway.assemble "anthropic" "claude-3-5-haiku-20241022"
  ((anthropic twoEvents "claude-3-5-haiku-20241022").chatStream headless).items

def headlessParams : RecordUsageParams :=
  ofGateway ⟨org, key, headlessResponse.model, headlessResponse.usage, headlessResponse.id⟩

/-- The row is written under an empty request id, and no consumer accepts it. -/
theorem received_fails : ∃ row, recordUsageAndOutbox (fun _ _ => true) headlessParams = some row ∧
    ¬Received plainZod row := by
  have hid : headlessParams.requestId = "" := by decide
  have hcost : computeCostUsd headlessParams = some 0 := by decide +kernel
  refine ⟨⟨"usage.recorded", usagePayload headlessParams 0⟩, ?_, fun h => ?_⟩
  · unfold recordUsageAndOutbox
    rw [hcost]
    rfl
  · have hrequest := ((received_usage_iff hcost).mp h).requestId.1
    rw [hid] at hrequest
    exact absurd hrequest (by decide)

end CloudMesh.Events.Producers
