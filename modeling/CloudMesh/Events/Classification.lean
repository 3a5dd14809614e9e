import CloudMesh.Events.Producers

/-!
# What `parseEvent` makes of a message

The payload schema of an event is looked up in an object literal by the event's type, so the types
that select something are those of the table and those that name a property which every object
inherits. For the latter there is no method to call, and what is thrown is no `InvalidEventError`.

## Main definitions

- `Accepted` — the envelope is well formed, and so is the payload of a known type
- `Classified` — a message is accepted, or rejected as an invalid event
- `classified_iff` — for which messages that is so
-/

namespace CloudMesh.Events

variable (zod : Zod) (raw : Json)

/-- The fields of a well-formed envelope. -/
def IsEnvelope (fields : List (JsString × Json)) : Prop :=
  raw = .object fields ∧ eventEnvelopeSchema.Accepts zod fields

/-- The payload satisfies the schema of the type, if there is one in the table. -/
def PayloadAccepted (fields : List (JsString × Json)) : Prop :=
  ∀ name shape, (name, shape) ∈ PAYLOAD_SCHEMAS →
    fields.lookup (utf16 "eventType") = some (.string (utf16 name)) →
    ∃ payload, fields.lookup (utf16 "payload") = some (.object payload) ∧
      shape.Accepts zod payload

/-- The type is in the table. -/
def IsTabled (eventType : JsString) : Prop :=
  ∃ entry ∈ PAYLOAD_SCHEMAS, utf16 entry.1 = eventType

/-- The message is accepted if and only if it is well formed, an unknown type's payload is returned
unchanged, and whatever else is thrown is an `InvalidEventError`. -/
structure Classified : Prop where
  throws : ∀ err, parseEvent zod raw = .error err → ∃ message, err = .invalidEvent message
  returns : (∃ event, parseEvent zod raw = .ok event) ↔
    ∃ fields, IsEnvelope zod raw fields ∧ PayloadAccepted zod fields
  unknown : ∀ fields eventType, IsEnvelope zod raw fields →
    fields.lookup (utf16 "eventType") = some (.string eventType) → ¬IsTabled eventType →
    parseEvent zod raw = .ok ⟨.ofFields fields, fields.lookup (utf16 "payload")⟩

variable {zod raw}

section Envelope

variable {fields : List (JsString × Json)}

theorem parseEnvelope_of_isEnvelope (h : IsEnvelope zod raw fields) :
    parseEnvelope zod raw = .ok (.ofFields fields) := by
  obtain ⟨rfl, haccepts⟩ := h
  have hparse := safeParse_eq_ok_iff.mpr ⟨fields, rfl, haccepts, rfl⟩
  rw [parseEnvelope, hparse, ← ofFields_pick fields]

theorem isEnvelope_of_parseEnvelope {envelope : EventEnvelope}
    (h : parseEnvelope zod raw = .ok envelope) :
    ∃ fields, IsEnvelope zod raw fields ∧ envelope = .ofFields fields := by
  unfold parseEnvelope at h
  split at h
  · cases h
  · rename_i picked hparse
    cases h
    obtain ⟨fields, hraw, haccepts, rfl⟩ := safeParse_eq_ok_iff.mp hparse
    exact ⟨fields, ⟨Option.some.inj hraw, haccepts⟩, ofFields_pick fields⟩

theorem invalidEvent_of_parseEnvelope {err : JsError} (h : parseEnvelope zod raw = .error err) :
    ∃ message, err = .invalidEvent message := by
  unfold parseEnvelope at h
  split at h
  · cases h
    exact ⟨_, rfl⟩
  · cases h

/-- The type of a well-formed envelope is a string. -/
theorem lookup_eventType (h : IsEnvelope zod raw fields) :
    fields.lookup (utf16 "eventType") =
      some (Json.string (EventEnvelope.ofFields fields).eventType) := by
  have htype : ("eventType", .string 1 (some 100)) ∈ eventEnvelopeSchema := by decide
  have haccepts := h.2 _ htype
  show _ = some (Json.string (stringField fields "eventType"))
  rw [stringField]
  cases hlookup : fields.lookup (utf16 "eventType") with
  | none =>
    rw [hlookup] at haccepts
    cases haccepts
  | some value =>
    rw [hlookup] at haccepts
    cases value <;> first | rfl | cases haccepts

end Envelope

section Payload

variable {envelope : EventEnvelope}

theorem parsePayload_of_not_isTabled (hinherited : ¬envelope.Inherited)
    (h : ¬IsTabled envelope.eventType) : parsePayload zod envelope = .ok envelope.payload := by
  have hnone : payloadSchema envelope.eventType = none :=
    List.find?_eq_none.mpr fun entry hentry heq => h ⟨entry, hentry, of_decide_eq_true heq⟩
  rw [parsePayload, if_neg hinherited, hnone]

/-- An inherited type is the only one for which something else is thrown. -/
theorem invalidEvent_of_parsePayload {err : JsError} (hinherited : ¬envelope.Inherited)
    (h : parsePayload zod envelope = .error err) : ∃ message, err = .invalidEvent message := by
  unfold parsePayload at h
  rw [if_neg hinherited] at h
  split at h
  · cases h
  · split at h
    · cases h
      exact ⟨_, rfl⟩
    · cases h

theorem parsePayload_isOk_iff {fields : List (JsString × Json)} (h : IsEnvelope zod raw fields)
    (hinherited : ¬(EventEnvelope.ofFields fields).Inherited) :
    (∃ payload, parsePayload zod (.ofFields fields) = .ok payload) ↔
      PayloadAccepted zod fields := by
  have hlookup := lookup_eventType h
  constructor
  · rintro ⟨payload, hpayload⟩ name shape hshape htype
    have hname : (EventEnvelope.ofFields fields).eventType = utf16 name := by
      have heq := hlookup.symm.trans htype
      injection heq with heq
      injection heq
    obtain ⟨out, hparse, -⟩ := (Producers.parsePayload_eq_ok_iff hshape hname).mp hpayload
    obtain ⟨payload, hlookup, haccepts, -⟩ := safeParse_eq_ok_iff.mp hparse
    exact ⟨payload, hlookup, haccepts⟩
  · intro haccepted
    by_cases htabled : IsTabled (EventEnvelope.ofFields fields).eventType
    · obtain ⟨⟨name, shape⟩, hshape, hname⟩ := htabled
      obtain ⟨payload, hpayload, haccepts⟩ := haccepted name shape hshape (by rw [hlookup, hname])
      have hparse := safeParse_eq_ok_iff.mpr ⟨payload, hpayload, haccepts, rfl⟩
      exact ⟨_, (Producers.parsePayload_eq_ok_iff hshape hname.symm).mpr ⟨_, hparse, rfl⟩⟩
    · exact ⟨_, parsePayload_of_not_isTabled hinherited htabled⟩

end Payload

section Event

variable {fields : List (JsString × Json)}

/-- A well-formed envelope leaves the decision to its payload. -/
theorem parseEvent_of_isEnvelope (h : IsEnvelope zod raw fields) :
    parseEvent zod raw =
      (parsePayload zod (.ofFields fields)).map fun payload => ⟨.ofFields fields, payload⟩ := by
  simp only [parseEvent, parseEnvelope_of_isEnvelope h, bind, Except.bind, Except.map]
  cases parsePayload zod (.ofFields fields) <;> rfl

theorem parseEvent_of_not_isEnvelope (h : ∀ fields, ¬IsEnvelope zod raw fields) :
    ∃ message, parseEvent zod raw = .error (.invalidEvent message) := by
  cases henvelope : parseEnvelope zod raw with
  | ok envelope =>
    obtain ⟨fields, hfields, -⟩ := isEnvelope_of_parseEnvelope henvelope
    exact absurd hfields (h fields)
  | error err =>
    obtain ⟨message, rfl⟩ := invalidEvent_of_parseEnvelope henvelope
    refine ⟨message, ?_⟩
    simp only [parseEvent, henvelope, bind, Except.bind]

/-- The type that is looked up is the one of the message. -/
theorem inherited_iff (h : IsEnvelope zod raw fields) : (EventEnvelope.ofFields fields).Inherited ↔
    ∃ name ∈ inheritedProperties,
      fields.lookup (utf16 "eventType") = some (.string (utf16 name)) := by
  have hlookup := lookup_eventType h
  constructor
  · intro hmem
    obtain ⟨name, hname, heq⟩ := List.mem_map.mp hmem
    exact ⟨name, hname, heq ▸ hlookup⟩
  · rintro ⟨name, hname, htype⟩
    have heq := hlookup.symm.trans htype
    injection heq with heq
    injection heq with heq
    exact List.mem_map.mpr ⟨name, hname, heq.symm⟩

theorem parseEvent_of_inherited (h : IsEnvelope zod raw fields)
    (hinherited : (EventEnvelope.ofFields fields).Inherited) :
    parseEvent zod raw = .error .typeError := by
  have hpayload : parsePayload zod (.ofFields fields) = .error .typeError := if_pos hinherited
  rw [parseEvent_of_isEnvelope h, hpayload]
  rfl

/-- Of a well-formed envelope, the payload decides. -/
theorem classified_of_isEnvelope (h : IsEnvelope zod raw fields)
    (hinherited : ¬(EventEnvelope.ofFields fields).Inherited) : Classified zod raw := by
  have hevent := parseEvent_of_isEnvelope h
  have hok := parsePayload_isOk_iff h hinherited
  have hfields : ∀ fields', IsEnvelope zod raw fields' → fields = fields' :=
    fun fields' h' => Json.object.inj (h.1.symm.trans h'.1)
  refine ⟨fun err herr => ?_, ?_, fun fields' eventType h' htype htabled => ?_⟩
  · cases hpayload : parsePayload zod (.ofFields fields) with
    | ok payload =>
      rw [hevent, hpayload] at herr
      cases herr
    | error err' =>
      rw [hevent, hpayload] at herr
      cases herr
      exact invalidEvent_of_parsePayload hinherited hpayload
  · constructor
    · rintro ⟨event, heq⟩
      cases hpayload : parsePayload zod (.ofFields fields) with
      | ok payload => exact ⟨fields, h, hok.mp ⟨payload, hpayload⟩⟩
      | error err =>
        rw [hevent, hpayload] at heq
        cases heq
    · rintro ⟨fields', h', haccepted⟩
      obtain rfl := hfields fields' h'
      obtain ⟨payload, hpayload⟩ := hok.mpr haccepted
      exact ⟨_, by rw [hevent, hpayload]; rfl⟩
  · obtain rfl := hfields fields' h'
    have heq := (lookup_eventType h).symm.trans htype
    injection heq with heq
    injection heq with heq
    rw [hevent, parsePayload_of_not_isTabled hinherited (heq ▸ htabled)]
    rfl

/-- What is no envelope is an invalid event. -/
theorem classified_of_not_isEnvelope (h : ∀ fields, ¬IsEnvelope zod raw fields) :
    Classified zod raw := by
  obtain ⟨message, hmessage⟩ := parseEvent_of_not_isEnvelope h
  refine ⟨fun err herr => ?_, ?_, fun fields _ henvelope => absurd henvelope (h fields)⟩
  · rw [hmessage] at herr
    cases herr
    exact ⟨message, rfl⟩
  · refine iff_of_false ?_ ?_
    · rintro ⟨event, heq⟩
      cases hmessage.symm.trans heq
    · rintro ⟨fields, henvelope, -⟩
      exact h fields henvelope

end Event

/-- A message is classified if and only if it is no well-formed envelope whose type names a property
of every object. -/
theorem classified_iff (zod : Zod) (raw : Json) : Classified zod raw ↔
    ∀ fields name, IsEnvelope zod raw fields → name ∈ inheritedProperties →
      fields.lookup (utf16 "eventType") ≠ some (.string (utf16 name)) := by
  constructor
  · intro h fields name henvelope hname htype
    have hinherited := (inherited_iff henvelope).mpr ⟨name, hname, htype⟩
    obtain ⟨message, hmessage⟩ := h.throws _ (parseEvent_of_inherited henvelope hinherited)
    cases hmessage
  · intro h
    by_cases hsome : ∃ fields, IsEnvelope zod raw fields
    · obtain ⟨fields, henvelope⟩ := hsome
      refine classified_of_isEnvelope henvelope fun hinherited => ?_
      obtain ⟨name, hname, htype⟩ := (inherited_iff henvelope).mp hinherited
      exact h fields name henvelope hname htype
    · exact classified_of_not_isEnvelope (not_exists.mp hsome)

/-- An event whose type is `toString`. -/
def inheritedType : Json :=
  .object [(utf16 "eventId", .string (utf16 "e-1")),
    (utf16 "eventType", .string (utf16 "toString")),
    (utf16 "timestamp", .string (utf16 "2026-01-01T00:00:00.000Z")), (utf16 "payload", .null)]

/-- It is no event and no invalid one. -/
theorem classified_fails : parseEvent Producers.plainZod inheritedType = .error .typeError ∧
    ¬Classified Producers.plainZod inheritedType := by
  have hthrown : parseEvent Producers.plainZod inheritedType = .error .typeError := by rfl
  refine ⟨hthrown, fun h => ?_⟩
  obtain ⟨message, hmessage⟩ := h.throws _ hthrown
  cases hmessage

end CloudMesh.Events
