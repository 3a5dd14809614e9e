import CloudMesh.Events.Schema
import CloudMesh.Streams.Utf8

/-!
# The pump of a subscription

`subscribe` of `packages/events/src/bus.ts`: one message after the other is decoded, parsed, handled
and settled. Decoding, parsing and handling stand in one `try`, and what is caught is judged by its
class alone, whoever has thrown it.

## Main definitions

- `receive` — what is made of the bytes of a message
- `pump` — the loop
- `Owed`, `ByFault` — what a message, and a run of the loop, owe to whose fault it is
- `byFault_iff` — the runs that keep to it
-/

namespace CloudMesh.Events

open Streams Streams.Utf8

/-- `codec.decode`. The bytes of an unfinished character at the end become one replacement. -/
def decode (data : List UInt8) : List Char :=
  let (text, decoder) := scan TextDecoder.step TextDecoder.new data
  text ++ if decoder.utf8.needed = 0 then [] else [replacement]

inductive Settlement
  | ack
  | nak
  | term
  deriving DecidableEq, Repr

/-- A message of the stream. `stopped` is what the loop sees of the flag when the message comes. -/
structure Message where
  data : List UInt8
  stopped : Bool

/-- What is done for a message: the calls that settle it, and the arguments of `onError`. -/
structure Outcome where
  settlements : List Settlement
  reported : Option (JsError × Option EventEnvelope)

/-- `err instanceof InvalidEventError || err instanceof SyntaxError`. -/
def JsError.isPoison : JsError → Bool
  | .invalidEvent _ | .syntaxError => true
  | .typeError | .prisma _ | .other _ => false

variable (zod : Zod)

def receive (data : List UInt8) : Except JsError ParsedEvent :=
  match Json.parse (decode data) with
  | none => .error .syntaxError
  | some raw => parseEvent zod raw

/-- The `catch`; the envelope is there once the message has been parsed. -/
def caught (err : JsError) (envelope : Option EventEnvelope) : Outcome :=
  ⟨[if err.isPoison then .term else .nak], some (err, envelope)⟩

/-- The body of the loop. -/
def handleMessage (handler : ParsedEvent → Except JsError Unit) (data : List UInt8) : Outcome :=
  match receive zod data with
  | .error err => caught err none
  | .ok event =>
    match handler event with
    | .error err => caught err (some event.envelope)
    | .ok () => ⟨[.ack], none⟩

/-- The loop, with what the handler does at its `n`-th call and later ones. -/
def pump (handler : ℕ → ParsedEvent → Except JsError Unit) : ℕ → List Message → List Outcome
  | _, [] => []
  | n, message :: messages =>
    if message.stopped then []
    else handleMessage zod (handler n) message.data :: pump handler (n + 1) messages

/-! ## Whose fault it is -/

/-- The messages that come before the subscription is stopped. -/
def consumed (messages : List Message) : List Message :=
  messages.takeWhile fun message => !message.stopped

/-- One call settles the message: `ack` if it is an event and the handler resolves, `term` if it is
no event, `nak` if the handler rejects. -/
def Owed (handler : ParsedEvent → Except JsError Unit) (data : List UInt8)
    (settlements : List Settlement) : Prop :=
  ∃ settlement, settlements = [settlement] ∧
    (settlement = .ack ↔ ∃ event, receive zod data = .ok event ∧ handler event = .ok ()) ∧
    (settlement = .term ↔ ∃ err, receive zod data = .error err) ∧
    (settlement = .nak ↔
      ∃ event err, receive zod data = .ok event ∧ handler event = .error err)

/-- Every message that is consumed has its outcome, whatever became of those before it, and is
settled as owed. -/
structure ByFault (handler : ℕ → ParsedEvent → Except JsError Unit) (messages : List Message)
    (outcomes : List Outcome) : Prop where
  goesOn : outcomes.length = (consumed messages).length
  owed : ∀ n message outcome, (consumed messages)[n]? = some message →
    outcomes[n]? = some outcome → Owed zod (handler n) message.data outcome.settlements

/-- The handler does not reject with an error of the classes that stand for a bad message, and the
message is not one with a valid envelope whose type every object inherits. -/
structure Unmistakable (handler : ParsedEvent → Except JsError Unit) (data : List UInt8) :
    Prop where
  handler : ∀ event err, receive zod data = .ok event → handler event = .error err →
    err.isPoison = false
  eventType : ∀ raw envelope, Json.parse (decode data) = some raw →
    parseEnvelope zod raw = .ok envelope → ¬envelope.Inherited

theorem isPoison_of_parsePayload {envelope : EventEnvelope} {err : JsError}
    (h : parsePayload zod envelope = .error err) :
    err.isPoison = false ↔ envelope.Inherited := by
  unfold parsePayload at h
  split at h
  · rename_i hinherited
    cases h
    exact iff_of_true rfl hinherited
  · rename_i hinherited
    split at h
    · cases h
    · split at h
      · cases h
        exact iff_of_false (by simp [JsError.isPoison]) hinherited
      · cases h

theorem isPoison_of_parseEnvelope {raw : Json} {err : JsError}
    (h : parseEnvelope zod raw = .error err) : err.isPoison = true := by
  unfold parseEnvelope at h
  split at h
  · cases h
    rfl
  · cases h

/-- A message that is no event is taken for the handler's fault only by its type. -/
theorem isPoison_of_receive {data : List UInt8} {err : JsError}
    (h : receive zod data = .error err) : err.isPoison = false ↔
      ∃ raw envelope, Json.parse (decode data) = some raw ∧
        parseEnvelope zod raw = .ok envelope ∧ envelope.Inherited := by
  unfold receive at h
  cases hraw : Json.parse (decode data) with
  | none =>
    simp only [hraw] at h
    cases h
    simp [JsError.isPoison]
  | some raw =>
    simp only [hraw, parseEvent] at h
    cases henvelope : parseEnvelope zod raw with
    | error err' =>
      rw [henvelope] at h
      cases h
      simp [isPoison_of_parseEnvelope zod henvelope, henvelope]
    | ok envelope =>
      rw [henvelope] at h
      cases hpayload : parsePayload zod envelope with
      | error err' =>
        simp only [hpayload, bind, Except.bind] at h
        cases h
        simpa [henvelope] using isPoison_of_parsePayload zod hpayload
      | ok payload =>
        simp only [hpayload, bind, Except.bind, pure, Except.pure] at h
        cases h

/-- An event has no inherited type. -/
theorem not_inherited_of_receive {data : List UInt8} {event : ParsedEvent}
    (h : receive zod data = .ok event) (raw : Json) (envelope : EventEnvelope)
    (hraw : Json.parse (decode data) = some raw)
    (henvelope : parseEnvelope zod raw = .ok envelope) :
    ¬envelope.Inherited := by
  intro hinherited
  have hpayload : parsePayload zod envelope = .error .typeError := if_pos hinherited
  simp only [receive, hraw, parseEvent, henvelope, bind, Except.bind, hpayload] at h
  cases h

section

variable {handler : ParsedEvent → Except JsError Unit} {data : List UInt8} {event : ParsedEvent}
  {err : JsError}

theorem settlements_of_malformed (h : receive zod data = .error err) :
    (handleMessage zod handler data).settlements = [if err.isPoison then .term else .nak] := by
  simp only [handleMessage, h, caught]

theorem settlements_of_reject (h : receive zod data = .ok event)
    (hhandler : handler event = .error err) :
    (handleMessage zod handler data).settlements = [if err.isPoison then .term else .nak] := by
  simp only [handleMessage, h, hhandler, caught]

theorem settlements_of_resolve (h : receive zod data = .ok event)
    (hhandler : handler event = .ok ()) :
    (handleMessage zod handler data).settlements = [.ack] := by
  simp only [handleMessage, h, hhandler]

end

/-- One message. -/
theorem owed_handleMessage_iff (handler : ParsedEvent → Except JsError Unit)
    (data : List UInt8) :
    Owed zod handler data (handleMessage zod handler data).settlements ↔
      Unmistakable zod handler data := by
  cases hreceive : receive zod data with
  | error err =>
    rw [settlements_of_malformed zod hreceive]
    -- a malformed message, which is terminated if its error counts as poison
    have hpoison := isPoison_of_receive zod hreceive
    constructor
    · rintro ⟨settlement, hone, -, hterm, -⟩
      have hsettlement : settlement = .term := hterm.mpr ⟨err, hreceive⟩
      rw [hsettlement] at hone
      refine ⟨fun event err' hevent => ?_, fun raw envelope hraw henvelope hinherited => ?_⟩
      · rw [hreceive] at hevent
        cases hevent
      · have hfalse := hpoison.mpr ⟨raw, envelope, hraw, henvelope, hinherited⟩
        simp [hfalse] at hone
    · intro h
      have htrue : err.isPoison = true := by
        by_contra hfalse
        obtain ⟨raw, envelope, hraw, henvelope, hinherited⟩ := hpoison.mp (by simpa using hfalse)
        exact h.eventType raw envelope hraw henvelope hinherited
      exact ⟨.term, by rw [if_pos htrue], by simp [hreceive], by simp [hreceive],
        by simp [hreceive]⟩
  | ok event =>
    have hvalid := not_inherited_of_receive zod hreceive
    cases hhandler : handler event with
    | ok u =>
      rw [settlements_of_resolve zod hreceive hhandler]
      refine iff_of_true ⟨.ack, rfl, ?_, ?_, ?_⟩ ⟨?_, hvalid⟩
      · simp [hreceive, hhandler]
      · simp [hreceive]
      · simp [hreceive, hhandler]
      · intro event' err hevent herr
        rw [hreceive] at hevent
        cases hevent
        rw [hhandler] at herr
        cases herr
    | error err =>
      rw [settlements_of_reject zod hreceive hhandler]
      constructor
      · rintro ⟨settlement, hone, -, -, hnak⟩
        have hsettlement : settlement = .nak := hnak.mpr ⟨event, err, hreceive, hhandler⟩
        rw [hsettlement] at hone
        refine ⟨fun event' err' hevent herr => ?_, hvalid⟩
        rw [hreceive] at hevent
        cases hevent
        rw [hhandler] at herr
        cases herr
        by_contra htrue
        simp [htrue] at hone
      · intro h
        have hfalse := h.handler event err hreceive hhandler
        exact ⟨.nak, by simp [hfalse], by simp [hreceive, hhandler], by simp [hreceive],
          by simp [hreceive, hhandler]⟩

/-- The loop goes through the messages until it is stopped. -/
theorem pump_eq_mapIdx (handler : ℕ → ParsedEvent → Except JsError Unit) (n : ℕ)
    (messages : List Message) :
    pump zod handler n messages = (consumed messages).mapIdx fun i message =>
      handleMessage zod (handler (n + i)) message.data := by
  induction messages generalizing n with
  | nil => rfl
  | cons message messages ih =>
    unfold pump
    by_cases hstopped : message.stopped = true
    · simp [hstopped, consumed]
    · have hcons : consumed (message :: messages) = message :: consumed messages := by
        simp [consumed, hstopped]
      rw [if_neg hstopped, ih, hcons, List.mapIdx_cons]
      simp only [Nat.add_zero, Nat.add_assoc, Nat.add_comm 1]

/-- A run settles its messages by whose fault it is if and only if none of them is mistaken. -/
theorem byFault_iff (handler : ℕ → ParsedEvent → Except JsError Unit) (messages : List Message) :
    ByFault zod handler messages (pump zod handler 0 messages) ↔
      ∀ n message, (consumed messages)[n]? = some message →
        Unmistakable zod (handler n) message.data := by
  rw [pump_eq_mapIdx]
  simp only [Nat.zero_add]
  constructor
  · intro h n message hmessage
    rw [← owed_handleMessage_iff]
    apply h.owed n message _ hmessage
    rw [List.getElem?_mapIdx, hmessage]
    rfl
  · intro h
    refine ⟨List.length_mapIdx, fun n message outcome hmessage houtcome => ?_⟩
    rw [List.getElem?_mapIdx, hmessage] at houtcome
    cases houtcome
    exact (owed_handleMessage_iff zod _ _).mpr (h n message hmessage)

/-- An event whose type has no schema, as its bytes. -/
def pingMessage (eventType : String) : Message :=
  ⟨encode ("\x7b\"eventId\":\"1\",\"eventType\":\"".toList ++ eventType.toList ++
    "\",\"timestamp\":\"2026\",\"payload\":\x7b\x7d\x7d".toList), false⟩

variable {zod} in
theorem owed_of_byFault {handler : ParsedEvent → Except JsError Unit} {message : Message}
    (hgoing : message.stopped = false)
    (h : ByFault zod (fun _ => handler) [message] (pump zod (fun _ => handler) 0 [message])) :
    Owed zod handler message.data (handleMessage zod handler message.data).settlements := by
  apply h.owed 0 message
  · simp [consumed, hgoing]
  · simp [pump, hgoing]

/-- A handler that fails on a text of its own makes the message be dropped, and a message whose type
is `constructor` is delivered again. -/
theorem byFault_fails :
    (¬ByFault ⟨fun _ => none, true⟩ (fun _ _ => .error .syntaxError) [pingMessage "ping"]
      (pump ⟨fun _ => none, true⟩ (fun _ _ => .error .syntaxError) 0 [pingMessage "ping"])) ∧
    ¬ByFault ⟨fun _ => none, true⟩ (fun _ _ => .ok ()) [pingMessage "constructor"]
      (pump ⟨fun _ => none, true⟩ (fun _ _ => .ok ()) 0 [pingMessage "constructor"]) := by
  constructor
  · intro h
    obtain ⟨settlement, hone, -, hterm, -⟩ := owed_of_byFault rfl h
    have hevent : (receive ⟨fun _ => none, true⟩ (pingMessage "ping").data).isOk = true := by
      decide +kernel
    have hsettled : (handleMessage ⟨fun _ => none, true⟩ (fun _ => .error .syntaxError)
        (pingMessage "ping").data).settlements = [.term] := by
      decide +kernel
    rw [hsettled] at hone
    obtain ⟨err, herr⟩ := hterm.mp (List.cons.inj hone).1.symm
    rw [herr] at hevent
    cases hevent
  · intro h
    obtain ⟨settlement, hone, -, -, hnak⟩ := owed_of_byFault rfl h
    have hsettled : (handleMessage ⟨fun _ => none, true⟩ (fun _ => .ok ())
        (pingMessage "constructor").data).settlements = [.nak] := by
      decide +kernel
    rw [hsettled] at hone
    obtain ⟨event, err, -, hreject⟩ := hnak.mp (List.cons.inj hone).1.symm
    cases hreject

end CloudMesh.Events
