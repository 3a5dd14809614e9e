import CloudMesh.JsonReads
import CloudMesh.Sdk.ChatStream
import Mathlib.Data.List.DropRight

/-!
# What arrives of a response

The clients of `CloudMesh.Sdk.ChatStream` with the parser of `CloudMesh.JsonReads`, so that nothing
about the payloads is left open. A response that arrives as a whole is yielded as a whole, however
it is cut into reads. Of one that breaks off at any byte, within a letter or within an escape, the
clients yield the first chunks, and no chunk that was not written.

## Main definitions

- `jsonParse` — what the clients read of a payload
- `parses_json` — they read what the route has written
- `Arrives`, `arrives` — a response up to any byte
-/

namespace CloudMesh

namespace Sdk

open Streams

/-! ## Payloads -/

/-- A field that is a string; the route writes no other under the three names. -/
def textField (fields : List (JsString × Json)) (name : String) : Option String :=
  match fields.lookup (utf16 name) with
  | some (.string s) => some (String.ofList (ofUtf16 s))
  | _ => none

def parsedOf : Json → Parsed
  | .object fields =>
    .object (textField fields "delta") (textField fields "model") (textField fields "provider")
  | _ => .other

def jsonParse (payload : String) : Option Parsed := (Json.parse payload.toList).map parsedOf

theorem toList_stringifyObject (fields : List (String × String)) :
    (stringifyObject fields).toList =
      Json.objectText (fields.map fun field => (field.1, field.2.toList)) := by
  have hparts : (fields.map fun field => quote field.1 ++ ":" ++ field.2).map String.toList =
      (fields.map fun field => (field.1, field.2.toList)).map Json.memberText := by
    rw [List.map_map, List.map_map]
    refine List.map_congr_left fun field _ => ?_
    simp only [Function.comp_apply, String.toList_append, Json.memberText, List.append_assoc]
    rfl
  have hcomma : ",".toList = [','] := by decide
  rw [stringifyObject, String.toList_append, String.toList_append, String.toList_intercalate,
    hparts, hcomma, Json.objectText]
  rfl

theorem isMember_nat (key : String) (n : ℕ) :
    Json.IsMember (key, (toString n).toList) (utf16 key, Json.ofDecimal n) := by
  apply Json.isMember_of_parse
  rw [Nat.toString_eq_repr, Nat.toList_repr]
  exact Json.parse_toDigits n

def text (s : String) : Json := Json.string (utf16 s)

def usageJson (usage : Usage) : Json :=
  Json.object [(utf16 "promptTokens", Json.ofDecimal usage.promptTokens),
    (utf16 "completionTokens", Json.ofDecimal usage.completionTokens)]

/-- What `JSON.parse` makes of a chunk. -/
def chunkFields (chunk : ChatChunk) : List (JsString × Json) :=
  [(utf16 "id", text chunk.id), (utf16 "provider", text chunk.provider),
    (utf16 "model", text chunk.model), (utf16 "delta", text chunk.delta),
    (utf16 "done", Json.bool chunk.done)] ++
  chunk.finishReason.toList.map (fun reason => (utf16 "finishReason", text reason.text)) ++
  chunk.usage.toList.map fun usage => (utf16 "usage", usageJson usage)

theorem isMember_usage (usage : Usage) :
    Json.IsMember ("usage", usage.stringify.toList) (utf16 "usage", usageJson usage) := by
  apply Json.isMember_of_parse
  rw [Usage.stringify, toList_stringifyObject]
  apply Json.parse_objectText
  · exact .cons (isMember_nat _ _) (.cons (isMember_nat _ _) .nil)
  · show (List.map utf16 ["promptTokens", "completionTokens"]).Nodup
    decide

theorem isMember_bool (key : String) (b : Bool) :
    Json.IsMember (key, (if b then "true" else "false").toList) (utf16 key, Json.bool b) := by
  apply Json.isMember_of_parse
  cases b with
  | false => exact Json.parse_eq_some_iff.mpr ⟨1, [], rfl, rfl⟩
  | true => exact Json.parse_eq_some_iff.mpr ⟨1, [], rfl, rfl⟩

theorem forall₂_optional {α : Type} (x : Option α) (field : α → String × List Char)
    (out : α → JsString × Json) (h : ∀ a, Json.IsMember (field a) (out a)) :
    List.Forall₂ Json.IsMember (x.toList.map field) (x.toList.map out) := by
  cases x with
  | none => exact .nil
  | some a => exact .cons (h a) .nil

theorem nodup_chunkFields (chunk : ChatChunk) : ((chunkFields chunk).map Prod.fst).Nodup := by
  have hall : (List.map utf16
      ["id", "provider", "model", "delta", "done", "finishReason", "usage"]).Nodup := by decide
  refine hall.sublist ?_
  rw [chunkFields, List.map_append, List.map_append]
  show List.Sublist _ (List.map utf16 ["id", "provider", "model", "delta", "done"] ++
    [utf16 "finishReason"] ++ [utf16 "usage"])
  refine List.Sublist.append (List.Sublist.append ?_ ?_) ?_
  · exact List.Sublist.refl (List.map utf16 ["id", "provider", "model", "delta", "done"])
  · cases chunk.finishReason with
    | none => exact List.nil_sublist _
    | some reason => exact List.Sublist.refl [utf16 "finishReason"]
  · cases chunk.usage with
    | none => exact List.nil_sublist _
    | some usage => exact List.Sublist.refl [utf16 "usage"]

theorem parse_stringify (chunk : ChatChunk) :
    Json.parse chunk.stringify.toList = some (Json.object (chunkFields chunk)) := by
  rw [ChatChunk.stringify, toList_stringifyObject, List.map_append, List.map_append]
  refine Json.parse_objectText ?_ (nodup_chunkFields chunk)
  refine List.rel_append (List.rel_append ?_ ?_) ?_
  · exact .cons (Json.isMember_quote _ _) (.cons (Json.isMember_quote _ _)
      (.cons (Json.isMember_quote _ _) (.cons (Json.isMember_quote _ _)
        (.cons (isMember_bool _ _) .nil))))
  · rw [List.map_map]
    exact forall₂_optional _ _ _ fun reason => Json.isMember_quote _ _
  · rw [List.map_map]
    exact forall₂_optional _ _ _ isMember_usage

theorem textField_text {fields : List (JsString × Json)} {name s : String}
    (h : fields.lookup (utf16 name) = some (text s)) : textField fields name = some s := by
  rw [textField, h]
  show some (String.ofList (ofUtf16 (utf16 s))) = some s
  rw [ofUtf16_utf16, String.ofList_toList]

theorem parse_stringifyError (message : String) : Json.parse (stringifyError message).toList =
    some (Json.object [(utf16 "error", text message)]) := by
  rw [stringifyError, toList_stringifyObject]
  refine Json.parse_objectText (.cons (Json.isMember_quote _ _) .nil) ?_
  show (List.map utf16 ["error"]).Nodup
  decide

/-- The clients read what the route has written. -/
theorem parses_json (stream : Generated String ChatChunk) : Parses jsonParse stream where
  chunk c _ := by
    have hdelta : (chunkFields c).lookup (utf16 "delta") = some (text c.delta) := rfl
    have hmodel : (chunkFields c).lookup (utf16 "model") = some (text c.model) := rfl
    have hprovider : (chunkFields c).lookup (utf16 "provider") = some (text c.provider) := rfl
    rw [jsonParse, parse_stringify, Option.map_some, parsedOf, textField_text hdelta,
      textField_text hmodel, textField_text hprovider]
  error message _ := by
    rw [jsonParse, parse_stringifyError]
    rfl

/-! ## Responses -/

section

variable {β : Type} (toChunk : ChatChunk → β) (stream : Generated String ChatChunk)

/-- What there is to yield of a stream. -/
def yielded : List β := (stream.items.filter fun chunk => chunk.delta ≠ "").map toChunk

/-- What is left of the beginning of a response. A client may add errors of its own if the bytes
end without one. -/
structure Arrives (response : Response) (own : List String) (iterator : Generated String β) :
    Prop where
  whole : response.reads.flatten = chatWire stream → iterator = ⟨yielded toChunk stream, none⟩
  items : iterator.items <+: yielded toChunk stream
  severed : response.failure.isSome →
    iterator.failure = response.failure ∨ iterator = ⟨yielded toChunk stream, none⟩
  closed : response.failure = none → ∀ err ∈ iterator.failure, err ∈ own

/-- The events before the last. -/
def openEvents : List ChatEvent :=
  stream.items.map .chunk ++ stream.failure.toList.map .error

theorem chatEvents_eq : chatEvents stream = openEvents stream ++ [.done] := rfl

theorem eventTurn_open {event : ChatEvent} (h : event ∈ openEvents stream) :
    eventTurn toChunk event = .next () (delivered toChunk event) := by
  rw [eventTurn, if_neg]
  rintro rfl
  simp [openEvents] at h

theorem filterMap_open :
    (openEvents stream).filterMap (delivered toChunk) = yielded toChunk stream := by
  have herror : (stream.failure.toList.map ChatEvent.error).filterMap (delivered toChunk) = [] := by
    cases stream.failure <;> rfl
  rw [openEvents, List.filterMap_append, filterMap_delivered, herror, List.append_nil, yielded]

theorem filterMap_chatEvents :
    (chatEvents stream).filterMap (delivered toChunk) = yielded toChunk stream := by
  have hdone : [ChatEvent.done].filterMap (delivered toChunk) = [] := rfl
  rw [chatEvents_eq, List.filterMap_append, filterMap_open, hdone, List.append_nil]

end

namespace JavaScript

variable {stream : Generated String ChatChunk} {response : Response}

theorem arrives_stream (h : response.reads.flatten <+: chatWire stream) :
    Arrives toChunk stream response [] (JavaScript.stream jsonParse response) := by
  obtain ⟨text, htext⟩ : ∃ text, (chatEvents stream).flatMap
      (fun event => (writeSSE event.payload).toList) = 'd' :: text := by
    cases hevents : chatEvents stream with
    | nil => simp [chatEvents] at hevents
    | cons event events =>
      rw [List.flatMap_cons, toList_writeSSE]
      exact ⟨_, rfl⟩
  have hread := scan_prefix Utf8.TextDecoder.step .new h
  rw [chatWire, htext, Utf8.TextDecoder.scan_step_encode (by decide), ← htext] at hread
  have hframes := scan_prefix (cut "\n\n".toList) [] hread
  rw [scan_cut_events, List.prefix_map_iff] at hframes
  obtain ⟨events, hevents, hframes⟩ := hframes
  have hrun : JavaScript.stream jsonParse response =
      forAwait (fun _ => frameTurn jsonParse) response.failure ()
        (events.map (fun event => dataLine event.payload) ++ []) := by
    rw [JavaScript.stream, readLoop_eq rfl, hframes, List.append_nil]
  have hturn : ∀ event ∈ chatEvents stream, frameTurn jsonParse (dataLine event.payload) =
      eventTurn toChunk event := fun event hevent => frameTurn_event (parses_json stream) hevent
  have hnext : ∀ event ∈ openEvents stream, frameTurn jsonParse (dataLine event.payload) =
      .next () (delivered toChunk event) := by
    intro event hevent
    rw [hturn event (List.mem_append_left _ hevent), eventTurn_open toChunk stream hevent]
  have hlast : frameTurn jsonParse (dataLine ChatEvent.done.payload) = .ret none :=
    hturn .done (List.mem_append_right _ List.mem_cons_self)
  have hwhole : response.reads.flatten = chatWire stream → _ := stream_chatWire (parses_json stream)
  obtain ⟨hopen, hitems⟩ | hitems := @forAwait_of_initial _ _ _ _ _ (fun _ => frameTurn jsonParse)
    () _ _ _ _ _ _ response.failure [] hnext hlast hevents
  all_goals rw [← hrun] at hitems
  · rw [forAwait, List.append_nil] at hitems
    refine ⟨hwhole, ?_, fun _ => ?_, fun hnone => ?_⟩ <;> rw [hitems]
    · rw [← filterMap_open]
      exact hopen.filterMap _
    · exact .inl rfl
    · simp [hnone]
  · rw [filterMap_open] at hitems
    exact ⟨hwhole, by rw [hitems], fun _ => .inr hitems, by simp [hitems]⟩

end JavaScript

namespace Python

variable {stream : Generated String ChatChunk} {response : Response}

/-- What is decoded has been encoded. -/
theorem encode_of_decode {bytes : List UInt8} {text : List Char} (h : decode bytes = some text) :
    Utf8.encode text = bytes := by
  obtain ⟨chars, hchars, rfl⟩ := Option.map_eq_some_iff.mp h
  have hvalid : bytes.toByteArray.utf8Decode?.isSome := by rw [hchars]; rfl
  obtain ⟨text, htext⟩ := ByteArray.isSome_utf8Decode?_iff.mp hvalid
  rw [htext, List.utf8Decode?_utf8Encode] at hchars
  obtain rfl := Option.some.inj hchars
  exact (List.toByteArray_inj.mp htext).symm

/-- The beginning of a data line is stripped at its end only. -/
theorem strip_initial {payload : String} (h : Bracketed payload) {text : List Char}
    (htext : text <+: dataLine payload) (hdata : dataField.isPrefixOf (strip text) = true) :
    strip ((strip text).drop dataField.length) <+: payload.toList := by
  -- where the left end is no white space, only the right end is stripped
  have hright : ∀ s : List Char, s.dropWhile isSpace = s → strip s <+: s := by
    intro s hs
    rw [strip, stripEnds, hs]
    exact List.rdropWhile_prefix isSpace s
  have hhead : ∀ {s t : List Char} {c : Char}, isSpace c = false → s <+: c :: t →
      s.dropWhile isSpace = s := by
    intro s t c hc hs
    cases s with
    | nil => rfl
    | cons x xs =>
      obtain rfl := (List.cons_prefix_cons.mp hs).1
      exact List.dropWhile_cons_of_neg (by simpa using hc)
  obtain ⟨c, mid, d, hpayload, hc, -⟩ := h.brackets
  have hopening : ∀ c ∈ ['\x7b', '['], isSpace c = false := by simp [isSpace]
  have hstrip : strip text <+: dataLine payload :=
    (hright text (hhead (show isSpace 'd' = false by decide) htext)).trans htext
  obtain ⟨rest, hrest⟩ := List.isPrefixOf_iff_prefix.mp hdata
  rw [← hrest, dataLine, List.prefix_append_right_inj] at hstrip
  rw [← hrest, List.drop_left]
  cases rest with
  | nil => exact List.nil_prefix
  | cons space rest =>
    obtain ⟨rfl, hprefix⟩ := List.cons_prefix_cons.mp hstrip
    have hspace : strip (' ' :: rest) = strip rest := by
      rw [strip, stripEnds, List.dropWhile_cons_of_pos (by decide), strip, stripEnds]
    rw [hpayload] at hprefix ⊢
    rw [hspace]
    exact (hright rest (hhead (hopening c hc) hprefix)).trans hprefix

/-- Without its last letter an object is no JSON. -/
theorem parse_initial {fields : List (String × String)} {x : Json} {payload rest : List Char}
    (hfields : payload ++ rest = (stringifyObject fields).toList)
    (h : Json.parse (stringifyObject fields).toList = some x) (hpayload : payload ≠ [])
    (hrest : rest ≠ []) : Json.parse payload = none := by
  rw [← hfields] at h
  rw [toList_stringifyObject, Json.objectText] at hfields
  obtain ⟨front, d, rfl⟩ := (List.eq_nil_or_concat rest).resolve_left hrest
  cases payload with
  | nil => contradiction
  | cons c payload =>
    rw [List.concat_eq_append, List.cons_append, List.cons.injEq, ← List.append_assoc] at hfields
    obtain ⟨rfl, hends⟩ := hfields
    obtain rfl : d = '\x7d' := List.singleton_inj.mp (List.append_inj_right' hends rfl)
    by_contra hread
    obtain ⟨y, hy⟩ := Option.ne_none_iff_exists'.mp hread
    have hbrace : Json.skipSpace ('\x7b' :: payload) = '\x7b' :: payload :=
      List.dropWhile_cons_of_neg (by decide)
    have hspace := Json.skipSpace_of_parse_append hbrace hy h
    rw [Json.skipSpace, List.dropWhile_eq_nil_iff] at hspace
    exact absurd (hspace '\x7d' (by simp)) (by decide)

theorem ne_doneSentinel {fields : List (String × String)} {payload rest : List Char}
    (hfields : payload ++ rest = (stringifyObject fields).toList) :
    payload ≠ doneSentinel.toList := by
  rintro rfl
  rw [toList_stringifyObject, Json.objectText] at hfields
  have hhead : some '[' = some '\x7b' := congrArg List.head? hfields
  exact absurd hhead (by decide)

/-- No beginning of a payload but the whole is read. -/
theorem payloadTurn_initial {event : ChatEvent} (hevent : event ∈ chatEvents stream)
    {payload : List Char} (h : payload <+: event.payload.toList) :
    payloadTurn jsonParse payload = .next () none ∨
      payloadTurn jsonParse payload = eventTurn toChunk event := by
  obtain ⟨rest, hrest⟩ := h
  have hwhole : payloadTurn jsonParse event.payload.toList = eventTurn toChunk event :=
    (lineTurn_dataLine event.bracketed).symm.trans (lineTurn_event (parses_json stream) hevent)
  rcases eq_or_ne rest [] with rfl | hne
  · right
    rw [List.append_nil] at hrest
    rw [hrest, hwhole]
  · left
    have hshort : payload ≠ doneSentinel.toList ∧
        (payload ≠ [] → Json.parse payload = none) := by
      cases event with
      | chunk c =>
        exact ⟨ne_doneSentinel hrest,
          fun hpayload => parse_initial hrest (parse_stringify c) hpayload hne⟩
      | error message =>
        exact ⟨ne_doneSentinel hrest,
          fun hpayload => parse_initial hrest (parse_stringifyError message) hpayload hne⟩
      | done =>
        have hinits : ∀ p ∈ doneSentinel.toList.inits, p ≠ doneSentinel.toList →
            p ≠ [] → Json.parse p = none := by decide
        have hmem : payload ∈ doneSentinel.toList.inits := (List.mem_inits _ _).mpr ⟨rest, hrest⟩
        have hself : payload ≠ doneSentinel.toList := by
          rintro rfl
          exact hne (List.append_right_eq_self.mp hrest)
        exact ⟨hself, hinits payload hmem hself⟩
    rw [payloadTurn, if_neg hshort.1]
    split
    · rfl
    · rename_i hpayload
      rw [jsonParse, String.toList_ofList, hshort.2 hpayload]
      rfl

/-- The last line, of which the end is missing. -/
theorem lineTurn_initial {event : ChatEvent} (hevent : event ∈ chatEvents stream)
    {rest : List UInt8} (h : rest <+: Utf8.encode (dataLine event.payload)) :
    lineTurn jsonParse () rest = .throw "UnicodeDecodeError" ∨
      lineTurn jsonParse () rest = .next () none ∨
      lineTurn jsonParse () rest = eventTurn toChunk event := by
  rw [lineTurn]
  cases hdecode : decode rest with
  | none => exact .inl rfl
  | some text =>
    right
    obtain ⟨later, hlater⟩ := h
    rw [← encode_of_decode hdecode] at hlater
    obtain ⟨missing, hmissing⟩ := Utf8.exists_append_of_encode hlater.symm
    dsimp only
    split_ifs with hdata
    · exact payloadTurn_initial hevent
        (strip_initial event.bracketed ⟨missing, hmissing.symm⟩ hdata)
    · exact .inl rfl

/-- The line of an event, or the blank one after it. -/
def lineOf : Option ChatEvent → List UInt8
  | some event => Utf8.encode (dataLine event.payload)
  | none => []

def outOf (line : Option ChatEvent) : Option Chunk := line.bind (delivered toChunk)

def lineTurnOf : Option ChatEvent → Turn String Unit Chunk
  | some event => eventTurn toChunk event
  | none => .next () none

def linesOf (events : List ChatEvent) : List (Option ChatEvent) :=
  events.flatMap fun event => [some event, none]

theorem mem_linesOf {event : ChatEvent} {events : List ChatEvent} :
    some event ∈ linesOf events ↔ event ∈ events := by
  simp [linesOf]

theorem chatWire_eq : chatWire stream =
    ((linesOf (chatEvents stream)).map lineOf).flatMap (· ++ [Utf8.lineFeed]) := by
  rw [chatWire, linesOf]
  induction chatEvents stream with
  | nil => rfl
  | cons event events ih =>
    rw [List.flatMap_cons, Utf8.encode_append, ih, List.flatMap_cons, toList_writeSSE,
      Utf8.encode_append, List.map_append, List.flatMap_append]
    simp [lineOf, Utf8.encode, Utf8.lineFeed]
    rfl

theorem lineFeed_notMem_lineOf (line : Option ChatEvent) : Utf8.lineFeed ∉ lineOf line := by
  cases line with
  | none => exact List.not_mem_nil
  | some event =>
    intro hmem
    obtain ⟨c, hc, hfeed⟩ := List.mem_flatMap.mp hmem
    have hne : c ≠ '\n' := fun h => newline_notMem_dataLine event.bracketed (h ▸ hc)
    exact Utf8.lineFeed_notMem_utf8EncodeChar hne hfeed

theorem lineTurn_lineOf {line : Option ChatEvent} (h : line ∈ linesOf (chatEvents stream)) :
    lineTurn jsonParse () (lineOf line ++ [Utf8.lineFeed]) = lineTurnOf line := by
  cases line with
  | none => exact lineTurn_blank
  | some event => exact lineTurn_event (parses_json stream) (mem_linesOf.mp h)

theorem linesOf_chatEvents :
    linesOf (chatEvents stream) = linesOf (openEvents stream) ++ some .done :: [none] := by
  rw [chatEvents_eq, linesOf, List.flatMap_append]
  rfl

theorem filterMap_linesOf (events : List ChatEvent) :
    (linesOf events).filterMap outOf = events.filterMap (delivered toChunk) := by
  rw [linesOf, List.filterMap_flatMap, List.filterMap_eq_flatMap_toList]
  refine List.flatMap_congr fun event _ => ?_
  cases hout : delivered toChunk event with
  | none => simp [outOf, hout]
  | some chunk => simp [outOf, hout]

theorem lineTurnOf_open {line : Option ChatEvent} (h : line ∈ linesOf (openEvents stream)) :
    lineTurnOf line = .next () (outOf line) := by
  cases line with
  | none => rfl
  | some event => exact eventTurn_open toChunk stream (mem_linesOf.mp h)

/-- The whole lines of the beginning of a response. -/
theorem exists_lines {bytes : List UInt8} (h : bytes <+: chatWire stream) :
    ∃ lines, (drain Utf8.lineFeed bytes).1 = lines.map lineOf ∧
      lines <+: linesOf (chatEvents stream) ∧
      ((drain Utf8.lineFeed bytes).2 = [] ∨
        ∃ event, lines ++ [some event] <+: linesOf (chatEvents stream) ∧
          (drain Utf8.lineFeed bytes).2 <+: Utf8.encode (dataLine event.payload)) := by
  rw [chatWire_eq] at h
  have hnotMem : ∀ line ∈ (linesOf (chatEvents stream)).map lineOf, Utf8.lineFeed ∉ line := by
    intro line hline
    obtain ⟨line, -, rfl⟩ := List.mem_map.mp hline
    exact lineFeed_notMem_lineOf line
  obtain ⟨hlines, hrest⟩ := drain_of_initial hnotMem h
  obtain ⟨lines, hprefix, hlines⟩ := List.prefix_map_iff.mp hlines
  refine ⟨lines, hlines, hprefix, ?_⟩
  obtain hrest | ⟨line, hline, hrest⟩ := hrest
  · exact .inl hrest
  · obtain ⟨more, hmore⟩ := hprefix
    rw [hlines, ← hmore, List.map_append, List.prefix_append_right_inj] at hline
    cases more with
    | nil => simp at hline
    | cons next more =>
      rw [List.map_cons, List.cons_prefix_cons] at hline
      obtain ⟨rfl, -⟩ := hline
      cases next with
      | none => exact .inl (List.prefix_nil.mp hrest)
      | some event => exact .inr ⟨event, ⟨more, by rw [← hmore]; simp⟩, hrest⟩

/-- What follows the last line feed. -/
def lastLine (response : Response) : List (List UInt8) :=
  let rest := (drain Utf8.lineFeed response.reads.flatten).2
  if rest = [] ∨ response.failure.isSome then [] else [rest]

/-- The last line yields nothing, or its whole event. -/
theorem forAwait_lastLine {lines : List (Option ChatEvent)}
    (h : (drain Utf8.lineFeed response.reads.flatten).2 = [] ∨
      ∃ event, lines ++ [some event] <+: linesOf (chatEvents stream) ∧
        (drain Utf8.lineFeed response.reads.flatten).2 <+: Utf8.encode (dataLine event.payload)) :
    ∃ out err, forAwait (lineTurn jsonParse) response.failure () (lastLine response) = ⟨out, err⟩ ∧
      (err = response.failure ∨ response.failure = none ∧ err = some "UnicodeDecodeError") ∧
      (out = [] ∨ ∃ event, lines ++ [some event] <+: linesOf (chatEvents stream) ∧
        out = (delivered toChunk event).toList) := by
  rw [lastLine]
  split_ifs with hnone
  · exact ⟨[], response.failure, rfl, .inl rfl, .inl rfl⟩
  · rw [not_or, Option.not_isSome_iff_eq_none] at hnone
    obtain ⟨event, hevent, hrest⟩ := h.resolve_left hnone.1
    have hmem : event ∈ chatEvents stream :=
      mem_linesOf.mp (hevent.subset (List.mem_append_right _ List.mem_cons_self))
    obtain hthrow | hnext | hturn := lineTurn_initial hmem hrest
    · exact ⟨[], some "UnicodeDecodeError", by rw [forAwait, hthrow], .inr ⟨hnone.2, rfl⟩, .inl rfl⟩
    · exact ⟨[], response.failure, by rw [forAwait, hnext]; rfl, .inl rfl, .inl rfl⟩
    · refine ⟨(delivered toChunk event).toList, none, ?_, .inl hnone.2.symm,
        .inr ⟨event, hevent, rfl⟩⟩
      rw [forAwait, hturn, eventTurn, hnone.2]
      split_ifs with hdone
      · subst hdone
        rfl
      · simp [forAwait]

theorem arrives_stream (h : response.reads.flatten <+: chatWire stream) :
    Arrives toChunk stream response ["UnicodeDecodeError"]
      (Python.stream jsonParse response) := by
  have hwhole : response.reads.flatten = chatWire stream → _ := stream_chatWire (parses_json stream)
  obtain ⟨lines, hdrain, hlines, hrest⟩ := exists_lines h
  obtain ⟨out, err, hlastLine, herr, hout⟩ := forAwait_lastLine hrest
  have hrun : Python.stream jsonParse response = forAwait (lineTurn jsonParse) response.failure ()
      (lines.map (fun line => lineOf line ++ [Utf8.lineFeed]) ++ lastLine response) := by
    have hraw : rawLines response = (drain Utf8.lineFeed response.reads.flatten).1.map
      (· ++ [Utf8.lineFeed]) ++ lastLine response := rfl
    rw [Python.stream, hraw, hdrain, List.map_map]
    rfl
  have hturn : ∀ line ∈ linesOf (chatEvents stream),
      lineTurn jsonParse () (lineOf line ++ [Utf8.lineFeed]) = lineTurnOf line :=
    fun line => lineTurn_lineOf
  have hevents : linesOf (chatEvents stream) = _ := linesOf_chatEvents
  have hnext : ∀ line ∈ linesOf (openEvents stream),
      lineTurn jsonParse () (lineOf line ++ [Utf8.lineFeed]) = .next () (outOf line) := by
    intro line hline
    rw [hturn line (hevents ▸ List.mem_append_left _ hline), lineTurnOf_open hline]
  have hlast : lineTurn jsonParse () (lineOf (some .done) ++ [Utf8.lineFeed]) = .ret none :=
    hturn (some .done) (hevents ▸ List.mem_append_right _ List.mem_cons_self)
  obtain ⟨hopen, hitems⟩ | hitems := forAwait_of_initial response.failure (lastLine response) hnext
    hlast (hevents ▸ hlines)
  all_goals rw [← hrun] at hitems
  · rw [hlastLine] at hitems
    refine ⟨hwhole, ?_, fun hsome => ?_, fun hnone => ?_⟩ <;> rw [hitems]
    · rw [← filterMap_chatEvents, ← filterMap_linesOf]
      obtain rfl | ⟨event, hevent, rfl⟩ := hout
      · rw [List.append_nil]
        exact hlines.filterMap _
      · have hone : [some event].filterMap outOf = (delivered toChunk event).toList := by
          cases hout : delivered toChunk event with
          | none => simp [outOf, hout]
          | some chunk => simp [outOf, hout]
        rw [← hone, ← List.filterMap_append]
        exact hevent.filterMap outOf
    · exact .inl (herr.resolve_right fun hown => by simp [hown.1] at hsome)
    · intro e he
      obtain herr | ⟨-, herr⟩ := herr
      · simp [herr, hnone] at he
      · rw [herr] at he
        exact List.mem_singleton.mpr (Option.mem_some.mp he).symm
  · rw [filterMap_linesOf, filterMap_open] at hitems
    exact ⟨hwhole, by rw [hitems], fun _ => .inr hitems, by simp [hitems]⟩

end Python

/-- What the clients make of a response of the route that breaks off at any byte. -/
theorem arrives {stream : Generated String ChatChunk} {response : Response}
    (h : response.reads.flatten <+: chatWire stream) :
    Arrives JavaScript.toChunk stream response [] (JavaScript.stream jsonParse response) ∧
      Arrives Python.toChunk stream response ["UnicodeDecodeError"]
        (Python.stream jsonParse response) :=
  ⟨JavaScript.arrives_stream h, Python.arrives_stream h⟩

/-- The response breaks off within the greeting, and the provider had failed after it. -/
theorem arrives_greeting : ∃ response : Response,
    response.reads.flatten <+: chatWire ⟨[greeting], some "upstream reset"⟩ ∧
    Arrives JavaScript.toChunk ⟨[greeting], some "upstream reset"⟩ response []
        (JavaScript.stream jsonParse response) ∧
      Arrives Python.toChunk ⟨[greeting], some "upstream reset"⟩ response ["UnicodeDecodeError"]
        (Python.stream jsonParse response) := by
  refine ⟨byteByByte ((chatWire ⟨[greeting], some "upstream reset"⟩).take 64), ?_, ?_⟩
  · rw [flatten_byteByByte]
    exact List.take_prefix 64 _
  · refine arrives ?_
    rw [flatten_byteByByte]
    exact List.take_prefix 64 _

end Sdk

end CloudMesh
