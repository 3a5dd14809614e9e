import CloudMesh.Gateway.Events
import CloudMesh.Text

/-!
# The chat streams of the SDKs

`chat.stream` of the JavaScript and of the Python client. A response is given by its network reads
and the error of the last one, if it fails. What `JSON.parse` and `json.loads` make of a payload is
a parameter. The JavaScript client decodes every read, carries what follows the last blank line over
to the next one and looks for the data line of every frame; the Python client decodes line by line.

## Main definitions

- `JavaScript.stream`, `Python.stream` — what the iterators yield, and how they end
- `JavaScript.stream_chatWire`, `Python.stream_chatWire` — both on what the route writes, for every
  way to cut it into reads
- `survives` — a stream that does not fail arrives completely
- `truncation_hidden` — a stream that fails arrives as if it had ended
-/

namespace CloudMesh

namespace Sdk

open Streams

/-- The body of a response: its network reads, and the error at their end. -/
structure Response where
  reads : List (List UInt8)
  failure : Option String

/-- What is read of a parsed payload. -/
inductive Parsed
  | object (delta model provider : Option String)
  | other
  deriving DecidableEq, Repr

def dataField : List Char := "data:".toList

/-! ## JavaScript -/

namespace JavaScript

structure Chunk where
  text : String
  model : Option String
  provider : Option String
  deriving DecidableEq, Repr

section

variable (parse : String → Option Parsed)

/-- A payload that is not JSON, or has no `delta`, is skipped. -/
def payloadTurn (payload : List Char) : Turn String Unit Chunk :=
  if payload = doneSentinel.toList then .ret none
  else if payload = [] then .next () none
  else
    match parse (String.ofList payload) with
    | some (.object (some delta) model provider) =>
      .next () (if delta = "" then none else some ⟨delta, model, provider⟩)
    | _ => .next () none

def frameTurn (frame : List Char) : Turn String Unit Chunk :=
  match (split '\n' frame).find? dataField.isPrefixOf with
  | none => .next () none
  | some line => payloadTurn parse (trim (line.drop dataField.length))

/-- The loop over the frames of a read, and what comes after it. -/
def frameLoop (after : Generated String Chunk) : List (List Char) → Generated String Chunk
  | [] => after
  | frame :: frames =>
    match frameTurn parse frame with
    | .throw err => ⟨[], some err⟩
    | .ret out => ⟨out.toList, none⟩
    | .next _ out =>
      let rest := frameLoop after frames
      { rest with items := out.toList ++ rest.items }

/-- The loop over the reads. -/
def readLoop (failure : Option String) (decoder : Utf8.TextDecoder) (buffer : List Char) :
    List (List UInt8) → Generated String Chunk
  | [] => ⟨[], failure⟩
  | value :: reads =>
    let (text, decoder) := scan Utf8.TextDecoder.step decoder value
    let frames := splitOn "\n\n".toList (buffer ++ text)
    frameLoop parse (readLoop failure decoder (frames.getLastD []) reads) frames.dropLast

def stream (response : Response) : Generated String Chunk :=
  readLoop parse response.failure .new [] response.reads

end

/-! ### Reads do not matter -/

section

variable {parse : String → Option Parsed} {failure : Option String}

/-- The loop over the frames of all reads is one loop. -/
theorem frameLoop_forAwait (frames later : List (List Char)) :
    frameLoop parse (forAwait (fun _ => frameTurn parse) failure () later) frames =
      forAwait (fun _ => frameTurn parse) failure () (frames ++ later) := by
  induction frames with
  | nil => rfl
  | cons frame frames ih =>
    simp only [frameLoop, List.cons_append, forAwait]
    cases frameTurn parse frame with
    | throw err => rfl
    | ret out => rfl
    | next state out => rw [ih]

theorem readLoop_eq {decoder : Utf8.TextDecoder} {buffer : List Char}
    (hbuffer : scan (cut "\n\n".toList) [] buffer = ([], buffer)) (reads : List (List UInt8)) :
    readLoop parse failure decoder buffer reads =
      forAwait (fun _ => frameTurn parse) failure ()
        (scan (cut "\n\n".toList) buffer
          (scan Utf8.TextDecoder.step decoder reads.flatten).1).1 := by
  induction reads generalizing decoder buffer with
  | nil => rfl
  | cons value reads ih =>
    obtain ⟨text, hdecode⟩ : ∃ text, (scan Utf8.TextDecoder.step decoder value).1 = text := ⟨_, rfl⟩
    -- the buffer is read again with what follows it
    have hagain : scan (cut "\n\n".toList) [] (buffer ++ text) =
        scan (cut "\n\n".toList) buffer text := by
      rw [scan_append, hbuffer]
      rfl
    simp only [readLoop, splitOn, List.flatten_cons, hdecode, hagain, List.dropLast_concat,
      List.getLastD_concat]
    rw [ih (scan_cut_rest hbuffer), frameLoop_forAwait, scan_append, hdecode, scan_append]

/-- Only the text matters, if it does not begin with a byte order mark. -/
theorem stream_eq {response : Response} {c : Char} {text : List Char}
    (hc : c ≠ Utf8.TextDecoder.byteOrderMark)
    (hreads : response.reads.flatten = Utf8.encode (c :: text)) :
    stream parse response = forAwait (fun _ => frameTurn parse) response.failure ()
      (scan (cut "\n\n".toList) [] (c :: text)).1 := by
  rw [stream, readLoop_eq rfl, hreads, Utf8.TextDecoder.scan_step_encode hc]

end

end JavaScript

/-! ## Python -/

namespace Python

structure Chunk where
  text : String
  deriving DecidableEq, Repr

/-- The white space of `str.strip`. -/
def isSpace (c : Char) : Bool :=
  c.toNat ∈ [0x9, 0xa, 0xb, 0xc, 0xd, 0x1c, 0x1d, 0x1e, 0x1f, 0x20, 0x85, 0xa0, 0x1680, 0x2000,
    0x2001, 0x2002, 0x2003, 0x2004, 0x2005, 0x2006, 0x2007, 0x2008, 0x2009, 0x200a, 0x2028, 0x2029,
    0x202f, 0x205f, 0x3000]

def strip (s : List Char) : List Char := stripEnds isSpace s

/-- `bytes.decode("utf-8")`. -/
def decode (bytes : List UInt8) : Option (List Char) := bytes.toByteArray.utf8Decode?.map (·.toList)

section

variable (loads : String → Option Parsed)

/-- Of a value that is not a dictionary, `get` raises. -/
def payloadTurn (payload : List Char) : Turn String Unit Chunk :=
  if payload = doneSentinel.toList then .ret none
  else if payload = [] then .next () none
  else
    match loads (String.ofList payload) with
    | none => .next () none
    | some (.object delta _ _) =>
      .next () ((delta.filter fun text => text ≠ "").map Chunk.mk)
    | some .other => .throw "AttributeError"

def lineTurn (_ : Unit) (rawLine : List UInt8) : Turn String Unit Chunk :=
  match decode rawLine with
  | none => .throw "UnicodeDecodeError"
  | some text =>
    if dataField.isPrefixOf (strip text) then
      payloadTurn loads (strip ((strip text).drop dataField.length))
    else .next () none

/-- The lines of a response, with their line feeds. The file object is buffered, so they do not
depend on the reads; what follows the last line feed is a line if the response has ended. -/
def rawLines (response : Response) : List (List UInt8) :=
  let (lines, rest) := drain Utf8.lineFeed response.reads.flatten
  lines.map (· ++ [Utf8.lineFeed]) ++
    if rest = [] ∨ response.failure.isSome then [] else [rest]

def stream (response : Response) : Generated String Chunk :=
  forAwait (lineTurn loads) response.failure () (rawLines response)

end

theorem decode_encode (text : List Char) : decode (Utf8.encode text) = some text := by
  have hdecode : text.utf8Encode.utf8Decode? = some text.toArray := List.utf8Decode?_utf8Encode
  have hbytes : (Utf8.encode text).toByteArray = text.utf8Encode := rfl
  rw [decode, hbytes, hdecode]
  rfl

end Python

/-! ## What the route writes -/

def dataLine (payload : String) : List Char := dataField ++ ' ' :: payload.toList

theorem toList_writeSSE (payload : String) :
    (writeSSE payload).toList = dataLine payload ++ ['\n', '\n'] := by
  simp only [writeSSE, dataLine, dataField, String.toList_append]
  rfl

section

variable {payload : String}

theorem newline_notMem_dataLine (h : Bracketed payload) : '\n' ∉ dataLine payload := by
  simp only [dataLine, List.mem_append, List.mem_cons, not_or]
  exact ⟨by decide, by decide, h.oneLine⟩

theorem isPrefixOf_dataLine (payload : String) : dataField.isPrefixOf (dataLine payload) = true :=
  List.isPrefixOf_iff_prefix.mpr (List.prefix_append _ _)

theorem drop_dataLine (payload : String) :
    (dataLine payload).drop dataField.length = ' ' :: payload.toList :=
  List.drop_left

end

section

variable {β : Type} (toChunk : ChatChunk → β)

/-- What a client yields for an event: nothing for an error, as for a chunk without a delta. -/
def delivered : ChatEvent → Option β
  | .chunk chunk => if chunk.delta = "" then none else some (toChunk chunk)
  | _ => none

def eventTurn (event : ChatEvent) : Turn String Unit β :=
  if event = .done then .ret none else .next () (delivered toChunk event)

theorem filterMap_delivered (chunks : List ChatChunk) :
    (chunks.map ChatEvent.chunk).filterMap (delivered toChunk) =
      (chunks.filter fun chunk => chunk.delta ≠ "").map toChunk := by
  induction chunks with
  | nil => rfl
  | cons chunk chunks ih =>
    rw [List.map_cons]
    by_cases hdelta : chunk.delta = ""
    · have hout : delivered toChunk (.chunk chunk) = none := if_pos hdelta
      rw [List.filterMap_cons_none hout, ih, List.filter_cons_of_neg (by simpa using hdelta)]
    · have hout : delivered toChunk (.chunk chunk) = some (toChunk chunk) := if_neg hdelta
      rw [List.filterMap_cons_some hout, ih, List.filter_cons_of_pos (by simpa using hdelta)]
      rfl

/-- The events of a stream, whether or not it has failed. -/
theorem forAwait_eventTurn (stream : Generated String ChatChunk) (failure : Option String) :
    forAwait (fun _ => eventTurn toChunk) failure () (chatEvents stream) =
      ⟨(stream.items.filter fun chunk => chunk.delta ≠ "").map toChunk, none⟩ := by
  have hnext : ∀ event ∈ stream.items.map ChatEvent.chunk ++
      stream.failure.toList.map ChatEvent.error,
      eventTurn toChunk event = .next () (delivered toChunk event) := by
    intro event hevent
    rw [eventTurn, if_neg]
    rintro rfl
    simp at hevent
  have herror : (stream.failure.toList.map ChatEvent.error).filterMap (delivered toChunk) = [] := by
    cases stream.failure <;> rfl
  rw [chatEvents, forAwait_of_next (fun _ => eventTurn toChunk) hnext, List.filterMap_append,
    filterMap_delivered, herror]
  simp [forAwait, eventTurn]

end

/-- On what the route writes of a stream, what is parsed has the fields that were written. -/
structure Parses (parse : String → Option Parsed) (stream : Generated String ChatChunk) : Prop where
  chunk : ∀ c ∈ stream.items,
    parse c.stringify = some (.object (some c.delta) (some c.model) (some c.provider))
  error : ∀ message ∈ stream.failure, parse (stringifyError message) = some (.object none none none)

theorem payload_ne_nil (event : ChatEvent) : event.payload.toList ≠ [] := by
  obtain ⟨c, mid, d, hpayload, -, -⟩ := event.bracketed.brackets
  rw [hpayload]
  exact List.cons_ne_nil _ _

/-- No chunk and no error is taken for the end. -/
theorem payload_eq_doneSentinel {event : ChatEvent} :
    event.payload.toList = doneSentinel.toList ↔ event = .done := by
  constructor
  · intro h
    cases event with
    | chunk c =>
      simp [ChatEvent.payload, ChatChunk.stringify, stringifyObject, doneSentinel] at h
    | error message =>
      simp [ChatEvent.payload, stringifyError, stringifyObject, doneSentinel] at h
    | done => rfl
  · rintro rfl
    rfl

variable {stream : Generated String ChatChunk} {response : Response}

/-- A client that yields what a chunk has and passes over an error makes the turn of each event. -/
theorem turn_of_event {β : Type} {toChunk : ChatChunk → β} {parse : String → Option Parsed}
    (hparse : Parses parse stream) {event : ChatEvent} (hevent : event ∈ chatEvents stream)
    (turnOf : Option Parsed → Turn String Unit β)
    (hchunk : ∀ c, turnOf (some (.object (some c.delta) (some c.model) (some c.provider))) =
      .next () (delivered toChunk (.chunk c)))
    (herror : turnOf (some (.object none none none)) = .next () none) :
    (if event.payload.toList = doneSentinel.toList then .ret none
      else if event.payload.toList = [] then .next () none
      else turnOf (parse (String.ofList event.payload.toList))) = eventTurn toChunk event := by
  rw [eventTurn]
  simp only [payload_eq_doneSentinel, if_neg (payload_ne_nil event), String.ofList_toList]
  split
  · rfl
  · cases event with
    | chunk c =>
      have hc : c ∈ stream.items := by simpa [chatEvents] using hevent
      rw [ChatEvent.payload, hparse.chunk c hc, hchunk]
    | error message =>
      have hmessage : message ∈ stream.failure := by simpa [chatEvents] using hevent
      rw [ChatEvent.payload, hparse.error message hmessage, herror]
      rfl
    | done => contradiction

namespace JavaScript

variable {parse : String → Option Parsed}

def toChunk (chunk : ChatChunk) : Chunk := ⟨chunk.delta, some chunk.model, some chunk.provider⟩

theorem frameTurn_dataLine {payload : String} (h : Bracketed payload) :
    frameTurn parse (dataLine payload) = payloadTurn parse payload.toList := by
  have hsplit : split '\n' (dataLine payload) = [dataLine payload] := by
    rw [split, drain_of_notMem (newline_notMem_dataLine h)]
    rfl
  have htrim : trim (' ' :: payload.toList) = payload.toList :=
    h.stripEnds_payload isWhiteSpace_bracket isWhiteSpace_blank
  rw [frameTurn, hsplit, List.find?_cons_of_pos (isPrefixOf_dataLine payload)]
  dsimp only
  rw [drop_dataLine, htrim]

/-- The frames of the response are the data lines. -/
theorem scan_cut_events (events : List ChatEvent) :
    (scan (cut "\n\n".toList) [] (events.flatMap fun event => (writeSSE event.payload).toList)).1 =
      events.map fun event => dataLine event.payload := by
  induction events with
  | nil => rfl
  | cons event events ih =>
    have hline := newline_notMem_dataLine event.bracketed
    rw [List.flatMap_cons, toList_writeSSE, List.map_cons,
      show "\n\n".toList = ['\n', '\n'] from rfl, scan_cut_twice hline]
    exact congrArg (dataLine event.payload :: ·) ih

theorem frameTurn_event (hparse : Parses parse stream) {event : ChatEvent}
    (hevent : event ∈ chatEvents stream) :
    frameTurn parse (dataLine event.payload) = eventTurn toChunk event := by
  rw [frameTurn_dataLine event.bracketed]
  refine turn_of_event hparse hevent (fun
    | some (.object (some delta) model provider) =>
      .next () (if delta = "" then none else some (Chunk.mk delta model provider))
    | _ => .next () none) (fun c => ?_) rfl
  rfl

/-- What the iterator yields of a response of the route, and that it ends without an error. -/
theorem stream_chatWire (hparse : Parses parse stream)
    (hreads : response.reads.flatten = chatWire stream) :
    JavaScript.stream parse response =
      ⟨(stream.items.filter fun chunk => chunk.delta ≠ "").map toChunk, none⟩ := by
  obtain ⟨text, htext⟩ : ∃ text, (chatEvents stream).flatMap
      (fun event => (writeSSE event.payload).toList) = 'd' :: text := by
    cases hevents : chatEvents stream with
    | nil => simp [chatEvents] at hevents
    | cons event events =>
      rw [List.flatMap_cons, toList_writeSSE]
      exact ⟨_, rfl⟩
  rw [chatWire, htext] at hreads
  rw [stream_eq (by decide) hreads, ← htext, scan_cut_events,
    forAwait_map (fun event hevent _ => frameTurn_event hparse hevent), forAwait_eventTurn]

end JavaScript

namespace Python

variable {loads : String → Option Parsed}

def toChunk (chunk : ChatChunk) : Chunk := ⟨chunk.delta⟩

/-- The lines of the response: a blank line follows every data line. -/
theorem drain_events (events : List ChatEvent) :
    drain '\n' (events.flatMap fun event => (writeSSE event.payload).toList) =
      (events.flatMap fun event => [dataLine event.payload, []], []) := by
  induction events with
  | nil => rfl
  | cons event events ih =>
    have hline := newline_notMem_dataLine event.bracketed
    rw [List.flatMap_cons, toList_writeSSE, List.append_assoc, drain_append_of_notMem hline,
      List.cons_append, List.cons_append, List.nil_append, drain_cons_self, drain_cons_self, ih]
    simp

theorem isSpace_bracket : ∀ c ∈ ['\x7b', '[', '\x7d', ']'], isSpace c = false := by
  simp [isSpace]

theorem strip_dataLine {payload : String} (h : Bracketed payload) :
    strip (dataLine payload ++ ['\n']) = dataLine payload := by
  have hline : dataLine payload = 'd' :: ("ata: ".toList ++ payload.toList) := rfl
  rw [hline]
  exact h.stripEnds_line isSpace_bracket (by decide) (by simp [isSpace])

theorem lineTurn_dataLine {payload : String} (h : Bracketed payload) :
    lineTurn loads () (Utf8.encode (dataLine payload) ++ [Utf8.lineFeed]) =
      payloadTurn loads payload.toList := by
  have hdecode : decode (Utf8.encode (dataLine payload) ++ [Utf8.lineFeed]) =
      some (dataLine payload ++ ['\n']) := by
    rw [← decode_encode, Utf8.encode_append]
    rfl
  have hstrip : strip (' ' :: payload.toList) = payload.toList :=
    h.stripEnds_payload isSpace_bracket (List.forall_mem_singleton.mpr (by decide))
  rw [lineTurn, hdecode]
  simp only [strip_dataLine h, isPrefixOf_dataLine, if_true, drop_dataLine, hstrip]

theorem lineTurn_blank : lineTurn loads () [Utf8.lineFeed] = .next () none := by
  have hdecode : decode [Utf8.lineFeed] = some ['\n'] := decode_encode ['\n']
  have hstrip : strip ['\n'] = [] := by decide
  rw [lineTurn, hdecode]
  simp only [hstrip]
  rfl

theorem lineTurn_event (hloads : Parses loads stream) {event : ChatEvent}
    (hevent : event ∈ chatEvents stream) :
    lineTurn loads () (Utf8.encode (dataLine event.payload) ++ [Utf8.lineFeed]) =
      eventTurn toChunk event := by
  rw [lineTurn_dataLine event.bracketed]
  refine turn_of_event hloads hevent (fun
    | none => .next () none
    | some (.object delta _ _) => .next () ((delta.filter fun text => text ≠ "").map Chunk.mk)
    | some .other => .throw "AttributeError") (fun c => ?_) rfl
  by_cases hdelta : c.delta = "" <;> simp [hdelta, delivered, toChunk]

/-- The loop over the lines makes a turn for every event, and a silent one after it. -/
theorem forAwait_lineTurn {failure : Option String} {events : List ChatEvent}
    (h : ∀ event ∈ events,
      lineTurn loads () (Utf8.encode (dataLine event.payload) ++ [Utf8.lineFeed]) =
        eventTurn toChunk event) :
    forAwait (lineTurn loads) failure () ((events.flatMap fun event =>
        [Utf8.encode (dataLine event.payload), []]).map (· ++ [Utf8.lineFeed])) =
      forAwait (fun _ => eventTurn toChunk) failure () events := by
  induction events with
  | nil => rfl
  | cons event events ih =>
    have hrest := ih fun other hother => h other (List.mem_cons_of_mem _ hother)
    have hblank : lineTurn loads () ([] ++ [Utf8.lineFeed]) = .next () none := lineTurn_blank
    rw [List.flatMap_cons, List.cons_append, List.cons_append, List.nil_append, List.map_cons,
      List.map_cons]
    simp only [forAwait, h event List.mem_cons_self, hblank, hrest]
    rfl

/-- What the iterator yields of a response of the route, and that it ends without an error. -/
theorem stream_chatWire (hloads : Parses loads stream)
    (hreads : response.reads.flatten = chatWire stream) :
    Python.stream loads response =
      ⟨(stream.items.filter fun chunk => chunk.delta ≠ "").map toChunk, none⟩ := by
  have hlines : rawLines response = ((chatEvents stream).flatMap fun event =>
      [Utf8.encode (dataLine event.payload), []]).map (· ++ [Utf8.lineFeed]) := by
    rw [rawLines, hreads, chatWire, drain_encode, drain_events]
    simp [List.map_flatMap]
  rw [Python.stream, hlines, forAwait_lineTurn fun event hevent => lineTurn_event hloads hevent,
    forAwait_eventTurn]

end Python

/-! ### Two chunks -/

def greeting : ChatChunk := ⟨"c1", "mock", "mock-echo", "\u00e9\n[DONE]", false, none, none⟩

def lastChunk : ChatChunk := ⟨"c1", "mock", "mock-echo", "", true, some .stop, some ⟨1, 2⟩⟩

/-- A parser that knows the payloads of the two chunks and of one error. -/
def parseKnown (payload : String) : Option Parsed :=
  List.lookup payload
    [(greeting.stringify, .object (some greeting.delta) (some "mock-echo") (some "mock")),
      (lastChunk.stringify, .object (some "") (some "mock-echo") (some "mock")),
      (stringifyError "upstream reset", .object none none none)]

theorem parses_known {items : List ChatChunk} (hitems : items ⊆ [greeting, lastChunk])
    {failure : Option String} (hfailure : ∀ message ∈ failure, message = "upstream reset") :
    Parses parseKnown ⟨items, failure⟩ where
  chunk c hc := by
    have hknown : ∀ c ∈ [greeting, lastChunk], parseKnown c.stringify =
        some (.object (some c.delta) (some c.model) (some c.provider)) := by decide +kernel
    exact hknown c (hitems hc)
  error message hmessage := by
    obtain rfl := hfailure message hmessage
    decide

/-- A response that arrives byte by byte. -/
def byteByByte (bytes : List UInt8) : Response := ⟨bytes.map ([·]), none⟩

theorem flatten_byteByByte (bytes : List UInt8) : (byteByByte bytes).reads.flatten = bytes := by
  rw [byteByByte, ← List.flatMap_def]
  exact List.flatMap_singleton' bytes

/-! ## Streams on the wire -/

def deltas (chunks : List ChatChunk) : List String :=
  (chunks.map ChatChunk.delta).filter fun delta => delta ≠ ""

theorem map_filter_delta {β : Type} (toChunk : ChatChunk → β) (text : β → String)
    (h : ∀ chunk, text (toChunk chunk) = chunk.delta) (chunks : List ChatChunk) :
    ((chunks.filter fun chunk => chunk.delta ≠ "").map toChunk).map text = deltas chunks := by
  rw [List.map_map, deltas, List.filter_map]
  exact List.map_congr_left fun chunk _ => h chunk

section

variable {parse loads : String → Option Parsed}

/-- A stream that does not fail arrives completely, however its bytes are cut into reads. -/
theorem survives {chunks : List ChatChunk} (hparse : Parses parse ⟨chunks, none⟩)
    (hloads : Parses loads ⟨chunks, none⟩)
    (hreads : response.reads.flatten = chatWire ⟨chunks, none⟩) :
    ((JavaScript.stream parse response).items.map JavaScript.Chunk.text = deltas chunks ∧
        (JavaScript.stream parse response).failure = none) ∧
      (Python.stream loads response).items.map Python.Chunk.text = deltas chunks ∧
        (Python.stream loads response).failure = none := by
  rw [JavaScript.stream_chatWire hparse hreads, Python.stream_chatWire hloads hreads]
  exact ⟨⟨map_filter_delta _ JavaScript.Chunk.text (fun _ => rfl) chunks, rfl⟩,
    map_filter_delta _ Python.Chunk.text (fun _ => rfl) chunks, rfl⟩

/-- The accented letter of the greeting is cut in two, like every separator. -/
theorem survives_byteByByte : ∃ response : Response,
    response.reads.flatten = chatWire ⟨[greeting, lastChunk], none⟩ ∧
    ((JavaScript.stream parseKnown response).items.map JavaScript.Chunk.text =
        deltas [greeting, lastChunk] ∧ (JavaScript.stream parseKnown response).failure = none) ∧
      (Python.stream parseKnown response).items.map Python.Chunk.text =
        deltas [greeting, lastChunk] ∧ (Python.stream parseKnown response).failure = none :=
  ⟨byteByByte (chatWire ⟨[greeting, lastChunk], none⟩), flatten_byteByByte _,
    survives (parses_known (List.Subset.refl _) nofun) (parses_known (List.Subset.refl _) nofun)
      (flatten_byteByByte _)⟩

/-- The iterator ends normally only if the stream has not failed. -/
def TruncationVisible {β : Type} (stream : Generated String ChatChunk)
    (iterator : Generated String β) : Prop :=
  iterator.failure = none → stream.failure = none

theorem not_truncationVisible {β : Type} {iterator : Generated String β}
    (h : iterator.failure = none) (items : List ChatChunk) (message : String) :
    ¬ TruncationVisible ⟨items, some message⟩ iterator :=
  fun hvisible => Option.some_ne_none message (hvisible h)

/-- A stream that fails after its first chunk always arrives as if it had ended. -/
theorem truncation_hidden {chunk : ChatChunk} {chunks : List ChatChunk} {message : String}
    (hparse : Parses parse ⟨chunk :: chunks, some message⟩)
    (hloads : Parses loads ⟨chunk :: chunks, some message⟩)
    (hreads : response.reads.flatten = chatWire ⟨chunk :: chunks, some message⟩) :
    ¬ TruncationVisible ⟨chunk :: chunks, some message⟩ (JavaScript.stream parse response) ∧
      ¬ TruncationVisible ⟨chunk :: chunks, some message⟩ (Python.stream loads response) := by
  rw [JavaScript.stream_chatWire hparse hreads, Python.stream_chatWire hloads hreads]
  exact ⟨not_truncationVisible rfl _ _, not_truncationVisible rfl _ _⟩

theorem truncation_hidden_byteByByte : ∃ response : Response,
    response.reads.flatten = chatWire ⟨[greeting, lastChunk], some "upstream reset"⟩ ∧
    ¬ TruncationVisible ⟨[greeting, lastChunk], some "upstream reset"⟩
        (JavaScript.stream parseKnown response) ∧
      ¬ TruncationVisible ⟨[greeting, lastChunk], some "upstream reset"⟩
        (Python.stream parseKnown response) :=
  ⟨byteByByte (chatWire ⟨[greeting, lastChunk], some "upstream reset"⟩), flatten_byteByByte _,
    truncation_hidden (parses_known (List.Subset.refl _) (by simp))
      (parses_known (List.Subset.refl _) (by simp)) (flatten_byteByByte _)⟩

/-- The provider throws after the greeting: both iterators yield it and end. -/
theorem truncationVisible_fails : ∃ response : Response,
    response.reads.flatten = chatWire ⟨[greeting], some "upstream reset"⟩ ∧
    ¬(TruncationVisible ⟨[greeting], some "upstream reset"⟩
        (JavaScript.stream parseKnown response) ∧
      TruncationVisible ⟨[greeting], some "upstream reset"⟩
        (Python.stream parseKnown response)) := by
  have hparse : Parses parseKnown ⟨[greeting], some "upstream reset"⟩ :=
    parses_known (by decide) (by simp)
  refine ⟨byteByByte (chatWire ⟨[greeting], some "upstream reset"⟩), flatten_byteByByte _, ?_⟩
  rw [JavaScript.stream_chatWire hparse (flatten_byteByByte _)]
  exact fun h => not_truncationVisible rfl _ _ h.1

end

end Sdk

end CloudMesh
