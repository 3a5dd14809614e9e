import CloudMesh.Gateway.Adapters
import CloudMesh.Streams.Utf8

/-!
# Lines from the network

`lib/sse.ts` from the bytes of the reads: a decoder that keeps an incomplete character from one read
to the next, a buffer that keeps an incomplete line, and a loop that takes the complete lines off
the buffer. What the two parsers yield depends only on the bytes and not on how they are read.

## Main definitions

- `ByteStream` — the reads of a body
- `Sse.takeLines`, `Sse.readLines` — the inner and the outer loop
- `Sse.parseSSELines`, `Sse.parseNDJSONLines` — the two parsers
- `Sse.terminatedLines` — the lines of a text that are ended by a newline
- `Sse.parse_eq_lines` — what the parsers yield
-/

namespace CloudMesh

open Streams Utf8

/-- The reads of a body, and the error of the last one, if it fails. -/
structure ByteStream where
  reads : List (List UInt8)
  failure : Option String

namespace Sse

/-! ## The parsers -/

/-- `while ((newlineIndex = buffer.indexOf("\n")) !== -1)`: the lines, and the buffer at the end. -/
def takeLines (buffer : List Char) : List (List Char) × List Char :=
  match _h : buffer.idxOf? '\n' with
  | none => ([], buffer)
  | some newlineIndex =>
    let (lines, rest) := takeLines (buffer.drop (newlineIndex + 1))
    (buffer.take newlineIndex :: lines, rest)
termination_by buffer.length
decreasing_by
  obtain ⟨hlt, -⟩ := List.idxOf?_eq_some_iff.mp _h
  rw [List.length_drop]
  omega

/-- `decoder.decode(value, { stream: true })`. -/
def decodeRead (decoder : TextDecoder) (value : List UInt8) : List Char × TextDecoder :=
  scan TextDecoder.step decoder value

/-- The loop over the reads; `emit` is what is done with a line. -/
def readLines (emit : List Char → Option String) :
    TextDecoder → List Char → List (List UInt8) → List String
  | _, _, [] => []
  | decoder, buffer, value :: reads =>
    let (text, decoder) := decodeRead decoder value
    let (lines, buffer) := takeLines (buffer ++ text)
    lines.filterMap emit ++ readLines emit decoder buffer reads

def parseSSELines (body : ByteStream) : Generated String String where
  items := readLines (fun rest =>
    let line := trim rest
    if "data:".toList.isPrefixOf line then
      some (String.ofList (trim (line.drop "data:".length)))
    else none) .new [] body.reads
  failure := body.failure

def parseNDJSONLines (body : ByteStream) : Generated String String where
  items := readLines (fun rest =>
    let line := trim rest
    if line ≠ [] then some (String.ofList line) else none) .new [] body.reads
  failure := body.failure

/-! ## The lines of a text -/

/-- All bytes at once: a character that is still incomplete at the end is replaced. -/
def decode (bytes : List UInt8) : List Char :=
  let (text, decoder) := decodeRead .new bytes
  text ++ if decoder.utf8.needed = 0 then [] else [replacement]

/-- The lines that are ended by a newline. -/
def terminatedLines (text : List Char) : List (List Char) := (text.splitOn '\n').dropLast

/-- The payloads of the lines that begin with `data:`. -/
def dataPayloads (text : List Char) : List String :=
  (((terminatedLines text).map trim).filter fun line => "data:".toList.isPrefixOf line).map
    fun line => String.ofList (trim (line.drop "data:".length))

/-- The lines that are not empty. -/
def records (text : List Char) : List String :=
  (((terminatedLines text).map trim).filter fun line => line ≠ []).map String.ofList

section Lines

variable {emit : List Char → Option String} {decoder : TextDecoder} {buffer text : List Char}

theorem takeLines_eq_drain (buffer : List Char) : takeLines buffer = drain '\n' buffer := by
  fun_induction takeLines buffer with
  | case1 buffer h =>
    have hnot : '\n' ∉ buffer := List.idxOf?_eq_none_iff.mp h
    exact (drain_of_notMem hnot).symm
  | case2 buffer i h lines rest hrest ih =>
    obtain ⟨hlt, hat, hbefore⟩ := List.idxOf?_eq_some_iff.mp h
    have hnot : '\n' ∉ buffer.take i := by
      intro hmem
      obtain ⟨j, hj, hget⟩ := List.mem_take_iff_getElem.mp hmem
      exact hbefore j (by omega) hget
    have hsplit : buffer = buffer.take i ++ '\n' :: buffer.drop (i + 1) := by
      rw [← hat, List.getElem_cons_drop, List.take_append_drop]
    conv_rhs => rw [hsplit, drain_append_of_notMem hnot, drain_cons_self]
    rw [← ih, hrest]
    simp

theorem drain_eq_splitOn (text : List Char) :
    text.splitOn '\n' = (drain '\n' text).1 ++ [(drain '\n' text).2] := by
  induction text with
  | nil => rfl
  | cons c text ih =>
    rw [List.splitOn_cons_eq_if_modifyHead, ih]
    by_cases hc : c = '\n'
    · subst hc
      rw [drain_cons_self]
      simp
    · rw [drain_cons_of_ne hc]
      cases (drain '\n' text).1 <;> simp [hc]

theorem terminatedLines_eq_drain (text : List Char) :
    terminatedLines text = (drain '\n' text).1 := by
  rw [terminatedLines, drain_eq_splitOn, List.dropLast_concat]

/-- The loop over the reads takes the lines of what the decoder makes of all of them. -/
theorem readLines_eq (hbuffer : drain '\n' buffer = ([], buffer)) (reads : List (List UInt8)) :
    readLines emit decoder buffer reads =
      (drain '\n' (buffer ++ (decodeRead decoder reads.flatten).1)).1.filterMap emit := by
  induction reads generalizing decoder buffer with
  | nil => simp [readLines, decodeRead, scan, hbuffer]
  | cons value reads ih =>
    simp only [readLines, takeLines_eq_drain, decodeRead, List.flatten_cons, scan_append]
    rw [ih (drain_rest _), ← List.append_assoc, drain_append (buffer ++ _), List.filterMap_append]
    rfl

/-- An item that is no separator does not end a line. -/
theorem drain_concat_of_ne {c : Char} (hc : c ≠ '\n') (text : List Char) :
    (drain '\n' (text ++ [c])).1 = (drain '\n' text).1 := by
  induction text with
  | nil =>
    rw [List.nil_append, drain_cons_of_ne hc]
    rfl
  | cons d text ih =>
    rw [List.cons_append]
    by_cases hd : d = '\n'
    · subst hd
      rw [drain_cons_self, drain_cons_self, ih]
    · rw [drain_cons_of_ne hd, drain_cons_of_ne hd, ih]
      cases (drain '\n' text).1 <;> rfl

/-- What becomes of an incomplete character at the end does not end a line either. -/
theorem terminatedLines_decode (bytes : List UInt8) :
    terminatedLines (decode bytes) = (drain '\n' (decodeRead .new bytes).1).1 := by
  rw [terminatedLines_eq_drain]
  dsimp only [decode]
  split
  · rw [List.append_nil]
  · exact drain_concat_of_ne (by decide) _

theorem filterMap_trim (p : List Char → Bool) (f : List Char → String) (lines : List (List Char)) :
    (lines.filterMap fun rest => if p (trim rest) then some (f (trim rest)) else none) =
      ((lines.map trim).filter p).map f := by
  induction lines with
  | nil => rfl
  | cons line lines ih =>
    simp only [List.map_cons, List.filterMap_cons, List.filter_cons]
    cases hline : p (trim line) with
    | true => simp only [if_true, List.map_cons, ih]
    | false => simp only [Bool.false_eq_true, if_false, ih]

theorem parseSSELines_eq (body : ByteStream) :
    parseSSELines body = ⟨dataPayloads (decode body.reads.flatten), body.failure⟩ := by
  rw [parseSSELines, readLines_eq rfl, List.nil_append, dataPayloads, terminatedLines_decode]
  exact congrArg (Generated.mk · body.failure) (filterMap_trim
    (fun line => "data:".toList.isPrefixOf line)
    (fun line => String.ofList (trim (line.drop "data:".length))) _)

theorem parseNDJSONLines_eq (body : ByteStream) :
    parseNDJSONLines body = ⟨records (decode body.reads.flatten), body.failure⟩ := by
  rw [parseNDJSONLines, readLines_eq rfl, List.nil_append, records, terminatedLines_decode]
  have hitems := filterMap_trim (fun line => decide (line ≠ [])) String.ofList
  simp only [decide_eq_true_eq] at hitems
  exact congrArg (Generated.mk · body.failure) (hitems _)

end Lines

/-! ## The reads do not matter -/

/-- The text of each read. -/
def decodeReads : TextDecoder → List (List UInt8) → List String
  | _, [] => []
  | decoder, value :: reads =>
    let (text, decoder) := decodeRead decoder value
    String.ofList text :: decodeReads decoder reads

/-- The body as the text of its reads. -/
def decoded (body : ByteStream) : StreamBody := ⟨decodeReads .new body.reads, body.failure⟩

theorem flatten_decodeReads (decoder : TextDecoder) (reads : List (List UInt8)) :
    ((decodeReads decoder reads).map String.toList).flatten =
      (decodeRead decoder reads.flatten).1 := by
  induction reads generalizing decoder with
  | nil => rfl
  | cons value reads ih =>
    simp only [decodeReads, List.map_cons, List.flatten_cons, String.toList_ofList, ih, decodeRead,
      scan_append]

theorem lines_decoded (body : ByteStream) :
    (decoded body).lines = terminatedLines (decode body.reads.flatten) := by
  rw [StreamBody.lines, feed_eq_drain rfl, List.nil_append, terminatedLines_decode]
  exact congrArg (fun text => (drain '\n' text).1) (flatten_decodeReads .new body.reads)

/-- The parsers of decoded reads yield the same. -/
theorem parseSSELines_decoded (body : ByteStream) :
    CloudMesh.parseSSELines (decoded body) = parseSSELines body := by
  rw [parseSSELines_eq, CloudMesh.parseSSELines, lines_decoded, dataPayloads]
  exact congrArg (Generated.mk · body.failure) (filterMap_trim
    (fun line => "data:".toList.isPrefixOf line)
    (fun line => String.ofList (trim (line.drop "data:".length))) _)

theorem parseNDJSONLines_decoded (body : ByteStream) :
    CloudMesh.parseNDJSONLines (decoded body) = parseNDJSONLines body := by
  rw [parseNDJSONLines_eq, CloudMesh.parseNDJSONLines, lines_decoded, records]
  have hitems := filterMap_trim (fun line => decide (line ≠ [])) String.ofList
  simp only [decide_eq_true_eq, ne_eq, ite_not] at hitems
  exact congrArg (Generated.mk · body.failure) (hitems _)

/-- The parsers yield the lines of the bytes, however these are read. -/
theorem parse_eq_lines (reads reads' : List (List UInt8)) (failure : Option String)
    (h : reads.flatten = reads'.flatten) :
    parseSSELines ⟨reads, failure⟩ = ⟨dataPayloads (decode reads.flatten), failure⟩ ∧
      parseNDJSONLines ⟨reads, failure⟩ = ⟨records (decode reads.flatten), failure⟩ ∧
      parseSSELines ⟨reads, failure⟩ = parseSSELines ⟨reads', failure⟩ ∧
      parseNDJSONLines ⟨reads, failure⟩ = parseNDJSONLines ⟨reads', failure⟩ := by
  refine ⟨parseSSELines_eq _, parseNDJSONLines_eq _, ?_, ?_⟩
  · rw [parseSSELines_eq, parseSSELines_eq, h]
  · rw [parseNDJSONLines_eq, parseNDJSONLines_eq, h]

/-- `data: é` in two reads, which cut the character, with an empty one between them. -/
def cutReads : List (List UInt8) :=
  [[0x64, 0x61, 0x74, 0x61, 0x3A, 0x20, 0xC3], [], [0xA9, 0x0A]]

theorem parse_eq_lines_cut :
    parseSSELines ⟨cutReads, none⟩ = parseSSELines ⟨[cutReads.flatten], none⟩ ∧
      dataPayloads (decode cutReads.flatten) = ["é"] := by
  refine ⟨(parse_eq_lines cutReads [cutReads.flatten] none (by decide)).2.2.1, ?_⟩
  decide

end Sse

end CloudMesh
