import Wakii.Daemon.FramingRoundTrip
import Wakii.Daemon.StreamDataChunks

/-!
# The bytes of a data event

An event is measured before its end sequence is known and with another raw length
than it is written with.  The numbers of a chunk take at most 96 bytes more than
those it was measured with, and at most as many as the worst case of the binary
writer.
-/

namespace Wakii.StreamDataSplit

open BinaryFraming Json
open Json (IntegerFormat maxSafeInteger fieldBytes fieldsBytes)

/-- The longest string of the runtime, in units. -/
def maxStringLength : ℕ := 2 ^ 29 - 24

section Events

variable {N : Type} [IntCast N] (format : IntegerFormat N)

theorem byteLength_dataEvent (sessionId : Text) (payload : List (Text × Json N)) :
    Json.byteLength format.toNumberFormat (dataEvent sessionId payload) =
      55 + Text.byteLength (Json.quote sessionId) +
        Json.byteLength format.toNumberFormat (.object payload) := by
  have htype : Text.byteLength (Json.quote typeKey) = 6 := by decide
  have hevent : Text.byteLength (Json.quote eventKey) = 7 := by decide
  have hsession : Text.byteLength (Json.quote sessionIdKey) = 11 := by decide
  have hpayload : Text.byteLength (Json.quote payloadKey) = 9 := by decide
  have hevents : Text.byteLength (Json.quote (Text.ofString "event")) = 7 := by decide
  have hdata : Text.byteLength (Json.quote (Text.ofString "data")) = 6 := by decide
  rw [dataEvent, byteLength_object _ (List.cons_ne_nil _ _)]
  simp only [fieldsBytes_cons, fieldsBytes_nil, fieldBytes, byteLength_string,
    htype, hevent, hsession, hpayload, hevents, hdata]
  omega

theorem fieldBytes_data (data : Text) : fieldBytes format.toNumberFormat (dataKey, .string data) =
    8 + Text.byteLength (Json.quote data) := by
  have hdata : Text.byteLength (Json.quote dataKey) = 6 := by decide
  rw [fieldBytes, byteLength_string, hdata]
  omega

/-- The bytes of the numbers of an event. -/
def metaBytes (rawLength : Option ℕ) (seq : Option ℤ) : ℕ :=
  fieldsBytes format.toNumberFormat (dataPayloadMeta rawLength seq false)

theorem metaBytes_eq (rawLength : Option ℕ) (seq : Option ℤ) : metaBytes format rawLength seq =
    (seq.elim 0 fun seq => 7 + (format.text (seq : N)).length) +
      rawLength.elim 0 fun rawLength => 30 + 2 * (format.text ((rawLength : ℤ) : N)).length := by
  have hseq : Text.byteLength (Json.quote seqKey) = 5 := by decide
  have hraw : Text.byteLength (Json.quote rawLengthKey) = 11 := by decide
  have hchars : Text.byteLength (Json.quote sequenceCharsKey) = 15 := by decide
  rw [metaBytes, dataPayloadMeta]
  cases seq <;> cases rawLength <;>
    simp [fieldBytes, byteLength_number, hseq, hraw, hchars] <;> omega

theorem length_text_le {length : ℕ} (hlength : length ≤ maxStringLength) :
    (format.text ((length : ℤ) : N)).length ≤ 9 := by
  have hsafe : ((length : ℤ)).natAbs ≤ maxSafeInteger := by
    rw [Int.natAbs_natCast]
    exact Nat.le_trans hlength (by decide)
  rw [format.text_intCast _ hsafe, length_integerText_natCast]
  exact length_decimal_le (by decide) (Nat.lt_of_le_of_lt hlength (by decide))

theorem length_text_maxSafe : (format.text ((maxSafeInteger : ℤ) : N)).length = 16 := by
  have hsafe : ((maxSafeInteger : ℤ)).natAbs ≤ maxSafeInteger := by
    rw [Int.natAbs_natCast]
  rw [format.text_intCast _ hsafe, length_integerText_natCast, length_decimal]
  decide +kernel

/-- The data and its end sequence are those of a stream. -/
structure Streamed (data : Text) (seq : Option ℤ) : Prop where
  length : data.length ≤ maxStringLength
  seq : ∀ position ∈ seq, 0 ≤ position ∧ position ≤ maxSafeInteger

variable {data : Text} {seq : Option ℤ}

theorem length_text_position_le (hstreamed : Streamed data seq) {consumed : ℕ}
    (hconsumed : consumed ≤ data.length) {position : ℤ}
    (hposition : chunkEndSeq data seq consumed = some position) :
    (format.text (position : N)).length ≤ 16 := by
  obtain ⟨finish, hfinish, rfl⟩ := Option.map_eq_some_iff.mp hposition
  obtain ⟨hbelow, habove⟩ := hstreamed.seq finish hfinish
  have hlength := hstreamed.length
  have hmax : maxSafeInteger < 10 ^ 16 := by decide
  have hstring : maxStringLength < 10 ^ 15 := by decide
  have hsmall : maxStringLength ≤ maxSafeInteger := by decide
  have hsafe : (finish - ((data.length : ℤ) - consumed)).natAbs ≤ maxSafeInteger := by omega
  rw [format.text_intCast _ hsafe]
  refine length_integerText_le (by decide : 15 ≠ 0) ?_ ?_ <;> omega

theorem metaBytes_chunk_le (hstreamed : Streamed data seq) (rawLength : ℕ) {chunk : Text}
    (hchunk : chunk.length ≤ data.length) {consumed : ℕ} (hconsumed : consumed ≤ data.length) :
    metaBytes format (chunkRawLength data rawLength seq chunk) (chunkEndSeq data seq consumed) ≤
      71 := by
  have hraw : ((chunkRawLength data rawLength seq chunk).elim 0 fun rawLength =>
      30 + 2 * (format.text ((rawLength : ℤ) : N)).length) ≤ 48 := by
    rw [chunkRawLength]
    split_ifs
    · have hzero := length_text_le format (Nat.zero_le maxStringLength)
      simp only [Option.elim_some]
      omega
    · have hlength := length_text_le format (Nat.le_trans hchunk hstreamed.length)
      simp only [Option.elim_some]
      omega
    · exact Nat.zero_le 48
  have hseq : ((chunkEndSeq data seq consumed).elim 0 fun seq =>
      7 + (format.text (seq : N)).length) ≤ 23 := by
    cases hposition : chunkEndSeq data seq consumed with
    | none => exact Nat.zero_le 23
    | some position =>
      have hlength := length_text_position_le format hstreamed hconsumed hposition
      simp only [Option.elim_some]
      omega
  rw [metaBytes_eq]
  omega

theorem metaBytes_worst : metaBytes format (some maxSafeInteger) (some maxSafeInteger) = 85 := by
  rw [metaBytes_eq]
  simp only [Option.elim_some, length_text_maxSafe]

def lineBytes (sessionId data : Text) (rawLength : Option ℕ) (seq : Option ℤ) : ℕ :=
  65 + Text.byteLength (Json.quote sessionId) + Text.byteLength (Json.quote data) +
    metaBytes format rawLength seq

def linePayload (data : Text) (rawLength : Option ℕ) (seq : Option ℤ) : List (Text × Json N) :=
  (dataKey, .string data) :: dataPayloadMeta rawLength seq false

theorem byteLength_line (sessionId data : Text) (rawLength : Option ℕ) (seq : Option ℤ) :
    Json.byteLength format.toNumberFormat (dataEvent sessionId (linePayload data rawLength seq)) +
      1 = lineBytes format sessionId data rawLength seq := by
  rw [byteLength_dataEvent, linePayload, byteLength_object _ (List.cons_ne_nil _ _),
    fieldsBytes_cons, fieldBytes_data, lineBytes, metaBytes]
  omega

theorem encodeStreamDataEvent_eq (sessionId data : Text) (rawLength : Option ℕ)
    (seq : Option ℤ) : encodeStreamDataEvent format sessionId data rawLength seq false =
      if NDJSON_MAX_LINE_BYTES + 1 < lineBytes format sessionId data rawLength seq then
        .error (.lineTooLong (lineBytes format sessionId data rawLength seq - 1)
          NDJSON_MAX_LINE_BYTES)
      else .ok (Json.stringify format.toNumberFormat
        (dataEvent sessionId (linePayload data rawLength seq)) ++ [0x0A]) := by
  have hbytes := byteLength_line format sessionId data rawLength seq
  rw [encodeStreamDataEvent, encodeNdjson]
  rw [Json.byteLength] at hbytes
  change (if NDJSON_MAX_LINE_BYTES < Text.byteLength (Json.stringify format.toNumberFormat
    (dataEvent sessionId (linePayload data rawLength seq))) then _ else _) = _
  rw [← hbytes, Nat.add_sub_cancel]
  simp only [Nat.add_lt_add_iff_right]
  rfl

theorem byteLength_encoded {sessionId data line : Text} {rawLength : Option ℕ} {seq : Option ℤ}
    (hline : encodeStreamDataEvent format sessionId data rawLength seq false = .ok line) :
    line = Json.stringify format.toNumberFormat
      (dataEvent sessionId (linePayload data rawLength seq)) ++ [0x0A] ∧
      Text.byteLength line = lineBytes format sessionId data rawLength seq := by
  rw [encodeStreamDataEvent_eq] at hline
  split_ifs at hline with hlong
  cases hline
  refine ⟨rfl, ?_⟩
  rw [Text.byteLength_append (isWellFormed_stringify _ _), ← byteLength_line]
  rfl

theorem streamDataEventLineBytes_eq (sessionId data : Text) (rawLength : Option ℕ) :
    streamDataEventLineBytes format sessionId data rawLength =
      if NDJSON_MAX_LINE_BYTES + 1 < lineBytes format sessionId data rawLength none then
        .error (.lineTooLong (lineBytes format sessionId data rawLength none - 1)
          NDJSON_MAX_LINE_BYTES)
      else .ok (lineBytes format sessionId data rawLength none) := by
  rw [streamDataEventLineBytes]
  cases hline : encodeStreamDataEvent format sessionId data rawLength none false with
  | error error =>
    rw [encodeStreamDataEvent_eq] at hline
    split_ifs at hline with hlong
    rw [if_pos hlong, ← hline]
    rfl
  | ok line =>
    have hbytes := (byteLength_encoded format hline).2
    rw [encodeStreamDataEvent_eq] at hline
    split_ifs at hline with hlong
    rw [if_neg hlong, ← hbytes]
    rfl

theorem lineFits_iff {sessionId text : Text} {maxLineBytes : ℕ} {sequenceChars : Option ℕ} :
    LineFits format sessionId maxLineBytes sequenceChars text ↔
      lineBytes format sessionId text sequenceChars none ≤ NDJSON_MAX_LINE_BYTES + 1 ∧
        lineBytes format sessionId text sequenceChars none ≤ maxLineBytes := by
  rw [LineFits, streamDataEventLineBytes_eq]
  split_ifs with hlong
  · refine ⟨fun ⟨_, herror, _⟩ => (by cases herror), fun ⟨hshort, _⟩ => ?_⟩
    omega
  · refine ⟨fun ⟨bytes, hbytes, hle⟩ => ?_, fun ⟨_, hle⟩ => ⟨_, rfl, hle⟩⟩
    rw [Except.ok.inj hbytes]
    exact ⟨by rw [← Except.ok.inj hbytes]; omega, hle⟩

end Events

section Frames

variable {N : Type} [IntCast N] (format : IntegerFormat N)

/-- The payload as the reader of a frame restores it: the data comes last. -/
def framePayload (data : Text) (rawLength : Option ℕ) (seq : Option ℤ) : List (Text × Json N) :=
  Json.setField dataKey (.string data) (dataPayloadMeta rawLength seq false)

theorem framePayload_eq (data : Text) (rawLength : Option ℕ) (seq : Option ℤ) :
    framePayload (N := N) data rawLength seq =
      dataPayloadMeta rawLength seq false ++ [(dataKey, .string data)] := by
  cases seq <;> cases rawLength <;> rfl

theorem isProper_dataPayloadMeta (rawLength : Option ℕ) (seq : Option ℤ) :
    Json.isProper (.object (dataPayloadMeta (N := N) rawLength seq false)) := by
  have hkeys : [seqKey, rawLengthKey, sequenceCharsKey].Nodup := by decide
  have hraw : [rawLengthKey, sequenceCharsKey].Nodup := by decide
  cases seq <;> cases rawLength <;>
    simp [Json.isProper, Json.areFieldsProper, dataPayloadMeta, hkeys, hraw]

theorem byteLength_framed (sessionId data : Text) (rawLength : Option ℕ) (seq : Option ℤ) :
    Json.byteLength format.toNumberFormat (dataEvent sessionId (framePayload data rawLength seq)) +
      1 = lineBytes format sessionId data rawLength seq := by
  rw [byteLength_dataEvent, framePayload_eq, byteLength_object _ (by simp),
    fieldsBytes_append, fieldsBytes_cons, fieldsBytes_nil, fieldBytes_data, lineBytes,
    metaBytes]
  omega

variable {maxFrameBytes : Option ℕ} {rawLength : Option ℕ} {sessionId data : Text}
  {frame : List Byte} {seq : Option ℤ}

section

variable
  (hencode : encodeBinaryStreamDataFrame format.toNumberFormat sessionId data
    (dataPayloadMeta rawLength seq false) maxFrameBytes = .ok (some frame))
include hencode

theorem writes_frame :
    ∃ written, Writes format.toNumberFormat (dataEvent sessionId (framePayload data rawLength seq))
      frame written := by
  exact @writes_dataFrame N format.toNumberFormat frame
    ⟨sessionId, data, _, isProper_dataPayloadMeta rawLength seq, maxFrameBytes⟩ hencode

theorem length_frame : (Text.isWellFormed data = false ∧
      frame.length = 4 + lineBytes format sessionId data rawLength seq) ∨
    (Text.isWellFormed data = true ∧
      frame.length = binaryStreamDataFrameOverheadBytes format sessionId
        (dataPayloadMeta rawLength seq false) + Text.byteLength data) := by
  rcases encodeDataFrame_cases format.toNumberFormat hencode with
    ⟨hill, hjson⟩ | ⟨hwell, metadata, rfl, -, body, rfl, -, hframe⟩
  · refine Or.inl ⟨hill, ?_⟩
    have hbytes := byteLength_framed format sessionId data rawLength seq
    rw [(jsonFrame_eq hjson).1, length_frameBytes, FRAME_HEADER_BYTES, ← hbytes]
    change 5 + Text.byteLength _ = _
    rw [Json.byteLength, framePayload]
    omega
  · refine Or.inr ⟨hwell, ?_⟩
    rw [hframe, length_frameBytes, List.length_append, List.length_append, length_uint16BE,
      binaryStreamDataFrameOverheadBytes, DATA_META_LENGTH_BYTES, Text.byteLength, Text.byteLength]
    omega

end

theorem overhead_le (sessionId : Text) (rawLength : Option ℕ) (seq : Option ℤ) :
    binaryStreamDataFrameOverheadBytes format sessionId (dataPayloadMeta rawLength seq false) ≤
      64 + Text.byteLength (Json.quote sessionId) + metaBytes format rawLength seq := by
  have hbytes := byteLength_dataEvent format sessionId (dataPayloadMeta rawLength seq false)
  rw [binaryStreamDataFrameOverheadBytes, encodeDataMeta]
  rw [Json.byteLength] at hbytes
  rw [hbytes, FRAME_HEADER_BYTES, DATA_META_LENGTH_BYTES, metaBytes]
  by_cases hnone : dataPayloadMeta (N := N) rawLength seq false = []
  · rw [hnone, byteLength_object_nil]
    omega
  · rw [byteLength_object _ hnone]
    omega

theorem overhead_worst (sessionId : Text) : binaryStreamDataFrameOverheadBytes format sessionId
        (dataPayloadMeta (some maxSafeInteger) (some maxSafeInteger) false) =
      148 + Text.byteLength (Json.quote sessionId) := by
  have hbytes := byteLength_dataEvent format sessionId
    (dataPayloadMeta (some maxSafeInteger) (some maxSafeInteger) false)
  have hworst := metaBytes_worst format
  have hsome : dataPayloadMeta (N := N) (some maxSafeInteger) (some maxSafeInteger) false ≠ [] :=
    List.cons_ne_nil _ _
  rw [metaBytes] at hworst
  rw [byteLength_object _ hsome, hworst, Json.byteLength] at hbytes
  rw [binaryStreamDataFrameOverheadBytes, encodeDataMeta]
  rw [hbytes, FRAME_HEADER_BYTES, DATA_META_LENGTH_BYTES]
  omega

theorem length_frame_le (hencode : encodeBinaryStreamDataFrame format.toNumberFormat sessionId data
      (dataPayloadMeta rawLength seq false) maxFrameBytes = .ok (some frame)) :
    frame.length ≤ 4 + lineBytes format sessionId data rawLength seq := by
  have hoverhead := overhead_le format sessionId rawLength seq
  have hquote := byteLength_le_quote data
  rcases length_frame format hencode with ⟨-, hlength⟩ | ⟨-, hlength⟩
  · exact hlength.le
  · rw [hlength, lineBytes]
    omega

end Frames

end Wakii.StreamDataSplit
