import Mathlib.Data.List.Forall2
import Wakii.Daemon.FrameReading

/-!
# Framed events come back under any chunking

An encoded message is one frame, and its frame delivers the message's event.
With the reader's independence of chunks this gives the round trip; the same
holds of frames with malformed bodies and of streams that break off in an
invalid header.
-/

namespace Wakii.BinaryFraming

open List

open Json (NumberFormat field? setField isProper isProper_setField)

section Records

variable {N : Type}

theorem isProper_dataEvent {sessionId : Text} {payload : List (Text × Json N)}
    (hpayload : isProper (.object payload)) : isProper (dataEvent sessionId payload) := by
  have hkeys : [typeKey, eventKey, sessionIdKey, payloadKey].Nodup := by decide
  rw [dataEvent, isProper, Bool.and_eq_true, decide_eq_true_eq]
  refine ⟨hkeys, ?_⟩
  simp only [Json.areFieldsProper, hpayload]
  rfl

theorem isDaemonEvent_dataEvent (sessionId : Text) (payload : List (Text × Json N)) :
    isDaemonEvent (dataEvent sessionId payload) = true := by
  rfl

theorem restoreData_dataEvent (sessionId data : Text) (payload : List (Text × Json N)) :
    restoreData data (dataEvent sessionId payload) =
      some (dataEvent sessionId (setField dataKey (.string data) payload)) := by
  rfl

end Records

/-- A control event: a JSON object of type `event`. -/
structure ControlEvent (N : Type) where
  fields : List (Text × Json N)
  proper : isProper (.object fields)
  isDaemonEvent : isDaemonEvent (.object fields)

structure DataFrame (N : Type) where
  sessionId : Text
  data : Text
  payload : List (Text × Json N)
  proper : isProper (.object payload)
  maxFrameBytes : Option ℕ

inductive Message (N : Type) where
  | control (event : ControlEvent N)
  | data (frame : DataFrame N)

namespace Message

variable {N : Type} (format : NumberFormat N)

def encode : Message N → Except StreamRangeError (Option (List Byte))
  | control event => (encodeBinaryStreamEventFrame format (.object event.fields)).map some
  | data frame =>
    encodeBinaryStreamDataFrame format frame.sessionId frame.data frame.payload
      frame.maxFrameBytes

def event : Message N → Json N
  | control event => .object event.fields
  | data frame =>
    dataEvent frame.sessionId (setField dataKey (.string frame.data) frame.payload)

theorem isProper_event (message : Message N) : isProper message.event := by
  cases message with
  | control event => exact event.proper
  | data frame => exact isProper_dataEvent (isProper_setField rfl frame.proper)

theorem isDaemonEvent_event (message : Message N) : isDaemonEvent message.event := by
  cases message with
  | control event => exact event.isDaemonEvent
  | data frame => exact isDaemonEvent_dataEvent _ _

end Message

/-- `[kind u8][body length u32 BE][body]` -/
def frameBytes (frame : Byte × List Byte) : List Byte :=
  frame.1 :: uint32BE frame.2.length ++ frame.2

/-- A frame whose header the reader accepts, whatever its body holds. -/
structure IsFrame (options : ReaderOptions) (frame : Byte × List Byte) : Prop where
  kind : frame.1 = EVENT_FRAME ∨ frame.1 = DATA_FRAME
  length : frame.2.length ≤ options.maxFrameBytes
  width : frame.2.length < 2 ^ 32

section Frames

variable {options : ReaderOptions}

theorem length_frameBytes (frame : Byte × List Byte) :
    (frameBytes frame).length = FRAME_HEADER_BYTES + frame.2.length := by
  simp only [frameBytes, length_append, length_cons, length_uint32BE, FRAME_HEADER_BYTES]

theorem cut_header {kind : Byte} {bodyBytes : ℕ} (hwidth : bodyBytes < 2 ^ 32) (rest : List Byte) :
    cut options (kind :: uint32BE bodyBytes ++ rest) =
      if isInvalidHeader options kind bodyBytes then .invalid (kind, bodyBytes)
      else if rest.length < bodyBytes then .more
      else .frame (kind, rest.take bodyBytes) (rest.drop bodyBytes) := by
  have hheader : (kind :: uint32BE bodyBytes).length = FRAME_HEADER_BYTES := rfl
  have hlength : (kind :: uint32BE bodyBytes ++ rest).length =
      FRAME_HEADER_BYTES + rest.length := by
    rw [length_append, hheader]
  have hkind : (kind :: uint32BE bodyBytes ++ rest).getD 0 0 = kind := rfl
  have hnotShort : ¬ FRAME_HEADER_BYTES + rest.length < FRAME_HEADER_BYTES := by omega
  have hcutOff : FRAME_HEADER_BYTES + rest.length < FRAME_HEADER_BYTES + bodyBytes ↔
      rest.length < bodyBytes := by omega
  rw [cut, hlength, if_neg hnotShort, hkind, readUInt32BE_uint32BE hwidth]
  simp only [hcutOff]
  rw [← hheader, take_length_add_append, drop_length_add_append, drop_left]

theorem cut_frameBytes {frame : Byte × List Byte} (hframe : IsFrame options frame)
    (rest : List Byte) : cut options (frameBytes frame ++ rest) = .frame frame rest := by
  have hvalid : isInvalidHeader options frame.1 frame.2.length = false := by
    have hlength := hframe.length
    rw [isInvalidHeader, Bool.or_eq_false_iff, decide_eq_false_iff_not]
    refine ⟨?_, by omega⟩
    rcases hframe.kind with hkind | hkind
    · rw [hkind]
      rfl
    · rw [hkind]
      rfl
  rw [frameBytes, append_assoc, cut_header hframe.width, hvalid,
    if_neg Bool.false_ne_true, if_neg (by simp), take_left, drop_left]

theorem cut_invalidHeader {kind : Byte} {bodyBytes : ℕ} (hwidth : bodyBytes < 2 ^ 32)
    (hinvalid : isInvalidHeader options kind bodyBytes) (rest : List Byte) :
    cut options (kind :: uint32BE bodyBytes ++ rest) = .invalid (kind, bodyBytes) := by
  rw [cut_header hwidth, if_pos hinvalid]

end Frames

section Delivery

variable {N : Type} (format : NumberFormat N)

theorem deliver_jsonFrame {value : Json N} (hproper : isProper value)
    (hevent : isDaemonEvent value) :
    deliver format EVENT_FRAME (Text.encodeUtf8 (Json.stringify format value)) = some value := by
  have hkind : EVENT_FRAME ≠ DATA_FRAME := by decide
  rw [deliver, if_neg hkind, Text.decodeUtf8_encodeUtf8 (Json.isWellFormed_stringify format value),
    Json.parse_stringify format hproper]
  simp [hevent]

theorem decodeDataFrame_split {metadata bytes : List Byte}
    (hmeta : metadata.length ≤ MAX_DATA_META_BYTES) :
    decodeDataFrame format (uint16BE metadata.length ++ (metadata ++ bytes)) =
      (Json.parse format (Text.decodeUtf8 metadata)).bind
        (restoreData (Text.decodeUtf8 bytes)) := by
  have hwidth : metadata.length < 2 ^ 16 := by
    rw [MAX_DATA_META_BYTES] at hmeta
    omega
  have hprefix : (uint16BE metadata.length).length = DATA_META_LENGTH_BYTES := rfl
  have hlength : (uint16BE metadata.length ++ (metadata ++ bytes)).length =
      DATA_META_LENGTH_BYTES + metadata.length + bytes.length := by
    rw [length_append, length_append, hprefix, Nat.add_assoc]
  have hmetadata : ((uint16BE metadata.length ++ (metadata ++ bytes)).take
      (DATA_META_LENGTH_BYTES + metadata.length)).drop DATA_META_LENGTH_BYTES = metadata := by
    rw [← hprefix, take_length_add_append, take_left, drop_left]
  have hdata : (uint16BE metadata.length ++ (metadata ++ bytes)).drop
      (DATA_META_LENGTH_BYTES + metadata.length) = bytes := by
    rw [← hprefix, drop_length_add_append, drop_left]
  rw [decodeDataFrame, hlength, if_neg (by omega), readUInt16BE_uint16BE hwidth,
    if_neg (by omega), hmetadata, hdata]

variable {payload : List (Text × Json N)}

theorem decodeDataFrame_encoded {sessionId data : Text} (hdata : Text.isWellFormed data)
    (hproper : isProper (.object payload))
    (hmeta : (Text.encodeUtf8 (encodeDataMeta format sessionId payload)).length ≤
      MAX_DATA_META_BYTES) :
    decodeDataFrame format
        (uint16BE (Text.encodeUtf8 (encodeDataMeta format sessionId payload)).length ++
          (Text.encodeUtf8 (encodeDataMeta format sessionId payload) ++ Text.encodeUtf8 data)) =
      some (dataEvent sessionId (setField dataKey (.string data) payload)) := by
  have hwell := Json.isWellFormed_stringify format (dataEvent sessionId payload)
  have hevent : isProper (dataEvent sessionId payload) := isProper_dataEvent hproper
  have hparse := Json.parse_stringify format hevent
  rw [decodeDataFrame_split format hmeta, encodeDataMeta, Text.decodeUtf8_encodeUtf8 hwell, hparse,
    Text.decodeUtf8_encodeUtf8 hdata]
  exact restoreData_dataEvent sessionId data payload

variable {bytes : List Byte}

theorem jsonFrame_eq {json : Text} (hencode : encodeBinaryStreamJsonFrame json = .ok bytes) :
    bytes = frameBytes (EVENT_FRAME, Text.encodeUtf8 json) ∧
      (Text.encodeUtf8 json).length < 2 ^ 32 := by
  unfold encodeBinaryStreamJsonFrame at hencode
  dsimp only at hencode
  split_ifs at hencode with hwide
  cases hencode
  exact ⟨rfl, by omega⟩

/-- What an encoder wrote: one frame, which delivers the event meant. -/
structure Writes (value : Json N) (bytes : List Byte) (frame : Byte × List Byte) : Prop where
  bytes : bytes = frameBytes frame
  kind : frame.1 = EVENT_FRAME ∨ frame.1 = DATA_FRAME
  width : frame.2.length < 2 ^ 32
  delivers : deliver format frame.1 frame.2 = some value

theorem writes_jsonFrame {value : Json N} (hproper : isProper value) (hevent : isDaemonEvent value)
    (hencode : encodeBinaryStreamJsonFrame (Json.stringify format value) = .ok bytes) :
    Writes format value bytes (EVENT_FRAME, Text.encodeUtf8 (Json.stringify format value)) := by
  obtain ⟨hbytes, hwidth⟩ := jsonFrame_eq hencode
  exact ⟨hbytes, Or.inl rfl, hwidth, deliver_jsonFrame format hproper hevent⟩

/-- The two ways in which data is written as one frame. -/
theorem encodeDataFrame_cases {sessionId data : Text} {maxFrameBytes : Option ℕ}
    (hencode : encodeBinaryStreamDataFrame format sessionId data payload maxFrameBytes =
      .ok (some bytes)) :
    (Text.isWellFormed data = false ∧ encodeBinaryStreamJsonFrame (Json.stringify format
        (dataEvent sessionId (setField dataKey (.string data) payload))) = .ok bytes) ∨
    (Text.isWellFormed data = true ∧
      ∃ metadata, metadata = Text.encodeUtf8 (encodeDataMeta format sessionId payload) ∧
        metadata.length ≤ MAX_DATA_META_BYTES ∧
        ∃ body, body = uint16BE metadata.length ++ (metadata ++ Text.encodeUtf8 data) ∧
          body.length < 2 ^ 32 ∧ bytes = frameBytes (DATA_FRAME, body)) := by
  unfold encodeBinaryStreamDataFrame at hencode
  dsimp only at hencode
  split_ifs at hencode with hill hfits hmeta hlarge hwide
  · refine Or.inl ⟨by simpa using hill, ?_⟩
    cases hjson : encodeBinaryStreamJsonFrame (Json.stringify format
        (dataEvent sessionId (setField dataKey (.string data) payload))) with
    | error reason =>
      rw [hjson] at hencode
      cases hencode
    | ok written =>
      rw [hjson] at hencode
      cases hencode
      rfl
  · cases hencode
  · cases hencode
  · refine Or.inr ⟨by simpa using hill, _, rfl, Nat.le_of_not_lt hmeta, _, rfl, ?_, ?_⟩
    · rw [length_append, length_append, length_uint16BE, ← Nat.add_assoc]
      exact Nat.lt_of_not_le hwide
    · cases hencode
      rw [frameBytes, length_append, length_append, length_uint16BE, ← Nat.add_assoc]
      rfl

theorem writes_dataFrame {frame : DataFrame N}
    (hencode : (Message.data frame).encode format = .ok (some bytes)) :
    ∃ written, Writes format (Message.data frame).event bytes written := by
  rcases encodeDataFrame_cases format hencode with
    ⟨-, hjson⟩ | ⟨hwell, metadata, rfl, hmeta, body, rfl, hwidth, hbytes⟩
  · exact ⟨_, writes_jsonFrame format (Message.data frame).isProper_event
      (Message.data frame).isDaemonEvent_event hjson⟩
  · refine ⟨_, hbytes, Or.inr rfl, hwidth, ?_⟩
    rw [deliver, if_pos rfl, decodeDataFrame_encoded format hwell frame.proper hmeta]
    rfl

theorem writes_message {message : Message N} (hencode : message.encode format = .ok (some bytes)) :
    ∃ written, Writes format message.event bytes written := by
  cases message with
  | data frame => exact writes_dataFrame format hencode
  | control event =>
    rw [Message.encode, encodeBinaryStreamEventFrame] at hencode
    cases hjson : encodeBinaryStreamJsonFrame (Json.stringify format (.object event.fields)) with
    | error reason =>
      rw [hjson] at hencode
      cases hencode
    | ok written =>
      rw [hjson] at hencode
      cases hencode
      exact ⟨_, writes_jsonFrame format event.proper event.isDaemonEvent hjson⟩

end Delivery

section Streams

variable {N : Type} (format : NumberFormat N) (options : ReaderOptions) {chunks : List Buffer}
  {frames : List (Byte × List Byte)}

section

variable (hframes : ∀ frame ∈ frames, IsFrame options frame)
include hframes

theorem calls_of_frames (tail : List Byte)
    (hchunks : chunks.flatMap Buffer.bytes = frames.flatMap frameBytes ++ tail) :
    feedAll format options createBinaryStreamFrameReader chunks =
      frames.flatMap (delivered format) ++
        callsOf format (FrameStream.read (wireFormat options) tail) (.unread []) := by
  have hcut : ∀ frame ∈ frames, ∀ rest,
      (wireFormat options).cut (frameBytes frame ++ rest) = .frame frame rest :=
    fun frame hframe rest => cut_frameBytes (hframes frame hframe) rest
  have hread := FrameStream.read_written (wireFormat options) hcut tail
  rw [calls_eq_read, hchunks, hread, callsOf, callsOf, flatMap_append, append_assoc]

theorem calls_of_whole_frames (hchunks : chunks.flatMap Buffer.bytes = frames.flatMap frameBytes) :
    feedAll format options createBinaryStreamFrameReader chunks =
      frames.flatMap (delivered format) := by
  have hmore : FrameStream.read (wireFormat options) [] = ([], .unread []) :=
    FrameStream.read_more (wireFormat options) rfl
  rw [calls_of_frames format options hframes [] (by rw [hchunks, append_nil]), hmore]
  simp [callsOf, fatalCalls]

theorem calls_of_broken_stream {kind : Byte} {bodyBytes : ℕ} (hwidth : bodyBytes < 2 ^ 32)
    (hinvalid : isInvalidHeader options kind bodyBytes) (rest : List Byte)
    (hchunks : chunks.flatMap Buffer.bytes =
      frames.flatMap frameBytes ++ (kind :: uint32BE bodyBytes ++ rest)) :
    feedAll format options createBinaryStreamFrameReader chunks =
      frames.flatMap (delivered format) ++ [.fatal kind bodyBytes] := by
  have hread : FrameStream.read (wireFormat options) (kind :: uint32BE bodyBytes ++ rest) =
      ([], .stopped (kind, bodyBytes)) :=
    FrameStream.read_invalid (wireFormat options) (cut_invalidHeader hwidth hinvalid rest)
  rw [calls_of_frames format options hframes _ hchunks, hread]
  rfl

end

/-- Part of a stream: a message from an encoder, or a frame of any body at all. -/
inductive StreamPart (N : Type) where
  | sent (message : Message N)
  | raw (frame : Byte × List Byte)

namespace StreamPart

def Written : StreamPart N → List Byte → Prop
  | sent message, bytes =>
    message.encode format = .ok (some bytes) ∧
      bytes.length ≤ FRAME_HEADER_BYTES + options.maxFrameBytes
  | raw frame, bytes => bytes = frameBytes frame ∧ IsFrame options frame

def calls : StreamPart N → List (ReaderCall N)
  | sent message => [.event message.event]
  | raw frame => delivered format frame

theorem exists_frame {part : StreamPart N} {bytes : List Byte}
    (hwritten : part.Written format options bytes) :
    ∃ frame, bytes = frameBytes frame ∧ IsFrame options frame ∧
      part.calls format = delivered format frame := by
  cases part with
  | raw frame => exact ⟨frame, hwritten.1, hwritten.2, rfl⟩
  | sent message =>
    obtain ⟨frame, hwrites⟩ := writes_message format hwritten.1
    have hbody : frame.2.length ≤ options.maxFrameBytes := by
      have hfits := hwritten.2
      rw [hwrites.bytes, length_frameBytes] at hfits
      omega
    refine ⟨frame, hwrites.bytes, ⟨hwrites.kind, hbody, hwrites.width⟩, ?_⟩
    rw [calls, delivered, hwrites.delivers]
    rfl

theorem exists_frames {parts : List (StreamPart N)} {written : List (List Byte)}
    (hwritten : List.Forall₂ (StreamPart.Written format options) parts written) :
    ∃ frames : List (Byte × List Byte), written.flatten = frames.flatMap frameBytes ∧
      (∀ frame ∈ frames, IsFrame options frame) ∧
      parts.flatMap (calls format) = frames.flatMap (delivered format) := by
  induction hwritten with
  | nil => exact ⟨[], rfl, by simp, rfl⟩
  | cons hpart hparts ih =>
    obtain ⟨frame, hbytes, hframe, hcalls⟩ := exists_frame format options hpart
    obtain ⟨frames, hflatten, hframes, hrest⟩ := ih
    refine ⟨frame :: frames, ?_, forall_mem_cons.mpr ⟨hframe, hframes⟩, ?_⟩
    · rw [flatten_cons, flatMap_cons, hflatten, hbytes]
    · rw [flatMap_cons, flatMap_cons, hcalls, hrest]

end StreamPart

/-- Under any chunking messages come back exactly and in order with no fatal
error, a malformed body costs only its own frame, and an invalid header ends the
stream with one fatal call. -/
theorem stream_round_trips {parts : List (StreamPart N)} {written : List (List Byte)}
    (hwritten : List.Forall₂ (StreamPart.Written format options) parts written) :
    (∀ chunks : List Buffer, chunks.flatMap Buffer.bytes = written.flatten →
      feedAll format options createBinaryStreamFrameReader chunks =
        parts.flatMap (StreamPart.calls format)) ∧
    ∀ (kind : Byte) (bodyBytes : ℕ), bodyBytes < 2 ^ 32 → isInvalidHeader options kind bodyBytes →
        ∀ (rest : List Byte) (chunks : List Buffer), chunks.flatMap Buffer.bytes =
              written.flatten ++ (kind :: uint32BE bodyBytes ++ rest) →
            feedAll format options createBinaryStreamFrameReader chunks =
              parts.flatMap (StreamPart.calls format) ++ [.fatal kind bodyBytes] := by
  obtain ⟨frames, hbytes, hframes, hcalls⟩ := StreamPart.exists_frames format options hwritten
  rw [hbytes, hcalls]
  refine ⟨fun chunks hchunks => calls_of_whole_frames format options hframes hchunks, ?_⟩
  intro kind bodyBytes hwidth hinvalid rest chunks hchunks
  exact calls_of_broken_stream format options hframes hwidth hinvalid rest hchunks

end Streams

section Sample

def sampleFrame : DataFrame ℕ where
  sessionId := Text.ofString "s"
  data := [0x41, 0xD800]
  payload := [(Text.ofString "seq", .number 7)]
  proper := rfl
  maxFrameBytes := none

def sampleBytes : List Byte :=
  frameBytes (EVENT_FRAME,
    Text.encodeUtf8 (Json.stringify Json.decimalFormat (Message.data sampleFrame).event))

def oneByte (byte : Byte) : Buffer := ⟨[byte], 1⟩

theorem flatMap_bytes_oneByOne (bytes : List Byte) :
    (bytes.map oneByte).flatMap Buffer.bytes = bytes := by
  rw [flatMap_map]
  exact flatMap_singleton' bytes

/-- A lone surrogate, a malformed frame and an invalid header, byte by byte. -/
theorem stream_round_trips_sample :
    feedAll Json.decimalFormat ⟨1024, 8192⟩ createBinaryStreamFrameReader
        ((sampleBytes ++ frameBytes (EVENT_FRAME, [0x7B]) ++ [0x03, 0, 0, 0, 0, 0x7B]).map
          oneByte) =
      [.event (Message.data sampleFrame).event, .fatal 3 0] := by
  have hwritten : List.Forall₂ (StreamPart.Written Json.decimalFormat ⟨1024, 8192⟩)
      [.sent (.data sampleFrame), .raw (EVENT_FRAME, [0x7B])]
      [sampleBytes, frameBytes (EVENT_FRAME, [0x7B])] := by
    refine .cons ⟨rfl, by decide⟩ (.cons ⟨rfl, Or.inl rfl, by decide, by decide⟩ .nil)
  have hstream := (stream_round_trips Json.decimalFormat ⟨1024, 8192⟩ hwritten).2 3 0 (by decide)
    rfl [0x7B]
  apply hstream
  rw [flatMap_bytes_oneByOne]
  rfl

end Sample

end Wakii.BinaryFraming
