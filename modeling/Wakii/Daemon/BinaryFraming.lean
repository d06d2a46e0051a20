import Wakii.Library.FrameStream
import Wakii.Library.JsonRoundTrip
import Wakii.Library.Utf8

/-!
# Binary framing of the daemon stream

A frame is `[kind u8][body length u32 BE][body]`.  An event body is JSON; a data
body is `[meta length u16 BE][meta JSON][data bytes]`, and the reader restores
`payload.data` from the bytes.  The encoders and the reader of chunks follow the
source; a chunk is a view of a backing store, of which only the size matters.
-/

namespace Wakii.BinaryFraming

open Json (NumberFormat field? setField)

def EVENT_FRAME : Byte := 1
def DATA_FRAME : Byte := 2
def FRAME_HEADER_BYTES : ℕ := 5
def DATA_META_LENGTH_BYTES : ℕ := 2
def MAX_DATA_META_BYTES : ℕ := 0xFFFF
def NDJSON_MAX_LINE_BYTES : ℕ := 16 * 1024 * 1024

def typeKey : Text := Text.ofString "type"
def eventKey : Text := Text.ofString "event"
def sessionIdKey : Text := Text.ofString "sessionId"
def payloadKey : Text := Text.ofString "payload"
def dataKey : Text := Text.ofString "data"

def uint16BE (value : ℕ) : List Byte :=
  [Fin.ofNat 256 (value / 0x100), Fin.ofNat 256 value]

def uint32BE (value : ℕ) : List Byte :=
  [Fin.ofNat 256 (value / 0x1000000), Fin.ofNat 256 (value / 0x10000),
    Fin.ofNat 256 (value / 0x100), Fin.ofNat 256 value]

def readUInt16BE (bytes : List Byte) (offset : ℕ) : ℕ :=
  (bytes.getD offset 0).val * 0x100 + (bytes.getD (offset + 1) 0).val

def readUInt32BE (bytes : List Byte) (offset : ℕ) : ℕ :=
  (((bytes.getD offset 0).val * 0x100 + (bytes.getD (offset + 1) 0).val) * 0x100 +
    (bytes.getD (offset + 2) 0).val) * 0x100 + (bytes.getD (offset + 3) 0).val

inductive StreamRangeError where
  | metadataExceeds
  | lengthOutOfRange
deriving DecidableEq

def StreamRangeError.message : StreamRangeError → String
  | metadataExceeds =>
    "Stream data frame metadata exceeds " ++ toString MAX_DATA_META_BYTES ++ " bytes"
  | lengthOutOfRange => "The value of \"value\" is out of range."

section Encoding

variable {N : Type} (format : NumberFormat N)

def encodeBinaryStreamJsonFrame (json : Text) : Except StreamRangeError (List Byte) :=
  let body := Text.encodeUtf8 json
  if 2 ^ 32 ≤ body.length then .error .lengthOutOfRange
  else .ok (EVENT_FRAME :: uint32BE body.length ++ body)

def encodeBinaryStreamEventFrame (event : Json N) : Except StreamRangeError (List Byte) :=
  encodeBinaryStreamJsonFrame (Json.stringify format event)

/-- `{ type: 'event', event: 'data', sessionId, payload }` -/
def dataEvent (sessionId : Text) (payload : List (Text × Json N)) : Json N :=
  .object
    [(typeKey, .string (Text.ofString "event")), (eventKey, .string (Text.ofString "data")),
      (sessionIdKey, .string sessionId), (payloadKey, .object payload)]

def encodeDataMeta (sessionId : Text) (payload : List (Text × Json N)) : Text :=
  Json.stringify format (dataEvent sessionId payload)

/-- `bytes <= maxFrameBytes`, where none stands for `Number.POSITIVE_INFINITY`. -/
def fits (bytes : ℕ) (maxFrameBytes : Option ℕ) : Bool :=
  maxFrameBytes.all fun bound => bytes ≤ bound

def encodeBinaryStreamDataFrame (sessionId data : Text) (payload : List (Text × Json N))
    (maxFrameBytes : Option ℕ) : Except StreamRangeError (Option (List Byte)) :=
  if !Text.isWellFormed data then
    let json := Json.stringify format
      (dataEvent sessionId (setField dataKey (.string data) payload))
    if fits (FRAME_HEADER_BYTES + (Text.encodeUtf8 json).length) maxFrameBytes then
      (encodeBinaryStreamJsonFrame json).map some
    else .ok none
  else
    let metadata := Text.encodeUtf8 (encodeDataMeta format sessionId payload)
    if MAX_DATA_META_BYTES < metadata.length then .error .metadataExceeds
    else
      let bytes := Text.encodeUtf8 data
      let bodyBytes := DATA_META_LENGTH_BYTES + metadata.length + bytes.length
      if !fits (FRAME_HEADER_BYTES + bodyBytes) maxFrameBytes then .ok none
      else if 2 ^ 32 ≤ bodyBytes then .error .lengthOutOfRange
      else
        .ok (some (DATA_FRAME :: uint32BE bodyBytes ++
          (uint16BE metadata.length ++ (metadata ++ bytes))))

end Encoding

section Decoding

variable {N : Type} (format : NumberFormat N)

/-- The checks of parsed metadata, and `meta.payload.data = data`. -/
def restoreData (data : Text) : Json N → Option (Json N)
  | .object fields =>
    match field? eventKey fields, field? payloadKey fields with
    | some (.string event), some (.object payload) =>
      if event = Text.ofString "data" then
        some (.object
          (setField payloadKey (.object (setField dataKey (.string data) payload)) fields))
      else none
    | _, _ => none
  | _ => none

def decodeDataFrame (body : List Byte) : Option (Json N) :=
  if body.length < DATA_META_LENGTH_BYTES then none
  else
    let metaEnd := DATA_META_LENGTH_BYTES + readUInt16BE body 0
    if body.length < metaEnd then none
    else
      (Json.parse format (Text.decodeUtf8 ((body.take metaEnd).drop DATA_META_LENGTH_BYTES))).bind
        (restoreData (Text.decodeUtf8 (body.drop metaEnd)))

def isDaemonEvent : Json N → Bool
  | .object fields =>
    match field? typeKey fields with
    | some (.string type) => type = Text.ofString "event"
    | _ => false
  | _ => false

/-- The event delivered for one frame, if its body is well formed. -/
def deliver (kind : Byte) (body : List Byte) : Option (Json N) :=
  let event :=
    if kind = DATA_FRAME then decodeDataFrame format body
    else Json.parse format (Text.decodeUtf8 body)
  event.filter isDaemonEvent

end Decoding

structure Buffer where
  bytes : List Byte
  /-- `buffer.byteLength` of the store under the view. -/
  backing : ℕ
deriving DecidableEq

namespace Buffer

def length (buffer : Buffer) : ℕ := buffer.bytes.length

def subarray (buffer : Buffer) (start : ℕ) : Buffer :=
  { buffer with bytes := buffer.bytes.drop start }

/-- A fresh buffer, from the pool when it is less than half of it. -/
def allocated (poolSize : ℕ) (bytes : List Byte) : Buffer :=
  ⟨bytes, if bytes.length < poolSize / 2 then poolSize else bytes.length⟩

def concat (poolSize : ℕ) (list : List Buffer) (totalLength : ℕ) : Buffer :=
  allocated poolSize ((list.flatMap Buffer.bytes).takeD totalLength 0)

end Buffer

structure ReaderOptions where
  maxFrameBytes : ℕ
  poolSize : ℕ

structure ReaderState where
  chunks : List Buffer
  bufferedBytes : ℕ
  failed : Bool
deriving DecidableEq

inductive ReaderCall (N : Type) where
  | event (event : Json N)
  | fatal (kind : Byte) (bodyBytes : ℕ)

def createBinaryStreamFrameReader : ReaderState := ⟨[], 0, false⟩

namespace ReaderState

def head (state : ReaderState) : Buffer := state.chunks.head?.getD ⟨[], 0⟩

def push (state : ReaderState) (chunk : Buffer) : ReaderState :=
  { state with
    chunks := state.chunks ++ [chunk], bufferedBytes := state.bufferedBytes + chunk.length }

def contiguousHead (options : ReaderOptions) (state : ReaderState) (bytes : ℕ) : ReaderState :=
  if state.head.length < bytes then
    { state with chunks := [Buffer.concat options.poolSize state.chunks state.bufferedBytes] }
  else state

def consume (state : ReaderState) (bytes : ℕ) : ReaderState :=
  let chunks :=
    if state.head.length = bytes then state.chunks.tail
    else state.head.subarray bytes :: state.chunks.tail
  { state with chunks, bufferedBytes := state.bufferedBytes - bytes }

def ownPendingHead (options : ReaderOptions) (state : ReaderState) : ReaderState :=
  match state.chunks with
  | [] => state
  | head :: rest =>
    if options.poolSize < head.backing ∧ head.length * 2 < head.backing then
      { state with chunks := Buffer.allocated options.poolSize head.bytes :: rest }
    else state

end ReaderState

section Reading

variable {N : Type} (format : NumberFormat N) (options : ReaderOptions)

def isInvalidHeader (kind : Byte) (bodyBytes : ℕ) : Bool :=
  (kind ≠ EVENT_FRAME && kind ≠ DATA_FRAME) || options.maxFrameBytes < bodyBytes

@[simp] theorem bufferedBytes_contiguousHead (state : ReaderState) (bytes : ℕ) :
    (state.contiguousHead options bytes).bufferedBytes = state.bufferedBytes := by
  rw [ReaderState.contiguousHead]
  split <;> rfl

def readFrames (state : ReaderState) : ReaderState × List (ReaderCall N) :=
  if FRAME_HEADER_BYTES ≤ state.bufferedBytes then
    let framed := state.contiguousHead options FRAME_HEADER_BYTES
    let kind := framed.head.bytes.getD 0 0
    let bodyBytes := readUInt32BE framed.head.bytes 1
    if isInvalidHeader options kind bodyBytes then
      (⟨[], 0, true⟩, [.fatal kind bodyBytes])
    else
      let frameBytes := FRAME_HEADER_BYTES + bodyBytes
      if framed.bufferedBytes < frameBytes then (framed, [])
      else
        let whole := framed.contiguousHead options frameBytes
        let body := (whole.head.bytes.take frameBytes).drop FRAME_HEADER_BYTES
        let next := readFrames (whole.consume frameBytes)
        (next.1, ((deliver format kind body).map .event).toList ++ next.2)
  else (state, [])
termination_by state.bufferedBytes
decreasing_by
  simp only [ReaderState.consume, bufferedBytes_contiguousHead, FRAME_HEADER_BYTES] at *
  omega

def feed (state : ReaderState) (chunk : Buffer) : ReaderState × List (ReaderCall N) :=
  if state.failed || chunk.length = 0 then (state, [])
  else
    let result := readFrames format options (state.push chunk)
    if result.1.failed then result
    else (result.1.ownPendingHead options, result.2)

def feedAll (state : ReaderState) : List Buffer → List (ReaderCall N)
  | [] => []
  | chunk :: rest =>
    (feed format options state chunk).2 ++ feedAll (feed format options state chunk).1 rest

end Reading

end Wakii.BinaryFraming
