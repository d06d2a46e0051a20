import Wakii.Daemon.BinaryFraming
import Wakii.Library.JsonBytes

/-!
# Stream data split over events

One piece of terminal output is written as one event, or as several when it does
not fit the limit.  NDJSON searches for the longest slice whose line fits, binary
frames take three bytes for a unit; neither cuts through a surrogate pair.
-/

namespace Wakii.StreamDataSplit

open BinaryFraming (NDJSON_MAX_LINE_BYTES StreamRangeError dataEvent dataKey
  encodeBinaryStreamDataFrame encodeDataMeta FRAME_HEADER_BYTES DATA_META_LENGTH_BYTES)
open Json (IntegerFormat maxSafeInteger)

def seqKey : Text := Text.ofString "seq"
def rawLengthKey : Text := Text.ofString "rawLength"
def sequenceCharsKey : Text := Text.ofString "sequenceChars"
def transformedKey : Text := Text.ofString "transformed"

inductive WriteError where
  /-- `NdjsonLineTooLongError` -/
  | lineTooLong (lineBytes maxLineBytes : ℕ)
  | range (error : StreamRangeError)
  /-- `jsonChunks[chunkIndex++]` is undefined. -/
  | missingChunk
deriving DecidableEq

section Cutting

variable (value : Text) (start : ℕ)

def slice (stop : ℕ) : Text := (value.take stop).drop start

/-- `isHighSurrogate(value.charCodeAt(index)) && isLowSurrogate(value.charCodeAt(index + 1))` -/
def isPairAt (index : ℕ) : Bool :=
  (value[index]?.any fun unit => Text.isHigh unit.val) &&
    value[index + 1]?.any fun unit => Text.isLow unit.val

def clampToSafeSplitIndex (stop : ℕ) : ℕ :=
  if stop ≤ start ∨ value.length ≤ stop then stop
  else if isPairAt value (stop - 1) then stop - 1
  else stop

def nextSafeSplitIndex : ℕ :=
  let next := min value.length (start + 1)
  if next < value.length ∧ isPairAt value start then next + 1 else next

theorem clampToSafeSplitIndex_le (stop : ℕ) : clampToSafeSplitIndex value start stop ≤ stop := by
  rw [clampToSafeSplitIndex]
  split_ifs <;> omega

theorem lt_nextSafeSplitIndex {start : ℕ} (hstart : start < value.length) :
    start < nextSafeSplitIndex value start := by
  rw [nextSafeSplitIndex]
  split_ifs <;> omega

end Cutting

section Writing

variable {N : Type} [IntCast N] (format : IntegerFormat N)

def encodeNdjson (msg : Json N) (maxLineBytes : ℕ) : Except WriteError Text :=
  let line := Json.stringify format.toNumberFormat msg
  let lineBytes := Text.byteLength line
  if maxLineBytes < lineBytes then .error (.lineTooLong lineBytes maxLineBytes)
  else .ok (line ++ [0x0A])

def dataPayloadMeta (rawLength : Option ℕ) (seq : Option ℤ) (transformed : Bool) :
    List (Text × Json N) :=
  (seq.map fun seq => (seqKey, Json.number (seq : N))).toList ++
    (rawLength.map fun rawLength => (rawLengthKey, Json.number ((rawLength : ℤ) : N))).toList ++
    (rawLength.map fun rawLength => (sequenceCharsKey, Json.number ((rawLength : ℤ) : N))).toList ++
    if transformed then [(transformedKey, Json.bool true)] else []

def encodeStreamDataEvent (sessionId data : Text) (rawLength : Option ℕ) (seq : Option ℤ)
    (transformed : Bool) : Except WriteError Text :=
  encodeNdjson format
    (dataEvent sessionId ((dataKey, .string data) :: dataPayloadMeta rawLength seq transformed))
    NDJSON_MAX_LINE_BYTES

def streamDataEventLineBytes (sessionId data : Text) (rawLength : Option ℕ) : Except WriteError ℕ :=
  (encodeStreamDataEvent format sessionId data rawLength none false).map Text.byteLength

def searchCut (sessionId data : Text) (maxLineBytes : ℕ) (sequenceChars : Option ℕ) (start low
    high best : ℕ) : Except WriteError ℕ :=
  if low ≤ high then
    let rawMid := (low + high) / 2
    let mid := clampToSafeSplitIndex data start rawMid
    if hmid : mid ≤ start then
      searchCut sessionId data maxLineBytes sequenceChars start (rawMid + 1) high best
    else
      match streamDataEventLineBytes format sessionId (slice data start mid) sequenceChars with
      | .error error => .error error
      | .ok lineBytes =>
        if lineBytes ≤ maxLineBytes then
          searchCut sessionId data maxLineBytes sequenceChars start (rawMid + 1) high mid
        else searchCut sessionId data maxLineBytes sequenceChars start low (rawMid - 1) best
  else .ok best
termination_by high + 1 - low
decreasing_by
  · omega
  · omega
  · have hclamp : mid ≤ rawMid := clampToSafeSplitIndex_le data start rawMid
    omega

def splitOversizedFrom (sessionId data : Text) (maxLineBytes : ℕ) (sequenceChars : Option ℕ)
    (start : ℕ) : Except WriteError (List Text) :=
  if _hstart : start < data.length then
    match searchCut format sessionId data maxLineBytes sequenceChars start (start + 1) data.length
        start with
    | .error error => .error error
    | .ok best =>
      let stop := if start < best then best else nextSafeSplitIndex data start
      (splitOversizedFrom sessionId data maxLineBytes sequenceChars stop).map
        (slice data start stop :: ·)
  else .ok []
termination_by data.length - start
decreasing_by
  have hnext := lt_nextSafeSplitIndex data _hstart
  split_ifs <;> omega

def splitOversizedStreamDataForNdjson (sessionId data : Text) (maxLineBytes : ℕ)
    (sequenceChars : Option ℕ) : Except WriteError (List Text) :=
  splitOversizedFrom format sessionId data maxLineBytes sequenceChars 0

def splitStreamDataForNdjson (sessionId data : Text) (maxLineBytes : ℕ)
    (sequenceChars : Option ℕ) : Except WriteError (List Text) :=
  match streamDataEventLineBytes format sessionId data sequenceChars with
  | .error error => .error error
  | .ok lineBytes =>
    if lineBytes ≤ maxLineBytes then .ok [data]
    else splitOversizedStreamDataForNdjson format sessionId data maxLineBytes sequenceChars

/-- `rawLength === data.length ? undefined : rawLength` -/
def explicitRawLength (data : Text) (rawLength : ℕ) : Option ℕ :=
  if rawLength = data.length then none else some rawLength

def carriesMetadata (data : Text) (rawLength : ℕ) (seq : Option ℤ) : Bool :=
  (explicitRawLength data rawLength).isSome || seq.isSome

/-- `explicitRawLength === 0 ? 0 : carriesMetadata ? chunk.length : undefined` -/
def chunkRawLength (data : Text) (rawLength : ℕ) (seq : Option ℤ) (chunk : Text) : Option ℕ :=
  if explicitRawLength data rawLength = some 0 then some 0
  else if carriesMetadata data rawLength seq then some chunk.length
  else none

/-- `seq === undefined ? undefined : seq - (data.length - consumed)` -/
def chunkEndSeq (data : Text) (seq : Option ℤ) (consumed : ℕ) : Option ℤ :=
  seq.map fun seq => seq - (data.length - consumed)

/-- The lines of the chunks, after `consumed` units. -/
def writeChunkLines (sessionId data : Text) (rawLength : ℕ) (seq : Option ℤ) :
    List Text → ℕ → Except WriteError (List Text)
  | [], _ => .ok []
  | chunk :: later, consumed => do
    let line ← encodeStreamDataEvent format sessionId chunk
      (chunkRawLength data rawLength seq chunk)
      (chunkEndSeq data seq (consumed + chunk.length)) false
    let lines ← writeChunkLines sessionId data rawLength seq later (consumed + chunk.length)
    return line :: lines

def writeStreamDataEvents (sessionId data : Text) (maxLineBytes rawLength : ℕ) (seq : Option ℤ)
    (transformed : Bool) : Except WriteError (List Text) :=
  if transformed then
    (encodeStreamDataEvent format sessionId data (some rawLength) seq true).map ([·])
  else if !carriesMetadata data rawLength seq then
    match encodeStreamDataEvent format sessionId data none none false with
    | .error error => .error error
    | .ok line =>
      if Text.byteLength line ≤ maxLineBytes then .ok [line]
      else do
        let chunks ← splitOversizedStreamDataForNdjson format sessionId data maxLineBytes none
        writeChunkLines format sessionId data rawLength seq chunks 0
  else do
    let chunks ← splitStreamDataForNdjson format sessionId data (max 1 (maxLineBytes - 96))
      (explicitRawLength data rawLength)
    writeChunkLines format sessionId data rawLength seq chunks 0

def binaryStreamDataFrameOverheadBytes (sessionId : Text) (payload : List (Text × Json N)) : ℕ :=
  FRAME_HEADER_BYTES + DATA_META_LENGTH_BYTES +
    Text.byteLength (encodeDataMeta format.toNumberFormat sessionId payload)

/-- `encodeBinaryStreamDataFrame` with no bound, which always has a frame or throws. -/
def encodeUnboundedFrame (sessionId data : Text) (payload : List (Text × Json N)) :
    Except WriteError (List Byte) :=
  match encodeBinaryStreamDataFrame format.toNumberFormat sessionId data payload none with
  | .error error => .error (.range error)
  | .ok frame => .ok (frame.getD [])

/-- The frame of `data.slice(start, end)`. -/
def encodeChunkFrame (sessionId data : Text) (rawLength : ℕ) (seq : Option ℤ) (start stop : ℕ) :
    Except WriteError (List Byte) :=
  encodeUnboundedFrame format sessionId (slice data start stop)
    (dataPayloadMeta (chunkRawLength data rawLength seq (slice data start stop))
      (chunkEndSeq data seq stop) false)

def writeJsonChunkFrames (sessionId data : Text) (rawLength : ℕ) (seq : Option ℤ) :
    List Text → ℕ → Except WriteError (List (List Byte))
  | [], _ => .error .missingChunk
  | chunk :: later, start => do
    let stop := start + chunk.length
    let frame ← encodeChunkFrame format sessionId data rawLength seq start stop
    if stop < data.length then
      let frames ← writeJsonChunkFrames sessionId data rawLength seq later stop
      return frame :: frames
    else return [frame]

def writeSliceFrames (sessionId data : Text) (rawLength : ℕ) (seq : Option ℤ)
    (chunkChars start : ℕ) : Except WriteError (List (List Byte)) :=
  let stop := max (nextSafeSplitIndex data start)
    (clampToSafeSplitIndex data start (min data.length (start + chunkChars)))
  match encodeChunkFrame format sessionId data rawLength seq start stop with
  | .error error => .error error
  | .ok frame =>
    if _hstop : stop < data.length then
      (writeSliceFrames sessionId data rawLength seq chunkChars stop).map (frame :: ·)
    else .ok [frame]
termination_by data.length - start
decreasing_by
  have hstart : start < data.length := by
    by_contra hover
    have hnext : nextSafeSplitIndex data start = data.length := by
      rw [nextSafeSplitIndex]
      split_ifs <;> omega
    omega
  have hnext := lt_nextSafeSplitIndex data hstart
  omega

def worstCaseOverhead (sessionId data : Text) (rawLength : ℕ) (seq : Option ℤ) : ℕ :=
  binaryStreamDataFrameOverheadBytes format sessionId
    (if carriesMetadata data rawLength seq then
      dataPayloadMeta (some maxSafeInteger) (some maxSafeInteger) false
    else [])

/-- Three bytes are budgeted for a unit. -/
def chunkChars (sessionId data : Text) (maxFrameBytes rawLength : ℕ) (seq : Option ℤ) : ℕ :=
  let dataBudgetBytes :=
    max 3 (maxFrameBytes - worstCaseOverhead format sessionId data rawLength seq)
  max 1 (dataBudgetBytes / 3)

def writeBinaryStreamDataEvents (sessionId data : Text) (maxFrameBytes rawLength : ℕ)
    (seq : Option ℤ) (transformed : Bool) : Except WriteError (List (List Byte)) :=
  if transformed then
    (encodeUnboundedFrame format sessionId data (dataPayloadMeta (some rawLength) seq true)).map
      ([·])
  else
    match encodeBinaryStreamDataFrame format.toNumberFormat sessionId data
        (dataPayloadMeta (chunkRawLength data rawLength seq data) seq false)
        (some maxFrameBytes) with
    | .error error => .error (.range error)
    | .ok (some whole) => .ok [whole]
    | .ok none =>
      if Text.isWellFormed data then
        writeSliceFrames format sessionId data rawLength seq
          (chunkChars format sessionId data maxFrameBytes rawLength seq) 0
      else do
        let jsonChunks ← splitStreamDataForNdjson format sessionId data
          (max 1 (maxFrameBytes - 96)) (explicitRawLength data rawLength)
        writeJsonChunkFrames format sessionId data rawLength seq jsonChunks 0

end Writing

end Wakii.StreamDataSplit
