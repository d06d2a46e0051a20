import Wakii.Daemon.StreamDataPieces

/-!
# Splitting stream data loses nothing

Under either framing the events written carry the data in pieces that put it
together again, with the positions of a stream and the raw lengths of the pieces,
and each event fits the limit or holds a single code point.  A writer only refuses
metadata too long for its field and an event too long for a line.
-/

namespace Wakii.StreamDataSplit

open List BinaryFraming
open Json (IntegerFormat maxSafeInteger)

section Success

variable {N : Type} [IntCast N] {format : IntegerFormat N} {sessionId data : Text}
variable {rawLength : ℕ} {seq : Option ℤ}

theorem byteLength_quote_slice {start stop : ℕ} (hle : start ≤ stop) (hstop : stop ≤ data.length)
    (hstart : Apart data start) (hapart : Apart data stop) :
    Text.byteLength (Json.quote (slice data start stop)) ≤ Text.byteLength (Json.quote data) := by
  have hafter := codePoints_slice hle hstop hapart
  have hbefore := codePoints_slice (Nat.zero_le start) (Nat.le_trans hle hstop) hstart
  rw [drop_zero] at hbefore
  rw [Json.byteLength_quote, Json.byteLength_quote, hbefore, hafter]
  simp only [map_append, sum_append]
  omega

/-- The event of all the data, numbers left out, leaves room for the allowance. -/
def Fits16MiB (format : IntegerFormat N) (sessionId data : Text) : Prop :=
  lineBytes format sessionId data none none + 96 ≤ NDJSON_MAX_LINE_BYTES

theorem metaBytes_none : metaBytes format none none = 0 := by
  rw [metaBytes_eq]
  rfl

theorem metaBytes_explicit_le (hraw : rawLength ≤ maxSafeInteger) :
    metaBytes format (explicitRawLength data rawLength) none ≤ 62 := by
  have hsafe : ((rawLength : ℤ)).natAbs ≤ maxSafeInteger := by
    rwa [Int.natAbs_natCast]
  have hlength : (format.text ((rawLength : ℤ) : N)).length ≤ 16 := by
    rw [format.text_intCast _ hsafe, Json.length_integerText_natCast]
    exact Json.length_decimal_le (by decide) (Nat.lt_of_le_of_lt hraw (by decide))
  rw [metaBytes_eq, explicitRawLength]
  split_ifs
  · exact Nat.zero_le 62
  · simp only [Option.elim_none, Option.elim_some]
    omega

theorem measurable_of_fits (hraw : rawLength ≤ maxSafeInteger)
    (hfits : Fits16MiB format sessionId data) :
    Measurable format sessionId data (explicitRawLength data rawLength) := by
  intro start stop hle hstop hstart hapart
  have hquote := byteLength_quote_slice hle hstop hstart hapart
  have hmeta := @metaBytes_explicit_le N _ format data rawLength hraw
  refine ⟨lineBytes format sessionId (slice data start stop) (explicitRawLength data rawLength)
    none, ?_⟩
  rw [streamDataEventLineBytes_eq, if_neg]
  rw [Fits16MiB, lineBytes, metaBytes_none] at hfits
  rw [lineBytes]
  omega

theorem exists_line (hstreamed : Streamed data seq) (hfits : Fits16MiB format sessionId data)
    {chunk : Text} (hchunk : chunk.length ≤ data.length)
    (hquote : Text.byteLength (Json.quote chunk) ≤ Text.byteLength (Json.quote data))
    {consumed : ℕ} (hconsumed : consumed ≤ data.length) :
    ∃ line, encodeStreamDataEvent format sessionId chunk
      (chunkRawLength data rawLength seq chunk) (chunkEndSeq data seq consumed) false =
        .ok line := by
  have hmeta := metaBytes_chunk_le format hstreamed rawLength hchunk hconsumed
  rw [encodeStreamDataEvent_eq, if_neg]
  · exact ⟨_, rfl⟩
  · rw [Fits16MiB, lineBytes, metaBytes_none] at hfits
    rw [lineBytes]
    omega

theorem ChunkedFrom.quote_le {fits : Text → Prop} {start : ℕ} {chunks : List Text}
    (hchunks : ChunkedFrom data fits start chunks) (hapart : Apart data start) :
    ∀ chunk ∈ chunks, chunk.length ≤ data.length ∧
      Text.byteLength (Json.quote chunk) ≤ Text.byteLength (Json.quote data) := by
  induction hchunks with
  | done hend => exact fun _ hchunk => absurd hchunk not_mem_nil
  | chunk hlt hle hstop hcut hfits hlater ih =>
    refine forall_mem_cons.mpr ⟨⟨?_, byteLength_quote_slice hle hstop hapart hcut⟩, ih hcut⟩
    rw [length_slice hstop]
    omega

theorem writeChunkLines_ok (hstreamed : Streamed data seq)
    (hfits : Fits16MiB format sessionId data) {chunks : List Text} {consumed : ℕ}
    (hchunks : ∀ chunk ∈ chunks, chunk.length ≤ data.length ∧
      Text.byteLength (Json.quote chunk) ≤ Text.byteLength (Json.quote data))
    (htotal : consumed + chunks.flatten.length ≤ data.length) :
    ∃ lines, writeChunkLines format sessionId data rawLength seq chunks consumed = .ok lines := by
  induction chunks generalizing consumed with
  | nil => exact ⟨[], rfl⟩
  | cons chunk later ih =>
    rw [flatten_cons, length_append] at htotal
    obtain ⟨⟨hlength, hquote⟩, hlater⟩ := forall_mem_cons.mp hchunks
    obtain ⟨line, hline⟩ := @exists_line N _ format sessionId data rawLength seq hstreamed hfits
      chunk hlength hquote (consumed + chunk.length) (by omega)
    obtain ⟨lines, hlines⟩ := @ih (consumed + chunk.length) hlater (by omega)
    refine ⟨line :: lines, ?_⟩
    rw [writeChunkLines, hline]
    dsimp only [bind, Except.bind]
    rw [hlines]
    rfl

theorem writeStreamDataEvents_ok (hstreamed : Streamed data seq) (hraw : rawLength ≤ maxSafeInteger)
    (hfits : Fits16MiB format sessionId data) (maxLineBytes : ℕ) :
    ∃ lines, writeStreamDataEvents format sessionId data maxLineBytes rawLength seq false =
      .ok lines := by
  have hlines {fits : Text → Prop} {chunks : List Text} (hfrom : ChunkedFrom data fits 0 chunks) :
      ∃ lines, writeChunkLines format sessionId data rawLength seq chunks 0 = .ok lines :=
    writeChunkLines_ok hstreamed hfits (hfrom.quote_le (apart_zero data))
      (by rw [hfrom.toChunks.flatten, Nat.zero_add])
  rw [writeStreamDataEvents, if_neg Bool.false_ne_true]
  by_cases hcarries : carriesMetadata data rawLength seq = true
  · have hmeasurable := measurable_of_fits hraw hfits
    obtain ⟨chunks, hchunks⟩ := @splitStreamDataForNdjson_ok N _ format sessionId data
      (max 1 (maxLineBytes - 96)) _ hmeasurable
    obtain ⟨lines, hwritten⟩ := hlines (splitStreamDataForNdjson_spec hchunks).1
    rw [hcarries, hchunks]
    exact ⟨lines, hwritten⟩
  · rw [Bool.not_eq_true] at hcarries
    have hmeasurable : Measurable format sessionId data none := by
      have hsame : explicitRawLength data data.length = none := if_pos rfl
      rw [← hsame]
      exact measurable_of_fits (Nat.le_trans hstreamed.length (by decide)) hfits
    have hwhole : ∃ line, encodeStreamDataEvent format sessionId data none none false =
      .ok line := by
      rw [encodeStreamDataEvent_eq, if_neg]
      · exact ⟨_, rfl⟩
      · rw [Fits16MiB] at hfits
        omega
    obtain ⟨line, hline⟩ := hwhole
    rw [hcarries, Bool.not_false, if_pos rfl, hline]
    dsimp only
    split_ifs
    · exact ⟨[line], rfl⟩
    · obtain ⟨chunks, hchunks⟩ := @splitOversizedFrom_ok N _ format sessionId data maxLineBytes none
        hmeasurable 0 (apart_zero data)
      obtain ⟨lines, hwritten⟩ := hlines (splitOversizedFrom_spec hchunks).1
      rw [splitOversizedStreamDataForNdjson, hchunks]
      exact ⟨lines, hwritten⟩

/-- With the largest numbers, the metadata of the session stays within its field. -/
def MetadataFits (format : IntegerFormat N) (sessionId : Text) : Prop :=
  Text.byteLength (encodeDataMeta format.toNumberFormat sessionId
    (dataPayloadMeta (some maxSafeInteger) (some maxSafeInteger) false)) ≤ MAX_DATA_META_BYTES

section

variable (hstreamed : Streamed data seq) (hmeta : MetadataFits format sessionId) {chunk : Text}
  (hchunk : chunk.length ≤ data.length) {consumed : ℕ} (hconsumed : consumed ≤ data.length)
include hstreamed hmeta hchunk hconsumed

theorem length_metadata_le : (Text.encodeUtf8 (encodeDataMeta format.toNumberFormat sessionId
      (dataPayloadMeta (chunkRawLength data rawLength seq chunk) (chunkEndSeq data seq consumed)
        false))).length ≤ MAX_DATA_META_BYTES := by
  have hnumbers := metaBytes_chunk_le format hstreamed rawLength hchunk hconsumed
  have hle := overhead_le format sessionId (chunkRawLength data rawLength seq chunk)
    (chunkEndSeq data seq consumed)
  have hworst := overhead_worst format sessionId
  rw [binaryStreamDataFrameOverheadBytes] at hle hworst
  rw [MetadataFits] at hmeta
  rw [Text.byteLength] at hle
  omega

theorem exists_frame (hbytes : Text.isWellFormed chunk ∨ (Fits16MiB format sessionId data ∧
      Text.byteLength (Json.quote chunk) ≤ Text.byteLength (Json.quote data))) :
    ∃ frame, encodeUnboundedFrame format sessionId chunk
      (dataPayloadMeta (chunkRawLength data rawLength seq chunk) (chunkEndSeq data seq consumed)
        false) = .ok frame := by
  have hnumbers := metaBytes_chunk_le format hstreamed rawLength hchunk hconsumed
  by_cases hwell : Text.isWellFormed chunk = true
  · have hmetadata := @length_metadata_le N _ format sessionId data rawLength seq hstreamed hmeta
      chunk hchunk consumed hconsumed
    have hdata := Text.byteLength_le chunk
    have hlength := hstreamed.length
    refine ⟨_, encodeUnboundedFrame_wellFormed hwell rfl hmetadata rfl ?_⟩
    rw [length_append, length_append, length_uint16BE]
    rw [Text.byteLength] at hdata
    rw [MAX_DATA_META_BYTES] at hmetadata
    rw [maxStringLength] at hlength
    omega
  · rw [Bool.not_eq_true] at hwell
    rcases hbytes with hother | ⟨hfits, hquote⟩
    · rw [hwell] at hother
      cases hother
    · have hjson := byteLength_framed format sessionId chunk
        (chunkRawLength data rawLength seq chunk) (chunkEndSeq data seq consumed)
      have hshort : (Text.encodeUtf8 (Json.stringify format.toNumberFormat (dataEvent sessionId
          (framePayload chunk (chunkRawLength data rawLength seq chunk)
            (chunkEndSeq data seq consumed))))).length < 2 ^ 32 := by
        rw [Json.byteLength, Text.byteLength, lineBytes] at hjson
        rw [Fits16MiB, lineBytes, metaBytes_none, NDJSON_MAX_LINE_BYTES] at hfits
        omega
      have hframe : encodeBinaryStreamJsonFrame (Json.stringify format.toNumberFormat
          (dataEvent sessionId (framePayload chunk (chunkRawLength data rawLength seq chunk)
            (chunkEndSeq data seq consumed)))) = .ok (frameBytes (EVENT_FRAME,
              Text.encodeUtf8 (Json.stringify format.toNumberFormat (dataEvent sessionId
                (framePayload chunk (chunkRawLength data rawLength seq chunk)
                  (chunkEndSeq data seq consumed)))))) := by
        rw [encodeBinaryStreamJsonFrame]
        exact if_neg (Nat.not_le.mpr hshort)
      exact ⟨_, encodeUnboundedFrame_illFormed hwell hframe⟩

end

theorem bounded_ok {payload : List (Text × Json N)} {frame : List Byte} (maxFrameBytes : ℕ)
    (hframe : encodeUnboundedFrame format sessionId data payload = .ok frame) :
    ∃ result, encodeBinaryStreamDataFrame format.toNumberFormat sessionId data payload
      (some maxFrameBytes) = .ok result := by
  rcases encodeDataFrame_cases format.toNumberFormat (encode_of_unbounded hframe) with
    ⟨hill, hjson⟩ | ⟨hwell, metadata, hmetadata, hmeta, body, hbody, hwidth, -⟩
  · rw [encodeBinaryStreamDataFrame, if_pos (by rw [hill]; rfl)]
    dsimp only
    rw [hjson]
    split_ifs
    · exact ⟨some frame, rfl⟩
    · exact ⟨none, rfl⟩
  · have hlength : body.length =
        DATA_META_LENGTH_BYTES + metadata.length + (Text.encodeUtf8 data).length := by
      rw [hbody, length_append, length_append, length_uint16BE, ← Nat.add_assoc]
      rfl
    rw [encodeBinaryStreamDataFrame, if_neg (by rw [hwell]; simp), ← hmetadata]
    dsimp only
    rw [if_neg (Nat.not_lt.mpr hmeta), ← hlength, if_neg (Nat.not_le.mpr hwidth)]
    split_ifs
    · exact ⟨none, rfl⟩
    · exact ⟨some _, rfl⟩

theorem writeSliceFrames_ok (hstreamed : Streamed data seq) (hmeta : MetadataFits format sessionId)
    (hwell : Text.isWellFormed data) {width start : ℕ}
    (hstart : start < data.length ∨ data = [] ∧ start = 0) (hapart : Apart data start) :
    ∃ frames, writeSliceFrames format sessionId data rawLength seq width start = .ok frames := by
  have hslice {start stop : ℕ} (hle : start ≤ stop) (hin : stop ≤ data.length)
      (hstart : Apart data start) (hstop : Apart data stop) :
      Text.isWellFormed (slice data start stop) := by
    have hbefore := codePoints_slice (Nat.zero_le start) (Nat.le_trans hle hin) hstart
    rw [drop_zero, codePoints_slice hle hin hstop] at hbefore
    rw [Text.isWellFormed, hbefore, all_append, all_append, Bool.and_eq_true,
      Bool.and_eq_true] at hwell
    exact hwell.2.1
  fun_induction writeSliceFrames format sessionId data rawLength seq width start with
  | case1 start stop error hframe =>
    obtain ⟨-, hle, hin, hcut, -⟩ := sliceStop_spec hstart (rfl : stop = _)
    have hlength : (slice data start stop).length ≤ data.length := by
      rw [length_slice hin]
      omega
    obtain ⟨frame, hok⟩ := @exists_frame N _ format sessionId data rawLength seq hstreamed hmeta
      (slice data start stop) hlength stop hin (Or.inl (hslice hle hin hapart hcut))
    rw [encodeChunkFrame, hok] at hframe
    cases hframe
  | case2 start stop frame hframe hmore ih =>
    obtain ⟨-, -, -, hcut, -⟩ := sliceStop_spec hstart (rfl : stop = _)
    obtain ⟨frames, hframes⟩ := ih (Or.inl hmore) hcut
    rw [hframes]
    exact ⟨_, rfl⟩
  | case3 start stop frame hframe hmore => exact ⟨[frame], rfl⟩

theorem writeJsonChunkFrames_ok (hstreamed : Streamed data seq)
    (hmeta : MetadataFits format sessionId) (hfits : Fits16MiB format sessionId data)
    {measured : Text → Prop} {chunks : List Text} {start : ℕ}
    (hchunks : ChunkedFrom data measured start chunks) (hstart : start < data.length)
    (hapart : Apart data start) : ∃ frames,
      writeJsonChunkFrames format sessionId data rawLength seq chunks start = .ok frames := by
  induction hchunks with
  | done hend => omega
  | @chunk start stop later hlt hle hin hcut hpoint hlater ih =>
    have hlength : (slice data start stop).length ≤ data.length := by
      rw [length_slice hin]
      omega
    have hstop : start + (slice data start stop).length = stop := by
      rw [length_slice hin]
      omega
    obtain ⟨frame, hframe⟩ := @exists_frame N _ format sessionId data rawLength seq hstreamed hmeta
      (slice data start stop) hlength stop hin
      (Or.inr ⟨hfits, byteLength_quote_slice hle hin hapart hcut⟩)
    rw [writeJsonChunkFrames, hstop, encodeChunkFrame, hframe]
    by_cases hmore : stop < data.length
    · obtain ⟨frames, hframes⟩ := ih hmore hcut
      refine ⟨frame :: frames, ?_⟩
      simp only [bind, Except.bind, if_pos hmore, hframes]
      rfl
    · refine ⟨[frame], ?_⟩
      simp only [bind, Except.bind, if_neg hmore]
      rfl

theorem writeBinaryStreamDataEvents_ok (hstreamed : Streamed data seq)
    (hraw : rawLength ≤ maxSafeInteger) (hmeta : MetadataFits format sessionId)
    (hbytes : Text.isWellFormed data ∨ Fits16MiB format sessionId data) (maxFrameBytes : ℕ) :
    ∃ frames, writeBinaryStreamDataEvents format sessionId data maxFrameBytes rawLength seq false =
      .ok frames := by
  have hseq : chunkEndSeq data seq data.length = seq := by
    rw [chunkEndSeq]
    simp
  obtain ⟨whole, hwhole⟩ := @exists_frame N _ format sessionId data rawLength seq hstreamed hmeta
    data (Nat.le_refl _) data.length (Nat.le_refl _)
    (hbytes.imp_right fun hfits => ⟨hfits, Nat.le_refl _⟩)
  rw [hseq] at hwhole
  obtain ⟨result, hresult⟩ := bounded_ok maxFrameBytes hwhole
  rw [writeBinaryStreamDataEvents, if_neg Bool.false_ne_true, hresult]
  cases result with
  | some frame => exact ⟨[frame], rfl⟩
  | none =>
    dsimp only
    by_cases hwell : Text.isWellFormed data = true
    · have hstart : 0 < data.length ∨ data = [] ∧ (0 : ℕ) = 0 := by
        rw [← length_eq_zero_iff]
        omega
      rw [if_pos hwell]
      exact writeSliceFrames_ok hstreamed hmeta hwell hstart (apart_zero data)
    · have hfits := hbytes.resolve_left hwell
      have hnonempty : 0 < data.length := by
        by_contra hempty
        have hnil : data = [] := length_eq_zero_iff.mp (by omega)
        rw [hnil] at hwell
        exact hwell rfl
      obtain ⟨chunks, hchunks⟩ := @splitStreamDataForNdjson_ok N _ format sessionId data
        (max 1 (maxFrameBytes - 96)) _ (measurable_of_fits hraw hfits)
      obtain ⟨frames, hframes⟩ := @writeJsonChunkFrames_ok N _ format sessionId data rawLength seq
        hstreamed hmeta hfits _ chunks 0 (splitStreamDataForNdjson_spec hchunks).1 hnonempty
        (apart_zero data)
      rw [if_neg hwell, hchunks]
      exact ⟨frames, hframes⟩

end Success

section Agreement

variable {N : Type} [IntCast N] (format : IntegerFormat N) (sessionId data : Text)
variable (maxBytes rawLength : ℕ) (seq : Option ℤ)

/-- What is written in either framing carries the data in pieces; an NDJSON writer
writes nothing only of empty data whose event does not fit; the writers refuse nothing
but what is too long for a line or for the metadata; and two ways to split the data
agree on the data, the end sequence and the raw characters. -/
theorem splitting_loses_nothing (hstreamed : Streamed data seq)
    (hraw : rawLength ≤ maxSafeInteger) :
    (∀ lines, writeStreamDataEvents format sessionId data maxBytes rawLength seq false = .ok lines →
      (∃ pieces, SplitsInto data rawLength seq pieces ∧
        List.Forall₂ (LineCarries format sessionId maxBytes) pieces lines) ∧
      (lines = [] → data = [] ∧ ¬ LineFits format sessionId
        (measuredLimit data rawLength seq maxBytes) (explicitRawLength data rawLength) data)) ∧
    (∀ frames, writeBinaryStreamDataEvents format sessionId data maxBytes rawLength seq false =
        .ok frames →
      (∃ pieces, SplitsInto data rawLength seq pieces ∧
        List.Forall₂ (FrameCarries format sessionId maxBytes) pieces frames) ∧ frames ≠ []) ∧
    (Fits16MiB format sessionId data →
      ∃ lines, writeStreamDataEvents format sessionId data maxBytes rawLength seq false =
        .ok lines) ∧
    (MetadataFits format sessionId → (Text.isWellFormed data ∨ Fits16MiB format sessionId data) →
      ∃ frames, writeBinaryStreamDataEvents format sessionId data maxBytes rawLength seq false =
        .ok frames) ∧
    ∀ ours theirs, SplitsInto data rawLength seq ours → SplitsInto data rawLength seq theirs →
      ours.flatMap Piece.data = theirs.flatMap Piece.data ∧
      (ours.map Piece.rawChars).sum = (theirs.map Piece.rawChars).sum ∧
      (ours ≠ [] → theirs ≠ [] →
        ours.getLast?.map Piece.seq = some seq ∧ theirs.getLast?.map Piece.seq = some seq) := by
  refine ⟨fun lines hlines => ?_, fun frames hframes => ?_,
    fun hfits => writeStreamDataEvents_ok hstreamed hraw hfits maxBytes,
    fun hmeta hbytes => writeBinaryStreamDataEvents_ok hstreamed hraw hmeta hbytes maxBytes,
    fun ours theirs hours htheirs => ⟨?_, ?_, fun hsome hother => ⟨?_, ?_⟩⟩⟩
  · obtain ⟨chunks, hfrom, hempty, hpieces⟩ := writeStreamDataEvents_spec hlines
    refine ⟨⟨_, splitsInto_pieces hfrom.toChunks, forall₂_of_mem hpieces fun piece hpiece line =>
      lineCarries_of_lineOf hstreamed hfrom.toChunks hpiece⟩, fun hnil => hempty ?_⟩
    rw [hnil] at hpieces
    cases chunks with
    | nil => rfl
    | cons chunk later => cases hpieces
  · obtain ⟨fits, chunks, hsome, hchunks, hpieces⟩ :=
      writeBinaryStreamDataEvents_spec hstreamed hframes
    refine ⟨⟨_, splitsInto_pieces hchunks, hpieces.imp fun piece frame hwritten =>
      frameCarries_of_frameOf hwritten.1 hwritten.2⟩, ?_⟩
    rintro rfl
    cases chunks with
    | nil => exact hsome rfl
    | cons chunk later => cases hpieces
  · rw [hours.joined, htheirs.joined]
  · rw [hours.sum_rawChars, htheirs.sum_rawChars]
  · rw [getLast?_eq_getLast_of_ne_nil hsome, Option.map_some, hours.seq_getLast hsome]
  · rw [getLast?_eq_getLast_of_ne_nil hother, Option.map_some, htheirs.seq_getLast hother]

end Agreement

section Samples

def sampleSession : Text := Text.ofString "s"

theorem splitting_loses_nothing_sample :
    ∃ lines frames, writeStreamDataEvents Json.integerFormat sampleSession
      [0x61, 0xD83D, 0xDC19] 64 3
        (some 9) false = .ok lines ∧
      writeBinaryStreamDataEvents Json.integerFormat sampleSession [0x61, 0xD83D, 0xDC19] 64 3
        (some 9)
        false = .ok frames := by
  have hstreamed : Streamed [0x61, 0xD83D, 0xDC19] (some 9) :=
    ⟨by decide, fun position hposition => by
      cases hposition
      decide⟩
  obtain ⟨-, -, hlines, hframes, -⟩ := splitting_loses_nothing Json.integerFormat sampleSession
    [0x61, 0xD83D, 0xDC19] 64 3 (some 9) hstreamed (by decide)
  have hfits : Fits16MiB Json.integerFormat sampleSession [0x61, 0xD83D, 0xDC19] := by
    rw [Fits16MiB, lineBytes, metaBytes_none]
    decide
  obtain ⟨lines, hlines⟩ := hlines hfits
  obtain ⟨frames, hframes⟩ := hframes (by rw [MetadataFits]; decide +kernel) (Or.inr hfits)
  exact ⟨lines, frames, hlines, hframes⟩

theorem lt_byteLength_quote_letters (length : ℕ) :
    length < Text.byteLength (Json.quote (List.replicate length 0x61)) := by
  have hquote := Json.byteLength_le_quote (List.replicate length 0x61)
  have hletters : Text.byteLength (List.replicate length 0x61) = length := by
    rw [Text.byteLength_ascii, length_replicate]
    intro unit hunit
    rw [eq_of_mem_replicate hunit]
    decide
  omega

/-- The metadata of a long session id does not go into its field. -/
theorem refused_of_long_session {N : Type} [IntCast N] (format : IntegerFormat N)
    {sessionId data : Text} (hwell : Text.isWellFormed data = true)
    (hlong : MAX_DATA_META_BYTES < Text.byteLength (Json.quote sessionId)) (maxBytes : ℕ) :
    writeBinaryStreamDataEvents format sessionId data maxBytes data.length none false =
      .error (.range .metadataExceeds) := by
  have hplain : chunkRawLength data data.length none data = none := by
    rw [chunkRawLength_eq, if_neg (by simp), if_neg (by simp)]
  have hmeta := byteLength_dataEvent format sessionId []
  have hexceeds : MAX_DATA_META_BYTES < (Text.encodeUtf8 (encodeDataMeta
      format.toNumberFormat sessionId [])).length := by
    rw [Json.byteLength, Text.byteLength] at hmeta
    rw [encodeDataMeta, hmeta]
    omega
  have hencode : encodeBinaryStreamDataFrame format.toNumberFormat sessionId data
      (dataPayloadMeta none none false) (some maxBytes) = .error .metadataExceeds := by
    rw [encodeBinaryStreamDataFrame, if_neg (by rw [hwell]; simp)]
    exact if_pos hexceeds
  rw [writeBinaryStreamDataEvents, if_neg Bool.false_ne_true, hplain]
  simp only [hencode]

/-- Data past a line is measured as one line, and refused. -/
theorem refused_of_long_data {N : Type} [IntCast N] (format : IntegerFormat N)
    (sessionId : Text) {data : Text}
    (hlong : NDJSON_MAX_LINE_BYTES < Text.byteLength (Json.quote data)) (maxBytes : ℕ) :
    writeStreamDataEvents format sessionId data maxBytes data.length none false =
      .error (.lineTooLong (lineBytes format sessionId data none none - 1)
        NDJSON_MAX_LINE_BYTES) := by
  have hcarries : carriesMetadata data data.length none = false := by
    rw [carriesMetadata, explicitRawLength, if_pos rfl]
    rfl
  have hline : encodeStreamDataEvent format sessionId data none none false =
      .error (.lineTooLong (lineBytes format sessionId data none none - 1)
        NDJSON_MAX_LINE_BYTES) := by
    rw [encodeStreamDataEvent_eq, if_pos]
    rw [lineBytes]
    omega
  rw [writeStreamDataEvents, if_neg Bool.false_ne_true, hcarries, Bool.not_false, if_pos rfl, hline]

/-- An empty write with a small limit writes no line at all, though a frame with its
end sequence; a session id past the metadata field and data past a line are refused. -/
theorem empty_write_unsent :
    writeStreamDataEvents Json.integerFormat sampleSession [] 1 0 (some 5) false = .ok [] ∧
    (writeBinaryStreamDataEvents Json.integerFormat sampleSession [] 1 0 (some 5) false).map
      (List.map List.length) = .ok [106] ∧
    writeBinaryStreamDataEvents Json.integerFormat (List.replicate 65536 0x61) [0x61] 1024 1 none
      false = .error (.range .metadataExceeds) ∧
    ∃ bytes, writeStreamDataEvents Json.integerFormat sampleSession
      (List.replicate (16 * 1024 * 1024) 0x61) 1024 (16 * 1024 * 1024) none false =
        .error (.lineTooLong bytes NDJSON_MAX_LINE_BYTES) := by
  refine ⟨by decide +kernel, by decide +kernel, ?_, ?_⟩
  · have hlong : MAX_DATA_META_BYTES < Text.byteLength (Json.quote (List.replicate 65536 0x61)) :=
      Nat.lt_trans (by decide) (lt_byteLength_quote_letters 65536)
    exact @refused_of_long_session ℤ _ Json.integerFormat _ [0x61] rfl hlong 1024
  · have hlong : NDJSON_MAX_LINE_BYTES <
        Text.byteLength (Json.quote (List.replicate (16 * 1024 * 1024) 0x61)) :=
      lt_byteLength_quote_letters (16 * 1024 * 1024)
    have hrefused := refused_of_long_data Json.integerFormat sampleSession hlong 1024
    rw [length_replicate] at hrefused
    exact ⟨_, hrefused⟩

end Samples

section Arrival

variable {N : Type} [IntCast N] {format : IntegerFormat N} {sessionId data : Text}
variable {rawLength maxBytes : ℕ} {seq : Option ℤ} {frames : List (List Byte)}
variable {options : ReaderOptions}

theorem exists_parts {pieces : List Piece}
    (hpieces : List.Forall₂ (WrittenAs format sessionId maxBytes) pieces frames)
    (hfits : ∀ frame ∈ frames, frame.length ≤ FRAME_HEADER_BYTES + options.maxFrameBytes) :
    ∃ parts events, List.Forall₂ (StreamPart.Written format.toNumberFormat options) parts frames ∧
      parts.flatMap (StreamPart.calls format.toNumberFormat) = events.map .event ∧
      List.Forall₂ (Carries sessionId) pieces events := by
  induction hpieces with
  | nil => exact ⟨[], [], .nil, rfl, .nil⟩
  | cons hpiece hlater ih =>
    obtain ⟨hfirst, hrest⟩ := forall_mem_cons.mp hfits
    obtain ⟨parts, events, hparts, hcalls, hcarries⟩ := ih hrest
    obtain ⟨⟨event, frame, hwrites, hevent⟩, -⟩ := frameCarries_of_frameOf hpiece.1 hpiece.2
    rw [hwrites.bytes, length_frameBytes] at hfirst
    have hframe : IsFrame options frame := ⟨hwrites.kind, by omega, hwrites.width⟩
    refine ⟨.raw frame :: parts, event :: events, .cons ⟨hwrites.bytes, hframe⟩ hparts, ?_,
      .cons hevent hcarries⟩
    rw [flatMap_cons, hcalls, StreamPart.calls, delivered, hwrites.delivers]
    rfl

/-- Whatever else goes over the socket, and under any chunking, data that was written is
read in order and whole: as events that carry it in pieces, with no fatal call. -/
theorem written_data_arrives {before after : List (StreamPart N)} {earlier later : List (List Byte)}
    (hstreamed : Streamed data seq)
    (hwrite : writeBinaryStreamDataEvents format sessionId data maxBytes rawLength seq false =
      .ok frames)
    (hfits : ∀ frame ∈ frames, frame.length ≤ FRAME_HEADER_BYTES + options.maxFrameBytes)
    (hbefore : List.Forall₂ (StreamPart.Written format.toNumberFormat options) before earlier)
    (hafter : List.Forall₂ (StreamPart.Written format.toNumberFormat options) after later)
    {chunks : List Buffer}
    (hchunks : chunks.flatMap Buffer.bytes = (earlier ++ (frames ++ later)).flatten) :
    ∃ pieces events, SplitsInto data rawLength seq pieces ∧
      List.Forall₂ (Carries sessionId) pieces events ∧
      feedAll format.toNumberFormat options createBinaryStreamFrameReader chunks =
        before.flatMap (StreamPart.calls format.toNumberFormat) ++
          (events.map .event ++ after.flatMap (StreamPart.calls format.toNumberFormat)) := by
  obtain ⟨fits, pieces, -, hpieces, hwritten⟩ := writeBinaryStreamDataEvents_spec hstreamed hwrite
  obtain ⟨parts, events, hparts, hcalls, hcarries⟩ := exists_parts hwritten hfits
  obtain ⟨sent, hbytes, hframes, hsent⟩ := StreamPart.exists_frames _ options
    (rel_append hbefore (rel_append hparts hafter))
  refine ⟨_, events, splitsInto_pieces hpieces, hcarries, ?_⟩
  rw [calls_of_whole_frames _ options hframes (hchunks.trans hbytes), ← hsent, ← hcalls,
    flatMap_append, flatMap_append]

end Arrival

section ArrivalSample

open BinaryFraming (DataFrame Message EVENT_FRAME frameBytes oneByte flatMap_bytes_oneByOne)

def sampleData : Text := [0x61, 0xD83D, 0xDC19, 0x62]

/-- The limit leaves room for one code point in a frame. -/
def sampleWrite : Except WriteError (List (List Byte)) :=
  writeBinaryStreamDataEvents Json.integerFormat sampleSession sampleData 64 3 (some 9) false

def sampleFrames : List (List Byte) := sampleWrite.toOption.getD []

def laterFrame : DataFrame ℤ where
  sessionId := Text.ofString "t"
  data := [0x41, 0xD800]
  payload := [(Text.ofString "seq", .number 7)]
  proper := rfl
  maxFrameBytes := none

def laterBytes : List Byte :=
  frameBytes (EVENT_FRAME, Text.encodeUtf8
    (Json.stringify Json.integerFormat.toNumberFormat (Message.data laterFrame).event))

/-- Three frames with their positions between a malformed frame and another session's data, byte
by byte. -/
theorem written_data_arrives_sample : sampleFrames.length = 3 ∧ ∃ pieces events,
    SplitsInto sampleData 3 (some 9) pieces ∧
    List.Forall₂ (Carries (N := ℤ) sampleSession) pieces events ∧
    feedAll Json.integerFormat.toNumberFormat ⟨1024, 8192⟩ createBinaryStreamFrameReader
        (([frameBytes (EVENT_FRAME, [0x7B])] ++ (sampleFrames ++ [laterBytes])).flatten.map
          oneByte) =
      events.map .event ++ [.event (Message.data laterFrame).event] := by
  have hwrite : writeBinaryStreamDataEvents Json.integerFormat sampleSession sampleData 64 3
      (some 9) false = .ok sampleFrames := by
    decide +kernel
  have hstreamed : Streamed sampleData (some 9) :=
    ⟨by decide, fun position hposition => by
      cases hposition
      decide⟩
  refine ⟨by decide +kernel, ?_⟩
  have harrives := @written_data_arrives ℤ _ _ _ _ _ _ _ _ ⟨1024, 8192⟩
    [.raw (EVENT_FRAME, [0x7B])] [.sent (.data laterFrame)] [frameBytes (EVENT_FRAME, [0x7B])]
    [laterBytes] hstreamed hwrite (by decide +kernel)
    (.cons ⟨rfl, Or.inl rfl, by decide, by decide⟩ .nil) (.cons ⟨rfl, by decide⟩ .nil) _
    (flatMap_bytes_oneByOne _)
  exact harrives

end ArrivalSample

end Wakii.StreamDataSplit
