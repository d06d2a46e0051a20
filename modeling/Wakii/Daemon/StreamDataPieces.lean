import Wakii.Daemon.StreamDataBytes

/-!
# The pieces of stream data

What was written is one event for each chunk: it carries the chunk as a piece of
the data, with its position and its raw length, and fits the limit unless the chunk
is a single code point.
-/

namespace Wakii.StreamDataSplit

open Option List BinaryFraming
open Json (IntegerFormat maxSafeInteger field?)

structure Piece where
  data : Text
  rawLength : Option ℕ
  seq : Option ℤ

namespace Piece

/-- The raw characters a reader counts: the data's own where no length is given. -/
def rawChars (piece : Piece) : ℕ := piece.rawLength.getD piece.data.length

end Piece

structure SplitsInto (data : Text) (rawLength : ℕ) (seq : Option ℤ) (pieces : List Piece) :
    Prop where
  joined : pieces.flatMap Piece.data = data
  cuts : ∀ before after, pieces = before ++ after → Text.codePoints data =
    Text.codePoints (before.flatMap Piece.data) ++ Text.codePoints (after.flatMap Piece.data)
  seqs : ∀ before piece after, pieces = before ++ piece :: after →
    piece.seq = seq.map fun position => position - ((after.flatMap Piece.data).length : ℤ)
  rawLengths : ∀ piece ∈ pieces, piece.rawLength =
    if rawLength = 0 ∧ data ≠ [] then some 0
    else if rawLength ≠ data.length ∨ seq ≠ none then some piece.data.length
    else none

section Reading

variable {N : Type} [IntCast N] (format : IntegerFormat N)

/-- A data event of the session with the fields of the piece. -/
def Carries (sessionId : Text) (piece : Piece) (event : Json N) : Prop :=
  ∃ payload, event = dataEvent sessionId payload ∧
    field? dataKey payload = some (.string piece.data) ∧
    field? seqKey payload = piece.seq.map (fun seq => .number (seq : N)) ∧
    field? rawLengthKey payload = piece.rawLength.map (fun length => .number ((length : ℤ) : N)) ∧
    field? sequenceCharsKey payload = piece.rawLength.map fun length => .number ((length : ℤ) : N)

/-- The line is a JSON text with its line feed, and carries the piece within the
limit, or a single code point of it. -/
def LineCarries (sessionId : Text) (maxLineBytes : ℕ) (piece : Piece) (line : Text) : Prop :=
  (∃ json event, line = json ++ [0x0A] ∧ Json.parse format.toNumberFormat json = some event ∧
    Carries sessionId piece event) ∧
  (Text.byteLength line ≤ maxLineBytes ∨ (Text.codePoints piece.data).length = 1)

/-- The reader delivers the piece from the frame, which is within the limit unless it
holds a single code point, or nothing at all. -/
def FrameCarries (sessionId : Text) (maxFrameBytes : ℕ) (piece : Piece) (frame : List Byte) :
    Prop :=
  (∃ event written, Writes format.toNumberFormat event frame written ∧
    Carries sessionId piece event) ∧
  (frame.length ≤ maxFrameBytes ∨ (Text.codePoints piece.data).length = 1 ∨ piece.data = [])

theorem carries_linePayload (sessionId : Text) (piece : Piece) : Carries (N := N) sessionId piece
    (dataEvent sessionId (linePayload piece.data piece.rawLength piece.seq)) := by
  obtain ⟨data, rawLength, seq⟩ := piece
  refine ⟨_, rfl, ?_⟩
  cases seq <;> cases rawLength <;> exact ⟨rfl, rfl, rfl, rfl⟩

theorem carries_framePayload (sessionId : Text) (piece : Piece) : Carries (N := N) sessionId piece
    (dataEvent sessionId (framePayload piece.data piece.rawLength piece.seq)) := by
  obtain ⟨data, rawLength, seq⟩ := piece
  refine ⟨_, rfl, ?_⟩
  cases seq <;> cases rawLength <;> exact ⟨rfl, rfl, rfl, rfl⟩

theorem isProper_linePayload (data : Text) (rawLength : Option ℕ) (seq : Option ℤ) :
    Json.isProper (.object (linePayload (N := N) data rawLength seq)) := by
  have hkeys : [dataKey, seqKey, rawLengthKey, sequenceCharsKey].Nodup := by decide
  have hraw : [dataKey, rawLengthKey, sequenceCharsKey].Nodup := by decide
  have hseq : [dataKey, seqKey].Nodup := by decide
  cases seq <;> cases rawLength <;>
    simp [Json.isProper, Json.areFieldsProper, linePayload, dataPayloadMeta, hkeys, hraw, hseq]

end Reading

section Pieces

variable (data : Text) (rawLength : ℕ) (seq : Option ℤ)

def piecesFrom : List Text → ℕ → List Piece
  | [], _ => []
  | chunk :: later, consumed =>
    ⟨chunk, chunkRawLength data rawLength seq chunk,
      chunkEndSeq data seq (consumed + chunk.length)⟩ ::
      piecesFrom later (consumed + chunk.length)

variable {data rawLength seq} {chunks : List Text} {consumed : ℕ}

theorem map_data_piecesFrom :
    (piecesFrom data rawLength seq chunks consumed).map Piece.data = chunks := by
  induction chunks generalizing consumed with
  | nil => rfl
  | cons chunk later ih => rw [piecesFrom, map_cons, ih]

theorem mem_piecesFrom {piece : Piece}
    (hpiece : piece ∈ piecesFrom data rawLength seq chunks consumed) :
    piece.data ∈ chunks ∧ piece.rawLength = chunkRawLength data rawLength seq piece.data ∧
      ∃ stop, stop ≤ consumed + chunks.flatten.length ∧ piece.seq = chunkEndSeq data seq stop := by
  induction chunks generalizing consumed with
  | nil => cases hpiece
  | cons chunk later ih =>
    rw [flatten_cons, length_append]
    rcases mem_cons.mp hpiece with rfl | hlater
    · exact ⟨mem_cons_self, rfl, consumed + chunk.length, by omega, rfl⟩
    · obtain ⟨hdata, hraw, stop, hstop, hseq⟩ := ih hlater
      exact ⟨mem_cons_of_mem _ hdata, hraw, stop, by omega, hseq⟩

theorem seq_piecesFrom (htotal : consumed + chunks.flatten.length = data.length)
    {before after : List Piece} {piece : Piece}
    (hsplit : piecesFrom data rawLength seq chunks consumed = before ++ piece :: after) :
    piece.seq = seq.map fun position => position - ((after.flatMap Piece.data).length : ℤ) := by
  induction chunks generalizing consumed before with
  | nil => simp [piecesFrom] at hsplit
  | cons chunk later ih =>
    rw [flatten_cons, length_append] at htotal
    rw [piecesFrom] at hsplit
    cases before with
    | nil =>
      obtain ⟨rfl, rfl⟩ := cons_eq_cons.mp hsplit
      have hrest : ((piecesFrom data rawLength seq later (consumed + chunk.length)).flatMap
          Piece.data).length = data.length - (consumed + chunk.length) := by
        rw [flatMap_def, map_data_piecesFrom]
        omega
      rw [hrest]
      dsimp only
      rw [chunkEndSeq]
      congr 1
      funext position
      omega
    | cons first before =>
      obtain ⟨-, hrest⟩ := cons_eq_cons.mp hsplit
      exact ih (by omega) hrest

theorem chunkRawLength_eq (chunk : Text) : chunkRawLength data rawLength seq chunk =
    if rawLength = 0 ∧ data ≠ [] then some 0
    else if rawLength ≠ data.length ∨ seq ≠ none then some chunk.length
    else none := by
  have hnil : data = [] ↔ data.length = 0 := length_eq_zero_iff.symm
  have hzero : explicitRawLength data rawLength = some 0 ↔ rawLength = 0 ∧ data ≠ [] := by
    rw [explicitRawLength, Ne, hnil]
    split_ifs with hsame
    · simp only [false_iff, not_and, not_not]
      omega
    · rw [Option.some.injEq]
      omega
  have hcarries : carriesMetadata data rawLength seq = true ↔
      rawLength ≠ data.length ∨ seq ≠ none := by
    rw [carriesMetadata, explicitRawLength, Bool.or_eq_true, isSome_iff_ne_none]
    split_ifs with hsame <;> simp [hsame, isSome_iff_ne_none]
  rw [chunkRawLength]
  simp only [hzero, hcarries]

theorem splitsInto_pieces {fits : Text → Prop} (hchunks : Chunks data fits chunks) :
    SplitsInto data rawLength seq (piecesFrom data rawLength seq chunks 0) where
  joined := by rw [flatMap_def, map_data_piecesFrom, hchunks.flatten]
  cuts before after hsplit := by
    have hmap := congrArg (List.map Piece.data) hsplit
    rw [map_data_piecesFrom, map_append] at hmap
    rw [flatMap_def, flatMap_def]
    exact hchunks.cuts _ _ hmap
  seqs before piece after hsplit := seq_piecesFrom (by rw [hchunks.flatten, Nat.zero_add]) hsplit
  rawLengths piece hpiece := by
    rw [(mem_piecesFrom hpiece).2.1, chunkRawLength_eq]

end Pieces

section Sums

variable {data : Text} {rawLength : ℕ} {seq : Option ℤ} {pieces : List Piece}

theorem SplitsInto.seq_getLast (hsplits : SplitsInto data rawLength seq pieces)
    (hsome : pieces ≠ []) : (pieces.getLast hsome).seq = seq := by
  rw [hsplits.seqs pieces.dropLast (pieces.getLast hsome) [] (dropLast_append_getLast hsome).symm]
  cases seq <;> simp

theorem SplitsInto.sum_rawChars (hsplits : SplitsInto data rawLength seq pieces) :
    (pieces.map Piece.rawChars).sum = if rawLength = 0 then 0 else data.length := by
  have hempty (hnil : data = []) : (pieces.map fun piece => piece.data.length).sum = 0 := by
    rw [← length_flatMap, hsplits.joined, hnil]
    rfl
  by_cases hzero : rawLength = 0 ∧ data ≠ []
  · have hchars : ∀ piece ∈ pieces, piece.rawChars = 0 := fun piece hpiece => by
      rw [Piece.rawChars, hsplits.rawLengths piece hpiece, if_pos hzero]
      rfl
    rw [map_congr_left hchars, if_pos hzero.1]
    simp
  · have hchars : ∀ piece ∈ pieces, piece.rawChars = piece.data.length := fun piece hpiece => by
      rw [Piece.rawChars, hsplits.rawLengths piece hpiece, if_neg hzero]
      split_ifs <;> rfl
    rw [map_congr_left hchars, ← length_flatMap, hsplits.joined]
    split_ifs with hraw
    · simp only [hraw, true_and, not_not] at hzero
      rw [hzero]
      rfl
    · rfl

end Sums

section Lines

variable {N : Type} [IntCast N] {format : IntegerFormat N} {sessionId data : Text}
variable {rawLength : ℕ} {seq : Option ℤ}

def LineOf (format : IntegerFormat N) (sessionId : Text) (piece : Piece) (line : Text) : Prop :=
  encodeStreamDataEvent format sessionId piece.data piece.rawLength piece.seq false = .ok line

theorem writeChunkLines_spec {chunks lines : List Text} {consumed : ℕ}
    (hwrite : writeChunkLines format sessionId data rawLength seq chunks consumed = .ok lines) :
    List.Forall₂ (LineOf format sessionId) (piecesFrom data rawLength seq chunks consumed)
      lines := by
  induction chunks generalizing consumed lines with
  | nil =>
    cases hwrite
    exact .nil
  | cons chunk later ih =>
    rw [writeChunkLines] at hwrite
    obtain ⟨line, hline, hwrite⟩ := exists_ok_of_bind hwrite
    obtain ⟨rest, hrest, hwrite⟩ := exists_ok_of_bind hwrite
    cases hwrite
    exact .cons hline (ih hrest)

def measuredLimit (data : Text) (rawLength : ℕ) (seq : Option ℤ) (maxBytes : ℕ) : ℕ :=
  if carriesMetadata data rawLength seq then max 1 (maxBytes - 96) else maxBytes

theorem writeStreamDataEvents_spec {maxLineBytes : ℕ} {lines : List Text}
    (hwrite : writeStreamDataEvents format sessionId data maxLineBytes rawLength seq false =
      .ok lines) :
    ∃ chunks, ChunkedFrom data (LineFits format sessionId
        (measuredLimit data rawLength seq maxLineBytes) (explicitRawLength data rawLength))
        0 chunks ∧
      (chunks = [] → data = [] ∧ ¬ LineFits format sessionId
        (measuredLimit data rawLength seq maxLineBytes) (explicitRawLength data rawLength) data) ∧
      List.Forall₂ (LineOf format sessionId) (piecesFrom data rawLength seq chunks 0) lines := by
  rw [writeStreamDataEvents, if_neg Bool.false_ne_true] at hwrite
  by_cases hcarries : carriesMetadata data rawLength seq = true
  · rw [hcarries] at hwrite
    obtain ⟨chunks, hchunks, hwrite⟩ := exists_ok_of_bind hwrite
    obtain ⟨hfrom, hempty⟩ := splitStreamDataForNdjson_spec hchunks
    rw [measuredLimit, if_pos hcarries]
    exact ⟨chunks, hfrom, hempty, writeChunkLines_spec hwrite⟩
  · rw [Bool.not_eq_true] at hcarries
    have hplain : explicitRawLength data rawLength = none ∧ seq = none := by
      rw [carriesMetadata, Bool.or_eq_false_iff] at hcarries
      exact ⟨isSome_eq_false_iff.mp hcarries.1 |> isNone_iff_eq_none.mp,
        isSome_eq_false_iff.mp hcarries.2 |> isNone_iff_eq_none.mp⟩
    rw [measuredLimit, hcarries, if_neg Bool.false_ne_true, hplain.1]
    rw [hcarries, Bool.not_false, if_pos rfl] at hwrite
    split at hwrite
    next error hline => cases hwrite
    next line hline =>
      have hmeasured : streamDataEventLineBytes format sessionId data none =
          .ok (Text.byteLength line) := by
        rw [streamDataEventLineBytes, hline]
        rfl
      split_ifs at hwrite with hfits
      · cases hwrite
        refine ⟨[data], chunkedFrom_whole ⟨_, hmeasured, hfits⟩,
          fun hnil => absurd hnil (cons_ne_nil _ _), ?_⟩
        refine .cons ?_ .nil
        rw [LineOf, chunkRawLength, hplain.1, if_neg (by simp), hcarries,
          if_neg Bool.false_ne_true, chunkEndSeq, hplain.2]
        exact hline
      · obtain ⟨chunks, hchunks, hwrite⟩ := exists_ok_of_bind hwrite
        obtain ⟨hfrom, hempty⟩ := splitOversizedFrom_spec hchunks
        refine ⟨chunks, hfrom, fun hnil =>
          ⟨length_eq_zero_iff.mp (Nat.le_zero.mp (hempty hnil)), ?_⟩,
          writeChunkLines_spec hwrite⟩
        rintro ⟨bytes, hbytes, hle⟩
        rw [hmeasured] at hbytes
        exact hfits (Except.ok.inj hbytes ▸ hle)

section

variable (hstreamed : Streamed data seq) {maxBytes : ℕ} {chunk : Text}
  (hchunk : chunk.length ≤ data.length) {consumed : ℕ} (hconsumed : consumed ≤ data.length)
include hstreamed hchunk hconsumed

theorem lineBytes_le_of_allowance
    (hfits : LineFits format sessionId (max 1 (maxBytes - 96)) (explicitRawLength data rawLength)
      chunk) :
    lineBytes format sessionId chunk (chunkRawLength data rawLength seq chunk)
        (chunkEndSeq data seq consumed) + 25 ≤ maxBytes := by
  have hmeasured := (lineFits_iff format).mp hfits
  have hmeta := metaBytes_chunk_le format hstreamed rawLength hchunk hconsumed
  rw [lineBytes] at hmeasured ⊢
  omega

theorem lineBytes_le (hfits : LineFits format sessionId (measuredLimit data rawLength seq maxBytes)
      (explicitRawLength data rawLength) chunk) :
    lineBytes format sessionId chunk (chunkRawLength data rawLength seq chunk)
      (chunkEndSeq data seq consumed) ≤ maxBytes := by
  rw [measuredLimit] at hfits
  by_cases hcarries : carriesMetadata data rawLength seq = true
  · rw [if_pos hcarries] at hfits
    exact Nat.le_of_add_right_le (lineBytes_le_of_allowance hstreamed hchunk hconsumed hfits)
  · rw [if_neg hcarries] at hfits
    have hmeasured := (lineFits_iff format).mp hfits
    rw [carriesMetadata, Bool.not_eq_true, Bool.or_eq_false_iff, isSome_eq_false_iff,
      isSome_eq_false_iff, isNone_iff_eq_none, isNone_iff_eq_none] at hcarries
    have hsame : chunkRawLength data rawLength seq chunk = explicitRawLength data rawLength ∧
        chunkEndSeq data seq consumed = none := by
      rw [chunkRawLength, carriesMetadata, hcarries.1, hcarries.2]
      exact ⟨rfl, rfl⟩
    rw [hsame.1, hsame.2]
    exact hmeasured.2

end

theorem lineCarries_of_lineOf (hstreamed : Streamed data seq) {maxLineBytes : ℕ}
    {chunks : List Text} (hchunks : Chunks data (LineFits format sessionId
      (measuredLimit data rawLength seq maxLineBytes) (explicitRawLength data rawLength)) chunks)
    {piece : Piece} (hpiece : piece ∈ piecesFrom data rawLength seq chunks 0) {line : Text}
    (hline : LineOf format sessionId piece line) :
    LineCarries format sessionId maxLineBytes piece line := by
  obtain ⟨hwritten, hbytes⟩ := byteLength_encoded format hline
  have hproper : Json.isProper
      (dataEvent (N := N) sessionId (linePayload piece.data piece.rawLength piece.seq)) :=
    isProper_dataEvent (isProper_linePayload _ _ _)
  refine ⟨⟨_, _, hwritten, Json.parse_stringify format.toNumberFormat hproper,
    carries_linePayload sessionId piece⟩, ?_⟩
  obtain ⟨hdata, hraw, consumed, hconsumed, hseq⟩ := mem_piecesFrom hpiece
  rw [hchunks.flatten, Nat.zero_add] at hconsumed
  rcases hchunks.fits piece.data hdata with hfits | hpoint
  · have hchunk : piece.data.length ≤ data.length := by
      rw [← hchunks.flatten]
      exact (sublist_flatten_of_mem hdata).length_le
    have hle := lineBytes_le hstreamed hchunk hconsumed hfits
    rw [hbytes, hraw, hseq]
    exact Or.inl hle
  · exact Or.inr hpoint

end Lines

section Frames

variable {N : Type} [IntCast N] {format : IntegerFormat N} {sessionId data : Text}
variable {rawLength : ℕ} {seq : Option ℤ}

def FrameOf (format : IntegerFormat N) (sessionId : Text) (piece : Piece) (frame : List Byte) :
    Prop :=
  encodeUnboundedFrame format sessionId piece.data
    (dataPayloadMeta piece.rawLength piece.seq false) = .ok frame

variable {payload : List (Text × Json N)} {frame : List Byte}

theorem encode_of_unbounded
    (hframe : encodeUnboundedFrame format sessionId data payload = .ok frame) :
    encodeBinaryStreamDataFrame format.toNumberFormat sessionId data payload none =
      .ok (some frame) := by
  rw [encodeUnboundedFrame] at hframe
  split at hframe
  next error hencode => cases hframe
  next written hencode =>
    rw [hencode]
    cases written with
    | some written =>
      cases hframe
      rfl
    | none =>
      unfold encodeBinaryStreamDataFrame at hencode
      simp only [fits, all_none, if_true, Bool.not_true, Bool.false_eq_true, if_false] at hencode
      split_ifs at hencode
      · obtain ⟨bytes, -, hsome⟩ := exists_ok_of_map hencode
        cases hsome
      · cases Except.ok.inj hencode

theorem encodeUnboundedFrame_illFormed (hill : Text.isWellFormed data = false)
    (hjson : encodeBinaryStreamJsonFrame (Json.stringify format.toNumberFormat
      (dataEvent sessionId (Json.setField dataKey (.string data) payload))) = .ok frame) :
    encodeUnboundedFrame format sessionId data payload = .ok frame := by
  rw [encodeUnboundedFrame, encodeBinaryStreamDataFrame, if_pos (by rw [hill]; rfl)]
  dsimp only
  rw [fits, all_none, if_pos rfl, hjson]
  rfl

theorem encodeUnboundedFrame_wellFormed {metadata body : List Byte}
    (hwell : Text.isWellFormed data = true)
    (hmetadata : metadata =
      Text.encodeUtf8 (encodeDataMeta format.toNumberFormat sessionId payload))
    (hmeta : metadata.length ≤ MAX_DATA_META_BYTES)
    (hbody : body = uint16BE metadata.length ++ (metadata ++ Text.encodeUtf8 data))
    (hwidth : body.length < 2 ^ 32) :
    encodeUnboundedFrame format sessionId data payload = .ok (frameBytes (DATA_FRAME, body)) := by
  have hlength : body.length =
      DATA_META_LENGTH_BYTES + metadata.length + (Text.encodeUtf8 data).length := by
    rw [hbody, length_append, length_append, length_uint16BE, ← Nat.add_assoc]
    rfl
  rw [encodeUnboundedFrame, encodeBinaryStreamDataFrame, if_neg (by rw [hwell]; simp), ← hmetadata]
  dsimp only
  rw [if_neg (Nat.not_lt.mpr hmeta), fits, all_none, if_neg (by simp), ← hlength,
    if_neg (Nat.not_le.mpr hwidth), ← hbody]
  rfl

variable {maxFrameBytes : ℕ}

/-- What is written within a bound is what would be written without one. -/
theorem encode_of_bounded
    (hencode : encodeBinaryStreamDataFrame format.toNumberFormat sessionId data payload
      (some maxFrameBytes) = .ok (some frame)) :
    encodeUnboundedFrame format sessionId data payload = .ok frame ∧
      frame.length ≤ maxFrameBytes := by
  rcases encodeDataFrame_cases format.toNumberFormat hencode with
    ⟨hill, hjson⟩ | ⟨hwell, metadata, hmetadata, hmeta, body, hbody, hwidth, hframe⟩
  · refine ⟨encodeUnboundedFrame_illFormed hill hjson, ?_⟩
    rw [encodeBinaryStreamDataFrame, if_pos (by rw [hill]; rfl)] at hencode
    dsimp only at hencode
    rw [(jsonFrame_eq hjson).1, length_frameBytes]
    by_contra hlarge
    rw [if_neg (by simpa [fits] using hlarge)] at hencode
    cases hencode
  · refine ⟨hframe ▸ encodeUnboundedFrame_wellFormed hwell hmetadata hmeta hbody hwidth, ?_⟩
    have hlength : body.length =
        DATA_META_LENGTH_BYTES + metadata.length + (Text.encodeUtf8 data).length := by
      rw [hbody, length_append, length_append, length_uint16BE, ← Nat.add_assoc]
      rfl
    rw [encodeBinaryStreamDataFrame, if_neg (by rw [hwell]; simp), ← hmetadata] at hencode
    dsimp only at hencode
    rw [if_neg (Nat.not_lt.mpr hmeta), ← hlength] at hencode
    rw [hframe, length_frameBytes]
    by_contra hlarge
    rw [if_pos (by simpa [fits] using hlarge)] at hencode
    cases hencode

theorem writeJsonChunkFrames_spec {fits : Text → Prop} {chunks : List Text} {start : ℕ}
    (hchunks : ChunkedFrom data fits start chunks) (hstart : start < data.length)
    {frames : List (List Byte)}
    (hwrite : writeJsonChunkFrames format sessionId data rawLength seq chunks start = .ok frames) :
    List.Forall₂ (FrameOf format sessionId) (piecesFrom data rawLength seq chunks start)
      frames := by
  induction hchunks generalizing frames with
  | done hend => omega
  | @chunk start stop later hlt hle hstop hapart hfits hlater ih =>
    have hlength : start + (slice data start stop).length = stop := by
      rw [length_slice hstop]
      omega
    rw [writeJsonChunkFrames, hlength] at hwrite
    obtain ⟨frame, hframe, hwrite⟩ := exists_ok_of_bind hwrite
    rw [piecesFrom, hlength]
    by_cases hmore : stop < data.length
    · rw [if_pos hmore] at hwrite
      obtain ⟨rest, hrest, hwrite⟩ := exists_ok_of_bind hwrite
      cases hwrite
      exact .cons hframe (ih hmore hrest)
    · rw [if_neg hmore] at hwrite
      cases hwrite
      cases hlater with
      | done hend => exact .cons hframe .nil
      | chunk hlt hle hstop hapart hfits hlater =>
        rcases hlt with hlt | hnil
        · omega
        · rw [hnil] at hstart
          cases hstart

theorem sliceStop_spec {chunkChars start stop : ℕ}
    (hstart : start < data.length ∨ data = [] ∧ start = 0)
    (hsame : stop = max (nextSafeSplitIndex data start)
      (clampToSafeSplitIndex data start (min data.length (start + chunkChars)))) :
    (start < stop ∨ data = []) ∧ start ≤ stop ∧ stop ≤ data.length ∧ Apart data stop ∧
      ((slice data start stop).length ≤ chunkChars ∨
        (Text.codePoints (slice data start stop)).length = 1) := by
  rcases hstart with hstart | ⟨rfl, rfl⟩
  · obtain ⟨hin, hapart, hpoint⟩ := nextSafeSplitIndex_spec hstart
    have hlt := lt_nextSafeSplitIndex data hstart
    have hclamp := clampToSafeSplitIndex_le data start (min data.length (start + chunkChars))
    by_cases hnext : clampToSafeSplitIndex data start (min data.length (start + chunkChars)) ≤
        nextSafeSplitIndex data start
    · rw [Nat.max_eq_left hnext] at hsame
      rw [hsame]
      exact ⟨Or.inl hlt, hlt.le, hin, hapart, Or.inr hpoint⟩
    · rw [Nat.max_eq_right (Nat.le_of_not_le hnext)] at hsame
      rw [hsame]
      have hbound : clampToSafeSplitIndex data start (min data.length (start + chunkChars)) ≤
          data.length := by omega
      refine ⟨Or.inl (by omega), by omega, hbound, apart_clamp (Nat.min_le_left _ _) (by omega),
        Or.inl ?_⟩
      rw [length_slice hbound]
      omega
  · have hstop : stop = 0 := by
      rw [hsame]
      simp [nextSafeSplitIndex, clampToSafeSplitIndex]
    subst hstop
    exact ⟨Or.inr rfl, Nat.le_refl 0, Nat.le_refl 0, apart_zero [], Or.inl (Nat.zero_le _)⟩

/-- The chunks cut by the units they may hold. -/
theorem writeSliceFrames_spec {chunkChars start : ℕ}
    (hstart : start < data.length ∨ data = [] ∧ start = 0) {frames : List (List Byte)}
    (hwrite : writeSliceFrames format sessionId data rawLength seq chunkChars start = .ok frames) :
    ∃ chunks, chunks ≠ [] ∧ ChunkedFrom data (fun chunk => chunk.length ≤ chunkChars) start chunks ∧
      List.Forall₂ (FrameOf format sessionId) (piecesFrom data rawLength seq chunks start)
        frames := by
  fun_induction writeSliceFrames format sessionId data rawLength seq chunkChars start
    generalizing frames with
  | case1 start stop error hframe => cases hwrite
  | case2 start stop frame hframe hmore ih =>
    obtain ⟨rest, hrest, hframes⟩ := exists_ok_of_map hwrite
    obtain ⟨later, -, hlater, hpieces⟩ := ih (Or.inl hmore) hrest
    obtain ⟨hlt, hle, hin, hapart, hfits⟩ := sliceStop_spec hstart (rfl : stop = _)
    have hlength : start + (slice data start stop).length = stop := by
      rw [length_slice hin]
      omega
    subst hframes
    refine ⟨slice data start stop :: later, cons_ne_nil _ _,
      .chunk hlt hle hin hapart hfits hlater, ?_⟩
    rw [piecesFrom, hlength]
    exact .cons hframe hpieces
  | case3 start stop frame hframe hmore =>
    cases hwrite
    obtain ⟨hlt, hle, hin, hapart, hfits⟩ := sliceStop_spec hstart (rfl : stop = _)
    have hlength : start + (slice data start stop).length = stop := by
      rw [length_slice hin]
      omega
    refine ⟨[slice data start stop], cons_ne_nil _ _,
      .chunk hlt hle hin hapart hfits (.done (Nat.le_of_not_lt hmore)), ?_⟩
    rw [piecesFrom, hlength]
    exact .cons hframe .nil

/-- A frame is within the limit, or holds a single code point or nothing. -/
def FrameSmall (maxFrameBytes : ℕ) (piece : Piece) (frame : List Byte) : Prop :=
  frame.length ≤ maxFrameBytes ∨ (Text.codePoints piece.data).length = 1 ∨ piece.data = []

theorem overhead_le_worstCase (hstreamed : Streamed data seq) {chunk : Text}
    (hchunk : chunk.length ≤ data.length) {consumed : ℕ} (hconsumed : consumed ≤ data.length) :
    binaryStreamDataFrameOverheadBytes format sessionId
      (dataPayloadMeta (chunkRawLength data rawLength seq chunk) (chunkEndSeq data seq consumed)
        false) ≤ worstCaseOverhead format sessionId data rawLength seq := by
  rw [worstCaseOverhead]
  by_cases hcarries : carriesMetadata data rawLength seq = true
  · have hmeta := metaBytes_chunk_le format hstreamed rawLength hchunk hconsumed
    have hle := overhead_le format sessionId (chunkRawLength data rawLength seq chunk)
      (chunkEndSeq data seq consumed)
    rw [if_pos hcarries, overhead_worst]
    omega
  · rw [if_neg hcarries]
    rw [carriesMetadata, Bool.not_eq_true, Bool.or_eq_false_iff, isSome_eq_false_iff,
      isSome_eq_false_iff, isNone_iff_eq_none, isNone_iff_eq_none] at hcarries
    have hsame : chunkRawLength data rawLength seq chunk = none ∧
        chunkEndSeq data seq consumed = none := by
      rw [chunkRawLength, carriesMetadata, hcarries.1, hcarries.2]
      exact ⟨rfl, rfl⟩
    rw [hsame.1, hsame.2]
    exact Nat.le_refl _

theorem frameSmall_of_slice (hstreamed : Streamed data seq) {chunk : Text}
    (hwell : Text.isWellFormed chunk) (hchunk : chunk.length ≤ data.length) {consumed : ℕ}
    (hconsumed : consumed ≤ data.length)
    (hchars : chunk.length ≤ chunkChars format sessionId data maxFrameBytes rawLength seq)
    {frame : List Byte} (hframe : FrameOf format sessionId
      ⟨chunk, chunkRawLength data rawLength seq chunk, chunkEndSeq data seq consumed⟩ frame) :
    frame.length ≤ maxFrameBytes ∨ chunk.length ≤ 1 := by
  have hoverhead := @overhead_le_worstCase N _ format sessionId data rawLength seq hstreamed chunk
    hchunk consumed hconsumed
  have hbytes := Text.byteLength_le chunk
  rw [chunkChars] at hchars
  rcases length_frame format (encode_of_unbounded hframe) with ⟨hill, -⟩ | ⟨-, hlength⟩
  · rw [hwell] at hill
    cases hill
  · dsimp only at hlength
    rw [hlength]
    by_cases hroom : worstCaseOverhead format sessionId data rawLength seq + 3 ≤ maxFrameBytes
    · exact Or.inl (by omega)
    · exact Or.inr (by omega)

theorem codePoints_of_short {text : Text} (hshort : text.length ≤ 1) :
    (Text.codePoints text).length = 1 ∨ text = [] := by
  match text, hshort with
  | [], _ => exact Or.inr rfl
  | [unit], _ => exact Or.inl rfl

theorem length_of_mem_chunks {fits : Text → Prop} {chunks : List Text}
    (hchunks : Chunks data fits chunks) {chunk : Text} (hchunk : chunk ∈ chunks) :
    chunk.length ≤ data.length := by
  rw [← hchunks.flatten]
  exact (sublist_flatten_of_mem hchunk).length_le

/-- What is written of a piece of the data: the frame, and how long it is. -/
def WrittenAs (format : IntegerFormat N) (sessionId : Text) (maxFrameBytes : ℕ) (piece : Piece)
    (frame : List Byte) : Prop :=
  FrameOf format sessionId piece frame ∧ FrameSmall maxFrameBytes piece frame

section

variable (hstreamed : Streamed data seq) {maxFrameBytes : ℕ} {frames : List (List Byte)}
include hstreamed

theorem writtenAs_slices (hwell : Text.isWellFormed data) {chunks : List Text}
    (hfrom : ChunkedFrom data (fun chunk => chunk.length ≤
      chunkChars format sessionId data maxFrameBytes rawLength seq) 0 chunks)
    (hpieces : List.Forall₂ (FrameOf format sessionId)
      (piecesFrom data rawLength seq chunks 0) frames) :
    List.Forall₂ (WrittenAs format sessionId maxFrameBytes)
      (piecesFrom data rawLength seq chunks 0) frames := by
  refine forall₂_of_mem hpieces ?_
  rintro ⟨chunk, raw, position⟩ hpiece frame hframe
  obtain ⟨hchunk, hraw, consumed, hconsumed, hseq⟩ := mem_piecesFrom hpiece
  rw [hfrom.toChunks.flatten, Nat.zero_add] at hconsumed
  dsimp only at hchunk hraw hseq
  subst hraw hseq
  refine ⟨hframe, ?_⟩
  rcases hfrom.each chunk hchunk with hchars | hpoint
  · rcases frameSmall_of_slice hstreamed (hfrom.wellFormed hwell chunk hchunk)
      (length_of_mem_chunks hfrom.toChunks hchunk) hconsumed hchars hframe with hle | hshort
    · exact Or.inl hle
    · exact Or.inr (codePoints_of_short hshort)
  · exact Or.inr (Or.inl hpoint)

theorem writtenAs_jsonChunks
    {chunks : List Text} (hfrom : ChunkedFrom data (LineFits format sessionId
      (max 1 (maxFrameBytes - 96)) (explicitRawLength data rawLength)) 0 chunks)
    (hpieces : List.Forall₂ (FrameOf format sessionId)
      (piecesFrom data rawLength seq chunks 0) frames) :
    List.Forall₂ (WrittenAs format sessionId maxFrameBytes)
      (piecesFrom data rawLength seq chunks 0) frames := by
  refine forall₂_of_mem hpieces ?_
  rintro ⟨chunk, raw, position⟩ hpiece frame hframe
  obtain ⟨hchunk, hraw, consumed, hconsumed, hseq⟩ := mem_piecesFrom hpiece
  rw [hfrom.toChunks.flatten, Nat.zero_add] at hconsumed
  dsimp only at hchunk hraw hseq
  subst hraw hseq
  refine ⟨hframe, ?_⟩
  rcases hfrom.each chunk hchunk with hfits | hpoint
  · have hline := lineBytes_le_of_allowance hstreamed
      (length_of_mem_chunks hfrom.toChunks hchunk) hconsumed hfits
    have hle := length_frame_le format (encode_of_unbounded hframe)
    dsimp only at hle
    exact Or.inl (by omega)
  · exact Or.inr (Or.inl hpoint)

/-- The frames written carry the pieces of the data. -/
theorem writeBinaryStreamDataEvents_spec
    (hwrite : writeBinaryStreamDataEvents format sessionId data maxFrameBytes rawLength seq false =
      .ok frames) :
    ∃ fits chunks, chunks ≠ [] ∧ Chunks data fits chunks ∧
      List.Forall₂ (WrittenAs format sessionId maxFrameBytes)
        (piecesFrom data rawLength seq chunks 0) frames := by
  rw [writeBinaryStreamDataEvents, if_neg Bool.false_ne_true] at hwrite
  split at hwrite
  next error hencode => cases hwrite
  next whole hencode =>
    obtain ⟨hframe, hle⟩ := encode_of_bounded hencode
    have hseq : chunkEndSeq data seq (0 + data.length) = seq := by
      rw [chunkEndSeq, Nat.zero_add]
      simp
    obtain rfl := Except.ok.inj hwrite
    refine ⟨fun _ => True, [data], cons_ne_nil _ _, (chunkedFrom_whole trivial).toChunks,
      .cons ⟨?_, Or.inl hle⟩ .nil⟩
    rw [FrameOf, hseq]
    exact hframe
  next hencode =>
    by_cases hwell : Text.isWellFormed data = true
    · rw [if_pos hwell] at hwrite
      have hstart : 0 < data.length ∨ data = [] ∧ (0 : ℕ) = 0 := by
        rw [← length_eq_zero_iff]
        omega
      obtain ⟨chunks, hsome, hfrom, hpieces⟩ := writeSliceFrames_spec hstart hwrite
      exact ⟨_, chunks, hsome, hfrom.toChunks, writtenAs_slices hstreamed hwell hfrom hpieces⟩
    · rw [if_neg hwell] at hwrite
      obtain ⟨chunks, hchunks, hwrite⟩ := exists_ok_of_bind hwrite
      obtain ⟨hfrom, -⟩ := splitStreamDataForNdjson_spec hchunks
      have hnonempty : 0 < data.length := by
        by_contra hempty
        have hnil : data = [] := length_eq_zero_iff.mp (by omega)
        rw [hnil] at hwell
        exact hwell rfl
      have hsome : chunks ≠ [] := by
        rintro rfl
        have hdata := hfrom.toChunks.flatten
        rw [← hdata] at hnonempty
        exact absurd hnonempty (Nat.lt_irrefl 0)
      exact ⟨_, chunks, hsome, hfrom.toChunks,
        writtenAs_jsonChunks hstreamed hfrom (writeJsonChunkFrames_spec hfrom hnonempty hwrite)⟩

end

theorem frameCarries_of_frameOf {piece : Piece} (hframe : FrameOf format sessionId piece frame)
    (hsmall : FrameSmall maxFrameBytes piece frame) :
    FrameCarries format sessionId maxFrameBytes piece frame := by
  obtain ⟨written, hwrites⟩ := writes_frame format (encode_of_unbounded hframe)
  exact ⟨⟨_, written, hwrites, carries_framePayload sessionId piece⟩, hsmall⟩

end Frames

end Wakii.StreamDataSplit
