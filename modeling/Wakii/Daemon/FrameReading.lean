import Mathlib.Data.List.TakeDrop
import Wakii.Daemon.BinaryFraming

/-!
# The reader sees the stream, not its chunks

The chunk list of the reader always joins to the unread end of the stream and
its counter is the length of that end.  So the frame loop cuts exactly the
frames that a reader of the whole stream would cut.
-/

namespace Wakii.BinaryFraming

open List

open FrameStream (Cut Outcome)

section Bytes

theorem readUInt32BE_uint32BE {value : ℕ} (hvalue : value < 2 ^ 32) (kind : Byte)
    (rest : List Byte) : readUInt32BE (kind :: uint32BE value ++ rest) 1 = value := by
  simp only [readUInt32BE, uint32BE, cons_append, nil_append, getD_cons_succ,
    getD_cons_zero, Fin.val_ofNat]
  omega

theorem readUInt16BE_uint16BE {value : ℕ} (hvalue : value < 2 ^ 16) (rest : List Byte) :
    readUInt16BE (uint16BE value ++ rest) 0 = value := by
  simp only [readUInt16BE, uint16BE, cons_append, nil_append, getD_cons_succ,
    getD_cons_zero, Fin.val_ofNat]
  omega

theorem length_uint32BE (value : ℕ) : (uint32BE value).length = 4 := rfl

theorem length_uint16BE (value : ℕ) : (uint16BE value).length = 2 := rfl

theorem getD_append_left {bytes later : List Byte} {index : ℕ} (hindex : index < bytes.length) :
    (bytes ++ later).getD index 0 = bytes.getD index 0 := by
  rw [getD_eq_getElem?_getD, getElem?_append_left hindex, getD_eq_getElem?_getD]

theorem readUInt32BE_append {bytes : List Byte} (hlength : FRAME_HEADER_BYTES ≤ bytes.length)
    (later : List Byte) : readUInt32BE (bytes ++ later) 1 = readUInt32BE bytes 1 := by
  rw [FRAME_HEADER_BYTES] at hlength
  rw [readUInt32BE, readUInt32BE, getD_append_left (by omega), getD_append_left (by omega),
    getD_append_left (by omega), getD_append_left (by omega)]

end Bytes

section Cutting

variable (options : ReaderOptions)

/-- The front of the received bytes, as one iteration of the frame loop sees it. -/
def cut (input : List Byte) : Cut Byte (Byte × List Byte) (Byte × ℕ) :=
  if input.length < FRAME_HEADER_BYTES then .more
  else
    let kind := input.getD 0 0
    let bodyBytes := readUInt32BE input 1
    if isInvalidHeader options kind bodyBytes then .invalid (kind, bodyBytes)
    else if input.length < FRAME_HEADER_BYTES + bodyBytes then .more
    else
      .frame (kind, (input.take (FRAME_HEADER_BYTES + bodyBytes)).drop FRAME_HEADER_BYTES)
        (input.drop (FRAME_HEADER_BYTES + bodyBytes))

variable {options} {input rest : List Byte} {frame : Byte × List Byte} {error : Byte × ℕ}

theorem cut_frame (hcut : cut options input = .frame frame rest) :
    FRAME_HEADER_BYTES + readUInt32BE input 1 ≤ input.length ∧
      isInvalidHeader options (input.getD 0 0) (readUInt32BE input 1) = false ∧
      frame = (input.getD 0 0,
        (input.take (FRAME_HEADER_BYTES + readUInt32BE input 1)).drop FRAME_HEADER_BYTES) ∧
      rest = input.drop (FRAME_HEADER_BYTES + readUInt32BE input 1) := by
  unfold cut at hcut
  dsimp only at hcut
  split_ifs at hcut with hshort hinvalid hcutOff
  simp only [Cut.frame.injEq] at hcut
  exact ⟨by omega, by simpa using hinvalid, hcut.1.symm, hcut.2.symm⟩

theorem cut_invalid (hcut : cut options input = .invalid error) :
    FRAME_HEADER_BYTES ≤ input.length ∧
      isInvalidHeader options (input.getD 0 0) (readUInt32BE input 1) ∧
      error = (input.getD 0 0, readUInt32BE input 1) := by
  unfold cut at hcut
  dsimp only at hcut
  split_ifs at hcut with hshort hinvalid hcutOff
  simp only [Cut.invalid.injEq] at hcut
  exact ⟨by omega, hinvalid, hcut.symm⟩

theorem cut_more (hcut : cut options input = .more) : input.length < FRAME_HEADER_BYTES ∨
      isInvalidHeader options (input.getD 0 0) (readUInt32BE input 1) = false ∧
        input.length < FRAME_HEADER_BYTES + readUInt32BE input 1 := by
  unfold cut at hcut
  dsimp only at hcut
  split_ifs at hcut with hshort hinvalid hcutOff
  · exact Or.inl hshort
  · exact Or.inr ⟨by simpa using hinvalid, hcutOff⟩

variable (options)

def wireFormat : FrameStream.Format Byte (Byte × List Byte) (Byte × ℕ) where
  cut := cut options
  rest_lt := by
    intro input frame rest hcut
    obtain ⟨hlength, -, -, rfl⟩ := cut_frame hcut
    rw [FRAME_HEADER_BYTES] at *
    rw [length_drop]
    omega
  frame_append := by
    intro input frame rest hcut later
    obtain ⟨hlength, hvalid, rfl, rfl⟩ := cut_frame hcut
    have hheader : FRAME_HEADER_BYTES ≤ input.length := by omega
    have hkind : (input ++ later).getD 0 0 = input.getD 0 0 :=
      getD_append_left (by rw [FRAME_HEADER_BYTES] at hheader; omega)
    have hnotShort : ¬ (input ++ later).length < FRAME_HEADER_BYTES := by
      rw [length_append]
      omega
    have hnotPartial : ¬ (input ++ later).length < FRAME_HEADER_BYTES + readUInt32BE input 1 := by
      rw [length_append]
      omega
    rw [cut, if_neg hnotShort]
    simp only [hkind, readUInt32BE_append hheader, hvalid, Bool.false_eq_true, if_false,
      if_neg hnotPartial]
    rw [take_append_of_le_length hlength, drop_append_of_le_length hlength]
  invalid_append := by
    intro input error hcut later
    obtain ⟨hheader, hinvalid, rfl⟩ := cut_invalid hcut
    have hkind : (input ++ later).getD 0 0 = input.getD 0 0 :=
      getD_append_left (by rw [FRAME_HEADER_BYTES] at hheader; omega)
    have hnotShort : ¬ (input ++ later).length < FRAME_HEADER_BYTES := by
      rw [length_append]
      omega
    rw [cut, if_neg hnotShort]
    simp only [hkind, readUInt32BE_append hheader, hinvalid, if_true]

end Cutting

section Reader

variable {N : Type} (format : Json.NumberFormat N) (options : ReaderOptions)

/-- The event one frame delivers, if any. -/
def delivered (frame : Byte × List Byte) : List (ReaderCall N) :=
  ((deliver format frame.1 frame.2).map .event).toList

def fatalCalls : Outcome Byte (Byte × ℕ) → List (ReaderCall N)
  | .unread _ => []
  | .stopped (kind, bodyBytes) => [.fatal kind bodyBytes]

/-- The calls made while reading on from an outcome; a stopped reader makes none. -/
def callsOf (result : List (Byte × List Byte) × Outcome Byte (Byte × ℕ)) :
    Outcome Byte (Byte × ℕ) → List (ReaderCall N)
  | .unread _ => result.1.flatMap (delivered format) ++ fatalCalls result.2
  | .stopped _ => []

/-- The reader holds exactly the unread end of the stream. -/
structure Holds (state : ReaderState) (input : List Byte) : Prop where
  chunks : state.chunks.flatMap Buffer.bytes = input
  bufferedBytes : state.bufferedBytes = input.length
  failed : state.failed = false

def Represents (state : ReaderState) : Outcome Byte (Byte × ℕ) → Prop
  | .unread input => Holds state input
  | .stopped _ => state.failed = true

theorem holds_create : Holds createBinaryStreamFrameReader [] := ⟨rfl, rfl, rfl⟩

variable {options} {state : ReaderState} {input : List Byte} {bytes : ℕ}

section

variable (hholds : Holds state input)
include hholds

theorem holds_contiguousHead (hbytes : bytes ≤ input.length) :
    Holds (state.contiguousHead options bytes) input ∧
      bytes ≤ (state.contiguousHead options bytes).head.length := by
  rw [ReaderState.contiguousHead]
  split
  next hshort =>
    have hconcat : (state.chunks.flatMap Buffer.bytes).takeD state.bufferedBytes 0 = input := by
      rw [hholds.chunks, hholds.bufferedBytes, takeD_eq_take _ le_rfl, take_length]
    have hjoined : (Buffer.concat options.poolSize state.chunks state.bufferedBytes).bytes =
        input := hconcat
    refine ⟨⟨?_, hholds.bufferedBytes, hholds.failed⟩, ?_⟩
    · rw [flatMap_singleton]
      exact hjoined
    · rw [ReaderState.head, head?_cons, Option.getD_some, Buffer.length, hjoined]
      exact hbytes
  next hlong => exact ⟨hholds, by omega⟩

theorem input_eq_head_append (hpos : 0 < state.head.length) :
    input = state.head.bytes ++ state.chunks.tail.flatMap Buffer.bytes := by
  rw [← hholds.chunks]
  cases hchunks : state.chunks with
  | nil =>
    rw [ReaderState.head, hchunks] at hpos
    exact absurd hpos (Nat.lt_irrefl 0)
  | cons head tail =>
    rw [ReaderState.head, hchunks]
    rfl

theorem holds_consume (hpos : 0 < bytes)
    (hbytes : bytes ≤ state.head.length) : Holds (state.consume bytes) (input.drop bytes) := by
  have hinput := input_eq_head_append hholds (by omega)
  refine ⟨?_, ?_, hholds.failed⟩
  · rw [hinput, drop_append_of_le_length hbytes, ReaderState.consume]
    dsimp only
    split
    next hwhole =>
      rw [Buffer.length] at hwhole
      rw [← hwhole, drop_length, nil_append]
    next hpart => rfl
  · rw [ReaderState.consume, length_drop, hholds.bufferedBytes]

theorem holds_ownPendingHead : Holds (state.ownPendingHead options) input := by
  rw [ReaderState.ownPendingHead]
  split
  next => exact hholds
  next head rest hchunks =>
    split
    next =>
      refine ⟨?_, hholds.bufferedBytes, hholds.failed⟩
      rw [← hholds.chunks, hchunks]
      rfl
    next => exact hholds

theorem header_contiguousHead (hheader : FRAME_HEADER_BYTES ≤ input.length) :
    (state.contiguousHead options FRAME_HEADER_BYTES).head.bytes.getD 0 0 = input.getD 0 0 ∧
      readUInt32BE (state.contiguousHead options FRAME_HEADER_BYTES).head.bytes 1 =
        readUInt32BE input 1 := by
  obtain ⟨hframed, hlength⟩ := @holds_contiguousHead options _ _ _ hholds hheader
  have hpos : 0 < (state.contiguousHead options FRAME_HEADER_BYTES).head.length :=
    lt_of_lt_of_le (by decide) hlength
  have hinput := input_eq_head_append hframed hpos
  rw [hinput]
  exact ⟨(getD_append_left hpos).symm, (readUInt32BE_append hlength _).symm⟩

end

variable (options)

section

variable (hholds : Holds state input)
include hholds

theorem readFrames_short (hshort : input.length < FRAME_HEADER_BYTES) :
    readFrames format options state = (state, []) := by
  rw [readFrames, if_neg]
  rw [hholds.bufferedBytes]
  omega

theorem readFrames_eq (hheader : FRAME_HEADER_BYTES ≤ input.length) :
    readFrames format options state =
      if isInvalidHeader options (input.getD 0 0) (readUInt32BE input 1) then
        (⟨[], 0, true⟩, [.fatal (input.getD 0 0) (readUInt32BE input 1)])
      else if input.length < FRAME_HEADER_BYTES + readUInt32BE input 1 then
        (state.contiguousHead options FRAME_HEADER_BYTES, [])
      else
        let frameBytes := FRAME_HEADER_BYTES + readUInt32BE input 1
        let whole := (state.contiguousHead options FRAME_HEADER_BYTES).contiguousHead options
          frameBytes
        let next := readFrames format options (whole.consume frameBytes)
        (next.1, ((deliver format (input.getD 0 0)
          ((whole.head.bytes.take frameBytes).drop FRAME_HEADER_BYTES)).map .event).toList ++
            next.2) := by
  obtain ⟨hkind, hlength⟩ := @header_contiguousHead options _ _ hholds hheader
  rw [readFrames, hholds.bufferedBytes, if_pos hheader]
  dsimp only
  rw [hkind, hlength, bufferedBytes_contiguousHead, hholds.bufferedBytes]

/-- The frame loop reads what the whole input holds. -/
theorem readFrames_spec :
    Represents (readFrames format options state).1 (FrameStream.read (wireFormat options) input).2 ∧
      (readFrames format options state).2 =
        callsOf format (FrameStream.read (wireFormat options) input) (.unread input) := by
  induction input using FrameStream.read.induct (wireFormat options) generalizing state with
  | case1 input hcut =>
    rw [FrameStream.read_more _ hcut]
    rcases cut_more hcut with hshort | ⟨hvalid, hcutOff⟩
    · rw [readFrames_short format options hholds hshort]
      exact ⟨hholds, rfl⟩
    · by_cases hshort : input.length < FRAME_HEADER_BYTES
      · rw [readFrames_short format options hholds hshort]
        exact ⟨hholds, rfl⟩
      · rw [readFrames_eq format options hholds (by omega), hvalid, if_neg Bool.false_ne_true,
          if_pos hcutOff]
        exact ⟨(holds_contiguousHead hholds (by omega)).1, rfl⟩
  | case2 input frame rest hcut ih =>
    obtain ⟨hlength, hvalid, hframe, hrest⟩ := cut_frame hcut
    have hheader : FRAME_HEADER_BYTES ≤ input.length := by omega
    obtain ⟨hwhole, hhead⟩ := @holds_contiguousHead options _ _ _
      (@holds_contiguousHead options _ _ _ hholds hheader).1 hlength
    have hpos : 0 < FRAME_HEADER_BYTES + readUInt32BE input 1 := by
      rw [FRAME_HEADER_BYTES]
      omega
    have hnext := holds_consume hwhole hpos hhead
    rw [← hrest] at hnext
    have hbody := input_eq_head_append hwhole (by omega)
    have hfront := congrArg (List.take (FRAME_HEADER_BYTES + readUInt32BE input 1)) hbody
    rw [take_append_of_le_length hhead] at hfront
    obtain ⟨hrepresents, hcalls⟩ := ih hnext
    rw [FrameStream.read_frame _ hcut, readFrames_eq format options hholds hheader, hvalid,
      if_neg Bool.false_ne_true, if_neg (by omega)]
    refine ⟨hrepresents, ?_⟩
    dsimp only
    rw [hcalls, ← hfront, hframe, callsOf, callsOf, flatMap_cons, append_assoc]
    rfl
  | case3 input error hcut =>
    obtain ⟨hheader, hinvalid, rfl⟩ := cut_invalid hcut
    rw [FrameStream.read_invalid _ hcut, readFrames_eq format options hholds hheader,
      if_pos hinvalid]
    exact ⟨rfl, rfl⟩

theorem holds_push (chunk : Buffer) : Holds (state.push chunk) (input ++ chunk.bytes) := by
  refine ⟨?_, ?_, hholds.failed⟩
  · rw [ReaderState.push, flatMap_append, hholds.chunks, flatMap_singleton]
  · rw [ReaderState.push, hholds.bufferedBytes, length_append]
    rfl

end

/-- A chunk is read after the unread end of what came before it. -/
theorem feed_spec {outcome : Outcome Byte (Byte × ℕ)} (hstate : Represents state outcome)
    (hcut : ∀ input, outcome = .unread input → cut options input = .more) (chunk : Buffer) :
    Represents (feed format options state chunk).1
        (FrameStream.feed (wireFormat options) outcome chunk.bytes).2 ∧
      (feed format options state chunk).2 =
        callsOf format (FrameStream.feed (wireFormat options) outcome chunk.bytes) outcome := by
  cases outcome with
  | stopped error =>
    have hfailed : state.failed = true := hstate
    rw [feed, hfailed, Bool.true_or, if_pos rfl]
    exact ⟨hfailed, rfl⟩
  | unread input =>
    have hholds : Holds state input := hstate
    rw [feed, hholds.failed, Bool.false_or, FrameStream.feed]
    by_cases hempty : chunk.length = 0
    · have hbytes : chunk.bytes = [] := length_eq_zero_iff.mp hempty
      rw [if_pos (by simpa using hempty), hbytes, append_nil,
        FrameStream.read_more (wireFormat options) (hcut input rfl)]
      exact ⟨hholds, rfl⟩
    rw [if_neg (by simpa using hempty)]
    obtain ⟨hrepresents, hcalls⟩ := readFrames_spec format options (holds_push hholds chunk)
    cases hread : (FrameStream.read (wireFormat options) (input ++ chunk.bytes)).2 with
    | unread rest =>
      rw [hread] at hrepresents
      have hrest : Holds (readFrames format options (state.push chunk)).1 rest := hrepresents
      dsimp only
      rw [hrest.failed, if_neg Bool.false_ne_true]
      exact ⟨holds_ownPendingHead hrest, hcalls⟩
    | stopped error =>
      rw [hread] at hrepresents
      have hfailed : (readFrames format options (state.push chunk)).1.failed = true := hrepresents
      dsimp only
      rw [hfailed, if_pos rfl]
      exact ⟨hfailed, hcalls⟩

theorem callsOf_append (frames : List (Byte × List Byte)) (outcome middle : Outcome Byte (Byte × ℕ))
    (result : List (Byte × List Byte) × Outcome Byte (Byte × ℕ))
    (hstopped : ∀ error, outcome = .stopped error → middle = .stopped error)
    (hresult : ∀ error, middle = .stopped error → result = ([], .stopped error)) :
    callsOf format (frames ++ result.1, result.2) outcome =
      callsOf format (frames, middle) outcome ++ callsOf format result middle := by
  cases outcome with
  | stopped error =>
    rw [hstopped error rfl]
    rfl
  | unread input =>
    cases middle with
    | unread rest =>
      simp only [callsOf, fatalCalls, flatMap_append, append_nil, append_assoc]
    | stopped error =>
      rw [hresult error rfl, callsOf, callsOf, callsOf, append_nil, append_nil]

/-- For any cut of the stream into chunks the calls depend on the stream alone. -/
theorem feedAll_spec {outcome : Outcome Byte (Byte × ℕ)} (hstate : Represents state outcome)
    (hcut : ∀ input, outcome = .unread input → cut options input = .more)
    (chunks : List Buffer) :
    feedAll format options state chunks = callsOf format
        (FrameStream.feedAll (wireFormat options) outcome (chunks.map Buffer.bytes)) outcome := by
  induction chunks generalizing state outcome with
  | nil =>
    cases outcome with
    | unread input => rfl
    | stopped error => rfl
  | cons chunk chunks ih =>
    obtain ⟨hnext, hcalls⟩ := feed_spec format options hstate hcut chunk
    have hnextCut : ∀ input,
        (FrameStream.feed (wireFormat options) outcome chunk.bytes).2 = .unread input →
          cut options input = .more := by
      intro input hunread
      cases outcome with
      | unread earlier => exact FrameStream.cut_unread (wireFormat options) hunread
      | stopped error => cases hunread
    have hstopped : ∀ error, outcome = .stopped error →
        (FrameStream.feed (wireFormat options) outcome chunk.bytes).2 = .stopped error := by
      rintro error rfl
      rfl
    have hrest : ∀ error,
        (FrameStream.feed (wireFormat options) outcome chunk.bytes).2 = .stopped error →
          FrameStream.feedAll (wireFormat options)
              (FrameStream.feed (wireFormat options) outcome chunk.bytes).2
              (chunks.map Buffer.bytes) = ([], .stopped error) := by
      intro error hmiddle
      rw [hmiddle, FrameStream.feedAll_stopped]
    rw [feedAll, hcalls, ih hnext hnextCut, map_cons, FrameStream.feedAll]
    exact (callsOf_append format _ _ _ _ hstopped hrest).symm

theorem calls_eq_read (chunks : List Buffer) :
    feedAll format options createBinaryStreamFrameReader chunks =
      callsOf format (FrameStream.read (wireFormat options) (chunks.flatMap Buffer.bytes))
        (.unread []) := by
  have hcut : (wireFormat options).cut [] = .more := rfl
  have hstate : Represents createBinaryStreamFrameReader (.unread []) := holds_create
  have hmore : ∀ input, (.unread [] : Outcome Byte (Byte × ℕ)) = .unread input →
      cut options input = .more := by
    rintro input ⟨⟩
    rfl
  rw [feedAll_spec format options hstate hmore chunks,
    FrameStream.feedAll_eq_read (wireFormat options) (chunks.map Buffer.bytes) hcut,
    nil_append, flatMap_def]

/-- Any bytes in any chunks are read as they are in one chunk. -/
theorem feedAll_one_chunk (chunks : List Buffer) (backing : ℕ) :
    feedAll format options createBinaryStreamFrameReader chunks =
      feedAll format options createBinaryStreamFrameReader
        [⟨chunks.flatMap Buffer.bytes, backing⟩] := by
  rw [calls_eq_read, calls_eq_read, flatMap_singleton]

end Reader

end Wakii.BinaryFraming
