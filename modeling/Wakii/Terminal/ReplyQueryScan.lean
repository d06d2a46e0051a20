import Wakii.Library.TextSearch
import Wakii.Library.TokenStream
import Wakii.Terminal.OscColorQuery

/-!
# Replayed terminal queries

A late view answers the queries it missed.  They are found chunk by chunk: a candidate
that a chunk ends in the middle of is carried with its place in the stream, and taken up
by the next chunk only where that chunk continues it.
-/

namespace Wakii.Terminal.ReplyQueryScan

open Option List

open EscapeTail (BACKSLASH CAN SUB)
open OscColorQuery (ParseResult QUESTION_MARK SEMICOLON parseTerminalOscColorQuery)
open TokenStream (Scanner)

def MAX_PENDING_QUERY_CHARS : ℕ := 4096

structure TerminalReplyQuerySequence where
  data : Text
  startSeq : ℤ
  endSeq : ℤ
  deriving DecidableEq

structure TerminalReplyQueryScanState where
  pending : Text
  pendingStartSeq : Option ℤ
  deriving DecidableEq

def EMPTY_TERMINAL_REPLY_QUERY_SCAN_STATE : TerminalReplyQueryScanState := ⟨[], none⟩

def isParameter (code : CodeUnit) : Bool := isDigit code || code == SEMICOLON

/-- `DEVICE_ATTRIBUTES_QUERY_RE`, behind the introducer. -/
def isDeviceAttributesQuery (body : Text) : Bool :=
  let params := if [some QUESTION_MARK, some 0x3e, some 0x3d].contains body.head? then body.tail
    else body
  params.dropWhile isParameter = [0x63]

/-- `MODE_QUERY_RE`, behind the introducer. -/
def isModeQuery (body : Text) : Bool :=
  let params := if body.head? = some QUESTION_MARK then body.tail else body
  params.takeWhile isParameter ≠ [] && params.dropWhile isParameter = [0x24, 0x70]

/-- The other queries, behind the introducer. -/
def LITERAL_QUERIES : List Text :=
  ["5n", "6n", "?6n", "?996n", ">q", "14t", "16t", "18t", "?u", "?2031h", "?2031l"].map
    Text.ofString

/-- A sequence that starts with `ESC [`. -/
def isReplayableCsi (sequence : Text) : Bool :=
  let body := sequence.drop 2
  isDeviceAttributesQuery body || isModeQuery body || LITERAL_QUERIES.contains body

def findCsiEnd : Text → Option ℕ
  | [] => none
  | code :: rest =>
    if isCsiFinal code then some 1
    else if code = ESCAPE ∨ code = CAN ∨ code = SUB then some 0
    else (findCsiEnd rest).map (· + 1)

def STRING_TERMINATOR : Text := [ESCAPE, BACKSLASH]

/-- How long the candidate is and whether it is a query, once its end is known. -/
def decideCandidate (candidate : Text) : Option (ℕ × Bool) :=
  let behind := candidate.drop 2
  match candidate with
  | [] => none
  | [_] => none
  | _ :: introducer :: _ =>
    if introducer = 0x5b then
      (findCsiEnd behind).map fun length =>
        (length + 2, isReplayableCsi (candidate.take (length + 2)))
    else if introducer = 0x5d then
      match parseTerminalOscColorQuery candidate with
      | .complete _ endIndex => some (endIndex, true)
      | .unfinished => none
      | .none => some (2, false)
    else if introducer = 0x50 then
      (TextSearch.indexOf? STRING_TERMINATOR behind).map fun index =>
        (index + 4, [0x24, 0x71].isPrefixOf (behind.take index) ||
          [0x2b, 0x71].isPrefixOf (behind.take index))
    else some (1, false)

/-- One round of the loop, or a unit that the search for an escape passes. -/
structure Token where
  source : Text
  isQuery : Bool
  deriving DecidableEq

def nextToken : Text → Option Token
  | [] => none
  | code :: rest =>
    if code ≠ ESCAPE then some ⟨[code], false⟩
    else (decideCandidate (code :: rest)).map fun decision =>
      ⟨(code :: rest).take decision.1, decision.2⟩

section Stability

theorem findCsiEnd_le {text : Text} {length : ℕ} (hend : findCsiEnd text = some length) :
    length ≤ text.length := by
  induction text generalizing length with
  | nil => cases hend
  | cons code rest ih =>
    rw [findCsiEnd] at hend
    split_ifs at hend
    · cases hend
      exact Nat.succ_le_succ (Nat.zero_le _)
    · cases hend
      exact Nat.zero_le _
    · obtain ⟨place, hplace, rfl⟩ := map_eq_some_iff.mp hend
      exact Nat.succ_le_succ (ih hplace)

theorem findCsiEnd_append {text : Text} {length : ℕ} (hend : findCsiEnd text = some length)
    (later : Text) : findCsiEnd (text ++ later) = some length := by
  induction text generalizing length with
  | nil => cases hend
  | cons code rest ih =>
    rw [findCsiEnd] at hend
    rw [cons_append, findCsiEnd]
    split_ifs at hend with hfinal habort
    · rw [if_pos hfinal, hend]
    · rw [if_neg hfinal, if_pos habort, hend]
    · obtain ⟨place, hplace, rfl⟩ := map_eq_some_iff.mp hend
      rw [if_neg hfinal, if_neg habort, ih hplace]
      rfl

section Introducers

variable {first introducer : CodeUnit} {behind : Text}

theorem decide_csi (hcsi : introducer = 0x5b) : decideCandidate (first :: introducer :: behind) =
    (findCsiEnd behind).map fun length =>
      (length + 2, isReplayableCsi ((first :: introducer :: behind).take (length + 2))) := by
  simp only [decideCandidate, if_pos hcsi, drop_succ_cons, drop_zero]

theorem decide_osc (hosc : introducer = 0x5d) : decideCandidate (first :: introducer :: behind) =
    match parseTerminalOscColorQuery (first :: introducer :: behind) with
    | .complete _ endIndex => some (endIndex, true)
    | .unfinished => none
    | .none => some (2, false) := by
  have hcsi : introducer ≠ 0x5b := by rw [hosc]; decide
  simp only [decideCandidate, if_neg hcsi, if_pos hosc]

theorem decide_dcs (hdcs : introducer = 0x50) : decideCandidate (first :: introducer :: behind) =
    (TextSearch.indexOf? STRING_TERMINATOR behind).map fun index =>
      (index + 4, [0x24, 0x71].isPrefixOf (behind.take index) ||
        [0x2b, 0x71].isPrefixOf (behind.take index)) := by
  have hcsi : introducer ≠ 0x5b := by rw [hdcs]; decide
  have hosc : introducer ≠ 0x5d := by rw [hdcs]; decide
  simp only [decideCandidate, if_neg hcsi, if_neg hosc, if_pos hdcs, drop_succ_cons, drop_zero]

theorem decide_other (hcsi : introducer ≠ 0x5b) (hosc : introducer ≠ 0x5d)
    (hdcs : introducer ≠ 0x50) : decideCandidate (first :: introducer :: behind) =
      some (1, false) := by
  simp only [decideCandidate, if_neg hcsi, if_neg hosc, if_neg hdcs]

end Introducers

/-- A decided candidate is within the text and stays decided when the text goes on. -/
theorem decideCandidate_stable {candidate : Text} {decision : ℕ × Bool}
    (hdecided : decideCandidate candidate = some decision) :
    (0 < decision.1 ∧ decision.1 ≤ candidate.length) ∧
      ∀ later, decideCandidate (candidate ++ later) = some decision := by
  obtain _ | ⟨first, _ | ⟨introducer, behind⟩⟩ := candidate
  · cases hdecided
  · cases hdecided
  have happend (later : Text) : first :: introducer :: behind ++ later =
      first :: introducer :: (behind ++ later) := rfl
  have hlength : (first :: introducer :: behind).length = behind.length + 2 := rfl
  by_cases hcsi : introducer = 0x5b
  · rw [decide_csi hcsi] at hdecided
    obtain ⟨length, hend, rfl⟩ := map_eq_some_iff.mp hdecided
    have hle := findCsiEnd_le hend
    refine ⟨⟨Nat.succ_pos _, Nat.add_le_add_right hle 2⟩, fun later => ?_⟩
    rw [happend, decide_csi hcsi, findCsiEnd_append hend, map_some, ← happend,
      take_append_of_le_length (by rw [hlength]; omega)]
  by_cases hosc : introducer = 0x5d
  · rw [decide_osc hosc] at hdecided
    have hfinal : parseTerminalOscColorQuery (first :: introducer :: behind) ≠ .unfinished := by
      intro hunfinished
      rw [hunfinished] at hdecided
      cases hdecided
    constructor
    · split at hdecided
      · rename_i slots endIndex hparse
        cases hdecided
        exact OscColorQuery.query_within _ slots endIndex hparse
      · cases hdecided
      · cases hdecided
        exact ⟨Nat.succ_pos _, Nat.le_add_left 2 _⟩
    · intro later
      rw [happend, decide_osc hosc, ← happend, OscColorQuery.query_final _ hfinal]
      exact hdecided
  by_cases hdcs : introducer = 0x50
  · rw [decide_dcs hdcs] at hdecided
    obtain ⟨index, hfound, rfl⟩ := map_eq_some_iff.mp hdecided
    have hle : index + 2 ≤ behind.length :=
      (TextSearch.add_length_le_of_indexOf? hfound).resolve_right (by decide)
    refine ⟨⟨Nat.succ_pos _, Nat.add_le_add_right hle 2⟩, fun later => ?_⟩
    rw [happend, decide_dcs hdcs, TextSearch.indexOf?_append (by decide) hfound,
      map_some, take_append_of_le_length (by omega)]
  · rw [decide_other hcsi hosc hdcs] at hdecided
    cases hdecided
    refine ⟨⟨Nat.one_pos, Nat.succ_le_succ (Nat.zero_le _)⟩, fun later => ?_⟩
    rw [happend, decide_other hcsi hosc hdcs]

end Stability

section Tokens

variable {input : Text} {token : Token}

theorem nextToken_spec (htoken : nextToken input = some token) :
    (token.source ≠ [] ∧ token.source <+: input) ∧
      ∀ later, nextToken (input ++ later) = some token := by
  cases input with
  | nil => cases htoken
  | cons code rest =>
    rw [nextToken] at htoken
    by_cases hplain : code ≠ ESCAPE
    · rw [if_pos hplain] at htoken
      cases htoken
      refine ⟨⟨cons_ne_nil _ _, ⟨rest, rfl⟩⟩, fun later => ?_⟩
      rw [cons_append, nextToken, if_pos hplain]
    · rw [if_neg hplain] at htoken
      obtain ⟨decision, hdecided, rfl⟩ := map_eq_some_iff.mp htoken
      obtain ⟨⟨hpositive, hle⟩, hstable⟩ := decideCandidate_stable hdecided
      refine ⟨⟨?_, take_prefix _ _⟩, fun later => ?_⟩
      · rw [← length_pos_iff, length_take]
        omega
      · rw [cons_append, nextToken, if_neg hplain, ← cons_append, hstable later,
          map_some, take_append_of_le_length hle]

end Tokens

def scanner : Scanner CodeUnit Token where
  next := nextToken
  source := Token.source
  source_ne_nil htoken := (nextToken_spec htoken).1.1
  source_prefix htoken := (nextToken_spec htoken).1.2
  next_append htoken := (nextToken_spec htoken).2

def report (seq : ℤ) : List Token → List TerminalReplyQuerySequence
  | [] => []
  | token :: rest =>
    let endSeq := seq + token.source.length
    if token.isQuery then ⟨token.source, seq, endSeq⟩ :: report endSeq rest
    else report endSeq rest

def carry (candidate : Text) (seq : ℤ) : TerminalReplyQueryScanState :=
  if candidate = [] then EMPTY_TERMINAL_REPLY_QUERY_SCAN_STATE
  else ⟨candidate.take MAX_PENDING_QUERY_CHARS, some seq⟩

def continuesPending (previous : TerminalReplyQueryScanState) (chunkStartSeq : ℤ) : Prop :=
  previous.pendingStartSeq.map (· + (previous.pending.length : ℤ)) = some chunkStartSeq

instance (previous : TerminalReplyQueryScanState) (chunkStartSeq : ℤ) :
    Decidable (continuesPending previous chunkStartSeq) :=
  inferInstanceAs (Decidable (_ = _))

def scanTerminalReplyQuerySequences (data : Text) (chunkStartSeq : ℤ)
    (previous : TerminalReplyQueryScanState) :
    List TerminalReplyQuerySequence × TerminalReplyQueryScanState :=
  let pending := if continuesPending previous chunkStartSeq then previous.pending else []
  let input := pending ++ data
  let inputStartSeq := chunkStartSeq - pending.length
  let candidate := scanner.rest input
  (report inputStartSeq (scanner.tokens input),
    carry candidate (inputStartSeq + (input.length - candidate.length : ℕ)))

def scanChunks : ℤ → TerminalReplyQueryScanState → List Text →
    List TerminalReplyQuerySequence × TerminalReplyQueryScanState
  | _, state, [] => ([], state)
  | seq, state, chunk :: rest =>
    let scan := scanTerminalReplyQuerySequences chunk seq state
    let later := scanChunks (seq + chunk.length) scan.2 rest
    (scan.1 ++ later.1, later.2)

section Reports

variable {seq : ℤ}

theorem report_append (first second : List Token) : report seq (first ++ second) =
    report seq first ++ report (seq + (first.flatMap Token.source).length) second := by
  induction first generalizing seq with
  | nil => simp [report]
  | cons token rest ih =>
    have hplace : seq + token.source.length + (rest.flatMap Token.source).length =
        seq + ((token :: rest).flatMap Token.source).length := by
      rw [flatMap_cons, length_append]
      push_cast
      exact Int.add_assoc _ _ _
    rw [cons_append, report, report, ih, hplace]
    split_ifs <;> rfl

theorem report_within (parts : List Token) : ∀ query ∈ report seq parts,
    seq ≤ query.startSeq ∧ query.endSeq = query.startSeq + query.data.length ∧
      query.endSeq ≤ seq + (parts.flatMap Token.source).length := by
  induction parts generalizing seq with
  | nil => exact fun query hquery => absurd hquery not_mem_nil
  | cons token rest ih =>
    intro query hquery
    have hlater : ∀ query ∈ report (seq + token.source.length) rest,
        seq ≤ query.startSeq ∧ query.endSeq = query.startSeq + query.data.length ∧
          query.endSeq ≤ seq + ((token :: rest).flatMap Token.source).length := by
      intro query hquery
      obtain ⟨hstart, hend, hlast⟩ := ih query hquery
      rw [flatMap_cons, length_append]
      exact ⟨by omega, hend, by push_cast; omega⟩
    rw [report] at hquery
    split_ifs at hquery
    · rcases mem_cons.mp hquery with rfl | hbehind
      · rw [flatMap_cons, length_append]
        exact ⟨le_refl _, rfl, by push_cast; omega⟩
      · exact hlater query hbehind
    · exact hlater query hquery

theorem report_pairwise (parts : List Token) :
    (report seq parts).Pairwise fun first second => first.endSeq ≤ second.startSeq := by
  induction parts generalizing seq with
  | nil => exact List.Pairwise.nil
  | cons token rest ih =>
    rw [report]
    split_ifs
    · exact pairwise_cons.mpr ⟨fun query hquery => (report_within rest query hquery).1, ih⟩
    · exact ih

end Reports

def carryAt (start : ℤ) (past : Text) : TerminalReplyQueryScanState :=
  carry (scanner.rest past) (start + (past.length - (scanner.rest past).length : ℕ))

theorem length_sources (past : Text) :
    ((scanner.tokens past).flatMap Token.source).length + (scanner.rest past).length =
      past.length := by
  have hsources := congrArg List.length (scanner.sources_append_rest past)
  rwa [length_append] at hsources

section

variable {start : ℤ} {past : Text} (hfits : (scanner.rest past).length ≤ MAX_PENDING_QUERY_CHARS)
include hfits

theorem pending_carryAt : (if continuesPending (carryAt start past) (start + past.length) then
      (carryAt start past).pending else []) = scanner.rest past := by
  have hlength := length_sources past
  by_cases hnil : scanner.rest past = []
  · rw [hnil, carryAt, carry, if_pos hnil]
    exact if_neg (by rintro ⟨⟩)
  · have hcarry : carryAt start past =
        ⟨scanner.rest past, some (start + (past.length - (scanner.rest past).length : ℕ))⟩ := by
      rw [carryAt, carry, if_neg hnil, take_of_length_le hfits]
    rw [hcarry, if_pos]
    refine congrArg some ?_
    change start + ((past.length - (scanner.rest past).length : ℕ) : ℤ) +
      ((scanner.rest past).length : ℤ) = start + past.length
    omega

theorem scan_carryAt (chunk : Text) : report start (scanner.tokens past) ++
        (scanTerminalReplyQuerySequences chunk (start + past.length) (carryAt start past)).1 =
      report start (scanner.tokens (past ++ chunk)) ∧
    (scanTerminalReplyQuerySequences chunk (start + past.length) (carryAt start past)).2 =
      carryAt start (past ++ chunk) := by
  have hlength := length_sources past
  have hwhole := length_sources (past ++ chunk)
  have hnext := length_sources (scanner.rest past ++ chunk)
  rw [← scanner.rest_append] at hnext
  have hplace : start + (past.length : ℤ) - (scanner.rest past).length =
      start + ((scanner.tokens past).flatMap Token.source).length := by omega
  simp only [scanTerminalReplyQuerySequences, pending_carryAt hfits]
  constructor
  · rw [scanner.tokens_append past chunk, report_append, hplace]
  · rw [carryAt, ← scanner.rest_append]
    congr 1
    rw [length_append] at hnext hwhole ⊢
    rw [length_append]
    omega

end

/-- What the chunks report goes on with what the stream so far reports. -/
theorem scanChunks_carryAt {start : ℤ} {past : Text} (chunks : List Text)
    (hfits : scanner.Fits MAX_PENDING_QUERY_CHARS (past ++ chunks.flatten)) :
    report start (scanner.tokens past) ++
        (scanChunks (start + past.length) (carryAt start past) chunks).1 =
      report start (scanner.tokens (past ++ chunks.flatten)) ∧
    (scanChunks (start + past.length) (carryAt start past) chunks).2 =
      carryAt start (past ++ chunks.flatten) := by
  induction chunks generalizing past with
  | nil =>
    rw [flatten_nil, append_nil]
    exact ⟨append_nil _, rfl⟩
  | cons chunk chunks ih =>
    have hpast := hfits past (prefix_append past _)
    rw [flatten_cons, ← append_assoc] at hfits ⊢
    obtain ⟨hreport, hstate⟩ := @scan_carryAt start past hpast chunk
    obtain ⟨hreports, hlast⟩ := ih hfits
    have hseq : start + (past.length : ℤ) + chunk.length =
      start + ((past ++ chunk).length : ℕ) := by
      rw [length_append]
      push_cast
      exact Int.add_assoc _ _ _
    simp only [scanChunks, hstate, hseq]
    rw [← append_assoc, hreport]
    exact ⟨hreports, hlast⟩

theorem carryAt_nil (start : ℤ) : carryAt start [] = EMPTY_TERMINAL_REPLY_QUERY_SCAN_STATE := by
  have hrest : scanner.rest [] = [] := Scanner.rest_none rfl
  rw [carryAt, carry, if_pos hrest]

theorem scan_whole (start : ℤ) (stream : Text) :
    (scanTerminalReplyQuerySequences stream start EMPTY_TERMINAL_REPLY_QUERY_SCAN_STATE).1 =
      report start (scanner.tokens stream) := by
  have hgap : ¬ continuesPending EMPTY_TERMINAL_REPLY_QUERY_SCAN_STATE start := nofun
  simp [scanTerminalReplyQuerySequences, hgap]

/-- Replayed queries do not depend on how the stream was cut, and none spans a gap. -/
theorem replayed_queries : (∀ (start : ℤ) (chunks : List Text),
      scanner.Fits MAX_PENDING_QUERY_CHARS chunks.flatten →
      let whole := scanTerminalReplyQuerySequences chunks.flatten start
        EMPTY_TERMINAL_REPLY_QUERY_SCAN_STATE
      (scanChunks start EMPTY_TERMINAL_REPLY_QUERY_SCAN_STATE chunks).1 = whole.1 ∧
        whole.1.Pairwise fun first second => first.endSeq ≤ second.startSeq) ∧
    ∀ (data : Text) (chunkStartSeq : ℤ) (previous : TerminalReplyQueryScanState),
      ¬ continuesPending previous chunkStartSeq →
      let scan := scanTerminalReplyQuerySequences data chunkStartSeq previous
      scan = scanTerminalReplyQuerySequences data chunkStartSeq
          EMPTY_TERMINAL_REPLY_QUERY_SCAN_STATE ∧
        ∀ query ∈ scan.1, chunkStartSeq ≤ query.startSeq ∧
          query.endSeq = query.startSeq + query.data.length ∧
          query.endSeq ≤ chunkStartSeq + data.length := by
  constructor
  · intro start chunks hfits
    obtain ⟨hreports, -⟩ := @scanChunks_carryAt start [] chunks hfits
    rw [carryAt_nil, nil_append] at hreports
    have hnone : scanner.tokens [] = [] := Scanner.tokens_none rfl
    rw [hnone, report, nil_append, length_nil, Int.natCast_zero, Int.add_zero] at hreports
    refine ⟨by rw [scan_whole, ← hreports], ?_⟩
    rw [scan_whole]
    exact report_pairwise _
  · intro data chunkStartSeq previous hgap
    have hempty : ¬ continuesPending EMPTY_TERMINAL_REPLY_QUERY_SCAN_STATE chunkStartSeq := nofun
    have hsame : scanTerminalReplyQuerySequences data chunkStartSeq previous =
        scanTerminalReplyQuerySequences data chunkStartSeq
          EMPTY_TERMINAL_REPLY_QUERY_SCAN_STATE := by
      simp only [scanTerminalReplyQuerySequences, if_neg hgap, if_neg hempty]
    refine ⟨hsame, ?_⟩
    simp only [hsame, scan_whole]
    intro query hquery
    obtain ⟨hstart, hend, hlast⟩ := report_within _ query hquery
    have hlength := length_sources data
    exact ⟨hstart, hend, by omega⟩

/-- A cursor query is found across a cut, and not across a gap. -/
theorem replayed_queries_cursor :
    (scanChunks 7 EMPTY_TERMINAL_REPLY_QUERY_SCAN_STATE [[ESCAPE, 0x5b], [0x36, 0x6e]]).1 =
        (scanTerminalReplyQuerySequences [ESCAPE, 0x5b, 0x36, 0x6e] 7
          EMPTY_TERMINAL_REPLY_QUERY_SCAN_STATE).1 ∧
      scanTerminalReplyQuerySequences [0x36, 0x6e] 10 ⟨[ESCAPE, 0x5b], some 7⟩ =
        scanTerminalReplyQuerySequences [0x36, 0x6e] 10 EMPTY_TERMINAL_REPLY_QUERY_SCAN_STATE :=
  ⟨(replayed_queries.1 7 [[ESCAPE, 0x5b], [0x36, 0x6e]] (scanner.fits_of_length_le (by decide))).1,
    (replayed_queries.2 [0x36, 0x6e] 10 ⟨[ESCAPE, 0x5b], some 7⟩ (by decide)).1⟩

end Wakii.Terminal.ReplyQueryScan
