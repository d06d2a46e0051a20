import Mathlib.Data.List.ReduceOption
import Wakii.Library.SequenceReader
import Wakii.Terminal.ReplyQueryScan

/-!
# Subscriptions to the color scheme

A program subscribes by setting private mode 2031.  A set is decided only once no sequence
is open that could still reset the mode; until then it is pending.
-/

namespace Wakii.Terminal.ColorScheme

open List

open OscColorQuery (QUESTION_MARK SEMICOLON)
open ReplyQueryScan (isParameter)
open SequenceReader (Reader Step)

def MODE_2031_SCAN_TAIL_LIMIT : ℕ := 128
def CSI : CodeUnit := 0x9b
def BRACKET : CodeUnit := 0x5b
def SET : CodeUnit := 0x68
def RESET : CodeUnit := 0x6c

inductive PrivateModeState
  | escape
  | csi
  | params (params : Text)
  deriving DecidableEq

structure PrivateMode where
  params : Text
  enabled : Bool
  deriving DecidableEq

/-- `privateModeRe`; a text that the reader ends in is what `extractPrivateModeScanTail`
takes from the last introducer on. -/
def privateModes : Reader CodeUnit PrivateModeState PrivateMode where
  enter code := if code = ESCAPE then some .escape else if code = CSI then some .csi else none
  step state code :=
    match state with
    | .escape => if code = BRACKET then .more .csi else .stop
    | .csi => if code = QUESTION_MARK then .more (.params []) else .stop
    | .params params =>
      if isParameter code then .more (.params (params ++ [code]))
      else if params = [] then .stop
      else if code = SET then .found ⟨params, true⟩
      else if code = RESET then .found ⟨params, false⟩
      else .stop

def hasMode2031 (params : Text) : Bool :=
  (params.splitOn SEMICOLON).any fun param => numberOf param = 2031

inductive Mode2031
  | subscribed
  | unsubscribed
  deriving DecidableEq

def mode2031Sequences (text : Text) : List Mode2031 :=
  ((privateModes.sequences text).filter fun sequence => hasMode2031 sequence.1.params).map
    fun sequence => if sequence.1.enabled then .subscribed else .unsubscribed

def extractPrivateModeScanTail (input : Text) : Text :=
  privateModes.carried MODE_2031_SCAN_TAIL_LIMIT input

structure Mode2031ScanResult where
  finalState : Option Mode2031
  tail : Text
  deriving DecidableEq

def includesIntroducer (data : Text) : Bool := data.contains ESCAPE || data.contains CSI

def scanMode2031Sequences (previousTail data : Text) : Mode2031ScanResult :=
  if previousTail = [] ∧ includesIntroducer data = false then ⟨none, []⟩
  else
    let input := previousTail ++ data
    ⟨(mode2031Sequences input).getLast?, extractPrivateModeScanTail input⟩

structure Mode2031ReplyScanState where
  tail : Text
  pendingSubscribe : Bool
  deriving DecidableEq

def INITIAL_MODE_2031_REPLY_SCAN_STATE : Mode2031ReplyScanState := ⟨[], false⟩

/-- What is decided from a scan; a set stays pending while a sequence is open. -/
def decideReply (pendingSubscribe : Bool) (scan : Mode2031ScanResult) :
    Option Mode2031 × Mode2031ReplyScanState :=
  if scan.finalState = some .unsubscribed then (scan.finalState, ⟨scan.tail, false⟩)
  else if scan.finalState = some .subscribed ∨ pendingSubscribe = true then
    if scan.tail ≠ [] then (none, ⟨scan.tail, true⟩) else (some .subscribed, ⟨scan.tail, false⟩)
  else (scan.finalState, ⟨scan.tail, pendingSubscribe⟩)

def scanMode2031ReplyDecision (previous : Mode2031ReplyScanState) (data : Text) :
    Option Mode2031 × Mode2031ReplyScanState :=
  if previous.pendingSubscribe = false ∧ previous.tail = [] ∧ includesIntroducer data = false then
    (none, INITIAL_MODE_2031_REPLY_SCAN_STATE)
  else decideReply previous.pendingSubscribe (scanMode2031Sequences previous.tail data)

def scanChunks : Mode2031ReplyScanState → List Text →
    List (Option Mode2031) × Mode2031ReplyScanState
  | state, [] => ([], state)
  | state, chunk :: rest =>
    let scan := scanMode2031ReplyDecision state chunk
    let later := scanChunks scan.2 rest
    (scan.1 :: later.1, later.2)

def lastDecision (decisions : List (Option Mode2031)) : Option Mode2031 :=
  decisions.reduceOption.getLast?

theorem read_plain {data : Text} (hplain : includesIntroducer data = false) :
    privateModes.read none data = ([], none) := by
  induction data with
  | nil => rfl
  | cons code rest ih =>
    simp only [includesIntroducer, contains_cons, Bool.or_eq_false_iff,
      beq_eq_false_iff_ne] at hplain
    obtain ⟨⟨hescape, hrest⟩, hcsi, hbehind⟩ := hplain
    have henter : privateModes.enter code = none := by
      simp only [privateModes, if_neg (Ne.symm hescape), if_neg (Ne.symm hcsi)]
    have hread := ih (by simp only [includesIntroducer, hrest, hbehind, Bool.or_self])
    simp only [Reader.read, Reader.advance, henter, hread]
    rfl

theorem scanMode2031Sequences_eq (previousTail data : Text) :
    scanMode2031Sequences previousTail data = ⟨(mode2031Sequences (previousTail ++ data)).getLast?,
        extractPrivateModeScanTail (previousTail ++ data)⟩ := by
  rw [scanMode2031Sequences]
  split_ifs with hskipped
  · obtain ⟨rfl, hplain⟩ := hskipped
    simp only [nil_append, mode2031Sequences, extractPrivateModeScanTail, Reader.sequences,
      Reader.carried, read_plain hplain]
    rfl
  · rfl

theorem scanMode2031ReplyDecision_eq (previous : Mode2031ReplyScanState) (data : Text) :
    scanMode2031ReplyDecision previous data =
      decideReply previous.pendingSubscribe (scanMode2031Sequences previous.tail data) := by
  rw [scanMode2031ReplyDecision]
  split_ifs with hskipped
  · obtain ⟨hpending, htail, hplain⟩ := hskipped
    rw [hpending, scanMode2031Sequences, if_pos ⟨htail, hplain⟩]
    rfl
  · rfl

section Deciding

variable {pendingSubscribe : Bool} {scan : Mode2031ScanResult}

theorem decideReply_tail : (decideReply pendingSubscribe scan).2.tail = scan.tail := by
  rw [decideReply]
  split_ifs <;> rfl

theorem decideReply_pending
    (hpending : (decideReply pendingSubscribe scan).2.pendingSubscribe = true) :
    scan.tail ≠ [] ∧ scan.finalState.or (if pendingSubscribe then some .subscribed else none) =
      some .subscribed ∧ (decideReply pendingSubscribe scan).1 = none := by
  obtain ⟨final, tail⟩ := scan
  by_cases htail : tail = [] <;> rcases final with _ | (_ | _) <;> cases pendingSubscribe <;>
    simp [decideReply, htail] at hpending ⊢

theorem decideReply_settled
    (hsettled : (decideReply pendingSubscribe scan).2.pendingSubscribe = false) :
    (decideReply pendingSubscribe scan).1 =
      scan.finalState.or (if pendingSubscribe then some .subscribed else none) := by
  obtain ⟨final, tail⟩ := scan
  by_cases htail : tail = [] <;> rcases final with _ | (_ | _) <;> cases pendingSubscribe <;>
    simp [decideReply, htail] at hsettled ⊢

theorem tail_of_subscribed (hdecided : (decideReply pendingSubscribe scan).1 = some .subscribed) :
    scan.tail = [] := by
  obtain ⟨final, tail⟩ := scan
  by_cases htail : tail = [] <;> rcases final with _ | (_ | _) <;> cases pendingSubscribe <;>
    simp [decideReply, htail] at hdecided ⊢

end Deciding

/-- What the state says of the stream so far, and of the decisions about it. -/
structure Tracks (past : Text) (decisions : List (Option Mode2031))
    (state : Mode2031ReplyScanState) : Prop where
  tail : state.tail = extractPrivateModeScanTail past
  pending : state.pendingSubscribe = true →
    state.tail ≠ [] ∧ (mode2031Sequences past).getLast? = some .subscribed
  settled : state.pendingSubscribe = false →
    lastDecision decisions = (mode2031Sequences past).getLast?

/-- No private-mode sequence of the stream is longer than a tail may be. -/
def ShortSequences (stream : Text) : Prop :=
  ∀ sequence ∈ privateModes.sequences stream, sequence.2.length ≤ MODE_2031_SCAN_TAIL_LIMIT

section Streams

variable {past chunk : Text} {decisions : List (Option Mode2031)} {state : Mode2031ReplyScanState}

theorem mode2031Sequences_append (hshort : ShortSequences (past ++ chunk)) :
    mode2031Sequences (past ++ chunk) =
      mode2031Sequences past ++ mode2031Sequences (extractPrivateModeScanTail past ++ chunk) := by
  rw [mode2031Sequences, Reader.sequences_append hshort, filter_append, map_append]
  rfl

theorem ShortSequences.earlier (hshort : ShortSequences (past ++ chunk)) : ShortSequences past := by
  intro sequence hsequence
  refine hshort sequence ?_
  rw [Reader.sequences_append hshort]
  exact mem_append_left _ hsequence

/-- One more chunk is read as part of the text so far. -/
theorem Tracks.step (htracks : Tracks past decisions state)
    (hshort : ShortSequences (past ++ chunk)) :
    let scan := scanMode2031ReplyDecision state chunk
    Tracks (past ++ chunk) (decisions ++ [scan.1]) scan.2 := by
  intro scan
  have hscan : scan = decideReply state.pendingSubscribe
      ⟨(mode2031Sequences (state.tail ++ chunk)).getLast?,
        extractPrivateModeScanTail (state.tail ++ chunk)⟩ := by
    rw [← scanMode2031Sequences_eq]
    exact scanMode2031ReplyDecision_eq state chunk
  have htail : scan.2.tail = extractPrivateModeScanTail (state.tail ++ chunk) := by
    rw [hscan, decideReply_tail]
  have hlast : (mode2031Sequences (past ++ chunk)).getLast? =
      ((mode2031Sequences (state.tail ++ chunk)).getLast?).or
        (mode2031Sequences past).getLast? := by
    rw [mode2031Sequences_append hshort, getLast?_append, htracks.tail]
  generalize (mode2031Sequences (state.tail ++ chunk)).getLast? = final at hscan hlast
  refine ⟨?_, fun hpending => ?_, fun hsettled => ?_⟩
  · rw [htail, htracks.tail]
    exact (Reader.carried_append past chunk).symm
  · rw [hscan] at hpending
    obtain ⟨hopen, hset, -⟩ := decideReply_pending hpending
    refine ⟨htail ▸ hopen, ?_⟩
    cases final with
    | some found => rw [hlast, ← hset]; rfl
    | none =>
      cases hheld : state.pendingSubscribe with
      | true => rw [hlast, (htracks.pending hheld).2]; rfl
      | false =>
        rw [hheld] at hset
        cases hset
  · rw [hscan] at hsettled ⊢
    rw [lastDecision, reduceOption_append, getLast?_append, ← lastDecision, hlast,
      decideReply_settled hsettled]
    cases final with
    | some found => rfl
    | none =>
      cases hheld : state.pendingSubscribe with
      | true => rw [(htracks.pending hheld).2]; rfl
      | false => rw [← htracks.settled hheld]; rfl

theorem Tracks.chunks (htracks : Tracks past decisions state) (chunks : List Text)
    (hshort : ShortSequences (past ++ chunks.flatten)) :
    Tracks (past ++ chunks.flatten) (decisions ++ (scanChunks state chunks).1)
      (scanChunks state chunks).2 := by
  induction chunks generalizing past decisions state with
  | nil =>
    rw [flatten_nil, append_nil, scanChunks, append_nil]
    exact htracks
  | cons chunk chunks ih =>
    rw [flatten_cons, ← append_assoc] at hshort ⊢
    have hnext := ih (htracks.step hshort.earlier) hshort
    rwa [append_assoc decisions, singleton_append] at hnext

theorem exists_decision (chunks : List Text) (hpending : state.pendingSubscribe = true)
    (hsettled : (scanChunks state chunks).2.pendingSubscribe = false) :
    ∃ decision ∈ (scanChunks state chunks).1, decision ≠ none := by
  induction chunks generalizing state with
  | nil => exact absurd hsettled (by rw [scanChunks, hpending]; decide)
  | cons chunk chunks ih =>
    cases hnext : (scanMode2031ReplyDecision state chunk).2.pendingSubscribe with
    | true =>
      obtain ⟨decision, hmem, hdecided⟩ := ih hnext hsettled
      exact ⟨decision, mem_cons_of_mem _ hmem, hdecided⟩
    | false =>
      refine ⟨_, mem_cons_self, ?_⟩
      rw [scanMode2031ReplyDecision_eq] at hnext ⊢
      rw [decideReply_settled hnext, hpending, Ne, Option.or_eq_none_iff]
      exact fun hnone => by cases hnone.2

end Streams

theorem scanChunks_append (state : Mode2031ReplyScanState) (before after : List Text) :
    scanChunks state (before ++ after) =
      ((scanChunks state before).1 ++ (scanChunks (scanChunks state before).2 after).1,
        (scanChunks (scanChunks state before).2 after).2) := by
  induction before generalizing state with
  | nil => rfl
  | cons chunk chunks ih => simp only [cons_append, scanChunks, ih]

theorem length_scanChunks (state : Mode2031ReplyScanState) (chunks : List Text) :
    (scanChunks state chunks).1.length = chunks.length := by
  induction chunks generalizing state with
  | nil => rfl
  | cons chunk chunks ih => exact congrArg (· + 1) (ih _)

theorem tracks_initial : Tracks [] [] INITIAL_MODE_2031_REPLY_SCAN_STATE :=
  ⟨rfl, nofun, fun _ => rfl⟩

/-- The subscription does not depend on how the stream was cut. -/
theorem theme_subscription : (∀ chunks : List Text, ShortSequences chunks.flatten →
      let run := scanChunks INITIAL_MODE_2031_REPLY_SCAN_STATE chunks
      run.2.tail = extractPrivateModeScanTail chunks.flatten ∧
        (run.2.tail = [] → run.2.pendingSubscribe = false →
          lastDecision run.1 = (mode2031Sequences chunks.flatten).getLast?) ∧
        ∀ before chunk after, chunks = before ++ chunk :: after →
          mode2031Sequences (before.flatten ++ chunk) ≠ mode2031Sequences before.flatten →
            run.2.tail = [] → ∃ decision ∈ run.1.drop before.length, decision ≠ none) ∧
      ∀ (previous : Mode2031ReplyScanState) (data : Text),
        (scanMode2031ReplyDecision previous data).1 = some .subscribed →
          (scanMode2031ReplyDecision previous data).2.tail = [] := by
  constructor
  · intro chunks hshort run
    have hwhole := tracks_initial.chunks chunks hshort
    refine ⟨hwhole.tail, fun _ hsettled => hwhole.settled hsettled, ?_⟩
    rintro before chunk after rfl hcompletes htail
    have hstream : (before ++ chunk :: after).flatten =
        before.flatten ++ chunk ++ after.flatten := by
      rw [flatten_append, flatten_cons, append_assoc]
    rw [hstream] at hshort
    have hbefore := tracks_initial.chunks before hshort.earlier.earlier
    have hlast : (mode2031Sequences ((scanChunks INITIAL_MODE_2031_REPLY_SCAN_STATE
        before).2.tail ++ chunk)).getLast? ≠ none := by
      intro hnone
      apply hcompletes
      have hsame := mode2031Sequences_append hshort.earlier
      rw [getLast?_eq_none_iff, hbefore.tail] at hnone
      exact hsame.trans (by rw [nil_append] at hnone; rw [hnone, append_nil])
    have hdrop : run.1.drop before.length =
        (scanChunks (scanChunks INITIAL_MODE_2031_REPLY_SCAN_STATE before).2
          (chunk :: after)).1 := by
      change (scanChunks INITIAL_MODE_2031_REPLY_SCAN_STATE (before ++ chunk :: after)).1.drop _ = _
      rw [scanChunks_append, drop_left' (length_scanChunks _ _)]
    have hrun : run.2 = (scanChunks (scanChunks INITIAL_MODE_2031_REPLY_SCAN_STATE before).2
        (chunk :: after)).2 := by
      change (scanChunks INITIAL_MODE_2031_REPLY_SCAN_STATE (before ++ chunk :: after)).2 = _
      rw [scanChunks_append]
    rw [hdrop]
    generalize (scanChunks INITIAL_MODE_2031_REPLY_SCAN_STATE before).2 = state at *
    cases hnext : (scanMode2031ReplyDecision state chunk).2.pendingSubscribe with
    | true =>
      have hend : run.2.pendingSubscribe = false := by
        by_contra hheld
        exact (hwhole.pending (Bool.not_eq_false _ ▸ hheld)).1 htail
      rw [hrun] at hend
      obtain ⟨decision, hmem, hdecided⟩ := exists_decision after hnext hend
      exact ⟨decision, mem_cons_of_mem _ hmem, hdecided⟩
    | false =>
      refine ⟨_, mem_cons_self, ?_⟩
      rw [scanMode2031ReplyDecision_eq, scanMode2031Sequences_eq] at hnext ⊢
      rw [decideReply_settled hnext, Ne, Option.or_eq_none_iff]
      exact fun hnone => hlast hnone.1
  · intro previous data hsubscribed
    rw [scanMode2031ReplyDecision_eq] at hsubscribed ⊢
    rw [decideReply_tail, tail_of_subscribed hsubscribed]

/-- A set that is cut in two is decided once, and one with a sequence behind it waits. -/
theorem theme_subscription_cut : lastDecision (scanChunks INITIAL_MODE_2031_REPLY_SCAN_STATE
        [[ESCAPE, 0x5b, 0x3f, 0x32, 0x30], [0x33, 0x31, 0x68]]).1 = some .subscribed ∧
      (scanMode2031ReplyDecision ⟨[ESCAPE], true⟩ [0x63]).2.tail = [] :=
  ⟨((theme_subscription.1 [[ESCAPE, 0x5b, 0x3f, 0x32, 0x30], [0x33, 0x31, 0x68]]
      (by rw [ShortSequences]; decide)).2.1 (by decide) (by decide)).trans (by decide),
    theme_subscription.2 ⟨[ESCAPE], true⟩ [0x63] (by decide)⟩

end Wakii.Terminal.ColorScheme
