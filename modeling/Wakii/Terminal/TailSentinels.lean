import Wakii.Terminal.RedrawRowSound
import Wakii.Terminal.WindowedTail

/-!
# What is carried beside the retained lines

Each tail remembers its characters, whether its lines are right-trimmed and which of
them a sentinel expression matches.  An append derives all three from what it carries,
and they stay what a scan of the new lines would find.
-/

namespace Wakii.Terminal

open List

section Rows

def RowsHold (rows : List RetainedTerminalRow) : Prop := ∀ row ∈ rows, row.Holds row.text

variable {rows : List RetainedTerminalRow} {redraw : RetainedTailRedraw}

theorem retainedRow_holds (line : Text) (completed : Bool) :
    (retainedRow line completed).Holds line :=
  ⟨rfl, fun _ heq => (by cases heq), fun _ heq => (by cases heq),
    fun _ hindex => absurd hindex (Nat.not_lt_zero _)⟩

theorem RetainedTerminalRow.Holds.self {row : RetainedTerminalRow} {cells : Text}
    (hholds : row.Holds cells) : row.Holds row.text := by
  obtain rfl := hholds.text
  exact hholds

section

variable (hrows : RowsHold redraw.rows)
include hrows

theorem ensureCursorRow_holds : RowsHold redraw.ensureCursorRow.rows := by
  intro row hrow
  rcases mem_append.mp hrow with hrow | hrow
  · exact hrows row hrow
  · rw [eq_of_mem_replicate hrow]
    exact retainedRow_holds [] false

theorem editCursorRow_holds {edit : RetainedTerminalRow → RetainedTerminalRow}
    (hedit : ∀ row, row.Holds row.text → (edit row).Holds (edit row).text) :
    RowsHold (redraw.editCursorRow edit).rows := by
  intro row hrow
  obtain ⟨index, hindex⟩ := mem_iff_getElem?.mp hrow
  change (List.modify _ _ _)[index]? = some row at hindex
  rw [getElem?_modify] at hindex
  obtain ⟨old, hold, rfl⟩ := Option.map_eq_some_iff.mp hindex
  have hholds := ensureCursorRow_holds hrows old (mem_of_getElem? hold)
  split_ifs
  · exact hedit _ ⟨rfl, hholds.snapshot, hholds.contentEnd, hholds.blankPrefix⟩
  · exact hholds

theorem completeRow_holds : RowsHold redraw.completeRow.rows := by
  have hensured := ensureCursorRow_holds hrows
  obtain ⟨cells, hcompleted⟩ : ∃ cells, redraw.ensureCursorRow.completedRow.Holds cells := by
    rw [RetainedTailRedraw.completedRow]
    cases hrow : redraw.ensureCursorRow.rows[redraw.ensureCursorRow.cursorRow]? with
    | none => exact ⟨[], retainedRow_holds [] true⟩
    | some row =>
      have hholds := hensured row (mem_of_getElem? hrow)
      exact ⟨_, rfl, hholds.snapshot, hholds.contentEnd, hholds.blankPrefix⟩
  have huncapped : RowsHold redraw.completeRowUncapped.rows := by
    rw [RetainedTailRedraw.completeRowUncapped]
    refine ensureCursorRow_holds fun row hrow => ?_
    dsimp only at hrow
    rw [(retain_sameRows _ _).rows] at hrow
    rcases mem_or_eq_of_mem_set hrow with hrow | rfl
    · exact hensured row hrow
    · exact hcompleted.snapshot_eq.2.self
  rw [RetainedTailRedraw.completeRow, RetainedTailRedraw.trimRows]
  dsimp only
  split_ifs
  · exact huncapped
  · exact fun row hrow => huncapped row (mem_of_mem_drop hrow)
  · exact huncapped

theorem applySequence_holds (parsed : AnsiControlSequence) :
    RowsHold (redraw.applySequence parsed).rows := by
  cases parsed with
  | other => exact hrows
  | csi final params firstParam =>
    rw [RetainedTailRedraw.applySequence]
    split_ifs
    · exact hrows
    · exact fun row hrow => hrows row (mem_of_mem_take hrow)
    · exact editCursorRow_holds hrows fun row hholds => (hholds.erase _ _).self
    · exact hrows
    · exact hrows
    · exact hrows
    · exact hrows

theorem run_holds (controls : List RedrawControl) : RowsHold (redraw.run controls).rows := by
  induction controls generalizing redraw with
  | nil => exact hrows
  | cons control rest ih =>
    refine ih ?_
    cases control with
    | newline => exact completeRow_holds hrows
    | carriageReturn => exact hrows
    | backspace => exact hrows
    | sequence parsed => exact applySequence_holds hrows parsed
    | text run => exact editCursorRow_holds hrows fun row hholds => (hholds.write _ _).self

end

theorem unwindowed_trimmed (lines : List Text) (partialLine chunk : Text) (capped : Bool)
    (cursor : Option RetainedTailRedrawCursor) :
    ∀ line ∈ (appendNormalizedToMultilineTailBufferUnwindowed lines partialLine chunk capped
      cursor).lines, isRightTrimmed line = true := by
  intro line hline
  have hstart : RowsHold (startRedraw lines partialLine capped cursor).rows := by
    intro row hrow
    rcases mem_append.mp hrow with hrow | hrow
    · obtain ⟨line, -, rfl⟩ := mem_map.mp hrow
      exact retainedRow_holds line true
    · rw [mem_singleton.mp hrow]
      exact retainedRow_holds partialLine false
  obtain ⟨finalized, hfinalized, rfl⟩ := mem_map.mp (( finalize_infix _ _ _ _ _ _).subset hline)
  obtain ⟨row, hrow, rfl⟩ := mem_map.mp hfinalized
  have hholds := run_holds hstart (redrawControls chunk) row (mem_of_mem_drop hrow)
  change isRightTrimmed (retainedRowSnapshot row).2 = true
  rw [hholds.snapshot_eq.1, isRightTrimmed, beq_iff_eq]
  exact rdropWhile_idempotent _ _

end Rows

section Stats

def StatsHold (tail : RetainedTail) : Prop :=
  ∀ stats ∈ tail.stats, stats.totalChars = charsOf tail.rows ∧
    (stats.rightTrimmed = true → ∀ line ∈ tail.rows, isRightTrimmed line = true)

variable {tail : RetainedTail}

theorem StatsHold.get (hstats : StatsHold tail) :
    (getRetainedTailLineStats tail).totalChars = charsOf tail.rows ∧
      ((getRetainedTailLineStats tail).rightTrimmed = true →
        ∀ line ∈ tail.rows, isRightTrimmed line = true) := by
  rw [getRetainedTailLineStats]
  cases hknown : tail.stats with
  | some stats => exact hstats stats hknown
  | none => exact ⟨rfl, all_eq_true.mp⟩

/-- One append: the lines it carries, those it adds, and whether it caps the characters. -/
structure CarryCall where
  keepStart : ℕ
  keepEnd : ℕ
  appended : List Text
  charCapPartialChars : Option ℕ

namespace CarryCall

variable (call : CarryCall)

def build (tail : RetainedTail) : RetainedTail :=
  (buildCarriedTailLines tail call.keepStart call.keepEnd call.appended call.charCapPartialChars).1

def carried (tail : RetainedTail) : List Text := (tail.rows.take call.keepEnd).drop call.keepStart

/-- How many of the lines carried and added the two caps drop. -/
def dropCount (tail : RetainedTail) : ℕ :=
  let combined := call.carried tail ++ call.appended
  let overLines := combined.length - MAX_TAIL_LINES
  overLines + match call.charCapPartialChars with
    | none => 0
    | some partialChars =>
      (dropsOver (MAX_TAIL_CHARS - partialChars) (combined.drop overLines)
        (charsOf (combined.drop overLines))).1

def keepsAll (tail : RetainedTail) : Prop :=
  call.dropCount tail = 0 ∧ call.appended = [] ∧ call.keepStart = 0 ∧
    call.keepEnd = tail.rows.length

instance (tail : RetainedTail) : Decidable (call.keepsAll tail) :=
  inferInstanceAs (Decidable (_ ∧ _))

variable {call}

theorem keptChars_eq (hstats : StatsHold tail) : (if (call.carried tail).isEmpty then 0
      else (getRetainedTailLineStats tail).totalChars - charsOf (tail.rows.take call.keepStart) -
        charsOf (tail.rows.drop call.keepEnd)) = charsOf (call.carried tail) := by
  cases hempty : (call.carried tail).isEmpty with
  | true =>
    rw [isEmpty_iff.mp hempty]
    rfl
  | false =>
    have hne : call.carried tail ≠ [] := by
      intro hnil
      rw [hnil] at hempty
      cases hempty
    have hless : call.keepStart < call.keepEnd := by
      by_contra hle
      exact hne (drop_eq_nil_of_le ((length_take_le _ _).trans (Nat.le_of_not_lt hle)))
    have hfront : (tail.rows.take call.keepEnd).take call.keepStart =
        tail.rows.take call.keepStart := by
      rw [take_take, Nat.min_eq_left hless.le]
    have hkept := @charsOf_take_add_drop (tail.rows.take call.keepEnd) call.keepStart
    have hall := @charsOf_take_add_drop tail.rows call.keepEnd
    rw [hfront] at hkept
    rw [if_neg Bool.false_ne_true, hstats.get.1, carried]
    omega

theorem build_eq (hstats : StatsHold tail) : call.build tail =
      if call.keepsAll tail then tail
      else
        { rows := (call.carried tail ++ call.appended).drop (call.dropCount tail)
          stats := some ⟨charsOf ((call.carried tail ++ call.appended).drop (call.dropCount tail)),
            decide ((call.carried tail).length ≤ call.dropCount tail) ||
              ((call.carried tail).isEmpty || (getRetainedTailLineStats tail).rightTrimmed)⟩ } := by
  have hkept := @keptChars_eq tail call hstats
  obtain ⟨keepStart, keepEnd, appended, charCap⟩ := call
  rw [carried] at hkept
  dsimp only at hkept
  unfold build buildCarriedTailLines
  dsimp only
  rw [hkept, ← charsOf_append, charsOf_drop]
  cases charCap with
  | none =>
    by_cases hall : keepsAll ⟨keepStart, keepEnd, appended, none⟩ tail
    · exact (congrArg Prod.fst (if_pos hall)).trans (if_pos hall).symm
    · exact (congrArg Prod.fst (if_neg hall)).trans (if_neg hall).symm
  | some partialChars =>
    dsimp only
    rw [(dropsOver_ok _ _).1, drop_drop]
    by_cases hall : keepsAll ⟨keepStart, keepEnd, appended, some partialChars⟩ tail
    · exact (congrArg Prod.fst (if_pos hall)).trans (if_pos hall).symm
    · exact (congrArg Prod.fst (if_neg hall)).trans (if_neg hall).symm

theorem build_stats (hstats : StatsHold tail)
    (happended : ∀ line ∈ call.appended, isRightTrimmed line = true) :
    StatsHold (call.build tail) := by
  rw [build_eq hstats]
  split_ifs
  · exact hstats
  · rintro stats hknown
    obtain rfl := Option.mem_some.mp hknown
    refine ⟨rfl, fun htrimmed line hline => ?_⟩
    rw [drop_append] at hline
    rcases mem_append.mp hline with hcarried | hadded
    · have hmem := mem_of_mem_drop hcarried
      have hshort : ¬ (call.carried tail).length ≤ call.dropCount tail := by
        intro hle
        rw [drop_eq_nil_of_le hle] at hcarried
        exact not_mem_nil hcarried
      have hsome : (call.carried tail).isEmpty = false := by
        cases hempty : (call.carried tail).isEmpty with
        | false => rfl
        | true =>
          rw [isEmpty_iff.mp hempty] at hmem
          exact absurd hmem not_mem_nil
      simp only [hshort, hsome, decide_false, Bool.false_or] at htrimmed
      exact hstats.get.2 htrimmed line (mem_of_mem_take (mem_of_mem_drop hmem))
    · exact happended line (mem_of_mem_drop hadded)

end CarryCall

end Stats

section Sentinels

variable (sentinel : Text → Bool)

def collectSentinelMatches : List Text → ℕ → List ℕ
  | [], _ => []
  | line :: rest, index =>
    if sentinel line then index :: collectSentinelMatches rest (index + 1)
    else collectSentinelMatches rest (index + 1)

/-- The matches remembered of the lines; lines not seen before are scanned. -/
def getTerminalTailSentinelMatches (lines : List Text) (cached : Option (List ℕ)) : List ℕ :=
  cached.getD (collectSentinelMatches sentinel lines 0)

/-- The matches in the carried window, moved to its new place, and those of the lines behind. -/
def carryTerminalTailSentinelMatches (previousLines : List Text) (cached : Option (List ℕ))
    (nextLines : List Text) (carriedSourceStart carriedCount : ℕ) : List ℕ :=
  let matched :=
    if 0 < carriedCount then
      ((getTerminalTailSentinelMatches sentinel previousLines cached).takeWhile
        (· < carriedSourceStart + carriedCount)).filter (carriedSourceStart ≤ ·)
    else []
  matched.map (· - carriedSourceStart) ++
    collectSentinelMatches sentinel (nextLines.drop carriedCount) carriedCount

variable {sentinel}

theorem collect_append (front back : List Text) (index : ℕ) :
    collectSentinelMatches sentinel (front ++ back) index =
      collectSentinelMatches sentinel front index ++
        collectSentinelMatches sentinel back (index + front.length) := by
  induction front generalizing index with
  | nil => rfl
  | cons line rest ih =>
    have hplace : index + 1 + rest.length = index + (line :: rest).length := by
      rw [length_cons]
      omega
    rw [cons_append, collectSentinelMatches, collectSentinelMatches, ih, hplace]
    split_ifs <;> rfl

theorem collect_bounds (lines : List Text) (index : ℕ) :
    ∀ place ∈ collectSentinelMatches sentinel lines index,
      index ≤ place ∧ place < index + lines.length := by
  induction lines generalizing index with
  | nil => exact fun _ hplace => absurd hplace not_mem_nil
  | cons line rest ih =>
    intro place hplace
    have hlength : (line :: rest).length = rest.length + 1 := rfl
    rw [collectSentinelMatches] at hplace
    have hrest : place ∈ collectSentinelMatches sentinel rest (index + 1) →
        index ≤ place ∧ place < index + (line :: rest).length := by
      intro hlater
      have hbounds := ih (index + 1) place hlater
      omega
    split_ifs at hplace
    · rcases mem_cons.mp hplace with rfl | hlater
      · omega
      · exact hrest hlater
    · exact hrest hplace

theorem collect_shift (lines : List Text) (index count : ℕ) :
    (collectSentinelMatches sentinel lines (count + index)).map (· - count) =
      collectSentinelMatches sentinel lines index := by
  induction lines generalizing index with
  | nil => rfl
  | cons line rest ih =>
    rw [collectSentinelMatches, collectSentinelMatches, Nat.add_assoc]
    split_ifs
    · rw [map_cons, ih, Nat.add_sub_cancel_left]
    · exact ih (index + 1)

/-- The matches carried are those of the lines kept. -/
theorem carried_matches (lines : List Text) (start count : ℕ) :
    (((collectSentinelMatches sentinel lines 0).takeWhile (· < start + count)).filter
        (start ≤ ·)).map (· - start) =
      collectSentinelMatches sentinel ((lines.take (start + count)).drop start) 0 := by
  generalize hwindow : lines.take (start + count) = window
  have hlength : window.length ≤ start + count := hwindow ▸ length_take_le _ _
  have hinside : (collectSentinelMatches sentinel lines 0).takeWhile (· < start + count) =
      collectSentinelMatches sentinel window 0 := by
    have hbehind : (collectSentinelMatches sentinel (lines.drop (start + count))
        (0 + window.length)).takeWhile (· < start + count) = [] := by
      by_cases hshort : lines.length ≤ start + count
      · rw [drop_eq_nil_of_le hshort]
        rfl
      · rw [takeWhile_eq_nil_iff]
        intro hfirst hless
        have hbounds := collect_bounds _ _ _ (get_mem _ ⟨0, hfirst⟩)
        have hfull : window.length = start + count := by
          rw [← hwindow, length_take]
          omega
        have hless := of_decide_eq_true hless
        omega
    rw [← take_append_drop (start + count) lines, hwindow, collect_append,
      takeWhile_append_of_pos, hbehind, append_nil]
    intro place hplace
    have hbounds := collect_bounds _ _ _ hplace
    exact decide_eq_true (by omega)
  have hfront :
      (collectSentinelMatches sentinel (window.take start) 0).filter (start ≤ ·) = [] := by
    refine filter_eq_nil_iff.mpr fun place hplace hle => ?_
    have hbounds := collect_bounds _ _ _ hplace
    have hshort := length_take_le start window
    have hle := of_decide_eq_true hle
    omega
  rw [hinside, ← take_append_drop start window, collect_append, filter_append, hfront,
    nil_append, take_append_drop]
  by_cases hless : window.length ≤ start
  · rw [drop_eq_nil_of_le hless]
    rfl
  · rw [length_take_of_le (by omega), Nat.zero_add, filter_eq_self.mpr, ← collect_shift _ 0 start]
    · rfl
    · intro place hplace
      exact decide_eq_true (collect_bounds _ _ _ hplace).1

theorem collect_eq_filter (lines : List Text) : collectSentinelMatches sentinel lines 0 =
      (List.range lines.length).filter fun index => (lines[index]?).any sentinel := by
  induction lines using List.reverseRecOn with
  | nil => rfl
  | append_singleton lines last ih =>
    have hsame : ((List.range lines.length).filter fun index =>
          ((lines ++ [last])[index]?).any sentinel) =
        (List.range lines.length).filter fun index => (lines[index]?).any sentinel := by
      refine filter_congr fun index hindex => ?_
      rw [getElem?_append_left (mem_range.mp hindex)]
    rw [collect_append, ih, length_append, length_singleton, range_succ,
      filter_append, hsame, Nat.zero_add]
    congr 1
    rw [collectSentinelMatches, filter_cons, getElem?_concat_length]
    rfl

theorem get_eq {lines : List Text} {cached : Option (List ℕ)}
    (hcached : ∀ known ∈ cached, known = collectSentinelMatches sentinel lines 0) :
    getTerminalTailSentinelMatches sentinel lines cached =
      collectSentinelMatches sentinel lines 0 := by
  cases hknown : cached with
  | none => rfl
  | some known => exact hcached known hknown

theorem carry_eq {previousLines nextLines : List Text} {cached : Option (List ℕ)}
    {start count : ℕ}
    (hcached : ∀ known ∈ cached, known = collectSentinelMatches sentinel previousLines 0)
    (hcount : count ≤ nextLines.length)
    (hcarried : (previousLines.take (start + count)).drop start = nextLines.take count) :
    carryTerminalTailSentinelMatches sentinel previousLines cached nextLines start count =
      collectSentinelMatches sentinel nextLines 0 := by
  rw [carryTerminalTailSentinelMatches, get_eq hcached]
  conv_rhs => rw [← take_append_drop count nextLines, collect_append, Nat.zero_add,
    length_take_of_le hcount]
  congr 1
  split_ifs with hpositive
  · rw [carried_matches, hcarried]
  · rw [Nat.eq_zero_of_not_pos hpositive]
    rfl

end Sentinels

/-- What an append hands to the carry; none where the chunk is empty and the tail returned. -/
def carryCall (tail : RetainedTail) (previousPartialLine normalizedChunk : Text)
    (previousRedrawCursor : Option RetainedTailRedrawCursor) : Option CarryCall :=
  if normalizedChunk = [] then none
  else
    let capped := decide (MAX_TAIL_PARTIAL_CHARS < previousPartialLine.length)
    let bounded := previousPartialLine.rtake MAX_TAIL_PARTIAL_CHARS
    let combinedChunk := bounded ++ normalizedChunk
    if previousRedrawCursor.isSome || containsTerminalVerticalLineControl combinedChunk then
      let windowRows := maxUpwardCursorReach normalizedChunk previousRedrawCursor
        (tail.rows.length - REDRAW_WINDOW_SAFETY_ROWS) + REDRAW_WINDOW_SAFETY_ROWS
      if tail.rows.length ≤ windowRows then
        some ⟨0, 0, (appendNormalizedToMultilineTailBufferUnwindowed tail.rows bounded
          normalizedChunk capped previousRedrawCursor).lines, none⟩
      else
        let front := tail.rows.length - windowRows
        let windowed := appendNormalizedToMultilineTailBufferUnwindowed (tail.rows.drop front)
          bounded normalizedChunk capped previousRedrawCursor
        if (getRetainedTailLineStats tail).rightTrimmed then
          some ⟨0, front, windowed.lines, some windowed.partialLine.length⟩
        else
          some ⟨0, 0, (tail.rows.take front).map trimTerminalLineRight ++ windowed.lines,
            some windowed.partialLine.length⟩
    else
      let segments := splitRetainedTerminalTailSegments combinedChunk
      let pieces := processTerminalTailCompleteSegments segments.completeSegments
      let retainedPartialLine := (trimTerminalLineRight
        (applyTerminalLineControls segments.partialSegment).text).rtake MAX_TAIL_PARTIAL_CHARS
      some ⟨
        if segments.completeLineCount = 0 ∨ segments.completeLineCount - pieces.length = 0 then 0
        else tail.rows.length,
        tail.rows.length, pieces.map trimTerminalLineRight,
        if 0 < segments.completeLineCount ∨
            previousPartialLine.length < retainedPartialLine.length then
          some retainedPartialLine.length
        else none⟩

section Calls

variable {tail : RetainedTail} {partialLine chunk : Text} {cursor : Option RetainedTailRedrawCursor}

theorem append_lines : (appendNormalizedToTailBuffer tail partialLine chunk cursor).lines =
    ((carryCall tail partialLine chunk cursor).map (·.build tail)).getD tail := by
  unfold appendNormalizedToTailBuffer carryCall appendNormalizedToMultilineTailBuffer
  dsimp only
  split_ifs <;> rfl

theorem carryCall_ok {call : CarryCall}
    (hcall : carryCall tail partialLine chunk cursor = some call) :
    call.keepEnd ≤ tail.rows.length ∧ ∀ line ∈ call.appended, isRightTrimmed line = true := by
  have hpieces : ∀ (lines : List Text), ∀ line ∈ lines.map trimTerminalLineRight,
      isRightTrimmed line = true := by
    intro lines line hline
    obtain ⟨piece, -, rfl⟩ := mem_map.mp hline
    rw [isRightTrimmed, beq_iff_eq]
    exact rdropWhile_idempotent _ _
  unfold carryCall at hcall
  dsimp only at hcall
  split_ifs at hcall <;> obtain rfl := Option.some.inj hcall
  · exact ⟨Nat.zero_le _, unwindowed_trimmed _ _ _ _ _⟩
  · exact ⟨Nat.sub_le _ _, unwindowed_trimmed _ _ _ _ _⟩
  · refine ⟨Nat.zero_le _, fun line hline => ?_⟩
    rcases mem_append.mp hline with hline | hline
    · exact hpieces _ line hline
    · exact unwindowed_trimmed _ _ _ _ _ line hline
  all_goals exact ⟨Nat.le_refl _, hpieces _⟩

end Calls

/-- A tail with what was found in its lines, and what the next append starts from. -/
structure SentinelTail where
  tail : RetainedTail
  partialLine : Text
  redrawCursor : Option RetainedTailRedrawCursor
  sentinelMatches : Option (List ℕ)

section Sentinels

variable (sentinel : Text → Bool)

def CarryCall.sentinelMatches (call : CarryCall) (tail : RetainedTail)
    (cached : Option (List ℕ)) : Option (List ℕ) :=
  if call.keepsAll tail then cached
  else
    let keptCount := call.keepEnd - call.keepStart
    let droppedFromCarried := min (call.dropCount tail) keptCount
    some (carryTerminalTailSentinelMatches sentinel tail.rows cached (call.build tail).rows
      (call.keepStart + droppedFromCarried) (keptCount - droppedFromCarried))

def SentinelTail.append (state : SentinelTail) (chunk : Text) : SentinelTail :=
  let appended := appendNormalizedToTailBuffer state.tail state.partialLine chunk
    state.redrawCursor
  { tail := appended.lines
    partialLine := appended.partialLine
    redrawCursor := appended.redrawCursor
    sentinelMatches :=
      match carryCall state.tail state.partialLine chunk state.redrawCursor with
      | none => state.sentinelMatches
      | some call => call.sentinelMatches sentinel state.tail state.sentinelMatches }

/-- What is remembered beside the lines is what a scan of them would find. -/
structure SentinelTail.Holds (state : SentinelTail) : Prop where
  stats : StatsHold state.tail
  sentinels : ∀ known ∈ state.sentinelMatches,
    known = collectSentinelMatches sentinel state.tail.rows 0

variable {sentinel}

theorem CarryCall.sentinelMatches_eq {call : CarryCall} {tail : RetainedTail}
    {cached : Option (List ℕ)} (hstats : StatsHold tail) (hend : call.keepEnd ≤ tail.rows.length)
    (hcached : ∀ known ∈ cached, known = collectSentinelMatches sentinel tail.rows 0) :
    ∀ known ∈ call.sentinelMatches sentinel tail cached,
      known = collectSentinelMatches sentinel (call.build tail).rows 0 := by
  intro known hknown
  rw [CarryCall.sentinelMatches] at hknown
  have hbuilt := call.build_eq hstats
  split_ifs at hknown hbuilt
  · rw [hbuilt]
    exact hcached known hknown
  · obtain rfl := Option.mem_some.mp hknown
    have hcarried : (call.carried tail).length = call.keepEnd - call.keepStart := by
      rw [CarryCall.carried, length_drop, length_take_of_le hend]
    generalize hdropped : min (call.dropCount tail) (call.keepEnd - call.keepStart) = dropped
    refine carry_eq hcached ?_ ?_
    · rw [hbuilt, length_drop, length_append]
      omega
    · have hsource : (tail.rows.take (call.keepStart + dropped +
          (call.keepEnd - call.keepStart - dropped))).drop (call.keepStart + dropped) =
          (call.carried tail).drop dropped := by
        rw [CarryCall.carried, drop_drop]
        by_cases hless : call.keepStart ≤ call.keepEnd
        · congr 2
          omega
        · rw [drop_eq_nil_of_le, drop_eq_nil_of_le]
          · rw [length_take]
            omega
          · rw [length_take]
            omega
      rw [hsource, hbuilt]
      by_cases hall : call.dropCount tail ≤ (call.carried tail).length
      · have hsame : call.dropCount tail = dropped := by omega
        rw [hsame, drop_append_of_le_length (hsame ▸ hall), take_append_of_le_length,
          take_of_length_le]
        all_goals rw [length_drop, hcarried]
      · rw [drop_eq_nil_of_le (by omega), Nat.sub_eq_zero_of_le (by omega), take_zero]

theorem SentinelTail.Holds.append {state : SentinelTail} (hholds : state.Holds sentinel)
    (chunk : Text) : (state.append sentinel chunk).Holds sentinel := by
  have hlines := @append_lines state.tail state.partialLine chunk state.redrawCursor
  constructor
  · rw [SentinelTail.append, hlines]
    cases hcall : carryCall state.tail state.partialLine chunk state.redrawCursor with
    | none => exact hholds.stats
    | some call => exact CarryCall.build_stats hholds.stats (carryCall_ok hcall).2
  · intro known hknown
    rw [SentinelTail.append] at hknown ⊢
    dsimp only at hknown ⊢
    rw [hlines]
    cases hcall : carryCall state.tail state.partialLine chunk state.redrawCursor with
    | none =>
      rw [hcall] at hknown
      exact hholds.sentinels known hknown
    | some call =>
      rw [hcall] at hknown
      exact CarryCall.sentinelMatches_eq hholds.stats (carryCall_ok hcall).1 hholds.sentinels known
        hknown

end Sentinels

/-- However the chunks come, the characters remembered are those of the lines, lines remembered
as trimmed are trimmed, and the matches remembered are the places of the lines that match. -/
theorem carried_facts (sentinel : Text → Bool) (lines : List Text) (partialLine : Text)
    (cursor : Option RetainedTailRedrawCursor) (chunks : List Text) :
    let state := chunks.foldl (SentinelTail.append sentinel)
      ⟨⟨lines, none⟩, partialLine, cursor, none⟩
    (getRetainedTailLineStats state.tail).totalChars = charsOf state.tail.rows ∧
      ((getRetainedTailLineStats state.tail).rightTrimmed = true →
        ∀ line ∈ state.tail.rows, isRightTrimmed line = true) ∧
      getTerminalTailSentinelMatches sentinel state.tail.rows state.sentinelMatches =
        (List.range state.tail.rows.length).filter
          fun index => (state.tail.rows[index]?).any sentinel := by
  have hrun : ∀ state : SentinelTail, state.Holds sentinel →
      (chunks.foldl (SentinelTail.append sentinel) state).Holds sentinel := by
    induction chunks with
    | nil => exact fun _ hholds => hholds
    | cons chunk rest ih => exact fun _ hholds => ih _ (hholds.append chunk)
  intro state
  have hholds := hrun ⟨⟨lines, none⟩, partialLine, cursor, none⟩
    ⟨fun _ hstats => (by cases hstats), fun _ hknown => (by cases hknown)⟩
  refine ⟨hholds.stats.get.1, hholds.stats.get.2, ?_⟩
  rw [get_eq hholds.sentinels, collect_eq_filter]

end Wakii.Terminal
