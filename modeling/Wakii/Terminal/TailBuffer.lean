import Wakii.Terminal.RedrawBuffer

/-!
# Appending a chunk to the retained tail

A chunk without cursor movements up appends its lines; another one redraws only
the rows that its movements can reach and keeps the rows before them.
-/

namespace Wakii.Terminal

structure RetainedTailLineStats where
  totalChars : ℕ
  rightTrimmed : Bool
  deriving DecidableEq

structure RetainedTail where
  rows : List Text
  stats : Option RetainedTailLineStats
  deriving DecidableEq

def isRightTrimmed (line : Text) : Bool := trimTerminalLineRight line == line

def computeStats (lines : List Text) : RetainedTailLineStats :=
  ⟨charsOf lines, lines.all isRightTrimmed⟩

def getRetainedTailLineStats (lines : RetainedTail) : RetainedTailLineStats :=
  lines.stats.getD (computeStats lines.rows)

/-- How many lines to drop from the front until the characters are within the budget, and how
many characters are left. -/
def dropsOver (charBudget : ℕ) : List Text → ℕ → ℕ × ℕ
  | [], totalChars => (0, totalChars)
  | line :: rest, totalChars =>
    if charBudget < totalChars then
      let (dropCount, left) := dropsOver charBudget rest (totalChars - line.length)
      (dropCount + 1, left)
    else (0, totalChars)

/-- Carries the previous lines from `keepStart` to `keepEnd`, appends lines and applies both caps;
also returns whether a cap dropped a row. -/
def buildCarriedTailLines (previousLines : RetainedTail) (keepStart keepEnd : ℕ)
    (appended : List Text) (charCapPartialChars : Option ℕ) : RetainedTail × Bool :=
  let carried := (previousLines.rows.take keepEnd).drop keepStart
  let previousStats := getRetainedTailLineStats previousLines
  let keptChars :=
    if carried.isEmpty then 0
    else previousStats.totalChars - charsOf (previousLines.rows.take keepStart) -
      charsOf (previousLines.rows.drop keepEnd)
  let carriedRightTrimmed := carried.isEmpty || previousStats.rightTrimmed
  let combined := carried ++ appended
  let overLines := combined.length - MAX_TAIL_LINES
  let cappedChars := keptChars + charsOf appended - charsOf (combined.take overLines)
  let (overChars, totalChars) :=
    match charCapPartialChars with
    | none => (0, cappedChars)
    | some partialChars =>
        dropsOver (MAX_TAIL_CHARS - partialChars) (combined.drop overLines) cappedChars
  let dropCount := overLines + overChars
  if dropCount = 0 ∧ appended = [] ∧ keepStart = 0 ∧ keepEnd = previousLines.rows.length then
    (previousLines, false)
  else
    ({ rows := combined.drop dropCount
       stats := some ⟨totalChars, decide (carried.length ≤ dropCount) || carriedRightTrimmed⟩ },
      decide (0 < dropCount))

/-- The number of rows the movements up of the chunk add up to, as a pattern finds them. -/
def cursorUpAt (afterEscape : Text) : Option ℕ :=
  match afterEscape with
  | [] => none
  | introducer :: rest =>
    if introducer.val = 0x5b ∧ (rest.dropWhile isNumericCsiParam).head? = some 0x41 then
      some ((leadingNumber (rest.takeWhile isNumericCsiParam)).getD 1)
    else none

def summedCursorUps : Text → ℕ
  | [] => 0
  | code :: rest =>
    (if code = ESCAPE then (cursorUpAt rest).getD 0 else 0) + summedCursorUps rest

def startRowFromEnd (previousRedrawCursor : Option RetainedTailRedrawCursor) : ℕ :=
  (previousRedrawCursor.map fun cursor => cursor.rowFromEnd).getD 0

def summedUpwardCursorReach (normalizedChunk : Text)
    (previousRedrawCursor : Option RetainedTailRedrawCursor) : ℕ :=
  startRowFromEnd previousRedrawCursor + summedCursorUps normalizedChunk

/-- Where the cursor stands above the end, and the highest it stood. -/
structure UpwardReach where
  rowFromEnd : ℤ
  reach : ℤ

def UpwardReach.applySequence (upward : UpwardReach) : AnsiControlSequence → UpwardReach
  | .other => upward
  | .csi final params firstParam =>
    if final.val = 0x41 ∧ hasCanonicalNumericCsiParams params = true then
      let rowFromEnd := upward.rowFromEnd + firstParam.getD 1
      ⟨rowFromEnd, max upward.reach rowFromEnd⟩
    else upward

def upwardReachFrom : ℕ → Text → UpwardReach → UpwardReach
  | 0, _, upward => upward
  | _, [], upward => upward
  | fuel + 1, code :: rest, upward =>
    if code = NEWLINE then
      upwardReachFrom fuel rest { upward with rowFromEnd := upward.rowFromEnd - 1 }
    else if code = ESCAPE then
      match parseAnsiControlSequence rest with
      | none => upwardReachFrom fuel rest upward
      | some (parsed, after) => upwardReachFrom fuel after (upward.applySequence parsed)
    else upwardReachFrom fuel rest upward

def netUpwardCursorReach (normalizedChunk : Text)
    (previousRedrawCursor : Option RetainedTailRedrawCursor) : ℕ :=
  let rowFromEnd : ℤ := startRowFromEnd previousRedrawCursor
  (upwardReachFrom normalizedChunk.length normalizedChunk ⟨rowFromEnd, rowFromEnd⟩).reach.toNat

/-- The sum bounds the reach; the exact scan is made only where it could still open a window. -/
def maxUpwardCursorReach (normalizedChunk : Text)
    (previousRedrawCursor : Option RetainedTailRedrawCursor) (windowLimit : ℕ) : ℕ :=
  let summed := summedUpwardCursorReach normalizedChunk previousRedrawCursor
  if summed < windowLimit ∨ windowLimit = 0 then summed
  else netUpwardCursorReach normalizedChunk previousRedrawCursor

def REDRAW_WINDOW_SAFETY_ROWS : ℕ := 8

def appendNormalizedToMultilineTailBuffer (previousLines : RetainedTail)
    (boundedPreviousPartialLine normalizedChunk : Text) (previousPartialWasCapped : Bool)
    (previousRedrawCursor : Option RetainedTailRedrawCursor) : TailAppend RetainedTail :=
  let windowRows := maxUpwardCursorReach normalizedChunk previousRedrawCursor
    (previousLines.rows.length - REDRAW_WINDOW_SAFETY_ROWS) + REDRAW_WINDOW_SAFETY_ROWS
  if previousLines.rows.length ≤ windowRows then
    let unwindowed := appendNormalizedToMultilineTailBufferUnwindowed previousLines.rows
      boundedPreviousPartialLine normalizedChunk previousPartialWasCapped previousRedrawCursor
    { unwindowed with lines := (buildCarriedTailLines previousLines 0 0 unwindowed.lines none).1 }
  else
    let prefixLength := previousLines.rows.length - windowRows
    let windowed := appendNormalizedToMultilineTailBufferUnwindowed
      (previousLines.rows.drop prefixLength) boundedPreviousPartialLine normalizedChunk
      previousPartialWasCapped previousRedrawCursor
    let (built, dropped) :=
      if (getRetainedTailLineStats previousLines).rightTrimmed then
        buildCarriedTailLines previousLines 0 prefixLength windowed.lines
          (some windowed.partialLine.length)
      else
        -- Rows that are not trimmed are rewritten as a whole redraw would leave them.
        buildCarriedTailLines previousLines 0 0
          ((previousLines.rows.take prefixLength).map trimTerminalLineRight ++ windowed.lines)
          (some windowed.partialLine.length)
    { windowed with lines := built, truncated := windowed.truncated || dropped }

def appendNormalizedToTailBuffer (previousLines : RetainedTail)
    (previousPartialLine normalizedChunk : Text)
    (previousRedrawCursor : Option RetainedTailRedrawCursor) : TailAppend RetainedTail :=
  if normalizedChunk = [] then
    ⟨previousLines, previousPartialLine, previousRedrawCursor, false, 0, []⟩
  else
    let previousPartialWasCapped := decide (MAX_TAIL_PARTIAL_CHARS < previousPartialLine.length)
    let boundedPreviousPartialLine := previousPartialLine.rtake MAX_TAIL_PARTIAL_CHARS
    let combinedChunk := boundedPreviousPartialLine ++ normalizedChunk
    if previousRedrawCursor.isSome || containsTerminalVerticalLineControl combinedChunk then
      appendNormalizedToMultilineTailBuffer previousLines boundedPreviousPartialLine
        normalizedChunk previousPartialWasCapped previousRedrawCursor
    else
      let segments := splitRetainedTerminalTailSegments combinedChunk
      let pieces := processTerminalTailCompleteSegments segments.completeSegments
      let newlyCompletedLines := pieces.map trimTerminalLineRight
      let partialResult := applyTerminalLineControls segments.partialSegment
      let nextPartialLine := trimTerminalLineRight partialResult.text
      let retainedPartialLine := nextPartialLine.rtake MAX_TAIL_PARTIAL_CHARS
      let newCompleteLines := segments.completeLineCount
      let omittedNewCompleteLines := newCompleteLines - pieces.length
      let carriesPreviousLines := newCompleteLines = 0 ∨ omittedNewCompleteLines = 0
      let (built, dropped) := buildCarriedTailLines previousLines
        (if carriesPreviousLines then 0 else previousLines.rows.length) previousLines.rows.length
        newlyCompletedLines
        (if 0 < newCompleteLines ∨ previousPartialLine.length < retainedPartialLine.length then
          some retainedPartialLine.length
        else none)
      { lines := built
        partialLine := retainedPartialLine
        redrawCursor :=
          if !partialResult.hadControl ∨ partialResult.cursorColumn = nextPartialLine.length then
            none
          else some ⟨0, partialResult.cursorColumn⟩
        truncated := previousPartialWasCapped || decide (0 < omittedNewCompleteLines) ||
          decide (MAX_TAIL_PARTIAL_CHARS < nextPartialLine.length) || dropped
        newCompleteLines
        newlyCompletedLines }

end Wakii.Terminal
