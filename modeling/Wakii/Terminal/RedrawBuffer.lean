import Wakii.Terminal.RedrawRow

/-!
# Redrawing rows

A chunk that moves the cursor up is played over the rows that are kept: it
completes rows, goes back to them and writes over them.  Rows past the line cap
are given up at once and cut off in batches.
-/

namespace Wakii.Terminal

structure RetainedTailRedrawCursor where
  rowFromEnd : ℕ
  column : ℕ
  deriving DecidableEq

/-- What an append returns; the lines are an array, or one with what is known of it. -/
@[ext] structure TailAppend (Lines : Type) where
  lines : Lines
  partialLine : Text
  redrawCursor : Option RetainedTailRedrawCursor
  truncated : Bool
  newCompleteLines : ℕ
  newlyCompletedLines : List Text

structure RetainedTailRedraw where
  rows : List RetainedTerminalRow
  cursorRow : ℕ
  cursorColumn : ℕ
  newCompleteLines : ℕ
  newlyCompletedLines : List Text
  newlyCompletedLineCharacters : ℕ
  newlyCompletedLineStart : ℕ
  truncated : Bool
  /-- The rows before this one are dropped by the line cap but not cut off yet. -/
  trimmedRows : ℕ

inductive RedrawControl
  | newline
  | carriageReturn
  | backspace
  | sequence (parsed : AnsiControlSequence)
  | text (run : Text)
  deriving DecidableEq

def isRedrawControlCode (code : CodeUnit) : Bool :=
  code == NEWLINE || code == CARRIAGE_RETURN || code == BACKSPACE || code == ESCAPE

/-- What a chunk does, control by control; an escape that starts no sequence does nothing. -/
def redrawControlsFrom : ℕ → Text → List RedrawControl
  | 0, _ => []
  | _, [] => []
  | fuel + 1, code :: rest =>
    if code = NEWLINE then .newline :: redrawControlsFrom fuel rest
    else if code = CARRIAGE_RETURN then .carriageReturn :: redrawControlsFrom fuel rest
    else if code = BACKSPACE then .backspace :: redrawControlsFrom fuel rest
    else if code = ESCAPE then
      match parseAnsiControlSequence rest with
      | none => redrawControlsFrom fuel rest
      | some (parsed, after) => .sequence parsed :: redrawControlsFrom fuel after
    else
      .text (code :: rest.takeWhile fun next => !isRedrawControlCode next) ::
        redrawControlsFrom fuel (rest.dropWhile fun next => !isRedrawControlCode next)

def redrawControls (chunk : Text) : List RedrawControl := redrawControlsFrom chunk.length chunk

/-- Gives up the oldest completed lines until both caps are kept. -/
def evictCompleted (lines : List Text) : ℕ → ℕ → ℕ → ℕ × ℕ
  | 0, start, characters => (start, characters)
  | fuel + 1, start, characters =>
    if MAX_TAIL_LINES < lines.length - start ∨ MAX_TAIL_CHARS < characters then
      evictCompleted lines fuel (start + 1) (characters - ((lines[start]?).getD []).length)
    else (start, characters)

namespace RetainedTailRedraw

variable (redraw : RetainedTailRedraw)

def retainNewlyCompletedLine (line : Text) : RetainedTailRedraw :=
  let lines := redraw.newlyCompletedLines ++ [line]
  let (start, characters) := evictCompleted lines lines.length redraw.newlyCompletedLineStart
    (redraw.newlyCompletedLineCharacters + line.length)
  if MAX_TAIL_LINES ≤ start then
    { redraw with
      newlyCompletedLines := lines.drop start
      newlyCompletedLineCharacters := characters
      newlyCompletedLineStart := 0 }
  else
    { redraw with
      newlyCompletedLines := lines
      newlyCompletedLineCharacters := characters
      newlyCompletedLineStart := start }

def ensureCursorRow : RetainedTailRedraw :=
  { redraw with
    rows := redraw.rows ++
      List.replicate (redraw.cursorRow + 1 - redraw.rows.length) (retainedRow [] false) }

def spliceTrimmedRows : RetainedTailRedraw :=
  { redraw with
    rows := redraw.rows.drop redraw.trimmedRows
    cursorRow := redraw.cursorRow - redraw.trimmedRows
    trimmedRows := 0 }

def trimRows : RetainedTailRedraw :=
  let excess := redraw.rows.length - redraw.trimmedRows - (MAX_TAIL_LINES + 1)
  if excess = 0 then redraw
  else
    let trimmed := { redraw with trimmedRows := redraw.trimmedRows + excess, truncated := true }
    if MAX_TAIL_LINES ≤ trimmed.trimmedRows then trimmed.spliceTrimmedRows else trimmed

/-- The row of the cursor, changed; a row that is edited is complete no longer. -/
def editCursorRow (edit : RetainedTerminalRow → RetainedTerminalRow) : RetainedTailRedraw :=
  let ensured := redraw.ensureCursorRow
  { ensured with
    rows := ensured.rows.modify ensured.cursorRow fun row => edit { row with completed := false } }

def writeText (run : Text) : RetainedTailRedraw :=
  let written := redraw.editCursorRow fun row => writeRetainedRow row redraw.cursorColumn run
  { written with cursorColumn := redraw.cursorColumn + run.length }

def eraseLine (mode : ℕ) : RetainedTailRedraw :=
  redraw.editCursorRow fun row => eraseRetainedRow row mode redraw.cursorColumn

def completedRow : RetainedTerminalRow :=
  { (redraw.rows[redraw.cursorRow]?).getD (retainedRow [] false) with completed := true }

/-- A newline, short of the line cap. -/
def completeRowUncapped : RetainedTailRedraw :=
  let ensured := redraw.ensureCursorRow
  let (row, line) := retainedRowSnapshot ensured.completedRow
  let completed := { ensured with
    rows := ensured.rows.set ensured.cursorRow row
    newCompleteLines := ensured.newCompleteLines + 1 }
  let retained := completed.retainNewlyCompletedLine line
  { retained with cursorRow := retained.cursorRow + 1, cursorColumn := 0 }.ensureCursorRow

def completeRow : RetainedTailRedraw := redraw.completeRowUncapped.trimRows

def applySequence : AnsiControlSequence → RetainedTailRedraw
  | .other => redraw
  | .csi final params firstParam =>
    if !hasCanonicalNumericCsiParams params then redraw
    else if final.val = 0x41 then
      let cursorRow := max redraw.trimmedRows (redraw.cursorRow - firstParam.getD 1)
      { redraw with cursorRow, rows := redraw.rows.take (cursorRow + 1) }
    else if final.val = 0x4b then redraw.eraseLine (firstParam.getD 0)
    else if final.val = 0x47 ∨ final.val = 0x60 then
      { redraw with cursorColumn := clampTerminalPreviewCursor (firstParam.getD 1 - 1) }
    else if final.val = 0x44 then
      { redraw with cursorColumn := redraw.cursorColumn - firstParam.getD 1 }
    else if final.val = 0x43 then
      { redraw with
        cursorColumn := clampTerminalPreviewCursor (redraw.cursorColumn + firstParam.getD 1) }
    else redraw

def apply : RedrawControl → RetainedTailRedraw
  | .newline => redraw.completeRow
  | .carriageReturn => { redraw with cursorColumn := 0 }
  | .backspace => { redraw with cursorColumn := redraw.cursorColumn - 1 }
  | .sequence parsed => redraw.applySequence parsed
  | .text run => redraw.writeText run

def run (controls : List RedrawControl) : RetainedTailRedraw := controls.foldl apply redraw

end RetainedTailRedraw

def charsOf (lines : List Text) : ℕ := (lines.map List.length).sum

structure FinalizedRow where
  text : Text
  completed : Bool
  deriving DecidableEq

def finalizedRow (row : RetainedTerminalRow) : FinalizedRow :=
  ⟨(retainedRowSnapshot row).2, row.completed⟩

/-- Drops the oldest rows, but never the last, until the characters are within the cap. -/
def dropOverfullRows : List FinalizedRow → ℕ → List FinalizedRow
  | row :: next :: more, totalChars =>
    if MAX_TAIL_CHARS < totalChars then
      dropOverfullRows (next :: more) (totalChars - row.text.length)
    else row :: next :: more
  | rows, _ => rows

def dropBlankRows (cursorRow : ℕ) : List FinalizedRow → List FinalizedRow
  | row :: next :: more =>
    if cursorRow < more.length + 1 ∧ row.completed = false ∧ row.text = [] then
      dropBlankRows cursorRow (next :: more)
    else row :: next :: more
  | rows => rows

def finalizeRetainedTerminalRows (rows : List RetainedTerminalRow) (cursorRow cursorColumn : ℕ)
    (initialTruncated : Bool) (newCompleteLines : ℕ) (newlyCompletedLines : List Text) :
    TailAppend (List Text) :=
  let all := rows.map finalizedRow
  let removeCount := all.length - (MAX_TAIL_LINES + 1)
  let kept := all.drop removeCount
  let cursorRow := cursorRow - removeCount
  let within := dropOverfullRows kept (charsOf (kept.map FinalizedRow.text))
  let trimStartIndex := kept.length - within.length
  let cursorRow := cursorRow - trimStartIndex
  let retained := (dropBlankRows cursorRow within.reverse).reverse
  let openRow := retained.getLast?.filter fun row => !row.completed
  let fullPartialLine := (openRow.map FinalizedRow.text).getD []
  let fullLines := (if openRow.isSome then retained.dropLast else retained).map FinalizedRow.text
  let partialLine := fullPartialLine.rtake MAX_TAIL_PARTIAL_CHARS
  let lines := fullLines.rtake MAX_TAIL_LINES
  let outputRowCount := lines.length + 1
  { lines
    partialLine
    redrawCursor :=
      if cursorRow = outputRowCount - 1 ∧ cursorColumn = partialLine.length then none
      else some ⟨outputRowCount - 1 - cursorRow, clampTerminalPreviewCursor cursorColumn⟩
    truncated := initialTruncated || decide (0 < removeCount) || decide (0 < trimStartIndex) ||
      decide (MAX_TAIL_PARTIAL_CHARS < fullPartialLine.length) ||
      decide (MAX_TAIL_LINES < fullLines.length)
    newCompleteLines
    newlyCompletedLines }

/-- The rows as a chunk finds them, with the cursor where the last chunk left it. -/
def startRedraw (previousLines : List Text) (boundedPreviousPartialLine : Text)
    (previousPartialWasCapped : Bool) (previousRedrawCursor : Option RetainedTailRedrawCursor) :
    RetainedTailRedraw :=
  let rows := previousLines.map (retainedRow · true) ++
    [retainedRow boundedPreviousPartialLine false]
  { rows
    cursorRow := rows.length - 1 - (previousRedrawCursor.map fun cursor => cursor.rowFromEnd).getD 0
    cursorColumn := (previousRedrawCursor.map fun cursor => cursor.column).getD
      boundedPreviousPartialLine.length
    newCompleteLines := 0
    newlyCompletedLines := []
    newlyCompletedLineCharacters := 0
    newlyCompletedLineStart := 0
    truncated := previousPartialWasCapped
    trimmedRows := 0 }

def appendNormalizedToMultilineTailBufferUnwindowed (previousLines : List Text)
    (boundedPreviousPartialLine normalizedChunk : Text) (previousPartialWasCapped : Bool)
    (previousRedrawCursor : Option RetainedTailRedrawCursor) : TailAppend (List Text) :=
  let redraw := ((startRedraw previousLines boundedPreviousPartialLine previousPartialWasCapped
    previousRedrawCursor).run (redrawControls normalizedChunk)).spliceTrimmedRows
  finalizeRetainedTerminalRows redraw.rows redraw.cursorRow redraw.cursorColumn redraw.truncated
    redraw.newCompleteLines (redraw.newlyCompletedLines.drop redraw.newlyCompletedLineStart)

end Wakii.Terminal
