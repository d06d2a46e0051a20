import Mathlib.Data.List.DropRight
import Wakii.Terminal.AnsiSequence

/-!
# The controls within one line

A line is redrawn by carriage returns, backspaces and cursor columns; what is
kept of it is what it shows at last, without the blanks at its end.
-/

namespace Wakii.Terminal

@[irreducible] def MAX_TAIL_LINES : ℕ := 2000
@[irreducible] def MAX_TAIL_CHARS : ℕ := 256 * 1024
@[irreducible] def MAX_TAIL_PARTIAL_CHARS : ℕ := 4000
@[irreducible] def DEFAULT_TERMINAL_READ_LIMIT : ℕ := 120
@[irreducible] def MAX_TERMINAL_READ_LIMIT : ℕ := 2000
@[irreducible] def MAX_TERMINAL_PREVIEW_CHARS : ℕ := 32 * 1024

def isTrimmedWhitespace (code : CodeUnit) : Bool := code == SPACE || code == TAB

def trimTerminalLineRight (line : Text) : Text := line.rdropWhile isTrimmedWhitespace

def splitLines : Text → List Text × Text
  | [] => ([], [])
  | code :: rest =>
    let (segments, partialSegment) := splitLines rest
    if code = NEWLINE then ([] :: segments, partialSegment)
    else
      match segments with
      | [] => ([], code :: partialSegment)
      | segment :: more => ((code :: segment) :: more, partialSegment)

def afterNewlines : ℕ → Text → Text
  | 0, value => value
  | count + 1, value =>
    afterNewlines count ((value.dropWhile (· != NEWLINE)).drop 1)

structure TailSegments where
  completeSegments : List Text
  partialSegment : Text
  completeLineCount : ℕ
  deriving DecidableEq

def splitRetainedTerminalTailSegments (value : Text) : TailSegments :=
  let completeLineCount := value.count NEWLINE
  let retainedCompleteCount := min completeLineCount MAX_TAIL_LINES
  let omittedCompleteCount := completeLineCount - retainedCompleteCount
  let (completeSegments, partialSegment) := splitLines (afterNewlines omittedCompleteCount value)
  ⟨completeSegments, partialSegment, completeLineCount⟩

def clampTerminalPreviewCursor (nextCursor : ℕ) : ℕ := min MAX_TAIL_PARTIAL_CHARS nextCursor

/-- The characters of a line, with the holes that growing the array leaves, and the cursor. -/
structure LineCells where
  chars : List (Option CodeUnit)
  cursor : ℕ
  deriving DecidableEq

namespace LineCells

variable (cells : LineCells)

def writeChar (char : CodeUnit) : LineCells :=
  let chars := cells.chars ++ List.replicate (cells.cursor - cells.chars.length) (some SPACE)
  if chars.length ≤ cells.cursor then ⟨chars ++ [some char], cells.cursor + 1⟩
  else ⟨chars.set cells.cursor (some char), cells.cursor + 1⟩

def eraseLine : ℕ → LineCells
  | 0 =>
    { cells with
      chars := cells.chars.take cells.cursor ++
        List.replicate (cells.cursor - cells.chars.length) none }
  | 1 =>
    let deleteCount := min (cells.cursor + 1) cells.chars.length
    { cells with
      chars := List.replicate deleteCount (some SPACE) ++ cells.chars.drop deleteCount }
  | 2 => { cells with chars := [] }
  | _ => cells

def applySequence : AnsiControlSequence → LineCells
  | .other => cells
  | .csi final params firstParam =>
    if !hasCanonicalNumericCsiParams params then cells
    else if final.val = 0x4b then cells.eraseLine (firstParam.getD 0)
    else if final.val = 0x47 ∨ final.val = 0x60 then
      { cells with cursor := clampTerminalPreviewCursor (firstParam.getD 1 - 1) }
    else if final.val = 0x44 then { cells with cursor := cells.cursor - firstParam.getD 1 }
    else if final.val = 0x43 then
      { cells with cursor := clampTerminalPreviewCursor (cells.cursor + firstParam.getD 1) }
    else cells

end LineCells

def lineControlsFrom : ℕ → Text → LineCells → LineCells
  | 0, _, cells => cells
  | _, [], cells => cells
  | fuel + 1, char :: rest, cells =>
    if char = BACKSPACE then
      lineControlsFrom fuel rest { cells with cursor := cells.cursor - 1 }
    else if char = ESCAPE then
      match parseAnsiControlSequence rest with
      | none => lineControlsFrom fuel rest cells
      | some (sequence, after) => lineControlsFrom fuel after (cells.applySequence sequence)
    else lineControlsFrom fuel rest (cells.writeChar char)

structure LineControlsResult where
  text : Text
  cursorColumn : ℕ
  hadControl : Bool
  deriving DecidableEq

/-- Only what follows the last carriage return is shown. -/
def applyTerminalLineControls (line : Text) : LineControlsResult :=
  let latestRedraw := line.rtakeWhile (· != CARRIAGE_RETURN)
  if BACKSPACE ∉ latestRedraw ∧ ESCAPE ∉ latestRedraw then
    ⟨latestRedraw, latestRedraw.length, line.contains CARRIAGE_RETURN⟩
  else
    let cells := lineControlsFrom latestRedraw.length latestRedraw ⟨[], 0⟩
    ⟨cells.chars.filterMap id, cells.cursor, true⟩

def processFromEnd : List Text → ℕ → List Text
  | [], _ => []
  | segment :: earlier, totalChars =>
    let line := (applyTerminalLineControls segment).text
    let totalChars := totalChars + line.length
    if MAX_TAIL_CHARS < totalChars then [line]
    else line :: processFromEnd earlier totalChars

def processTerminalTailCompleteSegments (segments : List Text) : List Text :=
  (processFromEnd segments.reverse 0).reverse

end Wakii.Terminal
