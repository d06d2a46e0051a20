import Mathlib.Data.Rat.Floor
import Wakii.Terminal.TailBuffer

/-!
# The transcript of a terminal and its pages

The transcript keeps the last completed lines for paging.  A cursor counts the
lines completed before it, so a page says where the next one starts.
-/

namespace Wakii.Terminal

structure TerminalTranscript where
  lines : List Text
  characters : ℕ
  truncated : Bool
  deriving DecidableEq

/-- Appends the lines a chunk completed, and nothing from before a line that was not kept. -/
def appendCompletedTerminalTranscript (previousLines : List Text) (previousCharacters : ℕ)
    (newlyCompletedLines : List Text) (newCompleteLineCount : ℕ) : TerminalTranscript :=
  if newCompleteLineCount = 0 then ⟨previousLines, previousCharacters, false⟩
  else
    let omittedNewLineCount := newCompleteLineCount - newlyCompletedLines.length
    let lines := (if 0 < omittedNewLineCount then [] else previousLines) ++ newlyCompletedLines
    let characters :=
      (if 0 < omittedNewLineCount then 0 else previousCharacters) + charsOf newlyCompletedLines
    let overLines := lines.length - MAX_TAIL_LINES
    let (overChars, left) := dropsOver MAX_TAIL_CHARS (lines.drop overLines)
      (characters - charsOf (lines.take overLines))
    let dropCount := overLines + overChars
    ⟨lines.drop dropCount, left, decide (0 < omittedNewLineCount) || decide (0 < dropCount)⟩

def buildTailLines (lines : List Text) (partialLine : Text) : List Text :=
  if partialLine = [] then lines else lines ++ [partialLine]

/-- A limit as a caller may pass it. -/
inductive ReadLimit
  | undefined
  | notFinite
  | finite (value : ℚ)
  deriving DecidableEq

def terminalReadLimit (limit : ReadLimit) (defaultLimit : ℕ) : ℕ :=
  match limit with
  | .undefined => defaultLimit
  | .notFinite => defaultLimit
  | .finite value =>
    if value ≤ 0 then defaultLimit else min (max 1 ⌊value⌋.toNat) MAX_TERMINAL_READ_LIMIT

/-- How many lines go, and how many characters are left, while the rest alone fills the budget. -/
def omittedPreviewLines (characterBudget : ℕ) : List Text → ℕ → ℕ × ℕ
  | [], totalCharacters => (0, totalCharacters)
  | line :: rest, totalCharacters =>
    if characterBudget + line.length ≤ totalCharacters then
      let (count, left) := omittedPreviewLines characterBudget rest (totalCharacters - line.length)
      (count + 1, left)
    else (0, totalCharacters)

structure TrimmedPreview where
  tail : List Text
  limited : Bool
  omittedLineCount : ℕ
  slicedFirstLine : Bool
  deriving DecidableEq

def trimTerminalPreviewToCharacterBudget (lines : List Text) (characterBudget : ℕ) :
    TrimmedPreview :=
  if charsOf lines ≤ characterBudget then ⟨lines, false, 0, false⟩
  else
    let (omittedLineCount, totalCharacters) :=
      omittedPreviewLines characterBudget lines (charsOf lines)
    let tail := lines.drop omittedLineCount
    if tail ≠ [] ∧ characterBudget < totalCharacters then
      ⟨tail.modify 0 (List.drop (totalCharacters - characterBudget)), true, omittedLineCount, true⟩
    else ⟨tail, true, omittedLineCount, false⟩

structure RuntimeTerminalRead where
  tail : List Text
  truncated : Bool
  limited : Bool
  oldestCursor : ℕ
  nextCursor : ℕ
  latestCursor : ℕ
  returnedLineCount : ℕ
  deriving DecidableEq

structure TerminalReadArgs where
  previewLines : List Text
  completedLines : List Text
  partialLine : Text
  completedLineCount : ℕ
  bufferTruncated : Bool
  cursor : Option ℕ
  limit : ReadLimit

namespace TerminalReadArgs

variable (args : TerminalReadArgs)

def oldestCursor : ℕ := args.completedLineCount - args.completedLines.length

def readPage (cursor : ℕ) : RuntimeTerminalRead :=
  let limit := terminalReadLimit args.limit MAX_TERMINAL_READ_LIMIT
  if args.completedLineCount < cursor then
    { tail := []
      truncated := false
      limited := false
      oldestCursor := args.oldestCursor
      nextCursor := args.completedLineCount
      latestCursor := args.completedLineCount
      returnedLineCount := 0 }
  else
    let startCursor := max cursor args.oldestCursor
    let available := args.completedLines.drop (startCursor - args.oldestCursor)
    let tail := available.take limit
    { tail
      truncated := decide (cursor < args.oldestCursor)
      limited := decide (tail.length < available.length)
      oldestCursor := args.oldestCursor
      nextCursor := startCursor + tail.length
      latestCursor := args.completedLineCount
      returnedLineCount := tail.length }

def readPreview : RuntimeTerminalRead :=
  let limit := terminalReadLimit args.limit DEFAULT_TERMINAL_READ_LIMIT
  let allLines := buildTailLines args.previewLines args.partialLine
  let lineBoundedTail := allLines.rtake limit
  let charBoundedTail := trimTerminalPreviewToCharacterBudget lineBoundedTail
    MAX_TERMINAL_PREVIEW_CHARS
  let charBoundedStartIndex := allLines.length - lineBoundedTail.length +
    charBoundedTail.omittedLineCount
  let hasPageableOmittedCompletedLines :=
    decide (0 < min args.completedLineCount charBoundedStartIndex) ||
      (charBoundedTail.slicedFirstLine && decide (charBoundedStartIndex < args.completedLineCount))
  { tail := charBoundedTail.tail
    truncated := args.bufferTruncated ||
      (charBoundedTail.limited && !hasPageableOmittedCompletedLines)
    limited := decide (lineBoundedTail.length < allLines.length) || charBoundedTail.limited
    oldestCursor := args.oldestCursor
    nextCursor := args.completedLineCount
    latestCursor := args.completedLineCount
    returnedLineCount := charBoundedTail.tail.length }

end TerminalReadArgs

def readTerminalTail (args : TerminalReadArgs) : RuntimeTerminalRead :=
  match args.cursor with
  | some cursor => args.readPage cursor
  | none => args.readPreview

/-- What a PTY record keeps of its output. -/
structure PtyTail where
  tailBuffer : RetainedTail
  tailTranscriptBuffer : List Text
  tailTranscriptChars : ℕ
  tailPartialLine : Text
  tailRedrawCursor : Option RetainedTailRedrawCursor
  tailTruncated : Bool
  tailLinesTotal : ℕ

def emptyPtyTail : PtyTail := ⟨⟨[], none⟩, [], 0, [], none, false, 0⟩

namespace PtyTail

variable (pty : PtyTail)

def onPtyData (normalizedChunk : Text) : PtyTail :=
  let nextTail := appendNormalizedToTailBuffer pty.tailBuffer pty.tailPartialLine normalizedChunk
    pty.tailRedrawCursor
  let nextTranscript := appendCompletedTerminalTranscript pty.tailTranscriptBuffer
    pty.tailTranscriptChars nextTail.newlyCompletedLines nextTail.newCompleteLines
  { tailBuffer := nextTail.lines
    tailTranscriptBuffer := nextTranscript.lines
    tailTranscriptChars := nextTranscript.characters
    tailPartialLine := nextTail.partialLine
    tailRedrawCursor := nextTail.redrawCursor
    tailTruncated := pty.tailTruncated || nextTail.truncated || nextTranscript.truncated
    tailLinesTotal := pty.tailLinesTotal + nextTail.newCompleteLines }

def read (cursor : Option ℕ) (limit : ReadLimit) : RuntimeTerminalRead :=
  readTerminalTail
    { previewLines := pty.tailBuffer.rows
      completedLines := pty.tailTranscriptBuffer
      partialLine := pty.tailPartialLine
      completedLineCount := pty.tailLinesTotal
      bufferTruncated := pty.tailTruncated
      cursor
      limit }

end PtyTail

end Wakii.Terminal
