import Wakii.Terminal.LineControls

/-!
# One row that is redrawn

A row remembers its right-trimmed snapshot, where its content ends and how much
of its start is blank, so that an unchanged row is not scanned again.
-/

namespace Wakii.Terminal

structure RetainedTerminalRow where
  text : Text
  /-- The right-trimmed text; none after a change. -/
  snapshot : Option Text
  /-- Where the last unit that is no blank ends; none when it is unknown. -/
  contentEnd : Option ℕ
  /-- At least so many units at the start are spaces. -/
  blankPrefix : ℕ
  completed : Bool
  deriving DecidableEq

def retainedRow (text : Text) (completed : Bool) : RetainedTerminalRow :=
  ⟨text, none, none, 0, completed⟩

def sharedUnits : Text → Text → ℕ
  | left :: lefts, right :: rights => if left = right then sharedUnits lefts rights + 1 else 0
  | _, _ => 0

def writtenEnd (column : ℕ) (run : Text) : Option ℕ :=
  let shown := trimTerminalLineRight run
  if shown.isEmpty then none else some (column + shown.length)

namespace RetainedTerminalRow

variable (row : RetainedTerminalRow)

/-- Notes that the units from the column to the end of the run have changed. -/
def noteWrite (column runEnd : ℕ) (written : Option ℕ) : RetainedTerminalRow :=
  let noted := { row with snapshot := none, blankPrefix := min row.blankPrefix column }
  match row.contentEnd with
  | none => { noted with contentEnd := if row.text.length ≤ runEnd then written else none }
  | some contentEnd =>
    if runEnd < contentEnd then noted
    else if written.isSome then { noted with contentEnd := written }
    else if column < contentEnd then { noted with contentEnd := none }
    else noted

def writtenText (column : ℕ) (run : Text) : Text :=
  let overlap := min (row.text.length - column) run.length
  let offset := sharedUnits ((row.text.drop column).take overlap) run
  if column = 0 ∧ row.text.length ≤ run.length then run
  else if row.text.length ≤ column then
    row.text ++ List.replicate (column - row.text.length) SPACE ++ run
  else if offset = overlap then row.text ++ run.drop offset
  else row.text.take (column + offset) ++ run.drop offset ++ row.text.drop (column + run.length)

end RetainedTerminalRow

/-- Writes a run at the column; the same characters leave the row as it is. -/
def writeRetainedRow (row : RetainedTerminalRow) (column : ℕ) (run : Text) :
    RetainedTerminalRow :=
  let overlap := min (row.text.length - column) run.length
  let offset := sharedUnits ((row.text.drop column).take overlap) run
  if offset = run.length then row
  else
    { row with text := row.writtenText column run }.noteWrite column (column + run.length)
      (writtenEnd column run)

def eraseRetainedRow (row : RetainedTerminalRow) (mode column : ℕ) : RetainedTerminalRow :=
  if mode = 2 ∨ mode = 0 then
    let keep := if mode = 2 then 0 else column
    if row.text.length ≤ keep then row
    else
      { row with
        text := row.text.take keep
        snapshot := none
        blankPrefix := min row.blankPrefix keep
        contentEnd := row.contentEnd.filter fun contentEnd => decide (contentEnd ≤ keep) }
  else if mode = 1 then
    let blankCount := min (column + 1) row.text.length
    let firstNonBlank := row.blankPrefix +
      (((row.text.take blankCount).drop row.blankPrefix).takeWhile (· == SPACE)).length
    let noted := { row with blankPrefix := max row.blankPrefix blankCount }
    if blankCount ≤ firstNonBlank then noted
    else
      { noted with
        text := List.replicate blankCount SPACE ++ row.text.drop blankCount
        snapshot := none
        contentEnd := row.contentEnd.map fun contentEnd =>
          if contentEnd ≤ blankCount then 0 else contentEnd }
  else row

def retainedRowSnapshot (row : RetainedTerminalRow) : RetainedTerminalRow × Text :=
  match row.snapshot with
  | some snapshot => (row, snapshot)
  | none =>
    let contentEnd := row.contentEnd.getD (trimTerminalLineRight row.text).length
    let snapshot := row.text.take contentEnd
    ({ row with contentEnd := some contentEnd, snapshot := some snapshot }, snapshot)

end Wakii.Terminal
