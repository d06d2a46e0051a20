import Wakii.Terminal.CompletedLines
import Wakii.Terminal.RedrawReach

/-!
# Redraws that differ by rows in front

The same controls over the same rows, with more rows in front of them, change
the same rows in the same way.  A redraw without the line cap is followed by the
capped one, which only lacks the rows it gave up.
-/

namespace Wakii.Terminal

open List

section Fields

variable {redraw : RetainedTailRedraw}

theorem ensureCursorRow_inside (hinside : redraw.cursorRow < redraw.rows.length) :
    redraw.ensureCursorRow = redraw := by
  unfold RetainedTailRedraw.ensureCursorRow
  rw [Nat.sub_eq_zero_of_le hinside, replicate_zero, append_nil]

/-- Everything but the completed lines. -/
structure SameRows (before after : RetainedTailRedraw) : Prop where
  rows : after.rows = before.rows
  cursorRow : after.cursorRow = before.cursorRow
  cursorColumn : after.cursorColumn = before.cursorColumn
  truncated : after.truncated = before.truncated
  trimmedRows : after.trimmedRows = before.trimmedRows
  newCompleteLines : after.newCompleteLines = before.newCompleteLines

theorem retain_sameRows (redraw : RetainedTailRedraw) (line : Text) :
    SameRows redraw (redraw.retainNewlyCompletedLine line) := by
  unfold RetainedTailRedraw.retainNewlyCompletedLine
  dsimp only
  split_ifs
  · exact ⟨rfl, rfl, rfl, rfl, rfl, rfl⟩
  · exact ⟨rfl, rfl, rfl, rfl, rfl, rfl⟩

/-- What a newline leaves of everything but the completed lines. -/
structure CompletesRow (before after : RetainedTailRedraw) : Prop where
  rows : after.rows =
    before.rows.set before.cursorRow (retainedRowSnapshot before.completedRow).1 ++
      List.replicate (before.cursorRow + 2 - before.rows.length) (retainedRow [] false)
  cursorRow : after.cursorRow = before.cursorRow + 1
  cursorColumn : after.cursorColumn = 0
  truncated : after.truncated = before.truncated
  trimmedRows : after.trimmedRows = before.trimmedRows

theorem completeRowUncapped_ok (hinside : redraw.cursorRow < redraw.rows.length) :
    CompletesRow redraw redraw.completeRowUncapped := by
  unfold RetainedTailRedraw.completeRowUncapped
  dsimp only
  rw [ensureCursorRow_inside hinside]
  rcases hfinished : retainedRowSnapshot redraw.completedRow with ⟨row, line⟩
  have hsame := retain_sameRows { redraw with
    rows := redraw.rows.set redraw.cursorRow row
    newCompleteLines := redraw.newCompleteLines + 1 } line
  dsimp only
  generalize RetainedTailRedraw.retainNewlyCompletedLine _ line = retained at *
  refine ⟨?_, congrArg (· + 1) hsame.cursorRow, rfl, hsame.truncated, hsame.trimmedRows⟩
  unfold RetainedTailRedraw.ensureCursorRow
  dsimp only
  rw [hsame.rows, hsame.cursorRow, length_set, hfinished]

def completedPart (redraw : RetainedTailRedraw) : ℕ × List Text × ℕ × ℕ :=
  (redraw.newCompleteLines, redraw.newlyCompletedLines, redraw.newlyCompletedLineCharacters,
    redraw.newlyCompletedLineStart)

theorem retain_completedPart {big small : RetainedTailRedraw}
    (hsame : completedPart big = completedPart small) (line : Text) :
    completedPart (big.retainNewlyCompletedLine line) =
      completedPart (small.retainNewlyCompletedLine line) := by
  obtain ⟨hcount, hrest⟩ := Prod.mk.inj hsame
  obtain ⟨hlines, hrest⟩ := Prod.mk.inj hrest
  obtain ⟨hcharacters, hstart⟩ := Prod.mk.inj hrest
  unfold RetainedTailRedraw.retainNewlyCompletedLine
  rw [hlines, hcharacters, hstart]
  dsimp only
  split_ifs
  · exact congrArg (·, _) hcount
  · exact congrArg (·, _) hcount

end Fields

section Shift

variable {before : List RetainedTerminalRow} {big small : RetainedTailRedraw}

/-- The big redraw has some rows in front of those of the small one. -/
structure Shifted (before : List RetainedTerminalRow) (big small : RetainedTailRedraw) : Prop where
  rows : big.rows = before ++ small.rows
  cursorRow : big.cursorRow = before.length + small.cursorRow
  cursorColumn : big.cursorColumn = small.cursorColumn
  completed : completedPart big = completedPart small

theorem modify_append {Row : Type} (front rows : List Row) (index : ℕ) (edit : Row → Row) :
    (front ++ rows).modify (front.length + index) edit = front ++ rows.modify index edit := by
  induction front with
  | nil => rw [nil_append, nil_append, length_nil, Nat.zero_add]
  | cons row front ih =>
    rw [cons_append, cons_append, length_cons, Nat.add_right_comm, modify_succ_cons, ih]

section

variable (hshift : Shifted before big small)
include hshift

theorem Shifted.inside : big.cursorRow < big.rows.length ↔ small.cursorRow < small.rows.length := by
  rw [hshift.rows, hshift.cursorRow, length_append]
  exact Nat.add_lt_add_iff_left

theorem Shifted.editCursorRow (hinside : small.cursorRow < small.rows.length)
    (edit : RetainedTerminalRow → RetainedTerminalRow) :
    Shifted before (big.editCursorRow edit) (small.editCursorRow edit) := by
  unfold RetainedTailRedraw.editCursorRow
  rw [ensureCursorRow_inside hinside, ensureCursorRow_inside (hshift.inside.mpr hinside)]
  refine ⟨?_, hshift.cursorRow, hshift.cursorColumn, hshift.completed⟩
  dsimp only
  rw [hshift.rows, hshift.cursorRow, modify_append]

theorem Shifted.completedRow : big.completedRow = small.completedRow := by
  unfold RetainedTailRedraw.completedRow
  rw [hshift.rows, hshift.cursorRow, getElem?_append_right (Nat.le_add_right _ _),
    Nat.add_sub_cancel_left]

theorem Shifted.completeRowUncapped (hinside : small.cursorRow < small.rows.length) :
    Shifted before big.completeRowUncapped small.completeRowUncapped := by
  have hbigInside := hshift.inside.mpr hinside
  have hbig := completeRowUncapped_ok hbigInside
  have hsmall := completeRowUncapped_ok hinside
  refine ⟨?_, ?_, hbig.cursorColumn.trans hsmall.cursorColumn.symm, ?_⟩
  · have hcount : big.cursorRow + 2 - big.rows.length =
        small.cursorRow + 2 - small.rows.length := by
      rw [hshift.rows, hshift.cursorRow, length_append]
      omega
    rw [hbig.rows, hsmall.rows, hshift.completedRow, hcount, hshift.rows, hshift.cursorRow,
      set_append_right _ _ (Nat.le_add_right _ _), Nat.add_sub_cancel_left, append_assoc]
  · rw [hbig.cursorRow, hsmall.cursorRow, hshift.cursorRow, Nat.add_assoc]
  · unfold RetainedTailRedraw.completeRowUncapped
    rw [ensureCursorRow_inside hinside, ensureCursorRow_inside hbigInside]
    dsimp only
    rw [hshift.completedRow]
    obtain ⟨row, line⟩ := retainedRowSnapshot small.completedRow
    have hcounted : completedPart { big with
          rows := big.rows.set big.cursorRow row
          newCompleteLines := big.newCompleteLines + 1 } =
        completedPart { small with
          rows := small.rows.set small.cursorRow row
          newCompleteLines := small.newCompleteLines + 1 } := by
      obtain ⟨hcount, hrest⟩ := Prod.mk.inj hshift.completed
      exact Prod.ext (congrArg (· + 1) hcount) hrest
    exact retain_completedPart hcounted line

/-- A control other than a newline acts on both alike, if it moves both cursors alike. -/
theorem Shifted.applySequence
    (hinside : small.cursorRow < small.rows.length) (parsed : AnsiControlSequence)
    (hup : max big.trimmedRows (big.cursorRow - upRows (.sequence parsed)) =
      before.length + max small.trimmedRows (small.cursorRow - upRows (.sequence parsed))) :
    Shifted before (big.applySequence parsed) (small.applySequence parsed) := by
  cases parsed with
  | other => exact hshift
  | csi final params firstParam =>
    unfold RetainedTailRedraw.applySequence
    dsimp only
    by_cases hcanonical : hasCanonicalNumericCsiParams params = true
    · rw [hcanonical, Bool.not_true, if_neg Bool.false_ne_true, if_neg Bool.false_ne_true]
      by_cases hfinal : final.val = 0x41
      · rw [upRows, if_pos ⟨hfinal, hcanonical⟩] at hup
        rw [if_pos hfinal, if_pos hfinal]
        refine ⟨?_, hup, hshift.cursorColumn, hshift.completed⟩
        dsimp only
        rw [hup, hshift.rows, Nat.add_assoc, take_length_add_append]
      · rw [if_neg hfinal, if_neg hfinal, hshift.cursorColumn]
        split_ifs
        · unfold RetainedTailRedraw.eraseLine
          rw [hshift.cursorColumn]
          exact hshift.editCursorRow hinside _
        · exact ⟨hshift.rows, hshift.cursorRow, rfl, hshift.completed⟩
        · exact ⟨hshift.rows, hshift.cursorRow, rfl, hshift.completed⟩
        · exact ⟨hshift.rows, hshift.cursorRow, rfl, hshift.completed⟩
        · exact hshift
    · rw [Bool.eq_false_iff.mpr hcanonical, Bool.not_false, if_pos rfl, if_pos rfl]
      exact hshift

end

/-- A control as it acts without the line cap. -/
def RetainedTailRedraw.applyUncapped (redraw : RetainedTailRedraw) :
    RedrawControl → RetainedTailRedraw
  | .newline => redraw.completeRowUncapped
  | control => redraw.apply control

theorem Shifted.applyUncapped (hshift : Shifted before big small)
    (hinside : small.cursorRow < small.rows.length) (control : RedrawControl)
    (hup : max big.trimmedRows (big.cursorRow - upRows control) =
      before.length + max small.trimmedRows (small.cursorRow - upRows control)) :
    Shifted before (big.applyUncapped control) (small.applyUncapped control) := by
  cases control with
  | newline => exact hshift.completeRowUncapped hinside
  | carriageReturn => exact ⟨hshift.rows, hshift.cursorRow, rfl, hshift.completed⟩
  | backspace =>
    exact ⟨hshift.rows, hshift.cursorRow, congrArg (· - 1) hshift.cursorColumn, hshift.completed⟩
  | sequence parsed => exact hshift.applySequence hinside parsed hup
  | text run =>
    have hedited := hshift.editCursorRow hinside
      fun row => writeRetainedRow row small.cursorColumn run
    dsimp only [RetainedTailRedraw.applyUncapped, RetainedTailRedraw.apply]
    unfold RetainedTailRedraw.writeText
    rw [hshift.cursorColumn]
    exact ⟨hedited.rows, hedited.cursorRow, rfl, hedited.completed⟩

end Shift

end Wakii.Terminal
