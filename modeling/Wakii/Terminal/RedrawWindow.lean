import Wakii.Terminal.LineCap

/-!
# The window beside the whole tail

The whole tail and its window are redrawn side by side, each with the line cap
and without it.  The window is deep enough that no movement leaves it.
-/

namespace Wakii.Terminal

open List

section Statements

/-- Once rows are given up, no movement up is stopped by them. -/
def UpsFree : RetainedTailRedraw → ℕ → List RedrawControl → Prop
  | _, _, [] => True
  | redraw, given, control :: rest =>
    (0 < given → redraw.trimmedRows + upRows control ≤ redraw.cursorRow) ∧
      UpsFree (redraw.apply control) (given + redraw.givesUp control) rest

/-- The redraws of the whole tail and of its window, each beside itself without the line cap. -/
structure InStep (front : List RetainedTerminalRow) (truncated : Bool) (limit total : ℤ)
    (given : ℕ) (upward : UpwardReach) (full window : RetainedTailRedraw) : Prop where
  redraws : ∃ fullUncapped windowUncapped, Trims truncated given fullUncapped full ∧
    Trims truncated (given - front.length) windowUncapped window ∧
    Shifted front fullUncapped windowUncapped ∧
    fullUncapped.cursorRow + upward.rowFromEnd = total
  within : front.length + limit ≤ total
  reach : upward.rowFromEnd ≤ upward.reach

end Statements

section Steps

variable {front : List RetainedTerminalRow} {truncated : Bool} {limit total : ℤ} {given : ℕ}
  {upward : UpwardReach} {full window : RetainedTailRedraw}

theorem apply_rowFromEnd_of_ne {control : RedrawControl} (hcontrol : control ≠ .newline) :
    (upward.apply control).rowFromEnd = upward.rowFromEnd + upRows control := by
  cases control with
  | newline => exact absurd rfl hcontrol
  | carriageReturn => exact (add_zero _).symm
  | backspace => exact (add_zero _).symm
  | text run => exact (add_zero _).symm
  | sequence parsed =>
    cases parsed with
    | other => exact (add_zero _).symm
    | csi final params firstParam =>
      dsimp only [UpwardReach.apply, UpwardReach.applySequence, upRows]
      split_ifs
      · rfl
      · exact (add_zero _).symm

theorem apply_reach (hreach : upward.rowFromEnd ≤ upward.reach) (control : RedrawControl) :
    (upward.apply control).rowFromEnd ≤ (upward.apply control).reach := by
  cases control with
  | newline =>
    dsimp only [UpwardReach.apply]
    omega
  | carriageReturn => exact hreach
  | backspace => exact hreach
  | text run => exact hreach
  | sequence parsed =>
    cases parsed with
    | other => exact hreach
    | csi final params firstParam =>
      dsimp only [UpwardReach.apply, UpwardReach.applySequence]
      split_ifs
      · exact le_max_right _ _
      · exact hreach

theorem givenAfter_window {given height : ℕ} :
    givenAfter (given - front.length) (height - front.length) =
      givenAfter given height - front.length := by
  rw [givenAfter, givenAfter]
  omega

/-- One control moves the whole tail and its window alike. -/
theorem InStep.apply (hstep : InStep front truncated limit total given upward full window)
    (control : RedrawControl)
    (hfree : 0 < given → full.trimmedRows + upRows control ≤ full.cursorRow)
    (hlimit : (upward.apply control).reach ≤ limit) :
    InStep front truncated limit total (given + full.givesUp control) (upward.apply control)
      (full.apply control) (window.apply control) := by
  obtain ⟨fullUncapped, windowUncapped, hfull, hwindow, hshift, htotal⟩ := hstep.redraws
  have hwithin := hstep.within
  have hafter := apply_reach hstep.reach control
  have hcursor := hshift.cursorRow
  have hup : upRows control ≤ windowUncapped.cursorRow := by
    by_cases hcontrol : control = .newline
    · subst hcontrol
      exact Nat.zero_le _
    · have hrow := @apply_rowFromEnd_of_ne upward control hcontrol
      omega
  have hfullUp : 0 < given → given + upRows control ≤ fullUncapped.cursorRow := by
    intro hgiven
    obtain ⟨spliced, hspliced, hshifted⟩ := hfull.shifted
    have hfullCursor := hshifted.cursorRow
    have hstop := hfree hgiven
    omega
  have hwindowUp : 0 < given - front.length →
      given - front.length + upRows control ≤ windowUncapped.cursorRow := by
    intro hgiven
    have hstop := hfullUp (by omega)
    omega
  have hboth : max fullUncapped.trimmedRows (fullUncapped.cursorRow - upRows control) =
      front.length +
        max windowUncapped.trimmedRows (windowUncapped.cursorRow - upRows control) := by
    have hfullUntrimmed := hfull.untrimmed
    have hwindowUntrimmed := hwindow.untrimmed
    omega
  have hshifted := hshift.applyUncapped hwindow.inside control hboth
  have hfull' := hfull.apply control hfullUp
  have hwindow' := hwindow.apply control hwindowUp
  have hheight : (windowUncapped.applyUncapped control).rows.length =
      (fullUncapped.applyUncapped control).rows.length - front.length := by
    rw [hshifted.rows, length_append, Nat.add_sub_cancel_left]
  rw [hheight, givenAfter_window, ← hfull.givesUp control] at hwindow'
  rw [← hfull.givesUp control] at hfull'
  refine ⟨⟨_, _, hfull', hwindow', hshifted, ?_⟩, hwithin, hafter⟩
  by_cases hcontrol : control = .newline
  · subst hcontrol
    have hrow := (completeRowUncapped_ok hfull.inside).cursorRow
    dsimp only [RetainedTailRedraw.applyUncapped, UpwardReach.apply]
    rw [hrow]
    push_cast
    omega
  · have hrow := @apply_rowFromEnd_of_ne upward control hcontrol
    have hmoved := (apply_movesOn hfull.inside hfull.untrimmed hcontrol).cursorRow
    rw [applyUncapped_of_ne hcontrol, hmoved, hrow]
    omega

theorem InStep.run (hstep : InStep front truncated limit total given upward full window)
    (controls : List RedrawControl) (hfree : UpsFree full given controls)
    (hlimit : (upward.run controls).reach ≤ limit) :
    InStep front truncated limit total (given + givenUp full controls) (upward.run controls)
      (full.run controls) (window.run controls) := by
  induction controls generalizing given upward full window with
  | nil => exact hstep
  | cons control rest ih =>
    have hfirst : (upward.apply control).reach ≤ limit := (run_reach_ge rest).trans hlimit
    rw [givenUp, ← Nat.add_assoc]
    exact ih (hstep.apply control hfree.1 hfirst) hfree.2 hlimit

end Steps

section Ends

variable {front : List RetainedTerminalRow} {truncated : Bool} {limit total : ℤ} {given : ℕ}
  {upward : UpwardReach} {full window uncapped capped : RetainedTailRedraw}

theorem Trims.spliced (htrims : Trims truncated given uncapped capped) :
    capped.spliceTrimmedRows.rows = uncapped.rows.drop given ∧
      uncapped.cursorRow = given + capped.spliceTrimmedRows.cursorRow ∧
      uncapped.cursorColumn = capped.cursorColumn ∧
      completedPart uncapped = completedPart capped := by
  obtain ⟨spliced, hspliced, hshift⟩ := htrims.shifted
  have habove := htrims.above
  have hcursor := hshift.cursorRow
  unfold RetainedTailRedraw.spliceTrimmedRows
  dsimp only
  refine ⟨?_, by omega, hshift.cursorColumn, hshift.completed⟩
  rw [hshift.rows, ← hspliced, drop_length_add_append]

/-- The two redraws as they end, for the rows that are left. -/
structure EndsAlike (front : List RetainedTerminalRow) (truncated : Bool) (given : ℕ)
    (full window : RetainedTailRedraw) : Prop where
  shifted : Shifted (front.drop given) full window
  inside : window.cursorRow < window.rows.length
  live : full.rows.length ≤ MAX_TAIL_LINES + 1
  last : 0 < given → full.cursorRow + 1 = full.rows.length
  completed : ∀ (index : ℕ) (row : RetainedTerminalRow), full.rows[index]? = some row →
    row.completed = true → index < MAX_TAIL_LINES
  full_truncated : full.truncated = (truncated || decide (0 < given))
  window_truncated : window.truncated = (truncated || decide (front.length < given))

theorem InStep.ends (hstep : InStep front truncated limit total given upward full window) :
    EndsAlike front truncated given full.spliceTrimmedRows window.spliceTrimmedRows := by
  obtain ⟨fullUncapped, windowUncapped, hfull, hwindow, hshift, -⟩ := hstep.redraws
  obtain ⟨hfullRows, hfullCursor, hfullColumn, hfullCompleted⟩ := hfull.spliced
  obtain ⟨hwindowRows, hwindowCursor, hwindowColumn, hwindowCompleted⟩ := hwindow.spliced
  have hcursor := hshift.cursorRow
  have hinside := hwindow.inside
  have hlive := hfull.live
  have hlast := hfull.last
  refine ⟨⟨?_, ?_, ?_, ?_⟩, ?_, ?_, fun hgiven => ?_, fun index row hrow hcompleted => ?_,
    hfull.truncated_eq, ?_⟩
  · rw [hfullRows, hwindowRows, hshift.rows, drop_append]
  · rw [length_drop]
    omega
  · exact hfullColumn.symm.trans (hshift.cursorColumn.trans hwindowColumn)
  · exact hfullCompleted.symm.trans (hshift.completed.trans hwindowCompleted)
  · rw [hwindowRows, length_drop]
    omega
  · rw [hfullRows, length_drop]
    omega
  · rw [hfullRows, length_drop]
    have hend := hlast hgiven
    omega
  · rw [hfullRows, getElem?_drop] at hrow
    have hindex := hfull.completed _ row hrow hcompleted
    omega
  · refine hwindow.truncated_eq.trans ?_
    congr 1
    rw [decide_eq_decide]
    omega

end Ends

section Start

variable {previousLines : List Text} {partialLine chunk : Text} {capped : Bool}
  {cursor : Option RetainedTailRedrawCursor}

theorem startRedraw_length (lines : List Text) :
    (startRedraw lines partialLine capped cursor).rows.length = lines.length + 1 := by
  rw [startRedraw, length_append, length_map]
  rfl

theorem startRedraw_cursorRow (lines : List Text) :
    (startRedraw lines partialLine capped cursor).cursorRow =
      lines.length - startRowFromEnd cursor := by
  change (startRedraw lines partialLine capped cursor).rows.length - 1 - _ = _
  rw [startRedraw_length, Nat.add_sub_cancel, startRowFromEnd]

theorem start_trims (lines : List Text) (hlines : lines.length ≤ MAX_TAIL_LINES) :
    Trims capped 0 (startRedraw lines partialLine capped cursor)
      (startRedraw lines partialLine capped cursor) := by
  refine ⟨⟨[], rfl, rfl, (Nat.zero_add _).symm, rfl, rfl⟩, rfl, ?_, Nat.zero_le _, ?_,
    fun h => absurd h (Nat.lt_irrefl 0), fun index row hrow hcompleted => ?_, ?_⟩
  · rw [startRedraw_length, startRedraw_cursorRow]
    omega
  · rw [startRedraw_length]
    omega
  · have hless : index < lines.length := by
      by_contra hend
      have hlast : (lines.map (retainedRow · true)).length ≤ index := by
        rw [length_map]
        exact Nat.le_of_not_lt hend
      change (lines.map (retainedRow · true) ++ [retainedRow partialLine false])[index]? = _ at hrow
      rw [List.getElem?_append_right hlast] at hrow
      obtain ⟨hzero, hsame⟩ := List.getElem?_eq_some_iff.mp hrow
      have hrowEq : row = retainedRow partialLine false :=
        List.mem_singleton.mp (hsame ▸ List.getElem_mem hzero)
      rw [hrowEq] at hcompleted
      cases hcompleted
    omega
  · exact (Bool.or_false _).symm

def frontRows (previousLines : List Text) (front : ℕ) : List RetainedTerminalRow :=
  (previousLines.take front).map (retainedRow · true)

/-- A window that is deeper than every movement starts in step with the whole tail. -/
theorem start_inStep (front : ℕ) (reach : ℕ) (hlines : previousLines.length ≤ MAX_TAIL_LINES)
    (hfront : front + reach ≤ previousLines.length) (hreach : startRowFromEnd cursor ≤ reach) :
    InStep (frontRows previousLines front) capped reach previousLines.length 0
      ⟨startRowFromEnd cursor, startRowFromEnd cursor⟩
      (startRedraw previousLines partialLine capped cursor)
      (startRedraw (previousLines.drop front) partialLine capped cursor) := by
  have hcount : (frontRows previousLines front).length = front := by
    rw [frontRows, length_map, length_take]
    omega
  have hdrop : (previousLines.drop front).length = previousLines.length - front := length_drop
  refine ⟨⟨startRedraw previousLines partialLine capped cursor,
    startRedraw (previousLines.drop front) partialLine capped cursor,
    start_trims previousLines hlines, ?_, ⟨?_, ?_, ?_, rfl⟩, ?_⟩, ?_, le_rfl⟩
  · rw [Nat.zero_sub]
    exact start_trims _ (by omega)
  · change previousLines.map _ ++ _ = frontRows previousLines front ++
      ((previousLines.drop front).map _ ++ _)
    rw [frontRows, ← append_assoc, ← map_append, take_append_drop]
  · rw [startRedraw_cursorRow, startRedraw_cursorRow, hcount]
    omega
  · rfl
  · rw [startRedraw_cursorRow]
    dsimp only
    omega
  · rw [hcount]
    omega

end Start

end Wakii.Terminal
