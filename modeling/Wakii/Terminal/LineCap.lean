import Wakii.Terminal.RedrawShift

/-!
# What the line cap gives up

A capped redraw is followed beside the same redraw without the cap: it lacks the
rows it gave up and is otherwise the same, as long as the cursor does not go back
to those rows.
-/

namespace Wakii.Terminal

open List

section Rows

theorem noteWrite_completed (row : RetainedTerminalRow) (column runEnd : ℕ) (written : Option ℕ) :
    (row.noteWrite column runEnd written).completed = row.completed := by
  unfold RetainedTerminalRow.noteWrite
  dsimp only
  split
  · rfl
  · split_ifs
    all_goals rfl

theorem writeRetainedRow_completed (row : RetainedTerminalRow) (column : ℕ) (run : Text) :
    (writeRetainedRow row column run).completed = row.completed := by
  unfold writeRetainedRow
  dsimp only
  split_ifs
  · rfl
  · exact noteWrite_completed _ _ _ _

theorem eraseRetainedRow_completed (row : RetainedTerminalRow) (mode column : ℕ) :
    (eraseRetainedRow row mode column).completed = row.completed := by
  unfold eraseRetainedRow
  dsimp only
  split_ifs
  all_goals rfl

end Rows

section Uncapped

variable {redraw : RetainedTailRedraw}

/-- Among these rows no other rows are complete than before. -/
def CompletedAmong (before after : List RetainedTerminalRow) : Prop :=
  ∀ (index : ℕ) (row : RetainedTerminalRow), after[index]? = some row → row.completed = true →
    ∃ old : RetainedTerminalRow, before[index]? = some old ∧ old.completed = true

theorem CompletedAmong.refl (rows : List RetainedTerminalRow) : CompletedAmong rows rows :=
  fun _ row hrow hcompleted => ⟨row, hrow, hcompleted⟩

/-- What a control other than a newline leaves of the rows. -/
structure MovesOn (before after : RetainedTailRedraw) (up : ℕ) : Prop where
  trimmedRows : after.trimmedRows = before.trimmedRows
  truncated : after.truncated = before.truncated
  cursorRow : after.cursorRow = before.cursorRow - up
  inside : after.cursorRow < after.rows.length
  length_le : after.rows.length ≤ before.rows.length
  last : before.cursorRow + 1 = before.rows.length → after.cursorRow + 1 = after.rows.length
  completed : CompletedAmong before.rows after.rows

section

variable (hinside : redraw.cursorRow < redraw.rows.length)
include hinside

theorem MovesOn.refl : MovesOn redraw redraw 0 :=
  ⟨rfl, rfl, rfl, hinside, Nat.le_refl _, id, CompletedAmong.refl _⟩

theorem editCursorRow_movesOn {edit : RetainedTerminalRow → RetainedTerminalRow}
    (hedit : ∀ row, (edit row).completed = row.completed) :
    MovesOn redraw (redraw.editCursorRow edit) 0 := by
  unfold RetainedTailRedraw.editCursorRow
  rw [ensureCursorRow_inside hinside]
  refine ⟨rfl, rfl, rfl, ?_, ?_, fun hlast => ?_, ?_⟩
  · change redraw.cursorRow < (redraw.rows.modify _ _).length
    rw [length_modify]
    exact hinside
  · exact (length_modify _ _ _).le
  · change redraw.cursorRow + 1 = (redraw.rows.modify _ _).length
    rw [length_modify]
    exact hlast
  · intro index row hrow hcompleted
    change (redraw.rows.modify _ _)[index]? = some row at hrow
    rw [getElem?_modify] at hrow
    obtain ⟨old, hold, hrow⟩ := Option.map_eq_some_iff.mp hrow
    refine ⟨old, hold, ?_⟩
    split_ifs at hrow
    · rw [← hrow, hedit] at hcompleted
      cases hcompleted
    · rw [hrow]
      exact hcompleted

theorem cursorUp_movesOn (up : ℕ) : MovesOn redraw { redraw with
      cursorRow := redraw.cursorRow - up
      rows := redraw.rows.take (redraw.cursorRow - up + 1) } up := by
  have hlength : (redraw.rows.take (redraw.cursorRow - up + 1)).length =
      redraw.cursorRow - up + 1 := by
    rw [length_take]
    omega
  refine ⟨rfl, rfl, rfl, ?_, ?_, fun _ => hlength.symm, ?_⟩
  · exact (Nat.lt_succ_self _).trans_eq hlength.symm
  · exact length_take_le' _ _
  · intro index row hrow hcompleted
    refine ⟨row, ?_, hcompleted⟩
    change (redraw.rows.take _)[index]? = some row at hrow
    rw [getElem?_take] at hrow
    split_ifs at hrow
    exact hrow

theorem applySequence_movesOn (huntrimmed : redraw.trimmedRows = 0) (parsed : AnsiControlSequence) :
    MovesOn redraw (redraw.applySequence parsed) (upRows (.sequence parsed)) := by
  cases parsed with
  | other => exact MovesOn.refl hinside
  | csi final params firstParam =>
    unfold RetainedTailRedraw.applySequence upRows
    dsimp only
    by_cases hcanonical : hasCanonicalNumericCsiParams params = true
    · rw [hcanonical, Bool.not_true, if_neg Bool.false_ne_true]
      by_cases hfinal : final.val = 0x41
      · rw [if_pos hfinal, if_pos ⟨hfinal, rfl⟩, huntrimmed, Nat.zero_max, ← huntrimmed]
        exact cursorUp_movesOn hinside _
      · rw [if_neg hfinal, if_neg (show ¬(final.val = 0x41 ∧ true = true) from
          fun h => hfinal h.1)]
        split_ifs
        · exact editCursorRow_movesOn hinside fun row => eraseRetainedRow_completed row _ _
        all_goals
          exact ⟨rfl, rfl, rfl, hinside, Nat.le_refl _, id, CompletedAmong.refl _⟩
    · rw [Bool.eq_false_iff.mpr hcanonical, Bool.not_false, if_pos rfl,
        if_neg (show ¬(final.val = 0x41 ∧ false = true) from fun h => Bool.false_ne_true h.2)]
      exact MovesOn.refl hinside

end

variable {control : RedrawControl}

theorem applyUncapped_of_ne (hcontrol : control ≠ .newline) :
    redraw.applyUncapped control = redraw.apply control := by
  cases control with
  | newline => exact absurd rfl hcontrol
  | _ => rfl

theorem apply_frame (redraw : RetainedTailRedraw) (hcontrol : control ≠ .newline) :
    (redraw.apply control).trimmedRows = redraw.trimmedRows ∧
      (redraw.apply control).truncated = redraw.truncated := by
  cases control with
  | newline => exact absurd rfl hcontrol
  | carriageReturn => exact ⟨rfl, rfl⟩
  | backspace => exact ⟨rfl, rfl⟩
  | text run => exact ⟨rfl, rfl⟩
  | sequence parsed =>
    cases parsed with
    | other => exact ⟨rfl, rfl⟩
    | csi final params firstParam =>
      dsimp only [RetainedTailRedraw.apply, RetainedTailRedraw.applySequence]
      split_ifs
      all_goals exact ⟨rfl, rfl⟩

theorem apply_movesOn (hinside : redraw.cursorRow < redraw.rows.length)
    (huntrimmed : redraw.trimmedRows = 0) (hcontrol : control ≠ .newline) :
    MovesOn redraw (redraw.apply control) (upRows control) := by
  cases control with
  | newline => exact absurd rfl hcontrol
  | carriageReturn => exact ⟨rfl, rfl, rfl, hinside, Nat.le_refl _, id, CompletedAmong.refl _⟩
  | backspace => exact ⟨rfl, rfl, rfl, hinside, Nat.le_refl _, id, CompletedAmong.refl _⟩
  | sequence parsed => exact applySequence_movesOn hinside huntrimmed parsed
  | text run =>
    have hedited := @editCursorRow_movesOn redraw hinside
      (fun row => writeRetainedRow row redraw.cursorColumn run)
      fun row => writeRetainedRow_completed row _ _
    exact ⟨hedited.trimmedRows, hedited.truncated, hedited.cursorRow, hedited.inside,
      hedited.length_le, hedited.last, hedited.completed⟩

end Uncapped

section Cap

variable {uncapped capped : RetainedTailRedraw} {given : ℕ} {truncated : Bool}

/-- How many rows a control makes the line cap give up. -/
def RetainedTailRedraw.givesUp (redraw : RetainedTailRedraw) : RedrawControl → ℕ
  | .newline => redraw.completeRowUncapped.rows.length - redraw.trimmedRows - (MAX_TAIL_LINES + 1)
  | _ => 0

def givenUp : RetainedTailRedraw → List RedrawControl → ℕ
  | _, [] => 0
  | redraw, control :: rest => redraw.givesUp control + givenUp (redraw.apply control) rest

structure Trims (truncated : Bool) (given : ℕ) (uncapped capped : RetainedTailRedraw) : Prop where
  shifted : ∃ spliced, spliced.length + capped.trimmedRows = given ∧ Shifted spliced uncapped capped
  untrimmed : uncapped.trimmedRows = 0
  inside : uncapped.cursorRow < uncapped.rows.length
  above : given ≤ uncapped.cursorRow
  live : uncapped.rows.length ≤ given + (MAX_TAIL_LINES + 1)
  last : 0 < given → uncapped.cursorRow + 1 = uncapped.rows.length
  /-- A complete row had a row below it, so it is no later than the cap allows. -/
  completed : ∀ (index : ℕ) (row : RetainedTerminalRow), uncapped.rows[index]? = some row →
    row.completed = true → index < given + MAX_TAIL_LINES
  truncated_eq : capped.truncated = (truncated || decide (0 < given))

/-- After a step as many rows are given up as the tallest moment so far needs. -/
def givenAfter (given height : ℕ) : ℕ := max given (height - (MAX_TAIL_LINES + 1))

section

variable (htrims : Trims truncated given uncapped capped)
include htrims

theorem Trims.inside_capped : capped.cursorRow < capped.rows.length := by
  obtain ⟨spliced, -, hshift⟩ := htrims.shifted
  exact hshift.inside.mp htrims.inside

theorem givenAfter_le {height : ℕ} (hheight : height ≤ uncapped.rows.length) :
    givenAfter given height = given := by
  have hlive := htrims.live
  rw [givenAfter]
  omega

theorem Trims.apply_other {control : RedrawControl} (hcontrol : control ≠ .newline)
    (hup : 0 < given → given + upRows control ≤ uncapped.cursorRow) :
    Trims truncated given (uncapped.apply control) (capped.apply control) := by
  obtain ⟨spliced, hspliced, hshift⟩ := htrims.shifted
  have hmoves := apply_movesOn htrims.inside htrims.untrimmed hcontrol
  have hboth : max uncapped.trimmedRows (uncapped.cursorRow - upRows control) =
      spliced.length + max capped.trimmedRows (capped.cursorRow - upRows control) := by
    have hcursor := hshift.cursorRow
    have huntrimmed := htrims.untrimmed
    omega
  have hshifted := hshift.applyUncapped htrims.inside_capped control hboth
  rw [applyUncapped_of_ne hcontrol, applyUncapped_of_ne hcontrol] at hshifted
  have hcappedFrame := apply_frame capped hcontrol
  refine ⟨⟨spliced, ?_, hshifted⟩, hmoves.trimmedRows.trans htrims.untrimmed, hmoves.inside, ?_,
    hmoves.length_le.trans htrims.live, fun hgiven => hmoves.last (htrims.last hgiven), ?_, ?_⟩
  · rw [hcappedFrame.1]
    exact hspliced
  · rw [hmoves.cursorRow]
    omega
  · intro index row hrow hcompleted
    obtain ⟨old, hold, holdCompleted⟩ := hmoves.completed index row hrow hcompleted
    exact htrims.completed index old hold holdCompleted
  · rw [hcappedFrame.2]
    exact htrims.truncated_eq

end

/-- What giving rows up leaves; every so often they are cut off. -/
theorem trimRows_ok {redraw : RetainedTailRedraw} {spliced : List RetainedTerminalRow}
    (hshift : Shifted spliced uncapped redraw)
    (habove : redraw.rows.length ≤ redraw.cursorRow + (MAX_TAIL_LINES + 1))
    (hinside : redraw.cursorRow < redraw.rows.length) :
    ∃ cut, cut.length + redraw.trimRows.trimmedRows = spliced.length + redraw.trimmedRows +
        (redraw.rows.length - redraw.trimmedRows - (MAX_TAIL_LINES + 1)) ∧
      Shifted cut uncapped redraw.trimRows ∧
      redraw.trimRows.truncated = (redraw.truncated ||
        decide (0 < redraw.rows.length - redraw.trimmedRows - (MAX_TAIL_LINES + 1))) := by
  unfold RetainedTailRedraw.trimRows
  dsimp only
  generalize hexcess : redraw.rows.length - redraw.trimmedRows - (MAX_TAIL_LINES + 1) = excess
  by_cases hnone : excess = 0
  · rw [if_pos hnone]
    refine ⟨spliced, by rw [hnone, Nat.add_zero], hshift, ?_⟩
    rw [hnone]
    exact (Bool.or_false _).symm
  rw [if_neg hnone]
  have htruncated : true = (redraw.truncated || decide (0 < excess)) := by
    rw [decide_eq_true (Nat.pos_of_ne_zero hnone), Bool.or_true]
  have hcursor : redraw.trimmedRows + excess ≤ redraw.cursorRow := by omega
  split_ifs
  · refine ⟨spliced ++ redraw.rows.take (redraw.trimmedRows + excess), ?_, ?_, htruncated⟩
    · unfold RetainedTailRedraw.spliceTrimmedRows
      dsimp only
      rw [length_append, length_take]
      omega
    · unfold RetainedTailRedraw.spliceTrimmedRows
      refine ⟨?_, ?_, hshift.cursorColumn, hshift.completed⟩
      · dsimp only
        rw [append_assoc, take_append_drop]
        exact hshift.rows
      · dsimp only
        rw [hshift.cursorRow, length_append, length_take]
        omega
  · exact ⟨spliced, (Nat.add_assoc _ _ _).symm,
      ⟨hshift.rows, hshift.cursorRow, hshift.cursorColumn, hshift.completed⟩, htruncated⟩

section

variable (htrims : Trims truncated given uncapped capped)
include htrims

/-- A newline gives up the rows over the line cap. -/
theorem Trims.apply_newline :
    Trims truncated (givenAfter given uncapped.completeRowUncapped.rows.length)
      uncapped.completeRowUncapped (capped.apply .newline) := by
  obtain ⟨spliced, hspliced, hshift⟩ := htrims.shifted
  have hrow := completeRowUncapped_ok htrims.inside
  have hcappedRow := completeRowUncapped_ok htrims.inside_capped
  have hshifted := hshift.completeRowUncapped htrims.inside_capped
  have hheight : uncapped.completeRowUncapped.rows.length =
      max uncapped.rows.length (uncapped.cursorRow + 2) := by
    rw [hrow.rows, length_append, length_set, length_replicate]
    omega
  have hcappedHeight : uncapped.completeRowUncapped.rows.length =
      spliced.length + capped.completeRowUncapped.rows.length := by
    rw [hshifted.rows, length_append]
  have hcappedCursor := hshifted.cursorRow
  have hcursor := hrow.cursorRow
  have htrimmedRows := hcappedRow.trimmedRows
  have hinside := htrims.inside
  have habove := htrims.above
  have hlive := htrims.live
  have hlast := htrims.last
  obtain ⟨cut, hcut, hcutShift, hcutTruncated⟩ := trimRows_ok hshifted (by omega) (by omega)
  have hgiven : spliced.length + capped.completeRowUncapped.trimmedRows +
      (capped.completeRowUncapped.rows.length - capped.completeRowUncapped.trimmedRows -
        (MAX_TAIL_LINES + 1)) = givenAfter given uncapped.completeRowUncapped.rows.length := by
    rw [givenAfter]
    omega
  have htotal := hcut.trans hgiven
  clear hcut hcappedHeight hcappedCursor
  refine ⟨⟨cut, htotal, hcutShift⟩, hrow.trimmedRows.trans htrims.untrimmed, ?_, ?_,
    ?_, fun hpositive => ?_, fun index row hindex hcompleted => ?_, ?_⟩
  · omega
  · rw [givenAfter]
    omega
  · rw [givenAfter]
    omega
  · rw [givenAfter] at hpositive
    omega
  · rw [hrow.rows] at hindex
    by_cases hold : index < uncapped.rows.length
    · rw [getElem?_append_left (by rwa [length_set]), getElem?_set] at hindex
      split_ifs at hindex with hsame
      · rw [givenAfter]
        omega
      · have hbefore := htrims.completed index row hindex hcompleted
        rw [givenAfter]
        omega
    · rw [getElem?_append_right (by rw [length_set]; omega), getElem?_replicate] at hindex
      split_ifs at hindex
      rw [← Option.some.inj hindex] at hcompleted
      cases hcompleted
  · refine hcutTruncated.trans ?_
    rw [hcappedRow.truncated, htrims.truncated_eq, Bool.or_assoc]
    congr 1
    rw [← Bool.decide_or, decide_eq_decide]
    omega

theorem Trims.apply (control : RedrawControl)
    (hup : 0 < given → given + upRows control ≤ uncapped.cursorRow) :
    Trims truncated (givenAfter given (uncapped.applyUncapped control).rows.length)
      (uncapped.applyUncapped control) (capped.apply control) := by
  by_cases hcontrol : control = .newline
  · subst hcontrol
    exact htrims.apply_newline
  · have hmoves := apply_movesOn htrims.inside htrims.untrimmed hcontrol
    rw [applyUncapped_of_ne hcontrol, givenAfter_le htrims hmoves.length_le]
    exact htrims.apply_other hcontrol hup

theorem Trims.givesUp (control : RedrawControl) : given + capped.givesUp control =
      givenAfter given (uncapped.applyUncapped control).rows.length := by
  by_cases hcontrol : control = .newline
  · subst hcontrol
    obtain ⟨spliced, hspliced, hshift⟩ := htrims.shifted
    have hshifted := hshift.completeRowUncapped htrims.inside_capped
    have hheight : uncapped.completeRowUncapped.rows.length =
        spliced.length + capped.completeRowUncapped.rows.length := by
      rw [hshifted.rows, length_append]
    dsimp only [RetainedTailRedraw.givesUp, RetainedTailRedraw.applyUncapped]
    rw [givenAfter]
    omega
  · have hmoves := apply_movesOn htrims.inside htrims.untrimmed hcontrol
    have hnone : capped.givesUp control = 0 := by
      cases control with
      | newline => exact absurd rfl hcontrol
      | _ => rfl
    rw [applyUncapped_of_ne hcontrol, givenAfter_le htrims hmoves.length_le, hnone, Nat.add_zero]

end

end Cap

end Wakii.Terminal
