import Wakii.Terminal.RedrawEnd

/-!
# The windowed redraw equals the redraw of the whole tail

A chunk with movements up is redrawn over the rows it can reach only.  Where the
caps fall on both redraws alike, the result is that of the whole tail.
-/

namespace Wakii.Terminal

open List

section Statements

def redrawOf (lines : List Text) (partialLine chunk : Text) (capped : Bool)
    (cursor : Option RetainedTailRedrawCursor) : RetainedTailRedraw :=
  (startRedraw lines partialLine capped cursor).run (redrawControls chunk)

def shownRows (redraw : RetainedTailRedraw) : List Text :=
  textsOf (redraw.spliceTrimmedRows.rows.map finalizedRow)

/-- A tail as the appends keep it. -/
structure WithinCaps (tail : RetainedTail) (partialLine : Text) : Prop where
  lines_le : tail.rows.length ≤ MAX_TAIL_LINES
  characters_le : charsOf tail.rows + partialLine.length ≤ MAX_TAIL_CHARS
  partial_le : partialLine.length ≤ MAX_TAIL_PARTIAL_CHARS
  stats : ∀ stats ∈ tail.stats, stats = computeStats tail.rows

/-- The caps fall on the window and on the whole tail alike. -/
structure CapsAgree (lines : List Text) (partialLine chunk : Text) (capped : Bool)
    (cursor : Option RetainedTailRedrawCursor) : Prop where
  /-- The line cap gives up no row on the way, or the rows are as many as it allows at the end. -/
  lineCap : givenUp (startRedraw lines partialLine capped cursor) (redrawControls chunk) = 0 ∨
    (shownRows (redrawOf lines partialLine chunk capped cursor)).length = MAX_TAIL_LINES + 1
  /-- No movement up is stopped by rows given up before it. -/
  upsFree : UpsFree (startRedraw lines partialLine capped cursor) 0 (redrawControls chunk)
  windowChars : charsOf (shownRows (redrawOf (lines.rtake (windowRows lines.length chunk cursor))
    partialLine chunk capped cursor)) ≤ MAX_TAIL_CHARS
  /-- No open row is cut, or all rows together keep the character cap. -/
  openChars : (∀ row ∈ (redrawOf (lines.rtake (windowRows lines.length chunk cursor)) partialLine
      chunk capped cursor).spliceTrimmedRows.rows, row.completed = false →
        (retainedRowSnapshot row).2.length ≤ MAX_TAIL_PARTIAL_CHARS) ∨
    charsOf (shownRows (redrawOf lines partialLine chunk capped cursor)) ≤ MAX_TAIL_CHARS

end Statements

section Characters

variable {cursorRow : ℕ} {rows : List FinalizedRow}

def openTextOf (rows : List FinalizedRow) : Text := ((openRowOf rows).map FinalizedRow.text).getD []

theorem charsOf_dropBlankRows (rows : List FinalizedRow) :
    charsOf (textsOf (dropBlankRows cursorRow rows)) = charsOf (textsOf rows) := by
  induction rows with
  | nil => rfl
  | cons row more ih =>
    cases more with
    | nil => rfl
    | cons next more =>
      rw [dropBlankRows]
      split_ifs with hblank
      · rw [ih]
        have hcons : charsOf (textsOf (row :: next :: more)) =
            row.text.length + charsOf (textsOf (next :: more)) := charsOf_cons _
        rw [hcons, hblank.2.2, length_nil, Nat.zero_add]
      · rfl

theorem dropBlankRows_atLast {rows : List FinalizedRow} (hlast : cursorRow + 1 = rows.length) :
    dropBlankRows cursorRow rows = rows := by
  unfold dropBlankRows
  split
  · rw [if_neg]
    rw [length_cons, length_cons] at hlast
    omega
  · rfl

theorem textsOf_reverse (rows : List FinalizedRow) :
    textsOf rows.reverse = (textsOf rows).reverse := map_reverse

theorem charsOf_retainedOf :
    charsOf (textsOf (retainedOf cursorRow rows)) = charsOf (textsOf rows) := by
  rw [retainedOf, textsOf_reverse, charsOf_reverse, charsOf_dropBlankRows, textsOf_reverse,
    charsOf_reverse]

theorem charsOf_closed (rows : List FinalizedRow) :
    charsOf (textsOf (closedRowsOf rows)) + (openTextOf rows).length = charsOf (textsOf rows) := by
  rw [closedRowsOf, openTextOf]
  cases hopen : openRowOf rows with
  | none => rfl
  | some row =>
    have hlast : rows.getLast? = some row := by
      rw [openRowOf, Option.filter_eq_some_iff] at hopen
      exact hopen.1
    obtain ⟨front, rfl⟩ := getLast?_eq_some_iff.mp hlast
    rw [Option.isSome_some, if_pos rfl, dropLast_concat, textsOf, textsOf, map_append,
      charsOf_append]
    rfl

theorem openRowOf_mem {row : FinalizedRow}
    (hopen : openRowOf (retainedOf cursorRow rows) = some row) :
    row ∈ rows ∧ row.completed = false := by
  rw [openRowOf, Option.filter_eq_some_iff] at hopen
  obtain ⟨hlast, hcompleted⟩ := hopen
  refine ⟨?_, by simpa using hcompleted⟩
  have hmem := mem_of_getLast? hlast
  rw [retainedOf, mem_reverse] at hmem
  exact mem_reverse.mp ((dropBlankRows_suffix cursorRow rows.reverse).mem hmem)

end Characters

section Ends

variable {front : List RetainedTerminalRow} {capped : Bool} {given : ℕ}
  {full window : RetainedTailRedraw} {newCompleteLines : ℕ} {newlyCompletedLines : List Text}

section

variable (hends : EndsAlike front capped given full window)
include hends

theorem EndsAlike.rows : full.rows.map finalizedRow =
      (front.drop given).map finalizedRow ++ window.rows.map finalizedRow := by
  rw [hends.shifted.rows, map_append]

theorem EndsAlike.window_ne_nil : window.rows.map finalizedRow ≠ [] := by
  intro hnone
  have hinside := hends.inside
  rw [map_eq_nil_iff.mp hnone] at hinside
  exact Nat.not_lt_zero _ hinside

theorem EndsAlike.last_completed
    {row : FinalizedRow} (hrow : (window.rows.map finalizedRow).getLast? = some row)
    (hcompleted : row.completed = true) : full.rows.length ≤ MAX_TAIL_LINES := by
  rw [getLast?_map] at hrow
  obtain ⟨last, hlast, rfl⟩ := Option.map_eq_some_iff.mp hrow
  have hindex : full.rows[full.rows.length - 1]? = some last := by
    rw [← getLast?_eq_getElem?, hends.shifted.rows,
      getLast?_append_of_ne_nil _ (ne_nil_of_mem (mem_of_getLast? hlast))]
    exact hlast
  have hbelow := hends.completed _ last hindex hcompleted
  omega

theorem EndsAlike.closed_le : (front.drop given).length +
      (closedRowsOf (retainedOf window.cursorRow (window.rows.map finalizedRow))).length ≤
        MAX_TAIL_LINES := by
  have hcount : full.rows.length = (front.drop given).length + window.rows.length := by
    rw [hends.shifted.rows, length_append]
  have hlive := hends.live
  refine (@closedRowsOf_le _ _ _ MAX_TAIL_LINES ?_ ?_).resolve_right hends.window_ne_nil
  · rw [length_map]
    omega
  · intro row hrow hcompleted
    have hroom := hends.last_completed hrow hcompleted
    rw [length_map]
    omega

theorem EndsAlike.finalize_window
    (hchars : charsOf (textsOf (window.rows.map finalizedRow)) ≤ MAX_TAIL_CHARS) :
    finalizeRetainedTerminalRows window.rows window.cursorRow window.cursorColumn
        window.truncated newCompleteLines newlyCompletedLines =
      tailOf (retainedOf window.cursorRow (window.rows.map finalizedRow)) window.cursorRow
        window.cursorColumn window.truncated newCompleteLines newlyCompletedLines := by
  have hclosed := hends.closed_le
  have hlive := hends.live
  rw [hends.shifted.rows, length_append] at hlive
  have heq := @finalize_eq window.cursorRow window.cursorColumn newCompleteLines window.truncated
    newlyCompletedLines window.rows 0 (by omega)
    (dropOverfullRows_within hchars) (Nat.zero_le _) (by
      rw [Nat.sub_zero, drop_zero]
      omega)
  rw [Nat.sub_zero, drop_zero, decide_eq_false (Nat.lt_irrefl 0), Bool.or_false] at heq
  exact heq

/-- The whole tail ends the same way, behind the rows in front that the caps leave. -/
theorem EndsAlike.finalize_full
    (hchars : charsOf (textsOf (window.rows.map finalizedRow)) ≤ MAX_TAIL_CHARS) :
    let shown := (front.drop given).map finalizedRow
    let retained := retainedOf window.cursorRow (window.rows.map finalizedRow)
    let drops := frontDrops shown (window.rows.map finalizedRow)
    finalizeRetainedTerminalRows full.rows full.cursorRow full.cursorColumn full.truncated
        newCompleteLines newlyCompletedLines =
      { tailOf retained window.cursorRow window.cursorColumn
          (full.truncated || decide (0 < drops)) newCompleteLines newlyCompletedLines with
        lines := (textsOf shown).drop drops ++ textsOf (closedRowsOf retained) } := by
  intro shown retained drops
  have hnonempty := hends.window_ne_nil
  have hclosed := hends.closed_le
  have hdrops : drops ≤ shown.length := by
    have hle := dropsOver_le (MAX_TAIL_CHARS - charsOf (textsOf (window.rows.map finalizedRow)))
      (textsOf shown) (charsOf (textsOf shown))
    exact hle.trans (length_map _).le
  have hshown : shown.length = (front.drop given).length := length_map _
  have hsplit : (full.rows.map finalizedRow).drop drops =
      shown.drop drops ++ window.rows.map finalizedRow := by
    rw [hends.rows, drop_append_of_le_length hdrops]
  have hcursor : full.cursorRow - drops = (shown.drop drops).length + window.cursorRow := by
    have hshift := hends.shifted.cursorRow
    rw [length_drop]
    omega
  have hretained : retainedOf (full.cursorRow - drops) ((full.rows.map finalizedRow).drop drops) =
      shown.drop drops ++ retained := by
    rw [hcursor, hsplit]
    exact retainedOf_append (by rw [length_map]; exact hends.inside)
  have heq := @finalize_eq full.cursorRow full.cursorColumn newCompleteLines full.truncated
    newlyCompletedLines full.rows drops hends.live ?_ ?_ ?_
  · rw [heq, hretained, hcursor, hends.shifted.cursorColumn,
      tailOf_append (retainedOf_ne_nil hnonempty)]
    rw [textsOf, map_drop]
    rfl
  · rw [hends.rows, drop_append_of_le_length hdrops]
    exact dropOverfullRows_append _ _ hnonempty hchars
  · rw [hends.shifted.rows, length_append]
    omega
  · rw [hretained, closedRowsOf_append (retainedOf_ne_nil hnonempty), length_append, length_drop]
    omega

end

end Ends

section Builds

variable {tail : RetainedTail} {partialLine : Text} {lines : List Text}

theorem stats_exact (hcaps : WithinCaps tail partialLine) :
    getRetainedTailLineStats tail = computeStats tail.rows := by
  rw [getRetainedTailLineStats]
  cases hstats : tail.stats with
  | none => rfl
  | some stats => exact hcaps.stats stats hstats

/-- The lines carried and appended, without those that the caps drop. -/
theorem build_rows (keepEnd partialChars : ℕ) {carried appended : List Text}
    (hcaps : WithinCaps tail partialLine) (hcarried : tail.rows.take keepEnd = carried) :
    let combined := carried ++ appended
    let overLines := combined.length - MAX_TAIL_LINES
    let overChars := (dropsOver (MAX_TAIL_CHARS - partialChars) (combined.drop overLines)
      (charsOf (combined.drop overLines))).1
    let built := buildCarriedTailLines tail 0 keepEnd appended (some partialChars)
    built.1.rows = combined.drop (overLines + overChars) ∧
      built.2 = decide (0 < overLines + overChars) := by
  intro combined overLines overChars built
  have hkept : (if carried.isEmpty then 0
      else (getRetainedTailLineStats tail).totalChars - charsOf (tail.rows.take 0) -
        charsOf (tail.rows.drop keepEnd)) = charsOf carried := by
    have htotal : charsOf carried + charsOf (tail.rows.drop keepEnd) = charsOf tail.rows :=
      hcarried ▸ charsOf_take_add_drop keepEnd
    have hstats : (getRetainedTailLineStats tail).totalChars = charsOf tail.rows := by
      rw [stats_exact hcaps]
      rfl
    rw [hstats, take_zero, charsOf_nil, Nat.sub_zero]
    split_ifs with hempty
    · rw [isEmpty_iff.mp hempty]
      rfl
    · omega
  have hbuilt : built = buildCarriedTailLines tail 0 keepEnd appended (some partialChars) := rfl
  unfold buildCarriedTailLines at hbuilt
  dsimp only at hbuilt
  rw [drop_zero, hcarried, hkept, ← charsOf_append, charsOf_drop] at hbuilt
  have hdropCount : combined.length - MAX_TAIL_LINES + (dropsOver (MAX_TAIL_CHARS - partialChars)
      (combined.drop (combined.length - MAX_TAIL_LINES))
      (charsOf (combined.drop (combined.length - MAX_TAIL_LINES)))).1 = overLines + overChars := rfl
  rw [hdropCount] at hbuilt
  by_cases hsame : overLines + overChars = 0 ∧ appended = [] ∧ 0 = 0 ∧ keepEnd = tail.rows.length
  · rw [if_pos hsame] at hbuilt
    obtain ⟨hnone, happended, -, hkeepEnd⟩ := hsame
    rw [hbuilt, hnone]
    refine ⟨?_, rfl⟩
    change tail.rows = (carried ++ appended).drop 0
    rw [drop_zero, happended, append_nil, ← hcarried, hkeepEnd, take_length]
  · rw [if_neg hsame] at hbuilt
    rw [hbuilt]
    exact ⟨rfl, rfl⟩

theorem trimmed_map {rows : List Text} (htrimmed : rows.all isRightTrimmed = true) :
    rows.map trimTerminalLineRight = rows := by
  refine (map_congr_left fun line hline => ?_).trans (map_id rows)
  exact beq_iff_eq.mp (all_eq_true.mp htrimmed line hline)

/-- Whether the rows in front are carried or rewritten, they come out trimmed. -/
theorem window_built (front partialChars : ℕ) (hcaps : WithinCaps tail partialLine) :
    let combined := (tail.rows.take front).map trimTerminalLineRight ++ lines
    let overLines := combined.length - MAX_TAIL_LINES
    let overChars := (dropsOver (MAX_TAIL_CHARS - partialChars) (combined.drop overLines)
      (charsOf (combined.drop overLines))).1
    let built :=
      if (getRetainedTailLineStats tail).rightTrimmed then
        buildCarriedTailLines tail 0 front lines (some partialChars)
      else
        buildCarriedTailLines tail 0 0
          ((tail.rows.take front).map trimTerminalLineRight ++ lines) (some partialChars)
    built.1.rows = combined.drop (overLines + overChars) ∧
      built.2 = decide (0 < overLines + overChars) := by
  intro combined overLines overChars built
  have hbuilt : built = if (getRetainedTailLineStats tail).rightTrimmed then
        buildCarriedTailLines tail 0 front lines (some partialChars)
      else
        buildCarriedTailLines tail 0 0
          ((tail.rows.take front).map trimTerminalLineRight ++ lines) (some partialChars) := rfl
  by_cases htrimmed : (getRetainedTailLineStats tail).rightTrimmed = true
  · rw [if_pos htrimmed] at hbuilt
    rw [hbuilt]
    rw [stats_exact hcaps] at htrimmed
    have hfront : (tail.rows.take front).map trimTerminalLineRight = tail.rows.take front := by
      refine trimmed_map (all_eq_true.mpr fun line hline => ?_)
      exact all_eq_true.mp htrimmed line (mem_of_mem_take hline)
    have hrows := @build_rows tail partialLine front partialChars (tail.rows.take front) lines
      hcaps rfl
    rw [← hfront] at hrows
    exact hrows
  · rw [if_neg htrimmed] at hbuilt
    rw [hbuilt]
    exact @build_rows tail partialLine 0 partialChars [] combined hcaps take_zero

end Builds

section Equality

variable {tail : RetainedTail} {partialLine chunk : Text} {capped : Bool}
  {cursor : Option RetainedTailRedrawCursor}

theorem finalizedRow_retained (line : Text) :
    (finalizedRow (retainedRow line true)).text = trimTerminalLineRight line :=
  (prefix_iff_eq_take.mp (List.rdropWhile_prefix _ line)).symm

theorem textsOf_frontRows (lines : List Text) (front given : ℕ) :
    textsOf (((frontRows lines front).drop given).map finalizedRow) =
      ((lines.take front).map trimTerminalLineRight).drop given := by
  rw [frontRows, textsOf, map_drop, map_drop, map_map, map_map]
  congr 1
  exact map_congr_left fun line _ => finalizedRow_retained line

theorem finalize_infix (rows : List RetainedTerminalRow) (cursorRow cursorColumn : ℕ)
    (truncated : Bool) (newCompleteLines : ℕ) (newlyCompletedLines : List Text) :
    (finalizeRetainedTerminalRows rows cursorRow cursorColumn truncated newCompleteLines
      newlyCompletedLines).lines <:+: textsOf (rows.map finalizedRow) := by
  have hoverfull : ∀ (rows : List FinalizedRow) (total : ℕ),
    dropOverfullRows rows total <:+ rows := by
    intro rows
    induction rows with
    | nil => exact fun _ => suffix_rfl
    | cons row more ih =>
      intro total
      cases more with
      | nil => exact suffix_rfl
      | cons next more =>
        rw [dropOverfullRows]
        split_ifs
        · exact (ih _).trans (suffix_cons _ _)
        · exact suffix_rfl
  unfold finalizeRetainedTerminalRows
  dsimp only
  generalize hkept : (rows.map finalizedRow).drop
    ((rows.map finalizedRow).length - (MAX_TAIL_LINES + 1)) = kept
  have hkeptSuffix : kept <:+ rows.map finalizedRow := hkept ▸ drop_suffix _ _
  generalize hwithin : dropOverfullRows kept _ = within
  have hwithinSuffix : within <:+ kept := hwithin ▸ hoverfull _ _
  generalize hretained : (dropBlankRows _ within.reverse).reverse = retained
  have hretainedPrefix : retained <+: within := by
    rw [← hretained, ← reverse_suffix, reverse_reverse]
    exact dropBlankRows_suffix _ _
  have hclosed : (if (retained.getLast?.filter fun row => !row.completed).isSome then
      retained.dropLast else retained) <+: retained := by
    split_ifs
    · exact dropLast_prefix _
    · exact prefix_rfl
  have hrun := (hclosed.trans hretainedPrefix).isInfix.trans
    (hwithinSuffix.trans hkeptSuffix).isInfix
  exact (drop_suffix _ _).isInfix.trans (hrun.map FinalizedRow.text)

variable {full window : RetainedTailRedraw}

/-- The rows that the line cap drops from the window and the rows in front are those it gives up
in the whole tail. -/
theorem overLines_eq {front : List RetainedTerminalRow} {given : ℕ}
    (hends : EndsAlike front capped given full window)
    (hlineCap : given = 0 ∨ full.rows.length = MAX_TAIL_LINES + 1) :
    front.length +
        (closedRowsOf (retainedOf window.cursorRow (window.rows.map finalizedRow))).length -
      MAX_TAIL_LINES = min given front.length := by
  have hclosed := hends.closed_le
  rw [length_drop] at hclosed
  have hcount : full.rows.length = front.length - given + window.rows.length := by
    rw [hends.shifted.rows, length_append, length_drop]
  by_cases hgiven : given = 0
  · omega
  have hfull := hlineCap.resolve_left hgiven
  have hcursor : window.cursorRow + 1 = window.rows.length := by
    have hlast := hends.last (Nat.pos_of_ne_zero hgiven)
    have hshift := hends.shifted.cursorRow
    rw [length_drop] at hshift
    omega
  have hlines : (closedRowsOf (retainedOf window.cursorRow
      (window.rows.map finalizedRow))).length + 1 = window.rows.length := by
    have hall : retainedOf window.cursorRow (window.rows.map finalizedRow) =
        window.rows.map finalizedRow := by
      rw [retainedOf, dropBlankRows_atLast, reverse_reverse]
      rw [length_reverse, length_map]
      exact hcursor
    obtain ⟨last, hlast⟩ := Option.isSome_iff_exists.mp (getLast?_isSome.mpr hends.window_ne_nil)
    have hopen : last.completed = false := by
      by_contra hcompleted
      have hroom := hends.last_completed hlast (by simpa using hcompleted)
      omega
    rw [hall, closedRowsOf, openRowOf, hlast, Option.filter_some, hopen, Bool.not_false, if_pos rfl,
      Option.isSome_some, if_pos rfl, length_dropLast, length_map]
    omega
  omega

theorem build_whole (tail : RetainedTail) {lines : List Text}
    (hlines : lines.length ≤ MAX_TAIL_LINES) :
    (buildCarriedTailLines tail 0 0 lines none).1.rows = lines := by
  unfold buildCarriedTailLines
  dsimp only
  rw [take_zero, drop_nil, nil_append, Nat.sub_eq_zero_of_le hlines, Nat.add_zero, drop_zero]
  by_cases hsame : 0 = 0 ∧ lines = [] ∧ 0 = 0 ∧ 0 = tail.rows.length
  · rw [if_pos hsame]
    obtain ⟨-, hnone, -, hempty⟩ := hsame
    rw [hnone]
    exact eq_nil_of_length_eq_zero hempty.symm
  · rw [if_neg hsame]

/-- The window of a chunk starts in step with the whole tail and ends like it. -/
theorem window_ends (hcaps : WithinCaps tail partialLine)
    (hfree : UpsFree (startRedraw tail.rows partialLine capped cursor) 0 (redrawControls chunk))
    (hwindow : windowRows tail.rows.length chunk cursor < tail.rows.length) :
    EndsAlike (frontRows tail.rows
        (tail.rows.length - windowRows tail.rows.length chunk cursor)) capped
      (givenUp (startRedraw tail.rows partialLine capped cursor) (redrawControls chunk))
      (redrawOf tail.rows partialLine chunk capped cursor).spliceTrimmedRows
      (redrawOf (tail.rows.rtake (windowRows tail.rows.length chunk cursor)) partialLine chunk
        capped cursor).spliceTrimmedRows := by
  have hreach := maxUpwardCursorReach_ge chunk cursor (tail.rows.length - REDRAW_WINDOW_SAFETY_ROWS)
  generalize hdepth : maxUpwardCursorReach chunk cursor
    (tail.rows.length - REDRAW_WINDOW_SAFETY_ROWS) = reach at hreach
  have hrows : windowRows tail.rows.length chunk cursor = reach + REDRAW_WINDOW_SAFETY_ROWS := by
    rw [windowRows, hdepth]
  have hstart : startRowFromEnd cursor ≤ reach := by
    have hgrows := @run_reach_ge ⟨startRowFromEnd cursor, startRowFromEnd cursor⟩
      (redrawControls chunk)
    dsimp only at hgrows
    omega
  have hstep := @start_inStep tail.rows partialLine capped cursor
    (tail.rows.length - windowRows tail.rows.length chunk cursor) reach hcaps.lines_le (by omega)
    hstart
  have hrun := hstep.run (redrawControls chunk) hfree hreach
  rw [Nat.zero_add] at hrun
  exact hrun.ends

/-- The characters that the windowed build counts are those that the whole redraw counts. -/
theorem frontDrops_eq {front rows : List FinalizedRow} {cursorRow : ℕ}
    (hchars : charsOf (textsOf rows) ≤ MAX_TAIL_CHARS)
    (hopen : (openTextOf (retainedOf cursorRow rows)).length ≤ MAX_TAIL_PARTIAL_CHARS ∨
      charsOf (textsOf front) + charsOf (textsOf rows) ≤ MAX_TAIL_CHARS) :
    let lines := textsOf front ++ textsOf (closedRowsOf (retainedOf cursorRow rows))
    (dropsOver (MAX_TAIL_CHARS -
        ((openTextOf (retainedOf cursorRow rows)).rtake MAX_TAIL_PARTIAL_CHARS).length) lines
      (charsOf lines)).1 = frontDrops front rows := by
  intro lines
  have htotal := charsOf_closed (retainedOf cursorRow rows)
  rw [charsOf_retainedOf] at htotal
  have hcut : ((openTextOf (retainedOf cursorRow rows)).rtake MAX_TAIL_PARTIAL_CHARS).length ≤
      (openTextOf (retainedOf cursorRow rows)).length := by
    rw [List.rtake, length_drop]
    exact Nat.sub_le _ _
  rw [dropsOver_append _ _ _ (by omega), frontDrops]
  cases hopen with
  | inl hshort =>
    have hkept : (openTextOf (retainedOf cursorRow rows)).rtake MAX_TAIL_PARTIAL_CHARS =
        openTextOf (retainedOf cursorRow rows) := by
      rw [List.rtake, Nat.sub_eq_zero_of_le hshort, drop_zero]
    rw [hkept, Nat.sub_sub, Nat.add_comm (openTextOf _).length, htotal]
  | inr hall =>
    rw [dropsOver_within (by omega), dropsOver_within (by omega)]

theorem finalize_lines_le (rows : List RetainedTerminalRow) (cursorRow cursorColumn : ℕ)
    (truncated : Bool) (newCompleteLines : ℕ) (newlyCompletedLines : List Text) :
    (finalizeRetainedTerminalRows rows cursorRow cursorColumn truncated newCompleteLines
      newlyCompletedLines).lines.length ≤ MAX_TAIL_LINES := by
  unfold finalizeRetainedTerminalRows
  dsimp only
  rw [List.rtake, length_drop]
  omega

variable {append : TailAppend RetainedTail}

/-- Two redraws that end alike are built into the same tail. -/
theorem ends_equal {front given : ℕ} (hcaps : WithinCaps tail partialLine)
    (hends : EndsAlike (frontRows tail.rows front) capped given full window) (hfront : 0 < front)
    (hfrontLe : front ≤ tail.rows.length)
    (hchars : charsOf (textsOf (window.rows.map finalizedRow)) ≤ MAX_TAIL_CHARS)
    (hopenChars : (∀ row ∈ window.rows, row.completed = false →
        (retainedRowSnapshot row).2.length ≤ MAX_TAIL_PARTIAL_CHARS) ∨
      charsOf (textsOf (full.rows.map finalizedRow)) ≤ MAX_TAIL_CHARS)
    (hlineCap : given = 0 ∨ (textsOf (full.rows.map finalizedRow)).length = MAX_TAIL_LINES + 1)
    (happend : append =
      let windowed := finalizeRetainedTerminalRows window.rows window.cursorRow window.cursorColumn
        window.truncated window.newCompleteLines
        (window.newlyCompletedLines.drop window.newlyCompletedLineStart)
      let built :=
        if (getRetainedTailLineStats tail).rightTrimmed then
          buildCarriedTailLines tail 0 front windowed.lines (some windowed.partialLine.length)
        else
          buildCarriedTailLines tail 0 0
            ((tail.rows.take front).map trimTerminalLineRight ++ windowed.lines)
            (some windowed.partialLine.length)
      { windowed with lines := built.1, truncated := windowed.truncated || built.2 }) :
    { append with lines := append.lines.rows } =
      finalizeRetainedTerminalRows full.rows full.cursorRow full.cursorColumn full.truncated
        full.newCompleteLines (full.newlyCompletedLines.drop full.newlyCompletedLineStart) := by
  obtain ⟨hcount, hrest⟩ := Prod.mk.inj hends.shifted.completed
  obtain ⟨hnewly, hrest⟩ := Prod.mk.inj hrest
  obtain ⟨-, hstart⟩ := Prod.mk.inj hrest
  rw [textsOf, length_map, length_map] at hlineCap
  have hover := overLines_eq hends hlineCap
  have hfrontRows : (frontRows tail.rows front).length = front := by
    rw [frontRows, length_map, length_take]
    omega
  rw [hfrontRows] at hover
  rw [hends.finalize_full hchars, hcount, hnewly, hstart]
  rw [hends.finalize_window hchars] at happend
  unfold tailOf at happend ⊢
  dsimp only at happend ⊢
  have hbuilt := @window_built tail partialLine (textsOf (closedRowsOf (retainedOf window.cursorRow
    (window.rows.map finalizedRow)))) front
    ((openTextOf (retainedOf window.cursorRow (window.rows.map finalizedRow))).rtake
      MAX_TAIL_PARTIAL_CHARS).length hcaps
  dsimp only at hbuilt
  have htexts := textsOf_frontRows tail.rows front given
  have hdrops := @frontDrops_eq ((frontRows tail.rows front).drop given |>.map finalizedRow)
    (window.rows.map finalizedRow) window.cursorRow hchars ?_
  swap
  · refine hopenChars.imp (fun hshort => ?_) fun hall => ?_
    · rw [openTextOf]
      cases hopen : openRowOf (retainedOf window.cursorRow (window.rows.map finalizedRow)) with
      | none => exact Nat.zero_le _
      | some row =>
        obtain ⟨hmem, hcompleted⟩ := openRowOf_mem hopen
        obtain ⟨source, hsource, rfl⟩ := mem_map.mp hmem
        exact hshort source hsource hcompleted
    · rw [hends.rows, textsOf, map_append, charsOf_append] at hall
      exact hall
  rw [htexts] at hdrops ⊢
  dsimp only at hdrops
  have hdropsLe : frontDrops (((frontRows tail.rows front).drop given).map finalizedRow)
      (window.rows.map finalizedRow) ≤
        (((tail.rows.take front).map trimTerminalLineRight).drop given).length := by
    rw [frontDrops, htexts]
    exact dropsOver_le _ _ _
  generalize hfl : textsOf (closedRowsOf (retainedOf window.cursorRow
    (window.rows.map finalizedRow))) = lines at *
  have hlinesLength : lines.length = (closedRowsOf (retainedOf window.cursorRow
      (window.rows.map finalizedRow))).length := by
    rw [← hfl, textsOf, length_map]
  generalize hP : (tail.rows.take front).map trimTerminalLineRight = shown at *
  have hshown : shown.length = front := by
    rw [← hP, length_map, length_take]
    omega
  generalize frontDrops (((frontRows tail.rows front).drop given).map finalizedRow)
    (window.rows.map finalizedRow) = drops at *
  have hoverLines : (shown ++ lines).length - MAX_TAIL_LINES = min given front := by
    rw [length_append, hshown, hlinesLength]
    exact hover
  have hkept : (shown ++ lines).drop (min given front) = shown.drop given ++ lines := by
    rw [drop_append_of_le_length (by omega)]
    congr 1
    by_cases hwhole : given ≤ front
    · rw [min_eq_left hwhole]
    · rw [min_eq_right (by omega), drop_eq_nil_of_le (by omega), drop_eq_nil_of_le (by omega)]
  rw [hoverLines, hkept, hdrops] at hbuilt
  obtain ⟨hrows, hdropped⟩ := hbuilt
  rw [happend]
  refine TailAppend.ext ?_ rfl rfl ?_ rfl rfl
  · refine Eq.trans hrows ?_
    rw [← drop_drop, hkept, drop_append_of_le_length hdropsLe]
  · refine (congrArg (_ || ·) hdropped).trans ?_
    rw [hends.full_truncated, hends.window_truncated, hfrontRows]
    generalize decide (MAX_TAIL_PARTIAL_CHARS < _) = cut
    cases capped
    · cases cut
      · simp only [Bool.false_or, Bool.or_false, ← Bool.decide_or, decide_eq_decide]
        omega
      · simp only [Bool.or_true, Bool.true_or]
    · simp only [Bool.true_or]

/-- A window of less depth than the tail is redrawn as the whole. -/
theorem windowed_whole (hcaps : WithinCaps tail partialLine)
    (hagree : CapsAgree tail.rows partialLine chunk capped cursor)
    (hwindow : windowRows tail.rows.length chunk cursor < tail.rows.length) (happend : append =
      let windowed := appendNormalizedToMultilineTailBufferUnwindowed
        (tail.rows.drop (tail.rows.length - windowRows tail.rows.length chunk cursor)) partialLine
        chunk capped cursor
      let built :=
        if (getRetainedTailLineStats tail).rightTrimmed then
          buildCarriedTailLines tail 0
            (tail.rows.length - windowRows tail.rows.length chunk cursor) windowed.lines
            (some windowed.partialLine.length)
        else
          buildCarriedTailLines tail 0 0
            ((tail.rows.take (tail.rows.length -
              windowRows tail.rows.length chunk cursor)).map trimTerminalLineRight ++
                windowed.lines)
            (some windowed.partialLine.length)
      { windowed with lines := built.1, truncated := windowed.truncated || built.2 }) :
    { append with lines := append.lines.rows } =
      appendNormalizedToMultilineTailBufferUnwindowed tail.rows partialLine chunk capped
        cursor := by
  have hends := @window_ends tail partialLine chunk capped cursor hcaps hagree.upsFree hwindow
  have hchars := hagree.windowChars
  have hopenChars := hagree.openChars
  have hlineCap := hagree.lineCap
  generalize hgivenUp : givenUp (startRedraw tail.rows partialLine capped cursor)
    (redrawControls chunk) = given at hends hlineCap
  have hunwindowed : ∀ lines,
      appendNormalizedToMultilineTailBufferUnwindowed lines partialLine chunk
      capped cursor =
    let redraw := (redrawOf lines partialLine chunk capped cursor).spliceTrimmedRows
    finalizeRetainedTerminalRows redraw.rows redraw.cursorRow redraw.cursorColumn redraw.truncated
      redraw.newCompleteLines
      (redraw.newlyCompletedLines.drop redraw.newlyCompletedLineStart) := fun _ => rfl
  rw [hunwindowed] at happend ⊢
  unfold shownRows at hchars hopenChars hlineCap
  rw [List.rtake] at hends hchars hopenChars
  generalize hfront : tail.rows.length - windowRows tail.rows.length chunk cursor = front at *
  have hfrontPos : 0 < front := by omega
  have hfrontLe : front ≤ tail.rows.length := by omega
  dsimp only at happend ⊢
  generalize (redrawOf tail.rows partialLine chunk capped cursor).spliceTrimmedRows = full at *
  generalize (redrawOf (tail.rows.drop front) partialLine chunk capped cursor).spliceTrimmedRows =
    window at *
  exact ends_equal hcaps hends hfrontPos hfrontLe hchars hopenChars hlineCap happend

/-- Where the caps fall on both alike, the windowed redraw returns what the whole one does, and
the lines it keeps are rows in a row. -/
theorem windowed_eq_unwindowed (hcaps : WithinCaps tail partialLine)
    (hagree : CapsAgree tail.rows partialLine chunk capped cursor) :
    let append := appendNormalizedToMultilineTailBuffer tail partialLine chunk capped cursor
    let whole := appendNormalizedToMultilineTailBufferUnwindowed tail.rows partialLine chunk capped
      cursor
    { append with lines := append.lines.rows } = whole ∧
      append.lines.rows <:+: shownRows (redrawOf tail.rows partialLine chunk capped cursor) := by
  intro append whole
  have hrun : whole.lines <:+: shownRows (redrawOf tail.rows partialLine chunk capped cursor) :=
    finalize_infix _ _ _ _ _ _
  have hsame : { append with lines := append.lines.rows } = whole := by
    have happend : append = appendNormalizedToMultilineTailBuffer tail partialLine chunk capped
      cursor := rfl
    unfold appendNormalizedToMultilineTailBuffer at happend
    dsimp only at happend
    have hrows : maxUpwardCursorReach chunk cursor
        (tail.rows.length - REDRAW_WINDOW_SAFETY_ROWS) + REDRAW_WINDOW_SAFETY_ROWS =
      windowRows tail.rows.length chunk cursor := rfl
    rw [hrows] at happend
    by_cases hdeep : tail.rows.length ≤ windowRows tail.rows.length chunk cursor
    · rw [if_pos hdeep] at happend
      rw [happend]
      exact TailAppend.ext (build_whole tail (finalize_lines_le _ _ _ _ _ _)) rfl rfl rfl rfl rfl
    · rw [if_neg hdeep] at happend
      exact windowed_whole hcaps hagree (Nat.lt_of_not_le hdeep) happend
  refine ⟨hsame, ?_⟩
  have hlines : append.lines.rows = whole.lines := congrArg TailAppend.lines hsame
  rw [hlines]
  exact hrun

/-- A text that moves one row up. -/
theorem windowed_eq_unwindowed_sample :
    let tail : RetainedTail := ⟨List.replicate 12 [0x61], none⟩
    let chunk : Text := [0x78, 0x1b, 0x5b, 0x41]
    let append := appendNormalizedToMultilineTailBuffer tail [] chunk false none
    let whole := appendNormalizedToMultilineTailBufferUnwindowed tail.rows [] chunk false none
    { append with lines := append.lines.rows } = whole ∧
      append.lines.rows <:+: shownRows (redrawOf tail.rows [] chunk false none) := by
  refine windowed_eq_unwindowed ⟨by decide +kernel, by decide +kernel, by decide +kernel,
    fun _ h => (by cases h)⟩ ⟨.inl (by decide +kernel), ?_, by decide +kernel,
    .inr (by decide +kernel)⟩
  have hcontrols : redrawControls [0x78, 0x1b, 0x5b, 0x41] =
      [.text [0x78], .sequence (.csi 0x41 [] none)] := by decide +kernel
  rw [hcontrols]
  exact ⟨fun h => absurd h (by decide +kernel), fun h => absurd h (by decide +kernel), trivial⟩

/-- A newline on a full tail and the way back: the whole redraw has given a row up. -/
theorem windowed_differs_when_full :
    ¬∀ (tail : RetainedTail) (partialLine chunk : Text) (capped : Bool)
      (cursor : Option RetainedTailRedrawCursor), WithinCaps tail partialLine →
        let append := appendNormalizedToMultilineTailBuffer tail partialLine chunk capped cursor
        { append with lines := append.lines.rows } =
          appendNormalizedToMultilineTailBufferUnwindowed tail.rows partialLine chunk capped
            cursor := by
  intro hsame
  have hfull := hsame ⟨List.replicate 2000 [], none⟩ []
    [0x0a, 0x1b, 0x5b, 0x32, 0x41] false none
    ⟨by decide +kernel, by decide +kernel, by decide +kernel, fun _ h => (by cases h)⟩
  have htruncated := congrArg TailAppend.truncated hfull
  revert htruncated
  decide +kernel

/-- Down and back up again and again below rows that fill the character cap: only the whole
redraw drops the rows before the window. -/
theorem windowed_differs_over_characters :
    ¬∀ (tail : RetainedTail) (partialLine chunk : Text) (capped : Bool)
      (cursor : Option RetainedTailRedrawCursor), WithinCaps tail partialLine →
        givenUp (startRedraw tail.rows partialLine capped cursor) (redrawControls chunk) = 0 →
        let append := appendNormalizedToMultilineTailBuffer tail partialLine chunk capped cursor
        { append with lines := append.lines.rows } =
          appendNormalizedToMultilineTailBufferUnwindowed tail.rows partialLine chunk capped
            cursor := by
  intro hsame
  have hwide := hsame ⟨replicate 3 [0x70] ++ replicate 60 (replicate 4369 0x61), none⟩ []
    ((replicate 52 [0x0a, 0x1b, 0x5b, 0x41]).flatten ++ replicate 5 0x78) false none
    ⟨by decide +kernel, by decide +kernel, by decide +kernel, fun _ h => (by cases h)⟩
    (by decide +kernel)
  have hlines := congrArg (fun append => append.lines.length) hwide
  revert hlines
  decide +kernel

end Equality

end Wakii.Terminal
