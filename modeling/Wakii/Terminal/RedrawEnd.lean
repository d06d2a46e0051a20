import Wakii.Terminal.RedrawWindow

/-!
# How a redraw ends

Rows in front of a redraw come out in front of its lines, but for those that the
character cap drops; everything else it returns is the same.
-/

namespace Wakii.Terminal

open List

section Drops

theorem dropsOver_append (budget : ℕ) (front rest : List Text) (hrest : charsOf rest ≤ budget) :
    (dropsOver budget (front ++ rest) (charsOf (front ++ rest))).1 =
      (dropsOver (budget - charsOf rest) front (charsOf front)).1 := by
  induction front with
  | nil =>
    rw [nil_append, charsOf_nil, dropsOver]
    cases rest with
    | nil => rfl
    | cons line rest =>
      rw [dropsOver, if_neg (Nat.not_lt.mpr hrest)]
  | cons line front ih =>
    rw [cons_append, dropsOver, dropsOver, charsOf_cons, charsOf_cons, Nat.add_sub_cancel_left,
      Nat.add_sub_cancel_left]
    have hsame : budget < line.length + charsOf (front ++ rest) ↔
        budget - charsOf rest < line.length + charsOf front := by
      rw [charsOf_append]
      omega
    by_cases hover : budget - charsOf rest < line.length + charsOf front
    · rw [if_pos hover, if_pos (hsame.mpr hover)]
      exact congrArg (· + 1) ih
    · rw [if_neg hover, if_neg fun h => hover (hsame.mp h)]

theorem dropsOver_le (budget : ℕ) (lines : List Text) (total : ℕ) :
    (dropsOver budget lines total).1 ≤ lines.length := by
  induction lines generalizing total with
  | nil => exact Nat.le_refl _
  | cons line rest ih =>
    rw [dropsOver]
    split_ifs
    · exact Nat.succ_le_succ (ih _)
    · exact Nat.zero_le _

theorem dropsOver_within {budget : ℕ} {lines : List Text} {total : ℕ} (hwithin : total ≤ budget) :
    (dropsOver budget lines total).1 = 0 := by
  cases lines with
  | nil => rfl
  | cons line rest => rw [dropsOver, if_neg (Nat.not_lt.mpr hwithin)]

end Drops

section Rows

def textsOf (rows : List FinalizedRow) : List Text := rows.map FinalizedRow.text

def frontDrops (front rows : List FinalizedRow) : ℕ :=
  (dropsOver (MAX_TAIL_CHARS - charsOf (textsOf rows)) (textsOf front) (charsOf (textsOf front))).1

theorem dropOverfullRows_within {rows : List FinalizedRow} {total : ℕ}
    (hwithin : total ≤ MAX_TAIL_CHARS) : dropOverfullRows rows total = rows := by
  unfold dropOverfullRows
  split
  · rw [if_neg (Nat.not_lt.mpr hwithin)]
  · rfl

theorem dropOverfullRows_append (front rows : List FinalizedRow) (hrows : rows ≠ [])
    (hwithin : charsOf (textsOf rows) ≤ MAX_TAIL_CHARS) :
    dropOverfullRows (front ++ rows) (charsOf (textsOf (front ++ rows))) =
      front.drop (frontDrops front rows) ++ rows := by
  induction front with
  | nil => exact dropOverfullRows_within hwithin
  | cons row front ih =>
    obtain ⟨next, more, hnext⟩ := exists_cons_of_ne_nil (append_ne_nil_of_right_ne_nil front hrows)
    have hsum : charsOf (textsOf (row :: (front ++ rows))) =
        row.text.length + charsOf (textsOf (front ++ rows)) := charsOf_cons _
    have hall : charsOf (textsOf (front ++ rows)) =
        charsOf (textsOf front) + charsOf (textsOf rows) := by
      rw [textsOf, map_append, charsOf_append, textsOf, textsOf]
    rw [cons_append, hsum]
    have hstep : frontDrops (row :: front) rows =
        if MAX_TAIL_CHARS - charsOf (textsOf rows) < row.text.length + charsOf (textsOf front) then
          frontDrops front rows + 1 else 0 := by
      have htexts : textsOf (row :: front) = row.text :: textsOf front := rfl
      rw [frontDrops, htexts, dropsOver, charsOf_cons, Nat.add_sub_cancel_left]
      split_ifs
      · rfl
      · rfl
    rw [hnext, dropOverfullRows, ← hnext, Nat.add_sub_cancel_left, hstep]
    by_cases hover : MAX_TAIL_CHARS < row.text.length + charsOf (textsOf (front ++ rows))
    · rw [if_pos hover, if_pos (by omega), drop_succ_cons]
      exact ih
    · rw [if_neg hover, if_neg (by omega), drop_zero]
      rfl

/-- Blank rows are dropped below the cursor only, so never from the rows in front. -/
theorem dropBlankRows_append (cursorRow : ℕ) (rows front : List FinalizedRow)
    (hcursor : cursorRow < rows.length) :
    dropBlankRows (front.length + cursorRow) (rows ++ front) =
      dropBlankRows cursorRow rows ++ front := by
  induction rows with
  | nil => exact absurd hcursor (Nat.not_lt_zero _)
  | cons row more ih =>
    cases more with
    | nil =>
      cases front with
      | nil => rfl
      | cons next front =>
        rw [singleton_append, dropBlankRows, if_neg]
        · rfl
        · rw [length_cons]
          omega
    | cons next more =>
      rw [cons_append, cons_append, dropBlankRows, dropBlankRows, length_append]
      have hsame : (front.length + cursorRow < more.length + front.length + 1 ∧
          row.completed = false ∧ row.text = []) ↔
          (cursorRow < more.length + 1 ∧ row.completed = false ∧ row.text = []) :=
        and_congr_left' (by omega)
      by_cases hblank : cursorRow < more.length + 1 ∧ row.completed = false ∧ row.text = []
      · rw [if_pos hblank, if_pos (hsame.mpr hblank)]
        exact ih hblank.1
      · rw [if_neg hblank, if_neg fun h => hblank (hsame.mp h)]
        rfl

theorem dropBlankRows_suffix (cursorRow : ℕ) (rows : List FinalizedRow) :
    dropBlankRows cursorRow rows <:+ rows := by
  induction rows with
  | nil => exact suffix_rfl
  | cons row more ih =>
    cases more with
    | nil => exact suffix_rfl
    | cons next more =>
      rw [dropBlankRows]
      split_ifs
      · exact ih.trans (suffix_cons _ _)
      · exact suffix_rfl

theorem dropBlankRows_ne_nil (cursorRow : ℕ) {rows : List FinalizedRow} (hrows : rows ≠ []) :
    dropBlankRows cursorRow rows ≠ [] := by
  induction rows with
  | nil => exact hrows
  | cons row more ih =>
    cases more with
    | nil => exact hrows
    | cons next more =>
      rw [dropBlankRows]
      split_ifs
      · exact ih (cons_ne_nil _ _)
      · exact cons_ne_nil _ _

end Rows

section Finalized

def retainedOf (cursorRow : ℕ) (rows : List FinalizedRow) : List FinalizedRow :=
  (dropBlankRows cursorRow rows.reverse).reverse

def openRowOf (rows : List FinalizedRow) : Option FinalizedRow :=
  rows.getLast?.filter fun row => !row.completed

def closedRowsOf (rows : List FinalizedRow) : List FinalizedRow :=
  if (openRowOf rows).isSome then rows.dropLast else rows

def tailOf (retained : List FinalizedRow) (cursorRow cursorColumn : ℕ) (truncated : Bool)
    (newCompleteLines : ℕ) (newlyCompletedLines : List Text) : TailAppend (List Text) :=
  let fullPartialLine := ((openRowOf retained).map FinalizedRow.text).getD []
  let partialLine := fullPartialLine.rtake MAX_TAIL_PARTIAL_CHARS
  let lines := textsOf (closedRowsOf retained)
  { lines
    partialLine
    redrawCursor :=
      if cursorRow = lines.length ∧ cursorColumn = partialLine.length then none
      else some ⟨lines.length - cursorRow, clampTerminalPreviewCursor cursorColumn⟩
    truncated := truncated || decide (MAX_TAIL_PARTIAL_CHARS < fullPartialLine.length)
    newCompleteLines
    newlyCompletedLines }

variable {cursorRow cursorColumn newCompleteLines : ℕ} {truncated : Bool}
  {newlyCompletedLines : List Text}

/-- The end of a redraw whose rows keep the line cap. -/
theorem finalize_eq (rows : List RetainedTerminalRow) (drops : ℕ)
    (hlive : rows.length ≤ MAX_TAIL_LINES + 1)
    (hdrops : dropOverfullRows (rows.map finalizedRow)
      (charsOf (textsOf (rows.map finalizedRow))) = (rows.map finalizedRow).drop drops)
    (hbound : drops ≤ rows.length)
    (hclosed : (closedRowsOf (retainedOf (cursorRow - drops)
      ((rows.map finalizedRow).drop drops))).length ≤ MAX_TAIL_LINES) :
    finalizeRetainedTerminalRows rows cursorRow cursorColumn truncated newCompleteLines
        newlyCompletedLines =
      tailOf (retainedOf (cursorRow - drops) ((rows.map finalizedRow).drop drops))
        (cursorRow - drops) cursorColumn (truncated || decide (0 < drops)) newCompleteLines
        newlyCompletedLines := by
  have hnone : (rows.map finalizedRow).length - (MAX_TAIL_LINES + 1) = 0 := by
    rw [length_map]
    omega
  have hcount : (rows.map finalizedRow).length - ((rows.map finalizedRow).drop drops).length =
      drops := by
    rw [length_drop, length_map]
    omega
  unfold finalizeRetainedTerminalRows
  dsimp only
  rw [hnone, drop_zero]
  unfold textsOf at hdrops
  rw [hdrops, hcount, Nat.sub_zero]
  unfold retainedOf at hclosed ⊢
  generalize
    (dropBlankRows (cursorRow - drops) ((rows.map finalizedRow).drop drops).reverse).reverse
    = retained at *
  have hlines : (textsOf (closedRowsOf retained)).length ≤ MAX_TAIL_LINES := by
    rw [textsOf, length_map]
    exact hclosed
  have hkept : (textsOf (closedRowsOf retained)).rtake MAX_TAIL_LINES =
      textsOf (closedRowsOf retained) := by
    rw [List.rtake, Nat.sub_eq_zero_of_le hlines, drop_zero]
  unfold tailOf
  dsimp only
  have hsame : List.map FinalizedRow.text
      (if (retained.getLast?.filter fun row => !row.completed).isSome then retained.dropLast
        else retained) = textsOf (closedRowsOf retained) := rfl
  rw [hsame, hkept, decide_eq_false (Nat.not_lt.mpr hlines), Bool.or_false, Nat.add_sub_cancel]
  congr 1
  rw [decide_eq_false (Nat.lt_irrefl 0), Bool.or_false]
  rfl

variable {front rows : List FinalizedRow}

theorem retainedOf_append (hcursor : cursorRow < rows.length) :
    retainedOf (front.length + cursorRow) (front ++ rows) = front ++ retainedOf cursorRow rows := by
  have hreversed : cursorRow < rows.reverse.length := by rwa [length_reverse]
  have hdropped := dropBlankRows_append cursorRow rows.reverse front.reverse hreversed
  rw [length_reverse] at hdropped
  rw [retainedOf, reverse_append, hdropped, reverse_append, reverse_reverse]
  rfl

theorem retainedOf_ne_nil {rows : List FinalizedRow} (hrows : rows ≠ []) :
    retainedOf cursorRow rows ≠ [] := by
  rw [retainedOf]
  intro hnone
  have hreversed : rows.reverse ≠ [] := fun h => hrows (reverse_eq_nil_iff.mp h)
  exact dropBlankRows_ne_nil cursorRow hreversed (reverse_eq_nil_iff.mp hnone)

theorem openRowOf_append (hrows : rows ≠ []) : openRowOf (front ++ rows) = openRowOf rows := by
  rw [openRowOf, getLast?_append_of_ne_nil _ hrows]
  rfl

theorem closedRowsOf_append (hrows : rows ≠ []) :
    closedRowsOf (front ++ rows) = front ++ closedRowsOf rows := by
  rw [closedRowsOf, closedRowsOf, openRowOf_append hrows]
  split_ifs
  · exact dropLast_append_of_ne_nil hrows
  · rfl

theorem tailOf_append {front retained : List FinalizedRow} (hretained : retained ≠ []) :
    tailOf (front ++ retained) (front.length + cursorRow) cursorColumn truncated newCompleteLines
        newlyCompletedLines =
      { tailOf retained cursorRow cursorColumn truncated newCompleteLines newlyCompletedLines with
        lines := textsOf front ++ textsOf (closedRowsOf retained) } := by
  have hlines : textsOf (closedRowsOf (front ++ retained)) =
      textsOf front ++ textsOf (closedRowsOf retained) := by
    rw [closedRowsOf_append hretained, textsOf, map_append]
    rfl
  have hlength : (textsOf front ++ textsOf (closedRowsOf retained)).length =
      front.length + (textsOf (closedRowsOf retained)).length := by
    rw [length_append, textsOf, length_map]
  unfold tailOf
  dsimp only
  rw [hlines, openRowOf_append hretained, hlength, Nat.add_sub_add_left]
  congr 1
  simp only [Nat.add_left_cancel_iff]

/-- Within the line cap the closed rows are no more than the cap: the last row is open, or there
is room for it. -/
theorem closedRowsOf_le {front : ℕ} {rows : List FinalizedRow} {cap : ℕ}
    (hlive : front + rows.length ≤ cap + 1)
    (hlast : ∀ row ∈ rows.getLast?, row.completed = true → front + rows.length ≤ cap) :
    front + (closedRowsOf (retainedOf cursorRow rows)).length ≤ cap ∨ rows = [] := by
  by_cases hrows : rows = []
  · exact .inr hrows
  refine .inl ?_
  have hsuffix := dropBlankRows_suffix cursorRow rows.reverse
  have hlength : (retainedOf cursorRow rows).length ≤ rows.length := by
    rw [retainedOf, length_reverse]
    exact hsuffix.length_le.trans length_reverse.le
  have hpositive : 0 < (retainedOf cursorRow rows).length :=
    length_pos_iff.mpr (retainedOf_ne_nil hrows)
  rw [closedRowsOf]
  split_ifs with hopen
  · rw [length_dropLast]
    omega
  · by_cases hfewer : (retainedOf cursorRow rows).length < rows.length
    · omega
    · have hall : retainedOf cursorRow rows = rows := by
        have hsame := hsuffix.eq_of_length (by
          rw [length_reverse]
          rw [retainedOf, length_reverse] at hfewer hlength
          omega)
        rw [retainedOf, hsame, reverse_reverse]
      rw [hall] at hopen ⊢
      obtain ⟨last, hlastRow⟩ := Option.isSome_iff_exists.mp (getLast?_isSome.mpr hrows)
      refine hlast last hlastRow ?_
      by_contra hcompleted
      rw [openRowOf, hlastRow, Option.filter_some, Bool.eq_false_iff.mpr hcompleted] at hopen
      exact hopen rfl

end Finalized

end Wakii.Terminal
