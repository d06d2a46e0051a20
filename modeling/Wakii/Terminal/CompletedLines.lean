import Wakii.Terminal.TailState

/-!
# The lines a chunk completes

Both ways of appending complete a list of lines and keep an end of it.  The
transcript joins what was kept, and so keeps an end of everything completed.
-/

namespace Wakii.Terminal

open List

section Characters

variable {lines more : List Text}

@[simp] theorem charsOf_nil : charsOf [] = 0 := rfl

@[simp] theorem charsOf_cons (line : Text) :
    charsOf (line :: lines) = line.length + charsOf lines := by
  rw [charsOf, map_cons, sum_cons, charsOf]

@[simp] theorem charsOf_append : charsOf (lines ++ more) = charsOf lines + charsOf more := by
  rw [charsOf, map_append, sum_append, charsOf, charsOf]

theorem charsOf_take_add_drop (count : ℕ) :
    charsOf (lines.take count) + charsOf (lines.drop count) = charsOf lines := by
  rw [← charsOf_append, take_append_drop]

theorem charsOf_drop (count : ℕ) :
    charsOf lines - charsOf (lines.take count) = charsOf (lines.drop count) := by
  have htotal := @charsOf_take_add_drop lines count
  omega

/-- The lines exceed a cap. -/
def Overflows (lines : List Text) : Prop :=
  MAX_TAIL_LINES < lines.length ∨ MAX_TAIL_CHARS < charsOf lines

/-- A line before the last `kept` ones is left out only because it exceeds a cap with them. -/
def LeavesOutForCaps (lines : List Text) (kept : ℕ) : Prop :=
  ∀ longer, longer <:+ lines → kept < longer.length → Overflows longer

theorem leavesOutForCaps_length (lines : List Text) : LeavesOutForCaps lines lines.length :=
  fun _ hlonger hlength => absurd hlonger.length_le (not_le.mpr hlength)

theorem Overflows.append (hover : Overflows lines) (more : List Text) :
    Overflows (lines ++ more) := by
  refine hover.imp (fun hlines => ?_) (fun hchars => ?_)
  · rw [length_append]
    exact Nat.lt_add_right _ hlines
  · rw [charsOf_append]
    exact Nat.lt_add_right _ hchars

/-- Lines are added to what was held, and the caps are kept again. -/
theorem LeavesOutForCaps.append {held : List Text} {kept : ℕ}
    (hall : LeavesOutForCaps lines held.length) (hheld : held <:+ lines)
    (hnext : LeavesOutForCaps (held ++ more) kept) : LeavesOutForCaps (lines ++ more) kept := by
  intro longer hlonger hkept
  have hends : held ++ more <:+ lines ++ more := by
    obtain ⟨older, rfl⟩ := hheld
    exact ⟨older, (append_assoc ..).symm⟩
  rcases Nat.lt_or_ge (held ++ more).length longer.length with hless | hle
  · have hmore : more <:+ longer := suffix_of_suffix_length_le (suffix_append _ _) hlonger (by
      rw [length_append] at hless
      omega)
    obtain ⟨earlier, rfl⟩ := hmore
    obtain ⟨older, holder⟩ := hlonger
    rw [← append_assoc] at holder
    rw [length_append, length_append] at hless
    exact (hall earlier ⟨older, append_cancel_right holder⟩ (by omega)).append more
  · exact hnext longer (suffix_of_suffix_length_le hlonger hends hle) hkept

/-- The counting stops within the budget, counts what is left, and leaves out no line that
fits with those behind it. -/
theorem dropsOver_ok (charBudget : ℕ) (lines : List Text) :
    (dropsOver charBudget lines (charsOf lines)).2 =
        charsOf (lines.drop (dropsOver charBudget lines (charsOf lines)).1) ∧
      (dropsOver charBudget lines (charsOf lines)).2 ≤ charBudget ∧
      ∀ longer, longer <:+ lines →
        lines.length - (dropsOver charBudget lines (charsOf lines)).1 < longer.length →
          charBudget < charsOf longer := by
  induction lines with
  | nil => exact ⟨rfl, Nat.zero_le _, fun longer hlonger hlength => by
      rw [suffix_nil.mp hlonger] at hlength
      exact absurd hlength (Nat.not_lt_zero _)⟩
  | cons line rest ih =>
    rw [dropsOver, charsOf_cons, Nat.add_sub_cancel_left]
    split_ifs with hover
    · refine ⟨ih.1, ih.2.1, fun longer hlonger hlength => ?_⟩
      rcases suffix_cons_iff.mp hlonger with rfl | hrest
      · rw [charsOf_cons]
        exact hover
      · refine ih.2.2 longer hrest ?_
        rw [length_cons, Nat.add_sub_add_right] at hlength
        exact hlength
    · exact ⟨(charsOf_cons line).symm, Nat.le_of_not_lt hover,
        fun longer hlonger hlength => absurd hlonger.length_le (not_le.mpr hlength)⟩

end Characters

section Transcript

variable {previous completed kept since : List Text} {characters : ℕ}

/-- The transcript is the longest end of the lines within the caps, and rightly counted. -/
structure TranscriptOk (since lines : List Text) (characters : ℕ) : Prop where
  recent : lines <:+ since
  all : LeavesOutForCaps since lines.length
  characters_eq : characters = charsOf lines
  lines_le : lines.length ≤ MAX_TAIL_LINES
  characters_le : characters ≤ MAX_TAIL_CHARS

theorem capped_ok (recent : List Text) :
    let overLines := recent.length - MAX_TAIL_LINES
    let dropped := dropsOver MAX_TAIL_CHARS (recent.drop overLines)
      (charsOf recent - charsOf (recent.take overLines))
    TranscriptOk recent (recent.drop (overLines + dropped.1)) dropped.2 := by
  dsimp only
  rw [charsOf_drop]
  obtain ⟨hcount, hbudget, hforced⟩ := dropsOver_ok MAX_TAIL_CHARS
    (recent.drop (recent.length - MAX_TAIL_LINES))
  rw [drop_drop] at hcount
  refine ⟨drop_suffix _ _, fun longer hlonger hlength => ?_, hcount, ?_, hbudget⟩
  · rw [length_drop] at hlength
    rw [length_drop, Nat.sub_sub] at hforced
    by_cases hlines : MAX_TAIL_LINES < longer.length
    · exact Or.inl hlines
    · refine Or.inr (hforced longer (suffix_of_suffix_length_le hlonger (drop_suffix _ _) ?_)
        hlength)
      have hle := hlonger.length_le
      rw [length_drop]
      omega
  · rw [length_drop]
    omega

/-- What was completed since lines of a chunk were left out, and the lines kept of it. -/
def keptSince (since kept : List Text) (completed : ℕ) : List Text :=
  if kept.length < completed then kept else since ++ kept

theorem keptSince_suffix {history : List Text} (hsince : since <:+ history)
    (hkept : kept <:+ completed) :
    keptSince since kept completed.length <:+ history ++ completed := by
  unfold keptSince
  split_ifs with homitted
  · exact hkept.trans (suffix_append _ _)
  · obtain ⟨older, rfl⟩ := hsince
    rw [hkept.eq_of_length_le (not_lt.mp homitted), append_assoc]
    exact suffix_append _ _

theorem transcript_ok (hprevious : TranscriptOk since previous characters)
    (hkept : kept <:+ completed) :
    let transcript := appendCompletedTerminalTranscript previous characters kept completed.length
    TranscriptOk (keptSince since kept completed.length) transcript.lines
      transcript.characters := by
  unfold appendCompletedTerminalTranscript keptSince
  dsimp only
  have hlength := hkept.length_le
  by_cases homitted : kept.length < completed.length
  · have hsome : 0 < completed.length - kept.length := Nat.sub_pos_of_lt homitted
    rw [if_pos homitted, if_neg (by omega : ¬ completed.length = 0)]
    simp only [if_pos hsome, nil_append, Nat.zero_add]
    exact capped_ok kept
  rw [if_neg homitted]
  by_cases hzero : completed.length = 0
  · rw [if_pos hzero, eq_nil_of_length_eq_zero (by omega : kept.length = 0), append_nil]
    exact hprevious
  · rw [if_neg hzero]
    simp only [if_neg (by omega : ¬ 0 < completed.length - kept.length)]
    rw [hprevious.characters_eq, ← charsOf_append]
    have hcapped := capped_ok (previous ++ kept)
    dsimp only at hcapped
    refine ⟨hcapped.recent.trans ?_, hprevious.all.append hprevious.recent hcapped.all,
      hcapped.characters_eq, hcapped.lines_le, hcapped.characters_le⟩
    obtain ⟨older, rfl⟩ := hprevious.recent
    exact ⟨older, (append_assoc ..).symm⟩

end Transcript

section PlainLines

def shownText (segment : Text) : Text := (applyTerminalLineControls segment).text

def shownLine (segment : Text) : Text := trimTerminalLineRight (shownText segment)

theorem splitLines_newline {code : CodeUnit} (rest : Text) (hcode : code = NEWLINE) :
    (splitLines (code :: rest)).1 = [] :: (splitLines rest).1 := by
  rw [splitLines]
  cases splitLines rest
  exact congrArg Prod.fst (if_pos hcode)

theorem splitLines_other {code : CodeUnit} (rest : Text) (hcode : code ≠ NEWLINE) :
    (splitLines (code :: rest)).1 = (splitLines rest).1.modify 0 (code :: ·) := by
  rw [splitLines]
  obtain ⟨segments, partialSegment⟩ := splitLines rest
  refine (congrArg Prod.fst (if_neg hcode)).trans ?_
  cases segments with
  | nil => rfl
  | cons segment more => rfl

theorem length_splitLines (value : Text) : (splitLines value).1.length = value.count NEWLINE := by
  induction value with
  | nil => rfl
  | cons code rest ih =>
    by_cases hcode : code = NEWLINE
    · rw [splitLines_newline rest hcode, length_cons, ih, hcode, count_cons_self]
    · rw [splitLines_other rest hcode, length_modify, ih, count_cons_of_ne hcode]

theorem splitLines_afterNewline (value : Text) :
    (splitLines ((value.dropWhile (· != NEWLINE)).drop 1)).1 = (splitLines value).1.drop 1 := by
  induction value with
  | nil => rfl
  | cons code rest ih =>
    by_cases hcode : code = NEWLINE
    · rw [dropWhile_cons_of_neg (by simp [hcode]), splitLines_newline rest hcode]
      rfl
    · rw [dropWhile_cons_of_pos (by simpa using hcode), ih, splitLines_other rest hcode]
      cases (splitLines rest).1 with
      | nil => rfl
      | cons segment more => rfl

theorem splitLines_afterNewlines (count : ℕ) (value : Text) :
    (splitLines (afterNewlines count value)).1 = (splitLines value).1.drop count := by
  induction count generalizing value with
  | zero => rfl
  | succ count ih =>
    rw [afterNewlines, ih, splitLines_afterNewline, drop_drop, Nat.add_comm]

theorem processFromEnd_prefix (segments : List Text) (totalChars : ℕ) :
    processFromEnd segments totalChars <+: segments.map shownText ∧
      ∀ longer, longer <+: segments.map shownText →
        (processFromEnd segments totalChars).length < longer.length →
          MAX_TAIL_CHARS < totalChars + charsOf longer := by
  induction segments generalizing totalChars with
  | nil => exact ⟨prefix_rfl, fun longer hlonger hlength =>
      absurd hlonger.length_le (not_le.mpr hlength)⟩
  | cons segment earlier ih =>
    obtain ⟨hfront, hforced⟩ := ih (totalChars + (shownText segment).length)
    have hfirst : ∀ longer : List Text, longer <+: (segment :: earlier).map shownText →
        longer ≠ [] → ∃ rest, longer = shownText segment :: rest ∧
          rest <+: earlier.map shownText := by
      intro longer hlonger hsome
      rcases prefix_cons_iff.mp hlonger with hnone | hrest
      · exact absurd hnone hsome
      · exact hrest
    rw [processFromEnd, ← shownText]
    split_ifs with hover
    · refine ⟨⟨_, rfl⟩, fun longer hlonger hlength => ?_⟩
      obtain ⟨rest, rfl, -⟩ := hfirst longer hlonger (ne_nil_of_length_pos (by omega))
      rw [charsOf_cons]
      omega
    · refine ⟨(prefix_cons_inj _).mpr hfront, fun longer hlonger hlength => ?_⟩
      obtain ⟨rest, rfl, hrest⟩ := hfirst longer hlonger (ne_nil_of_length_pos (by omega))
      rw [length_cons, length_cons] at hlength
      rw [charsOf_cons, ← Nat.add_assoc]
      exact hforced rest hrest (by omega)

theorem charsOf_reverse (lines : List Text) : charsOf lines.reverse = charsOf lines := by
  rw [charsOf, map_reverse, sum_reverse, charsOf]

/-- The plain append keeps an end of the lines the chunk completes, and leaves a line out only
where a cap is exceeded with it; blanks at the ends of lines still count there. -/
theorem plainLines_suffix (value : Text) :
    let segments := splitRetainedTerminalTailSegments value
    let pieces := processTerminalTailCompleteSegments segments.completeSegments
    pieces.map trimTerminalLineRight <:+ (splitLines value).1.map shownLine ∧
      segments.completeLineCount = ((splitLines value).1.map shownLine).length ∧
        LeavesOutForCaps ((splitLines value).1.map shownText) pieces.length := by
  unfold splitRetainedTerminalTailSegments
  dsimp only
  rw [splitLines_afterNewlines, length_map, length_splitLines]
  have hcount := length_splitLines value
  have hlines : (splitLines value).1.length -
      (value.count NEWLINE - min (value.count NEWLINE) MAX_TAIL_LINES) ≥
        min (splitLines value).1.length MAX_TAIL_LINES := by
    omega
  generalize value.count NEWLINE - min (value.count NEWLINE) MAX_TAIL_LINES = omitted at *
  obtain ⟨hfront, hforced⟩ := processFromEnd_prefix ((splitLines value).1.drop omitted).reverse 0
  rw [map_reverse] at hfront hforced
  have hsuffix : processTerminalTailCompleteSegments ((splitLines value).1.drop omitted) <:+
      ((splitLines value).1.drop omitted).map shownText := by
    rw [processTerminalTailCompleteSegments, ← reverse_prefix, reverse_reverse]
    exact hfront
  refine ⟨?_, rfl, fun longer hlonger hlength => ?_⟩
  · have hmapped := hsuffix.map trimTerminalLineRight
    rw [map_map] at hmapped
    refine hmapped.trans ?_
    rw [map_drop]
    exact drop_suffix _ _
  · by_cases hover : MAX_TAIL_LINES < longer.length
    · exact Or.inl hover
    · have hle := hlonger.length_le
      rw [length_map] at hle
      have hend : longer <:+ ((splitLines value).1.drop omitted).map shownText := by
        rw [map_drop]
        refine suffix_of_suffix_length_le hlonger (drop_suffix _ _) ?_
        rw [length_drop, length_map]
        omega
      have hchars := hforced longer.reverse ( reverse_prefix.mpr hend) (by
        rw [length_reverse]
        rwa [processTerminalTailCompleteSegments, length_reverse] at hlength)
      rw [Nat.zero_add, charsOf_reverse] at hchars
      exact Or.inr hchars

end PlainLines

section RedrawnLines

variable {redraw : RetainedTailRedraw} {completed : List Text}

def RetainedTailRedraw.completes (redraw : RetainedTailRedraw) : RedrawControl → List Text
  | .newline => [(retainedRowSnapshot redraw.ensureCursorRow.completedRow).2]
  | _ => []

def completedByRedraw : RetainedTailRedraw → List RedrawControl → List Text
  | _, [] => []
  | redraw, control :: rest =>
    redraw.completes control ++ completedByRedraw (redraw.apply control) rest

/-- The redraw counts the completed lines and holds the longest end of them within the caps. -/
structure KeepsCompleted (redraw : RetainedTailRedraw) (completed : List Text) : Prop where
  count : redraw.newCompleteLines = completed.length
  recent : redraw.newlyCompletedLines.drop redraw.newlyCompletedLineStart <:+ completed
  all : LeavesOutForCaps completed
    (redraw.newlyCompletedLines.drop redraw.newlyCompletedLineStart).length
  start_le : redraw.newlyCompletedLineStart ≤ redraw.newlyCompletedLines.length
  characters : redraw.newlyCompletedLineCharacters =
    charsOf (redraw.newlyCompletedLines.drop redraw.newlyCompletedLineStart)

/-- Eviction moves the start on, to the end of the lines at most and only past lines that
exceed a cap, and counts what is left. -/
theorem evictCompleted_ok (lines : List Text) (fuel start : ℕ) (hstart : start ≤ lines.length) :
    let evicted := evictCompleted lines fuel start (charsOf (lines.drop start))
    start ≤ evicted.1 ∧ evicted.1 ≤ lines.length ∧ evicted.2 = charsOf (lines.drop evicted.1) ∧
      LeavesOutForCaps (lines.drop start) (lines.drop evicted.1).length := by
  induction fuel generalizing start with
  | zero => exact ⟨Nat.le_refl _, hstart, rfl, leavesOutForCaps_length _⟩
  | succ fuel ih =>
    dsimp only at ih ⊢
    rw [evictCompleted]
    split_ifs with hover
    · have hless : start < lines.length := by
        by_contra hend
        rw [drop_eq_nil_of_le (Nat.le_of_not_lt hend), charsOf_nil] at hover
        omega
      have hrest : charsOf (lines.drop start) - ((lines[start]?).getD []).length =
          charsOf (lines.drop (start + 1)) := by
        rw [drop_eq_getElem_cons hless, charsOf_cons, getElem?_eq_getElem hless,
          Option.getD_some, Nat.add_sub_cancel_left]
      rw [hrest]
      obtain ⟨hlater, hwithin, hcharacters, hall⟩ := ih (start + 1) hless
      refine ⟨(Nat.le_succ start).trans hlater, hwithin, hcharacters,
        fun longer hlonger hlength => ?_⟩
      rw [drop_eq_getElem_cons hless] at hlonger
      rcases suffix_cons_iff.mp hlonger with rfl | hrestLonger
      · rw [← drop_eq_getElem_cons hless, Overflows, length_drop]
        exact hover
      · exact hall longer hrestLonger hlength
    · exact ⟨Nat.le_refl _, hstart, rfl, leavesOutForCaps_length _⟩

theorem KeepsCompleted.retain {line : Text}
    (hkeeps : KeepsCompleted { redraw with newCompleteLines := completed.length } completed)
    (hcount : redraw.newCompleteLines = completed.length + 1) :
    KeepsCompleted (redraw.retainNewlyCompletedLine line) (completed ++ [line]) := by
  obtain ⟨-, hrecent, hall, hstart, hcharacters⟩ := hkeeps
  have hnew : (redraw.newlyCompletedLines ++ [line]).drop redraw.newlyCompletedLineStart =
      redraw.newlyCompletedLines.drop redraw.newlyCompletedLineStart ++ [line] :=
    drop_append_of_le_length hstart
  have hevict := evictCompleted_ok (redraw.newlyCompletedLines ++ [line])
    (redraw.newlyCompletedLines ++ [line]).length redraw.newlyCompletedLineStart (by
      rw [length_append]
      exact Nat.le_add_right_of_le hstart)
  rw [hnew, charsOf_append, charsOf_cons, charsOf_nil, Nat.add_zero] at hevict
  unfold RetainedTailRedraw.retainNewlyCompletedLine
  dsimp only at hcharacters hevict ⊢
  rw [hcharacters]
  obtain ⟨hlater, hwithin, hleft, hforced⟩ := hevict
  generalize evictCompleted (redraw.newlyCompletedLines ++ [line])
    (redraw.newlyCompletedLines ++ [line]).length redraw.newlyCompletedLineStart
    (charsOf (redraw.newlyCompletedLines.drop redraw.newlyCompletedLineStart) + line.length) =
      evicted at *
  have hsuffix : (redraw.newlyCompletedLines ++ [line]).drop evicted.1 <:+ completed ++ [line] := by
    have hfirst : (redraw.newlyCompletedLines ++ [line]).drop redraw.newlyCompletedLineStart <:+
        completed ++ [line] := by
      obtain ⟨older, holder⟩ := hrecent
      exact ⟨older, by rw [hnew, ← append_assoc, holder]⟩
    refine List.IsSuffix.trans ?_ hfirst
    rw [← Nat.add_sub_of_le hlater, ← drop_drop]
    exact drop_suffix _ _
  have hkept : LeavesOutForCaps (completed ++ [line])
      ((redraw.newlyCompletedLines ++ [line]).drop evicted.1).length := by
    exact hall.append hrecent hforced
  have hcounted : redraw.newCompleteLines = (completed ++ [line]).length := by
    rw [length_append]
    exact hcount
  split_ifs
  · exact ⟨hcounted, hsuffix, hkept, Nat.zero_le _, hleft⟩
  · exact ⟨hcounted, hsuffix, hkept, hwithin, hleft⟩

/-- A step that completes no line leaves what was completed alone. -/
structure SameCompleted (before after : RetainedTailRedraw) : Prop where
  count : after.newCompleteLines = before.newCompleteLines
  lines : after.newlyCompletedLines = before.newlyCompletedLines
  characters : after.newlyCompletedLineCharacters = before.newlyCompletedLineCharacters
  start : after.newlyCompletedLineStart = before.newlyCompletedLineStart

theorem KeepsCompleted.same {after : RetainedTailRedraw} (hkeeps : KeepsCompleted redraw completed)
    (hsame : SameCompleted redraw after) : KeepsCompleted after completed := by
  refine ⟨hsame.count.trans hkeeps.count, ?_, ?_, ?_, ?_⟩
  · rw [hsame.lines, hsame.start]
    exact hkeeps.recent
  · rw [hsame.lines, hsame.start]
    exact hkeeps.all
  · rw [hsame.lines, hsame.start]
    exact hkeeps.start_le
  · rw [hsame.lines, hsame.start, hsame.characters]
    exact hkeeps.characters

theorem trimRows_same (redraw : RetainedTailRedraw) : SameCompleted redraw redraw.trimRows := by
  unfold RetainedTailRedraw.trimRows
  dsimp only
  split_ifs
  · exact ⟨rfl, rfl, rfl, rfl⟩
  · exact ⟨rfl, rfl, rfl, rfl⟩
  · exact ⟨rfl, rfl, rfl, rfl⟩

theorem applySequence_same (redraw : RetainedTailRedraw) (parsed : AnsiControlSequence) :
    SameCompleted redraw (redraw.applySequence parsed) := by
  cases parsed with
  | other => exact ⟨rfl, rfl, rfl, rfl⟩
  | csi final params firstParam =>
    dsimp only [RetainedTailRedraw.applySequence]
    split_ifs
    all_goals exact ⟨rfl, rfl, rfl, rfl⟩

section

variable (hkeeps : KeepsCompleted redraw completed)
include hkeeps

theorem KeepsCompleted.completeRow : KeepsCompleted redraw.completeRow
      (completed ++ [(retainedRowSnapshot redraw.ensureCursorRow.completedRow).2]) := by
  unfold RetainedTailRedraw.completeRow RetainedTailRedraw.completeRowUncapped
  dsimp only
  generalize retainedRowSnapshot redraw.ensureCursorRow.completedRow = finished
  obtain ⟨row, line⟩ := finished
  have hretained := @KeepsCompleted.retain
    { redraw.ensureCursorRow with
      rows := redraw.ensureCursorRow.rows.set redraw.ensureCursorRow.cursorRow row
      newCompleteLines := redraw.ensureCursorRow.newCompleteLines + 1 } completed line
    ⟨rfl, hkeeps.recent, hkeeps.all, hkeeps.start_le, hkeeps.characters⟩
      (congrArg (· + 1) hkeeps.count)
  refine KeepsCompleted.same ?_ (trimRows_same _)
  exact hretained.same ⟨rfl, rfl, rfl, rfl⟩

theorem KeepsCompleted.apply (control : RedrawControl) :
    KeepsCompleted (redraw.apply control) (completed ++ redraw.completes control) := by
  have hsilent : ∀ control, redraw.completes control = [] →
      completed ++ redraw.completes control = completed := by
    intro control hnone
    rw [hnone, append_nil]
  cases control with
  | newline => exact hkeeps.completeRow
  | carriageReturn =>
    rw [hsilent _ rfl]
    exact hkeeps.same ⟨rfl, rfl, rfl, rfl⟩
  | backspace =>
    rw [hsilent _ rfl]
    exact hkeeps.same ⟨rfl, rfl, rfl, rfl⟩
  | sequence parsed =>
    rw [hsilent _ rfl]
    exact hkeeps.same (applySequence_same redraw parsed)
  | text run =>
    rw [hsilent _ rfl]
    exact hkeeps.same ⟨rfl, rfl, rfl, rfl⟩

theorem KeepsCompleted.run (controls : List RedrawControl) :
    KeepsCompleted (redraw.run controls) (completed ++ completedByRedraw redraw controls) := by
  induction controls generalizing redraw completed with
  | nil =>
    rw [completedByRedraw, append_nil]
    exact hkeeps
  | cons control rest ih =>
    rw [completedByRedraw, ← append_assoc]
    exact ih (hkeeps.apply control)

end

def redrawnLines (previousLines : List Text) (boundedPreviousPartialLine normalizedChunk : Text)
    (previousPartialWasCapped : Bool)
    (previousRedrawCursor : Option RetainedTailRedrawCursor) : List Text :=
  completedByRedraw (startRedraw previousLines boundedPreviousPartialLine previousPartialWasCapped
    previousRedrawCursor) (redrawControls normalizedChunk)

theorem unwindowed_completes (previousLines : List Text)
    (boundedPreviousPartialLine normalizedChunk : Text) (previousPartialWasCapped : Bool)
    (previousRedrawCursor : Option RetainedTailRedrawCursor) :
    let append := appendNormalizedToMultilineTailBufferUnwindowed previousLines
      boundedPreviousPartialLine normalizedChunk previousPartialWasCapped previousRedrawCursor
    let completed := redrawnLines previousLines boundedPreviousPartialLine normalizedChunk
      previousPartialWasCapped previousRedrawCursor
    append.newlyCompletedLines <:+ completed ∧ append.newCompleteLines = completed.length ∧
      LeavesOutForCaps completed append.newlyCompletedLines.length := by
  have hstart : KeepsCompleted (startRedraw previousLines boundedPreviousPartialLine
      previousPartialWasCapped previousRedrawCursor) [] :=
    ⟨rfl, suffix_rfl, leavesOutForCaps_length _, Nat.le_refl _, rfl⟩
  have hrun := hstart.run (redrawControls normalizedChunk)
  rw [nil_append] at hrun
  exact ⟨hrun.recent, hrun.count, hrun.all⟩

end RedrawnLines

section Appends

def windowRows (rowCount : ℕ) (normalizedChunk : Text)
    (previousRedrawCursor : Option RetainedTailRedrawCursor) : ℕ :=
  maxUpwardCursorReach normalizedChunk previousRedrawCursor
    (rowCount - REDRAW_WINDOW_SAFETY_ROWS) + REDRAW_WINDOW_SAFETY_ROWS

/-- The lines a chunk completes, each one that nothing redraws as `line` gives it. -/
def linesOfChunk (line : Text → Text) (previousLines : RetainedTail)
    (previousPartialLine normalizedChunk : Text)
    (previousRedrawCursor : Option RetainedTailRedrawCursor) : List Text :=
  if normalizedChunk = [] then []
  else
    let boundedPreviousPartialLine := previousPartialLine.rtake MAX_TAIL_PARTIAL_CHARS
    let combinedChunk := boundedPreviousPartialLine ++ normalizedChunk
    if previousRedrawCursor.isSome || containsTerminalVerticalLineControl combinedChunk then
      redrawnLines (previousLines.rows.rtake
          (windowRows previousLines.rows.length normalizedChunk previousRedrawCursor))
        boundedPreviousPartialLine normalizedChunk
        (decide (MAX_TAIL_PARTIAL_CHARS < previousPartialLine.length)) previousRedrawCursor
    else (splitLines combinedChunk).1.map line

def completedLines : RetainedTail → Text → Text → Option RetainedTailRedrawCursor → List Text :=
  linesOfChunk shownLine

/-- The lines a chunk completes before blanks at their ends are cut off. -/
def untrimmedLines : RetainedTail → Text → Text → Option RetainedTailRedrawCursor → List Text :=
  linesOfChunk shownText

theorem multiline_completes (previousLines : RetainedTail)
    (boundedPreviousPartialLine normalizedChunk : Text) (previousPartialWasCapped : Bool)
    (previousRedrawCursor : Option RetainedTailRedrawCursor) :
    let append := appendNormalizedToMultilineTailBuffer previousLines
      boundedPreviousPartialLine normalizedChunk previousPartialWasCapped previousRedrawCursor
    let completed := redrawnLines (previousLines.rows.rtake
        (windowRows previousLines.rows.length normalizedChunk previousRedrawCursor))
      boundedPreviousPartialLine normalizedChunk previousPartialWasCapped previousRedrawCursor
    append.newlyCompletedLines <:+ completed ∧ append.newCompleteLines = completed.length ∧
      LeavesOutForCaps completed append.newlyCompletedLines.length := by
  unfold appendNormalizedToMultilineTailBuffer windowRows
  dsimp only
  generalize maxUpwardCursorReach normalizedChunk previousRedrawCursor
    (previousLines.rows.length - REDRAW_WINDOW_SAFETY_ROWS) + REDRAW_WINDOW_SAFETY_ROWS = window
  split_ifs with hwhole
  · rw [List.rtake, Nat.sub_eq_zero_of_le hwhole, drop_zero]
    exact unwindowed_completes _ _ _ _ _
  · exact unwindowed_completes _ _ _ _ _
  · exact unwindowed_completes _ _ _ _ _

/-- What an append returns as newly completed is an end of what the chunk completes, as long as
the caps allow. -/
theorem append_completes (previousLines : RetainedTail) (previousPartialLine normalizedChunk : Text)
    (previousRedrawCursor : Option RetainedTailRedrawCursor) :
    let append := appendNormalizedToTailBuffer previousLines previousPartialLine normalizedChunk
      previousRedrawCursor
    let completed := completedLines previousLines previousPartialLine normalizedChunk
      previousRedrawCursor
    append.newlyCompletedLines <:+ completed ∧ append.newCompleteLines = completed.length ∧
      LeavesOutForCaps (untrimmedLines previousLines previousPartialLine normalizedChunk
        previousRedrawCursor) append.newlyCompletedLines.length := by
  unfold appendNormalizedToTailBuffer completedLines untrimmedLines linesOfChunk
  dsimp only
  by_cases hempty : normalizedChunk = []
  · rw [if_pos hempty, if_pos hempty, if_pos hempty]
    exact ⟨suffix_rfl, rfl, leavesOutForCaps_length _⟩
  rw [if_neg hempty, if_neg hempty, if_neg hempty]
  cases previousRedrawCursor.isSome || containsTerminalVerticalLineControl
      (previousPartialLine.rtake MAX_TAIL_PARTIAL_CHARS ++ normalizedChunk) with
  | true => exact multiline_completes _ _ _ _ _
  | false =>
    obtain ⟨hsuffix, hcount, hforced⟩ := plainLines_suffix
      (previousPartialLine.rtake MAX_TAIL_PARTIAL_CHARS ++ normalizedChunk)
    refine ⟨hsuffix, hcount, ?_⟩
    change LeavesOutForCaps _ (map trimTerminalLineRight _).length
    rw [length_map]
    exact hforced

end Appends

end Wakii.Terminal
