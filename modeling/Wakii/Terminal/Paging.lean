import Mathlib.Data.List.Chain
import Wakii.Terminal.CompletedLines

/-!
# Paging a terminal by cursor

A client reads page after page and passes each time the cursor that the last
read returned, while output goes on.  Its pages follow one another through the
completed lines, and skip lines only where a page says that it is truncated.
-/

namespace Wakii.Terminal

open List

section Model

structure Page where
  start : ℕ
  lines : List Text
  truncated : Bool

/-- A terminal and one client that reads it.  The history holds every line completed so far;
`since` holds those that came after the last chunk that left lines out, and what it kept. -/
structure PagedTerminal where
  pty : PtyTail
  history : List Text
  since : List Text
  cursor : ℕ
  pages : List Page

inductive PagingAction
  | output (normalizedChunk : Text)
  /-- The client starts over from the latest lines. -/
  | preview (limit : ReadLimit)
  | page (limit : ReadLimit)

/-- The lines that the append returns for a chunk. -/
def PtyTail.newlyCompleted (pty : PtyTail) (normalizedChunk : Text) : List Text :=
  (appendNormalizedToTailBuffer pty.tailBuffer pty.tailPartialLine normalizedChunk
    pty.tailRedrawCursor).newlyCompletedLines

namespace PagedTerminal

variable (terminal : PagedTerminal)

def step : PagingAction → PagedTerminal
  | .output normalizedChunk =>
    let completed := completedLines terminal.pty.tailBuffer terminal.pty.tailPartialLine
      normalizedChunk terminal.pty.tailRedrawCursor
    { terminal with
      pty := terminal.pty.onPtyData normalizedChunk
      history := terminal.history ++ completed
      since := keptSince terminal.since (terminal.pty.newlyCompleted normalizedChunk)
        completed.length }
  | .preview limit =>
    { terminal with cursor := (terminal.pty.read none limit).nextCursor, pages := [] }
  | .page limit =>
    let read := terminal.pty.read (some terminal.cursor) limit
    { terminal with
      cursor := read.nextCursor
      pages := terminal.pages ++
        [⟨read.nextCursor - read.returnedLineCount, read.tail, read.truncated⟩] }

def run (actions : List PagingAction) : PagedTerminal := actions.foldl step terminal

end PagedTerminal

def openTerminal : PagedTerminal := ⟨emptyPtyTail, [], [], 0, []⟩

end Model

section Statements

/-- The page holds the completed lines from the cursor on, or from the oldest retained line where
it says so, and is empty only when no line after that is retained. -/
structure ReadOk (history retained : List Text) (cursor : ℕ) (read : RuntimeTerminalRead) :
    Prop where
  oldest : read.oldestCursor + retained.length = history.length
  truncated : read.truncated = true ↔ cursor < read.oldestCursor
  lines : read.tail <+: history.drop (if read.truncated then read.oldestCursor else cursor)
  nextCursor : read.nextCursor =
    (if read.truncated then read.oldestCursor else cursor) + read.tail.length
  nonempty : read.tail = [] →
    (if read.truncated then read.oldestCursor else cursor) = history.length

/-- The second page starts where the first ends, or says that lines between them are gone. -/
def Follows (first second : Page) : Prop :=
  second.start = first.start + first.lines.length ∨
    (second.truncated = true ∧ first.start + first.lines.length < second.start)

/-- What is promised of a terminal and its client at any moment. -/
structure PagingSafe (terminal : PagedTerminal) : Prop where
  since : terminal.since <:+ terminal.history
  /-- The longest end of what came since a chunk left lines out that the caps allow. -/
  transcript : TranscriptOk terminal.since terminal.pty.tailTranscriptBuffer
    terminal.pty.tailTranscriptChars
  /-- A chunk leaves out a line it completes only where it exceeds a cap with those behind it. -/
  leavesOut : ∀ normalizedChunk, LeavesOutForCaps
    (untrimmedLines terminal.pty.tailBuffer terminal.pty.tailPartialLine normalizedChunk
      terminal.pty.tailRedrawCursor) (terminal.pty.newlyCompleted normalizedChunk).length
  total : terminal.pty.tailLinesTotal = terminal.history.length
  cursor_le : terminal.cursor ≤ terminal.history.length
  reads : ∀ cursor ≤ terminal.history.length, ∀ limit,
    ReadOk terminal.history terminal.pty.tailTranscriptBuffer cursor
      (terminal.pty.read (some cursor) limit)
  pages : ∀ page ∈ terminal.pages, page.lines <+: terminal.history.drop page.start
  follow : terminal.pages.IsChain Follows
  last : ∀ page ∈ terminal.pages.getLast?, page.start + page.lines.length = terminal.cursor

end Statements

section Reads

variable {terminal : PagedTerminal}

theorem terminalReadLimit_pos (limit : ReadLimit) :
    0 < terminalReadLimit limit MAX_TERMINAL_READ_LIMIT := by
  have hmax : 0 < MAX_TERMINAL_READ_LIMIT := by
    rw [MAX_TERMINAL_READ_LIMIT]
    decide
  unfold terminalReadLimit
  cases limit with
  | undefined => exact hmax
  | notFinite => exact hmax
  | finite value =>
    dsimp only
    split_ifs
    · exact hmax
    · exact lt_min (lt_max_of_lt_left Nat.zero_lt_one) hmax

theorem read_ok {history : List Text} {pty : PtyTail}
    (hrecent : pty.tailTranscriptBuffer <:+ history) (htotal : pty.tailLinesTotal = history.length)
    {cursor : ℕ} (hcursor : cursor ≤ history.length) (limit : ReadLimit) :
    ReadOk history pty.tailTranscriptBuffer cursor (pty.read (some cursor) limit) := by
  obtain ⟨older, holder⟩ := hrecent
  have hlength : history.length = older.length + pty.tailTranscriptBuffer.length := by
    rw [← holder, length_append]
  have hoffset : pty.tailLinesTotal - pty.tailTranscriptBuffer.length = older.length := by
    omega
  unfold PtyTail.read readTerminalTail TerminalReadArgs.readPage TerminalReadArgs.oldestCursor
  dsimp only
  rw [if_neg (Nat.not_lt.mpr (htotal ▸ hcursor)), hoffset]
  generalize hlimit : terminalReadLimit limit MAX_TERMINAL_READ_LIMIT = bound
  have hbound : 0 < bound := hlimit ▸ terminalReadLimit_pos limit
  have hstart : (if decide (cursor < older.length) = true then older.length else cursor) =
      max cursor older.length := by
    split_ifs with hless
    · exact (max_eq_right (of_decide_eq_true hless).le).symm
    · exact (max_eq_left (Nat.le_of_not_lt fun h => hless (decide_eq_true h))).symm
  have havailable : pty.tailTranscriptBuffer.drop (max cursor older.length - older.length) =
      history.drop (max cursor older.length) := by
    rw [← holder, drop_append, drop_eq_nil_of_le (le_max_right _ _), nil_append]
  refine ⟨hlength.symm, decide_eq_true_iff, ?_, ?_, fun hnone => ?_⟩
  · rw [hstart, havailable]
    exact take_prefix _ _
  · rw [hstart]
  · rw [hstart]
    dsimp only at hnone
    rw [havailable, take_eq_nil_iff] at hnone
    have hempty := hnone.resolve_left hbound.ne'
    rw [drop_eq_nil_iff] at hempty
    exact Nat.le_antisymm (max_le hcursor (by omega)) hempty

theorem leavesOut_ok (pty : PtyTail) (normalizedChunk : Text) :
    LeavesOutForCaps (untrimmedLines pty.tailBuffer pty.tailPartialLine normalizedChunk
      pty.tailRedrawCursor) (pty.newlyCompleted normalizedChunk).length :=
  (append_completes pty.tailBuffer pty.tailPartialLine normalizedChunk pty.tailRedrawCursor).2.2

theorem PagingSafe.output (hsafe : PagingSafe terminal) (normalizedChunk : Text) :
    PagingSafe (terminal.step (.output normalizedChunk)) := by
  obtain ⟨hkept, hcount, _⟩ := append_completes terminal.pty.tailBuffer
    terminal.pty.tailPartialLine normalizedChunk terminal.pty.tailRedrawCursor
  have hsince := keptSince_suffix hsafe.since hkept
  have htranscript := transcript_ok hsafe.transcript hkept
  rw [← hcount] at htranscript hsince
  have htotal : (terminal.pty.onPtyData normalizedChunk).tailLinesTotal =
      (terminal.step (.output normalizedChunk)).history.length := by
    refine Eq.trans ?_ length_append.symm
    exact congrArg₂ (· + ·) hsafe.total hcount
  have hstep : (terminal.step (.output normalizedChunk)).since <:+
      (terminal.step (.output normalizedChunk)).history := by
    unfold PagedTerminal.step PtyTail.newlyCompleted
    dsimp only
    rwa [← hcount]
  refine ⟨hstep, ?_, leavesOut_ok _, htotal, ?_, fun cursor hcursor limit =>
    read_ok (htranscript.recent.trans hsince) htotal hcursor limit, fun page hpage => ?_,
    hsafe.follow, hsafe.last⟩
  · unfold PagedTerminal.step PtyTail.newlyCompleted
    dsimp only
    rw [← hcount]
    exact htranscript
  · refine hsafe.cursor_le.trans ?_
    exact (Nat.le_add_right _ _).trans length_append.symm.le
  · obtain ⟨later, hlater⟩ := hsafe.pages page hpage
    change page.lines <+: (terminal.history ++ _).drop page.start
    rw [drop_append, ← hlater, append_assoc]
    exact prefix_append _ _

theorem PagingSafe.preview (hsafe : PagingSafe terminal) (limit : ReadLimit) :
    PagingSafe (terminal.step (.preview limit)) :=
  ⟨hsafe.since, hsafe.transcript, hsafe.leavesOut, hsafe.total, hsafe.total.le, hsafe.reads,
    fun _ h => (by cases h), isChain_nil, fun _ h => (by cases h)⟩

/-- A page is taken from what the terminal holds. -/
theorem PagingSafe.page (hsafe : PagingSafe terminal) (limit : ReadLimit) :
    PagingSafe (terminal.step (.page limit)) := by
  have hread := hsafe.reads terminal.cursor hsafe.cursor_le limit
  have hcount : (terminal.pty.read (some terminal.cursor) limit).returnedLineCount =
      (terminal.pty.read (some terminal.cursor) limit).tail.length := by
    unfold PtyTail.read readTerminalTail TerminalReadArgs.readPage
    dsimp only
    split_ifs
    · rfl
    · rfl
  unfold PagedTerminal.step
  dsimp only
  rw [hcount]
  generalize terminal.pty.read (some terminal.cursor) limit = read at *
  have hstart : read.nextCursor - read.tail.length =
      if read.truncated then read.oldestCursor else terminal.cursor := by
    rw [hread.nextCursor, Nat.add_sub_cancel]
  rw [hstart]
  refine ⟨hsafe.since, hsafe.transcript, hsafe.leavesOut, hsafe.total, ?_, hsafe.reads,
    fun page hpage => ?_, ?_, ?_⟩
  · have hlength := hread.lines.length_le
    rw [length_drop] at hlength
    have hnext := hread.nextCursor
    have hbound : (if read.truncated then read.oldestCursor else terminal.cursor) ≤
        terminal.history.length := by
      split_ifs
      · have holdest := hread.oldest
        omega
      · exact hsafe.cursor_le
    change read.nextCursor ≤ terminal.history.length
    omega
  · cases mem_append.mp hpage with
    | inl hold => exact hsafe.pages page hold
    | inr hnew =>
      rw [mem_singleton.mp hnew]
      exact hread.lines
  · refine isChain_append.mpr ⟨hsafe.follow, isChain_singleton _, ?_⟩
    intro page hpage next hnext
    cases Option.some.inj hnext
    rw [Follows, hsafe.last page hpage]
    cases htruncated : read.truncated with
    | false => exact .inl rfl
    | true => exact .inr ⟨rfl, hread.truncated.mp htruncated⟩
  · intro page hpage
    rw [getLast?_append, getLast?_singleton] at hpage
    cases Option.some.inj hpage
    exact hread.nextCursor.symm

end Reads

section Runs

theorem PagingSafe.initial : PagingSafe openTerminal := by
  have htranscript : TranscriptOk [] [] 0 :=
    ⟨suffix_rfl, leavesOutForCaps_length _, rfl, Nat.zero_le _, Nat.zero_le _⟩
  exact ⟨suffix_rfl, htranscript, leavesOut_ok _, rfl, Nat.le_refl _, fun _ hcursor limit =>
    @read_ok [] emptyPtyTail suffix_rfl rfl _ hcursor limit, fun _ h => (by cases h),
    isChain_nil, fun _ h => (by cases h)⟩

theorem PagingSafe.step {terminal : PagedTerminal} (hsafe : PagingSafe terminal)
    (action : PagingAction) : PagingSafe (terminal.step action) := by
  cases action with
  | output normalizedChunk => exact hsafe.output normalizedChunk
  | preview limit => exact hsafe.preview limit
  | page limit => exact hsafe.page limit

theorem PagingSafe.run {terminal : PagedTerminal} (hsafe : PagingSafe terminal)
    (actions : List PagingAction) : PagingSafe (terminal.run actions) := by
  induction actions generalizing terminal with
  | nil => exact hsafe
  | cons action actions ih => exact ih (hsafe.step action)

/-- However output and reads come, pages miss and repeat no completed line that is retained. -/
theorem paging_misses_nothing (actions : List PagingAction) :
    PagingSafe (openTerminal.run actions) := PagingSafe.initial.run actions

end Runs

end Wakii.Terminal
