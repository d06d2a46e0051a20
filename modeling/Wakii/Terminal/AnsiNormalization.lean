import Mathlib.Data.List.DropRight
import Wakii.Library.FrameStream
import Wakii.Terminal.AnsiSequence

/-!
# Normalization of terminal chunks

A chunk is read token by token behind the text that is still pending: a unit, a line
ending or an escape sequence.  Of the sequences only those that redraw a line are kept.
What the input ends in the middle of stays pending.
-/

namespace Wakii.Terminal.AnsiNormalization

open Option List

open FrameStream (Cut Format Outcome)

def MAX_TAIL_PENDING_ANSI_CHARS : ℕ := 4096

/-- CSI finals that affect retained preview rows. -/
def isTerminalPreviewLineControlFinal (code : CodeUnit) : Bool :=
  code.val == 0x4b || code.val == 0x41 || code.val == 0x47 || code.val == 0x60 ||
    code.val == 0x44 || code.val == 0x43

def isTerminalPreviewLineControl (final : CodeUnit) (params : Text) (firstParam : Option ℕ) :
    Bool :=
  if !isTerminalPreviewLineControlFinal final || !hasCanonicalNumericCsiParams params then false
  else if final.val = 0x4b then firstParam.getD 0 ≤ 2
  else true

/-- Whether a sequence, given without its escape, is kept. -/
def isKeptSequence (sequence : Text) : Bool :=
  let params := (sequence.drop 1).dropLast
  classifyTerminalEscapeIntroducer sequence.head? = .csi &&
    isTerminalPreviewLineControl (sequence.getLastD 0) params (leadingNumber params)

def isTerminalPreviewPrintableCodeUnit (code : CodeUnit) : Bool :=
  0x20 ≤ code.val && code.val != 0x7f && (code.val < 0x80 || 0x9f < code.val)

/-- What one round of the loop reads, and what of it goes into the text. -/
structure Token where
  source : Text
  kept : Text
  deriving DecidableEq

/-- One round of the loop; `more` where the chunk ends before it is decided. -/
def nextToken : Text → Cut CodeUnit Token Empty
  | [] => .more
  | code :: rest =>
    if 0x20 ≤ code.val ∧ code.val < 0x7f then .frame ⟨[code], [code]⟩ rest
    else if code = ESCAPE then
      if rest = [] then .more
      else
        match findTerminalEscapeSequenceEnd rest with
        | none => .more
        | some offset =>
          let source := code :: rest.take offset
          .frame ⟨source, if isKeptSequence (rest.take offset) then source else []⟩
            (rest.drop offset)
    else if code = CARRIAGE_RETURN then
      if rest = [] then .more
      -- a CRLF keeps only its LF, which is the next token
      else if rest.head? = some NEWLINE then .frame ⟨[code], []⟩ rest
      else .frame ⟨[code], [code]⟩ rest
    else if code = BACKSPACE ∨ code = TAB ∨ code = NEWLINE then .frame ⟨[code], [code]⟩ rest
    else if isTerminalPreviewPrintableCodeUnit code then .frame ⟨[code], [code]⟩ rest
    else .frame ⟨[code], []⟩ rest

section Stability

variable {isOsc : Bool} {text : Text} {index : ℕ}

theorem findStringEnd_lt (hend : findStringEnd isOsc text = some index) : index < text.length := by
  induction text generalizing index with
  | nil => cases hend
  | cons code rest ih =>
    rw [findStringEnd] at hend
    split_ifs at hend with hbell hterminator
    · cases hend
      exact Nat.succ_pos _
    · cases hend
      obtain ⟨later, rfl⟩ := head?_eq_some_iff.mp hterminator.2
      simp
    · obtain ⟨place, hplace, rfl⟩ := map_eq_some_iff.mp hend
      exact Nat.succ_lt_succ (ih hplace)

theorem findStringEnd_append (hend : findStringEnd isOsc text = some index) (later : Text) :
    findStringEnd isOsc (text ++ later) = some index := by
  induction text generalizing index with
  | nil => cases hend
  | cons code rest ih =>
    rw [findStringEnd] at hend
    rw [cons_append, findStringEnd]
    split_ifs at hend with hbell hterminator
    · rw [if_pos hbell, hend]
    · obtain ⟨more, rfl⟩ := head?_eq_some_iff.mp hterminator.2
      rw [if_neg hbell, if_pos ⟨hterminator.1, rfl⟩, hend]
    · obtain ⟨place, hplace, rfl⟩ := map_eq_some_iff.mp hend
      have hrest : rest ≠ [] := by
        rintro rfl
        cases hplace
      have hhead : (rest ++ later).head? = rest.head? := head?_append_of_ne_nil rest hrest
      rw [if_neg hbell, hhead, if_neg hterminator, ih hplace]
      rfl

section

variable {rest : Text} {offset : ℕ} (hrest : rest ≠ [])
  (hend : findTerminalEscapeSequenceEnd rest = some offset)
include hrest hend

theorem findTerminalEscapeSequenceEnd_le : 0 < offset ∧ offset ≤ rest.length := by
  obtain ⟨first, behind, rfl⟩ := exists_cons_of_ne_nil hrest
  rw [findTerminalEscapeSequenceEnd] at hend
  split at hend
  · obtain ⟨place, hplace, rfl⟩ := map_eq_some_iff.mp hend
    have hlt := (findIdx?_eq_some_iff_findIdx_eq.mp hplace).1
    simp only [drop_succ_cons, drop_zero] at hlt
    exact ⟨Nat.succ_pos _, Nat.succ_le_succ hlt⟩
  · obtain ⟨place, hplace, rfl⟩ := map_eq_some_iff.mp hend
    exact ⟨Nat.succ_pos _, Nat.succ_le_succ (findStringEnd_lt hplace)⟩
  · obtain ⟨place, hplace, rfl⟩ := map_eq_some_iff.mp hend
    exact ⟨Nat.succ_pos _, Nat.succ_le_succ (findStringEnd_lt hplace)⟩
  all_goals
    cases hend
    exact ⟨Nat.one_pos, Nat.succ_le_succ (Nat.zero_le _)⟩

theorem findTerminalEscapeSequenceEnd_append (later : Text) :
    findTerminalEscapeSequenceEnd (rest ++ later) = some offset := by
  obtain ⟨first, behind, rfl⟩ := exists_cons_of_ne_nil hrest
  have hhead : (first :: behind ++ later).head? = (first :: behind).head? := rfl
  rw [findTerminalEscapeSequenceEnd] at hend ⊢
  rw [hhead]
  have hdrop : (first :: behind ++ later).drop 1 = (first :: behind).drop 1 ++ later := rfl
  split at hend
  · obtain ⟨place, hplace, rfl⟩ := map_eq_some_iff.mp hend
    rw [hdrop, findIdx?_append, hplace]
    rfl
  · obtain ⟨place, hplace, rfl⟩ := map_eq_some_iff.mp hend
    rw [hdrop, findStringEnd_append hplace]
    rfl
  · obtain ⟨place, hplace, rfl⟩ := map_eq_some_iff.mp hend
    rw [hdrop, findStringEnd_append hplace]
    rfl
  all_goals exact hend

end

end Stability

section Tokens

variable {input rest : Text} {token : Token}

theorem source_append (htoken : nextToken input = .frame token rest) :
    token.source ++ rest = input ∧ token.source ≠ [] := by
  cases input with
  | nil => cases htoken
  | cons code behind =>
    rw [nextToken] at htoken
    split_ifs at htoken with hplain hescape hnil
    · cases htoken
      exact ⟨rfl, cons_ne_nil _ _⟩
    · split at htoken
      · cases htoken
      · cases htoken
        exact ⟨congrArg (code :: ·) (take_append_drop _ behind), cons_ne_nil _ _⟩
    all_goals
      cases htoken
      exact ⟨rfl, cons_ne_nil _ _⟩

/-- A token that was read is read alike when the input goes on. -/
theorem nextToken_append (htoken : nextToken input = .frame token rest) (later : Text) :
    nextToken (input ++ later) = .frame token (rest ++ later) := by
  cases input with
  | nil => cases htoken
  | cons code behind =>
    rw [nextToken] at htoken
    rw [cons_append, nextToken]
    have hbehind (hsome : behind ≠ []) : behind ++ later ≠ [] :=
      append_ne_nil_of_left_ne_nil hsome later
    split_ifs at htoken with hplain hescape hnil hreturn hnil hnewline hcontrol hprintable
    · cases htoken
      rw [if_pos hplain]
    · rw [if_neg hplain, if_pos hescape, if_neg (hbehind hnil)]
      split at htoken
      · cases htoken
      · rename_i offset hend
        have hoffset := (findTerminalEscapeSequenceEnd_le hnil hend).2
        cases htoken
        rw [findTerminalEscapeSequenceEnd_append hnil hend later]
        dsimp only
        rw [take_append_of_le_length hoffset, drop_append_of_le_length hoffset]
    · cases htoken
      rw [if_neg hplain, if_neg hescape, if_pos hreturn, if_neg (hbehind hnil),
        head?_append_of_ne_nil _ hnil, if_pos hnewline]
    · cases htoken
      rw [if_neg hplain, if_neg hescape, if_pos hreturn, if_neg (hbehind hnil),
        head?_append_of_ne_nil _ hnil, if_neg hnewline]
    · cases htoken
      rw [if_neg hplain, if_neg hescape, if_neg hreturn, if_pos hcontrol]
    · cases htoken
      rw [if_neg hplain, if_neg hescape, if_neg hreturn, if_neg hcontrol, if_pos hprintable]
    · cases htoken
      rw [if_neg hplain, if_neg hescape, if_neg hreturn, if_neg hcontrol, if_neg hprintable]

end Tokens

def tokens : Format CodeUnit Token Empty where
  cut := nextToken
  rest_lt htoken := by
    obtain ⟨happend, hsource⟩ := source_append htoken
    rw [← happend, length_append]
    exact Nat.lt_add_of_pos_left (length_pos_iff.mpr hsource)
  frame_append := nextToken_append
  invalid_append {_ error} := error.elim

def terminalChunkNeedsNormalization (chunk : Text) : Bool :=
  chunk.any fun code => code == ESCAPE || code.val == 0x7f || code == CARRIAGE_RETURN ||
    code.val < 0x09 || (0x0a < code.val && code.val < 0x20) ||
    (0x80 ≤ code.val && code.val ≤ 0x9f)

/-- An oversized sequence loses its middle. -/
def trimPendingAnsiControl (value : Text) : Text :=
  if value.length ≤ MAX_TAIL_PENDING_ANSI_CHARS then value
  else
    let introducer := value.take 2
    introducer ++ value.rtake (MAX_TAIL_PENDING_ANSI_CHARS - introducer.length)

structure NormalizedChunk where
  text : Text
  pendingAnsi : Text
  deriving DecidableEq

/-- What the input ends in the middle of; a final ESC and a final CR are kept as they are. -/
def pendingOf : Outcome CodeUnit Empty → Text
  | .unread input => trimPendingAnsiControl input
  | .stopped error => error.elim

def normalizeTerminalChunk (chunk pendingAnsi : Text) : NormalizedChunk :=
  if pendingAnsi.length = 0 ∧ !terminalChunkNeedsNormalization chunk then ⟨chunk, []⟩
  else
    let (parts, outcome) := FrameStream.read tokens (pendingAnsi ++ chunk)
    ⟨parts.flatMap fun token => token.kept, pendingOf outcome⟩

end Wakii.Terminal.AnsiNormalization
