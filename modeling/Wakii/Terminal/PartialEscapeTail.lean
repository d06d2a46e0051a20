import Mathlib.Data.List.Induction
import Wakii.Terminal.AnsiSequence

/-!
# The escape sequence a stream ends in

A snapshot carries the sequence that its stream left open, so that the next chunk
completes it.  The scanner follows the terminal's parser states; a string whose
ESC is not followed by a backslash has ended, and the ESC opens a sequence of its own.
-/

namespace Wakii.Terminal.EscapeTail

open List

def CAN : CodeUnit := 0x18
def SUB : CodeUnit := 0x1a
def BEL : CodeUnit := 0x07
def BACKSLASH : CodeUnit := 0x5c

def isCancel (code : CodeUnit) : Bool := code == CAN || code == SUB

inductive ScanState
  | ground
  | esc
  | escIntermediate
  | csi
  | osc
  | oscEsc
  | string
  | stringEsc
  deriving DecidableEq

def stateAfterEscByte (code : CodeUnit) : ScanState :=
  match classifyTerminalEscapeIntroducer (some code) with
  | .csi => .csi
  | .osc => .osc
  | .string => .string
  | .intermediate => .escIntermediate
  | .execute => .esc
  | .final => .ground

/-- The state, and the text from `start` on; in the ground state nothing is kept. -/
structure EscapeScan where
  state : ScanState
  tail : Text
  deriving DecidableEq

namespace EscapeScan

def ground : EscapeScan := ⟨.ground, []⟩

def start : EscapeScan := ⟨.esc, [ESCAPE]⟩

def enter (state : ScanState) (tail : Text) : EscapeScan :=
  if state = .ground then ground else ⟨state, tail⟩

/-- The ESC before the unit ended a string; unless both are ST, it opened a sequence. -/
def afterStringEsc (code : CodeUnit) : EscapeScan :=
  if code = BACKSLASH then ground
  else if code = ESCAPE then start
  else if isCancel code then ground
  else enter (stateAfterEscByte code) [ESCAPE, code]

def step (scan : EscapeScan) (code : CodeUnit) : EscapeScan :=
  match scan.state with
  | .ground => if code = ESCAPE then start else ground
  | .esc =>
    if code = ESCAPE then start
    else if isCancel code then ground
    else enter (stateAfterEscByte code) (scan.tail ++ [code])
  | .escIntermediate =>
    if code = ESCAPE then start
    else if isCancel code then ground
    else if 0x30 ≤ code.val ∧ code.val ≤ 0x7e then ground
    else ⟨.escIntermediate, scan.tail ++ [code]⟩
  | .csi =>
    if code = ESCAPE then start
    else if isCancel code then ground
    else if isCsiFinal code then ground
    else ⟨.csi, scan.tail ++ [code]⟩
  | .osc =>
    if code = BEL ∨ isCancel code then ground
    else if code = ESCAPE then ⟨.oscEsc, scan.tail ++ [code]⟩
    else ⟨.osc, scan.tail ++ [code]⟩
  | .oscEsc => afterStringEsc code
  | .string =>
    if isCancel code then ground
    else if code = ESCAPE then ⟨.stringEsc, scan.tail ++ [code]⟩
    else ⟨.string, scan.tail ++ [code]⟩
  | .stringEsc => afterStringEsc code

def run (scan : EscapeScan) (stream : Text) : EscapeScan := stream.foldl step scan

end EscapeScan

def STATE_PREFIX : ScanState → Text
  | .ground => []
  | .esc => [ESCAPE]
  | .escIntermediate => [ESCAPE, SPACE]
  | .csi => [ESCAPE, 0x5b]
  | .osc => [ESCAPE, 0x5d]
  | .oscEsc => [ESCAPE]
  | .string => [ESCAPE, 0x50]
  | .stringEsc => [ESCAPE]

def scanPartialEscapeTail (stream : Text) (stateOnly : Bool) : Text :=
  let scan := EscapeScan.ground.run stream
  if scan.state = .oscEsc ∨ scan.state = .stringEsc then [ESCAPE]
  else if stateOnly then STATE_PREFIX scan.state
  else scan.tail

def extractPartialEscapeTail (stream : Text) : Text := scanPartialEscapeTail stream false

def advanceTerminalEscapeBoundary (statePrefix chunk : Text) : Text :=
  if statePrefix = [] ∧ ESCAPE ∉ chunk then []
  else scanPartialEscapeTail (statePrefix ++ chunk) true

def stateByPrefix (statePrefix : Text) : ScanState :=
  if statePrefix = [ESCAPE] then .esc
  else if statePrefix = [ESCAPE, SPACE] then .escIntermediate
  else if statePrefix = [ESCAPE, 0x5b] then .csi
  else if statePrefix = [ESCAPE, 0x5d] then .osc
  else if statePrefix = [ESCAPE, 0x50] then .string
  else .ground

/-- How much of the chunk finishes the sequence; nothing where it stays open. -/
def continuationFrom : ScanState → Text → Option ℕ
  | state, [] => if state = .ground then some 0 else none
  | state, code :: rest =>
    if state = .ground then some 0
    else if isCancel code then some 1
    else
      match state with
      | .ground => some 0
      | .esc =>
        if code = ESCAPE then some 0
        else if stateAfterEscByte code = .ground then some 1
        else (continuationFrom (stateAfterEscByte code) rest).map (· + 1)
      | .escIntermediate =>
        if code = ESCAPE then some 0
        else if 0x30 ≤ code.val ∧ code.val ≤ 0x7e then some 1
        else (continuationFrom .escIntermediate rest).map (· + 1)
      | .csi =>
        if code = ESCAPE then some 0
        else if isCsiFinal code then some 1
        else (continuationFrom .csi rest).map (· + 1)
      | .osc =>
        if code = BEL then some 1
        else if code = ESCAPE then if rest.head? = some BACKSLASH then some 2 else some 0
        else (continuationFrom .osc rest).map (· + 1)
      | .string =>
        if code = ESCAPE then if rest.head? = some BACKSLASH then some 2 else some 0
        else (continuationFrom .string rest).map (· + 1)
      -- no state prefix stands for these two
      | .oscEsc => if code = BACKSLASH then some 1 else some 0
      | .stringEsc => if code = BACKSLASH then some 1 else some 0

def openEscapeContinuationLength (statePrefix chunk : Text) : Option ℕ :=
  continuationFrom (stateByPrefix statePrefix) chunk

namespace EscapeScan

variable (scan : EscapeScan) (code : CodeUnit) (stream more : Text)

@[simp]
theorem run_nil : scan.run [] = scan := rfl

@[simp]
theorem run_cons : scan.run (code :: stream) = (scan.step code).run stream := rfl

theorem run_append : scan.run (stream ++ more) = (scan.run stream).run more := foldl_append

theorem enter_state (state : ScanState) (tail : Text) : (enter state tail).state = state := by
  rw [enter]
  split_ifs with hground
  · exact hground.symm
  · rfl

/-- A string that an ESC ended is forgotten: only the pending escape counts. -/
def settled : EscapeScan :=
  match scan.state with
  | .oscEsc => start
  | .stringEsc => start
  | _ => scan

@[simp]
theorem settled_settled : scan.settled.settled = scan.settled := by
  rcases scan with ⟨state, tail⟩
  cases state <;> rfl

theorem afterStringEsc_eq_step : afterStringEsc code = start.step code := by
  have hescape : BACKSLASH ≠ ESCAPE := by decide
  have hcancel : isCancel BACKSLASH = false := by decide
  have hfinal : stateAfterEscByte BACKSLASH = .ground := by decide
  rw [afterStringEsc]
  by_cases hbackslash : code = BACKSLASH
  · subst code
    rw [if_pos rfl, step]
    change ground = if BACKSLASH = ESCAPE then start else if isCancel BACKSLASH = true then ground
      else enter (stateAfterEscByte BACKSLASH) _
    rw [if_neg hescape, hcancel, hfinal]
    rfl
  · rw [if_neg hbackslash]
    rfl

theorem step_settled : scan.settled.step code = scan.step code := by
  rcases scan with ⟨state, tail⟩
  cases state
  case oscEsc => exact (afterStringEsc_eq_step code).symm
  case stringEsc => exact (afterStringEsc_eq_step code).symm
  all_goals rfl

theorem settled_run : (scan.settled.run stream).settled = (scan.run stream).settled := by
  cases stream with
  | nil => exact scan.settled_settled
  | cons code rest => rw [run_cons, run_cons, step_settled]

/-- A step of a settled scan ends the sequence, starts one, or adds the unit to it. -/
theorem step_cases (hsettled : scan.settled = scan) :
    (scan.step code).settled = ground ∨ (scan.step code).settled = start ∨
      (scan.step code).state ≠ .ground ∧
        (scan.step code).settled = ⟨(scan.step code).state, scan.tail ++ [code]⟩ := by
  have henter (state : ScanState) (hopen : state ≠ .oscEsc ∧ state ≠ .stringEsc) :
      (enter state (scan.tail ++ [code])).settled = ground ∨
        (enter state (scan.tail ++ [code])).state ≠ .ground ∧
          (enter state (scan.tail ++ [code])).settled =
            ⟨(enter state (scan.tail ++ [code])).state, scan.tail ++ [code]⟩ := by
    rw [enter]
    split_ifs with hground
    · exact Or.inl rfl
    · refine Or.inr ⟨hground, ?_⟩
      cases state <;> first | rfl | simp at hopen
  have hbyte : stateAfterEscByte code ≠ .oscEsc ∧ stateAfterEscByte code ≠ .stringEsc := by
    rw [stateAfterEscByte]
    split <;> decide
  rcases scan with ⟨state, tail⟩
  cases state with
  | ground =>
    simp only [step]
    split_ifs
    · exact Or.inr (Or.inl rfl)
    · exact Or.inl rfl
  | esc =>
    simp only [step]
    split_ifs
    · exact Or.inr (Or.inl rfl)
    · exact Or.inl rfl
    · exact (henter _ hbyte).imp_right Or.inr
  | escIntermediate =>
    simp only [step]
    split_ifs
    · exact Or.inr (Or.inl rfl)
    · exact Or.inl rfl
    · exact Or.inl rfl
    · exact Or.inr (Or.inr ⟨fun hground => (by cases hground), rfl⟩)
  | csi =>
    simp only [step]
    split_ifs
    · exact Or.inr (Or.inl rfl)
    · exact Or.inl rfl
    · exact Or.inl rfl
    · exact Or.inr (Or.inr ⟨fun hground => (by cases hground), rfl⟩)
  | osc =>
    simp only [step]
    split_ifs
    · exact Or.inl rfl
    · exact Or.inr (Or.inl rfl)
    · exact Or.inr (Or.inr ⟨fun hground => (by cases hground), rfl⟩)
  | oscEsc => cases hsettled
  | string =>
    simp only [step]
    split_ifs
    · exact Or.inl rfl
    · exact Or.inr (Or.inl rfl)
    · exact Or.inr (Or.inr ⟨fun hground => (by cases hground), rfl⟩)
  | stringEsc => cases hsettled

theorem run_tail :
    (ground.run (ground.run stream).settled.tail).settled = (ground.run stream).settled := by
  induction stream using List.reverseRecOn with
  | nil => rfl
  | append_singleton before code ih =>
    have hlast : (ground.run (before ++ [code])).settled =
        ((ground.run before).settled.step code).settled := by
      rw [run_append, run_cons, run_nil, step_settled]
    rw [hlast]
    rcases step_cases _ code (settled_settled (ground.run before)) with
      hended | hstarted | ⟨-, hadded⟩
    · rw [hended]
      rfl
    · rw [hstarted]
      rfl
    · calc
        (ground.run ((ground.run before).settled.step code).settled.tail).settled =
            (ground.run ((ground.run before).settled.tail ++ [code])).settled := by rw [hadded]
        _ = ((ground.run (ground.run before).settled.tail).settled.run [code]).settled := by
          rw [run_append, settled_run]
        _ = ((ground.run before).settled.step code).settled := by
          rw [ih, run_cons, run_nil]

theorem run_of_notMem (hplain : ESCAPE ∉ stream) : ground.run stream = ground := by
  induction stream with
  | nil => rfl
  | cons code rest ih =>
    rw [mem_cons, not_or] at hplain
    have hstep : ground.step code = ground := if_neg (Ne.symm hplain.1)
    rw [run_cons, hstep, ih hplain.2]

/-- A scan keeps text exactly while a sequence is open, and none that it did not read. -/
theorem tail_of_run : ((ground.run stream).settled.tail = [] ↔
      (ground.run stream).settled.state = .ground) ∧
    (ground.run stream).settled.tail.length ≤ stream.length := by
  induction stream using List.reverseRecOn with
  | nil => exact ⟨Iff.intro (fun _ => rfl) fun _ => rfl, Nat.le_refl 0⟩
  | append_singleton before code ih =>
    rw [run_append, run_cons, run_nil, ← step_settled, length_append, length_singleton]
    rcases step_cases _ code (settled_settled (ground.run before)) with
      hended | hstarted | ⟨hopen, hadded⟩
    · rw [hended]
      exact ⟨Iff.intro (fun _ => rfl) fun _ => rfl, Nat.zero_le _⟩
    · rw [hstarted]
      exact ⟨iff_of_false (cons_ne_nil _ _) (fun hground => by cases hground), Nat.le_add_left 1 _⟩
    · rw [hadded, length_append, length_singleton]
      exact ⟨iff_of_false (append_ne_nil_of_right_ne_nil _ (cons_ne_nil _ _)) hopen,
        Nat.succ_le_succ ih.2⟩

variable {scan code} in
theorem step_state {other : EscapeScan} (hstate : scan.state = other.state) :
    (scan.step code).state = (other.step code).state := by
  rcases scan with ⟨state, tail⟩
  rcases other with ⟨_, otherTail⟩
  dsimp only at hstate
  subst hstate
  cases state <;> simp only [step] <;> split_ifs <;> first | rfl | rw [enter_state, enter_state]

variable {scan} in
theorem run_state {other : EscapeScan} (hstate : scan.state = other.state) :
    (scan.run stream).state = (other.run stream).state := by
  induction stream generalizing scan other with
  | nil => exact hstate
  | cons code rest ih => exact ih (step_state hstate)

variable {scan} in
theorem settled_state {other : EscapeScan} (hstate : scan.state = other.state) :
    scan.settled.state = other.settled.state := by
  rcases scan with ⟨state, tail⟩
  rcases other with ⟨_, otherTail⟩
  dsimp only at hstate
  subst hstate
  cases state <;> rfl

def Named (state : ScanState) : Prop := state ≠ .oscEsc ∧ state ≠ .stringEsc

theorem named_settled : Named scan.settled.state := by
  rcases scan with ⟨state, tail⟩
  cases state <;> exact ⟨fun hstate => (by cases hstate), fun hstate => (by cases hstate)⟩

theorem prefix_run {state : ScanState} (hnamed : Named state) :
    ground.run (STATE_PREFIX state) = ⟨state, STATE_PREFIX state⟩ ∧
      stateByPrefix (STATE_PREFIX state) = state ∧
      (STATE_PREFIX state = [] ↔ state = .ground) := by
  cases state with
  | oscEsc => exact absurd rfl hnamed.1
  | stringEsc => exact absurd rfl hnamed.2
  | ground => decide
  | esc => decide
  | escIntermediate => decide
  | csi => decide
  | osc => decide
  | string => decide

end EscapeScan

section Boundary

open EscapeScan

theorem scanPartialEscapeTail_eq (stream : Text) (stateOnly : Bool) :
    scanPartialEscapeTail stream stateOnly =
      if stateOnly then STATE_PREFIX (ground.run stream).settled.state
      else (ground.run stream).settled.tail := by
  rw [scanPartialEscapeTail]
  rcases ground.run stream with ⟨state, tail⟩
  cases state <;> cases stateOnly <;> rfl

theorem extractPartialEscapeTail_eq (stream : Text) :
    extractPartialEscapeTail stream = (ground.run stream).settled.tail :=
  scanPartialEscapeTail_eq stream false

theorem advanceTerminalEscapeBoundary_eq (statePrefix chunk : Text) :
    advanceTerminalEscapeBoundary statePrefix chunk =
      STATE_PREFIX (ground.run (statePrefix ++ chunk)).settled.state := by
  rw [advanceTerminalEscapeBoundary]
  split_ifs with hplain
  · rw [hplain.1, nil_append, run_of_notMem chunk hplain.2]
    rfl
  · exact scanPartialEscapeTail_eq (statePrefix ++ chunk) true

theorem extractPartialEscapeTail_append (first second : Text) :
    extractPartialEscapeTail (first ++ second) =
      extractPartialEscapeTail (extractPartialEscapeTail first ++ second) := by
  have hscans : (ground.run (first ++ second)).settled =
      (ground.run (extractPartialEscapeTail first ++ second)).settled := by
    calc
      (ground.run (first ++ second)).settled =
          ((ground.run first).settled.run second).settled := by rw [run_append, settled_run]
      _ = ((ground.run (ground.run first).settled.tail).settled.run second).settled := by
        rw [run_tail]
      _ = (ground.run (extractPartialEscapeTail first ++ second)).settled := by
        rw [settled_run, ← run_append, extractPartialEscapeTail_eq]
  rw [extractPartialEscapeTail_eq, extractPartialEscapeTail_eq, hscans]

theorem advanceTerminalEscapeBoundary_append (statePrefix first second : Text) :
    advanceTerminalEscapeBoundary (advanceTerminalEscapeBoundary statePrefix first) second =
      advanceTerminalEscapeBoundary statePrefix (first ++ second) := by
  have hprefix := (prefix_run (named_settled (ground.run (statePrefix ++ first)))).1
  rw [advanceTerminalEscapeBoundary_eq _ second, advanceTerminalEscapeBoundary_eq,
    advanceTerminalEscapeBoundary_eq, run_append, hprefix, ← append_assoc,
    run_append _ (statePrefix ++ first), ← settled_run (ground.run (statePrefix ++ first))]
  exact congrArg STATE_PREFIX (settled_state (run_state second rfl))

theorem advanceTerminalEscapeBoundary_eq_nil_iff (statePrefix chunk : Text) :
    advanceTerminalEscapeBoundary statePrefix chunk = [] ↔
      extractPartialEscapeTail (statePrefix ++ chunk) = [] := by
  rw [advanceTerminalEscapeBoundary_eq, extractPartialEscapeTail_eq,
    (prefix_run (named_settled _)).2.2, (tail_of_run _).1]

/-- What a continuation's length says of the scan it continues: the scan is then a fresh one
behind the sequence, or it has kept the whole chunk. -/
def Continues (scan : EscapeScan) (chunk : Text) : Option ℕ → Prop
  | some length => length ≤ chunk.length ∧
      (scan.run chunk).settled = (ground.run (chunk.drop length)).settled
  | none => scan.state ≠ .ground ∧ (scan.run chunk).settled.tail = scan.tail ++ chunk

section Continuation

variable {scan : EscapeScan} {code : CodeUnit} {rest : Text}

theorem Continues.ended (hstep : scan.step code = ground) :
    Continues scan (code :: rest) (some 1) :=
  ⟨Nat.succ_le_succ (Nat.zero_le _), by rw [run_cons, hstep]; rfl⟩

theorem Continues.restarted (hstep : (scan.step ESCAPE).settled = start) :
    Continues scan (ESCAPE :: rest) (some 0) := by
  refine ⟨Nat.zero_le _, ?_⟩
  rw [run_cons, ← settled_run, hstep]
  rfl

theorem Continues.kept {next : ScanState} {length : Option ℕ} (hopen : scan.state ≠ .ground)
    (hstep : scan.step code = ⟨next, scan.tail ++ [code]⟩)
    (hrest : Continues ⟨next, scan.tail ++ [code]⟩ rest length) :
    Continues scan (code :: rest) (length.map (· + 1)) := by
  cases length with
  | some length =>
    refine ⟨Nat.succ_le_succ hrest.1, ?_⟩
    rw [run_cons, hstep]
    exact hrest.2
  | none =>
    refine ⟨hopen, ?_⟩
    rw [run_cons, hstep, hrest.2, append_assoc]
    rfl

theorem Continues.terminated {opened : ScanState}
    (hstep : scan.step ESCAPE = ⟨opened, scan.tail ++ [ESCAPE]⟩)
    (hopened : opened = .oscEsc ∨ opened = .stringEsc) :
    Continues scan (ESCAPE :: rest) (if rest.head? = some BACKSLASH then some 2 else some 0) := by
  have hsettled : (scan.step ESCAPE).settled = start := by
    rw [hstep]
    rcases hopened with rfl | rfl <;> rfl
  split_ifs with hbackslash
  · obtain ⟨later, rfl⟩ := head?_eq_some_iff.mp hbackslash
    refine ⟨Nat.le_add_left 2 _, ?_⟩
    rw [run_cons, ← settled_run, hsettled]
    rfl
  · exact Continues.restarted hsettled

end Continuation

theorem settled_of_named {scan : EscapeScan} (hnamed : Named scan.state) : scan.settled = scan := by
  rcases scan with ⟨state, tail⟩
  cases state with
  | oscEsc => exact absurd rfl hnamed.1
  | stringEsc => exact absurd rfl hnamed.2
  | ground => rfl
  | esc => rfl
  | escIntermediate => rfl
  | csi => rfl
  | osc => rfl
  | string => rfl

/-- How far a continuation reaches is what the scanner makes of the chunk. -/
theorem continues_continuationFrom (scan : EscapeScan) (hnamed : Named scan.state)
    (hground : scan.state = .ground → scan = ground) (chunk : Text) :
    Continues scan chunk (continuationFrom scan.state chunk) := by
  induction chunk generalizing scan with
  | nil =>
    rw [continuationFrom]
    split_ifs with hstate
    · exact ⟨Nat.le_refl 0, by rw [hground hstate]; rfl⟩
    · exact ⟨hstate, by rw [run_nil, settled_of_named hnamed, append_nil]⟩
  | cons code rest ih =>
    have hbyte : Named (stateAfterEscByte code) := by
      rw [stateAfterEscByte]
      split <;> exact ⟨fun hstate => (by cases hstate), fun hstate => (by cases hstate)⟩
    have hescape : isCancel code = true → code ≠ ESCAPE := by
      rintro hcancel rfl
      exact absurd hcancel (by decide)
    have hcancelled (state : ScanState) (tail : Text) (hcancel : isCancel code = true)
        (hopen : Named state) : (⟨state, tail⟩ : EscapeScan).step code = ground := by
      have hplain := hescape hcancel
      cases state with
      | oscEsc => exact absurd rfl hopen.1
      | stringEsc => exact absurd rfl hopen.2
      | ground => exact if_neg hplain
      | esc => simp only [step, hcancel, hplain, if_true, if_false]
      | escIntermediate => simp only [step, hcancel, hplain, if_true, if_false]
      | csi => simp only [step, hcancel, hplain, if_true, if_false]
      | osc => simp only [step, hcancel, or_true, if_true]
      | string => simp only [step, hcancel, if_true]
    rcases scan with ⟨state, tail⟩
    cases state with
    | ground =>
      rw [hground rfl]
      exact ⟨Nat.zero_le _, rfl⟩
    | oscEsc => exact absurd rfl hnamed.1
    | stringEsc => exact absurd rfl hnamed.2
    | esc =>
      simp only [continuationFrom, reduceCtorEq, if_false]
      split_ifs with hcancel hcode hfinal
      · exact Continues.ended (hcancelled _ _ hcancel hnamed)
      · subst code
        exact Continues.restarted rfl
      · exact Continues.ended (by simp only [step, hcode, hcancel, hfinal]; rfl)
      · refine Continues.kept (fun hopen => (by cases hopen)) ?_
          (ih ⟨stateAfterEscByte code, tail ++ [code]⟩ hbyte fun hend => absurd hend hfinal)
        simp only [step, hcode, hcancel, enter, if_neg hfinal, if_false]
        rfl
    | escIntermediate =>
      simp only [continuationFrom, reduceCtorEq, if_false]
      split_ifs with hcancel hcode hfinal
      · exact Continues.ended (hcancelled _ _ hcancel hnamed)
      · subst code
        exact Continues.restarted rfl
      · exact Continues.ended (by simp only [step, hcode, hcancel, if_pos hfinal]; rfl)
      · refine Continues.kept (fun hopen => (by cases hopen)) ?_
          (ih ⟨.escIntermediate, tail ++ [code]⟩ hnamed fun hend => (by cases hend))
        simp only [step, hcode, hcancel, if_neg hfinal]
        rfl
    | csi =>
      simp only [continuationFrom, reduceCtorEq, if_false]
      split_ifs with hcancel hcode hfinal
      · exact Continues.ended (hcancelled _ _ hcancel hnamed)
      · subst code
        exact Continues.restarted rfl
      · exact Continues.ended (by simp only [step, hcode, hcancel, hfinal]; rfl)
      · refine Continues.kept (fun hopen => (by cases hopen)) ?_
          (ih ⟨.csi, tail ++ [code]⟩ hnamed fun hend => (by cases hend))
        simp only [step, hcode, hcancel, hfinal]
        rfl
    | osc =>
      simp only [continuationFrom, reduceCtorEq, if_false]
      by_cases hcancel : isCancel code = true
      · rw [if_pos hcancel]
        exact Continues.ended (hcancelled _ _ hcancel hnamed)
      rw [if_neg hcancel]
      by_cases hbell : code = BEL
      · rw [if_pos hbell]
        exact Continues.ended (by simp only [step, hbell, true_or, if_true])
      rw [if_neg hbell]
      by_cases hcode : code = ESCAPE
      · rw [if_pos hcode]
        subst code
        exact Continues.terminated rfl (Or.inl rfl)
      · rw [if_neg hcode]
        refine Continues.kept (fun hopen => (by cases hopen)) ?_
          (ih ⟨.osc, tail ++ [code]⟩ hnamed fun hend => (by cases hend))
        simp only [step, hcode, hcancel, hbell]
        rfl
    | string =>
      simp only [continuationFrom, reduceCtorEq, if_false]
      by_cases hcancel : isCancel code = true
      · rw [if_pos hcancel]
        exact Continues.ended (hcancelled _ _ hcancel hnamed)
      rw [if_neg hcancel]
      by_cases hcode : code = ESCAPE
      · rw [if_pos hcode]
        subst code
        exact Continues.terminated rfl (Or.inr rfl)
      · rw [if_neg hcode]
        refine Continues.kept (fun hopen => (by cases hopen)) ?_
          (ih ⟨.string, tail ++ [code]⟩ hnamed fun hend => (by cases hend))
        simp only [step, hcode, hcancel]
        rfl

section Continuing

variable (stream chunk next : Text)

theorem continues_openEscapeContinuationLength :
    Continues (ground.run (advanceTerminalEscapeBoundary stream chunk)) next
      (openEscapeContinuationLength (advanceTerminalEscapeBoundary stream chunk) next) := by
  have hnamed := named_settled (ground.run (stream ++ chunk))
  obtain ⟨hrun, hstate, hground⟩ := prefix_run hnamed
  rw [openEscapeContinuationLength, advanceTerminalEscapeBoundary_eq, hstate, hrun]
  generalize (ground.run (stream ++ chunk)).settled.state = state at hnamed
  exact continues_continuationFrom ⟨state, STATE_PREFIX state⟩ hnamed (by rintro rfl; rfl) next

theorem advance_continuation {length : ℕ} (hlength : openEscapeContinuationLength
      (advanceTerminalEscapeBoundary stream chunk) next = some length) :
    length ≤ next.length ∧
      advanceTerminalEscapeBoundary (advanceTerminalEscapeBoundary stream chunk) next =
        advanceTerminalEscapeBoundary [] (next.drop length) := by
  have hcontinues := continues_openEscapeContinuationLength stream chunk next
  rw [hlength] at hcontinues
  refine ⟨hcontinues.1, ?_⟩
  rw [advanceTerminalEscapeBoundary_eq _ next, advanceTerminalEscapeBoundary_eq [], run_append,
    hcontinues.2, nil_append]

/-- A sequence stays open where the scanner still keeps it from its escape on. -/
theorem continuation_eq_none_iff : openEscapeContinuationLength
      (advanceTerminalEscapeBoundary stream chunk) next = none ↔
    advanceTerminalEscapeBoundary stream chunk ≠ [] ∧
      extractPartialEscapeTail (advanceTerminalEscapeBoundary stream chunk ++ next) =
        advanceTerminalEscapeBoundary stream chunk ++ next := by
  have hcontinues := continues_openEscapeContinuationLength stream chunk next
  have hnamed := named_settled (ground.run (stream ++ chunk))
  obtain ⟨hrun, -, hground⟩ := prefix_run hnamed
  rw [← advanceTerminalEscapeBoundary_eq] at hrun hground
  rw [extractPartialEscapeTail_eq, run_append]
  constructor
  · intro hnone
    rw [hnone] at hcontinues
    obtain ⟨hopen, htail⟩ := hcontinues
    rw [hrun] at hopen htail ⊢
    exact ⟨fun hnil => hopen (hground.mp hnil), htail⟩
  · rintro ⟨hsome, htail⟩
    cases hlength :
        openEscapeContinuationLength (advanceTerminalEscapeBoundary stream chunk) next with
    | none => rfl
    | some length =>
      rw [hlength] at hcontinues
      have hkept := (tail_of_run (next.drop length)).2
      have hprefix := length_pos_iff.mpr hsome
      rw [← hcontinues.2, htail, length_append, length_drop] at hkept
      omega

end Continuing

/-- The three scanners agree on every stream, wherever it is cut. -/
theorem escapeTails_compose : (∀ first second : Text, extractPartialEscapeTail (first ++ second) =
      extractPartialEscapeTail (extractPartialEscapeTail first ++ second)) ∧
    ∀ stream chunk : Text,
      let statePrefix := advanceTerminalEscapeBoundary stream chunk
      (∀ first second : Text,
        advanceTerminalEscapeBoundary (advanceTerminalEscapeBoundary statePrefix first) second =
          advanceTerminalEscapeBoundary statePrefix (first ++ second)) ∧
      (∀ next : Text, advanceTerminalEscapeBoundary statePrefix next = [] ↔
        extractPartialEscapeTail (stream ++ chunk ++ next) = []) ∧
      ∀ next : Text, (∀ length, openEscapeContinuationLength statePrefix next = some length →
          length ≤ next.length ∧ advanceTerminalEscapeBoundary statePrefix next =
              advanceTerminalEscapeBoundary [] (next.drop length)) ∧
        (openEscapeContinuationLength statePrefix next = none ↔ statePrefix ≠ [] ∧
            extractPartialEscapeTail (statePrefix ++ next) = statePrefix ++ next) := by
  refine ⟨extractPartialEscapeTail_append, fun stream chunk =>
    ⟨advanceTerminalEscapeBoundary_append _, fun next => ?_, fun next =>
      ⟨fun length => advance_continuation stream chunk next,
        continuation_eq_none_iff stream chunk next⟩⟩⟩
  rw [advanceTerminalEscapeBoundary_append, advanceTerminalEscapeBoundary_eq_nil_iff, append_assoc]

theorem escapeTails_compose_terminated :
    let statePrefix := advanceTerminalEscapeBoundary [] [ESCAPE, 0x5d]
    openEscapeContinuationLength statePrefix [0x61, ESCAPE, BACKSLASH, 0x62] = some 3 ∧
      advanceTerminalEscapeBoundary statePrefix [0x61, ESCAPE, BACKSLASH, 0x62] =
        advanceTerminalEscapeBoundary [] [0x62] :=
  ⟨by decide, (((escapeTails_compose.2 [] [ESCAPE, 0x5d]).2.2
    [0x61, ESCAPE, BACKSLASH, 0x62]).1 3 (by decide)).2⟩

end Boundary

end Wakii.Terminal.EscapeTail
