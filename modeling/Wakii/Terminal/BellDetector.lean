import Wakii.Library.TextSearch
import Wakii.Terminal.PartialEscapeTail

/-!
# Bells in chunked output

A bell rings unless it ends an OSC.  The detector carries its place in the stream
from chunk to chunk, but leaves a chunk at the first bell: what the rest of the
chunk opens, it does not know of.
-/

namespace Wakii.Terminal.BellDetector

open List

open EscapeTail (BACKSLASH BEL isCancel)

def OSC_INTRODUCER : Text := [ESCAPE, 0x5d]

structure BellState where
  pendingEscape : Bool
  inOsc : Bool
  pendingOscEscape : Bool
  deriving DecidableEq

def BellState.initial : BellState := ⟨false, false, false⟩

def readUnit (state : BellState) (char : CodeUnit) : BellState × Bool :=
  if state.inOsc then
    if isCancel char then ({ state with inOsc := false, pendingOscEscape := false }, false)
    else if state.pendingOscEscape then
      if char = BACKSLASH then ({ state with inOsc := false, pendingOscEscape := false }, false)
      else ({ state with pendingOscEscape := char = ESCAPE }, false)
    else if char = BEL then ({ state with inOsc := false }, false)
    else ({ state with pendingOscEscape := char = ESCAPE }, false)
  else if state.pendingEscape then
    if isCancel char then ({ state with pendingEscape := false }, false)
    else if char = 0x5d then (⟨false, true, false⟩, false)
    else if char = ESCAPE then ({ state with pendingEscape := true }, false)
    else ({ state with pendingEscape := false }, char = BEL)
  else if char = ESCAPE then ({ state with pendingEscape := true }, false)
  else (state, char = BEL)

def scanChunk : BellState → Text → Bool × BellState
  | state, [] => (false, state)
  | state, char :: rest =>
    let (next, rung) := readUnit state char
    if rung then (true, next) else scanChunk next rest

def containsOscIntroducer (data : Text) : Bool := TextSearch.includes OSC_INTRODUCER data

/-- The answer for a chunk, with the caller's scan for an OSC introducer where it made one. -/
def chunkContainsBell (state : BellState) (data : Text) (hint : Option Bool) : Bool × BellState :=
  if !state.inOsc ∧ !state.pendingEscape ∧ BEL ∉ data ∧
      !hint.getD (containsOscIntroducer data) then
    (false, { state with pendingEscape := data.getLast? = some ESCAPE })
  else scanChunk state data

/-- A chunk, and whether its caller hands over its own scan for an introducer. -/
structure Chunk where
  data : Text
  hinted : Bool

/-- `handleChunk` hands over what it found in the chunk itself. -/
def Chunk.hint (chunk : Chunk) : Option Bool :=
  if chunk.hinted then some (containsOscIntroducer chunk.data) else none

def answers : BellState → List Chunk → List Bool
  | _, [] => []
  | state, chunk :: rest =>
    let (answer, next) := chunkContainsBell state chunk.data chunk.hint
    answer :: answers next rest

/-- The state of a pass over the whole stream, behind some text of it. -/
def passed (state : BellState) (text : Text) : BellState :=
  text.foldl (fun state char => (readUnit state char).1) state

def rings : BellState → Text → Bool
  | _, [] => false
  | state, char :: rest => (readUnit state char).2 || rings (readUnit state char).1 rest

def bells : BellState → List Chunk → List Bool
  | _, [] => []
  | state, chunk :: rest => rings state chunk.data :: bells (passed state chunk.data) rest

def Agrees (chunks : List Chunk) : Prop :=
  answers .initial chunks = bells .initial chunks

def RingsClosed : BellState → List Chunk → Prop
  | _, [] => True
  | state, chunk :: rest =>
    (rings state chunk.data = true → passed state chunk.data = .initial) ∧
      RingsClosed (passed state chunk.data) rest

/-- The states a pass can be in: an escape is pending in an OSC or outside of one. -/
inductive Sane : BellState → Prop
  | plain : Sane ⟨false, false, false⟩
  | escaped : Sane ⟨true, false, false⟩
  | osc (pendingOscEscape : Bool) : Sane ⟨false, true, pendingOscEscape⟩

variable {state : BellState}

/-- One unit rings or keeps the state sane. -/
theorem readUnit_cases (hsane : Sane state) (char : CodeUnit) :
    readUnit state char = (.initial, true) ∨
      Sane (readUnit state char).1 ∧ (readUnit state char).2 = false := by
  cases hsane with
  | plain =>
    simp only [readUnit]
    by_cases hescape : char = ESCAPE
    · rw [hescape]
      exact Or.inr ⟨.escaped, rfl⟩
    · by_cases hbell : char = BEL
      · rw [hbell]
        exact Or.inl rfl
      · simp only [hescape, hbell]
        exact Or.inr ⟨.plain, rfl⟩
  | escaped =>
    simp only [readUnit]
    by_cases hcancel : isCancel char = true
    · rw [hcancel]
      exact Or.inr ⟨.plain, rfl⟩
    · simp only [hcancel]
      by_cases hosc : char = 0x5d
      · rw [hosc]
        exact Or.inr ⟨.osc false, rfl⟩
      · by_cases hescape : char = ESCAPE
        · rw [hescape]
          exact Or.inr ⟨.escaped, rfl⟩
        · by_cases hbell : char = BEL
          · rw [hbell]
            exact Or.inl rfl
          · simp only [hosc, hescape, hbell]
            exact Or.inr ⟨.plain, rfl⟩
  | osc pendingOscEscape =>
    refine Or.inr ?_
    simp only [readUnit, if_true]
    split_ifs
    · exact ⟨.plain, rfl⟩
    · exact ⟨.plain, rfl⟩
    · exact ⟨.osc _, rfl⟩
    · cases pendingOscEscape
      · exact ⟨.plain, rfl⟩
      · contradiction
    · exact ⟨.osc _, rfl⟩

theorem sane_initial : Sane .initial := .plain

theorem Sane.next (hsane : Sane state) (char : CodeUnit) : Sane (readUnit state char).1 := by
  rcases readUnit_cases hsane char with hrings | ⟨hnext, -⟩
  · rw [hrings]
    exact .plain
  · exact hnext

theorem Sane.passed (hsane : Sane state) (text : Text) : Sane (passed state text) := by
  induction text generalizing state with
  | nil => exact hsane
  | cons char rest ih => exact ih (hsane.next char)

theorem scanChunk_eq (hsane : Sane state) (data : Text) : scanChunk state data =
      if rings state data then (true, .initial) else (false, passed state data) := by
  induction data generalizing state with
  | nil => rfl
  | cons char rest ih =>
    rcases readUnit_cases hsane char with hrings | ⟨hnext, hsilent⟩
    · have hfirst : rings state (char :: rest) = true := by rw [rings, hrings]; rfl
      rw [scanChunk, hrings, hfirst]
      rfl
    · have hlater : rings state (char :: rest) = rings (readUnit state char).1 rest := by
        rw [rings, hsilent, Bool.false_or]
      rw [scanChunk, hlater, passed, foldl_cons]
      generalize readUnit state char = unit at hnext hsilent
      obtain ⟨next, rung⟩ := unit
      dsimp only at hnext hsilent
      rw [hsilent]
      exact ih hnext

/-- Text without a bell and without an introducer leaves only its last escape pending. -/
theorem passed_of_plain {data : Text} {pendingEscape : Bool} (hbell : BEL ∉ data)
    (hincludes : containsOscIntroducer data = false)
    (hfirst : pendingEscape = true → data.head? ≠ some 0x5d) :
    rings ⟨pendingEscape, false, false⟩ data = false ∧ passed ⟨pendingEscape, false, false⟩ data =
        ⟨if data = [] then pendingEscape else data.getLast? = some ESCAPE, false, false⟩ := by
  induction data generalizing pendingEscape with
  | nil => exact ⟨rfl, rfl⟩
  | cons char rest ih =>
    rw [mem_cons, not_or] at hbell
    obtain ⟨hstands, hrest⟩ := TextSearch.includes_cons_of_false hincludes
    have hunit : readUnit ⟨pendingEscape, false, false⟩ char =
        (⟨decide (char = ESCAPE), false, false⟩, false) := by
      have hsilent : decide (char = BEL) = false := decide_eq_false (Ne.symm hbell.1)
      simp only [readUnit, hsilent]
      by_cases hescape : char = ESCAPE
      · have hcancel : isCancel ESCAPE = false := by decide
        rw [hescape, hcancel]
        cases pendingEscape <;> rfl
      · cases pendingEscape with
        | false => simp only [hescape, decide_false]; rfl
        | true =>
          have hosc : char ≠ 0x5d := fun hchar => hfirst rfl (by rw [hchar]; rfl)
          simp only [hescape, hosc, decide_false]
          cases isCancel char <;> rfl
    have hnext : decide (char = ESCAPE) = true → rest.head? ≠ some 0x5d := by
      intro hescape hhead
      rw [decide_eq_true_eq] at hescape
      obtain ⟨later, rfl⟩ := head?_eq_some_iff.mp hhead
      rw [hescape] at hstands
      exact hstands (prefix_append OSC_INTRODUCER later)
    obtain ⟨hsilent, hpassed⟩ := ih hbell.2 hrest hnext
    refine ⟨by rw [rings, hunit, hsilent]; rfl, ?_⟩
    rw [passed, foldl_cons, hunit, if_neg (cons_ne_nil char rest)]
    refine hpassed.trans ?_
    cases rest with
    | nil => simp
    | cons next later => rw [if_neg (cons_ne_nil _ _), getLast?_cons_cons]

/-- A chunk's answer is right where the state is, and the state behind a chunk that rings
is the initial one. -/
theorem chunkContainsBell_eq (hsane : Sane state) (chunk : Chunk) :
    chunkContainsBell state chunk.data chunk.hint =
      if rings state chunk.data then (true, .initial) else (false, passed state chunk.data) := by
  have hhint : chunk.hint.getD (containsOscIntroducer chunk.data) =
      containsOscIntroducer chunk.data := by
    rw [Chunk.hint]
    split_ifs <;> rfl
  rw [chunkContainsBell, hhint]
  by_cases hfast : !state.inOsc ∧ !state.pendingEscape ∧ BEL ∉ chunk.data ∧
      !containsOscIntroducer chunk.data
  · rw [if_pos hfast]
    obtain ⟨hosc, hescape, hbell, hincludes⟩ := hfast
    rw [Bool.not_eq_true'] at hosc hescape hincludes
    cases hsane with
    | escaped => cases hescape
    | osc pendingOscEscape => cases hosc
    | plain =>
      obtain ⟨hsilent, hpassed⟩ := @passed_of_plain _ false hbell hincludes
        fun hends => (by cases hends)
      rw [hsilent, hpassed]
      by_cases hnil : chunk.data = []
      · rw [hnil]
        rfl
      · rw [if_neg hnil]
        rfl
  · rw [if_neg hfast]
    exact scanChunk_eq hsane chunk.data

theorem answers_cons (state : BellState) (chunk : Chunk) (rest : List Chunk) :
    answers state (chunk :: rest) = (chunkContainsBell state chunk.data chunk.hint).1 ::
      answers (chunkContainsBell state chunk.data chunk.hint).2 rest := rfl

theorem bells_append (state : BellState) (chunks later : List Chunk) :
    bells state (chunks ++ later) = bells state chunks ++
      bells (passed state (chunks.flatMap fun chunk => chunk.data)) later := by
  induction chunks generalizing state with
  | nil => rfl
  | cons chunk rest ih =>
    rw [cons_append, bells, ih, bells, flatMap_cons, passed, passed, passed, foldl_append]
    rfl

variable {chunks : List Chunk}

theorem answers_append (hsane : Sane state) (hclosed : RingsClosed state chunks)
    (later : List Chunk) :
    answers state (chunks ++ later) = bells state chunks ++
      answers (passed state (chunks.flatMap fun chunk => chunk.data)) later := by
  induction chunks generalizing state with
  | nil => rfl
  | cons chunk rest ih =>
    obtain ⟨hchunk, hrest⟩ := hclosed
    have hpassed : passed state ((chunk :: rest).flatMap fun chunk => chunk.data) =
        passed (passed state chunk.data) (rest.flatMap fun chunk => chunk.data) := by
      rw [flatMap_cons, passed, foldl_append]
      rfl
    rw [cons_append, answers, chunkContainsBell_eq hsane, bells, hpassed]
    by_cases hrings : rings state chunk.data = true
    · rw [hchunk hrings] at hrest ⊢
      rw [if_pos hrings, hrings]
      exact congrArg (true :: ·) (ih .plain hrest)
    · rw [if_neg hrings, Bool.eq_false_iff.mpr hrings]
      exact congrArg (false :: ·) (ih (hsane.passed chunk.data) hrest)

theorem answers_eq_bells (hsane : Sane state) (hclosed : RingsClosed state chunks) :
    answers state chunks = bells state chunks := by
  have hanswers := answers_append hsane hclosed []
  rwa [append_nil, answers, append_nil] at hanswers

theorem RingsClosed.take (hclosed : RingsClosed state chunks) (count : ℕ) :
    RingsClosed state (chunks.take count) := by
  induction chunks generalizing state count with
  | nil => rw [take_nil]; trivial
  | cons chunk rest ih =>
    cases count with
    | zero => trivial
    | succ count => exact ⟨hclosed.1, ih hclosed.2 count⟩

theorem exists_rings (hsane : Sane state) (hopen : state ≠ .initial) :
    ∃ data, rings .initial data = true ∧ rings state data = false := by
  cases hsane with
  | plain => exact absurd rfl hopen
  | escaped => exact ⟨[0x5d, BEL], by decide⟩
  | osc pendingOscEscape =>
    refine ⟨[BEL], by decide, ?_⟩
    cases pendingOscEscape <;> decide

/-- Behind a chunk that rings and leaves something open, some chunk is answered wrongly. -/
theorem exists_wrong_answer (hsane : Sane state) (hopen : ¬ RingsClosed state chunks) :
    ∃ count next,
      answers state (chunks.take count ++ [next]) ≠ bells state (chunks.take count ++ [next]) := by
  induction chunks generalizing state with
  | nil => exact absurd trivial hopen
  | cons chunk rest ih =>
    by_cases hchunk : rings state chunk.data = true → passed state chunk.data = .initial
    · have hrest : ¬ RingsClosed (passed state chunk.data) rest :=
        fun hclosed => hopen ⟨hchunk, hclosed⟩
      obtain ⟨count, next, hwrong⟩ := ih (hsane.passed chunk.data) hrest
      refine ⟨count + 1, next, fun hagrees => hwrong ?_⟩
      have hdetector : (chunkContainsBell state chunk.data chunk.hint).2 =
          passed state chunk.data := by
        rw [chunkContainsBell_eq hsane]
        split_ifs with hrings
        · exact (hchunk hrings).symm
        · rfl
      rw [take_succ_cons, cons_append, answers_cons, bells] at hagrees
      have htail := (List.cons.inj hagrees).2
      rwa [hdetector] at htail
    · obtain ⟨hrings, hleft⟩ := Classical.not_imp.mp hchunk
      obtain ⟨data, hbell, hsilent⟩ := exists_rings (hsane.passed chunk.data) hleft
      refine ⟨1, ⟨data, false⟩, fun hagrees => ?_⟩
      rw [take_succ_cons, take_zero, cons_append, nil_append,
        answers_cons, bells, chunkContainsBell_eq hsane, if_pos hrings] at hagrees
      have htail := (List.cons.inj hagrees).2
      rw [answers_cons, bells, chunkContainsBell_eq sane_initial ⟨data, false⟩, hsilent,
        if_pos hbell] at htail
      cases (List.cons.inj htail).1

/-- The detector answers every chunk rightly where no chunk that rings leaves an escape or an
OSC open; behind one that does, there is a chunk it answers wrongly. -/
theorem bell_detection (chunks : List Chunk) : (RingsClosed .initial chunks → Agrees chunks) ∧
      (RingsClosed .initial chunks ↔ ∀ count next, Agrees (chunks.take count ++ [next])) := by
  refine ⟨answers_eq_bells sane_initial, fun hclosed count next => ?_, fun hagrees => ?_⟩
  · have hsane := sane_initial.passed ((chunks.take count).flatMap fun chunk => chunk.data)
    have hlast : answers (passed .initial ((chunks.take count).flatMap fun chunk => chunk.data))
        [next] = bells (passed .initial
          ((chunks.take count).flatMap fun chunk => chunk.data)) [next] := by
      rw [answers_cons, chunkContainsBell_eq hsane, bells]
      split_ifs with hrings
      · rw [hrings]
        rfl
      · rw [Bool.eq_false_iff.mpr hrings]
        rfl
    rw [Agrees, answers_append sane_initial (hclosed.take count), bells_append, hlast]
  · by_contra hopen
    obtain ⟨count, next, hwrong⟩ := exists_wrong_answer sane_initial hopen
    exact hwrong (hagrees count next)

/-- A bell and the start of a title in one chunk: the bell that ends the title rings. -/
theorem title_end_rings : ¬ Agrees [⟨[BEL, ESCAPE, 0x5d, 0x30], true⟩, ⟨[BEL], true⟩] := by
  rw [Agrees]
  decide

theorem bell_detection_plain :
    answers .initial [⟨[0x61, BEL], true⟩, ⟨[ESCAPE, 0x5d, 0x30], true⟩, ⟨[BEL], true⟩] =
      [true, false, false] :=
  (bell_detection [⟨[0x61, BEL], true⟩, ⟨[ESCAPE, 0x5d, 0x30], true⟩, ⟨[BEL], true⟩]).1
    ⟨by decide, by decide, by decide, trivial⟩

end Wakii.Terminal.BellDetector
