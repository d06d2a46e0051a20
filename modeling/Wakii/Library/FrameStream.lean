import Mathlib.Data.List.Basic

/-!
# Streams cut into frames

A format looks at the front of what was received and waits for more, cuts a
frame off, or gives up.  If more input never changes a cut that was made, then
reading chunk by chunk gives what reading the whole stream at once gives.
-/

namespace FrameStream

open List

variable {A F E : Type}

inductive Cut (A F E : Type) where
  | more
  | frame (frame : F) (rest : List A)
  | invalid (error : E)

/-- A format whose cuts are final. -/
structure Format (A F E : Type) where
  cut : List A → Cut A F E
  rest_lt : ∀ {input frame rest}, cut input = .frame frame rest → rest.length < input.length
  frame_append : ∀ {input frame rest}, cut input = .frame frame rest →
    ∀ later, cut (input ++ later) = .frame frame (rest ++ later)
  invalid_append : ∀ {input error}, cut input = .invalid error →
    ∀ later, cut (input ++ later) = .invalid error

/-- Where a reader stands: with input it has not cut yet, or stopped for good. -/
inductive Outcome (A E : Type) where
  | unread (input : List A)
  | stopped (error : E)

variable (format : Format A F E)

def read (input : List A) : List F × Outcome A E :=
  match _hcut : format.cut input with
  | .more => ([], .unread input)
  | .frame frame rest => (frame :: (read rest).1, (read rest).2)
  | .invalid error => ([], .stopped error)
termination_by input.length
decreasing_by all_goals exact format.rest_lt _hcut

def feed : Outcome A E → List A → List F × Outcome A E
  | .unread input, chunk => read format (input ++ chunk)
  | .stopped error, _ => ([], .stopped error)

def feedAll : Outcome A E → List (List A) → List F × Outcome A E
  | outcome, [] => ([], outcome)
  | outcome, chunk :: rest =>
    ((feed format outcome chunk).1 ++ (feedAll (feed format outcome chunk).2 rest).1,
      (feedAll (feed format outcome chunk).2 rest).2)

section Reading

variable {input rest : List A} {frame : F} {error : E}

theorem read_more (hcut : format.cut input = .more) : read format input = ([], .unread input) := by
  rw [read]
  split <;> simp_all

theorem read_frame (hcut : format.cut input = .frame frame rest) :
    read format input = (frame :: (read format rest).1, (read format rest).2) := by
  rw [read]
  split <;> simp_all

theorem read_invalid (hcut : format.cut input = .invalid error) :
    read format input = ([], .stopped error) := by
  rw [read]
  split <;> simp_all

/-- Input that arrives later is read after what was read before it. -/
theorem read_append (input later : List A) : read format (input ++ later) =
      ((read format input).1 ++ (feed format (read format input).2 later).1,
        (feed format (read format input).2 later).2) := by
  induction input using read.induct format with
  | case1 input hcut =>
    rw [read_more format hcut]
    rfl
  | case2 input frame rest hcut ih =>
    rw [read_frame format hcut, read_frame format (format.frame_append hcut later), ih]
    rfl
  | case3 input error hcut =>
    rw [read_invalid format hcut, read_invalid format (format.invalid_append hcut later)]
    rfl

/-- Each frame that is read was cut off some input. -/
theorem exists_cut_of_mem_read {input : List A} {frame : F}
    (hframe : frame ∈ (read format input).1) :
    ∃ front rest, format.cut front = .frame frame rest := by
  induction input using read.induct format with
  | case1 input hcut =>
    rw [read_more format hcut] at hframe
    exact absurd hframe not_mem_nil
  | case2 input first rest hcut ih =>
    rw [read_frame format hcut] at hframe
    rcases mem_cons.mp hframe with rfl | hlater
    · exact ⟨input, rest, hcut⟩
    · exact ih hlater
  | case3 input error hcut =>
    rw [read_invalid format hcut] at hframe
    exact absurd hframe not_mem_nil

/-- What is left unread waits for more. -/
theorem cut_unread {input unread : List A} (hread : (read format input).2 = .unread unread) :
    format.cut unread = .more := by
  induction input using read.induct format with
  | case1 input hcut =>
    rw [read_more format hcut] at hread
    cases hread
    exact hcut
  | case2 input frame rest hcut ih =>
    rw [read_frame format hcut] at hread
    exact ih hread
  | case3 input error hcut =>
    rw [read_invalid format hcut] at hread
    cases hread

theorem feedAll_stopped (chunks : List (List A)) :
    feedAll format (.stopped error) chunks = ([], .stopped error) := by
  induction chunks with
  | nil => rfl
  | cons chunk chunks ih =>
    rw [feedAll, feed, ih]
    rfl

/-- However the stream is cut into chunks, it is read as a whole. -/
theorem feedAll_eq_read (chunks : List (List A)) (hcut : format.cut input = .more) :
    feedAll format (.unread input) chunks = read format (input ++ chunks.flatten) := by
  induction chunks generalizing input with
  | nil =>
    rw [flatten_nil, append_nil, read_more format hcut]
    rfl
  | cons chunk chunks ih =>
    rw [feedAll, feed, flatten_cons, ← append_assoc, read_append format (input ++ chunk)]
    cases hread : (read format (input ++ chunk)).2 with
    | unread unread =>
      rw [ih (cut_unread format hread)]
      rfl
    | stopped error =>
      rw [feedAll_stopped]
      rfl

theorem read_written {write : F → List A} {frames : List F}
    (hwrite : ∀ frame ∈ frames, ∀ rest, format.cut (write frame ++ rest) = .frame frame rest)
    (tail : List A) :
    read format (frames.flatMap write ++ tail) =
      (frames ++ (read format tail).1, (read format tail).2) := by
  induction frames with
  | nil => rfl
  | cons frame frames ih =>
    rw [flatMap_cons, append_assoc, read_frame format (hwrite frame mem_cons_self _),
      ih fun other hother => hwrite other (mem_cons_of_mem _ hother)]
    rfl

end Reading

end FrameStream
