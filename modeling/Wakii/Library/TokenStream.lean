import Wakii.Library.FrameStream

/-!
# Streams read token by token

A scanner decides the token at the front of what it has, or waits for more, and rejects
nothing.  Tokens keep the text they were read from, so what is said of their places in
the stream does not depend on how the stream was cut.
-/

namespace TokenStream

open List

/-- A scanner whose decisions are final. -/
structure Scanner (A T : Type) where
  next : List A → Option T
  source : T → List A
  source_ne_nil : ∀ {input token}, next input = some token → source token ≠ []
  source_prefix : ∀ {input token}, next input = some token → source token <+: input
  next_append : ∀ {input token}, next input = some token →
    ∀ later, next (input ++ later) = some token

variable {A T : Type} (scanner : Scanner A T)

namespace Scanner

def cut (input : List A) : FrameStream.Cut A T Empty :=
  match scanner.next input with
  | none => .more
  | some token => .frame token (input.drop (scanner.source token).length)

variable {scanner} {input behind : List A} {token : T}

theorem cut_none (hnext : scanner.next input = none) : scanner.cut input = .more := by
  rw [cut, hnext]

theorem cut_some (hnext : scanner.next input = some token) :
    scanner.cut input = .frame token (input.drop (scanner.source token).length) := by
  rw [cut, hnext]

theorem next_of_more (hcut : scanner.cut input = .more) : scanner.next input = none := by
  cases hnext : scanner.next input with
  | none => rfl
  | some token =>
    rw [cut_some hnext] at hcut
    cases hcut

theorem next_of_cut (hcut : scanner.cut input = .frame token behind) :
    scanner.next input = some token ∧ input.drop (scanner.source token).length = behind := by
  cases hnext : scanner.next input with
  | none =>
    rw [cut_none hnext] at hcut
    cases hcut
  | some other =>
    rw [cut_some hnext] at hcut
    cases hcut
    exact ⟨rfl, rfl⟩

theorem source_append (hnext : scanner.next input = some token) :
    scanner.source token ++ input.drop (scanner.source token).length = input := by
  obtain ⟨rest, hrest⟩ := scanner.source_prefix hnext
  rw [← hrest, drop_left]

variable (scanner)

def format : FrameStream.Format A T Empty where
  cut := scanner.cut
  rest_lt hcut := by
    obtain ⟨hnext, rfl⟩ := next_of_cut hcut
    have hsource := length_pos_iff.mpr (scanner.source_ne_nil hnext)
    have hlength := (scanner.source_prefix hnext).length_le
    rw [length_drop]
    omega
  frame_append hcut later := by
    obtain ⟨hnext, rfl⟩ := next_of_cut hcut
    rw [cut_some (scanner.next_append hnext later),
      drop_append_of_le_length (scanner.source_prefix hnext).length_le]
  invalid_append {_ error} := error.elim

def tokens (input : List A) : List T := (FrameStream.read scanner.format input).1

def rest (input : List A) : List A :=
  match (FrameStream.read scanner.format input).2 with
  | .unread unread => unread
  | .stopped error => error.elim

def Fits (limit : ℕ) (stream : List A) : Prop :=
  ∀ front, front <+: stream → (scanner.rest front).length ≤ limit

theorem outcome_eq (input : List A) :
    (FrameStream.read scanner.format input).2 = .unread (scanner.rest input) := by
  rw [rest]
  cases (FrameStream.read scanner.format input).2 with
  | unread unread => rfl
  | stopped error => exact error.elim

section Reading

variable {scanner}

theorem tokens_none (hnext : scanner.next input = none) : scanner.tokens input = [] := by
  rw [tokens, FrameStream.read_more scanner.format (cut_none hnext)]

theorem rest_none (hnext : scanner.next input = none) : scanner.rest input = input := by
  rw [rest, FrameStream.read_more scanner.format (cut_none hnext)]

theorem tokens_some (hnext : scanner.next input = some token) : scanner.tokens input =
      token :: scanner.tokens (input.drop (scanner.source token).length) := by
  rw [tokens, FrameStream.read_frame scanner.format (cut_some hnext)]
  rfl

theorem rest_some (hnext : scanner.next input = some token) :
    scanner.rest input = scanner.rest (input.drop (scanner.source token).length) := by
  rw [rest, FrameStream.read_frame scanner.format (cut_some hnext)]
  rfl

theorem tokens_append_of_next (hnext : scanner.next (scanner.source token ++ behind) = some token) :
    scanner.tokens (scanner.source token ++ behind) = token :: scanner.tokens behind := by
  rw [tokens_some hnext, drop_left]

end Reading

/-- A text that goes on is read on from what it ended in the middle of. -/
theorem tokens_append (input later : List A) : scanner.tokens (input ++ later) =
    scanner.tokens input ++ scanner.tokens (scanner.rest input ++ later) := by
  rw [tokens, FrameStream.read_append scanner.format, scanner.outcome_eq input]
  rfl

theorem rest_append (input later : List A) :
    scanner.rest (input ++ later) = scanner.rest (scanner.rest input ++ later) := by
  rw [rest, FrameStream.read_append scanner.format, scanner.outcome_eq input]
  rfl

theorem sources_append_rest (input : List A) :
    (scanner.tokens input).flatMap scanner.source ++ scanner.rest input = input := by
  induction input using FrameStream.read.induct scanner.format with
  | case1 input hcut =>
    have hnext := next_of_more hcut
    rw [tokens_none hnext, rest_none hnext, flatMap_nil, nil_append]
  | case2 input token behind hcut ih =>
    obtain ⟨hnext, rfl⟩ := next_of_cut hcut
    rw [tokens_some hnext, rest_some hnext, flatMap_cons, append_assoc, ih, source_append hnext]
  | case3 input error hcut => exact error.elim

theorem next_rest (input : List A) : scanner.next (scanner.rest input) = none := by
  induction input using FrameStream.read.induct scanner.format with
  | case1 input hcut =>
    rw [rest_none (next_of_more hcut)]
    exact next_of_more hcut
  | case2 input token behind hcut ih =>
    obtain ⟨hnext, rfl⟩ := next_of_cut hcut
    rw [rest_some hnext]
    exact ih
  | case3 input error hcut => exact error.elim

/-- Each token was decided at the front of some text. -/
theorem exists_next_of_mem {input : List A} {token : T} (htoken : token ∈ scanner.tokens input) :
    ∃ front, scanner.next front = some token := by
  obtain ⟨front, behind, hcut⟩ := FrameStream.exists_cut_of_mem_read scanner.format htoken
  exact ⟨front, (next_of_cut hcut).1⟩

theorem length_rest_le (input : List A) : (scanner.rest input).length ≤ input.length := by
  have hlength := congrArg List.length (scanner.sources_append_rest input)
  rw [length_append] at hlength
  omega

theorem fits_of_length_le {limit : ℕ} {stream : List A} (hlength : stream.length ≤ limit) :
    scanner.Fits limit stream := fun front hfront =>
  Nat.le_trans (scanner.length_rest_le front) (Nat.le_trans hfront.length_le hlength)

end Scanner

end TokenStream
