import Mathlib.Data.List.Infix

/-!
# Sequences read out of a stream

A sequence starts with an introducer and holds no other one, so an introducer always
starts anew and a single pass finds what a search at every place would.  What a text ends
in the middle of is carried, where it is short, and read again before what follows.
-/

namespace SequenceReader

inductive Step (S M : Type)
  | stop
  | more (state : S)
  | found (sequence : M)

structure Reader (A S M : Type) where
  enter : A → Option S
  step : S → A → Step S M

/-- A sequence that is open, with the text from its introducer on. -/
abbrev Open (A S : Type) := Option (S × List A)

def kept {A S : Type} (limit : ℕ) : Open A S → List A
  | none => []
  | some (_, text) => if text.length ≤ limit then text else []

namespace Reader

variable {A S M : Type} (reader : Reader A S M)

/-- The sequence an item completes, with its text, and the one that is open behind it. -/
def advance (state : Open A S) (item : A) : Option (M × List A) × Open A S :=
  match reader.enter item with
  | some entered => (none, some (entered, [item]))
  | none =>
    match state with
    | none => (none, none)
    | some inner =>
      match reader.step inner.1 item with
      | .stop => (none, none)
      | .more next => (none, some (next, inner.2 ++ [item]))
      | .found sequence => (some (sequence, inner.2 ++ [item]), none)

def read : Open A S → List A → List (M × List A) × Open A S
  | state, [] => ([], state)
  | state, item :: rest =>
    let behind := read (reader.advance state item).2 rest
    ((reader.advance state item).1.toList ++ behind.1, behind.2)

def sequences (text : List A) : List (M × List A) := (reader.read none text).1

def carried (limit : ℕ) (text : List A) : List A := kept limit (reader.read none text).2

variable {reader} {text later : List A} {limit : ℕ}

theorem read_append (state : Open A S) (text later : List A) : reader.read state (text ++ later) =
      ((reader.read state text).1 ++ (reader.read (reader.read state text).2 later).1,
        (reader.read (reader.read state text).2 later).2) := by
  induction text generalizing state with
  | nil => rfl
  | cons item rest ih => simp only [List.cons_append, read, ih, List.append_assoc]

/-- The text of an open sequence, read again, leads back into it. -/
def Resumes (reader : Reader A S M) (state : Open A S) : Prop :=
  ∀ inner, state = some inner → reader.read none inner.2 = ([], some inner)

theorem Resumes.advance {state : Open A S} (hresumes : reader.Resumes state) (item : A) :
    reader.Resumes (reader.advance state item).2 := by
  intro inner hinner
  cases henter : reader.enter item with
  | some entered =>
    simp only [Reader.advance, henter] at hinner
    cases hinner
    simp only [read, Reader.advance, henter]
    rfl
  | none =>
    simp only [Reader.advance, henter] at hinner
    cases state with
    | none => cases hinner
    | some prior =>
      have hprior := hresumes prior rfl
      cases hstep : reader.step prior.1 item with
      | stop =>
        simp only [hstep] at hinner
        cases hinner
      | found sequence =>
        simp only [hstep] at hinner
        cases hinner
      | more next =>
        simp only [hstep] at hinner
        cases hinner
        rw [read_append, hprior]
        simp only [read, Reader.advance, henter, hstep]
        rfl

theorem Resumes.read {state : Open A S} (hresumes : reader.Resumes state) (text : List A) :
    reader.Resumes (reader.read state text).2 := by
  induction text generalizing state with
  | nil => exact hresumes
  | cons item rest ih => exact ih (hresumes.advance item)

/-- What is read behind a sequence that is too long to be carried. -/
theorem read_dropped {inner : S × List A} (hlong : limit < inner.2.length) :
    kept limit (reader.read (some inner) text).2 = kept limit (reader.read none text).2 ∧
      ((∀ sequence ∈ (reader.read (some inner) text).1, sequence.2.length ≤ limit) →
        (reader.read (some inner) text).1 = (reader.read none text).1) := by
  induction text generalizing inner with
  | nil => exact ⟨if_neg (Nat.not_le.mpr hlong), fun _ => rfl⟩
  | cons item rest ih =>
    have hmore : limit < (inner.2 ++ [item]).length := by
      rw [List.length_append]
      exact Nat.lt_add_right _ hlong
    simp only [read, advance]
    cases reader.enter item with
    | some entered => exact ⟨rfl, fun _ => rfl⟩
    | none =>
      dsimp only
      cases reader.step inner.1 item with
      | stop => exact ⟨rfl, fun _ => rfl⟩
      | more next => exact @ih (next, inner.2 ++ [item]) hmore
      | found sequence =>
        exact ⟨rfl, fun hshort =>
          absurd (hshort (sequence, _) List.mem_cons_self) (Nat.not_le.mpr hmore)⟩

/-- A text that goes on, where no sequence is longer than what is carried. -/
theorem sequences_append
    (hshort : ∀ sequence ∈ reader.sequences (text ++ later), sequence.2.length ≤ limit) :
    reader.sequences (text ++ later) =
      reader.sequences text ++ reader.sequences (reader.carried limit text ++ later) := by
  have hresumes := Resumes.read (fun _ => nofun : reader.Resumes none) text
  rw [sequences, read_append] at hshort ⊢
  refine congrArg (_ ++ ·) ?_
  rw [carried, sequences]
  cases hopen : (reader.read none text).2 with
  | none => rfl
  | some inner =>
    rw [hopen] at hshort
    rw [kept]
    split_ifs with hfits
    · rw [read_append, hresumes inner hopen]
      rfl
    · exact (read_dropped (Nat.lt_of_not_le hfits)).2 fun sequence hsequence =>
        hshort sequence (List.mem_append_right _ hsequence)

theorem carried_append (text later : List A) : reader.carried limit (text ++ later) =
    reader.carried limit (reader.carried limit text ++ later) := by
  have hresumes := Resumes.read (fun _ => nofun : reader.Resumes none) text
  simp only [carried, read_append none text]
  cases hopen : (reader.read none text).2 with
  | none => rfl
  | some inner =>
    rw [kept]
    split_ifs with hfits
    · rw [read_append, hresumes inner hopen]
    · exact (read_dropped (Nat.lt_of_not_le hfits)).1

end Reader

end SequenceReader
