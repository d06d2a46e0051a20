import Mathlib.Data.Int.Notation
import Mathlib.Data.List.Basic

/-!
# A longest increasing part of a list

Entries have positions, and the part looked for keeps the list's order with
rising positions.  From the end of the list on, each entry gets the length of
a longest such part that starts with it; one walk from the front then picks the
first entry of the length still wanted.
-/

namespace LongestIncreasing

variable {A : Type*} (position : A → ℕ)

open List

def Increasing (entries : List A) : Prop :=
  entries.Pairwise fun before after => position before < position after

@[simp] def largest (start : ℕ) (values : List ℕ) : ℕ :=
  values.foldl max start

/-- One more than the best length among the later entries at higher positions. -/
def lengthFrom (first : A) (later : List (A × ℕ)) : ℕ :=
  largest 1 ((later.filter fun entry => position first < position entry.1).map fun entry =>
    1 + entry.2)

@[simp] def withLengths : List A → List (A × ℕ)
  | [] => []
  | first :: rest => (first, lengthFrom position first (withLengths rest)) :: withLengths rest

def longest (entries : List (A × ℕ)) : ℕ :=
  largest 0 (entries.map Prod.snd)

/-- The walk that picks each entry of the length still wanted, above the last position. -/
@[simp] def pick : ℕ → ℤ → List (A × ℕ) → List A
  | _, _, [] => []
  | remaining, previous, (first, length) :: rest =>
    if previous < (position first : ℤ) ∧ length = remaining then
      first :: pick (remaining - 1) (position first) rest
    else
      pick remaining previous rest

theorem start_le_largest (start : ℕ) (values : List ℕ) : start ≤ largest start values := by
  induction values generalizing start with
  | nil => exact Nat.le_refl start
  | cons value rest ih => exact Nat.le_trans (Nat.le_max_left start value) (ih (max start value))

theorem le_largest {start value : ℕ} {values : List ℕ} (hmem : value ∈ values) :
    value ≤ largest start values := by
  induction values generalizing start with
  | nil => exact absurd hmem not_mem_nil
  | cons head rest ih =>
    rcases mem_cons.mp hmem with rfl | hrest
    · exact Nat.le_trans (Nat.le_max_right start value) (start_le_largest (max start value) rest)
    · exact ih hrest

theorem largest_attained (start : ℕ) (values : List ℕ) :
    largest start values = start ∨ largest start values ∈ values := by
  induction values generalizing start with
  | nil => exact Or.inl rfl
  | cons value rest ih =>
    rcases ih (max start value) with hstart | hrest
    · rcases Nat.le_total start value with hle | hle
      · exact Or.inr (mem_cons.mpr (Or.inl (hstart.trans (Nat.max_eq_right hle))))
      · exact Or.inl (hstart.trans (Nat.max_eq_left hle))
    · exact Or.inr (mem_cons_of_mem value hrest)

variable {position}

theorem withLengths_map_fst (entries : List A) :
    (withLengths position entries).map Prod.fst = entries := by
  induction entries with
  | nil => rfl
  | cons first rest ih => exact congrArg (first :: ·) ih

theorem one_le_lengthFrom (first : A) (later : List (A × ℕ)) :
    1 ≤ lengthFrom position first later := start_le_largest 1 _

theorem lengthFrom_of_later {first : A} {entry : A × ℕ} {later : List (A × ℕ)}
    (hmem : entry ∈ later) (hlt : position first < position entry.1) :
    1 + entry.2 ≤ lengthFrom position first later := by
  refine le_largest (mem_map.mpr ⟨entry, ?_, rfl⟩)
  exact mem_filter.mpr ⟨hmem, decide_eq_true hlt⟩

theorem lengthFrom_attained (first : A) (later : List (A × ℕ)) :
    lengthFrom position first later = 1 ∨ ∃ entry ∈ later,
      position first < position entry.1 ∧ lengthFrom position first later = 1 + entry.2 := by
  rcases largest_attained 1 ((later.filter fun entry =>
    position first < position entry.1).map fun entry => 1 + entry.2) with hone | hlater
  · exact Or.inl hone
  · obtain ⟨entry, hentry, hlength⟩ := mem_map.mp hlater
    have hmem := mem_filter.mp hentry
    exact Or.inr ⟨entry, hmem.1, of_decide_eq_true hmem.2, hlength.symm⟩

theorem length_le_of_cons {first : A} {part entries : List A}
    (hpart : first :: part <+ entries) (hincreasing : Increasing position (first :: part)) :
    ∃ length, (first, length) ∈ withLengths position entries ∧ part.length + 1 ≤ length := by
  induction entries generalizing first part with
  | nil => exact absurd (hpart.subset mem_cons_self) not_mem_nil
  | cons head rest ih =>
    cases hpart with
    | cons _ hlater =>
      obtain ⟨length, hmem, hle⟩ := ih hlater hincreasing
      exact ⟨length, mem_cons_of_mem _ hmem, hle⟩
    | cons_cons _ hlater =>
      refine ⟨_, mem_cons_self, ?_⟩
      cases part with
      | nil => exact one_le_lengthFrom _ _
      | cons second part =>
        have hpairs := pairwise_cons.mp hincreasing
        obtain ⟨length, hmem, hle⟩ := ih hlater hpairs.2
        have hlength := lengthFrom_of_later hmem (hpairs.1 second mem_cons_self)
        simp only [length_cons]
        omega

/-- No increasing part is longer than the longest length. -/
theorem length_le_longest {part entries : List A} (hpart : part <+ entries)
    (hincreasing : Increasing position part) :
    part.length ≤ longest (withLengths position entries) := by
  cases part with
  | nil => exact Nat.zero_le _
  | cons first part =>
    obtain ⟨length, hmem, hle⟩ := length_le_of_cons hpart hincreasing
    exact Nat.le_trans hle (le_largest (mem_map.mpr ⟨_, hmem, rfl⟩))

theorem pick_sublist (remaining : ℕ) (previous : ℤ) (entries : List (A × ℕ)) :
    pick position remaining previous entries <+ entries.map Prod.fst := by
  induction entries generalizing remaining previous with
  | nil => exact Sublist.refl []
  | cons entry rest ih =>
    rw [pick, map_cons]
    split_ifs with htaken
    · exact (ih _ _).cons_cons _
    · exact (ih _ _).cons _

theorem pick_above {remaining : ℕ} {previous : ℤ} {entries : List (A × ℕ)} {entry : A}
    (hmem : entry ∈ pick position remaining previous entries) :
    previous < (position entry : ℤ) := by
  induction entries generalizing remaining previous with
  | nil => exact absurd hmem not_mem_nil
  | cons head rest ih =>
    rw [pick] at hmem
    split_ifs at hmem with htaken
    · rcases mem_cons.mp hmem with rfl | hrest
      · exact htaken.1
      · exact Int.lt_trans htaken.1 (ih hrest)
    · exact ih hmem

theorem pick_increasing (remaining : ℕ) (previous : ℤ) (entries : List (A × ℕ)) :
    Increasing position (pick position remaining previous entries) := by
  induction entries generalizing remaining previous with
  | nil => exact Pairwise.nil
  | cons head rest ih =>
    rw [pick]
    split_ifs with htaken
    · refine pairwise_cons.mpr ⟨fun entry hentry => ?_, ih _ _⟩
      exact Int.ofNat_lt.mp (pick_above hentry)
    · exact ih _ _

theorem pick_zero (previous : ℤ) (entries : List A) :
    pick position 0 previous (withLengths position entries) = [] := by
  induction entries generalizing previous with
  | nil => rfl
  | cons first rest ih =>
    have hlength := @one_le_lengthFrom A position first (withLengths position rest)
    rw [withLengths, pick, if_neg fun htaken => by omega]
    exact ih previous

/-- A walk finds the length it looks for when some entry above the last position has it. -/
theorem length_pick {entries : List A} {remaining : ℕ} {previous : ℤ} {entry : A × ℕ}
    (hmem : entry ∈ withLengths position entries) (hlength : entry.2 = remaining)
    (habove : previous < (position entry.1 : ℤ)) :
    (pick position remaining previous (withLengths position entries)).length = remaining := by
  induction entries generalizing remaining previous entry with
  | nil => exact absurd hmem not_mem_nil
  | cons first rest ih =>
    rw [withLengths, pick]
    split_ifs with htaken
    · rw [← htaken.2, length_cons]
      rcases @lengthFrom_attained A position first (withLengths position rest) with
        hone | ⟨next, hnext, hlt, hmore⟩
      · rw [hone, Nat.sub_self, pick_zero, length_nil]
      · have hrest := ih hnext rfl (Int.ofNat_lt.mpr hlt)
        rw [hmore, Nat.add_sub_cancel_left, hrest, Nat.add_comm]
    · rcases mem_cons.mp hmem with rfl | hlater
      · exact absurd ⟨habove, hlength⟩ htaken
      · exact ih hlater hlength habove

/-- The whole walk picks as many entries as the longest length says. -/
theorem length_pick_longest (entries : List A) :
    (pick position (longest (withLengths position entries)) (-1)
      (withLengths position entries)).length = longest (withLengths position entries) := by
  rcases largest_attained 0 ((withLengths position entries).map Prod.snd) with hzero | hmem
  · rw [show longest (withLengths position entries) = 0 from hzero, pick_zero, length_nil]
  · obtain ⟨entry, hentry, hlength⟩ := mem_map.mp hmem
    exact length_pick hentry hlength (by omega)

end LongestIncreasing
