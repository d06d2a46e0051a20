import Mathlib.Algebra.Order.Group.Nat
import Mathlib.Data.List.Induction

/-!
# Batches of a list

Items are put into batches in their order.  A batch is closed when the next item
would take its cost over the limit, or when it holds as many items as it may; an
item that is alone in its batch may cost what it likes.
-/

namespace Batches

open List

variable {A : Type*} (cost : List A → ℕ) (limit cap : ℕ)

/-- The batches closed so far and the one being filled, after the next item. -/
def push (state : List (List A) × List A) (item : A) : List (List A) × List A :=
  let room := if state.2 ≠ [] ∧ limit < cost (state.2 ++ [item]) then (state.1 ++ [state.2], [])
    else state
  let pending := room.2 ++ [item]
  if pending.length = cap then (room.1 ++ [pending], []) else (room.1, pending)

def closed (state : List (List A) × List A) : List (List A) :=
  if state.2 = [] then state.1 else state.1 ++ [state.2]

def batches (items : List A) : List (List A) := closed (items.foldl (push cost limit cap) ([], []))

/-- A batch that may be written. -/
structure Fits (batch : List A) : Prop where
  nonempty : batch ≠ []
  length : batch.length ≤ cap
  cost : 1 < batch.length → cost batch ≤ limit

/-- What holds of the batches while they are filled. -/
structure Filled (items : List A) (state : List (List A) × List A) : Prop where
  items : state.1.flatten ++ state.2 = items
  closed : ∀ batch ∈ state.1, Fits cost limit cap batch
  room : state.2.length < cap
  pending : 1 < state.2.length → cost state.2 ≤ limit

variable {cost limit cap} {items : List A} {state : List (List A) × List A}

theorem Filled.init (hcap : 0 < cap) : Filled cost limit cap ([] : List A) ([], []) where
  items := rfl
  closed _ hbatch := absurd hbatch not_mem_nil
  room := hcap
  pending hlength := absurd hlength (Nat.not_lt_zero 1)

theorem Filled.close (hfilled : Filled cost limit cap items state) (hsome : state.2 ≠ []) :
    Filled cost limit cap items (state.1 ++ [state.2], []) where
  items := by
    rw [flatten_append, flatten_singleton, append_nil]
    exact hfilled.items
  closed batch hbatch := by
    rcases mem_append.mp hbatch with hclosed | hpending
    · exact hfilled.closed batch hclosed
    · rw [mem_singleton.mp hpending]
      exact ⟨hsome, hfilled.room.le, hfilled.pending⟩
  room := Nat.lt_of_le_of_lt (Nat.zero_le _) hfilled.room
  pending hlength := absurd hlength (Nat.not_lt_zero 1)

theorem Filled.push (hfilled : Filled cost limit cap items state) (item : A) :
    Filled cost limit cap (items ++ [item]) (Batches.push cost limit cap state item) := by
  have hadd {room : List (List A) × List A} (hroom : Filled cost limit cap items room)
      (hcost : room.2 ≠ [] → cost (room.2 ++ [item]) ≤ limit) :
      Filled cost limit cap (items ++ [item])
        (if (room.2 ++ [item]).length = cap then (room.1 ++ [room.2 ++ [item]], [])
        else (room.1, room.2 ++ [item])) := by
    have hitems : room.1.flatten ++ (room.2 ++ [item]) = items ++ [item] := by
      rw [← append_assoc, hroom.items]
    have hlength : (room.2 ++ [item]).length = room.2.length + 1 := by
      rw [length_append, length_singleton]
    have hfits : 1 < (room.2 ++ [item]).length → cost (room.2 ++ [item]) ≤ limit := by
      intro hmany
      refine hcost fun hnil => ?_
      rw [hlength, hnil] at hmany
      exact Nat.lt_irrefl 1 hmany
    have hbelow := hroom.room
    split_ifs with hfull
    · refine ⟨?_, ?_, Nat.lt_of_le_of_lt (Nat.zero_le _) hbelow,
        fun hmany => absurd hmany (Nat.not_lt_zero 1)⟩
      · rw [flatten_append, flatten_singleton, append_nil]
        exact hitems
      · intro batch hbatch
        rcases mem_append.mp hbatch with hclosed | hnew
        · exact hroom.closed batch hclosed
        · rw [mem_singleton.mp hnew]
          exact ⟨append_ne_nil_of_right_ne_nil _ (cons_ne_nil _ _), hfull.le, hfits⟩
    · refine ⟨hitems, hroom.closed, ?_, hfits⟩
      dsimp only
      omega
  rw [Batches.push]
  by_cases hover : state.2 ≠ [] ∧ limit < cost (state.2 ++ [item])
  · rw [if_pos hover]
    exact hadd (hfilled.close hover.1) fun hnil => absurd rfl hnil
  · rw [if_neg hover]
    exact hadd hfilled fun hsome => by
      by_contra hlimit
      exact hover ⟨hsome, Nat.lt_of_not_le hlimit⟩

theorem Filled.run (hcap : 0 < cap) (items : List A) :
    Filled cost limit cap items (items.foldl (Batches.push cost limit cap) ([], [])) := by
  induction items using List.reverseRecOn with
  | nil => exact .init hcap
  | append_singleton before item ih =>
    rw [foldl_append, foldl_cons, foldl_nil]
    exact ih.push item

theorem Filled.flatten_closed (hfilled : Filled cost limit cap items state) :
    (Batches.closed state).flatten = items := by
  rw [Batches.closed]
  split_ifs with hnil
  · rw [← hfilled.items, hnil, append_nil]
  · rw [flatten_append, flatten_singleton, hfilled.items]

theorem Filled.fits (hfilled : Filled cost limit cap items state) :
    ∀ batch ∈ Batches.closed state, Fits cost limit cap batch := by
  intro batch hbatch
  rw [Batches.closed] at hbatch
  split_ifs at hbatch with hnil
  · exact hfilled.closed batch hbatch
  · rcases mem_append.mp hbatch with hclosed | hpending
    · exact hfilled.closed batch hclosed
    · rw [mem_singleton.mp hpending]
      exact ⟨hnil, hfilled.room.le, hfilled.pending⟩

theorem flatten_batches (hcap : 0 < cap) (items : List A) :
    (batches cost limit cap items).flatten = items :=
  (Filled.run hcap items).flatten_closed

theorem fits_batches (hcap : 0 < cap) (items : List A) :
    ∀ batch ∈ batches cost limit cap items, Fits cost limit cap batch :=
  (Filled.run hcap items).fits

theorem length_batches_le (hcap : 0 < cap) (items : List A) :
    (batches cost limit cap items).length ≤ items.length := by
  have hbatches : ∀ batch ∈ batches cost limit cap items, Fits cost limit cap batch :=
    fits_batches hcap items
  have hcount : ∀ groups : List (List A), (∀ group ∈ groups, group ≠ []) →
      groups.length ≤ groups.flatten.length := by
    intro groups hgroups
    induction groups with
    | nil => exact Nat.le_refl 0
    | cons group rest ih =>
      have hgroup := length_pos_iff.mpr (hgroups group mem_cons_self)
      have hrest := ih fun other hother => hgroups other (mem_cons_of_mem _ hother)
      rw [flatten_cons, length_append, length_cons]
      omega
  have hle := hcount _ fun group hgroup => (hbatches group hgroup).nonempty
  rwa [flatten_batches hcap] at hle

example : batches List.sum 5 3 [1, 1, 1, 1, 9, 2] = [[1, 1, 1], [1], [9], [2]] := by decide

end Batches
