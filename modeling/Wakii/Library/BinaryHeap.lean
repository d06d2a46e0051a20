import Mathlib.Data.List.Perm.Basic

/-!
# A binary heap in a list

The sifts move a hole through the list and fill it at the end.  Whatever the
order of the keys, an operation keeps the entries of the heap apart from the one
it adds or takes away.
-/

namespace BinaryHeap

open List

variable {A : Type*} (rank : A → ℕ)

def siftUp (entry : A) : ℕ → List A → ℕ → List A
  | 0, items, index => items.set index entry
  | fuel + 1, items, index =>
    if index = 0 then items.set index entry
    else
      let parent := (index - 1) / 2
      match items[parent]? with
      | none => items.set index entry
      | some above =>
        if rank above ≤ rank entry then items.set index entry
        else siftUp entry fuel (items.set index above) parent

def push (items : List A) (entry : A) : List A :=
  siftUp rank entry items.length (items ++ [entry]) items.length

def lowerChild (items : List A) (cursor : ℕ) : Option (ℕ × A) :=
  let left := cursor * 2 + 1
  let right := left + 1
  match items[left]?, items[right]? with
  | none, _ => none
  | some leftItem, none => some (left, leftItem)
  | some leftItem, some rightItem =>
    if rank rightItem < rank leftItem then some (right, rightItem) else some (left, leftItem)

def siftDown (entry : A) : ℕ → List A → ℕ → List A
  | 0, items, cursor => items.set cursor entry
  | fuel + 1, items, cursor =>
    match lowerChild rank items cursor with
    | none => items.set cursor entry
    | some (child, below) =>
      if rank entry ≤ rank below then items.set cursor entry
      else siftDown entry fuel (items.set cursor below) child

def siftDownAt (items : List A) (index : ℕ) : List A :=
  match items[index]? with
  | none => items
  | some entry => siftDown rank entry items.length items index

def pop (items : List A) : List A :=
  match items.getLast? with
  | none => []
  | some last =>
    match items.dropLast with
    | [] => []
    | _ :: rest => siftDownAt rank (last :: rest) 0

def popInvalid (valid : A → Bool) : ℕ → List A → List A
  | 0, items => items
  | fuel + 1, items =>
    match items with
    | [] => []
    | entry :: rest =>
      if valid entry then entry :: rest
      else popInvalid valid fuel (pop rank (entry :: rest))

def peek (valid : A → Bool) (items : List A) : List A × Option A :=
  let kept := popInvalid rank valid items.length items
  (kept, kept.head?)

def heapify (items : List A) : List A :=
  (List.range (items.length / 2)).reverse.foldl (siftDownAt rank) items

def compactIfOversized (bound : ℕ) (valid : A → Bool) (items : List A) : List A :=
  if items.length ≤ bound then items else heapify rank (items.filter valid)

section Entries

variable {rank} {entry : A} {items : List A}

theorem set_hole_perm {hole other : ℕ} {moved : A} (hhole : hole < items.length)
    (hmoved : items[other]? = some moved) (hne : other ≠ hole) :
    (items.set hole moved).set other entry ~ items.set hole entry := by
  obtain ⟨hother, hget⟩ := List.getElem?_eq_some_iff.mp hmoved
  have hswap := @List.set_set_perm _ (items.set hole entry) hole other (by simpa using hhole)
    (by simpa using hother)
  rw [getElem_set_self, getElem_set_ne (Ne.symm hne), set_set, hget] at hswap
  exact hswap

theorem siftUp_perm (fuel : ℕ) {index : ℕ} (hindex : index < items.length) :
    siftUp rank entry fuel items index ~ items.set index entry := by
  induction fuel generalizing items index with
  | zero => rfl
  | succ fuel ih =>
    unfold siftUp
    split
    · rfl
    next hpos =>
      dsimp only
      split
      · rfl
      next above habove =>
        split
        · rfl
        · obtain ⟨hparent, -⟩ := List.getElem?_eq_some_iff.mp habove
          exact (ih (by simpa using hparent)).trans
            (set_hole_perm hindex habove (by omega))

theorem push_perm : push rank items entry ~ entry :: items := by
  have hset : (items ++ [entry]).set items.length entry = items ++ [entry] := by
    rw [set_append_right _ _ (Nat.le_refl _), Nat.sub_self]
    rfl
  have hsift := @siftUp_perm _ rank entry (items ++ [entry]) items.length items.length (by simp)
  rw [hset] at hsift
  exact hsift.trans (perm_append_singleton entry items)

theorem lowerChild_some {cursor child : ℕ} {below : A}
    (hfound : lowerChild rank items cursor = some (child, below)) :
    items[child]? = some below ∧ child ≠ cursor := by
  unfold lowerChild at hfound
  dsimp only at hfound
  split at hfound
  · cases hfound
  next hleft _ =>
    cases hfound
    exact ⟨hleft, by omega⟩
  next hleft hright =>
    split_ifs at hfound
    · cases hfound
      exact ⟨hright, by omega⟩
    · cases hfound
      exact ⟨hleft, by omega⟩

theorem siftDown_perm (fuel : ℕ) {cursor : ℕ} (hcursor : cursor < items.length) :
    siftDown rank entry fuel items cursor ~ items.set cursor entry := by
  induction fuel generalizing items cursor with
  | zero => rfl
  | succ fuel ih =>
    unfold siftDown
    split
    · rfl
    next child below hfound =>
      obtain ⟨hbelow, hne⟩ := lowerChild_some hfound
      split
      · rfl
      · obtain ⟨hchild, -⟩ := List.getElem?_eq_some_iff.mp hbelow
        exact (ih (by simpa using hchild)).trans (set_hole_perm hcursor hbelow hne)

theorem siftDownAt_perm (index : ℕ) : siftDownAt rank items index ~ items := by
  unfold siftDownAt
  split
  · rfl
  next entry hentry =>
    obtain ⟨hindex, hget⟩ := List.getElem?_eq_some_iff.mp hentry
    subst hget
    have hsift := @siftDown_perm _ rank items[index] items items.length index hindex
    rwa [set_getElem_self] at hsift

theorem pop_perm (rest : List A) : pop rank (entry :: rest) ~ rest := by
  unfold pop
  rw [getLast?_eq_some_getLast (cons_ne_nil entry rest)]
  cases rest with
  | nil => rfl
  | cons next more =>
    have hsplit := dropLast_append_getLast (cons_ne_nil next more)
    rw [getLast_cons (cons_ne_nil next more)]
    refine (siftDownAt_perm 0).trans ?_
    calc (next :: more).getLast _ :: (next :: more).dropLast
        ~ (next :: more).dropLast ++ [(next :: more).getLast _] := (perm_append_singleton _ _).symm
      _ = next :: more := hsplit

theorem popInvalid_sub {valid : A → Bool} (fuel : ℕ) :
    (∀ other ∈ popInvalid rank valid fuel items, other ∈ items) ∧
      ∀ other ∈ items, valid other = true → other ∈ popInvalid rank valid fuel items := by
  induction fuel generalizing items with
  | zero => exact ⟨fun _ h => h, fun _ h _ => h⟩
  | succ fuel ih =>
    unfold popInvalid
    cases items with
    | nil => exact ⟨fun _ h => h, fun _ h _ => h⟩
    | cons first rest =>
      dsimp only
      split
      · exact ⟨fun _ h => h, fun _ h _ => h⟩
      next hinvalid =>
        have hpop := @pop_perm _ rank first rest
        obtain ⟨hdown, hup⟩ := @ih (pop rank (first :: rest))
        refine ⟨fun other hother => ?_, fun other hother hvalid => ?_⟩
        · exact mem_cons_of_mem first (hpop.mem_iff.mp (hdown other hother))
        · cases hother with
          | head => exact absurd hvalid hinvalid
          | tail _ hrest => exact hup other (hpop.mem_iff.mpr hrest) hvalid

theorem popInvalid_head {valid : A → Bool} {fuel : ℕ} (hfuel : items.length ≤ fuel) {first : A}
    (hfirst : (popInvalid rank valid fuel items).head? = some first) : valid first = true := by
  induction fuel generalizing items with
  | zero =>
    rw [length_eq_zero_iff.mp (Nat.le_zero.mp hfuel)] at hfirst
    cases hfirst
  | succ fuel ih =>
    unfold popInvalid at hfirst
    cases items with
    | nil => cases hfirst
    | cons front rest =>
      dsimp only at hfirst
      split at hfirst
      next hvalid =>
        cases hfirst
        exact hvalid
      · have hlength := (@pop_perm _ rank front rest).length_eq
        rw [length_cons] at hfuel
        exact ih (by omega) hfirst

/-- Peeking drops invalid entries only, and shows a valid one while there is one. -/
theorem peek_spec (valid : A → Bool) (items : List A) :
    (∀ other ∈ (peek rank valid items).1, other ∈ items) ∧
      (∀ other ∈ items, valid other = true → other ∈ (peek rank valid items).1) ∧
      (∀ first ∈ (peek rank valid items).2, valid first = true ∧ first ∈ items) ∧
      ((peek rank valid items).2 = none → ∀ other ∈ items, valid other = false) := by
  obtain ⟨hdown, hup⟩ := @popInvalid_sub _ rank items valid items.length
  refine ⟨hdown, hup, fun first hfirst => ?_, fun hnone other hother => ?_⟩
  · exact ⟨popInvalid_head (Nat.le_refl _) hfirst, hdown first (mem_of_mem_head? hfirst)⟩
  · have hempty : popInvalid rank valid items.length items = [] := head?_eq_none_iff.mp hnone
    cases hcase : valid other with
    | false => rfl
    | true =>
      have hmem := hup other hother hcase
      rw [hempty] at hmem
      cases hmem

theorem heapify_perm (items : List A) : heapify rank items ~ items := by
  unfold heapify
  generalize (List.range (items.length / 2)).reverse = order
  induction order generalizing items with
  | nil => rfl
  | cons index rest ih => exact (ih (siftDownAt rank items index)).trans (siftDownAt_perm index)

theorem compactIfOversized_sub {bound : ℕ} {valid : A → Bool} :
    (∀ other ∈ compactIfOversized rank bound valid items, other ∈ items) ∧
      ∀ other ∈ items, valid other = true → other ∈ compactIfOversized rank bound valid items := by
  unfold compactIfOversized
  split
  · exact ⟨fun _ h => h, fun _ h _ => h⟩
  · have hperm := @heapify_perm _ rank (items.filter valid)
    refine ⟨fun other hother => ?_, fun other hother hvalid => ?_⟩
    · exact (mem_filter.mp (hperm.mem_iff.mp hother)).1
    · exact hperm.mem_iff.mpr (mem_filter.mpr ⟨hother, hvalid⟩)

end Entries

end BinaryHeap
