import Wakii.Library.LongestIncreasing
import Mathlib.Data.List.Induction
import Mathlib.Data.List.Nodup
import Mathlib.Data.List.Perm.Basic

/-!
# Reordering the tabs a window shows

A window that shows some of a group's tabs asks for a new order of those it
shows.  The tabs it does not show keep their places, and of those it shows as
many as possible stay where they are: the rest are taken out and put back, from
the end of the requested order on, each one before its successor.
-/

namespace Wakii.ProjectedOrder

open List LongestIncreasing

variable {A : Type*} [DecidableEq A]

/-- `new Map(requested.map((id, index) => [id, index]))`: the last index of an id counts. -/
def positionOf (requested : List A) (id : A) : Option ℕ :=
  (requested.zipIdx.reverse.find? fun entry => entry.1 = id).map Prod.snd

/-- The shown tabs other than the moving one, with their requested positions. -/
def candidates (requested visible : List A) (movingTabId : A) : List (A × ℕ) :=
  visible.filterMap fun id =>
    if id = movingTabId then none else (positionOf requested id).map fun position => (id, position)

def anchors (candidates : List (A × ℕ)) : List A :=
  let lengths := withLengths Prod.snd candidates
  (pick Prod.snd (longest lengths) (-1) lengths).map Prod.fst

/-- `result.splice(index, 0, id)`, where `index` is the successor's, or the end without one.  An
index of -1 would count from the end. -/
def spliceBefore (successor : Option A) (id : A) (result : List A) : List A :=
  match successor with
  | none => result.insertIdx result.length id
  | some next =>
    if next ∈ result then
      result.insertIdx (result.idxOf next) id
    else
      result.insertIdx (result.length - 1) id

def putBack (anchors : List A) (state : List A × Option A) (id : A) : List A × Option A :=
  (if id ∈ anchors then state.1 else spliceBefore state.2 id state.1, some id)

def reorderProjectedTabOrder (order requestedOrder : List A) (movingTabId : A) : List A :=
  let requested := requestedOrder.filter fun id => id ∈ order
  let visible := order.filter fun id => id ∈ requested
  if visible <+: requested then
    order
  else
    let kept := anchors (candidates requested visible movingTabId)
    let result := order.filter fun id => id ∉ requested ∨ id ∈ kept
    (requested.reverse.foldl (putBack kept) (result, none)).1

section Positions

variable {requested part : List A} {id : A} {index : ℕ}

section

variable (hnodup : requested.Nodup)
include hnodup

theorem positionOf_eq_some :
    positionOf requested id = some index ↔ requested[index]? = some id := by
  have hat : ∀ {position : ℕ}, positionOf requested id = some position →
      requested[position]? = some id := by
    intro position hposition
    obtain ⟨entry, hfind, rfl⟩ := Option.map_eq_some_iff.mp hposition
    have hmem := mem_reverse.mp (mem_of_find?_eq_some hfind)
    rw [mk_mem_zipIdx_iff_getElem?.mp hmem]
    simpa using find?_some hfind
  refine ⟨hat, fun hindex => ?_⟩
  cases hposition : positionOf requested id with
  | none =>
    rw [positionOf, Option.map_eq_none_iff, find?_eq_none] at hposition
    have hmem := mk_mem_zipIdx_iff_getElem?.mpr hindex
    exact absurd (decide_eq_true rfl) (hposition _ (mem_reverse.mpr hmem))
  | some position =>
    have hsame := (hat hposition).trans hindex.symm
    obtain ⟨hlt, -⟩ := List.getElem?_eq_some_iff.mp (hat hposition)
    exact congrArg some ((List.getElem?_inj hlt hnodup).mp hsame)

theorem positionOf_eq_idxOf (hmem : id ∈ requested) :
    positionOf requested id = some (requested.idxOf id) :=
  (positionOf_eq_some hnodup).mpr
    (by rw [getElem?_eq_getElem (idxOf_lt_length_of_mem hmem), getElem_idxOf])

theorem increasing_idxOf : Increasing requested.idxOf requested := by
  refine pairwise_iff_getElem.mpr fun first second hfirst hsecond hlt => ?_
  change requested.idxOf requested[first] < requested.idxOf requested[second]
  rw [hnodup.idxOf_getElem first hfirst, hnodup.idxOf_getElem second hsecond]
  exact hlt

theorem sublist_of_increasing (hpart : part ⊆ requested)
    (hincreasing : Increasing requested.idxOf part) : part.Sublist requested := by
  have hpart_nodup : part.Nodup := by
    refine hincreasing.imp fun hlt hsame => ?_
    rw [hsame] at hlt
    exact Nat.lt_irrefl _ hlt
  have hperm : part.Perm (requested.filter fun id => id ∈ part) := by
    refine (perm_ext_iff_of_nodup hpart_nodup (hnodup.filter _)).mpr fun id => ?_
    rw [mem_filter, decide_eq_true_iff]
    exact ⟨fun hmem => ⟨hpart hmem, hmem⟩, fun hmem => hmem.2⟩
  have hsame : part = requested.filter fun id => id ∈ part := by
    refine hperm.eq_of_pairwise (fun first second _ _ hlt hgt => ?_) hincreasing
      ((increasing_idxOf hnodup).sublist filter_sublist)
    exact absurd hgt (Nat.not_lt.mpr (Nat.le_of_lt hlt))
  rw [hsame]
  exact filter_sublist

end

theorem filter_mem_of_sublist {list : List A} (hnodup : list.Nodup) (hpart : part.Sublist list) :
    (list.filter fun id => id ∈ part) = part := by
  have hperm : (list.filter fun id => id ∈ part).Perm part := by
    refine (perm_ext_iff_of_nodup (hnodup.filter _) (hnodup.sublist hpart)).mpr fun id => ?_
    rw [mem_filter, decide_eq_true_iff]
    exact ⟨fun hmem => hmem.2, fun hmem => ⟨hpart.subset hmem, hmem⟩⟩
  have hincreasing := increasing_idxOf hnodup
  refine hperm.eq_of_pairwise (fun first second _ _ hlt hgt => ?_)
    (hincreasing.sublist filter_sublist) (hincreasing.sublist hpart)
  exact absurd hgt (Nat.not_lt.mpr (Nat.le_of_lt hlt))

end Positions

section Anchors

variable {requested visible part : List A} {movingTabId : A}

section

variable (hnodup : requested.Nodup) (hvisible : visible ⊆ requested)
include hnodup hvisible

theorem candidates_eq : candidates requested visible movingTabId =
      (visible.filter fun id => id ≠ movingTabId).map fun id => (id, requested.idxOf id) := by
  induction visible with
  | nil => rfl
  | cons id rest ih =>
    have hmem := hvisible mem_cons_self
    have hrest := ih fun other hother => hvisible (mem_cons_of_mem id hother)
    rw [candidates, filterMap_cons]
    by_cases hmoving : id = movingTabId
    · rw [if_pos hmoving, filter_cons_of_neg (by simpa using hmoving)]
      exact hrest
    · rw [if_neg hmoving, positionOf_eq_idxOf hnodup hmem,
        filter_cons_of_pos (by simpa using hmoving), map_cons]
      exact congrArg ((id, requested.idxOf id) :: ·) hrest

theorem anchors_sublist : (anchors (candidates requested visible movingTabId)).Sublist
      (visible.filter fun id => id ≠ movingTabId) := by
  have hpicked := (@pick_sublist (A × ℕ) Prod.snd
    (longest (withLengths Prod.snd (candidates requested visible movingTabId))) (-1)
    (withLengths Prod.snd (candidates requested visible movingTabId))).map Prod.fst
  rw [withLengths_map_fst] at hpicked
  conv at hpicked => rhs; rw [candidates_eq hnodup hvisible, map_map]
  simpa [anchors, Function.comp_def] using hpicked

theorem anchors_requested :
    (anchors (candidates requested visible movingTabId)).Sublist requested := by
  refine sublist_of_increasing hnodup (fun id hmem => ?_) ?_
  · have hshown := (anchors_sublist hnodup hvisible).subset hmem
    exact hvisible (mem_of_mem_filter hshown)
  · refine pairwise_map.mpr ((pick_increasing _ _ _).imp_of_mem
      fun {first second} hfirst hsecond hlt => ?_)
    have hposition : ∀ {entry : A × ℕ}, entry ∈ pick Prod.snd
        (longest (withLengths Prod.snd (candidates requested visible movingTabId))) (-1)
        (withLengths Prod.snd (candidates requested visible movingTabId)) →
        entry.2 = requested.idxOf entry.1 := by
      intro entry hentry
      have hcandidate := (pick_sublist _ _ _).subset hentry
      rw [withLengths_map_fst, candidates_eq hnodup hvisible] at hcandidate
      obtain ⟨id, -, rfl⟩ := mem_map.mp hcandidate
      rfl
    change requested.idxOf first.1 < requested.idxOf second.1
    rw [← hposition hfirst, ← hposition hsecond]
    exact hlt

theorem length_le_anchors (hpart : part.Sublist (visible.filter fun id => id ≠ movingTabId))
    (hrequested : part.Sublist requested) :
    part.length ≤ (anchors (candidates requested visible movingTabId)).length := by
  have hlonger := @length_le_longest (A × ℕ) Prod.snd _ _
    (hpart.map fun id => (id, requested.idxOf id))
    (pairwise_map.mpr ((increasing_idxOf hnodup).sublist hrequested))
  rw [length_map, ← candidates_eq hnodup hvisible, ← length_pick_longest] at hlonger
  simpa [anchors] using hlonger

end

end Anchors

section PutBack

/-- What holds between two rounds: of the requested tabs, the result shows the anchors not passed
yet and everything passed, each in the requested order; the tabs that stay put are untouched. -/
structure Placed (order requested kept before passed result : List A) : Prop where
  shown : (result.filter fun id => id ∈ requested) = (before.filter fun id => id ∈ kept) ++ passed
  others : (result.filter fun id => id ∉ requested ∨ id ∈ kept) =
    order.filter fun id => id ∉ requested ∨ id ∈ kept

variable {order requested kept before passed result first last : List A} {id next : A}

theorem idxOf_append_cons (hfirst : next ∉ first) :
    (first ++ next :: last).idxOf next = first.length := by
  rw [idxOf_append_of_notMem hfirst, idxOf_cons_self, Nat.add_zero]

omit [DecidableEq A] in
theorem insertIdx_append_length :
    (first ++ last).insertIdx first.length id = first ++ id :: last := by
  induction first with
  | nil => rfl
  | cons head rest ih => exact congrArg (head :: ·) ih

theorem spliceBefore_next (hfirst : next ∉ first) :
    spliceBefore (some next) id (first ++ next :: last) = first ++ id :: next :: last := by
  have hmem : next ∈ first ++ next :: last := mem_append_right first mem_cons_self
  rw [spliceBefore, if_pos hmem, idxOf_append_cons hfirst, insertIdx_append_length]

/-- Where the tab goes back is between a first part without passed tabs and the passed ones. -/
theorem spliceBefore_eq (id : A) (hnodup : (before ++ passed).Nodup)
    (hshown : (result.filter fun id => id ∈ requested) =
      (before.filter fun id => id ∈ kept) ++ passed)
    (hpassed : passed ⊆ requested) :
    ∃ first last, result = first ++ last ∧
      spliceBefore passed.head? id result = first ++ id :: last ∧
      (first.filter fun id => id ∈ requested) = before.filter fun id => id ∈ kept := by
  cases passed with
  | nil =>
    refine ⟨result, [], (append_nil result).symm, ?_, ?_⟩
    · exact insertIdx_length_self
    · rw [hshown, append_nil]
  | cons next passed =>
    have hnext : next ∈ result := by
      refine mem_of_mem_filter (p := fun id => id ∈ requested) ?_
      rw [hshown]
      exact mem_append_right _ mem_cons_self
    obtain ⟨first, last, rfl, hfirst⟩ := eq_append_cons_of_mem hnext
    refine ⟨first, next :: last, rfl, spliceBefore_next hfirst, ?_⟩
    have hdisjoint := nodup_append.mp hnodup
    have hbefore : next ∉ before.filter fun id => id ∈ kept := fun hmem =>
      hdisjoint.2.2 next (mem_of_mem_filter hmem) next mem_cons_self rfl
    have hrest : next ∉ passed := (nodup_cons.mp hdisjoint.2.1).1
    have hrequested := hpassed (mem_cons_self : next ∈ next :: passed)
    rw [filter_append, filter_cons_of_pos (by simpa using hrequested)] at hshown
    exact ((append_cons_inj_of_notMem hbefore hrest).mp hshown.symm).1.symm

omit [DecidableEq A] in
theorem filter_append_cons_of_neg {keeps : A → Bool} (hid : ¬ keeps id) :
    (first ++ id :: last).filter keeps = (first ++ last).filter keeps := by
  rw [filter_append, filter_append, filter_cons_of_neg hid]

/-- One round passes the next requested tab, staying put or put back. -/
theorem Placed.putBack (hplaced : Placed order requested kept (before ++ [id]) passed result)
    (hrequested : before ++ id :: passed = requested) (hnodup : requested.Nodup) :
    Placed order requested kept before (id :: passed)
      (putBack kept (result, passed.head?) id).1 := by
  have hmem : id ∈ requested := by
    rw [← hrequested]
    exact mem_append_right before mem_cons_self
  by_cases hkept : id ∈ kept
  · have hshown := hplaced.shown
    rw [filter_append, filter_cons_of_pos (by simpa using hkept), filter_nil,
      append_assoc] at hshown
    rw [ProjectedOrder.putBack, if_pos hkept]
    exact ⟨hshown, hplaced.others⟩
  · have hshown := hplaced.shown
    rw [filter_append, filter_cons_of_neg (by simpa using hkept), filter_nil, append_nil] at hshown
    rw [ProjectedOrder.putBack, if_neg hkept]
    have hpassed : passed ⊆ requested := by
      rw [← hrequested]
      exact fun other hother => mem_append_right before (mem_cons_of_mem id hother)
    have hparts : (before ++ passed).Nodup := by
      rw [← hrequested] at hnodup
      exact hnodup.sublist ((sublist_cons_self id passed).append_left before)
    obtain ⟨first, last, hresult, hsplice, hfirst⟩ := spliceBefore_eq id hparts hshown hpassed
    have hothers := hplaced.others
    rw [hresult] at hshown hothers
    rw [hsplice]
    constructor
    · rw [filter_append, hfirst, append_cancel_left_eq] at hshown
      rw [filter_append, filter_cons_of_pos (by simpa using hmem), hfirst, hshown]
    · rw [filter_append_cons_of_neg (by simp [hmem, hkept])]
      exact hothers

theorem Placed.putBack_all (hplaced : Placed order requested kept before passed result)
    (hrequested : before ++ passed = requested) (hnodup : requested.Nodup) :
    Placed order requested kept [] requested
      (before.reverse.foldl (ProjectedOrder.putBack kept) (result, passed.head?)).1 := by
  induction before using List.reverseRecOn generalizing passed result with
  | nil =>
    rw [nil_append] at hrequested
    rw [← hrequested] at hplaced ⊢
    exact hplaced
  | append_singleton before id ih =>
    rw [append_assoc, singleton_append] at hrequested
    rw [reverse_append, reverse_singleton, singleton_append, foldl_cons]
    exact ih (hplaced.putBack hrequested hnodup) hrequested

end PutBack

section Reordering

/-- An order of the same tabs that has the requested ones in the requested order. -/
structure Reorders (order requestedOrder result : List A) : Prop where
  perm : result.Perm order
  requested : (result.filter fun id => id ∈ requestedOrder) =
    requestedOrder.filter fun id => id ∈ order
  others : (result.filter fun id => id ∉ requestedOrder) =
    order.filter fun id => id ∉ requestedOrder

/-- Some requested tabs, not the moving one, keep their places among each other and among the tabs
that are not requested. -/
structure StayPut (order requestedOrder : List A) (movingTabId : A) (result stay : List A) :
    Prop where
  sublist : stay.Sublist (requestedOrder.filter fun id => id ∈ order ∧ id ≠ movingTabId)
  places : (result.filter fun id => id ∉ requestedOrder ∨ id ∈ stay) =
    order.filter fun id => id ∉ requestedOrder ∨ id ∈ stay

variable {order requestedOrder requested kept result stay : List A} {movingTabId : A}

theorem shown_perm (horder : order.Nodup) (hrequested : requestedOrder.Nodup) :
    (order.filter fun id => id ∈ requestedOrder).Perm
      (requestedOrder.filter fun id => id ∈ order) := by
  refine (perm_ext_iff_of_nodup (horder.filter _) (hrequested.filter _)).mpr fun id => ?_
  rw [mem_filter, mem_filter, decide_eq_true_iff, decide_eq_true_iff]
  exact And.comm

/-- Tabs that stay put are in the old order as they are in the requested one. -/
theorem StayPut.in_order (hreorders : Reorders order requestedOrder result)
    (hrequested : requestedOrder.Nodup)
    (hstay : StayPut order requestedOrder movingTabId result stay) :
    stay.Sublist (order.filter fun id => id ≠ movingTabId) := by
  have hsublist := hstay.sublist.trans filter_sublist
  have hmem : ∀ id ∈ stay, id ∈ requestedOrder ∧ id ∈ order ∧ id ≠ movingTabId := fun id hid => by
    simpa using hstay.sublist.subset hid
  have hresult : (result.filter fun id => id ∈ stay) = stay := by
    calc (result.filter fun id => id ∈ stay)
        = (result.filter fun id => id ∈ requestedOrder).filter fun id => id ∈ stay := by
          rw [filter_filter]
          refine filter_congr fun id _ => ?_
          grind
      _ = requestedOrder.filter fun id => id ∈ stay := by
          rw [hreorders.requested, filter_filter]
          refine filter_congr fun id _ => ?_
          grind
      _ = stay := filter_mem_of_sublist hrequested hsublist
  have horder : (order.filter fun id => id ∈ stay) = stay := by
    calc (order.filter fun id => id ∈ stay)
        = (order.filter fun id => id ∉ requestedOrder ∨ id ∈ stay).filter fun id => id ∈ stay := by
          rw [filter_filter]
          refine filter_congr fun id _ => ?_
          grind
      _ = result.filter fun id => id ∈ stay := by
          rw [← hstay.places, filter_filter]
          refine filter_congr fun id _ => ?_
          grind
      _ = stay := hresult
  rw [← horder]
  refine monotone_filter_right order fun id hid => ?_
  grind

theorem placed_start (horder : order.Nodup) (hnodup : requested.Nodup)
    (hkept : kept.Sublist requested) (hshown : kept.Sublist order) :
    Placed order requested kept requested []
      (order.filter fun id => id ∉ requested ∨ id ∈ kept) where
  shown := by
    have hmem : ∀ id ∈ kept, id ∈ requested := fun id hid => hkept.subset hid
    calc ((order.filter fun id => id ∉ requested ∨ id ∈ kept).filter fun id => id ∈ requested)
        = order.filter fun id => id ∈ kept := by
          rw [filter_filter]
          refine filter_congr fun id _ => ?_
          grind
      _ = kept := filter_mem_of_sublist horder hshown
      _ = (requested.filter fun id => id ∈ kept) ++ [] := by
          rw [filter_mem_of_sublist hnodup hkept, append_nil]
  others := by
    rw [filter_filter]
    simp only [Bool.and_self]

/-- With every requested tab passed, the order is a reordering. -/
theorem Placed.reorders (hplaced : Placed order requested kept [] requested result)
    (horder : order.Nodup) (hrequested : requestedOrder.Nodup)
    (heq : requested = requestedOrder.filter fun id => id ∈ order) :
    Reorders order requestedOrder result ∧
      (result.filter fun id => id ∉ requestedOrder ∨ id ∈ kept) =
        order.filter fun id => id ∉ requestedOrder ∨ id ∈ kept := by
  have hmem : ∀ {id}, id ∈ requested ↔ id ∈ requestedOrder ∧ id ∈ order := by
    intro id
    rw [heq, mem_filter, decide_eq_true_iff]
  have hshown : (result.filter fun id => id ∈ requested) = requested := by
    rw [hplaced.shown, filter_nil, nil_append]
  have hothers : (result.filter fun id => id ∉ requested) =
      order.filter fun id => id ∉ requested := by
    have hfiltered := congrArg (List.filter fun id => id ∉ requested) hplaced.others
    rw [filter_filter, filter_filter] at hfiltered
    refine (filter_congr fun id _ => ?_).trans (hfiltered.trans (filter_congr fun id _ => ?_))
    all_goals grind
  have horder_shown : (order.filter fun id => id ∈ requested).Perm requested := by
    have hperm := shown_perm horder hrequested
    rw [← heq] at hperm
    refine (Perm.of_eq (filter_congr fun id hid => ?_)).trans hperm
    exact decide_eq_decide.mpr (hmem.trans (and_iff_left hid))
  have hperm : result.Perm order := by
    calc result.Perm ((result.filter fun id => id ∈ requested) ++
          result.filter fun id => id ∉ requested) := by
          simpa using (filter_append_perm (fun id => decide (id ∈ requested)) result).symm
      _ = requested ++ order.filter fun id => id ∉ requested := by rw [hshown, hothers]
      List.Perm _ ((order.filter fun id => id ∈ requested) ++
          order.filter fun id => id ∉ requested) := horder_shown.symm.append_right _
      List.Perm _ order := by
          simpa using filter_append_perm (fun id => decide (id ∈ requested)) order
  have hin : ∀ {list : List A}, list ⊆ order → ∀ id ∈ list, id ∈ requestedOrder ↔ id ∈ requested :=
    fun hlist id hid => (hmem.trans (and_iff_left (hlist hid))).symm
  refine ⟨⟨hperm, ?_, ?_⟩, ?_⟩
  · rw [← heq, ← hshown]
    refine filter_congr fun id hid => ?_
    exact decide_eq_decide.mpr (hin hperm.subset id hid)
  · calc (result.filter fun id => id ∉ requestedOrder)
        = result.filter fun id => id ∉ requested := filter_congr fun id hid => by
          simp only [hin hperm.subset id hid]
      _ = order.filter fun id => id ∉ requested := hothers
      _ = order.filter fun id => id ∉ requestedOrder := filter_congr fun id hid => by
          simp only [hin (List.Subset.refl order) id hid]
  · calc (result.filter fun id => id ∉ requestedOrder ∨ id ∈ kept)
        = result.filter fun id => id ∉ requested ∨ id ∈ kept := filter_congr fun id hid => by
          simp only [hin hperm.subset id hid]
      _ = order.filter fun id => id ∉ requested ∨ id ∈ kept := hplaced.others
      _ = order.filter fun id => id ∉ requestedOrder ∨ id ∈ kept :=
          filter_congr fun id hid => by simp only [hin (List.Subset.refl order) id hid]

theorem reorders_self (horder : order.Nodup) (hrequested : requestedOrder.Nodup)
    (hshown : (order.filter fun id => id ∈ requestedOrder.filter fun id => id ∈ order) <+:
      requestedOrder.filter fun id => id ∈ order) :
    Reorders order requestedOrder order := by
  have hsame : (order.filter fun id => id ∈ requestedOrder.filter fun id => id ∈ order) =
      order.filter fun id => id ∈ requestedOrder := by
    refine filter_congr fun id hid => ?_
    rw [decide_eq_decide, mem_filter, decide_eq_true_iff]
    exact and_iff_left hid
  rw [hsame] at hshown
  exact ⟨List.Perm.refl order, hshown.eq_of_length (shown_perm horder hrequested).length_eq, rfl⟩

/-- The tabs put back leave the anchors in place, and no other tabs in both orders are more. -/
theorem reorders_anchors (horder : order.Nodup) (hrequested : requestedOrder.Nodup)
    (heq : requested = requestedOrder.filter fun id => id ∈ order)
    (hkept : kept = anchors (candidates requested (order.filter fun id => id ∈ requested)
      movingTabId))
    (hresult : result = (requested.reverse.foldl (putBack kept)
      (order.filter fun id => id ∉ requested ∨ id ∈ kept, none)).1) :
    Reorders order requestedOrder result ∧ StayPut order requestedOrder movingTabId result kept ∧
      ∀ part : List A, part.Sublist requested →
        part.Sublist (order.filter fun id => id ≠ movingTabId) → part.length ≤ kept.length := by
  have hnodup : requested.Nodup := heq ▸ hrequested.filter _
  have hvisible : (order.filter fun id => id ∈ requested) ⊆ requested := fun id hid =>
    of_decide_eq_true (mem_filter.mp hid).2
  have hkept_requested : kept.Sublist requested := hkept ▸ anchors_requested hnodup hvisible
  have hkept_shown : kept.Sublist
      ((order.filter fun id => id ∈ requested).filter fun id => id ≠ movingTabId) :=
    hkept ▸ anchors_sublist hnodup hvisible
  have hkept_order := hkept_shown.trans (filter_sublist.trans filter_sublist)
  have hplaced : Placed order requested kept [] requested result := hresult ▸
    (placed_start horder hnodup hkept_requested hkept_order).putBack_all
      (append_nil requested) hnodup
  obtain ⟨hreorders, hplaces⟩ := hplaced.reorders horder hrequested heq
  refine ⟨hreorders, ⟨?_, hplaces⟩, fun part hpart hshown => ?_⟩
  · have hstays := hkept_requested.filter fun id => id ≠ movingTabId
    rw [filter_eq_self.mpr fun id hid => (mem_filter.mp (hkept_shown.subset hid)).2, heq,
      filter_filter] at hstays
    refine hstays.trans (monotone_filter_right requestedOrder fun id hid => ?_)
    grind
  · rw [hkept]
    refine length_le_anchors hnodup hvisible ?_ hpart
    have hfiltered := hshown.filter fun id => id ∈ requested
    rw [filter_eq_self.mpr fun id hid => decide_eq_true (hpart.subset hid),
      filter_comm] at hfiltered
    exact hfiltered

/-- A window's new order is a permutation that has its tabs in the requested order and leaves the
others among themselves; no such reordering leaves more of the requested tabs, the moving one
aside, where they are. -/
theorem reorderProjectedTabOrder_spec (horder : order.Nodup) (hrequested : requestedOrder.Nodup)
    (movingTabId : A) :
    Reorders order requestedOrder (reorderProjectedTabOrder order requestedOrder movingTabId) ∧
      ∃ stay, StayPut order requestedOrder movingTabId
        (reorderProjectedTabOrder order requestedOrder movingTabId) stay ∧
        ∀ other others, Reorders order requestedOrder other →
          StayPut order requestedOrder movingTabId other others → others.length ≤ stay.length := by
  rw [reorderProjectedTabOrder]
  split_ifs with hshown
  · refine ⟨reorders_self horder hrequested hshown,
      requestedOrder.filter fun id => id ∈ order ∧ id ≠ movingTabId, ⟨List.Sublist.refl _, rfl⟩, ?_⟩
    exact fun other others _ hothers => hothers.sublist.length_le
  · obtain ⟨hreorders, hstay, hmost⟩ := reorders_anchors horder hrequested rfl rfl rfl
    refine ⟨hreorders, _, hstay, fun other others hother hothers => hmost others ?_ ?_⟩
    · refine hothers.sublist.trans (monotone_filter_right requestedOrder fun id hid => ?_)
      grind
    · exact hothers.in_order hother hrequested

/-- Of four tabs a window shows three and moves the first of them to its end. -/
theorem reorderProjectedTabOrder_spec_sample :
    reorderProjectedTabOrder [1, 2, 3, 4] [3, 4, 1] 1 = [2, 3, 4, 1] ∧
      Reorders [1, 2, 3, 4] [3, 4, 1] (reorderProjectedTabOrder [1, 2, 3, 4] [3, 4, 1] 1) :=
  ⟨by decide, (reorderProjectedTabOrder_spec (by decide) (by decide) 1).1⟩

end Reordering

end Wakii.ProjectedOrder
