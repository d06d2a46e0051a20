import Wakii.Library.RecordList
import Wakii.Library.Splice

/-!
# Moves between two orders of tabs

What one order of a group's tabs differs from another by, as moves to be
replayed one after the other: a single move where one tab went elsewhere, else a
move for each slot that holds another tab than it should.
-/

namespace Wakii.TabOrderMoves

open List RecordList Splice

variable {A : Type*} [LinearOrder A]

structure TabOrderMove (A : Type*) where
  tabId : A
  index : ℕ
deriving DecidableEq

def moveTab (order : List A) (move : TabOrderMove A) : List A :=
  spliceAt (order.filter (· ≠ move.tabId)) move.index move.tabId

def replay (order : List A) (moves : List (TabOrderMove A)) : List A :=
  moves.foldl moveTab order

/-- `[...ids].sort()` -/
def sortIds (ids : List A) : List A := ids.insertionSort (· ≤ ·)

def slotMoves : ℕ → List A → List A → List (TabOrderMove A)
  | _, _, [] => []
  | index, current, tabId :: rest =>
    if current[index]? = some tabId then slotMoves (index + 1) current rest
    else
      { tabId, index } ::
        slotMoves (index + 1) (spliceAt (current.erase tabId) index tabId) rest

def tabOrderMoves (old wanted : List A) : List (TabOrderMove A) :=
  let held := firstOnes old
  if held.length ≠ old.length ∨ sortIds held ≠ sortIds wanted then []
  else if old = wanted then []
  else
    match wanted.zipIdx.find? fun slot =>
        old.filter (· ≠ slot.1) = wanted.filter (· ≠ slot.1) with
    | some (tabId, index) => [{ tabId, index }]
    | none => slotMoves 0 old wanted

/-! ## Which orders are compared -/

theorem sortIds_eq_iff {left right : List A} : sortIds left = sortIds right ↔ left.Perm right := by
  constructor
  · intro hsame
    calc
      left.Perm (sortIds left) := (perm_insertionSort _ left).symm
      _ = sortIds right := hsame
      (sortIds right).Perm right := perm_insertionSort _ right
  · intro hperm
    refine Perm.eq_of_pairwise (fun _ _ _ _ hle hge => le_antisymm hle hge)
      (pairwise_insertionSort _ left) (pairwise_insertionSort _ right) ?_
    exact ((perm_insertionSort _ left).trans hperm).trans (perm_insertionSort _ right).symm

theorem length_firstOnes_iff {ids : List A} : (firstOnes ids).length = ids.length ↔ ids.Nodup := by
  have hnodup := nodup_firstOnes ids
  constructor
  · intro hlength
    have hsubperm : (firstOnes ids).Subperm ids :=
      subperm_of_subset hnodup fun id hid => mem_firstOnes.mp hid
    exact (hsubperm.perm_of_length_le hlength.ge).nodup_iff.mp hnodup
  · intro hids
    exact ((perm_ext_iff_of_nodup hnodup hids).mpr fun id => mem_firstOnes).length_eq

theorem compared_iff {old wanted : List A} :
    ¬ ((firstOnes old).length ≠ old.length ∨ sortIds (firstOnes old) ≠ sortIds wanted) ↔
      old.Nodup ∧ old.Perm wanted := by
  rw [not_or, not_not, not_not, length_firstOnes_iff, sortIds_eq_iff]
  refine and_congr_right fun hnodup => ?_
  have hperm : (firstOnes old).Perm old :=
    (perm_ext_iff_of_nodup (nodup_firstOnes old) hnodup).mpr fun id => mem_firstOnes
  exact ⟨hperm.symm.trans, hperm.trans⟩

/-! ## Replaying -/

/-- With the first slots done, the moves of the rest put each tab into its slot. -/
theorem replay_slotMoves (done later rest : List A) (hnodup : (done ++ rest).Nodup)
    (hperm : later.Perm rest) :
    replay (done ++ later) (slotMoves done.length (done ++ later) rest) = done ++ rest := by
  induction rest generalizing done later with
  | nil =>
    rw [hperm.eq_nil]
    rfl
  | cons tabId rest ih =>
    have hdone : (done ++ [tabId]).length = done.length + 1 := length_append
    have hrest : (done ++ [tabId] ++ rest).Nodup := by
      rw [append_assoc]
      exact hnodup
    have hslot : (done ++ later)[done.length]? = later.head? := by
      rw [getElem?_append_right le_rfl, Nat.sub_self, head?_eq_getElem?]
    rw [slotMoves, hslot]
    split_ifs with hhead
    · obtain ⟨after, rfl⟩ := head?_eq_some_iff.mp hhead
      have hafter := ih (done ++ [tabId]) after hrest ((perm_cons tabId).mp hperm)
      rw [hdone, append_assoc, append_assoc] at hafter
      exact hafter
    · have hlater : (done ++ later).Nodup := (hperm.append_left done).nodup_iff.mpr hnodup
      have hnew : tabId ∉ done := fun hmem =>
        (nodup_append.mp hnodup).2.2 tabId hmem tabId mem_cons_self rfl
      have herase : (done ++ later).erase tabId = done ++ later.erase tabId :=
        erase_append_right _ hnew
      have hmoved : moveTab (done ++ later) ⟨tabId, done.length⟩ =
          done ++ tabId :: later.erase tabId := by
        rw [moveTab, filter_ne_eq_erase hlater, herase, spliceAt_append]
      have hafter := ih (done ++ [tabId]) (later.erase tabId) hrest
        (List.Perm.trans (hperm.erase tabId) (by rw [erase_cons_head]))
      rw [hdone, append_assoc, append_assoc] at hafter
      rw [replay, foldl_cons, hmoved, herase, spliceAt_append]
      exact hafter

theorem moveTab_slot {old wanted : List A} (hwanted : wanted.Nodup) {tabId : A} {index : ℕ}
    (hslot : wanted[index]? = some tabId)
    (hothers : old.filter (· ≠ tabId) = wanted.filter (· ≠ tabId)) :
    moveTab old ⟨tabId, index⟩ = wanted := by
  obtain ⟨hlt, hget⟩ := List.getElem?_eq_some_iff.mp hslot
  have hsplit : wanted = wanted.take index ++ tabId :: wanted.drop (index + 1) := by
    rw [← hget, List.getElem_cons_drop, List.take_append_drop]
  have hlength : (wanted.take index).length = index := length_take_of_le hlt.le
  have hnew : tabId ∉ wanted.take index := by
    rw [hsplit] at hwanted
    exact fun hmem => (nodup_append.mp hwanted).2.2 tabId hmem tabId mem_cons_self rfl
  have hrest : wanted.filter (· ≠ tabId) = wanted.take index ++ wanted.drop (index + 1) := by
    rw [filter_ne_eq_erase hwanted]
    nth_rewrite 1 [hsplit]
    rw [erase_append_right _ hnew, erase_cons_head]
  calc
    moveTab old ⟨tabId, index⟩ =
        spliceAt (wanted.take index ++ wanted.drop (index + 1)) index tabId := by
      rw [moveTab, hothers, hrest]
    _ = wanted.take index ++ tabId :: wanted.drop (index + 1) := by
      nth_rewrite 3 [← hlength]
      exact spliceAt_append _ _ tabId
    _ = wanted := hsplit.symm

theorem filter_moveTab (order : List A) (move : TabOrderMove A) :
    (moveTab order move).filter (· ≠ move.tabId) = order.filter (· ≠ move.tabId) := by
  rw [moveTab, filter_ne_spliceAt, filter_filter]
  simp

theorem replay_tabOrderMoves {old wanted : List A} (hnodup : old.Nodup) (hperm : old.Perm wanted) :
    replay old (tabOrderMoves old wanted) = wanted := by
  have hwanted := hperm.nodup_iff.mp hnodup
  rw [tabOrderMoves, if_neg (compared_iff.mpr ⟨hnodup, hperm⟩)]
  split_ifs with hsame
  · exact hsame
  cases hfound : wanted.zipIdx.find? fun slot =>
      old.filter (· ≠ slot.1) = wanted.filter (· ≠ slot.1) with
  | some slot =>
    obtain ⟨tabId, index⟩ := slot
    have hslot := mk_mem_zipIdx_iff_getElem?.mp (mem_of_find?_eq_some hfound)
    have hothers := find?_some hfound
    exact moveTab_slot hwanted hslot (of_decide_eq_true hothers)
  | none => exact replay_slotMoves [] old wanted hwanted hperm

/-- Replayed, the moves turn one order into the other; one move is enough where one can
be, and orders of other tabs get none. -/
theorem tabOrderMoves_spec (old wanted : List A) :
    (old.Nodup → wanted.Perm old → replay old (tabOrderMoves old wanted) = wanted) ∧
      ((∃ move, replay old [move] = wanted) → (tabOrderMoves old wanted).length ≤ 1) ∧
      ((∃ id, ¬ (id ∈ old ↔ id ∈ wanted)) ∨ ¬ old.Nodup ∨ ¬ wanted.Nodup →
        tabOrderMoves old wanted = []) := by
  refine ⟨fun hnodup hperm => replay_tabOrderMoves hnodup hperm.symm, ?_, fun hother => ?_⟩
  · rintro ⟨move, rfl⟩
    rw [tabOrderMoves]
    split_ifs
    · exact Nat.zero_le 1
    · exact Nat.zero_le 1
    cases hfound : (replay old [move]).zipIdx.find? fun slot =>
        old.filter (· ≠ slot.1) = (replay old [move]).filter (· ≠ slot.1) with
    | some slot => exact Nat.le_refl 1
    | none =>
      rw [find?_eq_none] at hfound
      have hmem : move.tabId ∈ replay old [move] := mem_append_right _ mem_cons_self
      obtain ⟨index, hslot⟩ := mem_iff_getElem?.mp hmem
      have hothers := hfound (move.tabId, index) (mk_mem_zipIdx_iff_getElem?.mpr hslot)
      exact absurd (decide_eq_true (filter_moveTab old move).symm) hothers
  · have hdiffer : ¬ (old.Nodup ∧ old.Perm wanted) := by
      rintro ⟨hnodup, hperm⟩
      rcases hother with ⟨id, hid⟩ | hold | hwanted
      · exact hid hperm.mem_iff
      · exact hold hnodup
      · exact hwanted (hperm.nodup_iff.mp hnodup)
    rw [← compared_iff, not_not] at hdiffer
    rw [tabOrderMoves]
    exact if_pos hdiffer

theorem tabOrderMoves_spec_sample :
    replay [1, 2, 3, 4, 5] (tabOrderMoves [1, 2, 3, 4, 5] [3, 5, 1, 2, 4]) = [3, 5, 1, 2, 4] ∧
      (tabOrderMoves [1, 2, 3, 4] [2, 3, 1, 4]).length ≤ 1 ∧
      tabOrderMoves [1, 2] [2, 3] = [] :=
  ⟨(tabOrderMoves_spec _ _).1 (by decide) (by decide),
    (tabOrderMoves_spec _ _).2.1 ⟨⟨1, 2⟩, by decide⟩,
    (tabOrderMoves_spec _ _).2.2 (Or.inl ⟨1, by decide⟩)⟩

end Wakii.TabOrderMoves
