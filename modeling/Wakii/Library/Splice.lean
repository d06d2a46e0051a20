import Mathlib.Data.List.Sort

/-!
# Putting a member into a list

A member put in at an index leaves the order of the others alone.  A list sorted
by a key is the only order of its members with that key rising.
-/

namespace Splice

variable {A K : Type*}

/-- `order.splice(index, 0, member)` -/
def spliceAt (order : List A) (index : ℕ) (member : A) : List A :=
  order.take index ++ member :: order.drop index

theorem spliceAt_append (done later : List A) (member : A) :
    spliceAt (done ++ later) done.length member = done ++ member :: later := by
  rw [spliceAt, List.take_left, List.drop_left]

theorem perm_spliceAt (order : List A) (index : ℕ) (member : A) :
    (spliceAt order index member).Perm (member :: order) := by
  calc
    (spliceAt order index member).Perm (member :: (order.take index ++ order.drop index)) :=
      List.perm_middle
    _ = member :: order := by rw [List.take_append_drop]

theorem map_spliceAt (f : A → K) (order : List A) (index : ℕ) (member : A) :
    (spliceAt order index member).map f = spliceAt (order.map f) index (f member) := by
  rw [spliceAt, spliceAt, List.map_append, List.map_cons, List.map_take, List.map_drop]

theorem filter_ne_spliceAt [DecidableEq A] (order : List A) (index : ℕ) (member : A) :
    (spliceAt order index member).filter (· ≠ member) = order.filter (· ≠ member) := by
  rw [spliceAt, List.filter_append, List.filter_cons_of_neg (by simp), ← List.filter_append,
    List.take_append_drop]

theorem filter_ne_eq_erase [DecidableEq A] {order : List A} (hnodup : order.Nodup) (member : A) :
    order.filter (· ≠ member) = order.erase member := by
  rw [hnodup.erase_eq_filter]
  exact List.filter_congr fun other _ => by simp [bne, beq_eq_decide]

theorem perm_eraseP_of_find? {p : A → Bool} {order : List A} {member : A}
    (hfound : order.find? p = some member) : (member :: order.eraseP p).Perm order := by
  obtain ⟨hmember, done, later, rfl, hdone⟩ := List.find?_eq_some_iff_append.mp hfound
  have hnone : ∀ other ∈ done, ¬ p other = true := fun other hother hp => by
    have hother' := hdone other hother
    simp [hp] at hother'
  rw [List.eraseP_append_right _ hnone, List.eraseP_cons_of_pos hmember]
  exact List.perm_middle.symm

theorem eq_of_perm_of_map_eq {f : A → K} {left right : List A} (hperm : left.Perm right)
    (hnodup : (right.map f).Nodup) (hmap : left.map f = right.map f) : left = right := by
  refine List.ext_getElem hperm.length_eq fun index hleft hright => ?_
  have hread : f left[index] = f right[index] := by
    have hleft' : index < (left.map f).length := by rwa [List.length_map]
    have hright' : index < (right.map f).length := by rwa [List.length_map]
    calc
      f left[index] = (left.map f)[index] := (List.getElem_map f).symm
      _ = (right.map f)[index] := by simp only [hmap]
      _ = f right[index] := List.getElem_map f
  exact List.inj_on_of_nodup_map hnodup (hperm.mem_iff.mp (List.getElem_mem hleft))
    (List.getElem_mem hright) hread

/-- Two orders of the same members with a key rising are one. -/
theorem eq_of_perm_of_rising [LinearOrder K] (key : A → K) {left right : List A}
    (hperm : left.Perm right) (hleft : left.Pairwise (key · < key ·))
    (hright : right.Pairwise (key · < key ·)) : left = right :=
  hperm.eq_of_pairwise (fun _ _ _ _ hlt hgt => absurd hgt hlt.asymm) hleft hright

/-- `[...members].sort((a, b) => key(a) - key(b))` -/
def sortBy [LinearOrder K] (key : A → K) (members : List A) : List A :=
  members.insertionSort (key · ≤ key ·)

/-- What is kept of a sorted list is in the only order with its key rising. -/
theorem filter_sortBy_eq [LinearOrder K] (key : A → K) (keep : A → Bool) {members sorted : List A}
    (hperm : (members.filter keep).Perm sorted) (hsorted : sorted.Pairwise (key · < key ·)) :
    (sortBy key members).filter keep = sorted := by
  have hrising : (sortBy key members).Pairwise (key · ≤ key ·) :=
    haveI : Std.Total (key · ≤ key · : A → A → Prop) := ⟨fun a b => le_total (key a) (key b)⟩
    haveI : IsTrans A (key · ≤ key ·) := ⟨fun _ _ _ => le_trans⟩
    List.pairwise_insertionSort _ members
  have hsame : ((sortBy key members).filter keep).Perm sorted :=
    ((List.perm_insertionSort _ members).filter keep).trans hperm
  have hkeys : sorted.Pairwise (key · ≠ key ·) := hsorted.imp fun hlt => hlt.ne
  have hdistinct : ((sortBy key members).filter keep).Pairwise (key · ≠ key ·) :=
    (hsame.pairwise_iff Ne.symm).mpr hkeys
  have hstrict := ((hrising.filter keep).and hdistinct).imp fun ⟨hle, hne⟩ => lt_of_le_of_ne hle hne
  exact eq_of_perm_of_rising key hsame hstrict hsorted

end Splice
