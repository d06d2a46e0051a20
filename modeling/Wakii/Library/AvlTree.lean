import Mathlib.Algebra.BigOperators.Group.List.Basic
import Mathlib.Data.List.Sort
import Mathlib.Tactic.Linarith

/-!
# Height-balanced search trees with summaries

Every node caches its height and the product, in a monoid, of what the entries
under it are worth.  One operation stores or removes an entry along one path
from the root.  Everything is said about the list of the entries in order: the
operation filters that list around the entry, the cached values are its length
bound and its product, and a search that follows one path answers about a
filter of it.
-/

namespace SearchTrees

open List Std

inductive AvlTree (A S : Type*) where
  | nil
  | node (entry : A) (height : ℕ) (result : S) (left right : AvlTree A S)

namespace AvlTree

variable {A S : Type*}

def height : AvlTree A S → ℕ
  | nil => 0
  | node _ height _ _ _ => height

def left : AvlTree A S → AvlTree A S
  | nil => nil
  | node _ _ _ left _ => left

def right : AvlTree A S → AvlTree A S
  | nil => nil
  | node _ _ _ _ right => right

def isNil : AvlTree A S → Bool
  | nil => true
  | node .. => false

def toList : AvlTree A S → List A
  | nil => []
  | node entry _ _ left right => left.toList ++ entry :: right.toList

def depth : AvlTree A S → ℕ
  | nil => 0
  | node _ _ _ left right => 1 + max left.depth right.depth

def first : AvlTree A S → Option A
  | nil => none
  | node entry _ _ left _ => left.first.or (some entry)

def last : AvlTree A S → Option A
  | nil => none
  | node entry _ _ _ right => right.last.or (some entry)

@[simp]
theorem toList_nil : (nil : AvlTree A S).toList = [] := rfl

@[simp]
theorem toList_node (entry : A) (height : ℕ) (result : S) (left right : AvlTree A S) :
    (node entry height result left right).toList = left.toList ++ entry :: right.toList := rfl

theorem toList_eq_nil {tree : AvlTree A S} : tree.toList = [] ↔ tree.isNil := by
  cases tree <;> simp [isNil]

theorem depth_eq_zero {tree : AvlTree A S} : tree.depth = 0 ↔ tree.isNil := by
  cases tree with
  | nil => exact iff_of_true rfl rfl
  | node => exact iff_of_false (by rw [depth]; omega) nofun

theorem first_eq_head? (tree : AvlTree A S) : tree.first = tree.toList.head? := by
  induction tree with
  | nil => rfl
  | node entry height result left right ihLeft ihRight =>
    rw [first, toList_node, head?_append, ihLeft]
    rfl

theorem last_eq_getLast? (tree : AvlTree A S) : tree.last = tree.toList.getLast? := by
  induction tree with
  | nil => rfl
  | node entry height result left right ihLeft ihRight =>
    rw [last, toList_node, getLast?_append, getLast?_cons, ihRight]
    cases right.toList.getLast? <;> rfl

section Order

variable {compare : A → A → Ordering}

def Ordered (compare : A → A → Ordering) (entries : List A) : Prop :=
  entries.Pairwise fun before after => compare before after = .lt

variable {entry : A}

theorem ordered_node_iff {left right : List A} [TransCmp compare] :
    Ordered compare (left ++ entry :: right) ↔ Ordered compare left ∧ Ordered compare right ∧
        (∀ held ∈ left, compare held entry = .lt) ∧
        ∀ held ∈ right, compare entry held = .lt := by
  rw [Ordered, pairwise_append, pairwise_cons]
  constructor
  · rintro ⟨hleft, ⟨hafter, hright⟩, hacross⟩
    exact ⟨hleft, hright, fun held hheld => hacross held hheld entry mem_cons_self, hafter⟩
  · rintro ⟨hleft, hright, hbefore, hafter⟩
    refine ⟨hleft, ⟨hafter, hright⟩, fun held hheld other hother => ?_⟩
    rcases mem_cons.mp hother with rfl | hother
    · exact hbefore held hheld
    · exact TransCmp.lt_trans (hbefore held hheld) (hafter other hother)

/-- Sorting entries no two of which compare equal puts them in strictly rising order. -/
theorem ordered_insertionSort [TransCmp compare] {entries : List A}
    (hdistinct : entries.Pairwise fun entry other => compare entry other ≠ .eq) :
    Ordered compare (entries.insertionSort fun entry other => (compare entry other).isLE) := by
  let rel (entry other : A) : Prop := (compare entry other).isLE
  have htotal : Std.Total rel := ⟨fun entry other => by
    by_cases hle : (compare entry other).isLE
    · exact .inl hle
    · have hgt : compare entry other = .gt := by
        simpa [Ordering.isLE_iff_ne_gt] using hle
      refine .inr ?_
      change (compare other entry).isLE
      rw [OrientedCmp.lt_of_gt hgt]
      rfl⟩
  have htrans : IsTrans A rel := ⟨fun _ _ _ => TransCmp.isLE_trans⟩
  have hle : (entries.insertionSort rel).Pairwise rel := pairwise_insertionSort _ _
  have hne : (entries.insertionSort rel).Pairwise fun entry other => compare entry other ≠ .eq :=
    ((perm_insertionSort _ _).pairwise_iff fun horder heq =>
      horder (OrientedCmp.eq_symm heq)).mpr hdistinct
  exact (hle.and hne).imp fun ⟨hle, hne⟩ =>
    (Ordering.isLE_iff_eq_lt_or_eq_eq.mp hle).resolve_right hne

/-- Two strictly rising lists with the same entries are one. -/
theorem Ordered.eq_of_mem_iff [TransCmp compare] {entries others : List A}
    (hentries : Ordered compare entries) (hothers : Ordered compare others)
    (hmem : ∀ entry, entry ∈ entries ↔ entry ∈ others) : entries = others := by
  have hirrefl : Std.Irrefl fun entry other : A => compare entry other = .lt :=
    ⟨fun _ hlt => OrientedCmp.not_lt_of_lt hlt hlt⟩
  have hantisymm : Std.Antisymm fun entry other : A => compare entry other = .lt :=
    ⟨fun _ _ hlt hgt => absurd hgt (OrientedCmp.not_lt_of_lt hlt)⟩
  exact Pairwise.eq_of_mem_iff hentries hothers hmem

def entriesBelow (compare : A → A → Ordering) (entry : A) (entries : List A) : List A :=
  entries.filter fun held => compare held entry = .lt

def entriesAbove (compare : A → A → Ordering) (entry : A) (entries : List A) : List A :=
  entries.filter fun held => compare entry held = .lt

variable {entries : List A}

theorem entriesBelow_eq_self (hbelow : ∀ held ∈ entries, compare held entry = .lt) :
    entriesBelow compare entry entries = entries :=
  filter_eq_self.mpr fun held hheld => decide_eq_true (hbelow held hheld)

theorem entriesAbove_eq_self (habove : ∀ held ∈ entries, compare entry held = .lt) :
    entriesAbove compare entry entries = entries :=
  filter_eq_self.mpr fun held hheld => decide_eq_true (habove held hheld)

@[simp]
theorem entriesBelow_append (entry : A) (before after : List A) :
    entriesBelow compare entry (before ++ after) =
      entriesBelow compare entry before ++ entriesBelow compare entry after :=
  filter_append ..

@[simp]
theorem entriesAbove_append (entry : A) (before after : List A) :
    entriesAbove compare entry (before ++ after) =
      entriesAbove compare entry before ++ entriesAbove compare entry after :=
  filter_append ..

variable [TransCmp compare]

theorem entriesBelow_eq_nil (habove : ∀ held ∈ entries, (compare entry held).isLE) :
    entriesBelow compare entry entries = [] := by
  refine filter_eq_nil_iff.mpr fun held hheld => ?_
  rw [decide_eq_true_iff]
  exact OrientedCmp.not_lt_of_isLE (habove held hheld)

theorem entriesAbove_eq_nil (hbelow : ∀ held ∈ entries, (compare held entry).isLE) :
    entriesAbove compare entry entries = [] := by
  refine filter_eq_nil_iff.mpr fun held hheld => ?_
  rw [decide_eq_true_iff]
  exact OrientedCmp.not_lt_of_isLE (hbelow held hheld)

end Order

section Updates

variable [Monoid S] (summary : A → S)

def result : AvlTree A S → S
  | nil => 1
  | node _ _ result _ _ => result

def total (entries : List A) : S := (entries.map summary).prod

@[simp]
theorem total_nil : total summary [] = 1 := rfl

@[simp]
theorem total_cons (entry : A) (entries : List A) :
    total summary (entry :: entries) = summary entry * total summary entries :=
  prod_cons

@[simp]
theorem total_append (before after : List A) :
    total summary (before ++ after) = total summary before * total summary after := by
  rw [total, map_append, prod_append, total, total]

def update (entry : A) (left right : AvlTree A S) : AvlTree A S :=
  node entry (1 + max left.height right.height)
    (left.result * summary entry * right.result) left right

def rotateLeft : AvlTree A S → AvlTree A S
  | node entry _ _ left (node next _ _ inner outer) =>
    update summary next (update summary entry left inner) outer
  | tree => tree

def rotateRight : AvlTree A S → AvlTree A S
  | node entry _ _ (node next _ _ outer inner) right =>
    update summary next outer (update summary entry inner right)
  | tree => tree

def balance (entry : A) (left right : AvlTree A S) : AvlTree A S :=
  if left.height > right.height + 1 then
    rotateRight summary <| update summary entry
      (if left.right.height > left.left.height then rotateLeft summary left else left) right
  else if right.height > left.height + 1 then
    rotateLeft summary <| update summary entry left
      (if right.left.height > right.right.height then rotateRight summary right else right)
  else update summary entry left right

/-- Stores an entry, in the place of one that compares equal, or removes that one. -/
def put (compare : A → A → Ordering) : AvlTree A S → A → Bool → AvlTree A S
  | nil, entry, remove => if remove then nil else node entry 1 (summary entry) nil nil
  | node held _ _ left right, entry, remove =>
    match compare entry held with
    | .lt => balance summary held (put compare left entry remove) right
    | .gt => balance summary held left (put compare right entry remove)
    | .eq =>
      if !remove then balance summary entry left right
      else if left.isNil then right
      else
        -- The next entry in order moves up into the freed place.
        match right.first with
        | none => left
        | some next => balance summary next left (put compare right next true)

/-! ## The entries in order -/

@[simp]
theorem toList_update (entry : A) (left right : AvlTree A S) :
    (update summary entry left right).toList = left.toList ++ entry :: right.toList := rfl

@[simp]
theorem toList_rotateLeft (tree : AvlTree A S) :
    (rotateLeft summary tree).toList = tree.toList := by
  rcases tree with _ | ⟨entry, height, result, left, _ | right⟩
  · rfl
  · rfl
  · simp [rotateLeft]

@[simp]
theorem toList_rotateRight (tree : AvlTree A S) :
    (rotateRight summary tree).toList = tree.toList := by
  rcases tree with _ | ⟨entry, height, result, _ | left, right⟩
  · rfl
  · rfl
  · simp [rotateRight]

@[simp]
theorem toList_balance (entry : A) (left right : AvlTree A S) :
    (balance summary entry left right).toList = left.toList ++ entry :: right.toList := by
  unfold balance
  split_ifs <;> simp

section Order

variable {compare : A → A → Ordering} [TransCmp compare]

theorem entries_around {entry held : A} {left right : List A}
    (hordered : Ordered compare (left ++ held :: right)) (heq : compare entry held = .eq) :
    entriesBelow compare entry (left ++ held :: right) = left ∧
      entriesAbove compare entry (left ++ held :: right) = right := by
  obtain ⟨-, -, hbefore, hafter⟩ := ordered_node_iff.mp hordered
  have hbelow : ∀ other ∈ left, compare other entry = .lt := fun other hother => by
    rw [TransCmp.congr_right heq]
    exact hbefore other hother
  have habove : ∀ other ∈ right, compare entry other = .lt := fun other hother => by
    rw [TransCmp.congr_left heq]
    exact hafter other hother
  have hheld : compare held entry = .eq := OrientedCmp.eq_symm heq
  constructor
  · rw [entriesBelow_append, entriesBelow_eq_self hbelow, entriesBelow_eq_nil, append_nil]
    rintro other (_ | ⟨_, hother⟩)
    · rw [heq]
      rfl
    · rw [habove other hother]
      rfl
  · rw [append_cons, entriesAbove_append, entriesAbove_eq_self habove,
      entriesAbove_eq_nil, nil_append]
    intro other hother
    rcases mem_append.mp hother with hother | hother
    · rw [hbelow other hother]
      rfl
    · rw [mem_singleton.mp hother, hheld]
      rfl

variable {tree : AvlTree A S}

/-- Storing puts the entry between those before and those after it; removing
leaves these. -/
theorem toList_put (entry : A) (remove : Bool) (hordered : Ordered compare tree.toList) :
    (put summary compare tree entry remove).toList =
      entriesBelow compare entry tree.toList ++ (if remove then [] else [entry]) ++
        entriesAbove compare entry tree.toList := by
  induction tree generalizing entry remove with
  | nil => cases remove <;> rfl
  | node held height result left right ihLeft ihRight =>
    obtain ⟨hleft, hright, hbefore, hafter⟩ := ordered_node_iff.mp hordered
    rw [put]
    cases horder : compare entry held with
    | lt =>
      have hrest : ∀ other ∈ held :: right.toList, compare entry other = .lt := by
        rintro other (_ | ⟨_, hother⟩)
        · exact horder
        · exact TransCmp.lt_trans horder (hafter other hother)
      have hnone : entriesBelow compare entry (held :: right.toList) = [] :=
        entriesBelow_eq_nil fun other hother => by rw [hrest other hother]; rfl
      rw [toList_node, entriesBelow_append, entriesAbove_append, entriesAbove_eq_self hrest, hnone]
      simp [ihLeft entry remove hleft]
    | gt =>
      have hrest : ∀ other ∈ left.toList ++ [held], compare other entry = .lt := by
        have hlt : compare held entry = .lt := OrientedCmp.lt_of_gt horder
        intro other hother
        rcases mem_append.mp hother with hother | hother
        · exact TransCmp.lt_trans (hbefore other hother) hlt
        · rwa [mem_singleton.mp hother]
      have hnone : entriesAbove compare entry (left.toList ++ [held]) = [] :=
        entriesAbove_eq_nil fun other hother => by rw [hrest other hother]; rfl
      rw [toList_node, append_cons, entriesBelow_append, entriesAbove_append,
        entriesBelow_eq_self hrest, hnone]
      simp [ihRight entry remove hright]
    | eq =>
      obtain ⟨hbelow, habove⟩ := entries_around hordered horder
      rw [toList_node, hbelow, habove]
      cases remove with
      | false => simp
      | true =>
        cases hnil : left.isNil with
        | true => simp [toList_eq_nil.mpr hnil]
        | false =>
          cases hnext : right.first with
          | none =>
            rw [first_eq_head?, head?_eq_none_iff] at hnext
            simp [hnext]
          | some next =>
            rw [first_eq_head?, head?_eq_some_iff] at hnext
            obtain ⟨rest, hrest⟩ := hnext
            have hsplit : Ordered compare ([] ++ next :: rest) := hrest ▸ hright
            obtain ⟨hnone, hrests⟩ := entries_around hsplit ReflCmp.compare_self
            have hput := ihRight next true hright
            rw [hrest, ← nil_append (next :: rest), hnone, hrests] at hput
            simp [hput, hrest]

theorem ordered_put (entry : A) (remove : Bool) (hordered : Ordered compare tree.toList) :
    Ordered compare (put summary compare tree entry remove).toList := by
  rw [toList_put summary entry remove hordered]
  have hbelow : Ordered compare (entriesBelow compare entry tree.toList) :=
    List.Pairwise.filter _ hordered
  have habove : Ordered compare (entriesAbove compare entry tree.toList) :=
    List.Pairwise.filter _ hordered
  have hbefore : ∀ held ∈ entriesBelow compare entry tree.toList, compare held entry = .lt :=
    fun held hheld => of_decide_eq_true (mem_filter.mp hheld).2
  have hafter : ∀ held ∈ entriesAbove compare entry tree.toList, compare entry held = .lt :=
    fun held hheld => of_decide_eq_true (mem_filter.mp hheld).2
  cases remove with
  | false =>
    rw [if_neg (by decide), append_assoc, singleton_append]
    exact ordered_node_iff.mpr ⟨hbelow, habove, hbefore, hafter⟩
  | true =>
    rw [if_pos rfl, append_nil]
    exact pairwise_append.mpr ⟨hbelow, habove, fun held hheld other hother =>
      TransCmp.lt_trans (hbefore held hheld) (hafter other hother)⟩

section

variable (hordered : Ordered compare tree.toList)
include hordered

/-- The entries after an update: the ones that do not compare equal to its
entry, and that entry when it is stored. -/
theorem mem_put {entry held : A} {remove : Bool} :
    held ∈ (put summary compare tree entry remove).toList ↔
      (held ∈ tree.toList ∧ compare held entry ≠ .eq) ∨ (remove = false ∧ held = entry) := by
  rw [toList_put summary entry remove hordered]
  have hgt : compare entry held = .lt ↔ compare held entry = .gt := OrientedCmp.gt_iff_lt.symm
  cases remove <;> cases horder : compare held entry <;>
    simp [entriesBelow, entriesAbove, horder, hgt, or_comm]

theorem perm_put_store {entry : A} (hfresh : ∀ held ∈ tree.toList, compare held entry ≠ .eq) :
    (put summary compare tree entry false).toList.Perm (entry :: tree.toList) := by
  have hsplit : (entriesBelow compare entry tree.toList ++
      entriesAbove compare entry tree.toList).Perm tree.toList := by
    have habove : entriesAbove compare entry tree.toList =
        tree.toList.filter fun held => !decide (compare held entry = .lt) := by
      refine filter_congr fun held hheld => ?_
      have hne := hfresh held hheld
      have hgt : compare entry held = .lt ↔ compare held entry = .gt := OrientedCmp.gt_iff_lt.symm
      cases horder : compare held entry <;> simp_all
    rw [habove]
    exact filter_append_perm _ _
  rw [toList_put summary entry false hordered, if_neg (by decide), append_assoc]
  exact perm_middle.trans (hsplit.cons entry)

theorem perm_put_remove {entry : A} (hentry : entry ∈ tree.toList) :
    tree.toList.Perm (entry :: (put summary compare tree entry true).toList) := by
  rw [toList_put summary entry true hordered, if_pos rfl, append_nil]
  obtain ⟨before, after, hsplit⟩ := append_of_mem hentry
  rw [hsplit] at hordered ⊢
  obtain ⟨hbelow, habove⟩ := entries_around hordered ReflCmp.compare_self
  rw [hbelow, habove]
  exact perm_middle

end

end Order

/-! ## Balance and cached values -/

/-- The two sides of every node differ by at most one in depth, and the cached
heights are the depths. -/
def Balanced : AvlTree A S → Prop
  | nil => True
  | node _ height _ left right =>
    height = 1 + max left.depth right.depth ∧ left.depth ≤ right.depth + 1 ∧
      right.depth ≤ left.depth + 1 ∧ left.Balanced ∧ right.Balanced

def Summed : AvlTree A S → Prop
  | nil => True
  | node entry height result left right =>
    result = total summary (node entry height result left right).toList ∧ left.Summed ∧ right.Summed

structure Sound (tree : AvlTree A S) : Prop where
  balanced : tree.Balanced
  summed : tree.Summed summary

omit [Monoid S] in
theorem Balanced.height_eq {tree : AvlTree A S} (hbalanced : tree.Balanced) :
    tree.height = tree.depth := by
  cases tree with
  | nil => rfl
  | node entry height result left right => exact hbalanced.1

theorem Summed.result_eq {tree : AvlTree A S} (hsummed : tree.Summed summary) :
    tree.result = total summary tree.toList := by
  cases tree with
  | nil => rfl
  | node entry height result left right => exact hsummed.1

@[simp]
theorem depth_update (entry : A) (left right : AvlTree A S) :
    (update summary entry left right).depth = 1 + max left.depth right.depth := rfl

variable {summary}

variable {left right : AvlTree A S}

section

variable (entry : A) (hleft : left.Sound summary) (hright : right.Sound summary)
include hleft hright

theorem Sound.update (hclose : left.depth ≤ right.depth + 1)
    (hclose' : right.depth ≤ left.depth + 1) :
    (AvlTree.update summary entry left right).Sound summary where
  balanced := by
    refine ⟨?_, hclose, hclose', hleft.balanced, hright.balanced⟩
    rw [hleft.balanced.height_eq, hright.balanced.height_eq]
  summed := by
    refine ⟨?_, hleft.summed, hright.summed⟩
    rw [hleft.summed.result_eq, hright.summed.result_eq, toList_node, total_append,
      total_cons, mul_assoc]

omit hleft hright in
theorem Sound.sides {height : ℕ} {result : S} (hsound : (node entry height result left right).Sound
    summary) : left.Sound summary ∧ right.Sound summary ∧
      left.depth ≤ right.depth + 1 ∧ right.depth ≤ left.depth + 1 := by
  obtain ⟨⟨-, hclose, hclose', hleft, hright⟩, -, hleftSummed, hrightSummed⟩ := hsound
  exact ⟨⟨hleft, hleftSummed⟩, ⟨hright, hrightSummed⟩, hclose, hclose'⟩

/-- A node whose left side is two too deep is sound after its rotation. -/
theorem Sound.lift_left (hdeep : left.depth = right.depth + 2) :
    (balance summary entry left right).Sound summary ∧
      left.depth ≤ (balance summary entry left right).depth ∧
      (balance summary entry left right).depth ≤ 1 + left.depth := by
  have hheight := hleft.balanced.height_eq
  rw [balance, if_pos (by rw [hheight, hright.balanced.height_eq]; omega)]
  obtain _ | ⟨next, height, result, outer, inner⟩ := left
  · exact absurd hdeep (by rw [depth]; omega)
  obtain ⟨houter, hinner, hclose, hclose'⟩ := hleft.sides
  rw [depth] at hdeep ⊢
  by_cases hdouble : (node next height result outer inner).right.height >
      (node next height result outer inner).left.height
  · -- The inner side is the deeper one: it is lifted above both.
    rw [if_pos hdouble]
    change inner.height > outer.height at hdouble
    rw [hinner.balanced.height_eq, houter.balanced.height_eq] at hdouble
    obtain _ | ⟨middle, height', result', before, after⟩ := inner
    · exact absurd hdouble (by rw [depth]; omega)
    obtain ⟨hbefore, hafter, hnear, hnear'⟩ := hinner.sides
    rw [depth] at hdeep hdouble hclose hclose' ⊢
    have hlow := houter.update next hbefore (by omega) (by omega)
    have hhigh := hafter.update entry hright (by omega) (by omega)
    refine ⟨hlow.update middle hhigh ?_ ?_, ?_, ?_⟩
    all_goals simp only [rotateLeft, rotateRight, AvlTree.update, depth]; omega
  · rw [if_neg hdouble]
    change ¬inner.height > outer.height at hdouble
    rw [hinner.balanced.height_eq, houter.balanced.height_eq] at hdouble
    have hhigh := hinner.update entry hright (by omega) (by omega)
    refine ⟨houter.update next hhigh ?_ ?_, ?_, ?_⟩
    all_goals simp only [rotateRight, AvlTree.update, depth]; omega

theorem Sound.lift_right (hdeep : right.depth = left.depth + 2) :
    (balance summary entry left right).Sound summary ∧
      right.depth ≤ (balance summary entry left right).depth ∧
      (balance summary entry left right).depth ≤ 1 + right.depth := by
  have hheight := hleft.balanced.height_eq
  have hheight' := hright.balanced.height_eq
  rw [balance, if_neg (by rw [hheight, hheight']; omega), if_pos (by rw [hheight, hheight']; omega)]
  obtain _ | ⟨next, height, result, inner, outer⟩ := right
  · exact absurd hdeep (by rw [depth]; omega)
  obtain ⟨hinner, houter, hclose, hclose'⟩ := hright.sides
  rw [depth] at hdeep ⊢
  by_cases hdouble : (node next height result inner outer).left.height >
      (node next height result inner outer).right.height
  · rw [if_pos hdouble]
    change inner.height > outer.height at hdouble
    rw [hinner.balanced.height_eq, houter.balanced.height_eq] at hdouble
    obtain _ | ⟨middle, height', result', before, after⟩ := inner
    · exact absurd hdouble (by rw [depth]; omega)
    obtain ⟨hbefore, hafter, hnear, hnear'⟩ := hinner.sides
    rw [depth] at hdeep hdouble hclose hclose' ⊢
    have hlow := hleft.update entry hbefore (by omega) (by omega)
    have hhigh := hafter.update next houter (by omega) (by omega)
    refine ⟨hlow.update middle hhigh ?_ ?_, ?_, ?_⟩
    all_goals simp only [rotateLeft, rotateRight, AvlTree.update, depth]; omega
  · rw [if_neg hdouble]
    change ¬inner.height > outer.height at hdouble
    rw [hinner.balanced.height_eq, houter.balanced.height_eq] at hdouble
    have hlow := hleft.update entry hinner (by omega) (by omega)
    refine ⟨hlow.update next houter ?_ ?_, ?_, ?_⟩
    all_goals simp only [rotateLeft, AvlTree.update, depth]; omega

end

def Near (depth other : ℕ) : Prop := depth ≤ other + 1 ∧ other ≤ depth + 1

/-- When one side of a balanced node has changed its depth by at most one, the
node balanced anew is sound and has changed its own by at most one. -/
theorem Sound.balance {depth other : ℕ} (entry : A)
    (hleft : left.Sound summary) (hright : right.Sound summary) (hclose : Near depth other)
    (hnear : Near left.depth depth ∧ right.depth = other ∨
      left.depth = depth ∧ Near right.depth other) :
    (AvlTree.balance summary entry left right).Sound summary ∧
      Near (AvlTree.balance summary entry left right).depth (1 + max depth other) := by
  unfold Near at *
  by_cases hdeepLeft : left.depth = right.depth + 2
  · obtain ⟨hsound, hlow, hhigh⟩ := hleft.lift_left entry hright hdeepLeft
    exact ⟨hsound, by omega⟩
  by_cases hdeepRight : right.depth = left.depth + 2
  · obtain ⟨hsound, hlow, hhigh⟩ := hleft.lift_right entry hright hdeepRight
    exact ⟨hsound, by omega⟩
  rw [AvlTree.balance, hleft.balanced.height_eq, hright.balanced.height_eq,
    if_neg (by omega), if_neg (by omega)]
  exact ⟨hleft.update entry hright (by omega) (by omega), by rw [depth_update]; omega⟩

/-- Storing or removing an entry keeps the tree sound and changes its depth by
at most one. -/
theorem Sound.put (compare : A → A → Ordering) {tree : AvlTree A S} (entry : A)
    (remove : Bool) (hsound : tree.Sound summary) :
    (AvlTree.put summary compare tree entry remove).Sound summary ∧
      Near (AvlTree.put summary compare tree entry remove).depth tree.depth := by
  induction tree generalizing entry remove with
  | nil =>
    cases remove with
    | true => exact ⟨hsound, Nat.le_succ _, Nat.le_succ _⟩
    | false =>
      have hleaf : (AvlTree.node entry 1 (summary entry) nil nil : AvlTree A S) =
          AvlTree.update summary entry nil nil := by
        rw [AvlTree.update]
        simp [height, result]
      rw [AvlTree.put, if_neg (by decide), hleaf]
      exact ⟨hsound.update entry hsound (Nat.le_succ _) (Nat.le_succ _), by
        simp [Near, depth]⟩
  | node held height result left right ihLeft ihRight =>
    obtain ⟨hleft, hright, hsides⟩ := hsound.sides
    have hkept : Near left.depth left.depth := ⟨Nat.le_succ _, Nat.le_succ _⟩
    rw [AvlTree.put, depth]
    cases compare entry held with
    | lt =>
      obtain ⟨hput, hnear⟩ := ihLeft entry remove hleft
      exact hput.balance held hright hsides (.inl ⟨hnear, rfl⟩)
    | gt =>
      obtain ⟨hput, hnear⟩ := ihRight entry remove hright
      exact hleft.balance held hput hsides (.inr ⟨rfl, hnear⟩)
    | eq =>
      cases remove with
      | false => exact hleft.balance entry hright hsides (.inl ⟨hkept, rfl⟩)
      | true =>
        cases hnil : left.isNil with
        | true =>
          have hempty : left.depth = 0 := depth_eq_zero.mpr hnil
          have hanswer : Near right.depth (1 + max left.depth right.depth) := ⟨by omega, by omega⟩
          simpa [hnil] using And.intro hright hanswer
        | false =>
          cases hnext : right.first with
          | none =>
            rw [first_eq_head?, head?_eq_none_iff, toList_eq_nil] at hnext
            have hempty : right.depth = 0 := depth_eq_zero.mpr hnext
            have hanswer : Near left.depth (1 + max left.depth right.depth) := ⟨by omega, by omega⟩
            have hfirst : right.first = none := by
              rw [first_eq_head?, head?_eq_none_iff, toList_eq_nil, hnext]
            simpa [hnil, hfirst] using And.intro hleft hanswer
          | some next =>
            obtain ⟨hput, hnear⟩ := ihRight next true hright
            simpa [hnil, hnext] using hleft.balance next hput hsides (.inr ⟨rfl, hnear⟩)

end Updates

/-! ## Searches along one path

The entries a search is about come first or last in the order. -/

section Searches

variable [Monoid S] (summary : A → S) (low : A → Bool)

def totalLow : AvlTree A S → S
  | nil => 1
  | node entry _ _ left right =>
    if low entry then left.result * summary entry * right.totalLow else left.totalLow

def totalHigh : AvlTree A S → S
  | nil => 1
  | node entry _ _ left right =>
    if low entry then right.totalHigh else left.totalHigh * summary entry * right.result

def firstHigh : AvlTree A S → Option A → Option A
  | nil, selected => selected
  | node entry _ _ left right, selected =>
    if low entry then right.firstHigh selected else left.firstHigh (some entry)

def listHigh : AvlTree A S → List A
  | nil => []
  | node entry _ _ left right =>
    (if low entry then [] else left.listHigh ++ [entry]) ++ right.listHigh

variable {summary low} {compare : A → A → Ordering} [TransCmp compare]

def Rising (compare : A → A → Ordering) (low : A → Bool) : Prop :=
  ∀ ⦃before after⦄, compare before after = .lt → low after → low before

/-- A node's low entries end in its right branch or in its left one. -/
theorem filter_node {entry : A} {left right : List A} (hrising : Rising compare low)
    (hordered : Ordered compare (left ++ entry :: right)) :
    (left ++ entry :: right).filter low =
        (if low entry then left ++ entry :: right.filter low else left.filter low) ∧
      (left ++ entry :: right).filter (fun held => !low held) =
        if low entry then right.filter fun held => !low held
        else left.filter (fun held => !low held) ++ entry :: right := by
  obtain ⟨-, -, hbefore, hafter⟩ := ordered_node_iff.mp hordered
  rw [filter_append, filter_append]
  cases hlow : low entry with
  | true =>
    have hall : ∀ held ∈ left, low held = true := fun held hheld =>
      hrising (hbefore held hheld) hlow
    have hnone : left.filter (fun held => !low held) = [] :=
      filter_eq_nil_iff.mpr fun held hheld => by simp [hall held hheld]
    rw [filter_eq_self.mpr hall, filter_cons_of_pos hlow, filter_cons_of_neg (by simp [hlow]),
      hnone]
    exact ⟨rfl, rfl⟩
  | false =>
    have hall : ∀ held ∈ right, low held = false := fun held hheld => by
      by_contra hheldLow
      have hrises := hrising (hafter held hheld) (Bool.eq_true_of_not_eq_false hheldLow)
      exact Bool.false_ne_true (hlow.symm.trans hrises)
    have hnone : right.filter low = [] :=
      filter_eq_nil_iff.mpr fun held hheld => by simp [hall held hheld]
    have hwhole : right.filter (fun held => !low held) = right :=
      filter_eq_self.mpr fun held hheld => by simp [hall held hheld]
    rw [filter_cons_of_neg (by simp [hlow]), filter_cons_of_pos (by simp [hlow]), hnone, hwhole,
      append_nil]
    exact ⟨rfl, rfl⟩

variable {tree : AvlTree A S}

section

variable (hrising : Rising compare low) (hsummed : tree.Summed summary)
  (hordered : Ordered compare tree.toList)
include hrising hsummed hordered

theorem totalLow_eq : tree.totalLow summary low = total summary (tree.toList.filter low) := by
  induction tree with
  | nil => rfl
  | node entry height result left right ihLeft ihRight =>
    obtain ⟨-, hleftSummed, hrightSummed⟩ := hsummed
    obtain ⟨hleft, hright, -, -⟩ := ordered_node_iff.mp hordered
    rw [totalLow, toList_node, (filter_node hrising hordered).1, ihLeft hleftSummed hleft,
      ihRight hrightSummed hright, hleftSummed.result_eq]
    split_ifs
    · rw [total_append, total_cons, mul_assoc]
    · rfl

theorem totalHigh_eq : tree.totalHigh summary low =
      total summary (tree.toList.filter fun held => !low held) := by
  induction tree with
  | nil => rfl
  | node entry height result left right ihLeft ihRight =>
    obtain ⟨-, hleftSummed, hrightSummed⟩ := hsummed
    obtain ⟨hleft, hright, -, -⟩ := ordered_node_iff.mp hordered
    rw [totalHigh, toList_node, (filter_node hrising hordered).2, ihLeft hleftSummed hleft,
      ihRight hrightSummed hright, hrightSummed.result_eq]
    split_ifs
    · rfl
    · rw [total_append, total_cons, mul_assoc]

end

omit [Monoid S] in
theorem listHigh_eq (hrising : Rising compare low) (hordered : Ordered compare tree.toList) :
    tree.listHigh low = tree.toList.filter fun held => !low held := by
  induction tree with
  | nil => rfl
  | node entry height result left right ihLeft ihRight =>
    obtain ⟨hleft, hright, -, -⟩ := ordered_node_iff.mp hordered
    have hnode := (filter_node hrising hordered).2
    rw [listHigh, toList_node, hnode, ihLeft hleft, ihRight hright]
    split_ifs with hlow
    · rfl
    · rw [if_neg hlow, filter_append, filter_cons_of_pos (by simp [hlow])] at hnode
      rw [append_assoc, singleton_append, hnode]

omit [Monoid S] in
theorem firstHigh_eq (selected : Option A)
    (hrising : Rising compare low) (hordered : Ordered compare tree.toList) :
    tree.firstHigh low selected = (tree.toList.filter fun held => !low held).head?.or selected := by
  induction tree generalizing selected with
  | nil => rfl
  | node entry height result left right ihLeft ihRight =>
    obtain ⟨hleft, hright, -, -⟩ := ordered_node_iff.mp hordered
    rw [firstHigh, toList_node, (filter_node hrising hordered).2, ihLeft (some entry) hleft,
      ihRight selected hright]
    split_ifs
    · rfl
    · rw [head?_append, head?_cons, Option.or_assoc]
      rfl

end Searches

end AvlTree

end SearchTrees
