import Mathlib.Data.List.Nodup

/-!
# Binary trees of labelled leaves

A tree of leaves whose splits carry data of their own, such as a direction and
a ratio.  Each operation is described by the leaves it leaves, in order.
-/

namespace SplitTrees

open List

variable {L S : Type*}

inductive SplitTree (L S : Type*) where
  | leaf (label : L)
  | split (data : S) (first second : SplitTree L S)
deriving DecidableEq

namespace SplitTree

def leaves : SplitTree L S → List L
  | leaf label => [label]
  | split _ first second => first.leaves ++ second.leaves

def leading : SplitTree L S → L
  | leaf label => label
  | split _ first _ => first.leading

def leavesOf (tree : Option (SplitTree L S)) : List L :=
  (tree.map leaves).getD []

@[simp]
theorem leavesOf_some (tree : SplitTree L S) : leavesOf (some tree) = tree.leaves := rfl

@[simp]
theorem leavesOf_none : leavesOf (none : Option (SplitTree L S)) = [] := rfl

theorem leaves_ne_nil (tree : SplitTree L S) : tree.leaves ≠ [] := by
  induction tree with
  | leaf label => simp [leaves]
  | split data first second ihFirst _ => simp [leaves, ihFirst]

theorem leavesOf_eq_nil {tree : Option (SplitTree L S)} : leavesOf tree = [] ↔ tree = none := by
  cases tree with
  | none => simp
  | some tree => simp [leaves_ne_nil]

theorem leading_mem (tree : SplitTree L S) : tree.leading ∈ tree.leaves := by
  induction tree with
  | leaf label => exact mem_singleton.mpr rfl
  | split data first second ihFirst _ => exact mem_append_left _ ihFirst

def joinSides (data : S) : Option (SplitTree L S) → Option (SplitTree L S) → Option (SplitTree L S)
  | none, second => second
  | first, none => first
  | some first, some second => some (split data first second)

@[simp]
theorem leavesOf_joinSides (data : S) (first second : Option (SplitTree L S)) :
    leavesOf (joinSides data first second) = leavesOf first ++ leavesOf second := by
  cases first <;> cases second <;> simp [joinSides, leaves]

/-! ## Keeping leaves -/

/-- Keeps the leaves of some labels; a split that loses a side is its sibling. -/
def prune (keep : L → Bool) : SplitTree L S → Option (SplitTree L S)
  | leaf label => if keep label then some (leaf label) else none
  | split data first second => joinSides data (first.prune keep) (second.prune keep)

theorem leavesOf_prune (keep : L → Bool) (tree : SplitTree L S) :
    leavesOf (tree.prune keep) = tree.leaves.filter keep := by
  induction tree with
  | leaf label => by_cases hlabel : keep label = true <;> simp [prune, leaves, hlabel]
  | split data first second ihFirst ihSecond =>
    rw [prune, leavesOf_joinSides, ihFirst, ihSecond, leaves, filter_append]

theorem bind_prune_joinSides (keep : L → Bool) (data : S) (first second : Option (SplitTree L S)) :
    (joinSides data first second).bind (·.prune keep) =
      joinSides data (first.bind (·.prune keep)) (second.bind (·.prune keep)) := by
  cases first with
  | none => cases second <;> rfl
  | some first =>
    cases second with
    | none =>
      change first.prune keep = joinSides data (first.prune keep) none
      cases first.prune keep <;> rfl
    | some second => rfl

theorem bind_prune_prune (keep stay : L → Bool) (tree : SplitTree L S) :
    (tree.prune keep).bind (·.prune stay) = tree.prune fun label => keep label && stay label := by
  induction tree with
  | leaf label =>
    rw [prune, prune]
    cases hkeep : keep label with
    | true => rw [if_pos rfl, Option.bind_some, prune, Bool.true_and]
    | false => rfl
  | split data first second ihFirst ihSecond =>
    rw [prune, bind_prune_joinSides, ihFirst, ihSecond, prune]

theorem prune_of_all {tree : SplitTree L S} {keep : L → Bool}
    (hkeep : ∀ label ∈ tree.leaves, keep label = true) : tree.prune keep = some tree := by
  induction tree with
  | leaf label => rw [prune, if_pos (hkeep label (mem_singleton_self label))]
  | split data first second ihFirst ihSecond =>
    rw [leaves] at hkeep
    rw [prune, ihFirst fun label hlabel => hkeep label (mem_append_left _ hlabel),
      ihSecond fun label hlabel => hkeep label (mem_append_right _ hlabel), joinSides]

/-! ## Wrapping a branch -/

/-- Wraps the smallest branch that passes, looking to the first side first;
none where the tree itself does not pass. -/
def wrapSmallest (inside : SplitTree L S → Bool) (wrap : SplitTree L S → SplitTree L S) :
    SplitTree L S → Option (SplitTree L S)
  | leaf label => if inside (leaf label) then some (wrap (leaf label)) else none
  | split data first second =>
    if inside (split data first second) then
      match first.wrapSmallest inside wrap with
      | some first => some (split data first second)
      | none =>
        match second.wrapSmallest inside wrap with
        | some second => some (split data first second)
        | none => some (wrap (split data first second))
    else none

theorem leaves_wrapSmallest {inside : SplitTree L S → Bool}
    {wrap : SplitTree L S → SplitTree L S} {added : List L}
    (hwrap : ∀ branch, (wrap branch).leaves.Perm (branch.leaves ++ added))
    {tree wrapped : SplitTree L S} (hwrapped : tree.wrapSmallest inside wrap = some wrapped) :
    wrapped.leaves.Perm (tree.leaves ++ added) := by
  induction tree generalizing wrapped with
  | leaf label =>
    rw [wrapSmallest] at hwrapped
    split at hwrapped
    · cases hwrapped
      exact hwrap (leaf label)
    · cases hwrapped
  | split data first second ihFirst ihSecond =>
    rw [wrapSmallest] at hwrapped
    split at hwrapped
    · split at hwrapped
      · rename_i firstWrapped hfirst
        cases hwrapped
        rw [leaves, leaves, append_assoc]
        calc (firstWrapped.leaves ++ second.leaves).Perm
              ((first.leaves ++ added) ++ second.leaves) :=
                (ihFirst hfirst).append_right second.leaves
          _ = first.leaves ++ (added ++ second.leaves) := append_assoc _ _ _
          List.Perm _ (first.leaves ++ (second.leaves ++ added)) :=
                perm_append_comm.append_left first.leaves
      · split at hwrapped
        · rename_i secondWrapped hsecond
          cases hwrapped
          rw [leaves, leaves, append_assoc]
          exact (ihSecond hsecond).append_left first.leaves
        · cases hwrapped
          exact hwrap (split data first second)
    · cases hwrapped

/-! ## Splits as they stand -/

def mapSplits (change : S → SplitTree L S → SplitTree L S → S) : SplitTree L S → SplitTree L S
  | leaf label => leaf label
  | split data first second =>
    split (change data first second) (mapSplits change first) (mapSplits change second)

@[simp]
theorem leaves_mapSplits (change : S → SplitTree L S → SplitTree L S → S)
    (tree : SplitTree L S) : (tree.mapSplits change).leaves = tree.leaves := by
  induction tree with
  | leaf label => rfl
  | split data first second ihFirst ihSecond => rw [mapSplits, leaves, leaves, ihFirst, ihSecond]

def mapData {T : Type*} (f : S → T) : SplitTree L S → SplitTree L T
  | leaf label => leaf label
  | split data first second => split (f data) (mapData f first) (mapData f second)

@[simp]
theorem leading_mapData {T : Type*} (f : S → T) (tree : SplitTree L S) :
    (tree.mapData f).leading = tree.leading := by
  induction tree with
  | leaf label => rfl
  | split data first second ihFirst _ => exact ihFirst

/-! ## Finding a leaf -/

variable [DecidableEq L]

def holds (tree : SplitTree L S) (label : L) : Bool :=
  match tree with
  | leaf other => other = label
  | split _ first second => first.holds label || second.holds label

variable {tree : SplitTree L S} {label : L}

@[simp]
theorem holds_iff : tree.holds label = true ↔ label ∈ tree.leaves := by
  induction tree with
  | leaf other => simp [holds, leaves, eq_comm]
  | split data first second ihFirst ihSecond => simp [holds, leaves, ihFirst, ihSecond]

/-! ## Removing a leaf -/

/-- Removes every leaf of a label; a split that loses a side is its sibling. -/
def remove (tree : SplitTree L S) (label : L) : Option (SplitTree L S) :=
  match tree with
  | leaf other => if other = label then none else some (leaf other)
  | split data first second => joinSides data (first.remove label) (second.remove label)

theorem remove_eq_prune (tree : SplitTree L S) (label : L) :
    tree.remove label = tree.prune (· ≠ label) := by
  induction tree with
  | leaf other => by_cases hother : other = label <;> simp [remove, prune, hother]
  | split data first second ihFirst ihSecond => rw [remove, prune, ihFirst, ihSecond]

theorem leavesOf_remove (tree : SplitTree L S) (label : L) :
    leavesOf (tree.remove label) = tree.leaves.filter (· ≠ label) := by
  rw [remove_eq_prune, leavesOf_prune]

def isLeaf (tree : SplitTree L S) (label : L) : Bool :=
  match tree with
  | leaf other => other = label
  | split _ _ _ => false

theorem leaves_of_isLeaf (hleaf : tree.isLeaf label) : tree.leaves = [label] := by
  cases tree with
  | leaf other => simpa [isLeaf, leaves] using hleaf
  | split data first second => exact absurd hleaf (by simp [isLeaf])

/-- Removes the leaf of a label, looking below a split only where neither side
is that leaf. -/
def removeLeaf (tree : SplitTree L S) (label : L) : Option (SplitTree L S) :=
  match tree with
  | leaf other => if other = label then none else some (leaf other)
  | split data first second =>
    if first.isLeaf label then some second
    else if second.isLeaf label then some first
    else joinSides data (first.removeLeaf label) (second.removeLeaf label)

theorem filter_ne_of_not_mem {labels : List L} (hlabel : label ∉ labels) :
    labels.filter (· ≠ label) = labels := by
  rw [filter_eq_self]
  intro other hother
  simpa using ne_of_mem_of_not_mem hother hlabel

/-- Where no leaf repeats, looking no further removes as much. -/
theorem leavesOf_removeLeaf (hnodup : tree.leaves.Nodup) (label : L) :
    leavesOf (tree.removeLeaf label) = tree.leaves.filter (· ≠ label) := by
  induction tree with
  | leaf other =>
    by_cases hother : other = label
    · simp [removeLeaf, leaves, hother]
    · simp [removeLeaf, leaves, hother]
  | split data first second ihFirst ihSecond =>
    rw [leaves, nodup_append] at hnodup
    obtain ⟨hfirst, hsecond, hapart⟩ := hnodup
    rw [removeLeaf, leaves, filter_append]
    split
    · rename_i hleaf
      have hlabel : label ∉ second.leaves := fun hmem =>
        hapart label (by rw [leaves_of_isLeaf hleaf]; simp) label hmem rfl
      rw [leaves_of_isLeaf hleaf, filter_ne_of_not_mem hlabel]
      simp
    · split
      · rename_i hleaf
        have hlabel : label ∉ first.leaves := fun hmem =>
          hapart label hmem label (by rw [leaves_of_isLeaf hleaf]; simp) rfl
        rw [leaves_of_isLeaf hleaf, filter_ne_of_not_mem hlabel]
        simp
      · rw [leavesOf_joinSides, ihFirst hfirst, ihSecond hsecond]

/-! ## Replacing a leaf -/

def graft (tree : SplitTree L S) (label : L) (replacement : SplitTree L S) : SplitTree L S :=
  match tree with
  | leaf other => if other = label then replacement else leaf other
  | split data first second =>
    split data (first.graft label replacement) (second.graft label replacement)

theorem graft_of_not_mem (hlabel : label ∉ tree.leaves)
    (replacement : SplitTree L S) : tree.graft label replacement = tree := by
  induction tree with
  | leaf other =>
    have hother : other ≠ label := by
      rintro rfl
      exact hlabel (mem_singleton.mpr rfl)
    rw [graft, if_neg hother]
  | split data first second ihFirst ihSecond =>
    rw [leaves, mem_append, not_or] at hlabel
    rw [graft, ihFirst hlabel.1, ihSecond hlabel.2]

/-- A label that stands once gives way to the leaves put in its place. -/
theorem leaves_graft_perm {tree replacement : SplitTree L S} {added : List L}
    (hnodup : tree.leaves.Nodup) (hlabel : label ∈ tree.leaves)
    (hreplacement : replacement.leaves.Perm (label :: added)) :
    (tree.graft label replacement).leaves.Perm (tree.leaves ++ added) := by
  induction tree with
  | leaf other =>
    have hother : other = label := (mem_singleton.mp hlabel).symm
    rw [graft, if_pos hother, leaves, hother]
    exact hreplacement
  | split data first second ihFirst ihSecond =>
    rw [leaves, nodup_append] at hnodup
    obtain ⟨hfirst, hsecond, hapart⟩ := hnodup
    rw [graft, leaves, leaves]
    rcases mem_append.mp hlabel with hmem | hmem
    · have hother : label ∉ second.leaves := fun hsecondMem =>
        hapart label hmem label hsecondMem rfl
      rw [graft_of_not_mem hother, append_assoc]
      calc ((first.graft label replacement).leaves ++ second.leaves).Perm
            ((first.leaves ++ added) ++ second.leaves) :=
              (ihFirst hfirst hmem).append_right second.leaves
        _ = first.leaves ++ (added ++ second.leaves) := append_assoc _ _ _
        List.Perm _ (first.leaves ++ (second.leaves ++ added)) :=
              perm_append_comm.append_left first.leaves
    · have hother : label ∉ first.leaves := fun hfirstMem =>
        hapart label hfirstMem label hmem rfl
      rw [graft_of_not_mem hother, append_assoc]
      exact (ihSecond hsecond hmem).append_left first.leaves

/-! ## Trees of one shape -/

def sameShape (alike : S → S → Bool) : SplitTree L S → SplitTree L S → Bool
  | leaf left, leaf right => left = right
  | split left leftFirst leftSecond, split right rightFirst rightSecond =>
    alike left right && leftFirst.sameShape alike rightFirst &&
      leftSecond.sameShape alike rightSecond
  | _, _ => false

theorem leaves_of_sameShape {alike : S → S → Bool} {left right : SplitTree L S}
    (hsame : left.sameShape alike right) : right.leaves = left.leaves := by
  induction left generalizing right with
  | leaf label =>
    cases right with
    | leaf other =>
      have hlabel : label = other := by simpa [sameShape] using hsame
      rw [hlabel]
    | split data first second => exact absurd hsame (by simp [sameShape])
  | split data first second ihFirst ihSecond =>
    cases right with
    | leaf other => exact absurd hsame (by simp [sameShape])
    | split other otherFirst otherSecond =>
      simp only [sameShape, Bool.and_eq_true] at hsame
      rw [leaves, leaves, ihFirst hsame.1.2, ihSecond hsame.2]

end SplitTree

end SplitTrees
