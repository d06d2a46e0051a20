import Wakii.Layout.CommandSteps

/-!
# The panes of a tab that is being retired

Panes are looked for in a tree that is walked no further than needed, and
removed once the tree was walked to its end.  The tree itself is pruned at last.
-/

namespace Wakii.LayoutLoad

open List SplitTrees
open Wakii.CommandSteps Wakii.LayoutModel

variable {P : Type}

/-- The panes met so far and the branches not walked, the next one first. -/
structure PaneWalk (P : Type) where
  present : List String
  remaining : List (TerminalPaneLayoutNode P)

structure RetiringPanes (P : Type) extends PaneWalk P where
  root : Option (TerminalPaneLayoutNode P)
  removed : List String

namespace RetiringPanes

def new (root : Option (TerminalPaneLayoutNode P)) : RetiringPanes P where
  root
  present := []
  removed := []
  remaining := root.toList

/-- Walks a branch up to a pane; its second side waits while the first is walked. -/
def walk (stop : Option String) : TerminalPaneLayoutNode P → PaneWalk P → Bool × PaneWalk P
  | .leaf leafId, state =>
    (some leafId = stop, { state with present := state.present ++ [leafId] })
  | .split _ first second, state =>
    let (found, state) := walk stop first { state with remaining := second :: state.remaining }
    if found then (true, state)
    else walk stop second { state with remaining := state.remaining.tail }

def walkAll (stop : Option String) : List (TerminalPaneLayoutNode P) → List String →
    Bool × PaneWalk P
  | [], present => (false, { present, remaining := [] })
  | node :: remaining, present =>
    let (found, state) := walk stop node { present, remaining }
    if found then (true, state) else walkAll stop remaining state.present

def contains (panes : RetiringPanes P) (leafId : String) : Bool × RetiringPanes P :=
  if leafId ∈ panes.removed then (false, panes)
  else if leafId ∈ panes.present then (true, panes)
  else
    let (found, state) := walkAll (some leafId) panes.remaining panes.present
    (found, { panes with toPaneWalk := state })

def remove (panes : RetiringPanes P) (leafId : String) : Bool × RetiringPanes P :=
  let (_, state) := walkAll none panes.remaining panes.present
  let present := state.present.filter (· ≠ leafId)
  (present.isEmpty,
    { panes with
      present
      remaining := state.remaining
      removed := panes.removed ++ [leafId] })

def materialize (panes : RetiringPanes P) : Option (TerminalPaneLayoutNode P) :=
  panes.root.bind (·.prune (· ∉ panes.removed))

/-! ## What a walk meets -/

/-- A walk meets some panes and leaves the rest in branches before those that waited. -/
def Walked (stop : Option String) (leafIds : List String) (before after : PaneWalk P)
    (found : Bool) : Prop :=
  ∃ met left, after.present = before.present ++ met ∧
    after.remaining = left ++ before.remaining ∧ leafIds = met ++ left.flatMap SplitTree.leaves ∧
    (found = true ↔ ∃ leafId ∈ met, stop = some leafId) ∧ (found = false → left = [])

theorem Walked.append {stop : Option String} {first second : List String}
    {before middle after : PaneWalk P} {remaining : List (TerminalPaneLayoutNode P)} {found : Bool}
    (hfirst : Walked stop first before middle false)
    (hsecond : Walked stop second { middle with remaining } after found) :
    Walked stop (first ++ second) { before with remaining } after found := by
  obtain ⟨met, left, hpresent, -, hleaves, hfound, hleft⟩ := hfirst
  obtain ⟨others, rest, hpresent', hremaining', hleaves', hfound', hrest⟩ := hsecond
  rw [hleft rfl, flatMap_nil, append_nil] at hleaves
  refine ⟨met ++ others, rest, ?_, hremaining', ?_, ?_, hrest⟩
  · rw [← append_assoc, ← hpresent]
    exact hpresent'
  · rw [hleaves, hleaves', append_assoc]
  · have hmissed : ¬ ∃ leafId ∈ met, stop = some leafId := fun hmet =>
      Bool.false_ne_true (hfound.mpr hmet)
    rw [hfound']
    constructor
    · rintro ⟨leafId, hmem, hstop⟩
      exact ⟨leafId, mem_append_right _ hmem, hstop⟩
    · rintro ⟨leafId, hmem, hstop⟩
      rcases mem_append.mp hmem with hmet | hother
      · exact absurd ⟨leafId, hmet, hstop⟩ hmissed
      · exact ⟨leafId, hother, hstop⟩

theorem walked_walk (stop : Option String) (node : TerminalPaneLayoutNode P) (state : PaneWalk P) :
    Walked stop node.leaves state (walk stop node state).2 (walk stop node state).1 := by
  induction node generalizing state with
  | leaf leafId => exact ⟨[leafId], [], rfl, rfl, rfl, by simp [walk, eq_comm], fun _ => rfl⟩
  | split data first second ihFirst ihSecond =>
    have hwalked := ihFirst { state with remaining := second :: state.remaining }
    rw [walk, SplitTree.leaves]
    generalize walk stop first { state with remaining := second :: state.remaining } = result
      at hwalked ⊢
    obtain ⟨found, middle⟩ := result
    obtain ⟨met, left, hpresent, hremaining, hleaves, hfound, hleft⟩ := id hwalked
    cases found with
    | true =>
      refine ⟨met, left ++ [second], hpresent, ?_, ?_, hfound, fun h => (by cases h)⟩
      · rw [append_assoc]
        exact hremaining
      · rw [hleaves, flatMap_append, append_assoc]
        simp
    | false =>
      have htail : middle.remaining.tail = state.remaining := by
        rw [hremaining, hleft rfl]
        rfl
      have hboth := hwalked.append (ihSecond { middle with remaining := middle.remaining.tail })
      change Walked stop _ state
        (walk stop second { middle with remaining := middle.remaining.tail }).2
        (walk stop second { middle with remaining := middle.remaining.tail }).1
      rw [htail] at hboth ⊢
      exact hboth

theorem walked_walkAll (stop : Option String) (nodes : List (TerminalPaneLayoutNode P))
    (present : List String) :
    Walked stop (nodes.flatMap SplitTree.leaves) { present, remaining := [] }
      (walkAll stop nodes present).2 (walkAll stop nodes present).1 := by
  induction nodes generalizing present with
  | nil => exact ⟨[], [], by simp [walkAll], by simp [walkAll], rfl, by simp [walkAll], by simp⟩
  | cons node remaining ih =>
    have hwalked := walked_walk stop node { present, remaining }
    rw [walkAll, flatMap_cons]
    generalize walk stop node { present, remaining } = result at hwalked ⊢
    obtain ⟨found, middle⟩ := result
    cases found with
    | true =>
      obtain ⟨met, left, hpresent, hremaining, hleaves, hfound, -⟩ := hwalked
      refine ⟨met, left ++ remaining, hpresent, ?_, ?_, hfound, fun h => (by cases h)⟩
      · rw [append_nil]
        exact hremaining
      · rw [hleaves, flatMap_append, append_assoc]
    | false => exact hwalked.append (ih middle.present)

/-! ## What the panes stand for -/

/-- The walk knows what is left of the tree; nothing waits once a pane was removed. -/
structure Known (panes : RetiringPanes P) : Prop where
  left : ∀ leafId, leafId ∉ panes.removed → (leafId ∈ SplitTree.leavesOf panes.root ↔
    leafId ∈ panes.present ∨ leafId ∈ panes.remaining.flatMap SplitTree.leaves)
  apart : ∀ leafId ∈ panes.removed, leafId ∉ panes.present
  settled : panes.removed ≠ [] → panes.remaining = []

variable {panes : RetiringPanes P} {leafId : String}

theorem known_new (root : Option (TerminalPaneLayoutNode P)) : Known (new root) where
  left leafId _ := by cases root <;> simp [new]
  apart leafId hleaf := (by cases hleaf)
  settled hne := absurd rfl hne

theorem leavesOf_materialize (panes : RetiringPanes P) : SplitTree.leavesOf panes.materialize =
      (SplitTree.leavesOf panes.root).filter (· ∉ panes.removed) := by
  cases hroot : panes.root with
  | none => simp [materialize, hroot]
  | some root => simp [materialize, hroot, SplitTree.leavesOf_prune]

theorem mem_materialize : leafId ∈ SplitTree.leavesOf panes.materialize ↔
    leafId ∈ SplitTree.leavesOf panes.root ∧ leafId ∉ panes.removed := by
  rw [leavesOf_materialize, mem_filter, decide_eq_true_iff]

/-- Looking for a leaf walks it and changes nothing. -/
theorem Known.contains (hknown : Known panes) (leafId : String) :
    ((panes.contains leafId).1 = true ↔ leafId ∈ SplitTree.leavesOf panes.materialize) ∧
      (panes.contains leafId).2.root = panes.root ∧
      (panes.contains leafId).2.removed = panes.removed ∧ Known (panes.contains leafId).2 := by
  rw [mem_materialize, RetiringPanes.contains]
  split_ifs with hremoved hpresent
  · exact ⟨by simp [hremoved], rfl, rfl, hknown⟩
  · exact ⟨by simp [hknown.left leafId hremoved, hpresent, hremoved], rfl, rfl, hknown⟩
  · obtain ⟨met, left, hmet, hleft, hleaves, hfound, hall⟩ :=
      walked_walkAll (some leafId) panes.remaining panes.present
    generalize walkAll (some leafId) panes.remaining panes.present = result
      at hmet hleft hfound hall ⊢
    obtain ⟨found, state⟩ := result
    dsimp only at hmet hleft hfound hall ⊢
    rw [append_nil] at hleft
    have hmem : ∀ other, other ∈ panes.remaining.flatMap SplitTree.leaves ↔
        other ∈ met ∨ other ∈ state.remaining.flatMap SplitTree.leaves := fun other => by
      rw [hleaves, hleft, mem_append]
    refine ⟨?_, rfl, rfl, ?_⟩
    · rw [hknown.left leafId hremoved, hmem, hfound]
      constructor
      · rintro ⟨other, hother, heq⟩
        cases heq
        exact ⟨Or.inr (Or.inl hother), hremoved⟩
      · rintro ⟨hpresent' | hother | hother, -⟩
        · exact absurd hpresent' hpresent
        · exact ⟨leafId, hother, rfl⟩
        · cases hfoundAt : found with
          | true => exact hfound.mp hfoundAt
          | false =>
            rw [hleft, hall hfoundAt] at hother
            cases hother
    · refine ⟨fun other hother => ?_, fun other hother => ?_, fun hne => ?_⟩
      · rw [hknown.left other hother, hmem, hmet, mem_append, or_assoc]
      · rw [hmet, mem_append, not_or]
        refine ⟨hknown.apart other hother, fun hmetOther => ?_⟩
        have hempty := hknown.settled (ne_nil_of_mem hother)
        rw [hempty] at hleaves
        rw [(append_eq_nil_iff.mp hleaves.symm).1] at hmetOther
        cases hmetOther
      · have hempty := hknown.settled hne
        rw [hempty] at hleaves
        have hnone := (append_eq_nil_iff.mp hleaves.symm).2
        rw [hleft]
        cases hcases : left with
        | nil => rfl
        | cons node rest =>
          rw [hcases, flatMap_cons, append_eq_nil_iff] at hnone
          exact absurd hnone.1 node.leaves_ne_nil

theorem root_remove (panes : RetiringPanes P) (leafId : String) :
    (panes.remove leafId).2.root = panes.root := rfl

theorem removed_remove (panes : RetiringPanes P) (leafId : String) :
    (panes.remove leafId).2.removed = panes.removed ++ [leafId] := rfl

theorem materialize_remove (panes : RetiringPanes P) (leafId : String) :
    (panes.remove leafId).2.materialize = removeLayoutLeaf panes.materialize leafId := by
  rw [materialize, root_remove, removed_remove, removeLayoutLeaf, materialize]
  cases panes.root with
  | none => rfl
  | some root =>
    rw [Option.bind_some, Option.bind_some]
    simp only [SplitTree.remove_eq_prune]
    rw [SplitTree.bind_prune_prune]
    congr 1
    funext other
    rw [← Bool.decide_and]
    exact decide_eq_decide.mpr (by rw [mem_append, mem_singleton, not_or])

/-- Removing a leaf tells whether nothing is left. -/
theorem Known.remove (hknown : Known panes) (leafId : String) : Known (panes.remove leafId).2 ∧
      ((panes.remove leafId).1 = true ↔ removeLayoutLeaf panes.materialize leafId = none) := by
  obtain ⟨met, left, hmet, hremaining, hleaves, hfound, hall⟩ :=
    walked_walkAll none panes.remaining panes.present
  have hmissed : (walkAll none panes.remaining panes.present).1 = false := by
    rw [Bool.eq_false_iff]
    intro htrue
    obtain ⟨other, -, hstop⟩ := hfound.mp htrue
    cases hstop
  obtain rfl := hall hmissed
  have hpresent : (panes.remove leafId).2.present = (panes.present ++ met).filter (· ≠ leafId) := by
    rw [← hmet]
    rfl
  have hnext : Known (panes.remove leafId).2 := by
    refine ⟨fun other hother => ?_, fun other hother => ?_, fun _ => hremaining⟩
    · rw [removed_remove, mem_append, mem_singleton, not_or] at hother
      have hrest : (panes.remove leafId).2.remaining = [] := hremaining
      rw [root_remove, hknown.left other hother.1, hpresent, hrest, hleaves, mem_filter, mem_append]
      simp [hother.2]
    · rw [hpresent, mem_filter, mem_append, decide_eq_true_iff]
      rintro ⟨hmem, hne⟩
      rw [removed_remove, mem_append, mem_singleton] at hother
      have hremoved := hother.resolve_right hne
      rcases hmem with hmem | hmem
      · exact hknown.apart other hremoved hmem
      · rw [hknown.settled (ne_nil_of_mem hremoved)] at hleaves
        rw [(append_eq_nil_iff.mp hleaves.symm).1] at hmem
        cases hmem
  refine ⟨hnext, ?_⟩
  have hempty : (panes.remove leafId).1 = true ↔ (panes.remove leafId).2.present = [] :=
    List.isEmpty_iff
  rw [hempty, ← materialize_remove, ← SplitTree.leavesOf_eq_nil, leavesOf_materialize,
    filter_eq_nil_iff, eq_nil_iff_forall_not_mem]
  have hrest : (panes.remove leafId).2.remaining = [] := hremaining
  constructor
  · intro hnone other hother
    rw [decide_eq_true_iff, not_not]
    by_contra hremoved
    rcases (hnext.left other hremoved).mp hother with hmem | hmem
    · exact hnone other hmem
    · rw [hrest] at hmem
      cases hmem
  · intro hall other hmem
    have hremoved : other ∉ (panes.remove leafId).2.removed := fun hremoved =>
      hnext.apart other hremoved hmem
    have hkept := hall other ((hnext.left other hremoved).mpr (Or.inl hmem))
    rw [decide_eq_true_iff, not_not] at hkept
    exact hremoved hkept

end RetiringPanes

end Wakii.LayoutLoad
