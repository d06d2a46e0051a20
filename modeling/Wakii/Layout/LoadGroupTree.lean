import Wakii.Layout.LoadOrderSound
import Wakii.Layout.LoadWorkspace

/-!
# The group tree of a loaded workspace

The stored tree loses the leaves of groups that are gone.  Nothing adds the leaf
of a group it lacks or drops one it repeats.
-/

namespace Wakii.LayoutLoad

open List OrderedCollections SplitTrees
open Wakii.CommandTypes Wakii.LayoutModel

variable {P : Type}

/-- The tree names each group once and nothing else, or is absent beside at most one. -/
def ShowsAllGroups (workspace : WorkspaceLayout P) : Prop :=
  match workspace.groupLayout with
  | none => workspace.groupIds.length ≤ 1
  | some tree => (∀ groupId ∈ workspace.groupIds, tree.leaves.count groupId = 1) ∧
      ∀ leaf ∈ tree.leaves, leaf ∈ workspace.groupIds

instance (workspace : WorkspaceLayout P) : Decidable (ShowsAllGroups workspace) := by
  unfold ShowsAllGroups
  split <;> infer_instance

def HoldsTab (args : WorkspaceLoadArgs P) (loaded : LoadedTabs P) (groupId : String) : Prop :=
  ∃ candidate ∈ loaded.candidates, homeGroup (args.session.groups args.key) loaded.candidates
      (args.context.mintId (.rootGroup args.key)) candidate = groupId

def storedTreeIds (args : WorkspaceLoadArgs P) : List String :=
  SplitTree.leavesOf (args.session.tabGroupLayouts.lookup args.key)

/-- The stored tree names each group that holds a tab once, or none of them where
the tabs go to one group. -/
def TreeFits (args : WorkspaceLoadArgs P) (loaded : LoadedTabs P) : Prop :=
  (∀ groupId, HoldsTab args loaded groupId → (storedTreeIds args).count groupId = 1) ∨
    (∀ groupId, HoldsTab args loaded groupId → groupId ∉ storedTreeIds args) ∧
      ∀ groupId other, HoldsTab args loaded groupId → HoldsTab args loaded other → groupId = other

section Fits

variable (args : WorkspaceLoadArgs P) (loaded : LoadedTabs P)

theorem mem_groupIds_workspaceOf (groupId : String) :
    groupId ∈ (workspaceOf args loaded).groupIds ↔ HoldsTab args loaded groupId := by
  rw [WorkspaceLayout.groupIds, groups_workspaceOf, mem_ids_resolveGroupOrder]
  rfl

theorem nodup_groupIds_workspaceOf : (workspaceOf args loaded).groupIds.Nodup := by
  rw [WorkspaceLayout.groupIds, groups_workspaceOf]
  exact nodup_ids_resolveGroupOrder _ _ _

theorem leavesOf_groupLayout : SplitTree.leavesOf (workspaceOf args loaded).groupLayout =
    (storedTreeIds args).filter (· ∈ (workspaceOf args loaded).groupIds) := by
  rw [groupLayout_workspaceOf, leavesOf_pruneGroupLayout]
  rfl

theorem count_storedTreeIds {groupId : String}
    (hgroup : groupId ∈ (workspaceOf args loaded).groupIds) :
    (SplitTree.leavesOf (workspaceOf args loaded).groupLayout).count groupId =
      (storedTreeIds args).count groupId := by
  rw [leavesOf_groupLayout, count_filter (by simpa using hgroup)]

theorem length_groupIds_le_one : (workspaceOf args loaded).groupIds.length ≤ 1 ↔
    ∀ groupId other, HoldsTab args loaded groupId → HoldsTab args loaded other →
      groupId = other := by
  simp only [← mem_groupIds_workspaceOf]
  constructor
  · intro hlength groupId other hgroup hother
    cases hids : (workspaceOf args loaded).groupIds with
    | nil => rw [hids] at hgroup; cases hgroup
    | cons first rest =>
      rw [hids, length_cons] at hlength
      have hrest : rest = [] := eq_nil_of_length_eq_zero (by omega)
      rw [hids, hrest, mem_singleton] at hgroup hother
      rw [hgroup, hother]
  · intro hall
    cases hids : (workspaceOf args loaded).groupIds with
    | nil => simp
    | cons first rest =>
      cases rest with
      | nil => simp
      | cons second rest =>
        rw [hids] at hall
        have hnodup := nodup_groupIds_workspaceOf args loaded
        rw [hids, hall first second (by simp) (by simp)] at hnodup
        simp at hnodup

/-- A loaded workspace can show all its groups where, and only where, its stored
tree fits the groups that its tabs go to. -/
theorem showsAllGroups_iff (layouts : OrderedMap String (PaneLayout P))
    (redirected : OrderedMap String String) :
    ShowsAllGroups (loadWorkspace args layouts redirected).1 ↔
      TreeFits args (loadTabs args layouts redirected) := by
  rw [loadWorkspace]
  generalize loadTabs args layouts redirected = loaded
  have hleaves := leavesOf_groupLayout args loaded
  have hcount : ∀ groupId, HoldsTab args loaded groupId →
      (SplitTree.leavesOf (workspaceOf args loaded).groupLayout).count groupId =
        (storedTreeIds args).count groupId := fun groupId hgroup =>
    count_storedTreeIds args loaded ((mem_groupIds_workspaceOf args loaded groupId).mpr hgroup)
  unfold ShowsAllGroups
  cases htree : (workspaceOf args loaded).groupLayout with
  | none =>
    -- no kept group is named, so the first case of a fit leaves no group at all
    rw [htree, SplitTree.leavesOf_none] at hcount
    have hunnamed : ∀ groupId, HoldsTab args loaded groupId →
        groupId ∉ storedTreeIds args := fun groupId hgroup =>
      count_eq_zero.mp ((hcount groupId hgroup).symm.trans count_nil)
    refine (length_groupIds_le_one args loaded).trans ⟨fun hone => Or.inr ⟨hunnamed, hone⟩, ?_⟩
    rintro (hnamed | ⟨-, hone⟩)
    · intro groupId other hgroup
      exact absurd (count_pos_iff.mp (by rw [hnamed groupId hgroup]; exact Nat.one_pos))
        (hunnamed groupId hgroup)
    · exact hone
  | some tree =>
    rw [htree, SplitTree.leavesOf_some] at hcount hleaves
    have hkept : ∀ leaf ∈ tree.leaves, leaf ∈ (workspaceOf args loaded).groupIds := by
      intro leaf hleaf
      rw [hleaves, mem_filter, decide_eq_true_iff] at hleaf
      exact hleaf.2
    have hall : (∀ groupId ∈ (workspaceOf args loaded).groupIds,
        tree.leaves.count groupId = 1) ↔ ∀ groupId, HoldsTab args loaded groupId →
          (storedTreeIds args).count groupId = 1 := by
      refine forall_congr' fun groupId => ?_
      rw [mem_groupIds_workspaceOf]
      exact imp_congr_right fun hgroup => by rw [hcount groupId hgroup]
    constructor
    · exact fun hshown => Or.inl (hall.mp hshown.1)
    · rintro (hnamed | ⟨hunnamed, -⟩)
      · exact ⟨hall.mpr hnamed, hkept⟩
      · -- the tree has a leaf, which names a group that holds a tab
        have hholds := (mem_groupIds_workspaceOf args loaded _).mp (hkept _ tree.leading_mem)
        have hstored := tree.leading_mem
        rw [hleaves] at hstored
        exact absurd (mem_filter.mp hstored).1 (hunnamed _ hholds)

end Fits

/-! ## Trees that do not fit -/

def windowRuntime : LayoutRuntime Unit where
  layoutOwnerIsMain := false
  evenRatio := ()
  isNearEven _ := true
  share _ _ := ()
  roundRatio ratio := ratio

def browserEntry (id groupId : String) : Tab Unit where
  id
  entityId := id
  groupId
  worktreeId := "w"
  contentType := .content .browser
  label := id
  customLabel := none
  color := none
  sortOrder := 0
  createdAt := 0

def twoGroups (tree : Option (TabGroupLayoutNode Unit)) : WorkspaceLoadArgs Unit where
  runtime := windowRuntime
  context := nameBasedLoadContext
  session :=
    { unifiedTabs := OrderedMap.ofPairs
        [("w", [browserEntry "first" "g", browserEntry "second" "h"])]
      tabGroups := OrderedMap.ofPairs [("w", [⟨"g", "w", ["first"]⟩, ⟨"h", "w", ["second"]⟩])]
      tabGroupLayouts := OrderedMap.ofPairs (tree.toList.map fun tree => ("w", tree)) }
  terminalHomes := ∅
  hostId := "local"
  key := "w"

/-- A tree that misses a group, one that repeats a group, and none for two groups. -/
theorem hides_groups : (∃ layouts redirected, ¬ ShowsAllGroups
      (loadWorkspace (twoGroups (some (.leaf "g"))) layouts redirected).1) ∧
    (∃ layouts redirected, ¬ ShowsAllGroups
      (loadWorkspace (twoGroups (some (.split { direction := .horizontal, ratio := none }
        (.leaf "g") (.split { direction := .vertical, ratio := none } (.leaf "h") (.leaf "g")))))
          layouts redirected).1) ∧
    ∃ layouts redirected, ¬ ShowsAllGroups
      (loadWorkspace (twoGroups none) layouts redirected).1 :=
  ⟨⟨∅, ∅, by decide +kernel⟩, ⟨∅, ∅, by decide +kernel⟩, ⟨∅, ∅, by decide +kernel⟩⟩

end Wakii.LayoutLoad
