import Wakii.Layout.CommandTypes
import Wakii.Library.KeyedList

/-!
# Moves in pane and group trees

Both kinds of tree are split, pruned and resized.  The leaves a move leaves are
stated beside it.
-/

namespace Wakii.LayoutTrees

open List KeyedLists SplitTrees Wakii.CommandTypes Wakii.LayoutModel SplitTree

variable {P : Type}

/-! ## Ratios -/

def groupDirectionName : TabGroupSplitDirection → String
  | .horizontal => "horizontal"
  | .vertical => "vertical"

def paneDirectionName : TerminalPaneSplitDirection → String
  | .horizontal => "horizontal"
  | .vertical => "vertical"

def segmentsOf (path : String) : List String :=
  if path = "" then [] else path.splitOn "."

section Ratios

variable {S : Type} (directionOf : S → String) (withRatio : S → P → S)

/-- An older window's intent names no split and is taken at its path. -/
def isSplitMeant (data : S) (first second : SplitTree String S) : Option SplitIdentity → Bool
  | none => true
  | some meant =>
    directionOf data = meant.direction && first.leading = meant.first &&
      second.leading = meant.second

/-- Sets the ratio at a path, where the path leads to the split that is meant. -/
def withSplitRatio (intent : SplitRatioIntent P) :
    List String → SplitTree String S → Option (SplitTree String S)
  | _, .leaf _ => none
  | [], .split data first second =>
    if isSplitMeant directionOf data first second intent.split then
      some (.split (withRatio data intent.ratio) first second)
    else none
  | segment :: rest, .split data first second =>
    if segment = "first" then
      (withSplitRatio intent rest first).map fun first => .split data first second
    else if segment = "second" then
      (withSplitRatio intent rest second).map fun second => .split data first second
    else none

def withSplitRatios (root : SplitTree String S) (ratios : List (SplitRatioIntent P)) :
    Option (SplitTree String S) :=
  ratios.foldlM
    (fun root intent => withSplitRatio directionOf withRatio intent (segmentsOf intent.path) root)
    root

theorem leaves_withSplitRatio {intent : SplitRatioIntent P} {segments : List String}
    {root next : SplitTree String S}
    (hnext : withSplitRatio directionOf withRatio intent segments root = some next) :
    next.leaves = root.leaves := by
  induction root generalizing segments next with
  | leaf label => cases segments <;> cases hnext
  | split data first second ihFirst ihSecond =>
    cases segments with
    | nil =>
      rw [withSplitRatio] at hnext
      split at hnext
      · cases hnext
        rfl
      · cases hnext
    | cons segment rest =>
      rw [withSplitRatio] at hnext
      split at hnext
      · obtain ⟨firstNext, hfirst, rfl⟩ := Option.map_eq_some_iff.mp hnext
        rw [SplitTree.leaves, SplitTree.leaves, ihFirst hfirst]
      · split at hnext
        · obtain ⟨secondNext, hsecond, rfl⟩ := Option.map_eq_some_iff.mp hnext
          rw [SplitTree.leaves, SplitTree.leaves, ihSecond hsecond]
        · cases hnext

theorem leaves_withSplitRatios {ratios : List (SplitRatioIntent P)}
    {root next : SplitTree String S}
    (hnext : withSplitRatios directionOf withRatio root ratios = some next) :
    next.leaves = root.leaves := by
  induction ratios generalizing root with
  | nil =>
    cases hnext
    rfl
  | cons intent ratios ih =>
    rw [withSplitRatios, foldlM_cons] at hnext
    obtain ⟨middle, hmiddle, hrest⟩ := Option.bind_eq_some_iff.mp hnext
    rw [ih hrest, leaves_withSplitRatio directionOf withRatio hmiddle]

end Ratios

def withPaneSplitRatios (runtime : LayoutRuntime P) (root : TerminalPaneLayoutNode P)
    (ratios : List (SplitRatioIntent P)) : Option (TerminalPaneLayoutNode P) :=
  withSplitRatios (fun data : PaneSplit P => paneDirectionName data.direction)
    (fun data ratio => { data with ratio := if runtime.isNearEven ratio then none else some ratio })
    root ratios

def withGroupSplitRatios (root : TabGroupLayoutNode P) (ratios : List (SplitRatioIntent P)) :
    Option (TabGroupLayoutNode P) :=
  withSplitRatios (fun data : GroupSplit P => groupDirectionName data.direction)
    (fun data ratio => { data with ratio := some ratio }) root ratios

def samePanesIgnoringRatios (left right : TerminalPaneLayoutNode P) : Bool :=
  left.sameShape (fun data other => data.direction = other.direction) right

def sameGroupsIgnoringRatios (left right : TabGroupLayoutNode P) : Bool :=
  left.sameShape (fun data other => data.direction = other.direction) right

/-! ## Panes -/

def insertLeafBeside (node : TerminalPaneLayoutNode P) (targetLeafId newLeafId : String)
    (side : PaneSide) (ratio : Option P) : TerminalPaneLayoutNode P :=
  let before := side = .left || side = .top
  let direction : TerminalPaneSplitDirection :=
    if side = .left || side = .right then .vertical else .horizontal
  let target : TerminalPaneLayoutNode P := .leaf targetLeafId
  let added : TerminalPaneLayoutNode P := .leaf newLeafId
  node.graft targetLeafId
    (.split { direction, ratio } (if before then added else target)
      (if before then target else added))

theorem leaves_insertLeafBeside {node : TerminalPaneLayoutNode P} {targetLeafId : String}
    (hnodup : node.leaves.Nodup) (htarget : targetLeafId ∈ node.leaves) (newLeafId : String)
    (side : PaneSide) (ratio : Option P) :
    (insertLeafBeside node targetLeafId newLeafId side ratio).leaves.Perm
      (node.leaves ++ [newLeafId]) := by
  apply leaves_graft_perm hnodup htarget
  cases side with
  | left => exact List.Perm.swap _ _ _
  | top => exact List.Perm.swap _ _ _
  | right => exact List.Perm.refl _
  | bottom => exact List.Perm.refl _

def equalizeWeight (direction : TerminalPaneSplitDirection) : TerminalPaneLayoutNode P → ℕ
  | .leaf _ => 1
  | .split data first second =>
    if data.direction = direction then
      equalizeWeight direction first + equalizeWeight direction second
    else 1

def equalizeLayout (runtime : LayoutRuntime P) (root : TerminalPaneLayoutNode P) :
    TerminalPaneLayoutNode P :=
  root.mapSplits fun data first second =>
    let ratio := runtime.share (equalizeWeight data.direction first)
      (equalizeWeight data.direction second)
    { data with
      ratio := if runtime.isNearEven ratio then none else some (runtime.roundRatio ratio) }

/-! ## Groups -/

def splitAxis (side : GroupSide) : TabGroupSplitDirection :=
  if side = .left || side = .right then .horizontal else .vertical

def besideNode (runtime : LayoutRuntime P) (side : GroupSide) (added node : TabGroupLayoutNode P) :
    TabGroupLayoutNode P :=
  let addedFirst := side = .left || side = .up
  .split { direction := splitAxis side, ratio := some runtime.evenRatio }
    (if addedFirst then added else node) (if addedFirst then node else added)

theorem leaves_besideNode (runtime : LayoutRuntime P) (side : GroupSide) (groupId : String)
    (node : TabGroupLayoutNode P) :
    (besideNode runtime side (.leaf groupId) node).leaves.Perm (node.leaves ++ [groupId]) := by
  cases side with
  | left => exact (perm_append_singleton groupId node.leaves).symm
  | up => exact (perm_append_singleton groupId node.leaves).symm
  | right => exact List.Perm.refl _
  | down => exact List.Perm.refl _

def buildSplitNode (runtime : LayoutRuntime P) (existingGroupId newGroupId : String)
    (side : GroupSide) : TabGroupLayoutNode P :=
  besideNode runtime side (.leaf newGroupId) (.leaf existingGroupId)

def moveGroupLeafBeside (runtime : LayoutRuntime P) (root : TabGroupLayoutNode P)
    (groupId besideGroupId : String) (side : GroupSide) : TabGroupLayoutNode P :=
  ((root.removeLeaf groupId).getD (.leaf besideGroupId)).graft besideGroupId
    (buildSplitNode runtime besideGroupId groupId side)

def moveGroupLeafBesideBranch (runtime : LayoutRuntime P) (root : TabGroupLayoutNode P)
    (groupId fromGroupId toGroupId : String) (side : GroupSide) :
    Option (TabGroupLayoutNode P) :=
  (root.removeLeaf groupId).bind fun rest =>
    rest.wrapSmallest (fun node => node.holds fromGroupId && node.holds toGroupId)
      (besideNode runtime side (.leaf groupId))

theorem leaves_moveGroupLeafBeside (runtime : LayoutRuntime P) {root : TabGroupLayoutNode P}
    {groupId besideGroupId : String} (hnodup : root.leaves.Nodup)
    (hgroup : groupId ∈ root.leaves) (hbeside : besideGroupId ∈ root.leaves)
    (hdiffer : groupId ≠ besideGroupId) (side : GroupSide) :
    (moveGroupLeafBeside runtime root groupId besideGroupId side).leaves.Perm root.leaves := by
  have hleaves := leavesOf_removeLeaf hnodup groupId
  cases hrest : root.removeLeaf groupId with
  | none =>
    have hkept : besideGroupId ∈ root.leaves.filter (· ≠ groupId) :=
      mem_filter.mpr ⟨hbeside, by simpa using hdiffer.symm⟩
    rw [← hleaves, hrest] at hkept
    cases hkept
  | some rest =>
    rw [hrest, leavesOf_some] at hleaves
    have hkept : besideGroupId ∈ rest.leaves := by
      rw [hleaves]
      exact mem_filter.mpr ⟨hbeside, by simpa using hdiffer.symm⟩
    have hrestNodup : rest.leaves.Nodup := by
      rw [hleaves]
      exact hnodup.filter _
    rw [moveGroupLeafBeside, hrest, Option.getD_some]
    have hmoved : (rest.graft besideGroupId
        (buildSplitNode runtime besideGroupId groupId side)).leaves.Perm
          (rest.leaves ++ [groupId]) := by
      apply leaves_graft_perm hrestNodup hkept
      exact leaves_besideNode runtime side groupId (.leaf besideGroupId)
    have herased : (rest.leaves ++ [groupId]).Perm root.leaves := by
      rw [hleaves]
      exact (perm_append_singleton groupId _).trans (perm_filter_ne hnodup hgroup).symm
    exact hmoved.trans herased

theorem leaves_moveGroupLeafBesideBranch (runtime : LayoutRuntime P)
    {root moved : TabGroupLayoutNode P} {groupId fromGroupId toGroupId : String}
    {side : GroupSide} (hnodup : root.leaves.Nodup) (hgroup : groupId ∉ root.leaves)
    (hmoved : moveGroupLeafBesideBranch runtime root groupId fromGroupId toGroupId side =
      some moved) : moved.leaves.Perm (root.leaves ++ [groupId]) := by
  obtain ⟨rest, hrest, hwrapped⟩ := Option.bind_eq_some_iff.mp hmoved
  have hleaves := leavesOf_removeLeaf hnodup groupId
  rw [hrest, leavesOf_some, filter_ne_of_not_mem hgroup] at hleaves
  rw [← hleaves]
  exact leaves_wrapSmallest (leaves_besideNode runtime side groupId) hwrapped

def pruneGroupLeaves (liveGroupIds : List String) (layout : Option (TabGroupLayoutNode P)) :
    Option (TabGroupLayoutNode P) :=
  (SplitTree.leavesOf layout).foldl
    (fun layout groupId =>
      if groupId ∈ liveGroupIds then layout else layout.bind (·.remove groupId))
    layout

private theorem leavesOf_foldl_remove (liveGroupIds groupIds : List String)
    (layout : Option (TabGroupLayoutNode P)) :
    SplitTree.leavesOf (groupIds.foldl (fun layout groupId =>
        if groupId ∈ liveGroupIds then layout else layout.bind (·.remove groupId)) layout) =
      (SplitTree.leavesOf layout).filter fun groupId =>
        groupId ∈ liveGroupIds || groupId ∉ groupIds := by
  induction groupIds generalizing layout with
  | nil => simp
  | cons groupId groupIds ih =>
    rw [foldl_cons, ih]
    by_cases hlive : groupId ∈ liveGroupIds
    · rw [if_pos hlive]
      apply filter_congr
      intro other _
      by_cases hother : other = groupId
      · simp [hother, hlive]
      · simp [hother]
    · rw [if_neg hlive]
      have hremoved : SplitTree.leavesOf (layout.bind (·.remove groupId)) =
          (SplitTree.leavesOf layout).filter (· ≠ groupId) := by
        cases layout with
        | none => rfl
        | some tree => exact leavesOf_remove tree groupId
      rw [hremoved, filter_filter]
      apply filter_congr
      intro other _
      by_cases hother : other = groupId
      · simp [hother, hlive]
      · simp [hother]

theorem leavesOf_pruneGroupLeaves (liveGroupIds : List String)
    (layout : Option (TabGroupLayoutNode P)) :
    SplitTree.leavesOf (pruneGroupLeaves liveGroupIds layout) =
      (SplitTree.leavesOf layout).filter (· ∈ liveGroupIds) := by
  rw [pruneGroupLeaves, leavesOf_foldl_remove]
  apply filter_congr
  intro groupId hgroup
  simp [hgroup]

end Wakii.LayoutTrees
