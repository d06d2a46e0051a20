import Wakii.Layout.CommandSteps
import Wakii.Layout.LayoutTrees

/-!
# Commands on tab groups

Moving a tab between groups, splitting a group off and resizing the splits.  A
new group is stored together with its first tab.
-/

namespace Wakii.GroupCommands

open Wakii.CommandSteps Wakii.CommandTypes Wakii.LayoutModel Wakii.LayoutTrees

variable {P : Type}

def sourceGroupOf (workspace : WorkspaceLayout P) (tabId : String) : Option LayoutGroup :=
  (findTab workspace tabId).bind fun _ => groupListing workspace tabId

/-! ## Moving a tab -/

/-- The anchor's slot when it is in the target group, else the index. -/
def anchoredMoveIndex (targetOrder : List String) (command : MoveTab) : ℤ :=
  match command.afterTabId with
  | some none => 0
  | some (some anchor) =>
    if anchor ∈ targetOrder then targetOrder.idxOf anchor + 1 else command.index
  | none => command.index

/-- The groups without a tab and with it in another group, the emptied ones gone. -/
def movedGroups (groups : List LayoutGroup) (source : LayoutGroup)
    (targetGroupId tabId : String) (index : ℤ) : List LayoutGroup :=
  (groups.map fun group =>
    if group.id = source.id then { group with tabOrder := group.tabOrder.filter (· ≠ tabId) }
    else if group.id = targetGroupId then
      { group with tabOrder := spliceIn (group.tabOrder.filter (· ≠ tabId)) index tabId }
    else group).filter (·.tabOrder ≠ [])

/-- The groups with their tree, which names those that are left. -/
structure HeadlessTabGroupMove (P : Type) where
  groups : List LayoutGroup
  layout : Option (TabGroupLayoutNode P)

def buildHeadlessTabGroupMove (workspace : WorkspaceLayout P) (tabId targetGroupId : String)
    (index : ℤ) : Option (HeadlessTabGroupMove P) := do
  let source ← groupListing workspace tabId
  let _ ← findGroup workspace targetGroupId
  if source.id = targetGroupId then none
  else
    let groups := movedGroups workspace.groups source targetGroupId tabId index
    return { groups, layout := pruneGroupLeaves (groups.map (·.id)) workspace.groupLayout }

def withMovedPin (workspace : WorkspaceLayout P) (command : MoveTab) : WorkspaceLayout P :=
  match command.isPinned with
  | none => workspace
  | some isPinned =>
    { workspace with
      tabs := workspace.tabs.map fun tab =>
        if tab.id = command.tabId then
          tab.mapFields fun fields => { fields with isPinned := some isPinned }
        else tab }

def moveTab (runtime : LayoutRuntime P) (edit : LayoutEdit P) (workspace : WorkspaceLayout P)
    (command : MoveTab) : Applied P :=
  match sourceGroupOf workspace command.tabId with
  | none => refuse .tabNotFound
  | some source =>
    match findGroup workspace command.toGroupId with
    | none => refuse .groupNotFound
    | some target =>
      let index :=
        anchoredMoveIndex (target.tabOrder.filter (· ≠ command.tabId)) command
      if source.id = command.toGroupId then
        let tabOrder :=
          spliceIn (source.tabOrder.filter (· ≠ command.tabId)) index command.tabId
        let groups := workspace.groups.map fun group =>
          if group.id = source.id then { group with tabOrder } else group
        applied (withWorkspace edit command.workspace
          (withMovedPin { workspace with groups } command))
      else if (findTab workspace command.tabId).any
          (groupShowsTabFile runtime workspace command.toGroupId) then
        refuse .tabExists
      else
        match buildHeadlessTabGroupMove workspace command.tabId command.toGroupId index with
        | none => refuse .invalidParams
        | some moved =>
          applied (withWorkspace edit command.workspace (withMovedPin
              { workspace with groups := moved.groups, groupLayout := moved.layout }
              command))

/-! ## Splitting a group off -/

/-- Moves a tab into a group of its own beside another; none for a group's only
tab beside itself. -/
def buildHeadlessTabGroupSplit (runtime : LayoutRuntime P) (workspace : WorkspaceLayout P)
    (tabId targetGroupId newGroupId : String) (side : GroupSide) :
    Option (HeadlessTabGroupMove P) := do
  let source ← groupListing workspace tabId
  if source.id = targetGroupId && source.tabOrder.length ≤ 1 then none
  else
    let base := workspace.groupLayout.getD (.leaf targetGroupId)
    let layout := base.graft targetGroupId
      (buildSplitNode runtime targetGroupId newGroupId side)
    let sourceOrder := source.tabOrder.filter (· ≠ tabId)
    let kept := workspace.groups.map fun group =>
      if group.id = source.id then { group with tabOrder := sourceOrder } else group
    let groups := (kept ++ [(⟨newGroupId, [tabId]⟩ : LayoutGroup)]).filter (·.tabOrder ≠ [])
    return {
      groups
      layout := some ((pruneGroupLeaves (groups.map (·.id)) (some layout)).getD
        (.leaf newGroupId)) }

def splitGroup (runtime : LayoutRuntime P) (edit : LayoutEdit P)
    (workspace : WorkspaceLayout P) (workspaceKey tabId besideGroupId : String)
    (direction : GroupSide) (context : LayoutContext) : Applied P :=
  match sourceGroupOf workspace tabId with
  | none => refuse .tabNotFound
  | some source =>
    if (findGroup workspace besideGroupId).isNone then refuse .groupNotFound
    else if source.tabOrder.length = 1 && source.id ≠ besideGroupId then
      -- A group's only tab keeps its group, which moves.
      let groupLayout := moveGroupLeafBeside runtime
        (workspace.groupLayout.getD (.leaf source.id)) source.id besideGroupId direction
      applied (withWorkspace edit workspaceKey { workspace with groupLayout := some groupLayout })
        { groupId := some source.id }
    else
      let newGroupId := context.mintId 0
      match buildHeadlessTabGroupSplit runtime workspace tabId besideGroupId newGroupId
          direction with
      | none => refuse .invalidParams
      | some split =>
        applied (withWorkspace edit workspaceKey
            { workspace with groups := split.groups, groupLayout := split.layout })
          { groupId := some newGroupId }

/-! ## Ratios -/

/-- The tree with the ratios set, or the window's tree where it has the same shape. -/
def resizedGroups (workspace : WorkspaceLayout P) (groupLayout : Option (TabGroupLayoutNode P))
    (ratios : Option (List (SplitRatioIntent P))) : Option (TabGroupLayoutNode P) := do
  let current ← workspace.groupLayout.or
    (workspace.groups.head?.map fun group => .leaf group.id)
  match ratios with
  | some ratios => withGroupSplitRatios current ratios
  | none => groupLayout.filter (sameGroupsIgnoringRatios current)

def setGroupRatios (edit : LayoutEdit P) (workspace : WorkspaceLayout P)
    (workspaceKey : String) (groupLayout : Option (TabGroupLayoutNode P))
    (ratios : Option (List (SplitRatioIntent P))) : Applied P :=
  match resizedGroups workspace groupLayout ratios with
  | none => refuse .groupSetChanged
  | some tree =>
    applied (withWorkspace edit workspaceKey { workspace with groupLayout := some tree })

/-! ## Opening into a new group -/

def newGroupTree (runtime : LayoutRuntime P) (workspace : WorkspaceLayout P)
    (split : NewGroupSplit) (groupId : String) : Option (TabGroupLayoutNode P) :=
  moveGroupLeafBesideBranch runtime
    (workspace.groupLayout.getD (.leaf split.besideGroupId)) groupId split.besideGroupId
    (split.besideLastGroupId.getD split.besideGroupId) split.direction

def besideHeld (workspace : WorkspaceLayout P) (split : NewGroupSplit) : Bool :=
  [split.besideGroupId, split.besideLastGroupId.getD split.besideGroupId].all fun groupId =>
    (findGroup workspace groupId).isSome

def withNewGroup (runtime : LayoutRuntime P) (workspace : WorkspaceLayout P)
    (split : NewGroupSplit) (groupId : String) : WorkspaceLayout P :=
  { workspace with
    groups := workspace.groups ++ [⟨groupId, []⟩]
    groupLayout :=
      if besideHeld workspace split then newGroupTree runtime workspace split groupId
      else workspace.groupLayout }

def holdsTabId (edit : LayoutEdit P) (tabId : String) : Bool :=
  edit.workspaces.any fun workspace => tabId ∈ workspace.tabIds

def isFilled (edit : LayoutEdit P) (workspaceKey groupId : String) : Bool :=
  (edit.workspace? workspaceKey).any fun workspace =>
    workspace.groups.any fun group => group.id = groupId && group.tabOrder ≠ []

/-- Opens a tab in the named group, which is made beside the split target in the
same step; a group the layout already holds takes the tab without a split. -/
def openInNewGroup (runtime : LayoutRuntime P) (edit : LayoutEdit P) (command : NewGroupOpen)
    (openTab : LayoutEdit P → Applied P) : Applied P :=
  match command.split with
  | none => openTab edit
  | some split =>
    if (given command.tabId).any (holdsTabId edit) then openTab edit
    else
      match given command.groupId with
      | none => refuse .invalidParams
      | some groupId =>
        let workspace := workspaceOrEmpty edit command.workspace
        if (findGroup workspace groupId).isSome then openTab edit
        else if edit.workspaces.any fun other => (findGroup other groupId).isSome then
          refuse .groupExists
        else if !besideHeld workspace split && workspace.groups ≠ [] then
          refuse .groupNotFound
        else if besideHeld workspace split &&
            (newGroupTree runtime workspace split groupId).isNone then
          refuse .invalidParams
        else
          match openTab (withWorkspace edit command.workspace
              (withNewGroup runtime workspace split groupId)) with
          | .error code => refuse code
          | .ok opened =>
            -- An open that places no tab leaves no empty group.
            if isFilled opened.edit command.workspace groupId then .ok opened
            else applied edit opened.result

end Wakii.GroupCommands
