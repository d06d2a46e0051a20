import Wakii.Layout.CommandTypes
import Wakii.Layout.ModelRules
import Wakii.Library.KeyedList

/-!
# Steps the layout commands share

Finding, placing and removing tabs and panes.  A command works on a layout under
edit, which also records the workspaces it wrote: the source tells these by
object identity.
-/

namespace Wakii.CommandSteps

open KeyedLists OrderedCollections SplitTrees
open Wakii.CommandTypes Wakii.LayoutModel

variable {P : Type}

/-! ## Layouts under edit -/

structure LayoutEdit (P : Type) where
  model : WorkspaceLayoutModel P
  written : List String := []

def withWorkspace (edit : LayoutEdit P) (workspaceKey : String)
    (workspace : WorkspaceLayout P) : LayoutEdit P :=
  { model := { edit.model with
      workspaces := edit.model.workspaces.set workspaceKey workspace }
    written := edit.written ++ [workspaceKey] }

namespace LayoutEdit

def workspace? (edit : LayoutEdit P) (key : String) : Option (WorkspaceLayout P) :=
  edit.model.workspaces.lookup key

def workspaces (edit : LayoutEdit P) : List (WorkspaceLayout P) :=
  edit.model.workspaces.values

@[simp]
theorem workspaces_withWorkspace (edit : LayoutEdit P) (key : String)
    (workspace : WorkspaceLayout P) :
    (withWorkspace edit key workspace).model.workspaces =
      edit.model.workspaces.set key workspace := rfl

end LayoutEdit

structure LayoutApplied (P : Type) where
  edit : LayoutEdit P
  result : LayoutCommandResult := {}
  effects : LayoutEffects := {}
  outcomes : Option PaneOutcomeChanges := none

abbrev Applied (P : Type) := Except LayoutRefusalCode (LayoutApplied P)

def refuse (code : LayoutRefusalCode) : Applied P := .error code

def applied (edit : LayoutEdit P) (result : LayoutCommandResult := {})
    (effects : LayoutEffects := {}) (outcomes : Option PaneOutcomeChanges := none) : Applied P :=
  .ok { edit, result, effects, outcomes }

def leafOutcome (leafId : String) (outcome : Option PaneOutcome) : Option PaneOutcomeChanges :=
  some (OrderedMap.set ∅ leafId outcome)

/-- An empty text counts as absent. -/
def given (text : Option String) : Option String := text.filter (· ≠ "")

/-! ## Tabs and panes -/

def emptyWorkspace (key : String) : WorkspaceLayout P :=
  { worktreeId := key, tabs := [], groups := [] }

def workspaceOrEmpty (edit : LayoutEdit P) (key : String) : WorkspaceLayout P :=
  (edit.workspace? key).getD (emptyWorkspace key)

def findTab (workspace : WorkspaceLayout P) (tabId : String) : Option (LayoutTab P) :=
  workspace.tabs.find? (·.id = tabId)

def asTerminal : LayoutTab P → Option (LayoutTerminalTab P)
  | .terminal tab => some tab
  | .content _ => none

def findTerminal (workspace : WorkspaceLayout P) (tabId : String) : Option (LayoutTerminalTab P) :=
  (findTab workspace tabId).bind asTerminal

def paneTab (workspace : WorkspaceLayout P) (tabId : String) : Option (LayoutTerminalTab P) :=
  (findTerminal workspace tabId).filter fun tab => tab.panes.root.isSome

def replaceTab (workspace : WorkspaceLayout P) (tab : LayoutTab P) : WorkspaceLayout P :=
  { workspace with tabs := replaceKeyed LayoutTab.id tab workspace.tabs }

def updateTab (edit : LayoutEdit P) (key : String) (workspace : WorkspaceLayout P)
    (tab : LayoutTab P) : Applied P :=
  applied (withWorkspace edit key (replaceTab workspace tab))

def leafIdsOf (tab : LayoutTerminalTab P) : List String :=
  SplitTree.leavesOf tab.panes.root

def layoutContainsLeafId (root : Option (TerminalPaneLayoutNode P)) (leafId : String) : Bool :=
  (root.map (·.holds leafId)).getD false

def removeLayoutLeaf (root : Option (TerminalPaneLayoutNode P)) (leafId : String) :
    Option (TerminalPaneLayoutNode P) :=
  root.bind (·.remove leafId)

def boundPtyIds (workspace : WorkspaceLayout P) (tab : LayoutTab P) : List String :=
  tab.paneIds.filterMap fun leafId => (workspace.leaf? leafId).bind (·.ptyId)

def leafOf (workspace : WorkspaceLayout P) (leafId : String) : LayoutLeaf P :=
  (workspace.leaf? leafId).getD {}

def setLeaf (workspace : WorkspaceLayout P) (leafId : String) (leaf : LayoutLeaf P) :
    WorkspaceLayout P :=
  let leaves := workspace.leaves.getD ∅
  { workspace with
    leaves := some (if leaf.isEmpty then leaves.erase leafId else leaves.set leafId leaf) }

structure LocatedPane (P : Type) where
  tab : LayoutTerminalTab P
  leafId : String

def findPane (passes : LayoutTerminalTab P → String → Bool) (tab : LayoutTab P) :
    Option (LocatedPane P) := do
  let terminal ← asTerminal tab
  let leafId ← given ((leafIdsOf terminal).find? (passes terminal))
  return ⟨terminal, leafId⟩

def locatePane (workspace : WorkspaceLayout P) (paneKey : String) : Option (LocatedPane P) :=
  workspace.tabs.findSome? (findPane fun tab leafId => paneKeyOf tab.entityId leafId = paneKey)

/-! ## Orders of tabs -/

def dedupeTabOrder : List String → List String
  | [] => []
  | tabId :: rest => tabId :: (dedupeTabOrder rest).filter (· ≠ tabId)

def spliceIn (order : List String) (index : ℤ) (tabId : String) : List String :=
  let at_ := (max 0 (min index order.length)).toNat
  order.take at_ ++ tabId :: order.drop at_

def isPinnedId (tabs : List (LayoutTab P)) (tabId : String) : Bool :=
  ((tabs.reverse.find? (·.id = tabId)).map (·.isPinned)).getD false

def partitionPinnedTabOrder (tabOrder : List String) (tabs : List (LayoutTab P))
    (movingTabId : String) : List String :=
  let withoutMoving := (dedupeTabOrder tabOrder).filter (· ≠ movingTabId)
  withoutMoving.filter (isPinnedId tabs) ++
    movingTabId :: withoutMoving.filter fun tabId => !isPinnedId tabs tabId

/-- Inserts after an anchor of the same pin partition, else at the end of the
new tab's partition. -/
def insertTabIdIntoOrder (tabOrder : List String) (tabs : List (LayoutTab P)) (tabId : String)
    (isPinned : Bool) (anchorTabId : Option String) : List String :=
  let order := (dedupeTabOrder tabOrder).filter (· ≠ tabId)
  let pinnedPrefixEnd := order.findIdx fun other => !isPinnedId tabs other
  let index :=
    match (given anchorTabId).filter (· ∈ order) with
    | some anchor =>
      if isPinnedId tabs anchor = isPinned then order.idxOf anchor + 1 else pinnedPrefixEnd
    | none => if isPinned then pinnedPrefixEnd else order.length
  spliceIn order index tabId

/-! ## Placing a tab -/

/-- FNV-1a over the name, four lanes with different offsets. -/
def nameBits (name : String) : List ℕ :=
  [0x811c9dc5, 0x01000193, 0x9e3779b9, 0x85ebca6b].zipIdx.map fun lane =>
    JournalItemKeys.fnv1a32 (Text.ofString name) (lane.1 ^^^ lane.2)

/-- A UUID of version 5 that depends only on the name. -/
def nameBasedUuid (name : String) : String :=
  let hex := (nameBits name).flatMap JournalItemKeys.hex32
  let part (first last : ℕ) := (hex.take last).drop first
  let variant := (((part 16 17).head?.bind Json.hexValue?).getD 0 &&& 0x3) ||| 0x8
  Text.asString (part 0 8 ++ [0x2D] ++ part 8 12 ++ [0x2D, 0x35] ++ part 13 16 ++
    [0x2D, Json.hexDigit variant] ++ part 17 20 ++ [0x2D] ++ part 20 32)

def workspaceRootGroupId (workspaceKey : String) : String :=
  nameBasedUuid ("group:" ++ workspaceKey)

structure TabPlacement where
  groupId : Option String := none
  afterTabId : Option String := none
  index : Option ℤ := none
deriving DecidableEq

def firstGroupId (runtime : LayoutRuntime P) (key : String) (placement : TabPlacement)
    (context : LayoutContext) : String :=
  if runtime.layoutOwnerIsMain then placement.groupId.getD (workspaceRootGroupId key)
  else context.mintId 0

def groupListing (workspace : WorkspaceLayout P) (tabId : String) : Option LayoutGroup :=
  workspace.groups.find? (tabId ∈ ·.tabOrder)

def findGroup (workspace : WorkspaceLayout P) (groupId : String) : Option LayoutGroup :=
  workspace.groups.find? (·.id = groupId)

def groupToPlaceIn (workspace : WorkspaceLayout P) (placement : TabPlacement) :
    Option LayoutGroup :=
  (placement.groupId.bind (findGroup workspace)).or
    (((given placement.afterTabId).bind (groupListing workspace)).or workspace.groups.head?)

def placeNewTab (runtime : LayoutRuntime P) (workspace : WorkspaceLayout P) (key : String)
    (tab : LayoutTab P) (placement : TabPlacement) (context : LayoutContext) :
    WorkspaceLayout P :=
  let tabs := workspace.tabs ++ [tab]
  let anchorGroup := (given placement.afterTabId).bind (groupListing workspace)
  let (group, groups) :=
    match groupToPlaceIn workspace placement with
    | some group => (group, workspace.groups)
    | none =>
      let group : LayoutGroup := ⟨firstGroupId runtime key placement context, []⟩
      (group, workspace.groups ++ [group])
  let tabOrder :=
    match placement.index with
    | some index => spliceIn (group.tabOrder.filter (· ≠ tab.id)) index tab.id
    | none =>
      let anchor := if anchorGroup = some group then placement.afterTabId else none
      insertTabIdIntoOrder group.tabOrder tabs tab.id tab.isPinned anchor
  { workspace with
    tabs
    groups := replaceKeyed LayoutGroup.id { group with tabOrder } groups }

/-! ## Removing a tab or a pane -/

structure TerminalTabLocation (P : Type) where
  workspaceKey : String
  workspace : WorkspaceLayout P
  tab : LayoutTerminalTab P

def findTerminalTab (model : WorkspaceLayoutModel P) (terminalTabId : String) :
    Option (TerminalTabLocation P) :=
  model.workspaces.pairs.findSome? fun entry =>
    (entry.2.tabs.findSome? fun tab =>
      (asTerminal tab).filter (·.entityId = terminalTabId)).map fun tab =>
        ⟨entry.1, entry.2, tab⟩

def groupsHoldingOnly (groups : List LayoutGroup) (tabId : String) : List LayoutGroup :=
  groups.filter fun group => tabId ∈ group.tabOrder && group.tabOrder.filter (· ≠ tabId) = []

def removeTabFromWorkspace (workspace : WorkspaceLayout P) (tabId : String) : WorkspaceLayout P :=
  { workspace with
    tabs := removeKeyed LayoutTab.id tabId workspace.tabs
    groups := workspace.groups.flatMap fun group =>
      if tabId ∉ group.tabOrder then [group]
      else
        let tabOrder := group.tabOrder.filter (· ≠ tabId)
        if tabOrder = [] then [] else [{ group with tabOrder }]
    groupLayout := (groupsHoldingOnly workspace.groups tabId).foldl
      (fun layout group => layout.bind (·.removeLeaf group.id)) workspace.groupLayout }

def withoutChat (panes : LayoutTerminalPanes P) (leafId : String) : LayoutTerminalPanes P :=
  if panes.chatLeafId = some leafId then { panes with chatLeafId := none } else panes

def withoutPane (workspace : WorkspaceLayout P) (tab : LayoutTerminalTab P) (leafId : String) :
    WorkspaceLayout P :=
  match removeLayoutLeaf tab.panes.root leafId with
  | none => removeTabFromWorkspace workspace tab.id
  | some root =>
    let panes := withoutChat { tab.panes with root := some root } leafId
    replaceTab workspace (.terminal { tab with panes })

def retirePane (workspace : WorkspaceLayout P) (tab : LayoutTerminalTab P) (leafId : String) :
    WorkspaceLayout P :=
  let next := withoutPane workspace tab leafId
  { next with leaves := next.leaves.map (·.erase leafId) }

def retireTerminalPane (edit : LayoutEdit P) (location : TerminalTabLocation P)
    (leafId : String) : LayoutEdit P :=
  withWorkspace edit location.workspaceKey (retirePane location.workspace location.tab leafId)

/-! ## Editor tabs -/

def isEditorKind (tab : LayoutTab P) : Bool :=
  match tab.contentKind with
  | some .editor | some .diff | some .conflictReview | some .checkDetails => true
  | _ => false

def groupShowsTabFile (runtime : LayoutRuntime P) (workspace : WorkspaceLayout P)
    (groupId : String) (tab : LayoutTab P) : Bool :=
  runtime.layoutOwnerIsMain && isEditorKind tab &&
    match findGroup workspace groupId with
    | none => false
    | some group => group.tabOrder.any fun tabId =>
      match if tabId = tab.id then none else findTab workspace tabId with
      | none => false
      | some other => other.contentKind = tab.contentKind && other.entityId = tab.entityId

end Wakii.CommandSteps
