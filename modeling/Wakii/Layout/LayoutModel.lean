import Wakii.Layout.TerminalOwners
import Wakii.Library.OrderedMap
import Wakii.Library.SplitTree

/-!
# The layout of an execution host

A host's layout is its workspaces by key: each holds its tabs, the groups that
order them, the tree of the groups, and data keyed by tab, pane or file.  A
value that no command reads is a `P`, which passes through unchanged; so is the
ratio of a split.
-/

namespace Wakii.LayoutModel

open OrderedCollections SplitTrees Wakii.TerminalOwners

/-! ## Trees -/

inductive TerminalPaneSplitDirection where
  | vertical | horizontal
deriving DecidableEq

structure PaneSplit (P : Type) where
  direction : TerminalPaneSplitDirection
  ratio : Option P
deriving DecidableEq

/-- Its leaves are pane ids. -/
abbrev TerminalPaneLayoutNode (P : Type) := SplitTree String (PaneSplit P)

inductive TabGroupSplitDirection where
  | horizontal | vertical
deriving DecidableEq

structure GroupSplit (P : Type) where
  direction : TabGroupSplitDirection
  ratio : Option P
deriving DecidableEq

/-- Its leaves are group ids. -/
abbrev TabGroupLayoutNode (P : Type) := SplitTree String (GroupSplit P)

/-! ## Tabs -/

inductive ViewMode where
  | terminal | chat
deriving DecidableEq

inductive TabContentType where
  | editor | diff | conflictReview | checkDetails | agentSession | browser | simulator
deriving DecidableEq

/-- A doubled option is a field that may be absent or null. -/
structure LayoutTabFields (P : Type) where
  /-- Tab-bar id; pane keys and pane layouts use `entityId`. -/
  id : String
  entityId : String
  createdAt : ℤ
  customTitle : Option String
  generatedTitle : Option (Option String) := none
  aiVaultTitle : Option (Option P) := none
  quickCommandLabel : Option (Option String) := none
  color : Option String
  isPinned : Option Bool := none
  viewMode : Option ViewMode := none
  isPreview : Option Bool := none
  agentSessionAgent : Option String := none
deriving DecidableEq

structure LayoutTerminalCreation where
  defaultTitle : Option String := none
  shellOverride : Option String := none
  forceHostRuntime : Option Bool := none
  startupCwd : Option String := none
  launchAgent : Option String := none
deriving DecidableEq

structure LayoutTerminalPanes (P : Type) where
  root : Option (TerminalPaneLayoutNode P)
  chatLeafId : Option String := none
deriving DecidableEq

structure LayoutTerminalTab (P : Type) extends LayoutTabFields P where
  terminal : LayoutTerminalCreation
  panes : LayoutTerminalPanes P
deriving DecidableEq

structure LayoutContentTab (P : Type) extends LayoutTabFields P where
  kind : TabContentType
deriving DecidableEq

inductive LayoutTab (P : Type) where
  | terminal (tab : LayoutTerminalTab P)
  | content (tab : LayoutContentTab P)
deriving DecidableEq

variable {P : Type}

namespace LayoutTab

def fields : LayoutTab P → LayoutTabFields P
  | terminal tab => tab.toLayoutTabFields
  | content tab => tab.toLayoutTabFields

def id (tab : LayoutTab P) : String := tab.fields.id

def entityId (tab : LayoutTab P) : String := tab.fields.entityId

def mapFields (change : LayoutTabFields P → LayoutTabFields P) : LayoutTab P → LayoutTab P
  | terminal tab => terminal { tab with toLayoutTabFields := change tab.toLayoutTabFields }
  | content tab => content { tab with toLayoutTabFields := change tab.toLayoutTabFields }

def contentKind : LayoutTab P → Option TabContentType
  | terminal _ => none
  | content tab => some tab.kind

def isTerminal : LayoutTab P → Bool
  | terminal _ => true
  | content _ => false

def paneIds : LayoutTab P → List String
  | terminal tab => SplitTree.leavesOf tab.panes.root
  | content _ => []

def isPinned (tab : LayoutTab P) : Bool := tab.fields.isPinned.getD false

def isPreview (tab : LayoutTab P) : Bool := tab.fields.isPreview.getD false

@[simp]
theorem fields_mapFields (change : LayoutTabFields P → LayoutTabFields P) (tab : LayoutTab P) :
    (tab.mapFields change).fields = change tab.fields := by
  cases tab <;> rfl

@[simp]
theorem paneIds_mapFields (change : LayoutTabFields P → LayoutTabFields P)
    (tab : LayoutTab P) : (tab.mapFields change).paneIds = tab.paneIds := by
  cases tab <;> rfl

end LayoutTab

structure LayoutGroup where
  id : String
  tabOrder : List String
deriving DecidableEq

/-! ## What is keyed by tab, pane or file -/

structure LayoutEditorFile (P : Type) where
  filePath : String
  runtimeEnvironmentId : Option String
  rest : P
deriving DecidableEq

structure LayoutBrowserTab where
  id : String
  label : Option String := none
  sessionProfileId : Option (Option String) := none
  sessionPartition : Option (Option String) := none
  pageIds : Option (List String) := none
  createdAt : ℤ
deriving DecidableEq

structure LayoutSleepingRecord (P : Type) where
  origin : Option String
  rest : P
deriving DecidableEq

structure LayoutClosedTab where
  closedAt : ℤ
  reason : Option String
deriving DecidableEq

structure TerminalGrid where
  cols : ℤ
  rows : ℤ
deriving DecidableEq

structure LayoutLeaf (P : Type) where
  ptyId : Option String := none
  /-- Counts the pane's bindings in this process; in memory only. -/
  ptyGeneration : Option ℕ := none
  incarnationId : Option String := none
  title : Option String := none
  lastGrid : Option TerminalGrid := none
  sleeping : Option (LayoutSleepingRecord P) := none
  resume : Option (LayoutSleepingRecord P) := none
deriving DecidableEq

def LayoutLeaf.binding (leaf : LayoutLeaf P) : TerminalBinding :=
  ⟨leaf.ptyId, leaf.incarnationId⟩

def LayoutLeaf.isEmpty (leaf : LayoutLeaf P) : Bool :=
  leaf.ptyId.isNone && leaf.ptyGeneration.isNone && leaf.incarnationId.isNone &&
    leaf.title.isNone && leaf.lastGrid.isNone && leaf.sleeping.isNone && leaf.resume.isNone

/-! ## The model -/

structure WorkspaceLayout (P : Type) where
  worktreeId : String
  tabs : List (LayoutTab P)
  /-- Groups define the sole tab order and close when empty. -/
  groups : List LayoutGroup
  groupLayout : Option (TabGroupLayoutNode P) := none
  editorFiles : Option (List (LayoutEditorFile P)) := none
  /-- What an editor tab shows beyond its file; not saved. -/
  editorViews : Option (OrderedMap String P) := none
  browserTabs : Option (List LayoutBrowserTab) := none
  leaves : Option (OrderedMap String (LayoutLeaf P)) := none
  closedTerminalTabs : Option (OrderedMap String LayoutClosedTab) := none
deriving DecidableEq

structure ClosedTerminalPane where
  ptyId : String
  incarnationId : String
  worktreeId : String
  closedAt : ℤ
deriving DecidableEq

structure WorkspaceLayoutRecords (P : Type) where
  defaultTabsAppliedByWorkspace : Option (OrderedMap String Unit) := none
  clientHostedBrowserPagesByWorkspace : Option (OrderedMap String P) := none
  closedTerminalPanesByPaneKey : Option (OrderedMap String ClosedTerminalPane) := none
deriving DecidableEq

structure LegacyLayoutPersistence where
  terminalRowOwners : OrderedMap String Unit
  topologyRevisionByRepoId : Option (OrderedMap String ℤ) := none
deriving DecidableEq

structure WorkspaceLayoutModel (P : Type) where
  hostId : String
  workspaces : OrderedMap String (WorkspaceLayout P)
  records : WorkspaceLayoutRecords P
  legacy : LegacyLayoutPersistence
deriving DecidableEq

def paneKeyOf (terminalTabId leafId : String) : String :=
  terminalTabId ++ ":" ++ leafId

namespace WorkspaceLayout

def tabIds (workspace : WorkspaceLayout P) : List String :=
  workspace.tabs.map (·.id)

def paneIds (workspace : WorkspaceLayout P) : List String :=
  workspace.tabs.flatMap (·.paneIds)

def groupIds (workspace : WorkspaceLayout P) : List String :=
  workspace.groups.map (·.id)

def listed (workspace : WorkspaceLayout P) : List String :=
  workspace.groups.flatMap (·.tabOrder)

def leaf? (workspace : WorkspaceLayout P) (leafId : String) : Option (LayoutLeaf P) :=
  workspace.leaves.bind (·.lookup leafId)

def bindingOf (workspace : WorkspaceLayout P) (leafId : String) : TerminalBinding :=
  ((workspace.leaf? leafId).map (·.binding)).getD unbound

end WorkspaceLayout

end Wakii.LayoutModel
