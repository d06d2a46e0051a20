import Wakii.Layout.LayoutModel

/-!
# Layout commands

The commands a client or the runtime sends, the context they are applied in and
what applying one returns.  Every command names its workspace.
-/

namespace Wakii.CommandTypes

open OrderedCollections Wakii.LayoutModel

variable {P : Type}

/-! ## Parts of commands -/

inductive GroupSide where
  | left | right | up | down
deriving DecidableEq

inductive PaneSide where
  | left | right | top | bottom
deriving DecidableEq

structure NewGroupSplit where
  besideGroupId : String
  besideLastGroupId : Option String := none
  direction : GroupSide
deriving DecidableEq

inductive InitialSurfaceReason where
  | restore | activation
deriving DecidableEq

structure LiveTerminalAdoption where
  ptyId : String
  incarnationId : Option String := none
  recordedPaneKey : Option String := none
deriving DecidableEq

structure WindowPaneDetach where
  ptyId : Option String
  tabId : Option String := none
  startupCwd : Option String := none
deriving DecidableEq

/-- A split by its direction and the first leaf on each side. -/
structure SplitIdentity where
  direction : String
  first : String
  second : String
deriving DecidableEq

structure SplitRatioIntent (P : Type) where
  path : String
  ratio : P
  split : Option SplitIdentity := none
deriving DecidableEq

structure ExpectedTitle where
  entityId : String
  executionHostId : String
  customTitle : String
deriving DecidableEq

inductive TabTitle (P : Type) where
  | custom (title : Option String) (expected : Option ExpectedTitle)
  | generated (title : Option String) (replaceExisting : Bool)
  | aiVault (title : Option P)
deriving DecidableEq

structure EditorFileRecord (P : Type) where
  fromFilePath : String
  file : LayoutEditorFile P
deriving DecidableEq

structure EditorFileRename (P : Type) where
  fileId : String
  newFileId : String
  record : Option (EditorFileRecord P) := none
  view : Option P := none
deriving DecidableEq

structure EditorTabMove (P : Type) where
  tabId : String
  newTabId : String
  newEntityId : String
  view : Option P := none
deriving DecidableEq

structure DefaultTerminalTab where
  tabId : String
  leafId : String
  title : Option String := none
  color : Option String := none
  creation : Option LayoutTerminalCreation := none
deriving DecidableEq

/-- A sleeping record as a window sends it; its tab and workspace are not kept. -/
structure SleepingAgentSessionRecord (P : Type) where
  paneKey : String
  record : LayoutSleepingRecord P
deriving DecidableEq

inductive CloseReason where
  | user | cleanup
deriving DecidableEq

/-! ## Commands that open a tab -/

structure NewGroupOpen where
  workspace : String
  tabId : Option String := none
  groupId : Option String := none
  split : Option NewGroupSplit := none
deriving DecidableEq

structure CreateTerminalTab extends NewGroupOpen where
  leafId : Option String := none
  afterTabId : Option String := none
  index : Option ℤ := none
  title : Option String := none
  color : Option String := none
  viewMode : Option ViewMode := none
  createdAt : Option ℤ := none
  quickCommandLabel : Option String := none
  creation : Option LayoutTerminalCreation := none
  initial : Option InitialSurfaceReason := none
  adopt : Option LiveTerminalAdoption := none
deriving DecidableEq

structure OpenEditorTab (P : Type) extends NewGroupOpen where
  fileId : Option String := none
  contentType : TabContentType
  file : Option (LayoutEditorFile P) := none
  view : Option P := none
  index : Option ℤ := none
  preview : Bool := false
  dirtyTabIds : List String := []
  createdAt : Option ℤ := none
deriving DecidableEq

structure OpenSimulatorTab where
  workspace : String
  tabId : String
  groupId : Option String := none
  afterTabId : Option String := none
  index : Option ℤ := none
  createdAt : Option ℤ := none
  split : Option NewGroupSplit := none
deriving DecidableEq

structure OpenBrowserTab extends NewGroupOpen where
  profileId : Option String := none
  sessionPartition : Option String := none
  afterTabId : Option String := none
  index : Option ℤ := none
  pageId : Option String := none
  browserTabId : Option String := none
  createdAt : Option ℤ := none
  browserCreatedAt : Option ℤ := none
deriving DecidableEq

structure OpenAgentSessionTab extends NewGroupOpen where
  sessionId : String
  agent : String
  afterTabId : Option String := none
  index : Option ℤ := none
  createdAt : Option ℤ := none
  initial : Option InitialSurfaceReason := none
deriving DecidableEq

/-! ## Commands with many fields -/

structure CloseTabs where
  workspace : String
  tabIds : List String
  force : Bool := false
  refusePinned : Bool := false
  dirtyTabIds : List String := []
  recordClose : Option CloseReason := none
deriving DecidableEq

structure MoveTab where
  workspace : String
  tabId : String
  toGroupId : String
  index : ℤ
  afterTabId : Option (Option String) := none
  isPinned : Option Bool := none
deriving DecidableEq

structure MovePaneToNewTab where
  workspace : String
  tabId : String
  leafId : String
  groupId : Option String := none
  index : Option ℤ := none
  windowDetach : Option WindowPaneDetach := none
deriving DecidableEq

structure SetTabProps where
  workspace : String
  tabId : String
  color : Option (Option String) := none
  isPinned : Option Bool := none
  viewMode : Option ViewMode := none
  clearLaunchAgent : Bool := false
deriving DecidableEq

structure MoveTabToWorkspace (P : Type) where
  workspace : String
  toWorkspace : String
  tabs : List (EditorTabMove P)
  groupId : String
  file : Option (LayoutEditorFile P) := none
deriving DecidableEq

structure WorkspaceRenames (P : Type) where
  workspace : String
  renames : List (EditorFileRename P)
deriving DecidableEq

/-! ## The commands -/

inductive LayoutCommand (P : Type) where
  | createTerminalTab (command : CreateTerminalTab)
  | splitPane (workspace tabId leafId : String) (direction : TerminalPaneSplitDirection)
      (ratio : Option P) (newLeafId : Option String)
  | closePane (workspace tabId leafId : String) (userPaneClose : Bool)
  | closeTabs (command : CloseTabs)
  | moveTab (command : MoveTab)
  | splitGroup (workspace tabId besideGroupId : String) (direction : GroupSide)
  | setGroupRatios (workspace : String) (groupLayout : Option (TabGroupLayoutNode P))
      (ratios : Option (List (SplitRatioIntent P)))
  | setPaneRatios (workspace tabId : String) (root : Option (TerminalPaneLayoutNode P))
      (ratios : Option (List (SplitRatioIntent P)))
  | movePane (workspace tabId leafId targetLeafId : String) (side : PaneSide)
  | equalizePanes (workspace tabId : String)
  | movePaneToNewTab (command : MovePaneToNewTab)
  | renameTab (workspace tabId : String) (title : TabTitle P)
  | renamePane (workspace tabId leafId : String) (title : Option String)
  | setPaneGrid (workspace tabId leafId : String) (grid : TerminalGrid)
  | releasePaneTerminal (workspace tabId leafId ptyId : String)
  | setTabProps (command : SetTabProps)
  | setChatPane (workspace tabId : String) (leafId : Option String)
  | openEditorTab (command : OpenEditorTab P)
  | promotePreviewTab (workspace tabId : String)
  | openSimulatorTab (command : OpenSimulatorTab)
  | moveTabToWorkspace (command : MoveTabToWorkspace P)
  | renameEditorFiles (workspace : String) (renames : List (EditorFileRename P))
      (alsoIn : List (WorkspaceRenames P))
  | openBrowserTab (command : OpenBrowserTab)
  | openBrowserPage (workspace browserTabId pageId : String)
  | closeBrowserPage (workspace browserTabId pageId : String)
  | replaceBrowserPage (workspace browserTabId pageId newPageId : String)
  | setBrowserTabProfile (workspace browserTabId : String)
      (profileId sessionPartition : Option String)
  | openAgentSessionTab (command : OpenAgentSessionTab)
  | startPane (workspace paneKey : String)
  | restartPane (workspace paneKey : String)
  | sleep (workspace : String) (paneKeys : Option (List String))
      (records : List (SleepingAgentSessionRecord P)) (recordOnly : Bool)
  | wake (workspace : String) (paneKeys : Option (List String)) (recordOnly : Bool)
  | setDefaultTabsApplied (workspace : String)
  | applyDefaultTabs (workspace : String) (tabs : List DefaultTerminalTab)
deriving DecidableEq

namespace LayoutCommand

def workspace : LayoutCommand P → String
  | createTerminalTab command => command.workspace
  | splitPane workspace .. => workspace
  | closePane workspace .. => workspace
  | closeTabs command => command.workspace
  | moveTab command => command.workspace
  | splitGroup workspace .. => workspace
  | setGroupRatios workspace .. => workspace
  | setPaneRatios workspace .. => workspace
  | movePane workspace .. => workspace
  | equalizePanes workspace _ => workspace
  | movePaneToNewTab command => command.workspace
  | renameTab workspace .. => workspace
  | renamePane workspace .. => workspace
  | setPaneGrid workspace .. => workspace
  | releasePaneTerminal workspace .. => workspace
  | setTabProps command => command.workspace
  | setChatPane workspace .. => workspace
  | openEditorTab command => command.workspace
  | promotePreviewTab workspace _ => workspace
  | openSimulatorTab command => command.workspace
  | moveTabToWorkspace command => command.workspace
  | renameEditorFiles workspace .. => workspace
  | openBrowserTab command => command.workspace
  | openBrowserPage workspace .. => workspace
  | closeBrowserPage workspace .. => workspace
  | replaceBrowserPage workspace .. => workspace
  | setBrowserTabProfile workspace .. => workspace
  | openAgentSessionTab command => command.workspace
  | startPane workspace _ => workspace
  | restartPane workspace _ => workspace
  | sleep workspace .. => workspace
  | wake workspace .. => workspace
  | setDefaultTabsApplied workspace => workspace
  | applyDefaultTabs workspace _ => workspace

end LayoutCommand

/-! ## What applying a command returns -/

inductive LayoutRefusalCode where
  | workspaceNotFound | tabNotFound | paneNotFound | groupNotFound | invalidParams
  | groupSetChanged | paneStructureChanged | samePane | lastPane | paneAlreadyBound
  | workspaceExists | tabExists | groupExists | pageExists | generatedTitleKept
deriving DecidableEq

/-- Terminals the runtime stops and panes it starts once the command is applied. -/
structure LayoutEffects where
  stopPtyIds : List String := []
  startPaneKeys : List String := []
deriving DecidableEq

inductive RefusedCloseCode where
  | tabPinned | editorTabHasUnsavedDraft
deriving DecidableEq

structure RefusedClose where
  tabId : String
  code : RefusedCloseCode
deriving DecidableEq

structure CreatedTab where
  tabId : String
  leafId : String
  paneKey : String
deriving DecidableEq

structure LayoutCommandResult where
  tabId : Option String := none
  leafId : Option String := none
  paneKey : Option String := none
  groupId : Option String := none
  pageId : Option String := none
  ptyId : Option (Option String) := none
  tabClosed : Option Bool := none
  alreadyClosed : Option Bool := none
  closed : Option (List String) := none
  refused : Option (List RefusedClose) := none
  slept : Option (List String) := none
  woken : Option (List String) := none
  renamedTabIds : Option (OrderedMap String String) := none
  createdTabs : Option (List CreatedTab) := none
deriving DecidableEq

inductive PaneOutcome where
  | failed | exited
deriving DecidableEq

/-- Null clears the outcome of a leaf. -/
abbrev PaneOutcomeChanges := OrderedMap String (Option PaneOutcome)

/-! ## The context of a command -/

inductive DroppedLeafReason where
  | liveEdit
deriving DecidableEq

structure LayoutContext where
  mintId : ℕ → String
  mintLeafId : ℕ → String
  now : ℤ
  isStarting : String → Bool := fun _ => false
  droppedLeafReason : Option DroppedLeafReason := none
  isBindingLive : String → String → Bool := fun _ _ => true
  retiresBinding : String → String → Bool := fun _ _ => false

def LayoutContext.nextId (context : LayoutContext) : LayoutContext :=
  { context with mintId := fun count => context.mintId (count + 1) }

/-- What the build and the language's numbers settle. -/
structure LayoutRuntime (P : Type) where
  layoutOwnerIsMain : Bool
  evenRatio : P
  /-- Whether a ratio is close enough to even to be saved as none. -/
  isNearEven : P → Bool
  /-- The first count as a share of both. -/
  share : ℕ → ℕ → P
  roundRatio : P → P

end Wakii.CommandTypes
