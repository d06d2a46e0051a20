import Wakii.Layout.CommandSteps
import Wakii.Layout.PtyOwnership

/-!
# What a layout is loaded from

A host's session as it is stored: terminal rows, tab-bar entries, groups, pane
layouts and records by pane key.  Older builds rewrite each of them alone, so
none is known to agree with another.
-/

namespace Wakii.LayoutLoad

open OrderedCollections
open Wakii.CommandSteps Wakii.LayoutModel Wakii.PtyOwnership

/-! ## Stored records -/

structure TerminalTab (P : Type) where
  id : String
  ptyId : Option String
  worktreeId : String
  title : String
  generatedTitle : Option (Option String) := none
  aiVaultTitle : Option (Option P) := none
  quickCommandLabel : Option (Option String) := none
  customTitle : Option String
  color : Option String
  isPinned : Option Bool := none
  viewMode : Option ViewMode := none
  sortOrder : ℤ
  createdAt : ℤ
  creation : LayoutTerminalCreation := {}
deriving DecidableEq

inductive EntryContentType where
  | terminal
  | content (kind : TabContentType)
deriving DecidableEq

structure Tab (P : Type) where
  id : String
  entityId : String
  groupId : String
  worktreeId : String
  executionHostId : Option String := none
  contentType : EntryContentType
  label : String
  generatedLabel : Option (Option String) := none
  aiVaultTitle : Option (Option P) := none
  quickCommandLabel : Option (Option String) := none
  customLabel : Option String
  color : Option String
  sortOrder : ℤ
  createdAt : ℤ
  isPreview : Option Bool := none
  isPinned : Option Bool := none
  agentSessionAgent : Option String := none
  viewMode : Option ViewMode := none
deriving DecidableEq

structure TabGroup where
  id : String
  worktreeId : String
  tabOrder : List String
deriving DecidableEq

structure PersistedOpenFile (P : Type) extends LayoutEditorFile P where
  worktreeId : String
  isPreview : Option Bool := none
deriving DecidableEq

structure BrowserWorkspace extends LayoutBrowserTab where
  worktreeId : String
deriving DecidableEq

/-- A pane that ended, in an older build's words. -/
structure SurfaceTombstone where
  worktreeId : String
  parentTabId : String
  leafId : String
  ptyId : String
  incarnationId : String
deriving DecidableEq

structure ClosedTabTombstone extends LayoutClosedTab where
  worktreeId : String
deriving DecidableEq

abbrev PaneLayout (P : Type) := TerminalLayoutSnapshot (PaneSplit P)

/-- Its maps by workspace key are empty where the session has none. -/
structure WorkspaceSessionState (P : Type) where
  tabsByWorktree : OrderedMap String (List (TerminalTab P)) := ∅
  terminalLayoutsByTabId : OrderedMap String (PaneLayout P) := ∅
  openFilesByWorktree : OrderedMap String (List (PersistedOpenFile P)) := ∅
  browserTabsByWorktree : OrderedMap String (List BrowserWorkspace) := ∅
  clientHostedBrowserPagesByWorktree : Option (OrderedMap String P) := none
  unifiedTabs : OrderedMap String (List (Tab P)) := ∅
  tabGroups : OrderedMap String (List TabGroup) := ∅
  tabGroupLayouts : OrderedMap String (TabGroupLayoutNode P) := ∅
  activeGroupIdByWorktree : OrderedMap String String := ∅
  remoteSessionIdsByTabId : OrderedMap String String := ∅
  defaultTerminalTabsAppliedByWorktreeId : Option (OrderedMap String Unit) := none
  sleepingAgentSessionsByPaneKey : OrderedMap String (LayoutSleepingRecord P) := ∅
  terminalPtyIncarnationsByPaneKey : OrderedMap String String := ∅
  terminalTopologyRevisionByRepoId : Option (OrderedMap String ℤ) := none
  terminalSurfaceTombstonesByPaneKey : OrderedMap String SurfaceTombstone := ∅
  closedTerminalTabTombstonesByTabId : OrderedMap String ClosedTabTombstone := ∅
  closedTerminalPanesByPaneKey : Option (OrderedMap String ClosedTerminalPane) := none

variable {P : Type}

namespace WorkspaceSessionState

variable (session : WorkspaceSessionState P) (key : String)

def rows : List (TerminalTab P) := (session.tabsByWorktree.lookup key).getD []

def entries : List (Tab P) := (session.unifiedTabs.lookup key).getD []

def groups : List TabGroup := (session.tabGroups.lookup key).getD []

def browserTabs : List BrowserWorkspace := (session.browserTabsByWorktree.lookup key).getD []

def openFiles : List (PersistedOpenFile P) := (session.openFilesByWorktree.lookup key).getD []

end WorkspaceSessionState

/-! ## Minted ids -/

/-- What a group or tab id is minted for; a load mints once for each. -/
inductive IdSite where
  | rootGroup (workspaceKey : String)
  | tab (workspaceKey rowId : String)
  | browserTab (workspaceKey recordId : String)
deriving DecidableEq

def IdSite.seed : IdSite → String
  | rootGroup workspaceKey => "group:" ++ workspaceKey
  | tab _ rowId => "tab:" ++ rowId
  | browserTab _ recordId => "browser-tab:" ++ recordId

/-- What a pane id is minted for: a row without a pane layout, or a repeated
leaf at its place in a tab. -/
inductive LeafSite where
  | legacyRow (workspaceKey rowId : String)
  | repeated (tabId : String) (position : ℕ)
deriving DecidableEq

def LeafSite.seed : LeafSite → String
  | legacyRow _ rowId => "leaf:" ++ rowId
  | repeated tabId position => "leaf:" ++ tabId ++ ":" ++ toString position

/-- A context may count its calls, so it is told what each call is for. -/
structure WorkspaceLayoutLoadContext (P : Type) where
  mintId : IdSite → String
  mintLeafId : LeafSite → String
  ptyGenerationOf : String → Option ℕ := fun _ => none
  editorViewsOf : Option (String → Option (OrderedMap String P)) := none
  viewRuntimeEnvironmentId : P → Option String := fun _ => none
  viewWithFilePath : P → String → P := fun view _ => view

def nameBasedLoadContext : WorkspaceLayoutLoadContext P where
  mintId site := nameBasedUuid site.seed
  mintLeafId site := nameBasedUuid site.seed

end Wakii.LayoutLoad
