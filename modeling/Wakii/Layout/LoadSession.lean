import Wakii.Layout.LoadBindings
import Wakii.Layout.LoadRetirement
import Wakii.Layout.LoadWorkspace

/-!
# A layout loaded from a session

The workspaces of every key the session names, the panes of their terminals in
tab order, and the panes that ended taken out.  What no workspace took is
carried to the next save.
-/

namespace Wakii.LayoutLoad

open OrderedCollections RecordList
open Wakii.CommandTypes Wakii.LayoutModel

variable {P : Type}

def workspaceKeys (session : WorkspaceSessionState P) : List String :=
  firstOnes (session.tabsByWorktree.keys ++ session.unifiedTabs.keys ++
    session.tabGroups.keys ++ session.tabGroupLayouts.keys ++
    session.openFilesByWorktree.keys ++ session.browserTabsByWorktree.keys)

/-! ## Homes -/

/-- The terminals that a workspace's tab bar names and the tabs its groups list. -/
def tabBarNames (session : WorkspaceSessionState P) (key : String) : List String :=
  ((session.entries key).filter fun entry => entry.contentType = .terminal).map (·.entityId) ++
    (session.groups key).flatMap (·.tabOrder)

def namedByTabBar (session : WorkspaceSessionState P) (key tabId : String) : Bool :=
  (tabBarNames session key).contains tabId

def takesHome (session : WorkspaceSessionState P) (key rowId : String) : Option String → Bool
  | none => true
  | some home => !namedByTabBar session home rowId && namedByTabBar session key rowId

def placeRow (session : WorkspaceSessionState P) (key : String)
    (homes : OrderedMap String String) (row : TerminalTab P) : OrderedMap String String :=
  if takesHome session key row.id (homes.lookup row.id) then homes.set row.id key else homes

/-- Keeps a row in the workspace whose tab bar names it, else in its first. -/
def resolveTerminalHomes (session : WorkspaceSessionState P) : OrderedMap String String :=
  session.tabsByWorktree.pairs.foldl
    (fun homes entry => entry.2.foldl (placeRow session entry.1) homes) ∅

/-! ## Records -/

def loadRecords (session : WorkspaceSessionState P) : WorkspaceLayoutRecords P where
  defaultTabsAppliedByWorkspace := session.defaultTerminalTabsAppliedByWorktreeId
  clientHostedBrowserPagesByWorkspace := session.clientHostedBrowserPagesByWorktree
  closedTerminalPanesByPaneKey := session.closedTerminalPanesByPaneKey

def loadLegacy (session : WorkspaceSessionState P) : LegacyLayoutPersistence where
  terminalRowOwners := session.tabsByWorktree.mapValues fun _ _ => ()
  topologyRevisionByRepoId := session.terminalTopologyRevisionByRepoId

structure CarriedSessionFields (P : Type) where
  unownedTerminalLayouts : OrderedMap String (PaneLayout P) := ∅
  unplacedSleepingRecords : OrderedMap String (LayoutSleepingRecord P) := ∅
  unplacedIncarnations : OrderedMap String String := ∅
  unplacedClosedTabs : OrderedMap String ClosedTabTombstone := ∅

def withClosedTab (workspace : WorkspaceLayout P) (tabId : String) (record : LayoutClosedTab) :
    WorkspaceLayout P :=
  { workspace with
    closedTerminalTabs := some ((workspace.closedTerminalTabs.getD ∅).set tabId record) }

/-- A closed tab's record goes to the first workspace of its worktree, else it is carried. -/
def placeClosedTab
    (state : OrderedMap String (WorkspaceLayout P) × OrderedMap String ClosedTabTombstone)
    (closed : String × ClosedTabTombstone) :
    OrderedMap String (WorkspaceLayout P) × OrderedMap String ClosedTabTombstone :=
  match state.1.pairs.find? (·.2.worktreeId = closed.2.worktreeId) with
  | none => (state.1, state.2.set closed.1 closed.2)
  | some (key, workspace) =>
    (state.1.set key (withClosedTab workspace closed.1 closed.2.toLayoutClosedTab), state.2)

def placeClosedTabs (session : WorkspaceSessionState P)
    (workspaces : OrderedMap String (WorkspaceLayout P)) :
    OrderedMap String (WorkspaceLayout P) × OrderedMap String ClosedTabTombstone :=
  session.closedTerminalTabTombstonesByTabId.pairs.foldl placeClosedTab (workspaces, ∅)

/-! ## The load -/

/-- The workspaces so far, with the pane layouts and the redirected rows of all of them. -/
structure WorkspacesLoad (P : Type) where
  workspaces : OrderedMap String (WorkspaceLayout P) := ∅
  layouts : OrderedMap String (PaneLayout P) := ∅
  canonicalTabIdBySubsumedTabId : OrderedMap String String := ∅

def loadNext (args : String → WorkspaceLoadArgs P) (state : WorkspacesLoad P) (key : String) :
    WorkspacesLoad P :=
  let (workspace, loaded) :=
    loadWorkspace (args key) state.layouts state.canonicalTabIdBySubsumedTabId
  { workspaces := state.workspaces.set key workspace
    layouts := loaded.layouts
    canonicalTabIdBySubsumedTabId := loaded.canonicalTabIdBySubsumedTabId }

def loadArgs (runtime : LayoutRuntime P) (hostId : String) (session : WorkspaceSessionState P)
    (context : WorkspaceLayoutLoadContext P) (key : String) : WorkspaceLoadArgs P :=
  { runtime, context, session, terminalHomes := resolveTerminalHomes session, hostId, key }

def loadWorkspaces (runtime : LayoutRuntime P) (hostId : String)
    (session : WorkspaceSessionState P) (context : WorkspaceLayoutLoadContext P) :
    WorkspacesLoad P :=
  (workspaceKeys session).foldl (loadNext (loadArgs runtime hostId session context)) {}

structure LoadedWorkspaceLayout (P : Type) where
  layout : WorkspaceLayoutModel P
  carried : CarriedSessionFields P

def placedModel (hostId : String) (session : WorkspaceSessionState P)
    (loaded : WorkspacesLoad P) : WorkspaceLayoutModel P where
  hostId
  workspaces := (placeClosedTabs session loaded.workspaces).1
  records := loadRecords session
  legacy := loadLegacy session

def boundModel (runtime : LayoutRuntime P) (hostId : String) (session : WorkspaceSessionState P)
    (context : WorkspaceLayoutLoadContext P) : WorkspaceLayoutModel P × PaneRecords P :=
  let loaded := loadWorkspaces runtime hostId session context
  let (layout, records) := loadLeaves context session loaded.layouts
    (placedModel hostId session loaded)
  (unbindDuplicateTerminals layout, records)

def loadWorkspaceLayoutWithoutReport (runtime : LayoutRuntime P) (hostId : String)
    (session : WorkspaceSessionState P) (context : WorkspaceLayoutLoadContext P) :
    LoadedWorkspaceLayout P :=
  let loaded := loadWorkspaces runtime hostId session context
  let (layout, records) := boundModel runtime hostId session context
  let (layout, unplacedIncarnations) :=
    retireLoadedLegacySurfaces layout session records.incarnations
  { layout
    carried := {
      unownedTerminalLayouts := session.terminalLayoutsByTabId.filterKeys
        (· ∉ resolveTerminalHomes session)
      unplacedSleepingRecords := records.sleeping
      unplacedIncarnations
      unplacedClosedTabs := (placeClosedTabs session loaded.workspaces).2 } }

end Wakii.LayoutLoad
