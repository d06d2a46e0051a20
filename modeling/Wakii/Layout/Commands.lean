import Wakii.Layout.ContentCommands
import Wakii.Layout.GroupCommands
import Wakii.Layout.PaneCommands
import Mathlib.Data.List.Sort

/-!
# Applying a layout command

A command changes the layout, or refuses.  What older builds read and the panes
the change dropped are brought up to date with it.
-/

namespace Wakii.LayoutCommands

open OrderedCollections
open Wakii.CommandSteps Wakii.CommandTypes Wakii.ContentCommands Wakii.GroupCommands
open Wakii.LayoutModel Wakii.PaneCommands Wakii.TabCommands

variable {P : Type}

/-! ## What older builds read -/

def getRepoIdFromWorktreeId (worktreeId : String) : String :=
  let rec beforeSeparator : List Char → Option (List Char)
    | ':' :: ':' :: _ => some []
    | first :: rest => (beforeSeparator rest).map (first :: ·)
    | [] => none
  ((beforeSeparator worktreeId.toList).map String.ofList).getD worktreeId

def paneKeys (workspace : WorkspaceLayout P) : List String :=
  (workspacePanes workspace).map (·.paneKey)

structure LegacyChanges where
  terminalRowOwners : OrderedMap String Unit
  left : OrderedMap String String := ∅
  arrived : OrderedMap String String := ∅
  departed : List String := []

def addPaneKeys (workspace : WorkspaceLayout P) (keys : OrderedMap String String) :
    OrderedMap String String :=
  (paneKeys workspace).foldl (fun keys paneKey => keys.set paneKey workspace.worktreeId) keys

def legacyStep (before : WorkspaceLayoutModel P) (after : LayoutEdit P)
    (changes : LegacyChanges) (key : String) : LegacyChanges :=
  match before.workspaces.lookup key, after.workspace? key with
  | none, none => changes
  | some old, none =>
    { changes with
      terminalRowOwners := changes.terminalRowOwners.erase key
      departed := changes.departed ++ paneKeys old }
  | old, some next =>
    if old.isSome && key ∉ after.written then changes
    else
      { changes with
        terminalRowOwners :=
          if next.tabs.any (·.isTerminal) then changes.terminalRowOwners.set key ()
          else changes.terminalRowOwners
        left := (old.map fun old => addPaneKeys old changes.left).getD changes.left
        arrived := addPaneKeys next changes.arrived }

/-- The worktrees whose panes came or went, after those known to be retired. -/
def changedWorktrees (changes : LegacyChanges) (retiredWorktreeIds : List String) : List String :=
  retiredWorktreeIds ++ (changes.arrived.pairs.filter fun entry =>
      entry.1 ∉ changes.left && entry.1 ∉ changes.departed).map Prod.snd ++
    (changes.left.pairs.filter fun entry => entry.1 ∉ changes.arrived).map Prod.snd

def bumpRevisions (revisions : OrderedMap String ℤ) (repoIds : List String) : OrderedMap String ℤ :=
  repoIds.foldl
    (fun revisions repoId => revisions.set repoId ((revisions.lookup repoId).getD 0 + 1)) revisions

/-- Row ownership outlives the last terminal of a workspace and ends with the
workspace; a repository whose panes changed is bumped once. -/
def updateLegacyPersistence (before : WorkspaceLayoutModel P) (after : LayoutEdit P)
    (retiredWorktreeIds : List String) : WorkspaceLayoutModel P :=
  let keys := before.workspaces.keys ++
    after.model.workspaces.keys.filter (· ∉ before.workspaces)
  let changes := keys.foldl (legacyStep before after)
    { terminalRowOwners := after.model.legacy.terminalRowOwners }
  let changed := (changedWorktrees changes retiredWorktreeIds).eraseDups
  let revisions := after.model.legacy.topologyRevisionByRepoId
  { after.model with
    legacy :=
      { terminalRowOwners := changes.terminalRowOwners
        topologyRevisionByRepoId :=
          if changed = [] then revisions
          else
            some (bumpRevisions (revisions.getD ∅)
              (changed.map getRepoIdFromWorktreeId).eraseDups) } }

/-! ## Dropped panes -/

/-- A pane the edit removed whose terminal no pane holds any more. -/
structure DroppedLeaf where
  worktreeId : String
  tabId : String
  leafId : String
  ptyId : String
  incarnationId : Option String
deriving DecidableEq

def boundLeaves (workspace : WorkspaceLayout P) : List DroppedLeaf :=
  workspace.tabs.flatMap fun tab => tab.paneIds.filterMap fun leafId =>
    let leaf := leafOf workspace leafId
    (given leaf.ptyId).map fun ptyId =>
      { worktreeId := workspace.worktreeId
        tabId := tab.entityId
        leafId
        ptyId
        incarnationId := given leaf.incarnationId }

def terminalKey (ptyId : String) (incarnationId : Option String) : String × String :=
  (ptyId, incarnationId.getD "")

def droppedLeavesOf (before : WorkspaceLayoutModel P) (after : LayoutEdit P)
    (next : WorkspaceLayoutModel P) : List DroppedLeaf :=
  let held := (next.workspaces.values.flatMap boundLeaves).map fun leaf =>
    terminalKey leaf.ptyId leaf.incarnationId
  before.workspaces.pairs.flatMap fun entry =>
    if (next.workspaces.lookup entry.1).isSome && entry.1 ∉ after.written then []
    else
      (boundLeaves entry.2).filter fun leaf =>
        (((next.workspaces.lookup entry.1).bind (·.leaf? leaf.leafId)).isNone) &&
          !held.contains (terminalKey leaf.ptyId leaf.incarnationId)

def closedTerminalPaneTtlMs : ℤ := 30 * 24 * 60 * 60 * 1000

def maxClosedTerminalPanes : ℕ := 500

def pruneClosedTerminalPanes (closed : OrderedMap String ClosedTerminalPane) (now : ℤ) :
    OrderedMap String ClosedTerminalPane :=
  let young := closed.pairs.filter fun entry => now - entry.2.closedAt ≤ closedTerminalPaneTtlMs
  let sorted := young.mergeSort fun left right => right.2.closedAt ≤ left.2.closedAt
  OrderedMap.ofPairs (sorted.take maxClosedTerminalPanes)

def onDroppedLeaves (model : WorkspaceLayoutModel P) (dropped : List DroppedLeaf) (now : ℤ) :
    WorkspaceLayoutModel P :=
  let records := model.records
  let closedPanes := records.closedTerminalPanesByPaneKey.getD ∅
  let recorded := closedPanes.values.map fun pane =>
    terminalKey pane.ptyId (some pane.incarnationId)
  let closed := OrderedMap.ofPairs (dropped.filterMap fun leaf =>
    leaf.incarnationId.bind fun incarnationId =>
      if recorded.contains (terminalKey leaf.ptyId (some incarnationId)) then none
      else
        some (paneKeyOf leaf.tabId leaf.leafId,
          ({ ptyId := leaf.ptyId, incarnationId, worktreeId := leaf.worktreeId, closedAt := now } :
            ClosedTerminalPane)))
  if closed.keys = [] then model
  else
    let next := closed.pairs.foldl (fun panes entry => panes.set entry.1 entry.2) closedPanes
    { model with
      records := { records with
        closedTerminalPanesByPaneKey := some (pruneClosedTerminalPanes next now) } }

def runDroppedLeafStep (runtime : LayoutRuntime P) (before : WorkspaceLayoutModel P)
    (after : LayoutEdit P) (next : WorkspaceLayoutModel P) (now : ℤ) : WorkspaceLayoutModel P :=
  if !runtime.layoutOwnerIsMain || after.written = [] then next
  else onDroppedLeaves next (droppedLeavesOf before after next) now

/-! ## Commands -/

def createsWorkspace : LayoutCommand P → Bool
  | .createTerminalTab _ | .openEditorTab _ | .openBrowserTab _ | .openAgentSessionTab _
  | .openSimulatorTab _ => true
  | _ => false

def applyWithoutWorkspace (edit : LayoutEdit P) : LayoutCommand P → Applied P
  | .closeTabs command =>
    applied edit
      { alreadyClosed := some true, closed := some command.tabIds, refused := some [] }
  | .closePane .. => applied edit { alreadyClosed := some true }
  | _ => refuse .workspaceNotFound

def applyOpen (runtime : LayoutRuntime P) (edit : LayoutEdit P) (context : LayoutContext) :
    LayoutCommand P → Applied P
  | .createTerminalTab command =>
    openInNewGroup runtime edit command.toNewGroupOpen fun next =>
      createTerminalTab runtime next command context
  | .openEditorTab command =>
    openInNewGroup runtime edit command.toNewGroupOpen fun next =>
      openEditorTab runtime next command context
  | .openBrowserTab command =>
    openInNewGroup runtime edit command.toNewGroupOpen fun next =>
      openBrowserTab runtime next command context
  | .openAgentSessionTab command =>
    openInNewGroup runtime edit command.toNewGroupOpen fun next =>
      openAgentSessionTab runtime next command context
  | .openSimulatorTab command =>
    openInNewGroup runtime edit
      ⟨command.workspace, some command.tabId, command.groupId, command.split⟩ fun next =>
        openSimulatorTab runtime next command context
  | _ => refuse .workspaceNotFound

def applyInWorkspace (runtime : LayoutRuntime P) (edit : LayoutEdit P)
    (workspace : WorkspaceLayout P) (context : LayoutContext) : LayoutCommand P → Applied P
  | .splitPane key tabId leafId direction ratio newLeafId =>
    splitPane edit workspace key tabId leafId direction ratio newLeafId context
  | .closePane key tabId leafId userPaneClose =>
    closePane edit workspace key tabId leafId userPaneClose
  | .closeTabs command => closeTabs runtime edit workspace command context.now
  | .moveTab command => moveTab runtime edit workspace command
  | .splitGroup key tabId besideGroupId direction =>
    splitGroup runtime edit workspace key tabId besideGroupId direction context
  | .setGroupRatios key groupLayout ratios =>
    setGroupRatios edit workspace key groupLayout ratios
  | .setPaneRatios key tabId root ratios =>
    setPaneRatios runtime edit workspace key tabId root ratios
  | .movePane key tabId leafId targetLeafId side =>
    movePane edit workspace key tabId leafId targetLeafId side
  | .equalizePanes key tabId => equalizePanes runtime edit workspace key tabId
  | .movePaneToNewTab command => movePaneToNewTab runtime edit workspace command context
  | .renameTab key tabId title => renameTab edit workspace key tabId title
  | .renamePane key tabId leafId title => renamePane edit workspace key tabId leafId title
  | .setPaneGrid key tabId leafId grid => setPaneGrid edit workspace key tabId leafId grid
  | .releasePaneTerminal key tabId leafId ptyId =>
    releasePaneTerminal edit workspace key tabId leafId ptyId
  | .setTabProps command => setTabProps edit workspace command
  | .setChatPane key tabId leafId => setChatPane edit workspace key tabId leafId
  | .promotePreviewTab key tabId => promotePreviewTab edit workspace key tabId
  | .moveTabToWorkspace command => moveTabToWorkspace runtime edit workspace command context
  | .renameEditorFiles key renames alsoIn => renameEditorFiles edit key renames alsoIn
  | .openBrowserPage key browserTabId pageId =>
    openBrowserPage edit workspace key browserTabId pageId
  | .closeBrowserPage key browserTabId pageId =>
    closeBrowserPage edit workspace key browserTabId pageId
  | .replaceBrowserPage key browserTabId pageId newPageId =>
    replaceBrowserPage edit workspace key browserTabId pageId newPageId
  | .setBrowserTabProfile key browserTabId profileId sessionPartition =>
    setBrowserTabProfile edit workspace key browserTabId profileId sessionPartition
  | .startPane key paneKey => startPane edit workspace key paneKey context
  | .restartPane key paneKey => restartPane edit workspace key paneKey
  | .sleep key paneKeys records recordOnly =>
    sleep edit workspace key paneKeys records recordOnly
  | .wake key paneKeys recordOnly => wake edit workspace key paneKeys recordOnly
  | _ => refuse .invalidParams

def applyCommand (runtime : LayoutRuntime P) (edit : LayoutEdit P) (command : LayoutCommand P)
    (context : LayoutContext) : Applied P :=
  match command with
  | .setDefaultTabsApplied workspace => applied (setDefaultTabsApplied edit workspace)
  | .applyDefaultTabs workspace tabs => applyDefaultTabs runtime edit workspace tabs context
  | _ =>
    if createsWorkspace command then applyOpen runtime edit context command
    else
      match edit.workspace? command.workspace with
      | none => applyWithoutWorkspace edit command
      | some workspace => applyInWorkspace runtime edit workspace context command

structure LayoutOutcome (P : Type) where
  model : WorkspaceLayoutModel P
  result : LayoutCommandResult
  effects : LayoutEffects
  outcomes : Option PaneOutcomeChanges

def applyLayoutCommand (runtime : LayoutRuntime P) (model : WorkspaceLayoutModel P)
    (command : LayoutCommand P) (context : LayoutContext) :
    Except LayoutRefusalCode (LayoutOutcome P) := do
  let applied ← applyCommand runtime { model } command context
  let next := updateLegacyPersistence model applied.edit []
  return {
    model :=
      if context.droppedLeafReason.isSome then
        runDroppedLeafStep runtime model applied.edit next context.now
      else next
    result := applied.result
    effects := applied.effects
    outcomes := applied.outcomes }

/-! ## The workspaces after the last steps -/

section

variable (before : WorkspaceLayoutModel P) (after : LayoutEdit P) (retiredWorktreeIds : List String)

@[simp]
theorem workspaces_updateLegacyPersistence :
    (updateLegacyPersistence before after retiredWorktreeIds).workspaces =
      after.model.workspaces := rfl

end

theorem workspaces_onDroppedLeaves (model : WorkspaceLayoutModel P) (dropped : List DroppedLeaf)
    (now : ℤ) : (onDroppedLeaves model dropped now).workspaces = model.workspaces := by
  simp only [onDroppedLeaves]
  split <;> rfl

theorem workspaces_runDroppedLeafStep (runtime : LayoutRuntime P)
    (before : WorkspaceLayoutModel P) (after : LayoutEdit P) (next : WorkspaceLayoutModel P)
    (now : ℤ) : (runDroppedLeafStep runtime before after next now).workspaces =
      next.workspaces := by
  rw [runDroppedLeafStep]
  split
  · rfl
  · exact workspaces_onDroppedLeaves next _ now

theorem applyLayoutCommand_cases {runtime : LayoutRuntime P} {model : WorkspaceLayoutModel P}
    {command : LayoutCommand P} {context : LayoutContext} {outcome : LayoutOutcome P}
    (houtcome : applyLayoutCommand runtime model command context = .ok outcome) :
    ∃ applied, applyCommand runtime { model } command context = .ok applied ∧
      outcome.model.workspaces = applied.edit.model.workspaces := by
  rw [applyLayoutCommand] at houtcome
  cases hcommand : applyCommand runtime { model } command context with
  | error code =>
    rw [hcommand] at houtcome
    cases houtcome
  | ok applied =>
    rw [hcommand] at houtcome
    refine ⟨applied, rfl, ?_⟩
    rw [← Except.ok.inj houtcome]
    dsimp only
    split
    · rw [workspaces_runDroppedLeafStep]
      rfl
    · rfl

end Wakii.LayoutCommands
