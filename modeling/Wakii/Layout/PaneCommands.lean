import Wakii.Layout.LayoutTrees
import Wakii.Layout.TabCommands

/-!
# Commands on panes

Splitting, closing and moving panes, and what a pane's terminal is asked to do.
A pane keeps its id and its data wherever it moves.
-/

namespace Wakii.PaneCommands

open Wakii.CommandSteps Wakii.CommandTypes Wakii.LayoutModel Wakii.LayoutTrees
open Wakii.TabCommands

variable {P : Type}

def withRoot (tab : LayoutTerminalTab P) (root : Option (TerminalPaneLayoutNode P)) : LayoutTab P :=
  .terminal { tab with panes := { tab.panes with root } }

/-! ## Trees -/

def splitPane (edit : LayoutEdit P) (workspace : WorkspaceLayout P)
    (workspaceKey tabId leafId : String) (direction : TerminalPaneSplitDirection)
    (ratio : Option P) (newLeafId : Option String) (context : LayoutContext) : Applied P :=
  match paneTab workspace tabId with
  | none => refuse .tabNotFound
  | some tab =>
    if !layoutContainsLeafId tab.panes.root leafId then refuse .paneNotFound
    else
      let added := newLeafId.getD (context.mintLeafId 0)
      let side := if direction = .vertical then .right else .bottom
      let root := tab.panes.root.map fun root =>
        insertLeafBeside root leafId added side ratio
      let paneKey := paneKeyOf tab.entityId added
      applied (withWorkspace edit workspaceKey (replaceTab workspace (withRoot tab root)))
        { leafId := some added, paneKey := some paneKey } { startPaneKeys := [paneKey] }

def isSinglePane (root : Option (TerminalPaneLayoutNode P)) : Bool :=
  match root with
  | some (.leaf _) => true
  | _ => false

def closePane (edit : LayoutEdit P) (workspace : WorkspaceLayout P)
    (workspaceKey tabId leafId : String) (userPaneClose : Bool) : Applied P :=
  match (findTerminal workspace tabId).filter fun tab =>
      layoutContainsLeafId tab.panes.root leafId with
  | none => applied edit { alreadyClosed := some true }
  | some tab =>
    if userPaneClose && isSinglePane tab.panes.root then refuse .lastPane
    else
      let retired := retirePane workspace tab leafId
      applied (withWorkspace edit workspaceKey retired)
        { tabClosed := some !(retired.tabs.any (·.id = tab.id)) }
        { stopPtyIds := (given (leafOf workspace leafId).ptyId).toList }

def movePane (edit : LayoutEdit P) (workspace : WorkspaceLayout P)
    (workspaceKey tabId leafId targetLeafId : String) (side : PaneSide) : Applied P :=
  if leafId = targetLeafId then refuse .samePane
  else
    match paneTab workspace tabId with
    | none => refuse .tabNotFound
    | some tab =>
      if !layoutContainsLeafId tab.panes.root leafId ||
          !layoutContainsLeafId tab.panes.root targetLeafId then
        refuse .paneNotFound
      else
        -- The target stays, so there is a tree to move into.
        let root := (removeLayoutLeaf tab.panes.root leafId).map fun without =>
          insertLeafBeside without targetLeafId leafId side none
        updateTab edit workspaceKey workspace (withRoot tab root)

/-- The tree with the ratios set, or the window's tree where it has the same panes. -/
def resizedPanes (runtime : LayoutRuntime P) (tab : LayoutTerminalTab P)
    (root : Option (TerminalPaneLayoutNode P))
    (ratios : Option (List (SplitRatioIntent P))) : Option (TerminalPaneLayoutNode P) := do
  let current ← tab.panes.root
  match ratios with
  | some ratios => withPaneSplitRatios runtime current ratios
  | none => root.filter (samePanesIgnoringRatios current)

def setPaneRatios (runtime : LayoutRuntime P) (edit : LayoutEdit P)
    (workspace : WorkspaceLayout P) (workspaceKey tabId : String)
    (root : Option (TerminalPaneLayoutNode P)) (ratios : Option (List (SplitRatioIntent P))) :
    Applied P :=
  match paneTab workspace tabId with
  | none => refuse .tabNotFound
  | some tab =>
    match resizedPanes runtime tab root ratios with
    | none => refuse .paneStructureChanged
    | some root => updateTab edit workspaceKey workspace (withRoot tab (some root))

def equalizePanes (runtime : LayoutRuntime P) (edit : LayoutEdit P)
    (workspace : WorkspaceLayout P) (workspaceKey tabId : String) : Applied P :=
  match paneTab workspace tabId with
  | none => refuse .tabNotFound
  | some tab =>
    updateTab edit workspaceKey workspace
      (withRoot tab (tab.panes.root.map (equalizeLayout runtime)))

/-! ## Pane data -/

def renamePane (edit : LayoutEdit P) (workspace : WorkspaceLayout P)
    (workspaceKey tabId leafId : String) (title : Option String) : Applied P :=
  match paneTab workspace tabId with
  | none => refuse .tabNotFound
  | some tab =>
    if !layoutContainsLeafId tab.panes.root leafId then refuse .paneNotFound
    else
      applied (withWorkspace edit workspaceKey
        (setLeaf workspace leafId { leafOf workspace leafId with title }))

def setPaneGrid (edit : LayoutEdit P) (workspace : WorkspaceLayout P)
    (workspaceKey tabId leafId : String) (grid : TerminalGrid) : Applied P :=
  match paneTab workspace tabId with
  | none => refuse .tabNotFound
  | some tab =>
    if !layoutContainsLeafId tab.panes.root leafId then refuse .paneNotFound
    else if (leafOf workspace leafId).lastGrid = some grid then applied edit
    else
      applied (withWorkspace edit workspaceKey
        (setLeaf workspace leafId { leafOf workspace leafId with lastGrid := some grid }))

def released (leaf : LayoutLeaf P) : LayoutLeaf P :=
  { leaf with ptyId := none, incarnationId := none }

def releasePaneTerminal (edit : LayoutEdit P) (workspace : WorkspaceLayout P)
    (workspaceKey tabId leafId ptyId : String) : Applied P :=
  match (paneTab workspace tabId).filter fun tab =>
      layoutContainsLeafId tab.panes.root leafId with
  | none => refuse .paneNotFound
  | some _ =>
    let leaf := leafOf workspace leafId
    if leaf.ptyId ≠ some ptyId then applied edit
    else
      applied (withWorkspace edit workspaceKey (setLeaf workspace leafId (released leaf)))

/-! ## Moving a pane to a tab of its own -/

/-- The window's terminal outranks a stale binding, whose incarnation is dropped. -/
def detachedLeaf (leaf : LayoutLeaf P) (ptyId : String) : LayoutLeaf P :=
  if (given leaf.ptyId).isNone then { leaf with ptyId := some ptyId }
  else { leaf with ptyId := some ptyId, incarnationId := none }

def bindDetachedLeaf (workspace : WorkspaceLayout P) (leafId : String)
    (detach : Option WindowPaneDetach) : WorkspaceLayout P :=
  let leaf := leafOf workspace leafId
  match given (detach.bind (·.ptyId)) with
  | none => workspace
  | some ptyId =>
    if leaf.ptyId = some ptyId then workspace
    else setLeaf workspace leafId (detachedLeaf leaf ptyId)

/-- An unbound pane's shell starts in the new tab, so it starts in the pane's folder. -/
def detachedStartupCwd (workspace : WorkspaceLayout P) (tab : LayoutTerminalTab P)
    (leafId : String) (detach : Option WindowPaneDetach) : Option String :=
  let own := if isBoundLeaf workspace leafId then none else detach.bind (·.startupCwd)
  given ((given own).or tab.terminal.startupCwd)

def detachedTab (workspace : WorkspaceLayout P) (tab : LayoutTerminalTab P)
    (id leafId : String) (detach : Option WindowPaneDetach) (now : ℤ) :
    LayoutTerminalTab P :=
  let isChat := tab.panes.chatLeafId = some leafId
  { id
    entityId := id
    createdAt := now
    customTitle := none
    color := none
    viewMode := if isChat then some .chat else none
    terminal :=
      { defaultTitle := some ("Terminal " ++ toString (getNextTerminalOrdinal workspace))
        startupCwd := detachedStartupCwd workspace tab leafId detach
        shellOverride := given tab.terminal.shellOverride }
    panes :=
      { root := some (.leaf leafId), chatLeafId := if isChat then some leafId else none } }

def sourceTab (tab : LayoutTerminalTab P) (leafId : String) : LayoutTerminalTab P :=
  { tab with
    panes := withoutChat { tab.panes with root := removeLayoutLeaf tab.panes.root leafId } leafId }

def movePaneToNewTab (runtime : LayoutRuntime P) (edit : LayoutEdit P)
    (workspace : WorkspaceLayout P) (command : MovePaneToNewTab) (context : LayoutContext) :
    Applied P :=
  let leafId := command.leafId
  let detach := command.windowDetach
  match paneTab workspace command.tabId with
  | none => refuse .tabNotFound
  | some tab =>
    if !layoutContainsLeafId tab.panes.root leafId then refuse .paneNotFound
    else if detach.isNone && (leafIdsOf tab).length < 2 then refuse .lastPane
    else
      let workspace := bindDetachedLeaf workspace leafId detach
      let (id, context) :=
        match detach.bind (·.tabId) with
        | some tabId => (tabId, context)
        | none => (context.mintId 0, context.nextId)
      let moved := detachedTab workspace tab id leafId detach context.now
      let sourceGroup := groupListing workspace tab.id
      let placement : TabPlacement :=
        { groupId := command.groupId.or (sourceGroup.map (·.id))
          index := command.index
          afterTabId := if command.index.isNone then some tab.id else none }
      let placed := placeNewTab runtime
        (replaceTab workspace (.terminal (sourceTab tab leafId))) command.workspace
        (.terminal moved) placement context
      applied (withWorkspace edit command.workspace placed)
        { tabId := some id
          ptyId := detach.map fun _ => (leafOf placed leafId).ptyId }

/-! ## Processes -/

structure WorkspacePane where
  paneKey : String
  leafId : String
deriving DecidableEq

def workspacePanes (workspace : WorkspaceLayout P) : List WorkspacePane :=
  workspace.tabs.flatMap fun tab =>
    tab.paneIds.map fun leafId => ⟨paneKeyOf tab.entityId leafId, leafId⟩

def hasResumeRecord (leaf : LayoutLeaf P) : Bool :=
  leaf.sleeping.isSome || leaf.resume.isSome

/-- Stops, then starts in place. -/
def restartPane (edit : LayoutEdit P) (workspace : WorkspaceLayout P)
    (workspaceKey paneKey : String) : Applied P :=
  match locatePane workspace paneKey with
  | none => refuse .paneNotFound
  | some pane =>
    let leaf := leafOf workspace pane.leafId
    applied
      (withWorkspace edit workspaceKey (setLeaf workspace pane.leafId (released leaf))) {}
      { stopPtyIds := (given leaf.ptyId).toList, startPaneKeys := [paneKey] }
      (leafOutcome pane.leafId none)

/-- Starts a pane that shows no live terminal and is not starting. -/
def startPane (edit : LayoutEdit P) (workspace : WorkspaceLayout P)
    (workspaceKey paneKey : String) (context : LayoutContext) : Applied P :=
  match locatePane workspace paneKey with
  | none => refuse .paneNotFound
  | some pane =>
    let ptyId := given (leafOf workspace pane.leafId).ptyId
    if ptyId.any (context.retiresBinding paneKey) then
      restartPane edit workspace workspaceKey paneKey
    else if ptyId.any (context.isBindingLive paneKey) || context.isStarting pane.leafId then
      applied edit
    else
      applied edit {} { startPaneKeys := [paneKey] } (leafOutcome pane.leafId none)

def isPaneSleepRecord (record : LayoutSleepingRecord P) : Bool :=
  record.origin = none || record.origin = some "worktree-sleep"

def withSleepRecord (leaf : LayoutLeaf P) (record : LayoutSleepingRecord P) : LayoutLeaf P :=
  if isPaneSleepRecord record then { leaf with sleeping := some record, resume := none }
  else { leaf with sleeping := none, resume := some record }

def sleepStep (records : List (SleepingAgentSessionRecord P)) (workspace : WorkspaceLayout P)
    (pane : WorkspacePane) : WorkspaceLayout P :=
  match records.find? (·.paneKey = pane.paneKey) with
  | none => workspace
  | some sent =>
    setLeaf workspace pane.leafId (withSleepRecord (leafOf workspace pane.leafId) sent.record)

def sleep (edit : LayoutEdit P) (workspace : WorkspaceLayout P) (workspaceKey : String)
    (paneKeys : Option (List String)) (records : List (SleepingAgentSessionRecord P))
    (recordOnly : Bool) : Applied P :=
  let targets := (workspacePanes workspace).filter fun pane =>
    paneKeys.all (·.contains pane.paneKey)
  let stopPtyIds :=
    if recordOnly then []
    else targets.filterMap fun pane => (leafOf workspace pane.leafId).ptyId
  let isRecorded := targets.any fun pane => records.any (·.paneKey = pane.paneKey)
  let next :=
    if isRecorded then
      withWorkspace edit workspaceKey (targets.foldl (sleepStep records) workspace)
    else edit
  applied next { slept := some (targets.map (·.paneKey)) } { stopPtyIds }

def withoutSleepRecords (workspace : WorkspaceLayout P) (pane : WorkspacePane) :
    WorkspaceLayout P :=
  setLeaf workspace pane.leafId
    { leafOf workspace pane.leafId with sleeping := none, resume := none }

/-- Starts the slept panes, or only drops the records. -/
def wake (edit : LayoutEdit P) (workspace : WorkspaceLayout P) (workspaceKey : String)
    (paneKeys : Option (List String)) (recordOnly : Bool) : Applied P :=
  let woken := (workspacePanes workspace).filter fun pane =>
    let leaf := leafOf workspace pane.leafId
    paneKeys.all (·.contains pane.paneKey) &&
      if recordOnly then hasResumeRecord leaf else leaf.sleeping.isSome
  let wokenKeys := woken.map (·.paneKey)
  if !recordOnly then
    applied edit { woken := some wokenKeys } { startPaneKeys := wokenKeys }
  else
    let next :=
      if woken = [] then edit
      else withWorkspace edit workspaceKey (woken.foldl withoutSleepRecords workspace)
    applied next { woken := some wokenKeys }

end Wakii.PaneCommands
