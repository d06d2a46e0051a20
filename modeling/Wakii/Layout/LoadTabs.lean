import Wakii.Layout.EditorTabFiles
import Wakii.Layout.LegacyRows
import Wakii.Layout.LoadOrder

/-!
# The tabs of a loaded workspace

The tab bar's entries come first, then the browser records it lost, then the
terminal rows it does not name.  A row that only repeats what the tab bar's rows
hold is left out.
-/

namespace Wakii.LayoutLoad

open OrderedCollections
open Wakii.CommandTypes Wakii.LayoutModel Wakii.OwnedEditorFile Wakii.PtyOwnership
open Wakii.TerminalOwners

variable {P : Type}

structure WorkspaceLoadArgs (P : Type) where
  runtime : LayoutRuntime P
  context : WorkspaceLayoutLoadContext P
  session : WorkspaceSessionState P
  /-- A row's id → the one workspace that keeps it. -/
  terminalHomes : OrderedMap String String
  hostId : String
  key : String

/-! ## Rows -/

def takeRows (args : WorkspaceLoadArgs P) : List (TerminalTab P) :=
  (args.session.rows args.key).foldl
    (fun rows row =>
      if row.id ∈ rows.map (·.id) ∨ args.terminalHomes.lookup row.id ≠ some args.key then rows
      else rows ++ [row])
    []

/-- A row saved before pane layouts existed gets one pane, bound to its terminal. -/
def legacyLayout (args : WorkspaceLoadArgs P) (row : TerminalTab P) : PaneLayout P :=
  let leafId := (recordedLeafId args.session row.id).getD
    (args.context.mintLeafId (.legacyRow args.key row.id))
  { root := some (.leaf leafId)
    activeLeafId := some leafId
    expandedLeafId := none
    chatLeafId := none
    ptyIdsByLeafId := (truthy row.ptyId).map fun ptyId => OrderedMap.set ∅ leafId ptyId
    buffersByLeafId := none
    scrollbackRefsByLeafId := none
    titlesByLeafId := none
    lastGridsByLeafId := none }

/-- One pane for each terminal; the loop over replaced panes ends within the panes there are. -/
def normalizedLayout (layout : PaneLayout P) : PaneLayout P :=
  ((normalizeTerminalLayoutPtyOwnership (layout.orderedLeafIds.length + 3) layout).map
    (·.snapshot)).getD layout

def normalizeTitle (value : Option String) : Option String :=
  truthy (value.map trim)

/-- `/^Terminal \d+$/` -/
def isNumberedTitle (title : String) : Bool :=
  match afterStart "Terminal " title with
  | none => false
  | some digits => digits ≠ "" && digits.toList.all Char.isDigit

def isSyntheticSinglePaneTitleForLabels (title : String) (labels : List (Option String)) : Bool :=
  match normalizeTitle (some title) with
  | none => true
  | some normalized =>
      isNumberedTitle normalized || (labels.filterMap normalizeTitle).contains normalized

def isSinglePaneLayout (leafIds : List String) (titles : LeafRecord) : Bool :=
  leafIds.length ≤ 1 && titles.keys.length ≤ 1 &&
    (leafIds.isEmpty || titles.keys.head?.all leafIds.contains)

def sanitizeTerminalLayoutPaneTitlesForLabels (layout : PaneLayout P)
    (labels : List (Option String)) : PaneLayout P :=
  match layout.titlesByLeafId with
  | none => layout
  | some titles =>
    if !isSinglePaneLayout layout.leafIds titles then layout
    else
      let kept := titles.pairs.filter fun entry =>
        !isSyntheticSinglePaneTitleForLabels entry.2 labels
      if kept.length = titles.pairs.length then layout
      else
        { layout with
          titlesByLeafId := if kept.isEmpty then none else some (OrderedMap.ofPairs kept) }

/-- The labels a pane title may repeat; the tab-bar label is live. -/
def paneTitleLabels (row : TerminalTab P) (entry : Option (Tab P)) : List (Option String) :=
  [some ((entry.map (·.label)).getD row.title), row.creation.defaultTitle,
    (truthy ((row.quickCommandLabel.bind id).map trim)).or
      ((entry.bind fun entry => entry.quickCommandLabel.bind id).map trim),
    row.customTitle]

def loadPanes (args : WorkspaceLoadArgs P) (row : TerminalTab P) (entityId : String)
    (entry : Option (Tab P)) : PaneLayout P :=
  let stored := (args.session.terminalLayoutsByTabId.lookup entityId).getD (legacyLayout args row)
  if args.runtime.layoutOwnerIsMain then
    sanitizeTerminalLayoutPaneTitlesForLabels (normalizedLayout stored) (paneTitleLabels row entry)
  else stored

/-! ## Tabs -/

def contentFields (entry : Tab P) : LayoutTabFields P where
  id := entry.id
  entityId := entry.entityId
  createdAt := entry.createdAt
  customTitle := entry.customLabel
  generatedTitle := entry.generatedLabel
  aiVaultTitle := entry.aiVaultTitle
  quickCommandLabel := entry.quickCommandLabel
  color := entry.color
  isPinned := entry.isPinned
  viewMode := entry.viewMode
  isPreview := entry.isPreview
  agentSessionAgent := entry.agentSessionAgent

def loadContentTab (entry : Tab P) (kind : TabContentType) : LayoutTab P :=
  .content { contentFields entry with kind }

/-- Where both records name a field, the row wins. -/
def loadTerminalTab (row : TerminalTab P) (entry : Option (Tab P)) : LayoutTabFields P :=
  let base : LayoutTabFields P := match entry with
    | some entry => contentFields entry
    | none =>
      { id := row.id
        entityId := row.id
        createdAt := row.createdAt
        customTitle := none
        color := none }
  { base with
    createdAt := row.createdAt
    customTitle := row.customTitle
    generatedTitle := row.generatedTitle.or base.generatedTitle
    aiVaultTitle := row.aiVaultTitle.or base.aiVaultTitle
    quickCommandLabel := row.quickCommandLabel.or base.quickCommandLabel
    color := row.color
    isPinned := row.isPinned.or base.isPinned
    viewMode := row.viewMode.or base.viewMode }

def editorGroupKey (entry : Tab P) : String :=
  entry.groupId ++ String.singleton (Char.ofNat 0) ++ entry.entityId

/-- Duplicate editor tabs of a group, each with the first in strip order. -/
def duplicateEditorTabAliases (runtime : LayoutRuntime P) (entries : List (Tab P)) :
    OrderedMap String String :=
  if !runtime.layoutOwnerIsMain then ∅
  else
    let editors := (entries.filter fun entry =>
      entry.contentType = .content .editor).insertionSort fun left right =>
        (compare left.sortOrder right.sortOrder).then (compare left.createdAt right.createdAt) ≠ .gt
    (editors.foldl (fun (state : OrderedMap String String × OrderedMap String String) entry =>
        match state.1.lookup (editorGroupKey entry) with
        | none => (state.1.set (editorGroupKey entry) entry.id, state.2)
        | some first =>
          if first ≠ entry.id then (state.1, state.2.set entry.id first) else state)
      (∅, ∅)).2

/-- Diff, conflict and check tabs: their documents live in memory only. -/
def isTransientEditorContentType (kind : TabContentType) : Bool :=
  kind = .diff || kind = .conflictReview || kind = .checkDetails

def restoresSavedContentTab (kind : TabContentType) (entityId : String)
    (savedEditFilePaths : List String) (keepsView : Bool) : Bool :=
  if kind = .editor ∧ (afterStart "html-preview::" entityId).isSome then false
  else if !isTransientEditorContentType kind then true
  else savedEditFilePaths.contains entityId || keepsView

def viewedEntities (heldViews : OrderedMap String P) (entries : List (Tab P)) : List String :=
  (entries.filter fun entry => entry.id ∈ heldViews).map (·.entityId)

/-- Whether a load with the main process's views keeps a content entry; one without keeps all. -/
def keepsContentEntry (args : WorkspaceLoadArgs P) (entry : Tab P) (kind : TabContentType) : Bool :=
  match if args.runtime.layoutOwnerIsMain then args.context.editorViewsOf else none with
  | none => true
  | some viewsOf =>
    restoresSavedContentTab kind entry.entityId
      ((args.session.openFiles args.key).map (·.filePath))
      ((viewedEntities ((viewsOf args.key).getD ∅)
        (args.session.entries args.key)).contains entry.entityId)

/-! ## The loops -/

structure LoadedTabs (P : Type) where
  tabs : List (LayoutTab P) := []
  candidates : List OrderCandidate := []
  tabIds : List String := []
  merged : List String := []
  layouts : OrderedMap String (PaneLayout P) := ∅
  /-- A dropped row's id → the terminal that holds its terminals. -/
  canonicalTabIdBySubsumedTabId : OrderedMap String String := ∅

def addTerminal (args : WorkspaceLoadArgs P) (row : TerminalTab P) (entry : Option (Tab P))
    (loaded : LoadedTabs P) : LoadedTabs P :=
  let fields := loadTerminalTab row entry
  let layout := loadPanes args row fields.entityId entry
  let id := if fields.id ∈ loaded.tabIds then args.context.mintId (.tab args.key row.id)
    else fields.id
  { loaded with
    tabs := loaded.tabs ++ [.terminal { fields with
      id
      terminal := row.creation
      panes := { root := layout.root, chatLeafId := layout.chatLeafId } }]
    candidates := loaded.candidates ++ [{
      id
      groupId := entry.map (·.groupId)
      tabBarSortOrder := entry.map (·.sortOrder)
      rowSortOrder := some row.sortOrder
      createdAt := row.createdAt }]
    tabIds := loaded.tabIds ++ [id]
    merged := loaded.merged ++ [row.id]
    layouts := loaded.layouts.set fields.entityId layout }

def addContent (entry : Tab P) (kind : TabContentType) (loaded : LoadedTabs P) : LoadedTabs P :=
  { loaded with
    tabs := loaded.tabs ++ [loadContentTab entry kind]
    candidates := loaded.candidates ++ [{
      id := entry.id
      groupId := some entry.groupId
      tabBarSortOrder := some entry.sortOrder
      createdAt := entry.createdAt }]
    tabIds := loaded.tabIds ++ [entry.id] }

def rowOf (rows : List (TerminalTab P)) (entityId : String) : Option (TerminalTab P) :=
  rows.find? (·.id = entityId)

def loadEntry (args : WorkspaceLoadArgs P) (rows : List (TerminalTab P))
    (aliases : OrderedMap String String) (loaded : LoadedTabs P) (entry : Tab P) : LoadedTabs P :=
  if entry.id ∈ loaded.tabIds ∨ entry.id ∈ aliases then loaded
  else
    match entry.contentType with
    | .terminal =>
      match rowOf rows entry.entityId with
      | none => loaded
      | some row =>
        if row.id ∈ loaded.merged then loaded else addTerminal args row (some entry) loaded
    | .content kind =>
      if keepsContentEntry args entry kind then addContent entry kind loaded else loaded

/-- The retained active group, else the first stored one that holds a tab. -/
def browserRepairGroupId (args : WorkspaceLoadArgs P) (candidates : List OrderCandidate) :
    Option String :=
  let storedGroups := args.session.groups args.key
  let heldGroupIds := (resolveTabGroupOwners candidates storedGroups).values
  let savedActive := (truthy (args.session.activeGroupIdByWorktree.lookup args.key)).filter
    (· ∈ heldGroupIds)
  savedActive.or ((storedGroups.find? fun group => group.id ∈ heldGroupIds).map (·.id))

def browserTab (id : String) (record : BrowserWorkspace) : LayoutTab P :=
  .content {
    id
    entityId := record.id
    createdAt := record.createdAt
    customTitle := none
    color := none
    kind := .browser }

def repairBrowserTab (args : WorkspaceLoadArgs P) (activeGroupId : Option String)
    (state : LoadedTabs P × List String) (record : BrowserWorkspace) :
    LoadedTabs P × List String :=
  if record.id ∈ state.2 then state
  else
    let loaded := state.1
    let id := args.context.mintId (.browserTab args.key record.id)
    ({ loaded with
        tabs := loaded.tabs ++ [browserTab id record]
        candidates := loaded.candidates ++ [{
          id
          groupId := activeGroupId
          createdAt := record.createdAt }]
        tabIds := loaded.tabIds ++ [id] },
      state.2 ++ [record.id])

def browserEntities (tabs : List (LayoutTab P)) : List String :=
  (tabs.filter fun tab => tab.contentKind = some .browser).map (·.entityId)

def repairBrowserTabs (args : WorkspaceLoadArgs P) (loaded : LoadedTabs P) : LoadedTabs P :=
  if !args.runtime.layoutOwnerIsMain then loaded
  else
    ((args.session.browserTabs args.key).foldl
      (repairBrowserTab args (browserRepairGroupId args loaded.candidates))
      (loaded, browserEntities loaded.tabs)).1

/-- A row the tab bar does not name: a stale copy is redirected, any other gets a tab. -/
def loadRow (args : WorkspaceLoadArgs P) (canonical : CanonicalPtyOwners)
    (loaded : LoadedTabs P) (row : TerminalTab P) : LoadedTabs P :=
  if row.id ∈ loaded.merged then loaded
  else
    match resolveCanonicalPtyClaim args.session row canonical with
    | .subsumed canonicalTabId =>
      { loaded with
        canonicalTabIdBySubsumedTabId :=
          loaded.canonicalTabIdBySubsumedTabId.set row.id canonicalTabId }
    | .retained _ _ => addTerminal args row none loaded

/-- The loops over entries, browser records and rows, after earlier workspaces. -/
def loadTabs (args : WorkspaceLoadArgs P) (layouts : OrderedMap String (PaneLayout P))
    (canonicalTabIdBySubsumedTabId : OrderedMap String String) : LoadedTabs P :=
  let entries := args.session.entries args.key
  let aliases := duplicateEditorTabAliases args.runtime entries
  let rows := takeRows args
  let named := entries.foldl (loadEntry args rows aliases)
    { layouts, canonicalTabIdBySubsumedTabId }
  let canonical := readCanonicalPtyOwners args.session args.key rows
  rows.foldl (loadRow args canonical) (repairBrowserTabs args named)

end Wakii.LayoutLoad
