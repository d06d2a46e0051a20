import Wakii.Layout.CommandSteps
import Wakii.Layout.EditorTabFiles

/-!
# Commands on tabs

Making, closing, naming and marking tabs.  A terminal that already runs is shown
in the pane main holds for it, else in a new tab bound to it.
-/

namespace Wakii.TabCommands

open Wakii.CommandSteps Wakii.CommandTypes Wakii.EditorTabFiles Wakii.LayoutModel
open Wakii.OwnedEditorFile

variable {P : Type}

/-! ## Live terminals -/

def paneResult (tab : LayoutTab P) (leafId : String) : LayoutCommandResult :=
  { tabId := some tab.id
    leafId := some leafId
    paneKey := some (paneKeyOf tab.entityId leafId) }

def isBoundLeaf (workspace : WorkspaceLayout P) (leafId : String) : Bool :=
  (given (leafOf workspace leafId).ptyId).isSome

def heldPaneOfTerminal (workspace : WorkspaceLayout P) (adoption : LiveTerminalAdoption) :
    Option (LocatedPane P) :=
  (workspace.tabs.findSome? (findPane fun _ leafId =>
    (leafOf workspace leafId).ptyId = some adoption.ptyId)).or
      (((given adoption.recordedPaneKey).bind (locatePane workspace)).filter fun pane =>
        !isBoundLeaf workspace pane.leafId)

/-- A leaf bound to the terminal; an incarnation it has stays where none is given. -/
def adoptedLeaf (leaf : LayoutLeaf P) (adoption : LiveTerminalAdoption) : LayoutLeaf P :=
  { leaf with
    ptyId := some adoption.ptyId
    incarnationId := (given adoption.incarnationId).or leaf.incarnationId }

def appliedHeldAdoption (edit : LayoutEdit P) (key : String) (adoption : LiveTerminalAdoption) :
    Option (Applied P) := do
  let workspace ← edit.workspace? key
  let held ← heldPaneOfTerminal workspace adoption
  let leaf := leafOf workspace held.leafId
  let result := paneResult (.terminal held.tab) held.leafId
  if leaf.ptyId = some adoption.ptyId then return applied edit result
  else
    let bound := setLeaf workspace held.leafId (adoptedLeaf leaf adoption)
    return applied (withWorkspace edit key bound) result

/-! ## New terminal tabs -/

def terminalOrdinal (title : String) : Option ℕ := do
  let digits ← TerminalOwners.afterStart "Terminal " title
  if digits ≠ "" && digits.toList.all Char.isDigit then digits.toNat? else none

def getNextTerminalOrdinal (workspace : WorkspaceLayout P) : ℕ :=
  let used := (workspace.tabs.filterMap asTerminal).filterMap fun tab =>
    terminalOrdinal (tab.terminal.defaultTitle.getD "")
  (((List.range (used.length + 1)).map (· + 1)).find? (· ∉ used)).getD 1

def mergeCreation (base given : LayoutTerminalCreation) : LayoutTerminalCreation where
  defaultTitle := given.defaultTitle.or base.defaultTitle
  shellOverride := given.shellOverride.or base.shellOverride
  forceHostRuntime := given.forceHostRuntime.or base.forceHostRuntime
  startupCwd := given.startupCwd.or base.startupCwd
  launchAgent := given.launchAgent.or base.launchAgent

def admitsInitialSurface (model : WorkspaceLayoutModel P) (workspaceKey : String)
    (reason : InitialSurfaceReason) : Bool :=
  (model.workspaces.lookup workspaceKey).all (·.tabs.isEmpty) &&
    (reason = .activation || workspaceKey ∉ model.legacy.terminalRowOwners)

def newTerminalTab (workspace : WorkspaceLayout P) (command : CreateTerminalTab)
    (id leafId : String) (now : ℤ) : LayoutTerminalTab P where
  id
  entityId := id
  createdAt := command.createdAt.getD now
  customTitle := command.title
  color := command.color
  quickCommandLabel := (given command.quickCommandLabel).map some
  viewMode := command.viewMode
  terminal := mergeCreation
    { defaultTitle := some ("Terminal " ++ toString (getNextTerminalOrdinal workspace)) }
    (command.creation.getD {})
  panes := { root := some (.leaf leafId) }

def createTerminalTab (runtime : LayoutRuntime P) (edit : LayoutEdit P)
    (command : CreateTerminalTab) (context : LayoutContext) : Applied P :=
  if command.initial.any fun reason =>
      !admitsInitialSurface edit.model command.workspace reason then
    applied edit
  else
    match command.adopt.bind (appliedHeldAdoption edit command.workspace) with
    | some held => held
    | none =>
      let workspace := workspaceOrEmpty edit command.workspace
      let (id, context) :=
        match command.tabId with
        | some tabId => (tabId, context)
        | none => (context.mintId 0, context.nextId)
      let leafId := command.leafId.getD (context.mintLeafId 0)
      let tab := newTerminalTab workspace command id leafId context.now
      let placed := placeNewTab runtime workspace command.workspace (.terminal tab)
        ⟨command.groupId, command.afterTabId, command.index⟩ context
      let result := paneResult (.terminal tab) leafId
      match command.adopt with
      | some adoption =>
        -- Its terminal already runs: nothing starts.
        let leaves := (placed.leaves.getD ∅).set leafId (adoptedLeaf {} adoption)
        applied (withWorkspace edit command.workspace { placed with leaves := some leaves })
          result
      | none =>
        applied (withWorkspace edit command.workspace placed) result
          { startPaneKeys := [paneKeyOf id leafId] }

/-! ## Closing tabs -/

/-- The records left when a tab closed; the workspace after still has the files. -/
def filesAfterClose (runtime : LayoutRuntime P) (before after : WorkspaceLayout P)
    (tab : LayoutTab P) : Option (List (LayoutEditorFile P)) :=
  if tab.contentKind = some .editor && !after.tabs.any (·.entityId = tab.entityId) then
    after.editorFiles.map fun files => files.filter fun file =>
      if runtime.layoutOwnerIsMain then
        keptAfterEditorClose runtime before after tab.entityId file
      else !editorTabShowsFile runtime tab.entityId file after.worktreeId
  else after.editorFiles

def closeTab (runtime : LayoutRuntime P) (workspace : WorkspaceLayout P) (tab : LayoutTab P) :
    WorkspaceLayout P :=
  let next := removeTabFromWorkspace workspace tab.id
  { next with
    leaves := next.leaves.map (·.eraseAll tab.paneIds)
    editorFiles := filesAfterClose runtime workspace next tab
    editorViews := next.editorViews.map (·.erase tab.id)
    browserTabs :=
      if tab.contentKind = some .browser then
        next.browserTabs.map fun records => records.filter (·.id ≠ tab.entityId)
      else next.browserTabs }

structure CloseProgress (P : Type) where
  workspace : WorkspaceLayout P
  changed : Bool := false
  closed : List String := []
  recorded : List String := []
  refused : List RefusedClose := []
  stopPtyIds : List String := []

def closeRefusal (command : CloseTabs) (tab : LayoutTab P) : Option RefusedCloseCode :=
  if command.force then none
  else if command.refusePinned && tab.isPinned then some .tabPinned
  else if command.dirtyTabIds.contains tab.id then some .editorTabHasUnsavedDraft
  else none

def closeStep (runtime : LayoutRuntime P) (command : CloseTabs) (progress : CloseProgress P)
    (tabId : String) : CloseProgress P :=
  match findTab progress.workspace tabId with
  | none =>
    { progress with
      closed := progress.closed ++ [tabId]
      recorded := progress.recorded ++ [tabId] }
  | some tab =>
    match closeRefusal command tab with
    | some code => { progress with refused := progress.refused ++ [⟨tabId, code⟩] }
    | none =>
      { progress with
        workspace := closeTab runtime progress.workspace tab
        changed := true
        closed := progress.closed ++ [tabId]
        recorded := progress.recorded ++ if tab.isTerminal then [tab.entityId] else []
        stopPtyIds := progress.stopPtyIds ++ boundPtyIds progress.workspace tab }

def closeReasonText : CloseReason → String
  | .user => "user"
  | .cleanup => "cleanup"

def recordClosedTerminalTabs (workspace : WorkspaceLayout P) (tabIds : List String)
    (record : LayoutClosedTab) : WorkspaceLayout P :=
  { workspace with
    closedTerminalTabs := some (tabIds.foldl (fun closed tabId => closed.set tabId record)
      (workspace.closedTerminalTabs.getD ∅)) }

def closeTabs (runtime : LayoutRuntime P) (edit : LayoutEdit P) (workspace : WorkspaceLayout P)
    (command : CloseTabs) (now : ℤ) : Applied P :=
  let progress := command.tabIds.foldl (closeStep runtime command) { workspace }
  let next :=
    match command.recordClose with
    | some reason =>
      if progress.recorded = [] then none
      else some (recordClosedTerminalTabs progress.workspace progress.recorded
        ⟨now, some (closeReasonText reason)⟩)
    | none => none
  let edit :=
    match next with
    | some recorded => withWorkspace edit command.workspace recorded
    | none =>
      if progress.changed then withWorkspace edit command.workspace progress.workspace
      else edit
  applied edit { closed := some progress.closed, refused := some progress.refused }
    { stopPtyIds := progress.stopPtyIds }

/-! ## Names and marks -/

def renameTab (edit : LayoutEdit P) (workspace : WorkspaceLayout P) (workspaceKey tabId : String)
    (title : TabTitle P) : Applied P :=
  match findTab workspace tabId with
  | none => refuse .tabNotFound
  | some tab =>
    match title with
    | .aiVault title =>
      updateTab edit workspaceKey workspace
        (tab.mapFields fun fields => { fields with aiVaultTitle := some title })
    | .custom title expected =>
      let asExpected := expected.all fun expected =>
        tab.contentKind = some .agentSession && tab.entityId = expected.entityId &&
          edit.model.hostId = expected.executionHostId &&
          tab.fields.customTitle = some expected.customTitle
      if !asExpected then refuse .tabNotFound
      else
        updateTab edit workspaceKey workspace
          (tab.mapFields fun fields => { fields with customTitle := title })
    | .generated title replaceExisting =>
      -- A later prompt of the agent does not rename the tab.
      if trim (tab.fields.generatedTitle.join.getD "") ≠ "" && !replaceExisting then
        refuse .generatedTitleKept
      else
        updateTab edit workspaceKey workspace
          (tab.mapFields fun fields => { fields with generatedTitle := some title })

def withProps (tab : LayoutTab P) (command : SetTabProps) : LayoutTab P :=
  let next := tab.mapFields fun fields =>
    { fields with
      color := command.color.getD fields.color
      isPinned := command.isPinned.or fields.isPinned
      viewMode := command.viewMode.or fields.viewMode }
  match next with
  | .terminal terminal =>
    if command.clearLaunchAgent then
      .terminal { terminal with terminal := { terminal.terminal with launchAgent := none } }
    else .terminal terminal
  | .content content => .content content

def setTabProps (edit : LayoutEdit P) (workspace : WorkspaceLayout P) (command : SetTabProps) :
    Applied P :=
  match findTab workspace command.tabId with
  | none => refuse .tabNotFound
  | some tab =>
    if command.clearLaunchAgent && !tab.isTerminal then refuse .invalidParams
    else
      let updated := replaceTab workspace (withProps tab command)
      let groups :=
        if command.isPinned.any (· ≠ tab.isPinned) then
          -- Pinning moves the tab to the edge of the pinned run.
          updated.groups.map fun group =>
            if tab.id ∈ group.tabOrder then
              { group with
                tabOrder := partitionPinnedTabOrder group.tabOrder updated.tabs tab.id }
            else group
        else updated.groups
      applied (withWorkspace edit command.workspace { updated with groups })

def setChatPane (edit : LayoutEdit P) (workspace : WorkspaceLayout P)
    (workspaceKey tabId : String) (leafId : Option String) : Applied P :=
  match findTerminal workspace tabId with
  | none => refuse .tabNotFound
  | some tab =>
    if !leafId.all (layoutContainsLeafId tab.panes.root) then refuse .paneNotFound
    else
      updateTab edit workspaceKey workspace
        (.terminal { tab with panes := { tab.panes with chatLeafId := leafId } })

def promotedTab (tab : LayoutTab P) : LayoutTab P :=
  tab.mapFields fun fields => { fields with isPreview := none }

def promotePreviewTab (edit : LayoutEdit P) (workspace : WorkspaceLayout P)
    (workspaceKey tabId : String) : Applied P :=
  match findTab workspace tabId with
  | none => refuse .tabNotFound
  | some tab => updateTab edit workspaceKey workspace (promotedTab tab)

/-! ## Content tabs -/

def canReplacePreviewContentType (incoming existing : LayoutTab P) : Bool :=
  if isEditorKind incoming then isEditorKind existing
  else existing.contentKind = incoming.contentKind

def contentGroup (workspace : WorkspaceLayout P) (groupId : Option String) : Option LayoutGroup :=
  (groupId.bind (findGroup workspace)).or workspace.groups.head?

def replacedPreview (workspace : WorkspaceLayout P) (group : Option LayoutGroup)
    (tab : LayoutTab P) : Option (LayoutTab P) :=
  if tab.isPreview then
    workspace.tabs.find? fun entry =>
      entry.isPreview && group.any (entry.id ∈ ·.tabOrder) && canReplacePreviewContentType tab entry
  else none

structure PlacedContent (P : Type) where
  edit : LayoutEdit P
  refused : List RefusedClose := []

/-- Places the tab before its preview closes, so that the group survives. -/
def placeContentTab (runtime : LayoutRuntime P) (edit : LayoutEdit P) (key : String)
    (tab : LayoutTab P) (placement : TabPlacement) (dirtyTabIds : List String)
    (context : LayoutContext) : PlacedContent P :=
  let workspace := workspaceOrEmpty edit key
  let group := contentGroup workspace placement.groupId
  let placed := placeNewTab runtime workspace key tab
    { placement with groupId := (group.map (·.id)).or placement.groupId } context
  match replacedPreview workspace group tab with
  | none => { edit := withWorkspace edit key placed }
  | some preview =>
    let progress := closeStep runtime { workspace := key, tabIds := [preview.id], dirtyTabIds }
      { workspace := placed } preview.id
    { edit := withWorkspace edit key progress.workspace, refused := progress.refused }

/-! ## Default tabs -/

def setDefaultTabsApplied (edit : LayoutEdit P) (workspaceKey : String) : LayoutEdit P :=
  let records := edit.model.records
  let marks := records.defaultTabsAppliedByWorkspace.getD ∅
  if workspaceKey ∈ marks then edit
  else
    { edit with
      model := { edit.model with
        records := { records with
          defaultTabsAppliedByWorkspace := some (marks.set workspaceKey ()) } } }

structure DefaultTabsProgress (P : Type) where
  edit : LayoutEdit P
  createdTabs : List CreatedTab := []
  startPaneKeys : List String := []

def defaultTabCommand (workspaceKey : String) (template : DefaultTerminalTab) :
    CreateTerminalTab :=
  { workspace := workspaceKey
    tabId := some template.tabId
    leafId := some template.leafId
    title := given template.title
    color := given template.color
    creation := template.creation }

def applyDefaultTab (runtime : LayoutRuntime P) (workspaceKey : String)
    (context : LayoutContext) (progress : DefaultTabsProgress P)
    (template : DefaultTerminalTab) : Except LayoutRefusalCode (DefaultTabsProgress P) := do
  let created ← createTerminalTab runtime progress.edit
    (defaultTabCommand workspaceKey template) context
  let paneKey := paneKeyOf template.tabId template.leafId
  return {
    edit := created.edit
    createdTabs := progress.createdTabs ++ [⟨template.tabId, template.leafId, paneKey⟩]
    startPaneKeys := progress.startPaneKeys ++ created.effects.startPaneKeys }

def applyDefaultTabs (runtime : LayoutRuntime P) (edit : LayoutEdit P) (workspaceKey : String)
    (tabs : List DefaultTerminalTab) (context : LayoutContext) : Applied P :=
  if workspaceKey ∈ edit.model.records.defaultTabsAppliedByWorkspace.getD ∅ then
    applied edit { createdTabs := some [] }
  else
    match tabs.foldlM (applyDefaultTab runtime workspaceKey context) { edit } with
    | .error code => refuse code
    | .ok progress =>
      applied (setDefaultTabsApplied progress.edit workspaceKey)
        { createdTabs := some progress.createdTabs }
        { startPaneKeys := progress.startPaneKeys }

end Wakii.TabCommands
