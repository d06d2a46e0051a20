import Wakii.Layout.TabCommands

/-!
# Commands on content tabs

Editor, browser, chat and emulator tabs: opening them, the records behind them,
moving editor tabs to the workspace that owns their file and following a file
that was renamed.
-/

namespace Wakii.ContentCommands

open OrderedCollections
open Wakii.CommandSteps Wakii.CommandTypes Wakii.EditorTabFiles Wakii.LayoutModel
open Wakii.TabCommands

variable {P : Type}

/-! ## Opening -/

/-- A workspace with no group takes the sender's. -/
def withSendersGroup (edit : LayoutEdit P) (key : String) (groupId : Option String) :
    LayoutEdit P :=
  let workspace := workspaceOrEmpty edit key
  match given groupId with
  | none => edit
  | some groupId =>
    if workspace.groups ≠ [] then edit
    else withWorkspace edit key { workspace with groups := [⟨groupId, []⟩] }

/-- What an open of a tab the sender drew comes to: the tab is held, or its id is
another tab's; none where a tab is to be made. -/
def drawnTabOpen (edit : LayoutEdit P) (key : String) (tabId : Option String)
    (sameContent : LayoutTab P → Bool) (refuseTaken : Bool) : Option (Applied P) :=
  match given tabId with
  | none => none
  | some tabId =>
    let drawn := (edit.workspace? key).bind (findTab · tabId)
    if drawn.any sameContent then some (applied edit { tabId := some tabId })
    else if refuseTaken && edit.workspaces.any (tabId ∈ ·.tabIds) then
      some (refuse .tabExists)
    else none

def isUnknownGroup (workspace : WorkspaceLayout P) (groupId : Option String) : Bool :=
  (given groupId).any fun groupId =>
    workspace.groups ≠ [] && (findGroup workspace groupId).isNone

def contentTab (kind : TabContentType) (id entityId : String) (createdAt : ℤ) :
    LayoutContentTab P where
  id
  entityId
  createdAt
  customTitle := none
  color := none
  kind

def withEditorFile (runtime : LayoutRuntime P) (edit : LayoutEdit P) (key : String)
    (file : Option (LayoutEditorFile P)) : LayoutEdit P :=
  match file, edit.workspace? key with
  | some file, some workspace =>
    let files := (workspace.editorFiles.getD []).filter fun entry =>
      !sameEditorFile runtime entry file
    withWorkspace edit key { workspace with editorFiles := some (files ++ [file]) }
  | _, _ => edit

def withEditorView (edit : LayoutEdit P) (key tabId : String) (view : Option P) : LayoutEdit P :=
  match view, edit.workspace? key with
  | some view, some workspace =>
    withWorkspace edit key
      { workspace with editorViews := some ((workspace.editorViews.getD ∅).set tabId view) }
  | _, _ => edit

def withEditorRecords (runtime : LayoutRuntime P) (edit : LayoutEdit P)
    (command : OpenEditorTab P) (tabId : String) : LayoutEdit P :=
  withEditorView (withEditorFile runtime edit command.workspace command.file)
    command.workspace tabId command.view

def openedFileId (runtime : LayoutRuntime P) (workspace : WorkspaceLayout P)
    (command : OpenEditorTab P) : Option String :=
  given (command.fileId.or (command.file.map (editorOpenFileId runtime workspace)))

def isFileTab (command : OpenEditorTab P) (fileId : String) (tab : LayoutTab P) : Bool :=
  tab.entityId = fileId && tab.contentKind = some command.contentType

def existingFileTab (target workspace : WorkspaceLayout P) (command : OpenEditorTab P)
    (fileId : String) : Option (LayoutTab P) :=
  let group := contentGroup target command.groupId
  workspace.tabs.find? fun tab =>
    isFileTab command fileId tab && group.any (tab.id ∈ ·.tabOrder)

def openEditorTab (runtime : LayoutRuntime P) (edit : LayoutEdit P) (command : OpenEditorTab P)
    (context : LayoutContext) : Applied P :=
  let key := command.workspace
  let workspace := workspaceOrEmpty edit key
  match openedFileId runtime workspace command with
  | none => refuse .invalidParams
  | some fileId =>
    match drawnTabOpen edit key command.tabId (isFileTab command fileId) true with
    | some (.error code) => refuse code
    | some (.ok drawn) =>
      applied (withEditorRecords runtime drawn.edit command (command.tabId.getD ""))
        drawn.result
    | none =>
      if isUnknownGroup workspace command.groupId then refuse .groupNotFound
      else
        let target := withSendersGroup edit key command.groupId
        match existingFileTab (workspaceOrEmpty target key) workspace command fileId with
        | some existing =>
          let pinned :=
            if existing.isPreview && !command.preview then
              match promotePreviewTab edit workspace key existing.id with
              | .ok promoted => promoted.edit
              | .error _ => edit
            else edit
          applied (withEditorRecords runtime pinned command existing.id)
            { tabId := some existing.id }
        | none =>
          let id := (given command.tabId).getD (context.mintId 0)
          let fields : LayoutContentTab P :=
            contentTab command.contentType id fileId (command.createdAt.getD context.now)
          let tab : LayoutTab P :=
            .content { fields with isPreview := if command.preview then some true else none }
          let placed := placeContentTab runtime target key tab
            ⟨command.groupId, none, command.index⟩ command.dirtyTabIds context.nextId
          applied (withEditorRecords runtime placed.edit command id)
            { tabId := some id, refused := some placed.refused }

def holdsBrowserPage (edit : LayoutEdit P) (pageId : String) : Bool :=
  edit.workspaces.any fun workspace => (workspace.browserTabs.getD []).any fun record =>
    (record.pageIds.getD []).contains pageId

/-- What a window's open under its own ids comes to; none where the ids are free. -/
def takenBrowserTabIds (edit : LayoutEdit P) (key tabId browserTabId pageId : String) :
    Option (Applied P) :=
  let own := workspaceOrEmpty edit key
  let record := (own.browserTabs.getD []).find? (·.id = browserTabId)
  if record.any (fun record => (record.pageIds.getD []).contains pageId) &&
      own.tabs.any (fun tab => tab.id = tabId && tab.entityId = browserTabId) then
    some (applied edit { tabId := some tabId, pageId := some pageId })
  else if edit.workspaces.any fun workspace => workspace.tabs.any fun tab =>
      [tab.id, tab.entityId].any fun id => id = tabId || id = browserTabId then
    some (refuse .tabExists)
  else if holdsBrowserPage edit pageId then some (refuse .pageExists)
  else none

/-- The ids of a browser open; those its sender does not give are minted. -/
structure BrowserTabIds where
  browserTabId : String
  tabId : String
  pageId : String
  context : LayoutContext

def browserTabIds (command : OpenBrowserTab) (context : LayoutContext) : BrowserTabIds :=
  let (browserTabId, context) :=
    match command.browserTabId.or command.pageId with
    | some id => (id, context)
    | none => (context.mintId 0, context.nextId)
  let (pageId, context) :=
    match command.pageId with
    | some id => (id, context)
    | none => (context.mintId 0, context.nextId)
  { browserTabId, tabId := command.tabId.getD browserTabId, pageId, context }

def openBrowserTab (runtime : LayoutRuntime P) (edit : LayoutEdit P) (command : OpenBrowserTab)
    (context : LayoutContext) : Applied P :=
  let key := command.workspace
  let ids := browserTabIds command context
  let taken :=
    (given command.browserTabId).bind fun _ =>
      takenBrowserTabIds edit key ids.tabId ids.browserTabId ids.pageId
  match taken with
  | some taken => taken
  | none =>
    let tab : LayoutContentTab P :=
      contentTab .browser ids.tabId ids.browserTabId (command.createdAt.getD context.now)
    let placed := placeContentTab runtime edit key (.content tab)
      ⟨command.groupId, command.afterTabId, command.index⟩ [] ids.context.nextId
    let workspace := workspaceOrEmpty placed.edit key
    let record : LayoutBrowserTab :=
      { id := ids.browserTabId
        sessionProfileId := some command.profileId
        sessionPartition := (given command.sessionPartition).map some
        pageIds := some [ids.pageId]
        createdAt := command.browserCreatedAt.getD tab.createdAt }
    applied (withWorkspace placed.edit key
        { workspace with browserTabs := some (workspace.browserTabs.getD [] ++ [record]) })
      { tabId := some tab.id, pageId := some ids.pageId }

def openAgentSessionTab (runtime : LayoutRuntime P) (edit : LayoutEdit P)
    (command : OpenAgentSessionTab) (context : LayoutContext) : Applied P :=
  let key := command.workspace
  if command.initial.any fun reason => !admitsInitialSurface edit.model key reason then
    applied edit
  else
    match drawnTabOpen edit key command.tabId
        (fun tab => tab.contentKind = some .agentSession && tab.entityId = command.sessionId)
        runtime.layoutOwnerIsMain with
    | some drawn => drawn
    | none =>
      let id := (given command.tabId).getD (context.mintId 0)
      let fields : LayoutContentTab P :=
        contentTab .agentSession id command.sessionId (command.createdAt.getD context.now)
      let tab := { fields with agentSessionAgent := some command.agent }
      let target := withSendersGroup edit key command.groupId
      applied (placeContentTab runtime target key (.content tab)
          ⟨command.groupId, command.afterTabId, command.index⟩ [] context.nextId).edit
        { tabId := some id }

def openSimulatorTab (runtime : LayoutRuntime P) (edit : LayoutEdit P)
    (command : OpenSimulatorTab) (context : LayoutContext) : Applied P :=
  let key := command.workspace
  match drawnTabOpen edit key (some command.tabId)
      (fun tab => tab.contentKind = some .simulator) true with
  | some drawn => drawn
  | none =>
    if isUnknownGroup (workspaceOrEmpty edit key) command.groupId then refuse .groupNotFound
    else
      let tab : LayoutContentTab P := contentTab .simulator command.tabId command.tabId
        (command.createdAt.getD context.now)
      let target := withSendersGroup edit key command.groupId
      applied (placeContentTab runtime target key (.content tab)
          ⟨command.groupId, command.afterTabId, command.index⟩ [] context).edit
        { tabId := some command.tabId }

/-! ## Browser records -/

/-- Changes the first record of an id; none as its new value refuses. -/
def withRecord (edit : LayoutEdit P) (workspace : WorkspaceLayout P)
    (workspaceKey browserTabId : String)
    (change : LayoutBrowserTab → Option LayoutBrowserTab) : Applied P :=
  let records := workspace.browserTabs.getD []
  match records.find? (·.id = browserTabId) with
  | none => refuse .tabNotFound
  | some record =>
    match change record with
    | none => refuse .pageExists
    | some next =>
      let index := records.findIdx (·.id = browserTabId)
      applied (withWorkspace edit workspaceKey
          { workspace with browserTabs := some (records.set index next) })
        { tabId := some browserTabId }

def withPageIds (edit : LayoutEdit P) (workspace : WorkspaceLayout P)
    (workspaceKey browserTabId : String)
    (change : List String → Option (List String)) : Applied P :=
  withRecord edit workspace workspaceKey browserTabId fun record =>
    (change (record.pageIds.getD [])).map fun pageIds => { record with pageIds := some pageIds }

def openBrowserPage (edit : LayoutEdit P) (workspace : WorkspaceLayout P)
    (workspaceKey browserTabId pageId : String) : Applied P :=
  withPageIds edit workspace workspaceKey browserTabId fun pageIds =>
    if pageIds.contains pageId then some pageIds
    else if holdsBrowserPage edit pageId then none
    else some (pageIds ++ [pageId])

def closeBrowserPage (edit : LayoutEdit P) (workspace : WorkspaceLayout P)
    (workspaceKey browserTabId pageId : String) : Applied P :=
  withPageIds edit workspace workspaceKey browserTabId fun pageIds =>
    some (pageIds.filter (· ≠ pageId))

def replaceBrowserPage (edit : LayoutEdit P) (workspace : WorkspaceLayout P)
    (workspaceKey browserTabId pageId newPageId : String) : Applied P :=
  withPageIds edit workspace workspaceKey browserTabId fun pageIds =>
    if pageIds.contains newPageId then some pageIds
    else if holdsBrowserPage edit newPageId then none
    else if pageIds.contains pageId then
      some (pageIds.map fun id => if id = pageId then newPageId else id)
    else some (pageIds ++ [newPageId])

def setBrowserTabProfile (edit : LayoutEdit P) (workspace : WorkspaceLayout P)
    (workspaceKey browserTabId : String) (profileId sessionPartition : Option String) :
    Applied P :=
  withRecord edit workspace workspaceKey browserTabId fun record =>
    some { record with
      sessionProfileId := some profileId
      sessionPartition := some sessionPartition }

/-! ## Moving editor tabs to another workspace -/

def shownFiles (runtime : LayoutRuntime P) (workspace : WorkspaceLayout P) (groupId : String) :
    OrderedMap (Option TabContentType × String) String :=
  if runtime.layoutOwnerIsMain then
    let order := ((findGroup workspace groupId).map (·.tabOrder)).getD []
    OrderedMap.ofPairs (((order.filterMap (findTab workspace)).filter isEditorKind).map
      fun tab => ((tab.contentKind, tab.entityId), tab.id))
  else ∅

structure PlannedMove (P : Type) where
  tab : LayoutTab P
  move : EditorTabMove P

structure MovePlan (P : Type) where
  shown : OrderedMap (Option TabContentType × String) String
  moves : List (PlannedMove P) := []
  folds : List (LayoutTab P) := []
  landed : String

def isHeldByOther (edit : LayoutEdit P) (fromKey tabId newTabId : String) : Bool :=
  edit.model.workspaces.pairs.any fun entry =>
    (if entry.1 = fromKey then entry.2.tabs.eraseP (·.id = tabId) else entry.2.tabs).any
      (·.id = newTabId)

def planMove (runtime : LayoutRuntime P) (edit : LayoutEdit P) (fromKey : String)
    (source : WorkspaceLayout P) (plan : MovePlan P) (move : EditorTabMove P) :
    Except LayoutRefusalCode (MovePlan P) :=
  match findTab source move.tabId with
  | none => .error .tabNotFound
  | some tab =>
    if !isEditorKind tab then .error .invalidParams
    else
      let shownKey := (tab.contentKind, move.newEntityId)
      match plan.shown.lookup shownKey with
      | some kept => .ok { plan with folds := plan.folds ++ [tab], landed := kept }
      | none =>
        if isHeldByOther edit fromKey move.tabId move.newTabId then .error .tabExists
        else
          .ok {
            shown :=
              if runtime.layoutOwnerIsMain then plan.shown.set shownKey move.newTabId
              else plan.shown
            moves := plan.moves ++ [⟨tab, move⟩]
            folds := plan.folds
            landed := move.newTabId }

def withoutTab (workspace : WorkspaceLayout P) (tabId : String) : WorkspaceLayout P :=
  let removed := removeTabFromWorkspace workspace tabId
  { removed with editorViews := removed.editorViews.map (·.erase tabId) }

structure MoveEnds (P : Type) where
  source : WorkspaceLayout P
  target : WorkspaceLayout P

def movedTab (planned : PlannedMove P) : LayoutTab P :=
  planned.tab.mapFields fun fields =>
    { fields with id := planned.move.newTabId, entityId := planned.move.newEntityId }

def moveStep (runtime : LayoutRuntime P) (toKey groupId : String) (context : LayoutContext)
    (ends : MoveEnds P) (planned : PlannedMove P) : MoveEnds P :=
  let view := planned.move.view.or
    (ends.source.editorViews.bind (·.lookup planned.tab.id))
  let index : ℤ := (((findGroup ends.target groupId).map (·.tabOrder)).getD []).length
  let target := placeNewTab runtime ends.target toKey (movedTab planned)
    { groupId := some groupId, index := some index } context
  { source := withoutTab ends.source planned.tab.id
    target :=
      match view with
      | none => target
      | some view =>
        { target with
          editorViews := some ((target.editorViews.getD ∅).set planned.move.newTabId view) } }

def moveEditorFile (runtime : LayoutRuntime P) (ends : MoveEnds P)
    (file : Option (LayoutEditorFile P)) : MoveEnds P :=
  match file with
  | none => ends
  | some file =>
    let others (files : Option (List (LayoutEditorFile P))) :=
      files.map fun files => files.filter fun entry => !sameEditorFile runtime entry file
    { source := { ends.source with editorFiles := others ends.source.editorFiles }
      target := { ends.target with
        editorFiles := some ((others ends.target.editorFiles).getD [] ++ [file]) } }

def moveTarget (target : WorkspaceLayout P) (groupId : String) :
    Except LayoutRefusalCode (WorkspaceLayout P) :=
  if (findGroup target groupId).isSome then .ok target
  else if target.groups ≠ [] then .error .groupNotFound
  else .ok { target with groups := [⟨groupId, []⟩] }

def moveTabToWorkspace (runtime : LayoutRuntime P) (edit : LayoutEdit P)
    (source : WorkspaceLayout P) (command : MoveTabToWorkspace P) (context : LayoutContext) :
    Except LayoutRefusalCode (LayoutApplied P) :=
  let fromKey := command.workspace
  let toKey := command.toWorkspace
  if fromKey = toKey || command.tabs = [] || !(command.tabs.map (·.tabId)).Nodup ||
      !(command.tabs.map (·.newTabId)).Nodup then
    refuse .invalidParams
  else do
    let target := workspaceOrEmpty edit toKey
    let plan ← command.tabs.foldlM (planMove runtime edit fromKey source)
      { shown := shownFiles runtime target command.groupId, landed := command.groupId }
    let target ← moveTarget target command.groupId
    let source := plan.folds.foldl (fun source tab => withoutTab source tab.id) source
    let moved := plan.moves.foldl (moveStep runtime toKey command.groupId context)
      { source, target }
    let ends := moveEditorFile runtime moved command.file
    applied (withWorkspace (withWorkspace edit fromKey ends.source) toKey ends.target)
      { tabId := some plan.landed, groupId := some command.groupId }

/-! ## Following renamed files -/

def renamedId (ids : OrderedMap String String) (id : String) : String :=
  (ids.lookup id).getD id

/-- Each renamed record in its old record's place; a new one only for a tab that
is held. -/
def renamedEditorFiles (files : Option (List (LayoutEditorFile P)))
    (renames : List (EditorFileRename P)) (heldEntityIds : List String) :
    Option (List (LayoutEditorFile P)) :=
  let moves := renames.filterMap fun rename =>
    rename.record.map fun record => (rename.newFileId, record)
  let byOldPath := OrderedMap.ofPairs (moves.map fun move => (move.2.fromFilePath, move.2.file))
  let kept := (files.getD []).map fun file => (byOldPath.lookup file.filePath).getD file
  let missing := moves.filter fun move =>
    heldEntityIds.contains move.1 && !(files.getD []).any (·.filePath = move.2.fromFilePath)
  if moves.isEmpty || (files.isNone && missing.isEmpty) then files
  else some (kept ++ missing.map (·.2.file))

def renamedTabIdsOf (workspace : WorkspaceLayout P) (ids : OrderedMap String String) :
    OrderedMap String String :=
  OrderedMap.ofPairs (((workspace.tabs.filter isEditorKind).filter fun tab =>
    renamedId ids tab.id ≠ tab.id).map fun tab => (tab.id, renamedId ids tab.id))

def renamedTab (ids tabIds : OrderedMap String String) (tab : LayoutTab P) : LayoutTab P :=
  if isEditorKind tab && (tab.entityId ∈ ids || tab.id ∈ tabIds) then
    tab.mapFields fun fields =>
      { fields with id := renamedId tabIds fields.id, entityId := renamedId ids fields.entityId }
  else tab

def renamedViews (tabs : List (LayoutTab P)) (renames : List (EditorFileRename P))
    (tabIds : OrderedMap String String) (views : OrderedMap String P) : OrderedMap String P :=
  let sent := OrderedMap.ofPairs (renames.filterMap fun rename =>
    rename.view.map fun view => (rename.newFileId, view))
  let entityOf := OrderedMap.ofPairs (tabs.map fun tab => (tab.id, tab.entityId))
  OrderedMap.ofPairs (views.pairs.map fun entry =>
    let id := renamedId tabIds entry.1
    (id, (sent.lookup ((entityOf.lookup id).getD "")).getD entry.2))

structure RenamedWorkspace (P : Type) where
  workspace : WorkspaceLayout P
  renamedTabIds : OrderedMap String String

def renameInWorkspace (edit : LayoutEdit P) (workspace : WorkspaceLayout P)
    (renames : List (EditorFileRename P)) :
    Except LayoutRefusalCode (RenamedWorkspace P) :=
  let ids := OrderedMap.ofPairs (renames.map fun rename => (rename.fileId, rename.newFileId))
  let targets := renames.map (·.newFileId)
  if !(renames.map (·.fileId)).Nodup || !targets.Nodup then .error .invalidParams
  else if (workspace.tabs.filter isEditorKind).any fun tab =>
      targets.contains tab.entityId && tab.entityId ∉ ids then
    .error .invalidParams
  else
    let tabIds := renamedTabIdsOf workspace ids
    if edit.workspaces.any fun other => other.tabIds.any fun tabId =>
        tabIds.values.contains tabId && tabId ∉ tabIds then
      .error .tabExists
    else
      let tabs := workspace.tabs.map (renamedTab ids tabIds)
      .ok {
        workspace := { workspace with
          tabs
          groups := workspace.groups.map fun group =>
            { group with tabOrder := group.tabOrder.map (renamedId tabIds) }
          editorViews := workspace.editorViews.map (renamedViews tabs renames tabIds)
          editorFiles := renamedEditorFiles workspace.editorFiles renames
            (tabs.map (·.entityId)) }
        renamedTabIds := tabIds }

structure RenameProgress (P : Type) where
  edit : LayoutEdit P
  renamedTabIds : OrderedMap String String := ∅

def renamePart (progress : RenameProgress P) (part : WorkspaceRenames P) :
    Except LayoutRefusalCode (RenameProgress P) :=
  match progress.edit.workspace? part.workspace with
  | none => .error .workspaceNotFound
  | some workspace => do
    let step ← renameInWorkspace progress.edit workspace part.renames
    return {
      edit := withWorkspace progress.edit part.workspace step.workspace
      renamedTabIds := step.renamedTabIds.pairs.foldl
        (fun renamed entry => renamed.set entry.1 entry.2) progress.renamedTabIds }

def renameEditorFiles (edit : LayoutEdit P) (workspaceKey : String)
    (renames : List (EditorFileRename P)) (alsoIn : List (WorkspaceRenames P)) :
    Except LayoutRefusalCode (LayoutApplied P) :=
  let parts := ⟨workspaceKey, renames⟩ :: alsoIn
  if !(parts.map (·.workspace)).Nodup then refuse .invalidParams
  else do
    let progress ← parts.foldlM renamePart { edit }
    applied progress.edit { renamedTabIds := some progress.renamedTabIds }

end Wakii.ContentCommands
