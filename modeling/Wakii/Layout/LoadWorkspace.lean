import Wakii.Layout.LoadTabs

/-!
# One workspace of a stored session

Its tabs, the groups that order them, the tree of the groups, and the records of
its editor files, browser tabs and views.
-/

namespace Wakii.LayoutLoad

open List OrderedCollections SplitTrees
open Wakii.CommandSteps Wakii.EditorTabFiles Wakii.LayoutModel Wakii.OwnedEditorFile
  Wakii.PtyOwnership
open Wakii.TerminalOwners

variable {P : Type}

/-! ## The worktree -/

def namedWorktreeIds (session : WorkspaceSessionState P) (key : String) : List String :=
  (session.rows key).map (·.worktreeId) ++ (session.entries key).map (·.worktreeId) ++
    (session.groups key).map (·.worktreeId) ++ (session.openFiles key).map (·.worktreeId) ++
    (session.browserTabs key).map (·.worktreeId)

def countIds (ids : List String) : OrderedMap String ℕ :=
  ids.foldl (fun counts id => counts.set id ((counts.lookup id).getD 0 + 1)) ∅

def resolveWorktreeId (session : WorkspaceSessionState P) (key : String) : String :=
  ((countIds (namedWorktreeIds session key)).pairs.foldl
    (fun (best : String × ℕ) candidate => if candidate.2 > best.2 then candidate else best)
    (key, 0)).1

/-! ## The group tree -/

def pruneGroupLayout (layout : Option (TabGroupLayoutNode P)) (validGroupIds : List String) :
    Option (TabGroupLayoutNode P) :=
  layout.bind (·.prune (· ∈ validGroupIds))

theorem leavesOf_pruneGroupLayout (layout : Option (TabGroupLayoutNode P))
    (validGroupIds : List String) :
    SplitTree.leavesOf (pruneGroupLayout layout validGroupIds) =
      (SplitTree.leavesOf layout).filter (· ∈ validGroupIds) := by
  cases layout with
  | none => rfl
  | some tree => exact SplitTree.leavesOf_prune _ tree

/-! ## Files and views -/

def editorTabNamesFile (args : WorkspaceLoadArgs P) (workspace : WorkspaceLayout P)
    (entityId : String) (file : LayoutEditorFile P) (place : ℕ) : Bool :=
  let runtime := args.runtime
  if runtime.layoutOwnerIsMain then
    (editorTabFiles runtime workspace entityId).head?.any fun shown =>
      let isShown (other : LayoutEditorFile P) : Bool :=
        other.filePath = shown.filePath && other.runtimeEnvironmentId = shown.runtimeEnvironmentId
      (workspace.editorFiles.getD []).findIdx? isShown = some place
  else editorTabShowsFile runtime entityId file workspace.worktreeId

def isDemoted (args : WorkspaceLoadArgs P) (workspace : WorkspaceLayout P)
    (files : List (PersistedOpenFile P)) (tab : LayoutTab P) : Bool :=
  tab.contentKind = some .editor && files.zipIdx.any fun (file : PersistedOpenFile P × ℕ) =>
    file.1.isPreview ≠ some true &&
      editorTabNamesFile args workspace tab.entityId file.1.toLayoutEditorFile file.2

/-- The file records and the tabs beside them, each preview flag that both share. -/
def loadEditorFiles (args : WorkspaceLoadArgs P) (workspace : WorkspaceLayout P) :
    WorkspaceLayout P :=
  match args.session.openFilesByWorktree.lookup args.key with
  | none => workspace
  | some files =>
    let shown := { workspace with
      editorFiles := some (files.map PersistedOpenFile.toLayoutEditorFile) }
    { shown with
      tabs := workspace.tabs.map fun tab =>
        if tab.isPreview && isDemoted args shown files tab then
          tab.mapFields fun fields => { fields with isPreview := none }
        else tab }

def loadBrowserTabs (args : WorkspaceLoadArgs P) (workspace : WorkspaceLayout P) :
    WorkspaceLayout P :=
  { workspace with
    browserTabs := (args.session.browserTabsByWorktree.lookup args.key).map
      (List.map BrowserWorkspace.toLayoutBrowserTab) }

/-- The scope of a check's run; a paired server is another than the host it runs on. -/
def checkRunDetailsOwnerScope (hostId : String) (runtimeEnvironmentId : Option String) :
    Option String :=
  let scope := match truthy (runtimeEnvironmentId.map trim) with
    | none => hostId
    | some runtimeId =>
      let runtimeHostId := "runtime:" ++ encodeURIComponent runtimeId
      if runtimeHostId ≠ hostId then hostId ++ ">" ++ runtimeHostId else hostId
  if scope = "local" then none else some scope

def scopedCheckId (args : WorkspaceLoadArgs P) (worktreeId : String) (view : P)
    (tab : LayoutTab P) : Option String := do
  let rest ← afterStart (worktreeId ++ "::check-details::") tab.entityId
  let entry := (args.session.entries args.key).find? (·.id = tab.id)
  let scope ← truthy (checkRunDetailsOwnerScope
    ((entry.bind (·.executionHostId)).getD args.hostId)
      (args.context.viewRuntimeEnvironmentId view))
  return worktreeId ++ "::check-details@" ++ scope ++ "::" ++ rest

def scopeCheckTab (args : WorkspaceLoadArgs P) (worktreeId : String)
    (state : List (LayoutTab P) × OrderedMap String P) (tab : LayoutTab P) :
    List (LayoutTab P) × OrderedMap String P :=
  let owned := if tab.contentKind ≠ some .checkDetails then none else do
    let view ← state.2.lookup tab.id
    let entityId ← scopedCheckId args worktreeId view tab
    return (view, entityId)
  match owned with
  | none => (state.1 ++ [tab], state.2)
  | some (view, entityId) =>
    (state.1 ++ [tab.mapFields fun fields => { fields with entityId }],
      state.2.set tab.id (args.context.viewWithFilePath view entityId))

def heldEditorViews (args : WorkspaceLoadArgs P) (tabs : List (LayoutTab P)) :
    Option (OrderedMap String P) := do
  let held ← (← args.context.editorViewsOf) args.key
  let views := OrderedMap.ofPairs (tabs.filterMap fun tab =>
    if tab.isTerminal then none else (held.lookup tab.id).map fun view => (tab.id, view))
  if views.keys = [] then none else some views

def loadEditorViews (args : WorkspaceLoadArgs P) (workspace : WorkspaceLayout P) :
    WorkspaceLayout P :=
  match heldEditorViews args workspace.tabs with
  | none => workspace
  | some views =>
    let shown := workspace.tabs.foldl (scopeCheckTab args workspace.worktreeId) ([], views)
    { workspace with tabs := shown.1, editorViews := some shown.2 }

/-! ## The workspace -/

def workspaceOf (args : WorkspaceLoadArgs P) (loaded : LoadedTabs P) : WorkspaceLayout P :=
  let groups := resolveGroupOrder (args.session.groups args.key) loaded.candidates
    (args.context.mintId (.rootGroup args.key))
  loadEditorViews args (loadBrowserTabs args (loadEditorFiles args
    { worktreeId := resolveWorktreeId args.session args.key
      tabs := loaded.tabs
      groups
      groupLayout := pruneGroupLayout (args.session.tabGroupLayouts.lookup args.key)
        (groups.map (·.id)) }))

/-- The workspace and, after those of earlier workspaces, its pane layouts and redirected rows. -/
def loadWorkspace (args : WorkspaceLoadArgs P) (layouts : OrderedMap String (PaneLayout P))
    (canonicalTabIdBySubsumedTabId : OrderedMap String String) :
    WorkspaceLayout P × LoadedTabs P :=
  let loaded := loadTabs args layouts canonicalTabIdBySubsumedTabId
  (workspaceOf args loaded, loaded)

/-! ## What files and views leave alone -/

section Frames

variable (args : WorkspaceLoadArgs P) (workspace : WorkspaceLayout P)

theorem groups_loadEditorFiles : (loadEditorFiles args workspace).groups = workspace.groups := by
  rw [loadEditorFiles]
  split <;> rfl

theorem groupLayout_loadEditorFiles :
    (loadEditorFiles args workspace).groupLayout = workspace.groupLayout := by
  rw [loadEditorFiles]
  split <;> rfl

theorem groups_loadEditorViews : (loadEditorViews args workspace).groups = workspace.groups := by
  rw [loadEditorViews]
  split <;> rfl

theorem groupLayout_loadEditorViews :
    (loadEditorViews args workspace).groupLayout = workspace.groupLayout := by
  rw [loadEditorViews]
  split <;> rfl

end Frames

def SameTabs (before after : List (LayoutTab P)) : Prop :=
  after.map (·.id) = before.map (·.id) ∧ after.filterMap asTerminal = before.filterMap asTerminal

theorem sameTabs_map {change : LayoutTab P → LayoutTab P} {tabs : List (LayoutTab P)}
    (hchange : ∀ tab ∈ tabs, (change tab).id = tab.id ∧ asTerminal (change tab) = asTerminal tab) :
    SameTabs tabs (tabs.map change) := by
  refine ⟨?_, ?_⟩
  · rw [map_map]
    exact map_congr_left fun tab htab => (hchange tab htab).1
  · rw [filterMap_map]
    exact filterMap_congr fun tab htab => (hchange tab htab).2

theorem asTerminal_mapFields {tab : LayoutTab P} {kind : TabContentType}
    (hkind : tab.contentKind = some kind) (change : LayoutTabFields P → LayoutTabFields P) :
    asTerminal (tab.mapFields change) = asTerminal tab := by
  cases tab with
  | terminal tab => cases hkind
  | content tab => rfl

theorem sameTabs_loadEditorFiles (args : WorkspaceLoadArgs P) (workspace : WorkspaceLayout P) :
    SameTabs workspace.tabs (loadEditorFiles args workspace).tabs := by
  rw [loadEditorFiles]
  cases args.session.openFilesByWorktree.lookup args.key with
  | none => exact ⟨rfl, rfl⟩
  | some files =>
    refine sameTabs_map fun tab _ => ?_
    split_ifs with hdemoted
    · rw [Bool.and_eq_true, isDemoted, Bool.and_eq_true, decide_eq_true_eq] at hdemoted
      refine ⟨?_, asTerminal_mapFields hdemoted.2.1 _⟩
      rw [LayoutTab.id, LayoutTab.fields_mapFields]
      rfl
    · exact ⟨rfl, rfl⟩

theorem sameTabs_scopeCheckTabs (args : WorkspaceLoadArgs P) (worktreeId : String)
    (views : OrderedMap String P) (tabs : List (LayoutTab P)) :
    SameTabs tabs (tabs.foldl (scopeCheckTab args worktreeId) ([], views)).1 := by
  induction tabs using List.reverseRecOn with
  | nil => exact ⟨rfl, rfl⟩
  | append_singleton tabs tab ih =>
    rw [foldl_append, foldl_cons, foldl_nil]
    generalize List.foldl _ (([] : List (LayoutTab P)), views) tabs = state at ih ⊢
    have hadd : ∀ next : LayoutTab P, next.id = tab.id →
        asTerminal next = asTerminal tab → SameTabs (tabs ++ [tab]) (state.1 ++ [next]) := by
      intro next hid hterminal
      refine ⟨?_, ?_⟩
      · rw [map_append, map_append, ih.1, map_singleton, map_singleton, hid]
      · rw [filterMap_append, filterMap_append, ih.2, filterMap_cons, filterMap_cons, hterminal]
    rw [scopeCheckTab]
    by_cases hkind : tab.contentKind = some .checkDetails
    · cases howned : (if tab.contentKind ≠ some TabContentType.checkDetails then none else do
          let view ← state.2.lookup tab.id
          let entityId ← scopedCheckId args worktreeId view tab
          return (view, entityId) : Option (P × String)) with
      | none =>
        dsimp only
        exact hadd tab rfl rfl
      | some owned =>
        dsimp only
        refine hadd _ ?_ (asTerminal_mapFields hkind _)
        rw [LayoutTab.id, LayoutTab.fields_mapFields]
        rfl
    · rw [if_pos hkind]
      exact hadd tab rfl rfl

theorem sameTabs_loadEditorViews (args : WorkspaceLoadArgs P) (workspace : WorkspaceLayout P) :
    SameTabs workspace.tabs (loadEditorViews args workspace).tabs := by
  rw [loadEditorViews]
  cases heldEditorViews args workspace.tabs with
  | none => exact ⟨rfl, rfl⟩
  | some views => exact sameTabs_scopeCheckTabs args workspace.worktreeId views workspace.tabs

variable (args : WorkspaceLoadArgs P) (loaded : LoadedTabs P)

theorem sameTabs_workspaceOf : SameTabs loaded.tabs (workspaceOf args loaded).tabs := by
  rw [workspaceOf]
  generalize hplain : ({ worktreeId := _, tabs := loaded.tabs, groups := _, groupLayout := _ } :
    WorkspaceLayout P) = plain
  have htabs : plain.tabs = loaded.tabs := by rw [← hplain]
  have hfiles := sameTabs_loadEditorFiles args plain
  have hviews := sameTabs_loadEditorViews args (loadBrowserTabs args (loadEditorFiles args plain))
  rw [htabs] at hfiles
  exact ⟨hviews.1.trans hfiles.1, hviews.2.trans hfiles.2⟩

theorem groups_workspaceOf : (workspaceOf args loaded).groups =
    resolveGroupOrder (args.session.groups args.key) loaded.candidates
      (args.context.mintId (.rootGroup args.key)) := by
  rw [workspaceOf, groups_loadEditorViews, loadBrowserTabs, groups_loadEditorFiles]

theorem groupLayout_workspaceOf : (workspaceOf args loaded).groupLayout =
    pruneGroupLayout (args.session.tabGroupLayouts.lookup args.key)
      (workspaceOf args loaded).groupIds := by
  rw [WorkspaceLayout.groupIds, groups_workspaceOf, workspaceOf, groupLayout_loadEditorViews,
    loadBrowserTabs, groupLayout_loadEditorFiles]

end Wakii.LayoutLoad
