import Wakii.Layout.LoadTypes
import Wakii.Layout.RetiringGroupLayout
import Wakii.Layout.RetiringPanes
import Wakii.Layout.Transitions

/-!
# Retiring the panes that ended

An older build's tombstones name panes that ended.  They retire one at a time,
the model rebuilt after each; a load retires them over one index of the model,
which is rebuilt once.
-/

namespace Wakii.LayoutLoad

open OrderedCollections
open Wakii.CommandSteps Wakii.LayoutCommands Wakii.LayoutModel Wakii.Transitions

variable {P : Type}

namespace SurfaceTombstone

def surface (tombstone : SurfaceTombstone) : ExitedSurface where
  worktreeId := tombstone.worktreeId
  terminalTabId := tombstone.parentTabId
  leafId := tombstone.leafId
  ptyId := tombstone.ptyId
  incarnationId := some tombstone.incarnationId

def paneKey (tombstone : SurfaceTombstone) : String :=
  paneKeyOf tombstone.parentTabId tombstone.leafId

end SurfaceTombstone

def WorkspaceSessionState.tombstones (session : WorkspaceSessionState P) : List SurfaceTombstone :=
  session.terminalSurfaceTombstonesByPaneKey.values

/-! ## One at a time -/

/-- None where another terminal has the pane by now. -/
def retireExitedSurface (edit : LayoutEdit P) (surface : ExitedSurface) : Option (LayoutEdit P) :=
  match locateExitedSurface edit.model surface with
  | .gone => some edit
  | .replaced => none
  | .found location => some (retireTerminalPane edit location surface.leafId)

/-- A layout under edit with the incarnations of panes that were not loaded. -/
abbrev Retiring (P : Type) := LayoutEdit P × OrderedMap String String

/-- Where the pane is gone already, only a record may name it. -/
def applyTombstone (state : Retiring P) (tombstone : SurfaceTombstone) : Retiring P :=
  let retired := retireExitedSurface state.1 tombstone.surface
  (retired.getD state.1,
    if retired.any (·.written = state.1.written) then state.2.erase tombstone.paneKey
    else state.2)

def applyLegacySurfaceTombstones (model : WorkspaceLayoutModel P)
    (session : WorkspaceSessionState P) (unplacedIncarnations : OrderedMap String String) :
    WorkspaceLayoutModel P × OrderedMap String String :=
  let tombstones := session.tombstones
  let (next, incarnations) := tombstones.foldl applyTombstone ({ model }, unplacedIncarnations)
  (updateLegacyPersistence model next (tombstones.map (·.worktreeId)), incarnations)

/-! ## A workspace that loses panes -/

structure GroupState where
  original : LayoutGroup
  /-- The listings of tabs that were not closed. -/
  remaining : ℤ
  removed : List String

structure Cohort (P : Type) where
  dead : Bool := false
  /-- The tab they all become once one of them lost a pane. -/
  template : Option (LayoutTerminalTab P) := none
  panes : Option (RetiringPanes P) := none
  chatRemoved : Bool := false

structure TerminalSlot (P : Type) where
  workspaceKey : String
  tab : LayoutTerminalTab P
  panes : Option (RetiringPanes P) := none

structure RetiringWorkspace (P : Type) where
  original : WorkspaceLayout P
  cohorts : OrderedMap String (Cohort P)
  changed : Bool := false
  closed : Bool := false
  leaves : Option (OrderedMap String (LayoutLeaf P))
  groups : Option (List GroupState) := none
  groupLayout : Option (RetiringGroupLayout P) := none

def groupStates (groups : List LayoutGroup) : List GroupState :=
  groups.map fun original => { original, remaining := original.tabOrder.length, removed := [] }

/-- Takes a tab off a group at one of its listings; a group that lists no other
leaves the tree. -/
def leaveGroup (root : Option (TabGroupLayoutNode P)) (tabId : String)
    (state : GroupState × Option (RetiringGroupLayout P)) :
    GroupState × Option (RetiringGroupLayout P) :=
  let group := { state.1 with
    removed := state.1.removed.insert tabId
    remaining := state.1.remaining - 1 }
  match root with
  | none => (group, state.2)
  | some root =>
    if group.remaining = 0 then
      (group, some ((state.2.getD (.new root)).remove group.original.id))
    else (group, state.2)

/-- A tab is a member of each group once for each listing. -/
def leaveGroups (root : Option (TabGroupLayoutNode P)) (tabId : String) :
    List GroupState → Option (RetiringGroupLayout P) →
      List GroupState × Option (RetiringGroupLayout P)
  | [], layout => ([], layout)
  | group :: groups, layout =>
    let (group, layout) := (group.original.tabOrder.filter (· = tabId)).foldl
      (fun state _ => leaveGroup root tabId state) (group, layout)
    let (groups, layout) := leaveGroups root tabId groups layout
    (group :: groups, layout)

def Cohort.currentTab (cohort : Cohort P) (tab : LayoutTerminalTab P) : LayoutTerminalTab P :=
  match cohort.template with
  | none => tab
  | some template =>
    let panes := { template.panes with root := cohort.panes.bind (·.materialize) }
    { template with
      panes := if cohort.chatRemoved then { panes with chatLeafId := none } else panes }

def Cohort.shownTab (cohort : Cohort P) : LayoutTab P → Option (LayoutTab P)
  | tab =>
    if cohort.dead then none
    else
      match cohort.template with
      | none => some tab
      | some template => some (.terminal (cohort.currentTab template))

def GroupState.shown (state : GroupState) : Option LayoutGroup :=
  if state.removed = [] then some state.original
  else if state.remaining = 0 then none
  else
    some { state.original with
      tabOrder := state.original.tabOrder.filter (· ∉ state.removed) }

namespace RetiringWorkspace

def new (original : WorkspaceLayout P) : RetiringWorkspace P where
  original
  leaves := original.leaves
  cohorts := original.tabs.foldl (fun cohorts tab =>
    if tab.id ∈ cohorts then cohorts else cohorts.set tab.id {}) ∅

def cohort (workspace : RetiringWorkspace P) (tabId : String) : Cohort P :=
  (workspace.cohorts.lookup tabId).getD {}

def setCohort (workspace : RetiringWorkspace P) (tabId : String) (cohort : Cohort P) :
    RetiringWorkspace P :=
  { workspace with cohorts := workspace.cohorts.set tabId cohort }

def leaf (workspace : RetiringWorkspace P) (leafId : String) : LayoutLeaf P :=
  (workspace.leaves.bind (·.lookup leafId)).getD {}

def states (workspace : RetiringWorkspace P) : List GroupState :=
  workspace.groups.getD (groupStates workspace.original.groups)

def close (workspace : RetiringWorkspace P) (tabId : String) : RetiringWorkspace P :=
  let (groups, groupLayout) :=
    leaveGroups workspace.original.groupLayout tabId workspace.states workspace.groupLayout
  { workspace with closed := true, groups := some groups, groupLayout }

def retire (workspace : RetiringWorkspace P) (tab : LayoutTerminalTab P)
    (panes : RetiringPanes P) (leafId : String) : RetiringWorkspace P :=
  let cohort := workspace.cohort tab.id
  let (empty, panes) := panes.remove leafId
  let workspace : RetiringWorkspace P := { workspace with
    changed := true
    leaves := workspace.leaves.map (·.erase leafId) }
  if empty then (workspace.setCohort tab.id { cohort with dead := true }).close tab.id
  else
    let template := cohort.template.getD tab
    workspace.setCohort tab.id { cohort with
      template := some template
      panes := some panes
      chatRemoved := cohort.chatRemoved || template.panes.chatLeafId = some leafId }

def materialize (workspace : RetiringWorkspace P) : WorkspaceLayout P :=
  let original := workspace.original
  if !workspace.changed then original
  else
    let next := { original with
      tabs := original.tabs.filterMap fun tab => (workspace.cohort tab.id).shownTab tab
      leaves := workspace.leaves }
    if !workspace.closed then next
    else
      { next with
        groups := workspace.states.filterMap GroupState.shown
        groupLayout :=
          match workspace.groupLayout with
          | some layout => layout.materialize
          | none => original.groupLayout }

end RetiringWorkspace

/-! ## All of them over one index -/

/-- The terminal tabs of one row id in order; those before the cursor are gone. -/
structure TerminalEntity (P : Type) where
  slots : List (TerminalSlot P) := []
  cursor : ℕ := 0

structure Retirement (P : Type) where
  workspaces : OrderedMap String (RetiringWorkspace P)
  entities : OrderedMap String (TerminalEntity P)
  incarnations : OrderedMap String String

def tabPlaces (model : WorkspaceLayoutModel P) : List (String × LayoutTab P) :=
  model.workspaces.pairs.flatMap fun entry => entry.2.tabs.map fun tab => (entry.1, tab)

def terminalPlace (place : String × LayoutTab P) : Option (String × LayoutTerminalTab P) :=
  (asTerminal place.2).map fun tab => (place.1, tab)

def addSlot (entities : OrderedMap String (TerminalEntity P))
    (place : String × LayoutTerminalTab P) : OrderedMap String (TerminalEntity P) :=
  let entity := (entities.lookup place.2.entityId).getD {}
  entities.set place.2.entityId
    { entity with slots := entity.slots ++ [{ workspaceKey := place.1, tab := place.2 }] }

namespace Retirement

def new (model : WorkspaceLayoutModel P) (incarnations : OrderedMap String String) :
    Retirement P where
  workspaces := model.workspaces.mapValues fun _ => RetiringWorkspace.new
  entities := ((tabPlaces model).filterMap terminalPlace).foldl addSlot ∅
  incarnations

def cohortOf (state : Retirement P) (key tabId : String) : Cohort P :=
  ((state.workspaces.lookup key).map (·.cohort tabId)).getD {}

def leafOf (state : Retirement P) (key leafId : String) : LayoutLeaf P :=
  ((state.workspaces.lookup key).map (·.leaf leafId)).getD {}

def modifyWorkspace (state : Retirement P) (key : String)
    (change : RetiringWorkspace P → RetiringWorkspace P) : Retirement P :=
  match state.workspaces.lookup key with
  | none => state
  | some workspace => { state with workspaces := state.workspaces.set key (change workspace) }

def setEntity (state : Retirement P) (entityId : String) (entity : TerminalEntity P) :
    Retirement P :=
  { state with entities := state.entities.set entityId entity }

/-- A slot shows its row as long as its cohort stands, as itself or as a tab of the same row. -/
def admits (state : Retirement P) (entityId : String) (slot : TerminalSlot P) : Bool :=
  let cohort := state.cohortOf slot.workspaceKey slot.tab.id
  !cohort.dead && cohort.template.all (·.entityId = entityId)

def advance (state : Retirement P) (entityId : String) (entity : TerminalEntity P) :
    TerminalEntity P :=
  { entity with
    cursor := entity.cursor + (entity.slots.drop entity.cursor).findIdx (state.admits entityId) }

def panesOf (state : Retirement P) (slot : TerminalSlot P) : RetiringPanes P :=
  let cohort := state.cohortOf slot.workspaceKey slot.tab.id
  (cohort.panes.or slot.panes).getD (.new (cohort.template.getD slot.tab).panes.root)

def keepPanes (state : Retirement P) (entityId : String) (entity : TerminalEntity P)
    (slot : TerminalSlot P) (panes : RetiringPanes P) : Retirement P :=
  if (state.cohortOf slot.workspaceKey slot.tab.id).panes.isSome then
    state.modifyWorkspace slot.workspaceKey fun workspace =>
      workspace.setCohort slot.tab.id
        { workspace.cohort slot.tab.id with panes := some panes }
  else
    state.setEntity entityId
      { entity with slots := entity.slots.set entity.cursor { slot with panes := some panes } }

def forget (state : Retirement P) (tombstone : SurfaceTombstone) : Retirement P :=
  { state with incarnations := state.incarnations.erase tombstone.paneKey }

def isReplaced (leaf : LayoutLeaf P) (surface : ExitedSurface) : Bool :=
  ((given surface.incarnationId).any fun incarnationId =>
    (given leaf.incarnationId).any (· ≠ incarnationId)) ||
      (given leaf.ptyId).any (· ≠ surface.ptyId)

def retireSlot (state : Retirement P) (tombstone : SurfaceTombstone)
    (entity : TerminalEntity P) (slot : TerminalSlot P) : Retirement P :=
  let (found, panes) := (state.panesOf slot).contains tombstone.leafId
  let kept := state.keepPanes tombstone.parentTabId entity slot panes
  if !found then kept.forget tombstone
  else if isReplaced (kept.leafOf slot.workspaceKey tombstone.leafId) tombstone.surface then kept
  else
    kept.modifyWorkspace slot.workspaceKey fun workspace =>
      workspace.retire slot.tab panes tombstone.leafId

def retireSurface (state : Retirement P) (tombstone : SurfaceTombstone) : Retirement P :=
  match state.entities.lookup tombstone.parentTabId with
  | none => state.forget tombstone
  | some entity =>
    let entity := state.advance tombstone.parentTabId entity
    let state := state.setEntity tombstone.parentTabId entity
    match entity.slots[entity.cursor]? with
    | none => state.forget tombstone
    | some slot => state.retireSlot tombstone entity slot

def written (state : Retirement P) (model : WorkspaceLayoutModel P) : LayoutEdit P :=
  state.workspaces.pairs.foldl
    (fun next entry =>
      if entry.2.changed then withWorkspace next entry.1 entry.2.materialize else next) { model }

end Retirement

def retireLoadedLegacySurfaces (model : WorkspaceLayoutModel P)
    (session : WorkspaceSessionState P) (unplacedIncarnations : OrderedMap String String) :
    WorkspaceLayoutModel P × OrderedMap String String :=
  let tombstones := session.tombstones
  if tombstones = [] then (updateLegacyPersistence model { model } [], unplacedIncarnations)
  else
    let state := tombstones.foldl Retirement.retireSurface (.new model unplacedIncarnations)
    (updateLegacyPersistence model (state.written model) (tombstones.map (·.worktreeId)),
      state.incarnations)

end Wakii.LayoutLoad
