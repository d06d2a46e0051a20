import Wakii.Layout.LoadTypes
import Wakii.Layout.PaneCommands

/-!
# The panes of a loaded layout

A stored pane id is known within its tab only, and a stored terminal may be
bound twice.  In the order of the tabs the first pane keeps a repeated id and
the first keeps a repeated terminal.
-/

namespace Wakii.LayoutLoad

open OrderedCollections
open Wakii.CommandSteps Wakii.LayoutModel Wakii.PaneCommands
open Wakii.TerminalOwners

variable {P : Type}

/-! ## The order of the panes -/

/-- The tabs the groups list; the last tab of an id counts. -/
def tabsInOrder (workspace : WorkspaceLayout P) : List (LayoutTab P) :=
  workspace.listed.filterMap fun tabId => workspace.tabs.reverse.find? (·.id = tabId)

def terminalTabsInOrder (model : WorkspaceLayoutModel P) : List (String × LayoutTerminalTab P) :=
  model.workspaces.pairs.flatMap fun entry =>
    ((tabsInOrder entry.2).filterMap asTerminal).map fun tab => (entry.1, tab)

/-! ## Repeated pane ids -/

structure Remint where
  seen : List String
  /-- A stored id → its first pane's id. -/
  renamed : OrderedMap String String := ∅
  position : ℕ := 0

def remintLeaf (context : WorkspaceLayoutLoadContext P) (tabId : String) (remint : Remint)
    (storedId : String) : String × Remint :=
  let leafId :=
    if storedId ∈ remint.seen then context.mintLeafId (.repeated tabId remint.position)
    else storedId
  (leafId, {
    seen := remint.seen ++ [leafId]
    renamed :=
      if storedId ∈ remint.renamed then remint.renamed else remint.renamed.set storedId leafId
    position := remint.position + 1 })

def remintTree (context : WorkspaceLayoutLoadContext P) (tabId : String) :
    TerminalPaneLayoutNode P → Remint → TerminalPaneLayoutNode P × Remint
  | .leaf storedId, remint =>
    let (leafId, remint) := remintLeaf context tabId remint storedId
    (.leaf leafId, remint)
  | .split data first second, remint =>
    let (first, remint) := remintTree context tabId first remint
    let (second, remint) := remintTree context tabId second remint
    (.split data first second, remint)

def remintRepeatedLeaves (context : WorkspaceLayoutLoadContext P) (tabId : String)
    (root : Option (TerminalPaneLayoutNode P)) (remint : Remint) :
    Option (TerminalPaneLayoutNode P) × Remint :=
  match root with
  | none => (none, remint)
  | some tree =>
    let (tree, remint) := remintTree context tabId tree remint
    (some tree, remint)

/-! ## The data of the panes -/

structure PaneRecords (P : Type) where
  sleeping : OrderedMap String (LayoutSleepingRecord P)
  incarnations : OrderedMap String String

def loadLeaf (stored : PaneLayout P) (leafId paneKey : String) (records : PaneRecords P) :
    LayoutLeaf P × PaneRecords P :=
  let record := records.sleeping.lookup paneKey
  ({ ptyId := stored.ptyIdsByLeafId.bind (·.lookup leafId)
     incarnationId := records.incarnations.lookup paneKey
     title := stored.titlesByLeafId.bind (·.lookup leafId)
     lastGrid := (stored.lastGridsByLeafId.bind (·.lookup leafId)).map fun grid => ⟨grid.1, grid.2⟩
     sleeping := record.filter isPaneSleepRecord
     resume := record.filter (!isPaneSleepRecord ·) },
    { sleeping := records.sleeping.erase paneKey
      incarnations := records.incarnations.erase paneKey })

/-- A reminted pane cannot retain a terminal started for its stored id. -/
def claimLeaf (context : WorkspaceLayoutLoadContext P) (storedId leafId : String)
    (leaf : LayoutLeaf P) : LayoutLeaf P :=
  if leafId ≠ storedId then { leaf with ptyId := none }
  else { leaf with ptyGeneration := context.ptyGenerationOf leafId }

def loadPane (context : WorkspaceLayoutLoadContext P) (stored : PaneLayout P) (tabId : String)
    (state : Option (OrderedMap String (LayoutLeaf P)) × PaneRecords P)
    (pane : String × String) : Option (OrderedMap String (LayoutLeaf P)) × PaneRecords P :=
  let (loaded, records) := loadLeaf stored pane.1 (paneKeyOf tabId pane.1) state.2
  let leaf := claimLeaf context pane.1 pane.2 loaded
  (if leaf.isEmpty then state.1 else some ((state.1.getD ∅).set pane.2 leaf), records)

def terminalOfRow (workspace : WorkspaceLayout P) (entityId : String) :
    Option (LayoutTerminalTab P) :=
  (workspace.tabs.filterMap asTerminal).find? (·.entityId = entityId)

def withPanes (entityId : String) (panes : LayoutTerminalPanes P) : LayoutTab P → LayoutTab P
  | .terminal tab => .terminal (if tab.entityId = entityId then { tab with panes } else tab)
  | .content tab => .content tab

structure LeafLoad (P : Type) where
  workspaces : OrderedMap String (WorkspaceLayout P)
  seen : List String := []
  records : PaneRecords P

/-- The panes of a terminal with their own ids, and what was reminted for them. -/
def remintTab (context : WorkspaceLayoutLoadContext P) (seen : List String)
    (tab : LayoutTerminalTab P) : LayoutTerminalPanes P × Remint :=
  let (root, remint) := remintRepeatedLeaves context tab.entityId tab.panes.root { seen }
  let chatLeafId := tab.panes.chatLeafId.map fun leafId =>
    (remint.renamed.lookup leafId).getD leafId
  ({ root, chatLeafId }, remint)

/-- A terminal, known by its workspace's key and its row, with its stored panes. -/
def locateStored (workspaces : OrderedMap String (WorkspaceLayout P))
    (layouts : OrderedMap String (PaneLayout P)) (place : String × String) :
    Option (WorkspaceLayout P × LayoutTerminalTab P × PaneLayout P) := do
  let workspace ← workspaces.lookup place.1
  let tab ← terminalOfRow workspace place.2
  let stored ← layouts.lookup place.2
  return (workspace, tab, stored)

def loadTabLeaves (context : WorkspaceLayoutLoadContext P)
    (layouts : OrderedMap String (PaneLayout P)) (state : LeafLoad P) (place : String × String) :
    LeafLoad P :=
  match locateStored state.workspaces layouts place with
  | none => state
  | some (workspace, tab, stored) =>
    let (panes, remint) := remintTab context state.seen tab
    let (leaves, records) := remint.renamed.pairs.foldl (loadPane context stored place.2)
      (workspace.leaves, state.records)
    { workspaces := state.workspaces.set place.1 { workspace with
        tabs := workspace.tabs.map (withPanes place.2 panes)
        leaves }
      seen := remint.seen
      records }

def loadLeaves (context : WorkspaceLayoutLoadContext P) (session : WorkspaceSessionState P)
    (layouts : OrderedMap String (PaneLayout P)) (model : WorkspaceLayoutModel P) :
    WorkspaceLayoutModel P × PaneRecords P :=
  let places := (terminalTabsInOrder model).map fun place => (place.1, place.2.entityId)
  let state := places.foldl (loadTabLeaves context layouts) {
    workspaces := model.workspaces
    records := {
      sleeping := session.sleepingAgentSessionsByPaneKey
      incarnations := session.terminalPtyIncarnationsByPaneKey } }
  ({ model with workspaces := state.workspaces }, state.records)

/-! ## Repeated terminals -/

/-- The incarnations of one PTY id among the panes that keep theirs. -/
structure TerminalBucket where
  missing : Bool := false
  defined : List String := []

namespace TerminalBucket

def shows (bucket : TerminalBucket) (ptyId : String) (incarnation : Option String) : Bool :=
  incarnation.any (bucket.defined.contains ·) ||
    ((incarnation.isNone || bucket.missing) && !isRepeatingRelayPtyId ptyId)

def add (bucket : TerminalBucket) : Option String → TerminalBucket
  | none => { bucket with missing := true }
  | some incarnation => { bucket with defined := bucket.defined ++ [incarnation] }

end TerminalBucket

structure Unbinding (P : Type) where
  workspaces : OrderedMap String (WorkspaceLayout P)
  owners : OrderedMap String TerminalBucket := ∅

def unbindLeaf (workspace : WorkspaceLayout P) (leafId : String) : WorkspaceLayout P :=
  { workspace with
    leaves := workspace.leaves.map fun leaves =>
      match leaves.lookup leafId with
      | none => leaves
      | some leaf => leaves.set leafId { leaf with ptyId := none } }

def locateBound (workspaces : OrderedMap String (WorkspaceLayout P)) (pane : String × String) :
    Option (WorkspaceLayout P × LayoutLeaf P × String) := do
  let workspace ← workspaces.lookup pane.1
  let leaf ← workspace.leaf? pane.2
  let ptyId ← leaf.ptyId
  return (workspace, leaf, ptyId)

def unbindDuplicate (state : Unbinding P) (pane : String × String) : Unbinding P :=
  match locateBound state.workspaces pane with
  | none => state
  | some (workspace, leaf, ptyId) =>
    let accepted := state.owners.lookup ptyId
    if accepted.any (·.shows ptyId leaf.incarnationId) then
      { state with workspaces := state.workspaces.set pane.1 (unbindLeaf workspace pane.2) }
    else
      { state with
        owners := state.owners.set ptyId ((accepted.getD {}).add leaf.incarnationId) }

/-- The panes of a model in the order of its tabs, each with its workspace's key. -/
def panesInOrder (model : WorkspaceLayoutModel P) : List (String × String) :=
  (terminalTabsInOrder model).flatMap fun place =>
    (leafIdsOf place.2).map fun leafId => (place.1, leafId)

def unbindDuplicateTerminals (model : WorkspaceLayoutModel P) : WorkspaceLayoutModel P :=
  { model with
    workspaces :=
      ((panesInOrder model).foldl unbindDuplicate { workspaces := model.workspaces }).workspaces }

/-! ## What is located -/

variable {workspace : WorkspaceLayout P} {workspaces : OrderedMap String (WorkspaceLayout P)}

theorem locateStored_eq_some {layouts : OrderedMap String (PaneLayout P)} {place : String × String}
    {tab : LayoutTerminalTab P} {stored : PaneLayout P} :
    locateStored workspaces layouts place = some (workspace, tab, stored) ↔
      workspaces.lookup place.1 = some workspace ∧ terminalOfRow workspace place.2 = some tab ∧
        layouts.lookup place.2 = some stored := by
  simp only [locateStored, Option.bind_eq_bind, Option.bind_eq_some_iff, Option.pure_def,
    Option.some.injEq, Prod.mk.injEq]
  constructor
  · rintro ⟨_, hworkspace, _, htab, _, hstored, rfl, rfl, rfl⟩
    exact ⟨hworkspace, htab, hstored⟩
  · rintro ⟨hworkspace, htab, hstored⟩
    exact ⟨workspace, hworkspace, tab, htab, stored, hstored, rfl, rfl, rfl⟩

theorem locateBound_eq_some {pane : String × String} {leaf : LayoutLeaf P} {ptyId : String} :
    locateBound workspaces pane = some (workspace, leaf, ptyId) ↔
      workspaces.lookup pane.1 = some workspace ∧ workspace.leaf? pane.2 = some leaf ∧
        leaf.ptyId = some ptyId := by
  simp only [locateBound, Option.bind_eq_bind, Option.bind_eq_some_iff, Option.pure_def,
    Option.some.injEq, Prod.mk.injEq]
  constructor
  · rintro ⟨_, hworkspace, _, hleaf, _, hptyId, rfl, rfl, rfl⟩
    exact ⟨hworkspace, hleaf, hptyId⟩
  · rintro ⟨hworkspace, hleaf, hptyId⟩
    exact ⟨workspace, hworkspace, leaf, hleaf, ptyId, hptyId, rfl, rfl, rfl⟩

end Wakii.LayoutLoad
