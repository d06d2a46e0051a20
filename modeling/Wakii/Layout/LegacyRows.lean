import Mathlib.Data.List.Sort
import Wakii.Layout.LoadTypes
import Wakii.Library.RecordList
import Wakii.Library.Utf16

/-!
# Which row owns a stored terminal

A session may hold a terminal twice: in a row the tab bar names and in an older
row of the same workspace.  The tab bar's row keeps it.
-/

namespace Wakii.LayoutLoad

open OrderedCollections RecordList SplitTrees
open Wakii.PtyOwnership Wakii.TerminalOwners

variable {P : Type}

def isValidTerminalTabId (value : String) : Bool :=
  value ≠ "" && !value.toList.contains ':'

/-! ## Terminals of a row -/

structure PersistedTerminalPtyIds where
  /-- What a live pane or the tab itself still reattaches to. -/
  owned : List String
  claimable : List String
  /-- Live panes' terminals, the active one first. -/
  mountedByPrimacy : List String
  orphaned : List String
deriving DecidableEq

def boundLeafIds (layout : Option (PaneLayout P)) : List (String × String) :=
  (((layout.bind (·.ptyIdsByLeafId)).getD ∅).pairs).filter fun binding => binding.2 ≠ ""

def mountedLeafIds (layout : Option (PaneLayout P)) : Option (List String) :=
  (layout.bind (·.root)).map SplitTree.leaves

def readPersistedTerminalPtyIds (session : WorkspaceSessionState P) (tab : TerminalTab P) :
    PersistedTerminalPtyIds :=
  let layout := session.terminalLayoutsByTabId.lookup tab.id
  let bindings := boundLeafIds layout
  let isMounted (binding : String × String) : Bool :=
    (mountedLeafIds layout).all fun leafIds => leafIds.contains binding.1
  let mounted := (bindings.filter isMounted).map Prod.snd
  let unmounted := (bindings.filter (!isMounted ·)).map Prod.snd
  let tabLevel := [tab.ptyId, session.remoteSessionIdsByTabId.lookup tab.id].filterMap truthy
  let owned := firstOnes (tabLevel ++ mounted)
  let activeLeafId := layout.bind (·.activeLeafId)
  -- only a sole rootless binding proves ownership
  let provenLeafId := match bindings with
    | [binding] => some binding.1
    | _ => activeLeafId
  let claimableLeafPtyIds :=
    if (mountedLeafIds layout).isSome then mounted
    else (bindings.filter fun binding => some binding.1 = provenLeafId).map Prod.snd
  let activeLeafPtyId := (truthy activeLeafId).bind fun leafId =>
    truthy ((layout.bind (·.ptyIdsByLeafId)).bind (·.lookup leafId))
  let mountedByPrimacy := match activeLeafPtyId with
    | some ptyId => if ptyId ∈ mounted then ptyId :: mounted.filter (· ≠ ptyId) else mounted
    | none => mounted
  { owned
    claimable := firstOnes (tabLevel ++ claimableLeafPtyIds)
    mountedByPrimacy := firstOnes mountedByPrimacy
    orphaned := (firstOnes unmounted).filter fun ptyId => ptyId ∉ owned }

/-! ## Claims -/

structure CanonicalPtyOwners where
  tabIds : List String
  /-- What tab-bar rows claimed already, with the claimant. -/
  tabIdByPtyId : OrderedMap String String

def readCanonicalPtyOwners (session : WorkspaceSessionState P) (workspaceKey : String)
    (rows : List (TerminalTab P)) : CanonicalPtyOwners :=
  let tabIds := ((session.entries workspaceKey).filter fun tab =>
    tab.contentType = .terminal).map (·.entityId)
  -- only valid surviving rows can claim
  let claimants := rows.filter fun row => row.id ∈ tabIds && isValidTerminalTabId row.id
  { tabIds
    tabIdByPtyId := OrderedMap.ofPairs (claimants.flatMap fun row =>
      (readPersistedTerminalPtyIds session row).claimable.map fun ptyId => (ptyId, row.id)) }

inductive CanonicalPtyClaim where
  | subsumed (canonicalTabId : String)
  | retained (releasedPtyIds : List String) (reconnectPtyId : Option String)
deriving DecidableEq

/-- Canonical mounts win over stale legacy duplicates of the same terminal. -/
def resolveCanonicalPtyClaim (session : WorkspaceSessionState P) (row : TerminalTab P)
    (canonical : CanonicalPtyOwners) : CanonicalPtyClaim :=
  if row.id ∈ canonical.tabIds then .retained [] none
  else
    let ptyIds := readPersistedTerminalPtyIds session row
    let claimed := ptyIds.owned.filter (· ∈ canonical.tabIdByPtyId)
    let releasedPtyIds :=
      firstOnes (claimed ++ ptyIds.orphaned.filter (· ∈ canonical.tabIdByPtyId))
    let retained := CanonicalPtyClaim.retained releasedPtyIds
      (if releasedPtyIds = [] then none
        else ptyIds.mountedByPrimacy.find? (· ∉ releasedPtyIds))
    match truthy (claimed.head?.bind canonical.tabIdByPtyId.lookup) with
    | some canonicalTabId =>
      if claimed.length = ptyIds.owned.length then .subsumed canonicalTabId else retained
    | none => retained

/-! ## Recorded panes -/

def compareUnits : Text → Text → Ordering
  | [], [] => .eq
  | [], _ :: _ => .lt
  | _ :: _, [] => .gt
  | left :: lefts, right :: rights => (compare left right).then (compareUnits lefts rights)

def compareRecordedKeys (left right : String) : Ordering :=
  compareUnits (Text.ofString left) (Text.ofString right)

def recordedKeys (session : WorkspaceSessionState P) : List String :=
  firstOnes (session.terminalPtyIncarnationsByPaneKey.keys ++
    session.sleepingAgentSessionsByPaneKey.keys ++
    session.terminalSurfaceTombstonesByPaneKey.keys)

/-- The pane that the records of a tab name, where they name only one.  The first
key of the tab is the first that does not sort before its start. -/
def recordedLeafId (session : WorkspaceSessionState P) (tabId : String) : Option String :=
  let start := tabId ++ ":"
  let keys := (recordedKeys session).insertionSort fun left right =>
    compareRecordedKeys left right ≠ .gt
  match keys.dropWhile fun key => compareRecordedKeys key start = .lt with
  | [] => none
  | first :: rest =>
    if rest.head?.any fun key => (afterStart start key).isSome then none
    else afterStart start first

end Wakii.LayoutLoad
