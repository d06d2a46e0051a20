import Mathlib.Data.List.Sort
import Wakii.Layout.SessionPatch

/-!
# Legacy terminal rows

A legacy workspace row may stand for a terminal that the tab bar owns too; the
load folds it into that one.  Where a command changes what such a row or its
claimant holds, the row is stored in its loaded form: otherwise the next load
would resurrect it.
-/

namespace Wakii.SessionPatch

open Json RecordList

variable {N : Type}

def property? (name : String) (value : Option (Json N)) : Option (Json N) :=
  field? (Text.ofString name) (asJson value)

def entryOf (session : Fields N) (field : Text) (key : Text) : Option (Json N) :=
  field? key (asJson (field? field session))

def unifiedTabs : Text := Text.ofString "unifiedTabs"
def terminalLayoutsByTabId : Text := Text.ofString "terminalLayoutsByTabId"
def activeTabId : Text := Text.ofString "activeTabId"
def activeTabIdByWorktree : Text := Text.ofString "activeTabIdByWorktree"

def isTruthy (text : Text) : Bool := !text.isEmpty

def isValidTerminalTabId (value : Text) : Bool := isTruthy value && !value.contains Json.colon

mutual
def collectLayoutLeafIdsInOrder : Json N → List Text
  | .object node =>
    if string? (field? (Text.ofString "type") node) = some (Text.ofString "leaf") then
      (string? (field? (Text.ofString "leafId") node)).toList
    else
      collectSide (Text.ofString "first") node ++ collectSide (Text.ofString "second") node
  | _ => []

def collectSide (side : Text) : Fields N → List Text
  | [] => []
  | (key, node) :: rest =>
    if key = side then collectLayoutLeafIdsInOrder node else collectSide side rest
end

/-- The first of each value, as a `Set` lists them. -/
structure PersistedTerminalPtyIds where
  owned : List Text
  claimable : List Text
  mountedByPrimacy : List Text
  /-- What is stranded by panes that already left the tree. -/
  orphaned : List Text

def bindingsOf (layout : Option (Json N)) : List (Text × Text) :=
  (asJson (property? "ptyIdsByLeafId" layout)).filterMap fun (leafId, ptyId) =>
    ((string? (some ptyId)).filter isTruthy).map fun ptyId => (leafId, ptyId)

def readPersistedTerminalPtyIds (session : Fields N) (tabId : Text) (tab : Fields N) :
    PersistedTerminalPtyIds :=
  let layout := entryOf session terminalLayoutsByTabId tabId
  let mountedLeafIds := match property? "root" layout with
    | some (.object root) => some (collectLayoutLeafIdsInOrder (.object root))
    | _ => none
  let bindings := bindingsOf layout
  let isMounted (binding : Text × Text) : Bool :=
    mountedLeafIds.all fun leafIds => leafIds.contains binding.1
  let mounted := (bindings.filter isMounted).map Prod.snd
  let unmounted := (bindings.filter (!isMounted ·)).map Prod.snd
  let tabLevel := [string? (field? (Text.ofString "ptyId") tab),
    string? (entryOf session (Text.ofString "remoteSessionIdsByTabId") tabId)].filterMap
      fun ptyId => ptyId.filter isTruthy
  let owned := firstOnes (tabLevel ++ mounted)
  let activeLeafId := string? (property? "activeLeafId" layout)
  -- only a sole rootless binding proves ownership
  let provenLeafId := match bindings with
    | [binding] => some binding.1
    | _ => activeLeafId
  let claimableLeafPtyIds := if mountedLeafIds.isSome then mounted
    else (bindings.filter fun binding => some binding.1 = provenLeafId).map Prod.snd
  let activeLeafPtyId := (activeLeafId.filter isTruthy).bind fun leafId =>
    (string? (field? leafId (asJson (property? "ptyIdsByLeafId" layout)))).filter isTruthy
  let mountedByPrimacy := match activeLeafPtyId with
    | some ptyId => if mounted.contains ptyId then ptyId :: mounted.filter (· ≠ ptyId) else mounted
    | none => mounted
  { owned
    claimable := firstOnes (tabLevel ++ claimableLeafPtyIds)
    mountedByPrimacy := firstOnes mountedByPrimacy
    orphaned := (firstOnes unmounted).filter fun ptyId => !owned.contains ptyId }

structure CanonicalPtyOwners where
  tabIds : List Text
  /-- What tab-bar rows claimed already, with the claimant; the last one counts. -/
  tabIdByPtyId : List (Text × Text)

def CanonicalPtyOwners.claimantOf (owners : CanonicalPtyOwners) (ptyId : Text) : Option Text :=
  (owners.tabIdByPtyId.reverse.find? fun claim => claim.1 = ptyId).map Prod.snd

def rowId (row : Fields N) : Text := (recordId row).getD []

def rowPtyIds (session : Fields N) (row : Fields N) : PersistedTerminalPtyIds :=
  readPersistedTerminalPtyIds session (rowId row) row

def readCanonicalPtyOwners (session : Fields N) (workspaceKey : Text) (rows : List (Fields N)) :
    CanonicalPtyOwners :=
  let tabIds := ((asList (entryOf session unifiedTabs workspaceKey)).filter fun tab =>
    string? (field? (Text.ofString "contentType") tab) = some (Text.ofString "terminal")).filterMap
      fun tab => string? (field? (Text.ofString "entityId") tab)
  { tabIds
    -- only valid surviving rows can claim
    tabIdByPtyId := (rows.filter fun row =>
      tabIds.contains (rowId row) && isValidTerminalTabId (rowId row)).flatMap fun row =>
        (rowPtyIds session row).claimable.map fun ptyId => (ptyId, rowId row) }

inductive CanonicalPtyClaim where
  | subsumed (canonicalTabId : Text)
  | retained (releasedPtyIds : List Text) (reconnectPtyId : Option Text)

/-- Canonical mounts win over stale legacy duplicates of the same terminal. -/
def resolveCanonicalPtyClaim (session : Fields N) (row : Fields N)
    (canonical : CanonicalPtyOwners) : CanonicalPtyClaim :=
  if canonical.tabIds.contains (rowId row) then .retained [] none
  else
    let ptyIds := rowPtyIds session row
    let isClaimed (ptyId : Text) : Bool := (canonical.claimantOf ptyId).isSome
    let claimed := ptyIds.owned.filter isClaimed
    let released := firstOnes (claimed ++ ptyIds.orphaned.filter isClaimed)
    let retained := CanonicalPtyClaim.retained released
      (if released.isEmpty then none
        else ptyIds.mountedByPrimacy.find? fun ptyId => !released.contains ptyId)
    match (claimed.head?.bind canonical.claimantOf).filter isTruthy with
    | some canonicalTabId =>
      if claimed.length = ptyIds.owned.length then .subsumed canonicalTabId else retained
    | none => retained

def CanonicalPtyClaim.isUnclaimed : CanonicalPtyClaim → Bool
  | .subsumed _ => false
  | .retained released _ => released.isEmpty

def ptyIdsOf (session : Fields N) (row : Fields N) : List Text :=
  (rowPtyIds session row).owned ++ (rowPtyIds session row).orphaned

/-- What a terminal holds in a workspace: its row, its tab, its bindings. -/
def claimOf (session : Fields N) (key tabId : Text) : Bool × Option Bool × List Text :=
  let row := (asList (entryOf session tabsByWorktree key)).find? fun row =>
    recordId row = some tabId
  let entry := (entryOf session unifiedTabs key).map fun entries =>
    (asList (some entries)).any fun entry =>
      string? (field? (Text.ofString "entityId") entry) = some tabId
  (row.isSome, entry, (row.elim [] (ptyIdsOf session)).insertionSort (· ≤ ·))

/-- A row the load folds into the tab bar's own, or takes terminals from. -/
def isFolded (stored : Fields N) (canonical : CanonicalPtyOwners) (row : Fields N) : Bool :=
  !canonical.tabIds.contains (rowId row) &&
    !(resolveCanonicalPtyClaim stored row canonical).isUnclaimed

def isTouched (stored patched : Fields N) (canonical : CanonicalPtyOwners) (key : Text)
    (row : Fields N) : Bool :=
  (rowId row :: (ptyIdsOf stored row).filterMap canonical.claimantOf).any fun tabId =>
    claimOf stored key tabId ≠ claimOf patched key tabId

def touchedFoldedRows (stored patched : Fields N) : List (Text × Text) :=
  (asJson (field? tabsByWorktree stored)).flatMap fun (key, value) =>
    let rows := asList (some value)
    let canonical := readCanonicalPtyOwners stored key rows
    (rows.filter fun row =>
      isFolded stored canonical row && isTouched stored patched canonical key row).filterMap
        fun row => (recordId row).map fun tabId => (key, tabId)

def setEntry (field key : Text) (value : Option (Json N)) (session : Fields N) : Fields N :=
  assign field (some (.object (assign key value (asJson (field? field session))))) session

def loadedRow (loaded : Fields N) (key tabId : Text) : Option (Fields N) :=
  (asList (entryOf loaded tabsByWorktree key)).find? fun row => recordId row = some tabId

def loadedRows (loaded : Fields N) (key tabId : Text) (rows : List (Fields N)) : List (Fields N) :=
  rows.flatMap fun row =>
    if recordId row ≠ some tabId then [row] else (loadedRow loaded key tabId).toList

def withLoadedLayout (loaded : Fields N) (tabId : Text) (session : Fields N) : Fields N :=
  match entryOf session terminalLayoutsByTabId tabId,
      entryOf loaded terminalLayoutsByTabId tabId with
  | none, none => session
  | _, layout =>
    -- the rest of the map, and behind it the loaded layout
    assign terminalLayoutsByTabId (some (.object (assign tabId layout
      (assign tabId none (asJson (field? terminalLayoutsByTabId session)))))) session

/-- The selection of a row the load left out. -/
def withLoadedTab (loaded : Fields N) (tabId : Text) (session : Fields N) : Fields N :=
  if string? (field? activeTabId session) = some tabId then
    assign activeTabId (field? activeTabId loaded) session
  else session

/-- The selection in its workspace of a row the load left out. -/
def withLoadedWorktreeTab (loaded : Fields N) (key tabId : Text) (session : Fields N) : Fields N :=
  if string? (entryOf session activeTabIdByWorktree key) = some tabId then
    setEntry activeTabIdByWorktree key
      (some ((entryOf loaded activeTabIdByWorktree key).getD .null)) session
  else session

def withLoadedRow (loaded session : Fields N) (row : Text × Text) : Fields N :=
  let (key, tabId) := row
  let rows := loadedRows loaded key tabId (asList (entryOf session tabsByWorktree key))
  let next := withLoadedLayout loaded tabId
    (setEntry tabsByWorktree key (some (.array (rows.map .object))) session)
  if (loadedRow loaded key tabId).isNone then
    withLoadedWorktreeTab loaded key tabId (withLoadedTab loaded tabId next)
  else next

def adoptTouchedFoldedRows (stored patched loaded : Fields N) : Fields N :=
  (touchedFoldedRows stored patched).foldl (withLoadedRow loaded) stored

def patchStoredSession [DecidableEq N] [Zero N] (ownerIsMain : Bool)
    (stored before after : Fields N) : Fields N :=
  let patched := patchRecords ownerIsMain stored before after
  if touchedFoldedRows stored patched = [] then patched
  else patchRecords ownerIsMain (adoptTouchedFoldedRows stored patched before) before after

end Wakii.SessionPatch
