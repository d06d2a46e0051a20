import Wakii.Library.OrderedMap
import Wakii.Library.SplitTree

/-!
# One pane for each terminal of a tab

A stored layout may bind one terminal to several panes.  Normalizing it keeps
one of them for each terminal, the active pane if it is one, else the first in
the tree; the others are pruned, and what was kept under them is merged under
the one that stays.

A pane replaced by another is followed by a loop; `none` is a run that was
given too little fuel.
-/

namespace Wakii.PtyOwnership

open OrderedCollections SplitTrees

abbrev LeafRecord := OrderedMap String String

/-- `S` is what a split carries: its direction and ratio. -/
structure TerminalLayoutSnapshot (S : Type) where
  root : Option (SplitTree String S)
  activeLeafId : Option String
  expandedLeafId : Option String
  chatLeafId : Option String
  ptyIdsByLeafId : Option LeafRecord
  buffersByLeafId : Option LeafRecord
  scrollbackRefsByLeafId : Option LeafRecord
  titlesByLeafId : Option LeafRecord
  lastGridsByLeafId : Option (OrderedMap String (ℕ × ℕ))

variable {S : Type}

def truthy (value : Option String) : Option String :=
  value.filter fun text => text ≠ ""

def hasLeafRecordValue (source : Option LeafRecord) (leafId : String) : Bool :=
  match source with
  | none => false
  | some source => leafId ∈ source

/-- The loop of `resolveRetainedLeafId`. -/
def resolveRetainedLeafId (retainedLeafIdByRemovedLeafId : LeafRecord) : ℕ → String → Option String
  | 0, _ => none
  | fuel + 1, leafId =>
    match retainedLeafIdByRemovedLeafId.lookup leafId with
    | none => some leafId
    | some nextLeafId =>
      if nextLeafId = "" ∨ nextLeafId = leafId then
        some leafId
      else
        resolveRetainedLeafId retainedLeafIdByRemovedLeafId fuel nextLeafId

/-- The pruned tree, and the leaves replaced by themselves that were met so far. -/
def pruneLeaves (retainedLeafIdByRemovedLeafId : LeafRecord) :
    SplitTree String S → List String → Option (SplitTree String S) × List String
  | .leaf leafId, retainedSelfLeafIds =>
    match truthy (retainedLeafIdByRemovedLeafId.lookup leafId) with
    | none => (some (.leaf leafId), retainedSelfLeafIds)
    | some retainedLeafId =>
      if retainedLeafId = leafId ∧ leafId ∉ retainedSelfLeafIds then
        (some (.leaf leafId), leafId :: retainedSelfLeafIds)
      else
        (none, retainedSelfLeafIds)
  | .split data first second, retainedSelfLeafIds =>
    let firstPruned := pruneLeaves retainedLeafIdByRemovedLeafId first retainedSelfLeafIds
    let secondPruned := pruneLeaves retainedLeafIdByRemovedLeafId second firstPruned.2
    (SplitTree.joinSides data firstPruned.1 secondPruned.1, secondPruned.2)

/-! ## Which pane keeps a terminal -/

structure Replacements where
  retainedLeafIdByPtyId : OrderedMap String String
  retainedLeafIdByRemovedLeafId : LeafRecord

def Replacements.visit (ptyIdsByLeafId : LeafRecord) (activeLeafId : Option String)
    (replacements : Replacements) (leafId : String) : Replacements :=
  match truthy (ptyIdsByLeafId.lookup leafId) with
  | none => replacements
  | some ptyId =>
    match truthy (replacements.retainedLeafIdByPtyId.lookup ptyId) with
    | none =>
      { replacements with
        retainedLeafIdByPtyId := replacements.retainedLeafIdByPtyId.set ptyId leafId }
    | some retainedLeafId =>
      if some leafId = activeLeafId then
        { retainedLeafIdByPtyId := replacements.retainedLeafIdByPtyId.set ptyId leafId
          retainedLeafIdByRemovedLeafId :=
            replacements.retainedLeafIdByRemovedLeafId.set retainedLeafId leafId }
      else
        { replacements with
          retainedLeafIdByRemovedLeafId :=
            replacements.retainedLeafIdByRemovedLeafId.set leafId retainedLeafId }

namespace TerminalLayoutSnapshot

variable (snapshot : TerminalLayoutSnapshot S)

def leafIds : List String :=
  SplitTree.leavesOf snapshot.root

def bindings : LeafRecord :=
  snapshot.ptyIdsByLeafId.getD ∅

/-- The active pane that may keep a terminal; a layout without a tree takes it at its word. -/
def ownActiveLeafId : Option String :=
  match snapshot.root, truthy snapshot.activeLeafId with
  | none, _ => snapshot.activeLeafId
  | some _, none => none
  | some _, some activeLeafId => if activeLeafId ∈ snapshot.leafIds then some activeLeafId else none

def orderedLeafIds : List String :=
  snapshot.leafIds ++ snapshot.bindings.keys.filter fun leafId => leafId ∉ snapshot.leafIds

def replacements : Replacements :=
  snapshot.orderedLeafIds.foldl
    (Replacements.visit snapshot.bindings snapshot.ownActiveLeafId)
    { retainedLeafIdByPtyId := ∅, retainedLeafIdByRemovedLeafId := ∅ }

def findDuplicatePtyLeafReplacements : LeafRecord :=
  snapshot.replacements.retainedLeafIdByRemovedLeafId

end TerminalLayoutSnapshot

/-! ## Merging what is kept for each pane -/

section Coalescing

variable (retainedLeafIdByRemovedLeafId : LeafRecord) (resolve : String → Option String)

def nonEmpty (record : LeafRecord) : Option LeafRecord :=
  if record.keys = [] then none else some record

def coalesceEntry (retained : LeafRecord) (entry : String × String) : Option LeafRecord :=
  if entry.1 ∉ retainedLeafIdByRemovedLeafId then
    some retained
  else do
    let retainedLeafId ← resolve entry.1
    return if retainedLeafId ∈ retained then retained else retained.set retainedLeafId entry.2

def coalesceLeafRecord : Option LeafRecord → Option (Option LeafRecord)
  | none => some none
  | some source => do
    let kept := source.filterKeys fun leafId =>
      retainedLeafIdByRemovedLeafId.lookup leafId = none ∨
        retainedLeafIdByRemovedLeafId.lookup leafId = some leafId
    let retained ← source.pairs.foldlM
      (coalesceEntry retainedLeafIdByRemovedLeafId resolve) kept
    return nonEmpty retained

/-- The panes that others were merged into and that have scrollback of their own. -/
def ownSources (buffersByLeafId scrollbackRefsByLeafId : Option LeafRecord)
    (affectedRetainedLeafIds : OrderedSet String) : LeafRecord :=
  affectedRetainedLeafIds.elems.foldl
    (fun sources leafId =>
      if hasLeafRecordValue buffersByLeafId leafId ||
          hasLeafRecordValue scrollbackRefsByLeafId leafId then
        sources.set leafId leafId
      else
        sources)
    ∅

/-- The pane whose scrollback stands for a pane that others were merged into. -/
def sourceOf (buffersByLeafId scrollbackRefsByLeafId : Option LeafRecord)
    (affectedRetainedLeafIds : OrderedSet String) (sources : LeafRecord) (leafId : String) :
    Option LeafRecord := do
  let retainedLeafId ← resolve leafId
  return if retainedLeafId ∉ affectedRetainedLeafIds ∨ retainedLeafId ∈ sources then
      sources
    else if hasLeafRecordValue buffersByLeafId leafId ||
        hasLeafRecordValue scrollbackRefsByLeafId leafId then
      sources.set retainedLeafId leafId
    else
      sources

def unaffectedEntry (affectedRetainedLeafIds : OrderedSet String) (record : LeafRecord)
    (entry : String × String) : Option LeafRecord := do
  let retainedLeafId ← resolve entry.1
  return if retainedLeafId ∈ affectedRetainedLeafIds then record else record.set entry.1 entry.2

/-- The `coalesce` of `coalesceScrollbackRecords`. -/
def coalesceScrollback (affectedRetainedLeafIds : OrderedSet String) (sources : LeafRecord) :
    Option LeafRecord → Option (Option LeafRecord)
  | none => some none
  | some source => do
    let unaffected ← source.pairs.foldlM (unaffectedEntry resolve affectedRetainedLeafIds) ∅
    let retained := sources.pairs.foldl (fun retained entry =>
      match source.lookup entry.2 with
      | none => retained
      | some value => retained.set entry.1 value) unaffected
    return nonEmpty retained

def coalesceScrollbackRecords (buffersByLeafId scrollbackRefsByLeafId : Option LeafRecord)
    (orderedLeafIds : List String) : Option (Option LeafRecord × Option LeafRecord) := do
  let affectedRetainedLeafIds ← retainedLeafIdByRemovedLeafId.keys.foldlM
    (fun affected removedLeafId => do return affected.add (← resolve removedLeafId)) ∅
  let sources ← orderedLeafIds.foldlM
    (sourceOf resolve buffersByLeafId scrollbackRefsByLeafId affectedRetainedLeafIds)
    (ownSources buffersByLeafId scrollbackRefsByLeafId affectedRetainedLeafIds)
  return (← coalesceScrollback resolve affectedRetainedLeafIds sources buffersByLeafId,
    ← coalesceScrollback resolve affectedRetainedLeafIds sources scrollbackRefsByLeafId)

end Coalescing

def resolveOwnedActiveLeafId (rootLeafIds : List String) (activeLeafId : Option String)
    (ptyIdsByLeafId : Option LeafRecord) : Option String :=
  if rootLeafIds = [] then
    match truthy activeLeafId, ptyIdsByLeafId.getD ∅ |>.keys with
    | some activeLeafId, _ => some activeLeafId
    | none, [leafId] => some leafId
    | none, _ => none
  else
    match truthy activeLeafId with
    | some activeLeafId =>
      if activeLeafId ∈ rootLeafIds then some activeLeafId
      else firstOwned
    | none => firstOwned
where
  /-- The first bound leaf, else the first leaf. -/
  firstOwned : Option String :=
    (rootLeafIds.find? (hasLeafRecordValue ptyIdsByLeafId)).or rootLeafIds.head?

structure Normalization (S : Type) where
  snapshot : TerminalLayoutSnapshot S
  changed : Bool

/-- A string that is there and not empty, resolved. -/
def resolveTruthy (resolve : String → Option String) (leafId : Option String) :
    Option (Option String) :=
  match truthy leafId with
  | none => some leafId
  | some leafId => (resolve leafId).map some

/-- The snapshot with its tree pruned, around what was merged for its panes. -/
def mergedSnapshot (snapshot : TerminalLayoutSnapshot S) (mappedActiveLeafId : Option String)
    (ptyIdsByLeafId : Option LeafRecord) (remappedChatLeafId : Option String)
    (scrollback : Option LeafRecord × Option LeafRecord) (titlesByLeafId : Option LeafRecord) :
    TerminalLayoutSnapshot S :=
  let retainedLeafIdByRemovedLeafId := snapshot.findDuplicatePtyLeafReplacements
  let removed (leafId : String) : Bool :=
    leafId ∈ retainedLeafIdByRemovedLeafId ∧
      retainedLeafIdByRemovedLeafId.lookup leafId ≠ some leafId
  let root := snapshot.root.bind fun root => (pruneLeaves retainedLeafIdByRemovedLeafId root []).1
  let rootLeafIds := SplitTree.leavesOf root
  { root
    activeLeafId := resolveOwnedActiveLeafId rootLeafIds mappedActiveLeafId ptyIdsByLeafId
    expandedLeafId := (truthy snapshot.expandedLeafId).filter fun leafId =>
      !removed leafId && leafId ∈ rootLeafIds
    chatLeafId := (truthy remappedChatLeafId).filter fun leafId => leafId ∈ rootLeafIds
    ptyIdsByLeafId
    buffersByLeafId := scrollback.1
    scrollbackRefsByLeafId := scrollback.2
    titlesByLeafId
    lastGridsByLeafId := snapshot.lastGridsByLeafId }

def normalizeTerminalLayoutPtyOwnership (fuel : ℕ) (snapshot : TerminalLayoutSnapshot S) :
    Option (Normalization S) :=
  let retainedLeafIdByRemovedLeafId := snapshot.findDuplicatePtyLeafReplacements
  if retainedLeafIdByRemovedLeafId.keys = [] then
    some { snapshot, changed := false }
  else do
    let resolve := resolveRetainedLeafId retainedLeafIdByRemovedLeafId fuel
    let mappedActiveLeafId ← resolveTruthy resolve snapshot.activeLeafId
    let ptyIdsByLeafId ←
      coalesceLeafRecord retainedLeafIdByRemovedLeafId resolve snapshot.ptyIdsByLeafId
    let remappedChatLeafId ← resolveTruthy resolve (truthy snapshot.chatLeafId)
    let scrollback ← coalesceScrollbackRecords retainedLeafIdByRemovedLeafId resolve
      snapshot.buffersByLeafId snapshot.scrollbackRefsByLeafId snapshot.orderedLeafIds
    let titlesByLeafId ←
      coalesceLeafRecord retainedLeafIdByRemovedLeafId resolve snapshot.titlesByLeafId
    return {
      snapshot := mergedSnapshot snapshot mappedActiveLeafId ptyIdsByLeafId remappedChatLeafId
        scrollback titlesByLeafId
      changed := true }

end Wakii.PtyOwnership
