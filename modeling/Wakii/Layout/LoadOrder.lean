import Mathlib.Data.List.Sort
import Wakii.Layout.LoadTypes

/-!
# The order of a loaded workspace's tabs

Legacy orders disagree, so the first that places a tab counts: the group its
entry names, else the first group that lists it, else the first group, sorted
by the tab bar's order, the row's and the time of creation.
-/

namespace Wakii.LayoutLoad

open OrderedCollections Wakii.LayoutModel

structure OrderCandidate where
  id : String
  groupId : Option String := none
  tabBarSortOrder : Option ℤ := none
  rowSortOrder : Option ℤ := none
  createdAt : ℤ
deriving DecidableEq

/-! ## Owners -/

def namedOwners (tabs : List OrderCandidate) (groups : List TabGroup) : OrderedMap String String :=
  tabs.foldl
    (fun tabOwners tab =>
      match tab.groupId with
      | none => tabOwners
      | some groupId =>
        if groupId ∈ groups.map (·.id) then tabOwners.set tab.id groupId else tabOwners)
    ∅

def listedOwner (knownTabIds : List String) (groupId : String)
    (tabOwners : OrderedMap String String) (tabId : String) : OrderedMap String String :=
  if tabId ∈ knownTabIds ∧ tabId ∉ tabOwners then tabOwners.set tabId groupId else tabOwners

def resolveTabGroupOwners (tabs : List OrderCandidate) (groups : List TabGroup) :
    OrderedMap String String :=
  groups.foldl
    (fun tabOwners group =>
      group.tabOrder.foldl (listedOwner (tabs.map (·.id)) group.id) tabOwners)
    (namedOwners tabs groups)

/-! ## Groups -/

def compareOrders : Option ℤ → Option ℤ → Ordering
  | none, none => .eq
  | none, some _ => .gt
  | some _, none => .lt
  | some left, some right => compare left right

def compareUnplaced (left right : OrderCandidate) : Ordering :=
  (compareOrders (left.tabBarSortOrder.or left.rowSortOrder)
    (right.tabBarSortOrder.or right.rowSortOrder)).then (compare left.createdAt right.createdAt)

structure PlacedGroups where
  placed : List String := []
  groups : List LayoutGroup := []

/-- A listed tab that the group owns and no group placed; the lists of all placed
tabs and of the group's. -/
def placeListed (owners : OrderedMap String String) (groupId : String)
    (lists : List String × List String) (tabId : String) : List String × List String :=
  if owners.lookup tabId = some groupId ∧ tabId ∉ lists.1 then
    (lists.1 ++ [tabId], lists.2 ++ [tabId])
  else lists

def placeGroup (owners : OrderedMap String String) (state : PlacedGroups) (stored : TabGroup) :
    PlacedGroups :=
  if stored.id ∈ state.groups.map (·.id) then state
  else
    let lists := stored.tabOrder.foldl (placeListed owners stored.id) (state.placed, [])
    { placed := lists.1, groups := state.groups ++ [⟨stored.id, lists.2⟩] }

def placeGroups (owners : OrderedMap String String) (storedGroups : List TabGroup) :
    PlacedGroups :=
  storedGroups.foldl (placeGroup owners) {}

def pushTo (groupId tabId : String) (groups : List LayoutGroup) : List LayoutGroup :=
  groups.map fun group =>
    if group.id = groupId then { group with tabOrder := group.tabOrder ++ [tabId] } else group

def placeUnplaced (rootGroupId : String) (groups : List LayoutGroup)
    (candidate : OrderCandidate) : List LayoutGroup :=
  match (candidate.groupId.bind fun groupId => groups.find? (·.id = groupId)).or groups.head? with
  | some group => pushTo group.id candidate.id groups
  | none => [⟨rootGroupId, [candidate.id]⟩]

def sortUnplaced (candidates : List OrderCandidate) : List OrderCandidate :=
  candidates.insertionSort fun left right => compareUnplaced left right ≠ .gt

def resolveGroupOrder (storedGroups : List TabGroup) (candidates : List OrderCandidate)
    (rootGroupId : String) : List LayoutGroup :=
  let state := placeGroups (resolveTabGroupOwners candidates storedGroups) storedGroups
  let unplaced := candidates.filter fun candidate => candidate.id ∉ state.placed
  ((sortUnplaced unplaced).foldl (placeUnplaced rootGroupId) state.groups).filter
    fun group => group.tabOrder ≠ []

end Wakii.LayoutLoad
