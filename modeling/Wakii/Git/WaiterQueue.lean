import Mathlib.Data.Int.Notation
import Wakii.Library.BinaryHeap

/-!
# The waiters for a git slot

Queued waiters stand in lanes, one for each class, tier and route.  The head of
a lane is published to a heap of candidates when its route has a free slot; an
entry of a heap counts only as long as the lane has the version it was
published under.
-/

namespace Wakii.GitAdmission

inductive AdmissionClass
  | general
  | network
  deriving DecidableEq

inductive GitAdmissionTier
  | interactive
  | status
  | background
  deriving DecidableEq

def TIERS : List GitAdmissionTier := [.interactive, .status, .background]

inductive AdmissionSlotKind
  | base
  | headroom
  deriving DecidableEq

abbrev Route := String

abbrev SignalId := ℕ

abbrev WaiterId := ℕ

inductive BudgetKey
  | ofClass (admissionClass : AdmissionClass)
  | ofRoute (admissionClass : AdmissionClass) (route : Route)
  deriving DecidableEq

inductive WaiterState
  | queued
  | granted
  | settled
  deriving DecidableEq

structure AdmissionWaiter where
  tier : GitAdmissionTier
  admissionClass : AdmissionClass
  route : Option Route
  enqueuedAt : ℤ
  signal : Option SignalId
  state : WaiterState
  slotKind : Option AdmissionSlotKind
  /-- Whether the promise was resolved with a release function, and whether that was called. -/
  delivered : Bool
  released : Bool
  /-- How often the slot of the waiter was given back. -/
  returns : ℕ
  deriving DecidableEq

def AdmissionWaiter.budgetKeys (waiter : AdmissionWaiter) : List BudgetKey :=
  .ofClass waiter.admissionClass :: waiter.route.toList.map (.ofRoute waiter.admissionClass)

/-- The identity of a lane object: the slot it was made for, and how many were made before. -/
structure LaneId where
  admissionClass : AdmissionClass
  tier : GitAdmissionTier
  route : Option Route
  serial : ℕ
  deriving DecidableEq

structure WaiterLane where
  items : List WaiterId
  head : ℕ
  count : ℕ
  baseEligible : Bool
  headroomEligible : Bool
  version : ℕ
  deriving DecidableEq

def createLane : WaiterLane := ⟨[], 0, 0, false, false, 0⟩

structure Candidate where
  lane : LaneId
  waiter : WaiterId
  version : ℕ
  deriving DecidableEq

/-- `lanes` lists the lanes in use; `laneStore` holds every lane object ever made. -/
structure WaiterQueue where
  lanes : AdmissionClass → GitAdmissionTier → List LaneId
  laneStore : LaneId → WaiterLane
  nextSerial : ℕ
  countsByBudget : BudgetKey → ℕ
  baseCandidates : AdmissionClass → GitAdmissionTier → List Candidate
  headroomCandidates : AdmissionClass → List Candidate
  totalCount : ℕ

def emptyQueue : WaiterQueue :=
  { lanes := fun _ _ => []
    laneStore := fun _ => createLane
    nextSerial := 0
    countsByBudget := fun _ => 0
    baseCandidates := fun _ _ => []
    headroomCandidates := fun _ => []
    totalCount := 0 }

namespace WaiterLane

def eligible (lane : WaiterLane) : AdmissionSlotKind → Bool
  | .base => lane.baseEligible
  | .headroom => lane.headroomEligible

def headWaiter (lane : WaiterLane) : Option WaiterId := lane.items[lane.head]?

end WaiterLane

namespace WaiterQueue

variable (waiters : WaiterId → AdmissionWaiter) (queue : WaiterQueue)

def isQueued (id : WaiterId) : Bool := (waiters id).state == .queued

def setLane (id : LaneId) (lane : WaiterLane) : WaiterQueue :=
  { queue with laneStore := Function.update queue.laneStore id lane }

def setLanes (admissionClass : AdmissionClass) (tier : GitAdmissionTier) (ids : List LaneId) :
    WaiterQueue :=
  { queue with
    lanes := fun other otherTier =>
      if other = admissionClass ∧ otherTier = tier then ids else queue.lanes other otherTier }

def setBase (admissionClass : AdmissionClass) (tier : GitAdmissionTier)
    (items : List Candidate) : WaiterQueue :=
  { queue with
    baseCandidates := fun other otherTier =>
      if other = admissionClass ∧ otherTier = tier then items
      else queue.baseCandidates other otherTier }

def setHeadroom (admissionClass : AdmissionClass) (items : List Candidate) : WaiterQueue :=
  { queue with
    headroomCandidates := Function.update queue.headroomCandidates admissionClass items }

@[simp] theorem setLane_self {queue : WaiterQueue} {id : LaneId} {lane : WaiterLane} :
    (queue.setLane id lane).laneStore id = lane := by
  simp [setLane]

theorem setLane_of_ne {queue : WaiterQueue} {id other : LaneId} {lane : WaiterLane}
    (hne : other ≠ id) : (queue.setLane id lane).laneStore other = queue.laneStore other := by
  simp [setLane, hne]

def findLane (admissionClass : AdmissionClass) (tier : GitAdmissionTier) (route : Option Route) :
    Option LaneId :=
  (queue.lanes admissionClass tier).find? fun id => id.route = route

def candidateIsValid (slotKind : AdmissionSlotKind) (candidate : Candidate) : Bool :=
  let lane := queue.laneStore candidate.lane
  candidate.version == lane.version && lane.headWaiter == some candidate.waiter &&
    isQueued waiters candidate.waiter && lane.eligible slotKind

/-- Publishes a candidate to the heaps its lane is eligible for. -/
def pushCandidate (candidate : Candidate) (baseEligible headroomEligible : Bool) : WaiterQueue :=
  let id := candidate.lane
  let published :=
    if baseEligible then
      queue.setBase id.admissionClass id.tier
        (BinaryHeap.push Candidate.waiter
          (queue.baseCandidates id.admissionClass id.tier) candidate)
    else queue
  if id.tier = .interactive ∧ headroomEligible = true then
    published.setHeadroom id.admissionClass
      (BinaryHeap.push Candidate.waiter (queue.headroomCandidates id.admissionClass) candidate)
  else published

def publishLaneHead (id : LaneId) : WaiterQueue :=
  let lane := queue.laneStore id
  match lane.headWaiter with
  | none => queue
  | some waiter =>
    if isQueued waiters waiter then
      queue.pushCandidate ⟨id, waiter, lane.version⟩ lane.baseEligible lane.headroomEligible
    else queue

def CANDIDATE_HEAP_COMPACTION_SLACK : ℕ := 64

def compactCandidateHeaps (admissionClass : AdmissionClass) (tier : GitAdmissionTier) :
    WaiterQueue :=
  let bound := (queue.lanes admissionClass tier).length * 2 + CANDIDATE_HEAP_COMPACTION_SLACK
  let compacted := queue.setBase admissionClass tier
    (BinaryHeap.compactIfOversized Candidate.waiter bound (queue.candidateIsValid waiters .base)
      (queue.baseCandidates admissionClass tier))
  if tier = .interactive then
    compacted.setHeadroom admissionClass
      (BinaryHeap.compactIfOversized Candidate.waiter bound
        (queue.candidateIsValid waiters .headroom) (queue.headroomCandidates admissionClass))
  else compacted

/-- Moves the head past the waiters that left, and drops them once they are many. -/
def compact (lane : WaiterLane) : WaiterLane :=
  let skipped := (lane.items.drop lane.head).takeWhile fun id => !isQueued waiters id
  let head := lane.head + skipped.length
  if lane.count = 0 then { lane with items := [], head := 0 }
  else
    let tombstones := lane.items.length - head - lane.count
    if head < 256 ∧ (lane.items.length < 256 ∨ tombstones ≤ lane.count) then { lane with head }
    else { lane with items := (lane.items.drop head).filter (isQueued waiters), head := 0 }

def addCounts (keys : List BudgetKey) : WaiterQueue :=
  { queue with
    totalCount := queue.totalCount + 1
    countsByBudget := fun key =>
      if key ∈ keys then queue.countsByBudget key + 1 else queue.countsByBudget key }

def subCounts (keys : List BudgetKey) : WaiterQueue :=
  { queue with
    totalCount := queue.totalCount - 1
    countsByBudget := fun key =>
      if key ∈ keys then queue.countsByBudget key - 1 else queue.countsByBudget key }

def laneFor (waiter : AdmissionWaiter) : WaiterQueue × LaneId :=
  match queue.findLane waiter.admissionClass waiter.tier waiter.route with
  | some id => (queue, id)
  | none =>
    let id : LaneId := ⟨waiter.admissionClass, waiter.tier, waiter.route, queue.nextSerial⟩
    (({ queue with nextSerial := queue.nextSerial + 1 }.setLane id createLane).setLanes
        waiter.admissionClass waiter.tier
        (queue.lanes waiter.admissionClass waiter.tier ++ [id]), id)

def pushWaiter (lane : WaiterLane) (id : WaiterId) : WaiterLane :=
  { lane with items := lane.items ++ [id], count := lane.count + 1 }

def enqueue (id : WaiterId) : WaiterQueue :=
  let waiter := waiters id
  let (made, laneId) := queue.laneFor waiter
  let lane := pushWaiter (made.laneStore laneId) id
  let counted := (made.setLane laneId lane).addCounts waiter.budgetKeys
  if lane.count = 1 then counted.publishLaneHead waiters laneId else counted

def bumpVersion (lane : WaiterLane) : WaiterLane := { lane with version := lane.version + 1 }

def dequeue (id : WaiterId) : WaiterQueue :=
  let waiter := waiters id
  match queue.findLane waiter.admissionClass waiter.tier waiter.route with
  | none => queue
  | some laneId =>
    let old := queue.laneStore laneId
    let lane := compact waiters { old with count := old.count - 1 }
    let counted := queue.subCounts waiter.budgetKeys
    if lane.count = 0 then
      ((counted.setLane laneId (bumpVersion lane)).setLanes waiter.admissionClass waiter.tier
        ((queue.lanes waiter.admissionClass waiter.tier).filter fun other =>
          other.route ≠ waiter.route)).compactCandidateHeaps waiters waiter.admissionClass
            waiter.tier
    else if lane.headWaiter = old.headWaiter then counted.setLane laneId lane
    else
      ((counted.setLane laneId (bumpVersion lane)).publishLaneHead waiters
        laneId).compactCandidateHeaps waiters waiter.admissionClass waiter.tier

/-- Sets what a lane caches of the budget of its route; a change is a new version. -/
def updateLaneEligibility (admissionClass : AdmissionClass) (route : Option Route)
    (baseEligible headroomEligible : Bool) (queue : WaiterQueue) (tier : GitAdmissionTier) :
    WaiterQueue :=
  match queue.findLane admissionClass tier route with
  | none => queue
  | some id =>
    let lane := queue.laneStore id
    if lane.baseEligible = baseEligible ∧ lane.headroomEligible = headroomEligible then queue
    else
      ((queue.setLane id
        (bumpVersion { lane with baseEligible, headroomEligible })).publishLaneHead waiters
          id).compactCandidateHeaps waiters admissionClass tier

def updateRouteEligibility (admissionClass : AdmissionClass) (route : Option Route)
    (baseEligible headroomEligible : Bool) : WaiterQueue :=
  TIERS.foldl
    (updateLaneEligibility waiters admissionClass route baseEligible headroomEligible) queue

def hasBudget (key : BudgetKey) : Bool := queue.countsByBudget key != 0

def peekBase (admissionClass : AdmissionClass) (tier : GitAdmissionTier) :
    WaiterQueue × Option Candidate :=
  let (items, first) := BinaryHeap.peek Candidate.waiter (queue.candidateIsValid waiters .base)
    (queue.baseCandidates admissionClass tier)
  (queue.setBase admissionClass tier items, first)

def peekHeadroom (admissionClass : AdmissionClass) : WaiterQueue × Option Candidate :=
  let (items, first) := BinaryHeap.peek Candidate.waiter
    (queue.candidateIsValid waiters .headroom) (queue.headroomCandidates admissionClass)
  (queue.setHeadroom admissionClass items, first)

structure SelectedWaiter where
  waiter : WaiterId
  slotKind : AdmissionSlotKind
  deriving DecidableEq

def peekTiers (admissionClass : AdmissionClass) :
    WaiterQueue → List GitAdmissionTier → WaiterQueue × List SelectedWaiter
  | queue, [] => (queue, [])
  | queue, tier :: rest =>
    let (peeked, first) := queue.peekBase waiters admissionClass tier
    let (last, others) := peekTiers admissionClass peeked rest
    (last, (first.toList.map fun candidate => ⟨candidate.waiter, .base⟩) ++ others)

/-- The waiters that could be granted now, one for each heap that may be used. -/
def fittingCandidates (admissionClass : AdmissionClass) (allowBase allowHeadroom : Bool) :
    WaiterQueue × List SelectedWaiter :=
  let (peeked, bases) :=
    if allowBase then peekTiers waiters admissionClass queue TIERS else (queue, [])
  if allowHeadroom then
    let (last, first) := peeked.peekHeadroom waiters admissionClass
    (last, bases ++ first.toList.map fun candidate => ⟨candidate.waiter, .headroom⟩)
  else (peeked, bases)

/-- Whether a selection goes before another: by tier, then by age, then base before headroom. -/
def goesBefore (effectiveTier : WaiterId → ℤ) (left right : SelectedWaiter) : Bool :=
  effectiveTier left.waiter < effectiveTier right.waiter ||
    (effectiveTier left.waiter == effectiveTier right.waiter && (left.waiter < right.waiter ||
        (left.waiter == right.waiter && left.slotKind == .base && right.slotKind != .base)))

def firstSelected (effectiveTier : WaiterId → ℤ) : List SelectedWaiter → Option SelectedWaiter
  | [] => none
  | candidate :: rest =>
    match firstSelected effectiveTier rest with
    | none => some candidate
    | some other =>
      if goesBefore effectiveTier other candidate then some other else some candidate

end WaiterQueue

end Wakii.GitAdmission
