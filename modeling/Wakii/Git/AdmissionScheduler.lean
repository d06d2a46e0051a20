import Mathlib.Data.Int.Basic
import Wakii.Git.WaiterQueue

/-!
# Admission of git commands

A command waits for a slot of its class and, on a remote route, of its route.  A
slot is granted first and delivered to the caller in a later microtask; an abort
in between gives it back.
-/

namespace Wakii.GitAdmission

structure AdmissionSchedulerConfig where
  generalCap : ℕ
  networkCap : ℕ
  generalHeadroom : ℕ
  networkHeadroom : ℕ
  routeCap : ℕ
  routeHeadroom : ℕ
  agingMs : ℤ
  deriving DecidableEq

structure AdmissionBudget where
  baseCapacity : ℕ
  headroomCapacity : ℕ
  baseUsed : ℕ
  headroomUsed : ℕ
  deriving DecidableEq

namespace AdmissionBudget

def capacity (budget : AdmissionBudget) : AdmissionSlotKind → ℕ
  | .base => budget.baseCapacity
  | .headroom => budget.headroomCapacity

def used (budget : AdmissionBudget) : AdmissionSlotKind → ℕ
  | .base => budget.baseUsed
  | .headroom => budget.headroomUsed

def hasFree (budget : AdmissionBudget) (slotKind : AdmissionSlotKind) : Bool :=
  decide (budget.used slotKind < budget.capacity slotKind)

def take (budget : AdmissionBudget) : AdmissionSlotKind → AdmissionBudget
  | .base => { budget with baseUsed := budget.baseUsed + 1 }
  | .headroom => { budget with headroomUsed := budget.headroomUsed + 1 }

def giveBack (budget : AdmissionBudget) : AdmissionSlotKind → AdmissionBudget
  | .base => { budget with baseUsed := budget.baseUsed - 1 }
  | .headroom => { budget with headroomUsed := budget.headroomUsed - 1 }

def isUnused (budget : AdmissionBudget) : Bool := budget.baseUsed == 0 && budget.headroomUsed == 0

end AdmissionBudget

/-- What becomes of a promise of `acquire`. -/
inductive Outcome
  | resolved (queueWaitMs : ℤ)
  | rejected
  deriving DecidableEq

structure GitAdmissionScheduler where
  config : AdmissionSchedulerConfig
  budgets : BudgetKey → Option AdmissionBudget
  waiters : WaiterId → AdmissionWaiter
  queue : WaiterQueue
  nextWaiterId : ℕ
  aborted : SignalId → Bool
  /-- The deliveries queued as microtasks, with the wait each reports. -/
  microtasks : List (WaiterId × ℤ)
  outcomes : List (WaiterId × Outcome)

/-- A request as its class and route were resolved; without a tier it counts as a status read. -/
structure GitAdmissionRequest where
  admissionClass : AdmissionClass
  route : Option Route
  tier : Option GitAdmissionTier
  signal : Option SignalId
  deriving DecidableEq

def ADMISSION_TIER_VALUE : GitAdmissionTier → ℤ
  | .interactive => 0
  | .status => 1
  | .background => 2

def newWaiter (request : GitAdmissionRequest) (enqueuedAt : ℤ) : AdmissionWaiter :=
  { tier := request.tier.getD .status
    admissionClass := request.admissionClass
    route := request.route
    enqueuedAt
    signal := request.signal
    state := .queued
    slotKind := none
    delivered := false
    released := false
    returns := 0 }

namespace GitAdmissionScheduler

variable (scheduler : GitAdmissionScheduler)

def setWaiter (id : WaiterId) (waiter : AdmissionWaiter) : GitAdmissionScheduler :=
  { scheduler with waiters := Function.update scheduler.waiters id waiter }

def setQueue (queue : WaiterQueue) : GitAdmissionScheduler := { scheduler with queue }

def setBudget (key : BudgetKey) (budget : Option AdmissionBudget) : GitAdmissionScheduler :=
  { scheduler with budgets := Function.update scheduler.budgets key budget }

def settle (id : WaiterId) (outcome : Outcome) : GitAdmissionScheduler :=
  { scheduler with outcomes := scheduler.outcomes ++ [(id, outcome)] }

def queueMicrotask (id : WaiterId) (queueWaitMs : ℤ) : GitAdmissionScheduler :=
  { scheduler with microtasks := scheduler.microtasks ++ [(id, queueWaitMs)] }

def newBudget (config : AdmissionSchedulerConfig) : BudgetKey → AdmissionBudget
  | .ofRoute _ _ => ⟨config.routeCap, config.routeHeadroom, 0, 0⟩
  | .ofClass .network => ⟨config.networkCap, config.networkHeadroom, 0, 0⟩
  | .ofClass .general => ⟨config.generalCap, config.generalHeadroom, 0, 0⟩

def budgetOf (key : BudgetKey) : AdmissionBudget :=
  (scheduler.budgets key).getD (newBudget scheduler.config key)

def ensureBudget (key : BudgetKey) : GitAdmissionScheduler :=
  scheduler.setBudget key (some (scheduler.budgetOf key))

def ensureBudgets (keys : List BudgetKey) : GitAdmissionScheduler :=
  keys.foldl ensureBudget scheduler

def updateBudget (write : AdmissionBudget → AdmissionBudget) (key : BudgetKey) :
    GitAdmissionScheduler :=
  scheduler.setBudget key (some (write (scheduler.budgetOf key)))

def takeSlots (slotKind : AdmissionSlotKind) (keys : List BudgetKey) : GitAdmissionScheduler :=
  keys.foldl (fun current key => current.updateBudget (fun budget => budget.take slotKind) key)
    scheduler

def giveBackSlots (slotKind : AdmissionSlotKind) (keys : List BudgetKey) :
    GitAdmissionScheduler :=
  keys.foldl (fun current key => current.updateBudget (fun budget => budget.giveBack slotKind) key)
    scheduler

def effectiveTier (now : ℤ) (id : WaiterId) : ℤ :=
  let waiter := scheduler.waiters id
  let promotions := (now - waiter.enqueuedAt).fdiv scheduler.config.agingMs
  max 0 (ADMISSION_TIER_VALUE waiter.tier - promotions)

def fits (waiter : AdmissionWaiter) (slotKind : AdmissionSlotKind) : Bool :=
  waiter.budgetKeys.all fun key => (scheduler.budgetOf key).hasFree slotKind

def slotKindFor (waiter : AdmissionWaiter) : Option AdmissionSlotKind :=
  if scheduler.fits waiter .base then some .base
  else if waiter.tier = .interactive ∧ scheduler.fits waiter .headroom = true then some .headroom
  else none

/-- Tells the lanes of a route what its budget has free; without a route nothing is missing. -/
def refreshRouteEligibility (admissionClass : AdmissionClass) (route : Option Route) :
    GitAdmissionScheduler :=
  match route with
  | none =>
    scheduler.setQueue
      (scheduler.queue.updateRouteEligibility scheduler.waiters admissionClass none true true)
  | some name =>
    let key := BudgetKey.ofRoute admissionClass name
    let ensured := scheduler.ensureBudget key
    let budget := scheduler.budgetOf key
    ensured.setQueue
      (ensured.queue.updateRouteEligibility ensured.waiters admissionClass (some name)
        (budget.hasFree .base) (budget.hasFree .headroom))

def pruneRouteBudget (key : BudgetKey) : GitAdmissionScheduler :=
  match key, scheduler.budgets key with
  | .ofRoute _ _, some budget =>
    if budget.isUnused && !scheduler.queue.hasBudget key then scheduler.setBudget key none
    else scheduler
  | _, _ => scheduler

def pruneRouteBudgets (keys : List BudgetKey) : GitAdmissionScheduler :=
  keys.foldl pruneRouteBudget scheduler

def returnSlot (id : WaiterId) (slotKind : AdmissionSlotKind) : GitAdmissionScheduler :=
  let waiter := scheduler.waiters id
  let counted := scheduler.setWaiter id { waiter with returns := waiter.returns + 1 }
  ((counted.giveBackSlots slotKind waiter.budgetKeys).refreshRouteEligibility
    waiter.admissionClass waiter.route).pruneRouteBudgets waiter.budgetKeys

/-- The end of an abort: a waiter still queued leaves the queue, and the promise is rejected. -/
def rejectWaiter (id : WaiterId) : GitAdmissionScheduler :=
  let waiter := scheduler.waiters id
  let settled := scheduler.setWaiter id { waiter with state := .settled }
  let left :=
    if waiter.state = .queued then
      (settled.setQueue (settled.queue.dequeue settled.waiters id)).pruneRouteBudgets
        waiter.budgetKeys
    else settled
  left.settle id .rejected

def signalAborted (id : WaiterId) : Bool :=
  ((scheduler.waiters id).signal.map scheduler.aborted).getD false

/-- Picks the waiter to grant next, and aborts those whose signal was aborted on the way.  A
candidate is queued, so its abort gives no slot back. -/
def nextFitting (admissionClass : AdmissionClass) (now : ℤ) (allowBase allowHeadroom : Bool) :
    ℕ → GitAdmissionScheduler → GitAdmissionScheduler × Option WaiterQueue.SelectedWaiter
  | 0, scheduler => (scheduler, none)
  | fuel + 1, scheduler =>
    let (queue, candidates) := scheduler.queue.fittingCandidates scheduler.waiters
      admissionClass allowBase allowHeadroom
    let peeked := scheduler.setQueue queue
    match WaiterQueue.firstSelected (scheduler.effectiveTier now) candidates with
    | none => (peeked, none)
    | some selected =>
      if peeked.signalAborted selected.waiter then
        nextFitting admissionClass now allowBase allowHeadroom fuel
          (peeked.rejectWaiter selected.waiter)
      else (peeked, some selected)

def grant (id : WaiterId) (slotKind : AdmissionSlotKind) (now : ℤ) : GitAdmissionScheduler :=
  let waiter := scheduler.waiters id
  let granted := scheduler.setWaiter id
    { waiter with state := .granted, slotKind := some slotKind }
  let taken := (granted.takeSlots slotKind waiter.budgetKeys).refreshRouteEligibility
    waiter.admissionClass waiter.route
  (taken.setQueue (taken.queue.dequeue taken.waiters id)).queueMicrotask id
    (max 0 (now - waiter.enqueuedAt))

/-- Grants slots while a waiter fits; the clock is read once a round. -/
def drain (admissionClass : AdmissionClass) (clock : ℕ → ℤ) :
    ℕ → GitAdmissionScheduler → GitAdmissionScheduler
  | 0, scheduler => scheduler
  | fuel + 1, scheduler =>
    let ensured := scheduler.ensureBudget (.ofClass admissionClass)
    let globalBudget := scheduler.budgetOf (.ofClass admissionClass)
    match nextFitting admissionClass (clock fuel) (globalBudget.hasFree .base)
        (globalBudget.hasFree .headroom) (ensured.queue.totalCount + 1) ensured with
    | (passed, none) => passed
    | (passed, some selected) =>
      drain admissionClass clock fuel
        (passed.grant selected.waiter selected.slotKind (clock fuel))

def drainAll (admissionClass : AdmissionClass) (clock : ℕ → ℤ) : GitAdmissionScheduler :=
  drain admissionClass clock (scheduler.queue.totalCount + 1) scheduler

def enqueueWaiter (request : GitAdmissionRequest) (now : ℤ) : GitAdmissionScheduler :=
  let waiter := newWaiter request now
  let id := scheduler.nextWaiterId
  let added : GitAdmissionScheduler :=
    { (scheduler.ensureBudgets waiter.budgetKeys).setWaiter id waiter with nextWaiterId := id + 1 }
  (added.setQueue (added.queue.enqueue added.waiters id)).refreshRouteEligibility
    waiter.admissionClass waiter.route

/-- A request whose signal is aborted is turned away before it becomes a waiter. -/
def acquire (request : GitAdmissionRequest) (now : ℤ) (clock : ℕ → ℤ) : GitAdmissionScheduler :=
  if (request.signal.map scheduler.aborted).getD false then scheduler
  else
    let queued := scheduler.enqueueWaiter request now
    if (queued.slotKindFor (newWaiter request now)).isSome then
      queued.drainAll request.admissionClass clock
    else queued

def abort (id : WaiterId) (clock : ℕ → ℤ) : GitAdmissionScheduler :=
  let waiter := scheduler.waiters id
  match waiter.state, waiter.slotKind with
  | .settled, _ => scheduler
  | .granted, some slotKind =>
    ((scheduler.returnSlot id slotKind).drainAll waiter.admissionClass clock).rejectWaiter id
  | _, _ => scheduler.rejectWaiter id

/-- The release function the promise was resolved with; called again it does nothing. -/
def release (id : WaiterId) (clock : ℕ → ℤ) : GitAdmissionScheduler :=
  let waiter := scheduler.waiters id
  match waiter.slotKind with
  | none => scheduler
  | some slotKind =>
    if waiter.delivered && !waiter.released then
      ((scheduler.setWaiter id { waiter with released := true }).returnSlot id
        slotKind).drainAll waiter.admissionClass clock
    else scheduler

def deliver (id : WaiterId) (queueWaitMs : ℤ) : GitAdmissionScheduler :=
  let waiter := scheduler.waiters id
  if waiter.state = .granted then
    (scheduler.setWaiter id { waiter with state := .settled, delivered := true }).settle id
      (.resolved queueWaitMs)
  else scheduler

def runMicrotask (index : ℕ) : GitAdmissionScheduler :=
  match scheduler.microtasks[index]? with
  | none => scheduler
  | some (id, queueWaitMs) =>
    { scheduler with microtasks := scheduler.microtasks.eraseIdx index }.deliver id queueWaitMs

end GitAdmissionScheduler

/-- One thing that happens to the scheduler.  A signal is aborted and its listeners are run in
separate steps, so that anything may come between. -/
inductive Action
  | acquire (request : GitAdmissionRequest) (now : ℤ) (clock : ℕ → ℤ)
  | abortSignal (signal : SignalId)
  | abort (id : WaiterId) (clock : ℕ → ℤ)
  | release (id : WaiterId) (clock : ℕ → ℤ)
  | microtask (index : ℕ)

namespace GitAdmissionScheduler

def step (scheduler : GitAdmissionScheduler) : Action → GitAdmissionScheduler
  | .acquire request now clock => scheduler.acquire request now clock
  | .abortSignal signal =>
    { scheduler with aborted := Function.update scheduler.aborted signal true }
  | .abort id clock =>
    if id < scheduler.nextWaiterId then scheduler.abort id clock else scheduler
  | .release id clock =>
    if id < scheduler.nextWaiterId then scheduler.release id clock else scheduler
  | .microtask index => scheduler.runMicrotask index

def run (scheduler : GitAdmissionScheduler) (actions : List Action) : GitAdmissionScheduler :=
  actions.foldl step scheduler

/-- No waiter was made yet; the one stored under the ids to come is never read. -/
def initial (config : AdmissionSchedulerConfig) : GitAdmissionScheduler :=
  { config
    budgets := fun _ => none
    waiters := fun _ => ⟨.status, .general, none, 0, none, .settled, none, false, false, 0⟩
    queue := emptyQueue
    nextWaiterId := 0
    aborted := fun _ => false
    microtasks := []
    outcomes := [] }

end GitAdmissionScheduler

end Wakii.GitAdmission
