import Wakii.Git.SlotAccounting

/-!
# What a grant, an abort and a release keep

Each of them moves one waiter on.  The counts stay right, the lanes stay in
order and the promises of the other waiters stay as they were.
-/

namespace Wakii.GitAdmission

open WaiterQueue (isQueued LanesOk HeapsOk EligibleOk EligibleBut Leaving)
open Function List GitAdmissionScheduler

section Statements

def outcomesOf (outcomes : List (WaiterId × Outcome)) (id : WaiterId) : List (WaiterId × Outcome) :=
  outcomes.filter fun entry => entry.1 == id

/-- A waiter that is not settled has no outcome and has given nothing back; a settled one has one
outcome, and a slot it was granted but never told of is given back. -/
def PromiseOk (id : WaiterId) (waiter : AdmissionWaiter) (outcomes : List (WaiterId × Outcome)) :
    Prop :=
  match waiter.state with
  | .queued => waiter.slotKind = none ∧ waiter.delivered = false ∧ waiter.released = false ∧
      waiter.returns = 0 ∧ outcomes = []
  | .granted => waiter.slotKind.isSome = true ∧ waiter.delivered = false ∧
      waiter.released = false ∧ waiter.returns = 0 ∧ outcomes = []
  | .settled =>
    (waiter.delivered = true ∧ waiter.slotKind.isSome = true ∧
      waiter.returns = (if waiter.released then 1 else 0) ∧
      ∃ queueWaitMs, outcomes = [(id, .resolved queueWaitMs)]) ∨
    (waiter.delivered = false ∧ waiter.returns = (if waiter.slotKind.isSome then 1 else 0) ∧
      outcomes = [(id, .rejected)])

/-- What holds of the scheduler, the promise of at most one waiter apart. -/
structure Core (scheduler : GitAdmissionScheduler) (exempt : Option WaiterId) : Prop where
  lanes : LanesOk scheduler.waiters scheduler.nextWaiterId (isQueued scheduler.waiters)
    scheduler.queue
  heaps : HeapsOk scheduler.waiters scheduler.queue none
  eligible : EligibleOk scheduler.queue scheduler.elig
  budgets : BudgetsOk scheduler.config scheduler.budgets scheduler.waiters scheduler.nextWaiterId
  routes : RoutesBut scheduler.config scheduler.budgets scheduler.queue.countsByBudget []
  promises : ∀ id < scheduler.nextWaiterId, exempt ≠ some id →
    PromiseOk id (scheduler.waiters id) (outcomesOf scheduler.outcomes id)
  exempt_away : ∀ id, exempt = some id → isQueued scheduler.waiters id = false
  outcomes_below : ∀ entry ∈ scheduler.outcomes, entry.1 < scheduler.nextWaiterId
  microtasks_below : ∀ entry ∈ scheduler.microtasks, entry.1 < scheduler.nextWaiterId

def BudgetKey.admissionClass : BudgetKey → AdmissionClass
  | .ofClass admissionClass => admissionClass
  | .ofRoute admissionClass _ => admissionClass

def NoFit (scheduler : GitAdmissionScheduler) (admissionClass : AdmissionClass) : Prop :=
  ∀ id < scheduler.nextWaiterId, isQueued scheduler.waiters id = true →
    (scheduler.waiters id).admissionClass = admissionClass →
      scheduler.fits (scheduler.waiters id) .base = false ∧
        ((scheduler.waiters id).tier = .interactive →
          scheduler.fits (scheduler.waiters id) .headroom = false)

/-- The step moves queued waiters on and leaves the others alone. -/
structure Frame (before after : GitAdmissionScheduler) : Prop where
  config : after.config = before.config
  bound : after.nextWaiterId = before.nextWaiterId
  away : ∀ id, isQueued before.waiters id = false → after.waiters id = before.waiters id ∧
    outcomesOf after.outcomes id = outcomesOf before.outcomes id
  still : ∀ id, isQueued after.waiters id = true → after.waiters id = before.waiters id

structure SamePlace (old new : AdmissionWaiter) : Prop where
  admissionClass : new.admissionClass = old.admissionClass
  tier : new.tier = old.tier
  route : new.route = old.route
  signal : new.signal = old.signal

/-- Who is granted is told by a microtask, and nobody is turned away but for his signal, and
the waiter of an abort. -/
structure Keeps (turned : Option WaiterId) (before after : GitAdmissionScheduler) : Prop where
  place : ∀ id, SamePlace (before.waiters id) (after.waiters id)
  aborted : after.aborted = before.aborted
  microtasks : before.microtasks ⊆ after.microtasks
  granted : ∀ id, (after.waiters id).state = .granted → (before.waiters id).state = .granted ∨
    ∃ queueWaitMs, (id, queueWaitMs) ∈ after.microtasks
  outcomes : ∀ id outcome, (id, outcome) ∈ after.outcomes → (id, outcome) ∈ before.outcomes ∨
    outcome = .rejected ∧ (before.signalAborted id = true ∨ turned = some id)

end Statements

section Frames

variable {before middle after scheduler : GitAdmissionScheduler} {exempt : Option WaiterId}

theorem isQueued_congr {left right : WaiterId → AdmissionWaiter} {id : WaiterId}
    (hsame : left id = right id) : isQueued left id = isQueued right id := by
  rw [isQueued, isQueued, hsame]

theorem Frame.trans (hfirst : Frame before middle) (hsecond : Frame middle after) :
    Frame before after := by
  refine ⟨hsecond.config.trans hfirst.config, hsecond.bound.trans hfirst.bound, ?_, ?_⟩
  · intro id haway
    obtain ⟨hwaiter, houtcomes⟩ := hfirst.away id haway
    obtain ⟨hwaiter', houtcomes'⟩ := hsecond.away id ((isQueued_congr hwaiter).trans haway)
    exact ⟨hwaiter'.trans hwaiter, houtcomes'.trans houtcomes⟩
  · intro id hqueued
    have hlater := hsecond.still id hqueued
    have hmiddle : isQueued middle.waiters id = true := (isQueued_congr hlater).symm.trans hqueued
    exact hlater.trans (hfirst.still id hmiddle)

variable {turned : Option WaiterId}

theorem Keeps.of_same (hwaiters : after.waiters = before.waiters)
    (haborted : after.aborted = before.aborted) (hmicrotasks : after.microtasks = before.microtasks)
    (houtcomes : after.outcomes = before.outcomes) : Keeps turned before after := by
  refine ⟨fun id => ?_, haborted, hmicrotasks ▸ List.Subset.refl _, fun id => ?_,
    fun id outcome => ?_⟩
  · rw [hwaiters]
    exact ⟨rfl, rfl, rfl, rfl⟩
  · rw [hwaiters]
    exact .inl
  · rw [houtcomes]
    exact .inl

theorem Keeps.signalAborted (hkeeps : Keeps turned before after) (id : WaiterId) :
    after.signalAborted id = before.signalAborted id := by
  rw [GitAdmissionScheduler.signalAborted, (hkeeps.place id).signal, hkeeps.aborted]
  rfl

theorem Keeps.trans (hfirst : Keeps turned before middle) (hsecond : Keeps turned middle after) :
    Keeps turned before after := by
  refine ⟨fun id => ?_, hsecond.aborted.trans hfirst.aborted,
    fun _ hentry => hsecond.microtasks (hfirst.microtasks hentry), fun id hgranted => ?_,
    fun id outcome hentry => ?_⟩
  · have hplace := hfirst.place id
    have hplace' := hsecond.place id
    exact ⟨hplace'.admissionClass.trans hplace.admissionClass, hplace'.tier.trans hplace.tier,
      hplace'.route.trans hplace.route, hplace'.signal.trans hplace.signal⟩
  · obtain hmiddle | hlater := hsecond.granted id hgranted
    · obtain hbefore | ⟨queueWaitMs, hthen⟩ := hfirst.granted id hmiddle
      · exact .inl hbefore
      · exact .inr ⟨queueWaitMs, hsecond.microtasks hthen⟩
    · exact .inr hlater
  · obtain hmiddle | hlater := hsecond.outcomes id outcome hentry
    · exact hfirst.outcomes id outcome hmiddle
    · rw [hfirst.signalAborted] at hlater
      exact .inr hlater

/-- Who is turned away may have had his signal aborted. -/
theorem Keeps.mono {other : Option WaiterId} (hkeeps : Keeps turned before after)
    (hturned : ∀ id, turned = some id → before.signalAborted id = true ∨ other = some id) :
    Keeps other before after :=
  { hkeeps with
    outcomes := fun id outcome hentry => (hkeeps.outcomes id outcome hentry).imp_right
      fun hrejected => hrejected.imp_right fun hwhy => hwhy.elim .inl (hturned id) }

theorem fits_congr {left right : GitAdmissionScheduler} {waiter : AdmissionWaiter}
    (hbudgets : ∀ key ∈ waiter.budgetKeys, right.budgetOf key = left.budgetOf key)
    (slotKind : AdmissionSlotKind) : right.fits waiter slotKind = left.fits waiter slotKind := by
  unfold fits
  rw [Bool.eq_iff_iff, all_eq_true, all_eq_true]
  refine forall_congr' fun key => ?_
  refine ⟨fun h hkey => ?_, fun h hkey => ?_⟩
  · rw [← hbudgets key hkey]
    exact h hkey
  · rw [hbudgets key hkey]
    exact h hkey

theorem budgetKeys_class {waiter : AdmissionWaiter} {key : BudgetKey}
    (hkey : key ∈ waiter.budgetKeys) : key.admissionClass = waiter.admissionClass := by
  rw [AdmissionWaiter.budgetKeys] at hkey
  cases mem_cons.mp hkey with
  | inl hfirst =>
    rw [hfirst]
    rfl
  | inr hroute =>
    obtain ⟨route, -, rfl⟩ := mem_map.mp hroute
    rfl

/-- Where the budgets of a class stay as they are, nobody of the class comes to fit. -/
theorem NoFit.keep {admissionClass : AdmissionClass} (hnone : NoFit before admissionClass)
    (hbelow : after.nextWaiterId = before.nextWaiterId)
    (hstill : ∀ id, isQueued after.waiters id = true → after.waiters id = before.waiters id)
    (hbudgets : ∀ key, key.admissionClass = admissionClass →
      after.budgetOf key = before.budgetOf key) : NoFit after admissionClass := by
  intro id hbound hqueued hclass
  have hsameWaiter := hstill id hqueued
  rw [hsameWaiter] at hclass ⊢
  have hbefore : isQueued before.waiters id = true :=
    (isQueued_congr hsameWaiter).symm.trans hqueued
  obtain ⟨hbase, hheadroom⟩ := hnone id (hbelow ▸ hbound) hbefore hclass
  have hsame : ∀ slotKind, after.fits (before.waiters id) slotKind =
      before.fits (before.waiters id) slotKind :=
    fits_congr fun key hkey => hbudgets key ((budgetKeys_class hkey).trans hclass)
  rw [hsame, hsame]
  exact ⟨hbase, hheadroom⟩

end Frames

section Waiters

variable {waiters : WaiterId → AdmissionWaiter} {bound : ℕ} {counted : WaiterId → Bool}
  {queue : WaiterQueue} {id : WaiterId} {waiter : AdmissionWaiter}

theorem SamePlace.budgetKeys {old new : AdmissionWaiter} (h : SamePlace old new) :
    new.budgetKeys = old.budgetKeys := by
  rw [AdmissionWaiter.budgetKeys, AdmissionWaiter.budgetKeys, h.admissionClass, h.route]

theorem SamePlace.update (hplace : SamePlace (waiters id) waiter) (other : WaiterId) :
    SamePlace (waiters other) (Function.update waiters id waiter other) := by
  by_cases heq : other = id
  · rw [heq, update_self]
    exact hplace
  · rw [update_of_ne heq]
    exact ⟨rfl, rfl, rfl, rfl⟩

theorem lanes_update (hlanes : LanesOk waiters bound counted queue)
    (hplace : SamePlace (waiters id) waiter) :
    LanesOk (Function.update waiters id waiter) bound counted queue :=
  hlanes.congr (fun other _ => (hplace.update other).admissionClass)
    (fun other _ => (hplace.update other).tier) (fun other _ => (hplace.update other).route)
    fun _ _ => rfl

theorem heaps_update (hheaps : HeapsOk waiters queue none)
    (hstate : waiter.state = .queued → (waiters id).state = .queued) :
    HeapsOk (Function.update waiters id waiter) queue none := by
  refine ⟨hheaps.base, hheaps.headroom, fun admissionClass tier lane hlane hexempt => ?_⟩
  intro other hhead hqueued
  refine hheaps.published admissionClass tier lane hlane hexempt other hhead ?_
  by_cases heq : other = id
  · rw [isQueued, heq, update_self, beq_iff_eq] at hqueued
    rw [isQueued, heq, hstate hqueued]
    rfl
  · rwa [isQueued, update_of_ne heq] at hqueued

theorem leaving_update (hbound : id < bound) (hqueued : isQueued waiters id = true)
    (hstate : waiter.state ≠ .queued) :
    Leaving (Function.update waiters id waiter) bound (isQueued waiters) id := by
  refine ⟨hbound, hqueued, ?_, fun other hne => ?_⟩
  · rw [isQueued, update_self]
    simpa using hstate
  · rw [isQueued, isQueued, update_of_ne hne]

variable {other : WaiterId}

theorem isQueued_update_of_ne (hne : other ≠ id) :
    isQueued (Function.update waiters id waiter) other = isQueued waiters other := by
  rw [isQueued, isQueued, update_of_ne hne]

theorem holds_update_of_ne (hne : other ≠ id) (key : BudgetKey) (slotKind : AdmissionSlotKind) :
    holds (Function.update waiters id waiter) key slotKind other =
      holds waiters key slotKind other := by
  rw [holds, holds, update_of_ne hne]

theorem holds_update_self (key : BudgetKey) (slotKind : AdmissionSlotKind) :
    holds (Function.update waiters id waiter) key slotKind id =
      (waiter.slotKind == some slotKind && waiter.returns == 0 &&
        decide (key ∈ waiter.budgetKeys)) := by
  rw [holds, update_self]

theorem budgets_update {config : AdmissionSchedulerConfig}
    {budgets : BudgetKey → Option AdmissionBudget}
    (hbudgets : BudgetsOk config budgets waiters bound)
    (hholds : ∀ key slotKind, holds (Function.update waiters id waiter) key slotKind id =
      holds waiters key slotKind id) :
    BudgetsOk config budgets (Function.update waiters id waiter) bound := by
  refine ⟨fun key slotKind => ?_, hbudgets.capacity, hbudgets.bounded⟩
  rw [hbudgets.used key slotKind]
  refine CountBelow.count_congr fun other _ => ?_
  by_cases heq : other = id
  · rw [heq, hholds]
  · rw [holds_update_of_ne heq]

theorem outcomesOf_append {outcomes : List (WaiterId × Outcome)} {outcome : Outcome} :
    outcomesOf (outcomes ++ [(id, outcome)]) other =
      outcomesOf outcomes other ++ if id = other then [(id, outcome)] else [] := by
  rw [outcomesOf, filter_append]
  congr 1
  by_cases heq : id = other
  · simp [heq]
  · simp [heq]

theorem isQueued_iff : isQueued waiters id = true ↔ (waiters id).state = .queued := by
  rw [isQueued, beq_iff_eq]

theorem promises_update {outcomes more : List (WaiterId × Outcome)} {exempt : Option WaiterId}
    (hpromises : ∀ other < bound, exempt ≠ some other →
      PromiseOk other (waiters other) (outcomesOf outcomes other))
    (hothers : ∀ other, other ≠ id → outcomesOf more other = outcomesOf outcomes other)
    (hself : id < bound → exempt ≠ some id → PromiseOk id waiter (outcomesOf more id)) :
    ∀ other < bound, exempt ≠ some other →
      PromiseOk other (Function.update waiters id waiter other) (outcomesOf more other) := by
  intro other hother hexempt
  by_cases heq : other = id
  · subst heq
    rw [update_self]
    exact hself hother hexempt
  · rw [update_of_ne heq, hothers other heq]
    exact hpromises other hother hexempt

end Waiters

section Moves

variable {queue : WaiterQueue} {left right : GitAdmissionScheduler}

theorem eligible_congr (heligible : EligibleOk queue left.elig)
    (hbudgets : ∀ key, left.budgetOf key = right.budgetOf key) : EligibleOk queue right.elig := by
  intro admissionClass tier lane hlane slotKind
  rw [heligible admissionClass tier lane hlane slotKind]
  cases lane.route with
  | none => rfl
  | some name => exact congrArg (AdmissionBudget.hasFree · slotKind) (hbudgets _)

variable {scheduler : GitAdmissionScheduler} {exempt : Option WaiterId} {id : WaiterId}

variable {waiter : AdmissionWaiter}

theorem frame_moved {after : GitAdmissionScheduler}
    (hqueued : isQueued scheduler.waiters id = true) (hstate : waiter.state ≠ .queued)
    (hconfig : after.config = scheduler.config)
    (hbound : after.nextWaiterId = scheduler.nextWaiterId)
    (hwaiters : after.waiters = Function.update scheduler.waiters id waiter)
    (houtcomes : ∀ other, other ≠ id →
      outcomesOf after.outcomes other = outcomesOf scheduler.outcomes other) :
    Frame scheduler after := by
  refine ⟨hconfig, hbound, fun other haway => ?_, fun other hother => ?_⟩
  · have hne : other ≠ id := by
      intro heq
      rw [heq, hqueued] at haway
      cases haway
    rw [hwaiters]
    exact ⟨update_of_ne hne _ _, houtcomes other hne⟩
  · rw [hwaiters] at hother ⊢
    have hne : other ≠ id := by
      intro heq
      rw [heq, isQueued, update_self, beq_iff_eq] at hother
      exact hstate hother
    exact update_of_ne hne _ _

theorem keeps_update {after : GitAdmissionScheduler} {turned : Option WaiterId}
    (hwaiters : after.waiters = Function.update scheduler.waiters id waiter)
    (hplace : SamePlace (scheduler.waiters id) waiter)
    (haborted : after.aborted = scheduler.aborted)
    (hmicrotasks : scheduler.microtasks ⊆ after.microtasks)
    (hgranted : waiter.state = .granted → (scheduler.waiters id).state = .granted ∨
      ∃ queueWaitMs, (id, queueWaitMs) ∈ after.microtasks)
    (houtcomes : ∀ other outcome, (other, outcome) ∈ after.outcomes →
      (other, outcome) ∈ scheduler.outcomes ∨
        outcome = .rejected ∧ (scheduler.signalAborted other = true ∨ turned = some other)) :
    Keeps turned scheduler after := by
  refine ⟨fun other => ?_, haborted, hmicrotasks, fun other hother => ?_, houtcomes⟩
  · rw [hwaiters]
    exact hplace.update other
  · rw [hwaiters] at hother
    by_cases heq : other = id
    · rw [heq] at hother ⊢
      rw [update_self] at hother
      exact hgranted hother
    · rw [update_of_ne heq] at hother
      exact .inl hother

/-- The queue after a queued waiter moved on and left it. -/
theorem leave_ok (hbound : id < scheduler.nextWaiterId)
    (hqueued : isQueued scheduler.waiters id = true) {waiter : AdmissionWaiter}
    (hstate : waiter.state ≠ .queued) {queue : WaiterQueue}
      {free : AdmissionClass → Option Route → AdmissionSlotKind → Bool}
    (hlanes : LanesOk (Function.update scheduler.waiters id waiter) scheduler.nextWaiterId
      (isQueued scheduler.waiters) queue)
    (hheaps : HeapsOk (Function.update scheduler.waiters id waiter) queue none)
    (heligible : EligibleOk queue free) :
    let next := queue.dequeue (Function.update scheduler.waiters id waiter) id
    LanesOk (Function.update scheduler.waiters id waiter) scheduler.nextWaiterId
        (isQueued (Function.update scheduler.waiters id waiter)) next ∧
      HeapsOk (Function.update scheduler.waiters id waiter) next none ∧ EligibleOk next free ∧
      next.totalCount + 1 = queue.totalCount ∧
      ∀ key, key ∉ waiter.budgetKeys → next.countsByBudget key = queue.countsByBudget key := by
  intro next
  have hleaving := leaving_update hbound hqueued hstate
  obtain ⟨hl, hh, he⟩ := WaiterQueue.dequeue_ok hlanes hheaps heligible hleaving
  refine ⟨hl, hh, he, ?_, fun key hkey => ?_⟩
  · have hloss := CountBelow.count_loss hleaving.others hleaving.below hleaving.counts
      hleaving.not_queued
    rw [hl.total, hlanes.total]
    exact hloss
  · rw [hl.counts key, hlanes.counts key]
    refine CountBelow.count_congr fun other _ => ?_
    by_cases heq : other = id
    · rw [heq, update_self]
      simp [hkey]
    · rw [isQueued_update_of_ne heq]

/-- The rejection of a queued waiter takes it out of the queue and touches no budget. -/
theorem Core.rejectQueued (hcore : Core scheduler exempt) (hbound : id < scheduler.nextWaiterId)
    (hqueued : isQueued scheduler.waiters id = true) :
    Core (scheduler.rejectWaiter id) exempt ∧ Frame scheduler (scheduler.rejectWaiter id) ∧
      (∀ key, (scheduler.rejectWaiter id).budgetOf key = scheduler.budgetOf key) ∧
      (scheduler.rejectWaiter id).queue.totalCount + 1 = scheduler.queue.totalCount ∧
      Keeps (some id) scheduler (scheduler.rejectWaiter id) := by
  have hstate := isQueued_iff.mp hqueued
  have hexempt : exempt ≠ some id := by
    intro heq
    rw [hcore.exempt_away id heq] at hqueued
    cases hqueued
  have hpromise := hcore.promises id hbound hexempt
  rw [PromiseOk, hstate] at hpromise
  obtain ⟨hslot, hdelivered, hreleased, hreturns, hnone⟩ := hpromise
  generalize hwaiter : ({ scheduler.waiters id with state := .settled } : AdmissionWaiter) = waiter
  have hplace : SamePlace (scheduler.waiters id) waiter := by
    rw [← hwaiter]
    exact ⟨rfl, rfl, rfl, rfl⟩
  have hsettled : waiter.state ≠ .queued := by
    rw [← hwaiter]
    exact fun h => by cases h
  obtain ⟨hl, hh, he, htotal, hcounts⟩ := leave_ok hbound hqueued hsettled
    (lanes_update hcore.lanes hplace)
    (heaps_update hcore.heaps fun h => absurd h hsettled) hcore.eligible
  have hbudgets : BudgetsOk scheduler.config scheduler.budgets
      (Function.update scheduler.waiters id waiter) scheduler.nextWaiterId := by
    refine budgets_update hcore.budgets fun key slotKind => ?_
    rw [holds_update_self, holds, ← hwaiter]
    rfl
  have hroutes : RoutesBut scheduler.config scheduler.budgets
      (scheduler.queue.dequeue (Function.update scheduler.waiters id waiter) id).countsByBudget
      (scheduler.waiters id).budgetKeys := by
    intro admissionClass route hkey hsome
    rw [← hplace.budgetKeys] at hkey
    rw [hcounts _ hkey]
    exact hcore.routes admissionClass route not_mem_nil hsome
  obtain ⟨budgets, hpruned, hvalues, hnoRoute⟩ := @pruneRouteBudgets_ok
    ((scheduler.setWaiter id waiter).setQueue
      (scheduler.queue.dequeue (Function.update scheduler.waiters id waiter) id))
    (Function.update scheduler.waiters id waiter) scheduler.nextWaiterId
    (scheduler.waiters id).budgetKeys hbudgets hroutes
  have hresult : scheduler.rejectWaiter id =
      { (scheduler.setWaiter id waiter).setQueue
          (scheduler.queue.dequeue (Function.update scheduler.waiters id waiter) id) with
        budgets
        outcomes := scheduler.outcomes ++ [(id, .rejected)] } := by
    unfold rejectWaiter
    dsimp only
    rw [if_pos hstate, hwaiter]
    change (pruneRouteBudgets ((scheduler.setWaiter id waiter).setQueue
      (scheduler.queue.dequeue (Function.update scheduler.waiters id waiter) id))
      (scheduler.waiters id).budgetKeys).settle id .rejected = _
    rw [hpruned]
    rfl
  rw [hresult]
  refine ⟨⟨hl, hh, ?_, hbudgets.congr hvalues, hnoRoute, ?_, ?_, ?_, hcore.microtasks_below⟩,
    frame_moved hqueued hsettled rfl rfl rfl fun other hne => ?_, hvalues, htotal,
    keeps_update rfl hplace rfl (Subset.refl _) (fun h => ?_) fun other outcome hentry => ?_⟩
  · exact eligible_congr he fun key => (hvalues key).symm
  · refine promises_update hcore.promises (fun other hne => ?_) fun _ _ => ?_
    · rw [outcomesOf_append, if_neg (Ne.symm hne), append_nil]
    · rw [outcomesOf_append, if_pos rfl, hnone, PromiseOk, ← hwaiter]
      exact .inr ⟨hdelivered, by simp [hreturns, hslot], rfl⟩
  · intro other heq
    have hne : other ≠ id := fun h => hexempt (h ▸ heq)
    exact (isQueued_update_of_ne hne).trans (hcore.exempt_away other heq)
  · intro entry hentry
    cases mem_append.mp hentry with
    | inl hold => exact hcore.outcomes_below entry hold
    | inr hnew =>
      rw [mem_singleton.mp hnew]
      exact hbound
  · rw [outcomesOf_append, if_neg (Ne.symm hne), append_nil]
  · rw [← hwaiter] at h
    cases h
  · refine (mem_append.mp hentry).imp_right fun hnew => ?_
    cases mem_singleton.mp hnew
    exact ⟨rfl, .inr rfl⟩

/-- A change of the budgets of one waiter leaves the lanes of the other routes right. -/
theorem eligibleBut_of (heligible : EligibleOk queue left.elig)
    (hbudgets : ∀ key, key ∉ waiter.budgetKeys → right.budgetOf key = left.budgetOf key) :
    EligibleBut queue right.elig waiter.admissionClass waiter.route TIERS := by
  have hallTiers : ∀ tier, tier ∈ TIERS := by
    intro tier
    cases tier <;> decide
  intro admissionClass tier lane hlane hother slotKind
  rw [heligible admissionClass tier lane hlane slotKind]
  cases hroute : lane.route with
  | none => rfl
  | some name =>
    refine (congrArg (AdmissionBudget.hasFree · slotKind) (hbudgets _ fun hkey => ?_)).symm
    rw [AdmissionWaiter.budgetKeys] at hkey
    obtain ⟨route, hmem, heq⟩ := mem_map.mp ((mem_cons.mp hkey).resolve_left (by rintro ⟨⟩))
    cases heq
    refine hother rfl (hallTiers tier) ?_
    rw [hroute]
    exact (Option.mem_toList.mp hmem).symm

variable {slotKind : AdmissionSlotKind}

theorem hasFree_of_fits (hfits : scheduler.fits waiter slotKind = true) {key : BudgetKey}
    (hkey : key ∈ waiter.budgetKeys) :
    (scheduler.budgetOf key).used slotKind < (scheduler.budgetOf key).capacity slotKind := by
  have hfree := all_eq_true.mp hfits key hkey
  rw [AdmissionBudget.hasFree] at hfree
  exact of_decide_eq_true hfree

theorem route_key_mem {key : BudgetKey}
    (hkey : key ∈ waiter.route.toList.map (.ofRoute waiter.admissionClass)) :
    key ∈ waiter.budgetKeys := by
  rw [AdmissionWaiter.budgetKeys]
  exact mem_cons_of_mem _ hkey

variable {waiters : WaiterId → AdmissionWaiter} {config : AdmissionSchedulerConfig}

/-- The budgets after a queued waiter took the slots it fits. -/
theorem BudgetsOk.take {budgets taken : BudgetKey → Option AdmissionBudget} {bound : ℕ}
    (hbudgets : BudgetsOk config budgets waiters bound) (hbound : id < bound)
    (hbefore : (waiters id).slotKind = none) (hslot : waiter.slotKind = some slotKind)
    (hreturns : waiter.returns = 0)
    (hfree : ∀ key ∈ waiter.budgetKeys, (budgetIn config budgets key).used slotKind <
      (budgetIn config budgets key).capacity slotKind) (htaken : ∀ key, budgetIn config taken key =
      if key ∈ waiter.budgetKeys then (budgetIn config budgets key).take slotKind
      else budgetIn config budgets key) :
    BudgetsOk config taken (Function.update waiters id waiter) bound := by
  have hnot : ∀ key other, holds waiters key other id = false := by
    intro key other
    rw [holds, hbefore]
    rfl
  refine ⟨fun key other => ?_, fun key other => ?_, fun key other => ?_⟩
  · rw [htaken key]
    have hothers : ∀ index, index ≠ id → holds waiters key other index =
        holds (Function.update waiters id waiter) key other index :=
      fun index hne => (holds_update_of_ne hne key other).symm
    have hself := @holds_update_self waiters id waiter key other
    rw [hslot, hreturns] at hself
    by_cases hkey : key ∈ waiter.budgetKeys
    · rw [if_pos hkey, used_take, hbudgets.used key other]
      by_cases hkind : other = slotKind
      · rw [if_pos hkind]
        refine (CountBelow.count_gain hothers hbound (hnot key other) ?_).symm
        rw [hself, hkind]
        simp [hkey]
      · rw [if_neg hkind, Nat.add_zero]
        refine CountBelow.count_congr fun index _ => ?_
        by_cases heq : index = id
        · rw [heq, hnot, hself]
          simp [Ne.symm hkind]
        · exact hothers index heq
    · rw [if_neg hkey, hbudgets.used key other]
      refine CountBelow.count_congr fun index _ => ?_
      by_cases heq : index = id
      · rw [heq, hnot, hself]
        simp [hkey]
      · exact hothers index heq
  · rw [htaken key]
    split
    · rw [capacity_take]
      exact hbudgets.capacity key other
    · exact hbudgets.capacity key other
  · rw [htaken key]
    split
    next hkey =>
      rw [used_take, capacity_take]
      split
      next hkind =>
        rw [hkind]
        exact hfree key hkey
      · exact hbudgets.bounded key other
    · exact hbudgets.bounded key other

variable {slotKind : AdmissionSlotKind}

/-- A grant takes the slots of a waiter that fits, and the waiter leaves the queue. -/
theorem Core.grant (hcore : Core scheduler exempt) (hbound : id < scheduler.nextWaiterId)
    (hqueued : isQueued scheduler.waiters id = true)
    (hfits : scheduler.fits (scheduler.waiters id) slotKind = true) (now : ℤ) :
    let next := scheduler.grant id slotKind now
    Core next exempt ∧ Frame scheduler next ∧ (∀ key, key ∉ (scheduler.waiters id).budgetKeys →
        next.budgetOf key = scheduler.budgetOf key) ∧
      next.queue.totalCount + 1 = scheduler.queue.totalCount ∧ Keeps none scheduler next := by
  intro next
  have hstate := isQueued_iff.mp hqueued
  have hexempt : exempt ≠ some id := by
    intro heq
    rw [hcore.exempt_away id heq] at hqueued
    cases hqueued
  have hpromise := hcore.promises id hbound hexempt
  rw [PromiseOk, hstate] at hpromise
  obtain ⟨hslot, hdelivered, hreleased, hreturns, hnone⟩ := hpromise
  have hnext : next = scheduler.grant id slotKind now := rfl
  unfold GitAdmissionScheduler.grant at hnext
  dsimp only at hnext
  generalize hwaiter : AdmissionWaiter.mk _ _ _ _ _ .granted _ _ _ _ = waiter at hnext
  have hplace : SamePlace (scheduler.waiters id) waiter := by
    rw [← hwaiter]
    exact ⟨rfl, rfl, rfl, rfl⟩
  have hgranted : waiter.state ≠ .queued := by
    rw [← hwaiter]
    exact fun h => by cases h
  have hnewSlot : waiter.slotKind = some slotKind := by
    rw [← hwaiter]
  have hnewReturns : waiter.returns = 0 := by
    rw [← hwaiter]
    exact hreturns
  obtain ⟨budgets, htake, hvalues, hdomain⟩ := @takeSlots_ok (scheduler.setWaiter id waiter)
    slotKind (scheduler.waiters id).budgetKeys (budgetKeys_nodup _)
  have hbudgets : BudgetsOk scheduler.config budgets
      (Function.update scheduler.waiters id waiter) scheduler.nextWaiterId := by
    refine hcore.budgets.take hbound hslot hnewSlot hnewReturns (fun key hkey => ?_) fun key => ?_
    · rw [hplace.budgetKeys] at hkey
      exact hasFree_of_fits hfits hkey
    · rw [hplace.budgetKeys]
      exact hvalues key
  have hbut : EligibleBut scheduler.queue
      (GitAdmissionScheduler.elig { scheduler.setWaiter id waiter with budgets })
      (scheduler.waiters id).admissionClass (scheduler.waiters id).route TIERS := by
    refine eligibleBut_of hcore.eligible fun key hkey => ?_
    exact (hvalues key).trans (if_neg hkey)
  obtain ⟨refreshed, queue, hrefresh, hrefreshed, hrefreshedDomain, hl, hh, he, hcounts, htotal⟩ :=
    @refreshRouteEligibility_ok { scheduler.setWaiter id waiter with budgets }
      scheduler.nextWaiterId (isQueued scheduler.waiters) (scheduler.waiters id).admissionClass
      (scheduler.waiters id).route (lanes_update hcore.lanes hplace)
      (heaps_update hcore.heaps fun h => absurd h hgranted) hbut
  rw [htake, hrefresh] at hnext
  obtain ⟨hl', hh', he', htotal', hcounts'⟩ := leave_ok hbound hqueued hgranted hl hh he
  rw [hnext]
  refine ⟨⟨hl', hh', ?_, hbudgets.congr hrefreshed, ?_, ?_, ?_, hcore.outcomes_below, ?_⟩,
    frame_moved hqueued hgranted rfl rfl rfl fun _ _ => rfl, fun key hkey => ?_,
    htotal'.trans htotal, keeps_update rfl hplace rfl (subset_append_left _ _)
      (fun _ => .inr ⟨_, mem_append_right _ mem_cons_self⟩) fun _ _ => .inl⟩
  · exact eligible_congr he' fun key => (hrefreshed key).symm
  · intro admissionClass route _ hsome
    have hvalue : budgetIn scheduler.config refreshed (.ofRoute admissionClass route) =
        budgetIn scheduler.config budgets (.ofRoute admissionClass route) := hrefreshed _
    have hbefore : budgetIn scheduler.config budgets (.ofRoute admissionClass route) = _ :=
      hvalues (.ofRoute admissionClass route)
    by_cases hkey : BudgetKey.ofRoute admissionClass route ∈ (scheduler.waiters id).budgetKeys
    · refine .inl ?_
      rw [if_pos hkey] at hbefore
      change (budgetIn scheduler.config refreshed (.ofRoute admissionClass route)).isUnused = false
      rw [hvalue, hbefore]
      refine Bool.eq_false_iff.mpr fun hunused => ?_
      have hzero := isUnused_iff.mp hunused slotKind
      rw [used_take, if_pos rfl] at hzero
      exact Nat.succ_ne_zero _ hzero
    · have hold : (scheduler.budgets (.ofRoute admissionClass route)).isSome := by
        refine ((hrefreshedDomain _ hsome).resolve_right fun hmem => ?_) |>
          hdomain _ |>.resolve_right
          hkey
        exact hkey (route_key_mem hmem)
      rw [if_neg hkey] at hbefore
      have hroutes := hcore.routes admissionClass route not_mem_nil hold
      change (budgetIn scheduler.config refreshed (.ofRoute admissionClass route)).isUnused =
        false ∨
        (queue.dequeue (Function.update scheduler.waiters id waiter) id).countsByBudget
          (.ofRoute admissionClass route) ≠ 0
      rw [hvalue, hbefore, hcounts' _ (by rwa [hplace.budgetKeys]), hcounts]
      exact hroutes
  · refine promises_update hcore.promises (fun _ _ => rfl) fun _ _ => ?_
    change PromiseOk id waiter (outcomesOf scheduler.outcomes id)
    rw [hnone, PromiseOk, ← hwaiter]
    exact ⟨rfl, hdelivered, hreleased, hreturns, rfl⟩
  · intro other heq
    have hne : other ≠ id := fun h => hexempt (h ▸ heq)
    exact (isQueued_update_of_ne hne).trans (hcore.exempt_away other heq)
  · intro entry hentry
    cases mem_append.mp hentry with
    | inl hold => exact hcore.microtasks_below entry hold
    | inr hnew =>
      rw [mem_singleton.mp hnew]
      exact hbound
  · exact (hrefreshed key).trans ((hvalues key).trans (if_neg hkey))

/-- The budgets after a waiter gave back the slots it held. -/
theorem BudgetsOk.giveBack {budgets left : BudgetKey → Option AdmissionBudget} {bound : ℕ}
    (hbudgets : BudgetsOk config budgets waiters bound) (hbound : id < bound)
    (hbefore : (waiters id).slotKind = some slotKind) (hnever : (waiters id).returns = 0)
    (hkeys : waiter.budgetKeys = (waiters id).budgetKeys) (hreturned : waiter.returns ≠ 0)
    (hleft : ∀ key, budgetIn config left key =
      if key ∈ waiter.budgetKeys then (budgetIn config budgets key).giveBack slotKind
      else budgetIn config budgets key) :
    BudgetsOk config left (Function.update waiters id waiter) bound := by
  have hself : ∀ key other, holds (Function.update waiters id waiter) key other id = false := by
    intro key other
    rw [holds_update_self]
    simp [hreturned]
  have hold : ∀ key other, holds waiters key other id =
      (some slotKind == some other && decide (key ∈ waiter.budgetKeys)) := by
    intro key other
    rw [holds, hbefore, hnever, hkeys]
    simp
  refine ⟨fun key other => ?_, fun key other => ?_, fun key other => ?_⟩
  · rw [hleft key]
    have hothers : ∀ index, index ≠ id → holds waiters key other index =
        holds (Function.update waiters id waiter) key other index :=
      fun index hne => (holds_update_of_ne hne key other).symm
    by_cases hboth : key ∈ waiter.budgetKeys ∧ other = slotKind
    · obtain ⟨hkey, rfl⟩ := hboth
      have hloss := CountBelow.count_loss hothers hbound (by rw [hold]; simp [hkey])
        (hself key other)
      rw [if_pos hkey, used_giveBack, if_pos rfl, hbudgets.used key other]
      omega
    · have hsame : CountBelow.count (holds waiters key other) bound =
          CountBelow.count (holds (Function.update waiters id waiter) key other) bound := by
        refine CountBelow.count_congr fun index _ => ?_
        by_cases heq : index = id
        · rw [heq, hself, hold]
          by_cases hkey : key ∈ waiter.budgetKeys
          · have hne : slotKind ≠ other := fun h => hboth ⟨hkey, h.symm⟩
            simp [hne]
          · simp [hkey]
        · exact hothers index heq
      rw [← hsame, ← hbudgets.used key other]
      split
      next hkey =>
        rw [used_giveBack, if_neg fun h => hboth ⟨hkey, h⟩]
        rfl
      · rfl
  · rw [hleft key]
    split
    · rw [capacity_giveBack]
      exact hbudgets.capacity key other
    · exact hbudgets.capacity key other
  · rw [hleft key]
    have hbounded := hbudgets.bounded key other
    split
    · rw [used_giveBack, capacity_giveBack]
      omega
    · exact hbounded

theorem lanes_update_away {bound : ℕ} (hlanes : LanesOk waiters bound (isQueued waiters) queue)
    (hplace : SamePlace (waiters id) waiter) (haway : isQueued waiters id = false)
    (hstate : waiter.state ≠ .queued) :
    LanesOk (Function.update waiters id waiter) bound
      (isQueued (Function.update waiters id waiter)) queue := by
  have hcounted : isQueued (Function.update waiters id waiter) = isQueued waiters := by
    funext other
    by_cases heq : other = id
    · rw [heq, haway, isQueued, update_self]
      simpa using hstate
    · exact isQueued_update_of_ne heq
  rw [hcounted]
  exact lanes_update hlanes hplace

/-- A slot given back leaves everything right but the promise it was for. -/
theorem Core.returnSlot (hcore : Core scheduler exempt) (hbound : id < scheduler.nextWaiterId)
    (haway : isQueued scheduler.waiters id = false)
    (hslot : (scheduler.waiters id).slotKind = some slotKind)
    (hnever : (scheduler.waiters id).returns = 0)
    (hexempt : ∀ other, exempt = some other → other = id) :
    let next := scheduler.returnSlot id slotKind
    Core next (some id) ∧ next.nextWaiterId = scheduler.nextWaiterId ∧
      next.waiters = Function.update scheduler.waiters id
        { scheduler.waiters id with returns := (scheduler.waiters id).returns + 1 } ∧
      next.outcomes = scheduler.outcomes ∧
      (∀ key, key ∉ (scheduler.waiters id).budgetKeys →
        next.budgetOf key = scheduler.budgetOf key) ∧ Keeps none scheduler next := by
  intro next
  have hnext : next = scheduler.returnSlot id slotKind := rfl
  unfold GitAdmissionScheduler.returnSlot at hnext
  dsimp only at hnext
  generalize hwaiter : ({ scheduler.waiters id with
    returns := (scheduler.waiters id).returns + 1 } : AdmissionWaiter) = waiter at hnext ⊢
  have hplace : SamePlace (scheduler.waiters id) waiter := by
    rw [← hwaiter]
    exact ⟨rfl, rfl, rfl, rfl⟩
  have hstate : waiter.state ≠ .queued := by
    rw [← hwaiter]
    intro hqueued
    rw [isQueued, hqueued] at haway
    cases haway
  have hreturned : waiter.returns ≠ 0 := by
    rw [← hwaiter]
    exact Nat.succ_ne_zero _
  obtain ⟨budgets, hgive, hvalues, hdomain⟩ := @giveBackSlots_ok (scheduler.setWaiter id waiter)
    slotKind (scheduler.waiters id).budgetKeys (budgetKeys_nodup _)
  have hbudgets : BudgetsOk scheduler.config budgets
      (Function.update scheduler.waiters id waiter) scheduler.nextWaiterId := by
    refine hcore.budgets.giveBack hbound hslot hnever hplace.budgetKeys hreturned fun key => ?_
    rw [hplace.budgetKeys]
    exact hvalues key
  have hbut : EligibleBut scheduler.queue
      (GitAdmissionScheduler.elig { scheduler.setWaiter id waiter with budgets })
      (scheduler.waiters id).admissionClass (scheduler.waiters id).route TIERS := by
    refine eligibleBut_of hcore.eligible fun key hkey => ?_
    exact (hvalues key).trans (if_neg hkey)
  obtain ⟨refreshed, queue, hrefresh, hrefreshed, hrefreshedDomain, hl, hh, he, hcounts, -⟩ :=
    @refreshRouteEligibility_ok { scheduler.setWaiter id waiter with budgets }
      scheduler.nextWaiterId (isQueued (Function.update scheduler.waiters id waiter))
      (scheduler.waiters id).admissionClass (scheduler.waiters id).route
      (lanes_update_away hcore.lanes hplace haway hstate)
      (heaps_update hcore.heaps fun h => absurd h hstate) hbut
  rw [hgive, hrefresh] at hnext
  have hroutes : RoutesBut scheduler.config refreshed queue.countsByBudget
      (scheduler.waiters id).budgetKeys := by
    intro admissionClass route hkey hsome
    have hold : (scheduler.budgets (.ofRoute admissionClass route)).isSome := by
      refine (hdomain _ ?_).resolve_right hkey
      exact (hrefreshedDomain _ hsome).resolve_right fun hmem => hkey (route_key_mem hmem)
    have hvalue : budgetIn scheduler.config refreshed (.ofRoute admissionClass route) =
        budgetIn scheduler.config scheduler.budgets (.ofRoute admissionClass route) :=
      (hrefreshed _).trans ((hvalues _).trans (if_neg hkey))
    rw [hvalue, hcounts]
    exact hcore.routes admissionClass route not_mem_nil hold
  obtain ⟨pruned, hprune, hpruned, hnoRoute⟩ := @pruneRouteBudgets_ok
    { scheduler.setWaiter id waiter with budgets := refreshed, queue }
    (Function.update scheduler.waiters id waiter) scheduler.nextWaiterId
    (scheduler.waiters id).budgetKeys (hbudgets.congr hrefreshed) hroutes
  rw [hprune] at hnext
  rw [hnext]
  refine ⟨⟨hl, hh, ?_, (hbudgets.congr hrefreshed).congr hpruned, hnoRoute, ?_, ?_,
    hcore.outcomes_below, hcore.microtasks_below⟩, rfl, rfl, rfl, fun key hkey => ?_,
    keeps_update rfl hplace rfl (Subset.refl _) (fun hgranted => .inl ?_) fun _ _ => .inl⟩
  · exact eligible_congr he fun key => ((hpruned key).trans (hrefreshed key)).symm
  · intro other hother hne
    have hdifferent : other ≠ id := fun h => hne (h ▸ rfl)
    change PromiseOk other (Function.update scheduler.waiters id waiter other) _
    rw [update_of_ne hdifferent]
    exact hcore.promises other hother fun h => hdifferent (hexempt other h)
  · intro other heq
    cases heq
    rw [isQueued]
    change ((Function.update scheduler.waiters id waiter id).state == .queued) = false
    rw [update_self]
    simpa using hstate
  · exact (hpruned key).trans ((hrefreshed key).trans ((hvalues key).trans (if_neg hkey)))
  · rw [← hwaiter] at hgranted
    exact hgranted

end Moves

end Wakii.GitAdmission
